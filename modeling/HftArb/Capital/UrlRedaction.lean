import HftArb.Execution.DynamicFees
import HftArb.Foundations.ByteOffsets

/-!
# Redaction of URLs in error messages

The loop looks for the next URL from an offset on and skips it up to white space.  Its offsets are
counted in bytes and every slice of the message is checked.  `Redacts` says what a redaction is: a
message without a URL stays, and otherwise the first URL is replaced and what follows it is
redacted.  The loop computes it for every message (`redactUrlsInError_redacts`).
-/

namespace HftArb

namespace UrlRedaction

open ByteOffsets DynamicFees TextSearch

/-- The schemes that begin a URL. -/
def http : List Char := "http://".toList

@[inherit_doc http] def https : List Char := "https://".toList

/-- What a URL is replaced by. -/
def redacted : List Char := "[REDACTED URL]".toList

/-- The start of the first URL from an offset on. -/
def urlStart (rest : List Char) (searchFrom : ℕ) : Option ℕ :=
  let httpPos := (offset http rest).map (· + searchFrom)
  let httpsPos := (offset https rest).map (· + searchFrom)
  match httpPos, httpsPos with
  | some h, some s => some (min h s)
  | some h, none => some h
  | none, some s => some s
  | none, none => none

/-- The loop of `redact_urls_in_error`, for a number of rounds.  A bad slice gives none, as running
out of rounds does. -/
def redactLoop (msg : List Char) : ℕ → ℕ → List Char → Option (List Char)
  | 0, _, _ => none
  | rounds + 1, searchFrom, result =>
    if searchFrom < byteLen msg then
      (sliceFrom msg searchFrom).bind fun rest =>
        match urlStart rest searchFrom with
        | none => some (result ++ rest)
        | some start =>
          (slice msg searchFrom start).bind fun before =>
            (sliceFrom msg start).bind fun urlSlice =>
              let urlEnd := (offsetWhere isWhiteSpace urlSlice).getD (byteLen urlSlice)
              redactLoop msg rounds (start + urlEnd) (result ++ before ++ redacted)
    else some result

/-- `redact_urls_in_error`, for a number of rounds. -/
def redactUrlsInError (rounds : ℕ) (msg : List Char) : Option (List Char) :=
  redactLoop msg rounds 0 []

/-! ## What a redaction is -/

/-- A URL begins here. -/
def BeginsUrl (text : List Char) : Prop := http <+: text ∨ https <+: text

/-- A text that contains no URL. -/
def Clean (text : List Char) : Prop := ¬ http <:+: text ∧ ¬ https <:+: text

/-- No URL begins in the piece when it is followed by the rest. -/
def AvoidsUrls (piece rest : List Char) : Prop :=
  Avoids http piece rest ∧ Avoids https piece rest

/-- The first URL, up to white space or the end, is replaced, and so on with what follows it. -/
inductive Redacts : List Char → List Char → Prop
  | clean {m : List Char} (h : Clean m) : Redacts m m
  | url {before url rest out : List Char} (hbefore : AvoidsUrls before (url ++ rest))
      (hbegins : BeginsUrl url) (hurl : ∀ c ∈ url, isWhiteSpace c = false)
      (hrest : ∀ c, rest.head? = some c → isWhiteSpace c = true) (h : Redacts rest out) :
      Redacts (before ++ (url ++ rest)) (before ++ (redacted ++ out))

/-! ## Redacted texts -/

/-- A URL begins with a scheme, and a scheme with letters that the replacement does not have. -/
lemma scheme_plain {scheme : List Char} (h : scheme = http ∨ scheme = https) :
    scheme ≠ [] ∧ '[' ∉ scheme ∧ ']' ∉ scheme ∧ ¬ scheme <:+: "REDACTED URL".toList ∧
      ∀ c ∈ scheme, isWhiteSpace c = false := by
  have hspace : (http ++ https).all (fun c => !isWhiteSpace c) = true := by decide
  have hletters : ∀ c ∈ http ++ https, isWhiteSpace c = false := fun c hc => by
    simpa using List.all_eq_true.mp hspace c hc
  rcases h with rfl | rfl
  · exact ⟨by decide, by decide, by decide, by decide,
      fun c hc => hletters c (List.mem_append_left https hc)⟩
  · exact ⟨by decide, by decide, by decide, by decide,
      fun c hc => hletters c (List.mem_append_right http hc)⟩

/-- A redaction contains no URL. -/
lemma Redacts.clean_result {m out : List Char} (h : Redacts m out) : Clean out := by
  induction h with
  | clean h => exact h
  | @url before url rest out hbefore hbegins hurl hrest h ih =>
    have hnot : ∀ scheme, scheme = http ∨ scheme = https →
        ¬ scheme <:+: before → ¬ scheme <:+: out → ¬ scheme <:+: before ++ (redacted ++ out) := by
      intro scheme hscheme hfront hback hinfix
      obtain ⟨-, hopen, hclose, hword, -⟩ := scheme_plain hscheme
      have hsplit : redacted ++ out = '[' :: ("REDACTED URL".toList ++ ']' :: out) := rfl
      rw [hsplit] at hinfix
      rcases infix_append_cons hopen hinfix with hinfix | hinfix
      · exact hfront hinfix
      · rcases infix_append_cons hclose hinfix with hinfix | hinfix
        · exact hword hinfix
        · exact hback hinfix
    have hhttp := scheme_plain (Or.inl rfl)
    have hhttps := scheme_plain (Or.inr rfl)
    exact ⟨hnot http (Or.inl rfl) (not_infix_of_avoids hhttp.1 hbefore.1) ih.1,
      hnot https (Or.inr rfl) (not_infix_of_avoids hhttps.1 hbefore.2) ih.2⟩

/-- A text contains no URL, or there is a first one. -/
lemma clean_or_first (m : List Char) :
    AvoidsUrls m [] ∨
      ∃ before tail, m = before ++ tail ∧ AvoidsUrls before tail ∧ BeginsUrl tail := by
  induction m with
  | nil => exact Or.inl ⟨trivial, trivial⟩
  | cons c m ih =>
    by_cases hbegins : BeginsUrl (c :: m)
    · exact Or.inr ⟨[], c :: m, rfl, ⟨trivial, trivial⟩, hbegins⟩
    · obtain ⟨hhttp, hhttps⟩ := not_or.mp hbegins
      rcases ih with ⟨hm, hm'⟩ | ⟨before, tail, rfl, ⟨havoids, havoids'⟩, htail⟩
      · rw [← List.append_nil (c :: m)] at hhttp hhttps
        exact Or.inl ⟨⟨hhttp, hm⟩, hhttps, hm'⟩
      · exact Or.inr ⟨c :: before, tail, rfl, ⟨⟨hhttp, havoids⟩, hhttps, havoids'⟩, htail⟩

/-- The piece up to white space begins with a scheme when the text does. -/
lemma beginsUrl_takeWhile {tail : List Char} (h : BeginsUrl tail) :
    BeginsUrl (tail.takeWhile fun c => !isWhiteSpace c) := by
  have hkeep : ∀ scheme, scheme = http ∨ scheme = https → scheme <+: tail →
      scheme <+: tail.takeWhile fun c => !isWhiteSpace c := by
    rintro scheme hscheme ⟨back, rfl⟩
    obtain ⟨-, -, -, -, hplain⟩ := scheme_plain hscheme
    rw [List.takeWhile_append_of_pos fun c hc => by rw [hplain c hc]; rfl]
    exact List.prefix_append _ _
  exact h.imp (hkeep http (Or.inl rfl)) (hkeep https (Or.inr rfl))

lemma ne_nil_of_beginsUrl {text : List Char} (h : BeginsUrl text) : text ≠ [] := by
  rintro rfl
  rcases h with h | h
  · exact (scheme_plain (Or.inl rfl)).1 (List.prefix_nil.mp h)
  · exact (scheme_plain (Or.inr rfl)).1 (List.prefix_nil.mp h)

/-- Every text has a redaction. -/
lemma exists_redacts (m : List Char) : ∃ out, Redacts m out := by
  rcases clean_or_first m with hclean | ⟨before, tail, rfl, hbefore, hbegins⟩
  · exact ⟨m, .clean ⟨not_infix_of_avoids (scheme_plain (Or.inl rfl)).1 hclean.1,
      not_infix_of_avoids (scheme_plain (Or.inr rfl)).1 hclean.2⟩⟩
  · have hurl := beginsUrl_takeWhile hbegins
    have hpos := List.length_pos_iff.mpr (ne_nil_of_beginsUrl hurl)
    have hsplit : (tail.takeWhile fun c => !isWhiteSpace c) ++
        (tail.dropWhile fun c => !isWhiteSpace c) = tail := List.takeWhile_append_dropWhile
    have hlength := congrArg List.length hsplit
    rw [List.length_append] at hlength
    have hshorter : (tail.dropWhile fun c => !isWhiteSpace c).length < (before ++ tail).length := by
      rw [List.length_append]
      omega
    obtain ⟨out, hout⟩ := exists_redacts (tail.dropWhile fun c => !isWhiteSpace c)
    refine ⟨before ++ (redacted ++ out), ?_⟩
    rw [← hsplit] at hbefore ⊢
    refine .url hbefore hurl (fun c hc => ?_) (fun c hc => ?_) hout
    · simpa using List.mem_takeWhile_imp hc
    · have hhead := List.head?_dropWhile_not (fun c => !isWhiteSpace c) tail
      rw [hc] at hhead
      simpa using hhead
termination_by m.length

/-! ## The loop -/

/-- The first of both searches ends at the first URL. -/
lemma urlStart_of_beginsUrl {before tail : List Char} (hbefore : AvoidsUrls before tail)
    (hbegins : BeginsUrl tail) (searchFrom : ℕ) :
    urlStart (before ++ tail) searchFrom = some (searchFrom + byteLen before) := by
  have hzero : offset http tail = some 0 ∨ offset https tail = some 0 := by
    rcases hbegins with ⟨back, rfl⟩ | ⟨back, rfl⟩
    · exact Or.inl (offset_append_self _ _)
    · exact Or.inr (offset_append_self _ _)
  rw [urlStart, offset_append_of_avoids hbefore.1, offset_append_of_avoids hbefore.2]
  rcases hzero with hzero | hzero
  · rw [hzero]
    cases offset https tail with
    | none => simp [Nat.add_comm]
    | some i => simp [Nat.add_comm]
  · rw [hzero]
    cases offset http tail with
    | none => simp [Nat.add_comm]
    | some i => simp [Nat.add_comm]

lemma urlStart_of_clean {rest : List Char} (h : Clean rest) (searchFrom : ℕ) :
    urlStart rest searchFrom = none := by
  rw [urlStart, offset_eq_none h.1, offset_eq_none h.2]
  rfl

/-- The loop redacts what is left of the message, a URL in each round. -/
lemma redactLoop_of_redacts {rest out : List Char} (h : Redacts rest out) (done : List Char)
    {rounds : ℕ} (hrounds : byteLen rest < rounds) (result : List Char) :
    redactLoop (done ++ rest) rounds (byteLen done) result = some (result ++ out) := by
  induction h generalizing done rounds result with
  | @clean rest h =>
    obtain ⟨rounds, rfl⟩ := Nat.exists_eq_add_of_lt (Nat.zero_lt_of_lt hrounds)
    rw [Nat.zero_add, redactLoop, byteLen_append]
    by_cases hnil : rest = []
    · subst hnil
      rw [byteLen_nil, if_neg (by omega), List.append_nil]
    · have hpos := byteLen_pos hnil
      rw [if_pos (by omega), sliceFrom_append, Option.bind_some, urlStart_of_clean h]
  | @url before url rest out hbefore hbegins hurl hrest h ih =>
    obtain ⟨rounds, rfl⟩ := Nat.exists_eq_add_of_lt (Nat.zero_lt_of_lt hrounds)
    have hpos := byteLen_pos (ne_nil_of_beginsUrl hbegins)
    have htail : BeginsUrl (url ++ rest) :=
      hbegins.imp (fun hscheme => hscheme.trans (List.prefix_append _ _))
        fun hscheme => hscheme.trans (List.prefix_append _ _)
    rw [byteLen_append, byteLen_append] at hrounds
    have hslice : sliceFrom (done ++ (before ++ (url ++ rest))) (byteLen done + byteLen before) =
        some (url ++ rest) := by
      rw [← List.append_assoc, ← byteLen_append, sliceFrom_append]
    have hnext : done ++ (before ++ (url ++ rest)) = (done ++ before ++ url) ++ rest := by
      simp only [List.append_assoc]
    have hoffset : byteLen done + byteLen before + byteLen url =
        byteLen (done ++ before ++ url) := by
      rw [byteLen_append, byteLen_append]
    rw [Nat.zero_add, redactLoop, byteLen_append, byteLen_append, byteLen_append,
      if_pos (by omega), sliceFrom_append, Option.bind_some,
      urlStart_of_beginsUrl hbefore htail]
    simp only [slice_append, hslice, Option.bind_some]
    rw [offsetWhere_append hurl hrest, hoffset, hnext, ih _ (by omega)]
    simp only [List.append_assoc]

/-- The message is redacted: the loop ends without a bad slice, with the only redaction there is,
which contains no URL and is left alone by another redaction. -/
theorem redactUrlsInError_redacts (m : List Char) :
    ∃ out, (∀ rounds, byteLen m < rounds → redactUrlsInError rounds m = some out) ∧
      (∀ out', Redacts m out' ↔ out' = out) ∧ ¬ http <:+: out ∧ ¬ https <:+: out ∧
      ∀ rounds, byteLen out < rounds → redactUrlsInError rounds out = some out := by
  obtain ⟨out, hout⟩ := exists_redacts m
  have hloop : ∀ {text text' : List Char}, Redacts text text' →
      ∀ rounds, byteLen text < rounds → redactUrlsInError rounds text = some text' :=
    fun h rounds hrounds => redactLoop_of_redacts h [] hrounds []
  refine ⟨out, hloop hout, fun out' => ⟨fun h' => ?_, fun h' => h' ▸ hout⟩, hout.clean_result.1,
    hout.clean_result.2, hloop (.clean hout.clean_result)⟩
  have hsame := hloop h' (byteLen m + 1) (Nat.lt_succ_self _)
  rw [hloop hout _ (Nat.lt_succ_self _)] at hsame
  exact (Option.some.inj hsame).symm

end UrlRedaction

end HftArb
