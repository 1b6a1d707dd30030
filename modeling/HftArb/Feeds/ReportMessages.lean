import HftArb.Feeds.ExecutionReports
import HftArb.Foundations.Runs

/-!
# Execution reports and their messages

What the two parsers of execution reports return for a message, against what the message says.  The
locals of a parser are written by one key each, so that the members can come in any order:
`read_foldl_storeBy`.

A trade id is read up to the first byte that is not a digit, so that 5.5 is taken for 5.  Apart from
such numbers, and from sides that are not strings, the parsers agree with the message:
`executionReports_iff`.
-/

namespace HftArb

open Numerals Runs TickerParser

namespace OrderFeed

/-! ## Members by their keys -/

/-- The value of a one-byte key. -/
def valueOf (members : List Member) (key : UInt8) : Option Value :=
  (members.find? fun m => m.key.bytes == [key]).map Member.value

lemma exists_of_valueOf {members : List Member} {key : UInt8} {v : Value}
    (h : valueOf members key = some v) : ∃ m ∈ members, m.key.bytes = [key] ∧ m.value = v := by
  obtain ⟨m, hfind, hvalue⟩ := Option.map_eq_some_iff.mp h
  exact ⟨m, List.mem_of_find?_eq_some hfind, by simpa using List.find?_some hfind, hvalue⟩

lemma ne_of_valueOf {members : List Member} {key : UInt8} (h : valueOf members key = none) :
    ∀ m ∈ members, m.key.bytes ≠ [key] := by
  rw [valueOf, Option.map_eq_none_iff, List.find?_eq_none] at h
  intro m hm hkey
  exact h m hm (by simp [hkey])

/-- With distinct keys each member has the value of its key. -/
lemma valueOf_of_mem {members : List Member} {key : UInt8} {m : Member}
    (hnodup : (members.map fun m => m.key.bytes).Nodup) (hm : m ∈ members)
    (hkey : m.key.bytes = [key]) : valueOf members key = some m.value := by
  cases hvalue : valueOf members key with
  | none => exact absurd hkey (ne_of_valueOf hvalue m hm)
  | some v =>
    obtain ⟨m', hm', hkey', rfl⟩ := exists_of_valueOf hvalue
    rw [List.inj_on_of_nodup_map hnodup hm' hm (hkey'.trans hkey.symm)]

/-- With distinct keys a key is found at one member only. -/
lemma exists_split_of_mem {members : List Member} {key : UInt8} {m : Member}
    (hnodup : (members.map fun m => m.key.bytes).Nodup) (hm : m ∈ members)
    (hkey : m.key.bytes = [key]) :
    ∃ pre post, members = pre ++ m :: post ∧ (∀ m' ∈ pre, m'.key.bytes ≠ [key]) ∧
      ∀ m' ∈ post, m'.key.bytes ≠ [key] := by
  obtain ⟨pre, post, rfl⟩ := List.append_of_mem hm
  rw [List.map_append, List.map_cons, List.nodup_append, List.nodup_cons, hkey] at hnodup
  refine ⟨pre, post, rfl, ?_, ?_⟩
  · intro m' hm'
    exact hnodup.2.2 _ (List.mem_map_of_mem hm') _ List.mem_cons_self
  · intro m' hm' hkey'
    exact hnodup.2.1.1 (List.mem_map.mpr ⟨m', hm', hkey'⟩)

/-- A local that only one key writes is left as it is by the members with other keys. -/
lemma read_storeBy_of_ne {β : Type} {effect : UInt8 → Value → Fields → Fields}
    {read : Fields → β} {key : UInt8}
    (hother : ∀ key' v f, key' ≠ key → read (effect key' v f) = read f) (f : Fields) (m : Member)
    (hm : m.key.bytes ≠ [key]) : read (storeBy effect f m) = read f := by
  rw [storeBy]
  split
  · next key' heq => exact hother key' _ f fun h => hm (by rw [heq, h])
  · rfl

/-- What the members leave in a local that only one key writes. -/
lemma read_foldl_storeBy {β : Type} {effect : UInt8 → Value → Fields → Fields}
    {read : Fields → β} {key : UInt8}
    (hother : ∀ key' v f, key' ≠ key → read (effect key' v f) = read f) {members : List Member}
    (hnodup : (members.map fun m => m.key.bytes).Nodup) (f : Fields) :
    (valueOf members key = none ∧ read (members.foldl (storeBy effect) f) = read f) ∨
      ∃ v f', valueOf members key = some v ∧ read f' = read f ∧
        read (members.foldl (storeBy effect) f) = read (effect key v f') := by
  have hstore := read_storeBy_of_ne hother
  cases hvalue : valueOf members key with
  | none => exact Or.inl ⟨rfl, foldl_of_forall_ne hstore (ne_of_valueOf hvalue) f⟩
  | some v =>
    obtain ⟨m, hm, hkey, rfl⟩ := exists_of_valueOf hvalue
    obtain ⟨f', hf', hread⟩ := exists_foldl_of_mem hstore hnodup hm hkey f
    exact Or.inr ⟨m.value, f', rfl, hf', by rw [hread, storeBy_of_key hkey]⟩

/-! ## Messages -/

/-- A plain decimal of at most 28 digits. -/
structure PlainDecimal where
  number : JsonNumber
  short : number.digits.length + number.fraction.length ≤ 28

/-- A value is a plain decimal, in quotes or not, and a missing value is none. -/
def Carries : Option Value → Option PlainDecimal → Prop
  | none, none => True
  | some v, some d => v.inner = d.number.render
  | _, _ => False

/-- A flat object with distinct keys whose balance, filled quantity and fill price are plain
decimals where they are present. -/
structure ReportMessage where
  members : List Member
  balance : Option PlainDecimal
  filledQty : Option PlainDecimal
  fillPrice : Option PlainDecimal
  keys_nodup : (members.map fun m => m.key.bytes).Nodup
  balance_eq : Carries (valueOf members keyBalance) balance
  filledQty_eq : Carries (valueOf members keyQty) filledQty
  fillPrice_eq : Carries (valueOf members keyPrice) fillPrice

/-- The value of a decimal, zero when there is none. -/
def amount (d : Option PlainDecimal) : ℚ := (d.map fun d => d.number.value).getD 0

/-- The bytes of a string. -/
def stringOf : Option Value → Option (List UInt8)
  | some (.string s) => some s.bytes
  | _ => none

/-- The digits of a positive integer. -/
def positiveInteger : Option Value → Option (List UInt8)
  | some (.number n) =>
    if n.negative = false ∧ n.integer.map Fin.val ≠ [0] ∧ n.suffix = [] then
      some (n.integer.map digitByte)
    else none
  | _ => none

/-- A number that is not negative and at least one, and not written as an integer. -/
def Truncated : Option Value → Prop
  | some (.number n) => n.negative = false ∧ n.integer.map Fin.val ≠ [0] ∧ n.suffix ≠ []
  | _ => False

instance : DecidablePred Truncated := fun v =>
  match v with
  | some (.number n) =>
    inferInstanceAs
      (Decidable (n.negative = false ∧ n.integer.map Fin.val ≠ [0] ∧ n.suffix ≠ []))
  | some (.string _) => .isFalse id
  | some (.literal _) => .isFalse id
  | none => .isFalse id

namespace ReportMessage

variable (msg : ReportMessage)

/-- The bytes of the message. -/
def payload : List UInt8 := renderObject msg.members

/-- The value of a key. -/
def get (key : UInt8) : Option Value := valueOf msg.members key

/-- The message is an execution report. -/
def IsReport : Prop := stringOf (msg.get keyE) = some executionReport

instance : Decidable msg.IsReport := inferInstanceAs (Decidable (_ = _))

/-- The first parser returns a report exactly for an execution report with a positive integer as its
trade id, with this trade id and the balance. -/
def Agrees (fromStr : List UInt8 → Option ℚ) : Prop :=
  (parseExecutionReportBytes fromStr msg.payload).map
      (Option.map fun report => (report.tradeIdStr, report.balance)) =
    some (if msg.IsReport then
      (positiveInteger (msg.get keyT)).map fun literal => (literal, amount msg.balance)
    else none)

/-- The full parser returns the report with all its fields, when there is a symbol. -/
def AgreesFully (fromStr : List UInt8 → Option ℚ) : Prop :=
  ∀ literal symbol, msg.IsReport → positiveInteger (msg.get keyT) = some literal →
    stringOf (msg.get keySymbol) = some symbol → symbol ≠ [] →
    (parseFullExecutionReport fromStr msg.payload).map
        (Option.map fun report => (report.tradeIdStr, report.balance, report.symbol, report.side,
          report.filledQty, report.fillPrice)) =
      some (some (literal, amount msg.balance, symbol, (stringOf (msg.get keySide)).getD [],
        amount msg.filledQty, amount msg.fillPrice))

/-- The trade id of an execution report is not cut short, and with a positive integer and a symbol
its side is a string where it is present. -/
def ReadsRight : Prop :=
  msg.IsReport → ¬ Truncated (msg.get keyT) ∧
    ∀ literal symbol, positiveInteger (msg.get keyT) = some literal →
      stringOf (msg.get keySymbol) = some symbol → symbol ≠ [] →
      ∀ v, msg.get keySide = some v → v.IsString

end ReportMessage

/-! ## What the values say -/

/-- The digits at the start of a number. -/
lemma takeWhile_isDigit_number (n : NumberLiteral) :
    n.render.takeWhile isDigit = if n.negative then [] else n.integer.map digitByte := by
  have hall : ∀ c ∈ n.integer.map digitByte, isDigit c = true := by
    intro c hc
    obtain ⟨d, -, rfl⟩ := List.mem_map.mp hc
    exact isDigit_digitByte d
  have hsuffix : n.suffix.takeWhile isDigit = [] := by
    unfold NumberLiteral.suffix
    split
    · cases n.exponent with
      | none => rfl
      | some e =>
        have hmark : isDigit e.mark = false := by
          rcases e.mark_eq with h | h <;> rw [h] <;> decide
        simp [Exponent.render, hmark]
    · have hdot : isDigit dot = false := by decide
      simp [hdot]
  unfold NumberLiteral.render
  cases n.negative with
  | true =>
    have hsign : isDigit 45 = false := by decide
    simp [hsign]
  | false =>
    rw [if_neg Bool.false_ne_true, if_neg Bool.false_ne_true, List.nil_append,
      List.takeWhile_append_of_pos hall, hsuffix, List.append_nil]

lemma digitByte_eq_zeroByte : ∀ d, digitByte d = zeroByte ↔ d.val = 0 := by decide

/-- The digits read in a value, when they make a trade id. -/
lemma tradeId_accepted_iff (v : Value) :
    (v.render.takeWhile isDigit ≠ [] ∧ v.render.takeWhile isDigit ≠ [zeroByte]) ↔
      (positiveInteger (some v)).isSome = true ∨ Truncated (some v) := by
  cases v with
  | string s =>
    have hquote : isDigit quote = false := by decide
    simp [Value.render, PlainString.render, hquote, positiveInteger, Truncated]
  | literal l => cases l <;> decide
  | number n =>
    have hne : n.integer.map digitByte ≠ [] := by simpa using n.integer_ne
    have hzero : n.integer.map digitByte = [zeroByte] ↔ n.integer.map Fin.val = [0] := by
      rw [List.map_eq_singleton_iff, List.map_eq_singleton_iff]
      simp only [digitByte_eq_zeroByte]
    rw [Value.render, takeWhile_isDigit_number, positiveInteger, Truncated]
    cases n.negative with
    | true => simp
    | false =>
      rw [if_neg Bool.false_ne_true, Ne, Ne, hzero]
      by_cases hsuffix : n.suffix = [] <;> by_cases hinteger : n.integer.map Fin.val = [0] <;>
        simp [hsuffix, hinteger, n.integer_ne]

/-- A positive integer is read as it stands. -/
lemma takeWhile_of_positiveInteger {v : Value} {literal : List UInt8}
    (h : positiveInteger (some v) = some literal) : v.render.takeWhile isDigit = literal := by
  cases v with
  | string s => simp [positiveInteger] at h
  | literal l => simp [positiveInteger] at h
  | number n =>
    rw [positiveInteger] at h
    split at h
    · next hcond =>
      rw [Value.render, takeWhile_isDigit_number, hcond.1, if_neg Bool.false_ne_true]
      exact Option.some.inj h
    · cases h

/-- The event is recognised when it says so. -/
lemma render_eq_quotedReport_iff (v : Value) :
    v.render = quotedReport ↔ stringOf (some v) = some executionReport := by
  cases v with
  | string s => simp [Value.render, PlainString.render, quotedReport, stringOf]
  | number n =>
    refine iff_of_false (fun h => ?_) (by simp [stringOf])
    have hmem : quote ∈ (Value.number n).render := by
      rw [h]
      decide
    exact n.quote_not_mem hmem
  | literal l => cases l <;> simp [stringOf] <;> decide

/-- A plain decimal is read as it stands. -/
lemma decimal_of_inner {v : Value} {d : PlainDecimal} (h : v.inner = d.number.render) :
    v.decimal = d.number.render ∧ v.decimal ≠ [] := by
  have hdigits : ∀ ds : List (Fin 10), ∀ c ∈ ds.map digitByte, (isDigit c || c == dot) = true := by
    intro ds c hc
    obtain ⟨d, -, rfl⟩ := List.mem_map.mp hc
    simp [isDigit_digitByte]
  have hall : ∀ c ∈ d.number.render, (isDigit c || c == dot) = true := by
    intro c hc
    rcases List.mem_append.mp hc with hc | hc
    · exact hdigits _ c hc
    · split at hc
      · exact absurd hc List.not_mem_nil
      · rcases List.mem_cons.mp hc with rfl | hc
        · decide
        · exact hdigits _ c hc
  have hdecimal : v.decimal = d.number.render := by
    rw [Value.decimal, h, List.takeWhile_eq_self_iff.mpr hall]
  refine ⟨hdecimal, ?_⟩
  rw [hdecimal]
  simp [JsonNumber.render, d.number.digits_ne]

/-! ## What the parsers are left with -/

/-- What the effects of both parsers have in common. -/
structure Reads (fromStr : List UInt8 → Option ℚ) (effect : UInt8 → Value → Fields → Fields) :
    Prop where
  event : ∀ v f, effect keyE v f = eventEffect v f
  trade : ∀ v f, effect keyT v f = tradeEffect v f
  balance : ∀ v f, v.decimal ≠ [] →
    (effect keyBalance v f).balance = (fromStr v.decimal).getD f.balance
  event_other : ∀ key v f, key ≠ keyE →
    (effect key v f).isExecutionReport = f.isExecutionReport
  trade_other : ∀ key v f, key ≠ keyT → (effect key v f).tradeIdStr = f.tradeIdStr
  balance_other : ∀ key v f, key ≠ keyBalance → (effect key v f).balance = f.balance

variable (fromStr : List UInt8 → Option ℚ)

lemma reads_effect : Reads fromStr (effect fromStr) := by
  constructor
  · intro v f
    rfl
  · intro v f
    rfl
  · intro v f hne
    exact if_neg hne
  all_goals
    intro key v f hkey
    unfold effect eventEffect tradeEffect
    split_ifs <;> first | rfl | contradiction

/-- A local that the full parser writes for one key only is left by every other key. -/
lemma read_fullEffect_of_ne {β : Type} (read : Fields → β) {key : UInt8}
    (hevent : key ≠ keyE → ∀ f b, read { f with isExecutionReport := b } = read f)
    (htrade : key ≠ keyT → ∀ f s t, read { f with tradeIdStr := s, tokenId := t } = read f)
    (hbalance : key ≠ keyBalance → ∀ f x, read { f with balance := x } = read f)
    (hqty : key ≠ keyQty → ∀ f x, read { f with filledQty := x } = read f)
    (hprice : key ≠ keyPrice → ∀ f x, read { f with fillPrice := x } = read f)
    (hsymbol : key ≠ keySymbol → ∀ f s, read { f with symbol := s } = read f)
    (hside : key ≠ keySide → ∀ f s, read { f with side := s } = read f) (key' : UInt8) (v : Value)
    (f : Fields) (hne : key' ≠ key) : read (fullEffect fromStr key' v f) = read f := by
  unfold fullEffect
  split_ifs with he ht hb hq hp hs hd
  · unfold eventEffect
    split
    · exact hevent (he ▸ hne.symm) f true
    · rfl
  · exact htrade (ht ▸ hne.symm) f _ _
  · exact hbalance (hb ▸ hne.symm) f _
  · exact hqty (hq ▸ hne.symm) f _
  · exact hprice (hp ▸ hne.symm) f _
  · exact hsymbol (hs ▸ hne.symm) f _
  · exact hside (hd ▸ hne.symm) f _
  · rfl

lemma reads_fullEffect : Reads fromStr (fullEffect fromStr) where
  event _ _ := rfl
  trade _ _ := rfl
  balance _ _ _ := rfl
  event_other := read_fullEffect_of_ne fromStr Fields.isExecutionReport (absurd rfl)
    (fun _ _ _ _ => rfl) (fun _ _ _ => rfl) (fun _ _ _ => rfl) (fun _ _ _ => rfl)
    (fun _ _ _ => rfl) (fun _ _ _ => rfl)
  trade_other := read_fullEffect_of_ne fromStr Fields.tradeIdStr (fun _ _ _ => rfl) (absurd rfl)
    (fun _ _ _ => rfl) (fun _ _ _ => rfl) (fun _ _ _ => rfl) (fun _ _ _ => rfl) (fun _ _ _ => rfl)
  balance_other := read_fullEffect_of_ne fromStr Fields.balance (fun _ _ _ => rfl)
    (fun _ _ _ _ => rfl) (absurd rfl) (fun _ _ _ => rfl) (fun _ _ _ => rfl) (fun _ _ _ => rfl)
    (fun _ _ _ => rfl)

section Final

variable {fromStr} {effect : UInt8 → Value → Fields → Fields} (hreads : Reads fromStr effect)
  (msg : ReportMessage)

/-- The locals after all members. -/
def final (effect : UInt8 → Value → Fields → Fields) (msg : ReportMessage) : Fields :=
  msg.members.foldl (storeBy effect) Fields.init

include hreads

lemma Reads.final_isExecutionReport :
    (final effect msg).isExecutionReport = true ↔ msg.IsReport := by
  unfold ReportMessage.IsReport ReportMessage.get
  rcases read_foldl_storeBy hreads.event_other msg.keys_nodup Fields.init with
    ⟨hvalue, hread⟩ | ⟨v, f, hvalue, hf, hread⟩
  · rw [final, hread, hvalue]
    exact iff_of_false Bool.false_ne_true (Option.some_ne_none _).symm
  · have hinit : f.isExecutionReport = false := hf
    rw [final, hread, hvalue, hreads.event, ← render_eq_quotedReport_iff, eventEffect]
    split
    · next heq => exact iff_of_true rfl heq
    · next hne => exact iff_of_false (by rw [hinit]; exact Bool.false_ne_true) hne

lemma Reads.final_tradeIdStr :
    (final effect msg).tradeIdStr =
      (msg.get keyT).elim [] fun v => v.render.takeWhile isDigit := by
  unfold ReportMessage.get
  rcases read_foldl_storeBy hreads.trade_other msg.keys_nodup Fields.init with
    ⟨hvalue, hread⟩ | ⟨v, f, hvalue, -, hread⟩
  · rw [final, hread, hvalue]
    rfl
  · rw [final, hread, hvalue, hreads.trade]
    rfl

end Final

section Amounts

variable {fromStr} (hfrom : ∀ d : PlainDecimal, fromStr d.number.render = some d.number.value)

include hfrom

/-- What the members leave in an amount that only one key writes. -/
lemma read_amount {effect : UInt8 → Value → Fields → Fields} {read : Fields → ℚ} {key : UInt8}
    (hother : ∀ key' v f, key' ≠ key → read (effect key' v f) = read f)
    (hkey : ∀ v f, v.decimal ≠ [] → read (effect key v f) = (fromStr v.decimal).getD (read f))
    (hinit : read Fields.init = 0) {msg : ReportMessage} {d : Option PlainDecimal}
    (hcarries : Carries (valueOf msg.members key) d) : read (final effect msg) = amount d := by
  rcases read_foldl_storeBy hother msg.keys_nodup Fields.init with
    ⟨hvalue, hread⟩ | ⟨v, f, hvalue, -, hread⟩
  · rw [final, hread, hinit]
    rw [hvalue] at hcarries
    cases d with
    | none => rfl
    | some d => exact absurd hcarries id
  · rw [hvalue] at hcarries
    cases d with
    | none => exact absurd hcarries id
    | some d =>
      obtain ⟨hdecimal, hne⟩ := decimal_of_inner hcarries
      rw [final, hread, hkey v f hne, hdecimal, hfrom d]
      rfl

lemma Reads.final_balance {effect : UInt8 → Value → Fields → Fields}
    (hreads : Reads fromStr effect) (msg : ReportMessage) :
    (final effect msg).balance = amount msg.balance :=
  read_amount hfrom hreads.balance_other hreads.balance rfl msg.balance_eq

end Amounts

/-! ## The first parser -/

/-- The first parser keeps in step with the members of every message. -/
lemma scan_field (msg : ReportMessage) :
    scan (field fromStr) msg.payload Fields.init = some (final (effect fromStr) msg) := by
  have hstep : ∀ m ∈ msg.members, ∀ post f,
      scan (field fromStr) (m.render ++ renderTail post) f =
        scan (field fromStr) (renderTail post) (storeBy (effect fromStr) f m) := by
    intro m _ post f
    exact scan_storeBy fun key _ => field_render fromStr m.value post f key
  rw [ReportMessage.payload, scan_renderObject, scan_members_to_end _ hstep, final]

/-- The digits that are read as the trade id. -/
lemma accepted_iff (v : Option Value) :
    ((v.elim [] fun v => v.render.takeWhile isDigit) ≠ [] ∧
      (v.elim [] fun v => v.render.takeWhile isDigit) ≠ [zeroByte]) ↔
      (positiveInteger v).isSome = true ∨ Truncated v := by
  cases v with
  | none => simp [positiveInteger, Truncated]
  | some v => exact tradeId_accepted_iff v

lemma elim_of_positiveInteger {v : Option Value} {literal : List UInt8}
    (h : positiveInteger v = some literal) :
    (v.elim [] fun v => v.render.takeWhile isDigit) = literal := by
  cases v with
  | none => cases h
  | some v => exact takeWhile_of_positiveInteger h

/-- A number that is cut short is no integer. -/
lemma positiveInteger_of_truncated {v : Option Value} (h : Truncated v) :
    positiveInteger v = none := by
  rcases v with _ | _ | n | _
  · rfl
  · rfl
  · exact if_neg fun hcond => h.2.2 hcond.2.2
  · rfl

/-- The first parser agrees with a message unless it cuts its trade id short. -/
lemma agrees_iff {fromStr : List UInt8 → Option ℚ}
    (hfrom : ∀ d : PlainDecimal, fromStr d.number.render = some d.number.value)
    (msg : ReportMessage) :
    msg.Agrees fromStr ↔ (msg.IsReport → ¬ Truncated (msg.get keyT)) := by
  have hreads := reads_effect fromStr
  have haccept : ((final (effect fromStr) msg).isExecutionReport = true ∧
      (final (effect fromStr) msg).tradeIdStr ≠ [] ∧
      (final (effect fromStr) msg).tradeIdStr ≠ [zeroByte]) ↔
      msg.IsReport ∧
        ((positiveInteger (msg.get keyT)).isSome = true ∨ Truncated (msg.get keyT)) := by
    rw [hreads.final_isExecutionReport, hreads.final_tradeIdStr, accepted_iff]
  unfold ReportMessage.Agrees
  rw [parseExecutionReportBytes, scan_field, Option.map_some, Option.map_some, Option.some_inj]
  by_cases hreport : msg.IsReport
  · rw [if_pos hreport]
    by_cases htruncated : Truncated (msg.get keyT)
    · rw [if_pos (haccept.mpr ⟨hreport, Or.inr htruncated⟩),
        positiveInteger_of_truncated htruncated]
      exact iff_of_false (Option.some_ne_none _) fun h => h hreport htruncated
    · refine iff_of_true ?_ fun _ => htruncated
      cases hinteger : positiveInteger (msg.get keyT) with
      | none =>
        rw [if_neg fun h => ?_]
        · rfl
        · rcases (haccept.mp h).2 with hsome | h
          · rw [hinteger] at hsome
            exact Bool.false_ne_true hsome
          · exact htruncated h
      | some literal =>
        rw [if_pos (haccept.mpr ⟨hreport, Or.inl (by rw [hinteger]; rfl)⟩), Option.map_some,
          hreads.final_tradeIdStr, elim_of_positiveInteger hinteger, hreads.final_balance hfrom]
        rfl
  · rw [if_neg hreport, if_neg fun h => hreport (haccept.mp h).1]
    exact iff_of_true rfl fun h => absurd h hreport

/-! ## The full parser -/

section Full

variable {fromStr} {msg : ReportMessage}

/-- The full parser keeps in step with a member whose symbol or side is a string. -/
lemma scan_fullField {m : Member}
    (hstring : ∀ key, m.key.bytes = [key] → key = keySymbol ∨ key = keySide → m.value.IsString)
    (post : List Member) (f : Fields) :
    scan (fullField fromStr) (m.render ++ renderTail post) f =
      scan (fullField fromStr) (renderTail post) (storeBy (fullEffect fromStr) f m) :=
  scan_storeBy fun key hkey => fullField_render fromStr m.value post f key (hstring key hkey)

lemma isString_of_stringOf {v : Value} {s : List UInt8} (h : stringOf (some v) = some s) :
    v.IsString ∧ v.inner = s := by
  cases v with
  | string t => exact ⟨trivial, Option.some.inj h⟩
  | number n => cases h
  | literal l => cases h

/-- The values of a key that is read as a text are strings. -/
def TextAt (msg : ReportMessage) (key : UInt8) : Prop := ∀ v, msg.get key = some v → v.IsString

lemma textAt_of_stringOf {key : UInt8} {s : List UInt8} (h : stringOf (msg.get key) = some s) :
    TextAt msg key := by
  intro v hv
  rw [hv] at h
  exact (isString_of_stringOf h).1

lemma TextAt.isString {key : UInt8} (h : TextAt msg key) {m : Member} (hm : m ∈ msg.members)
    (hkey : m.key.bytes = [key]) : m.value.IsString :=
  h m.value (valueOf_of_mem msg.keys_nodup hm hkey)

/-- The full parser keeps in step with a message whose symbol and side are strings. -/
lemma scan_fullField_payload (hsymbol : TextAt msg keySymbol) (hside : TextAt msg keySide) :
    scan (fullField fromStr) msg.payload Fields.init =
      some (final (fullEffect fromStr) msg) := by
  have hstep : ∀ m ∈ msg.members, ∀ post f,
      scan (fullField fromStr) (m.render ++ renderTail post) f =
        scan (fullField fromStr) (renderTail post) (storeBy (fullEffect fromStr) f m) := by
    intro m hm post f
    refine scan_fullField (fun key hkey htext => ?_) post f
    rcases htext with rfl | rfl
    · exact hsymbol.isString hm hkey
    · exact hside.isString hm hkey
  rw [ReportMessage.payload, scan_renderObject, scan_members_to_end _ hstep, final]

lemma fullEffect_side_of_ne (key : UInt8) (v : Value) (f : Fields) (hkey : key ≠ keySide) :
    (fullEffect fromStr key v f).side = f.side :=
  read_fullEffect_of_ne fromStr Fields.side (fun _ _ _ => rfl) (fun _ _ _ _ => rfl)
    (fun _ _ _ => rfl) (fun _ _ _ => rfl) (fun _ _ _ => rfl) (fun _ _ _ => rfl) (absurd rfl) key v f
    hkey

lemma fullEffect_symbol_of_ne (key : UInt8) (v : Value) (f : Fields) (hkey : key ≠ keySymbol) :
    (fullEffect fromStr key v f).symbol = f.symbol :=
  read_fullEffect_of_ne fromStr Fields.symbol (fun _ _ _ => rfl) (fun _ _ _ _ => rfl)
    (fun _ _ _ => rfl) (fun _ _ _ => rfl) (fun _ _ _ => rfl) (absurd rfl) (fun _ _ _ => rfl) key v f
    hkey

lemma fullEffect_filledQty_of_ne (key : UInt8) (v : Value) (f : Fields) (hkey : key ≠ keyQty) :
    (fullEffect fromStr key v f).filledQty = f.filledQty :=
  read_fullEffect_of_ne fromStr Fields.filledQty (fun _ _ _ => rfl) (fun _ _ _ _ => rfl)
    (fun _ _ _ => rfl) (absurd rfl) (fun _ _ _ => rfl) (fun _ _ _ => rfl) (fun _ _ _ => rfl) key v f
    hkey

lemma fullEffect_fillPrice_of_ne (key : UInt8) (v : Value) (f : Fields) (hkey : key ≠ keyPrice) :
    (fullEffect fromStr key v f).fillPrice = f.fillPrice :=
  read_fullEffect_of_ne fromStr Fields.fillPrice (fun _ _ _ => rfl) (fun _ _ _ _ => rfl)
    (fun _ _ _ => rfl) (fun _ _ _ => rfl) (absurd rfl) (fun _ _ _ => rfl) (fun _ _ _ => rfl) key v f
    hkey

/-- What the members leave in a text that only one key writes. -/
lemma read_text {read : Fields → List UInt8} {key : UInt8}
    (hother : ∀ key' v f, key' ≠ key → read (fullEffect fromStr key' v f) = read f)
    (hkey : ∀ v f, read (fullEffect fromStr key v f) = v.inner) (hinit : read Fields.init = [])
    (htext : TextAt msg key) :
    read (final (fullEffect fromStr) msg) = (stringOf (msg.get key)).getD [] := by
  rcases read_foldl_storeBy hother msg.keys_nodup Fields.init with
    ⟨hvalue, hread⟩ | ⟨v, f, hvalue, -, hread⟩
  · rw [final, hread, hinit, ReportMessage.get, hvalue]
    rfl
  · have hv := htext v hvalue
    rw [final, hread, hkey, ReportMessage.get, hvalue]
    cases v with
    | string s => rfl
    | number n => exact absurd hv id
    | literal l => exact absurd hv id

/-- Apart from its side, the full parser keeps in step with a message whose symbol is a string. -/
lemma scan_fullField_of_ne (hsymbol : TextAt msg keySymbol) {m : Member} (hm : m ∈ msg.members)
    (hne : m.key.bytes ≠ [keySide]) (post : List Member) (f : Fields) :
    scan (fullField fromStr) (m.render ++ renderTail post) f =
      scan (fullField fromStr) (renderTail post) (storeBy (fullEffect fromStr) f m) := by
  refine scan_fullField (fun key hkey htext => ?_) post f
  rcases htext with rfl | rfl
  · exact hsymbol.isString hm hkey
  · exact absurd hkey hne

/-- A side that is not a string leaves a side that is not empty. -/
lemma exists_scan_side (hsymbol : TextAt msg keySymbol) {v : Value}
    (hget : msg.get keySide = some v) (hv : ¬ v.IsString) :
    ∃ f, scan (fullField fromStr) msg.payload Fields.init = some f ∧ f.side ≠ [] := by
  obtain ⟨m, hm, hkey, rfl⟩ := exists_of_valueOf hget
  obtain ⟨pre, post, hsplit, hpre, hpost⟩ := exists_split_of_mem msg.keys_nodup hm hkey
  have hrest : ∀ m' ∈ post.tail, m'.key.bytes ≠ [keySide] :=
    fun m' hm' => hpost m' (List.mem_of_mem_tail hm')
  have hstepPre : ∀ m' ∈ pre, ∀ post f,
      scan (fullField fromStr) (m'.render ++ renderTail post) f =
        scan (fullField fromStr) (renderTail post) (storeBy (fullEffect fromStr) f m') :=
    fun m' hm' => scan_fullField_of_ne hsymbol (by simp [hsplit, hm']) (hpre m' hm')
  have hstepRest : ∀ m' ∈ post.tail, ∀ post f,
      scan (fullField fromStr) (m'.render ++ renderTail post) f =
        scan (fullField fromStr) (renderTail post) (storeBy (fullEffect fromStr) f m') := by
    intro m' hm'
    exact scan_fullField_of_ne hsymbol (by simp [hsplit, List.mem_of_mem_tail hm']) (hrest m' hm')
  let before := pre.foldl (storeBy (fullEffect fromStr)) Fields.init
  obtain ⟨side, hside, hscan⟩ := scan_side fromStr hkey hv post before
  refine ⟨post.tail.foldl (storeBy (fullEffect fromStr)) { before with side := side }, ?_, ?_⟩
  · rw [ReportMessage.payload, scan_renderObject, hsplit, scan_members _ hstepPre (m :: post),
      renderTail, scan_of_ne _ (by decide), hscan,
      scan_members_to_end _ hstepRest]
  · rw [foldl_of_forall_ne (read_storeBy_of_ne fullEffect_side_of_ne) hrest]
    exact hside

/-- The full parser agrees with a message whose symbol and side are strings. -/
lemma fullReport_eq
    (hfrom : ∀ d : PlainDecimal, fromStr d.number.render = some d.number.value)
    (hreport : msg.IsReport) {literal symbol : List UInt8}
    (hinteger : positiveInteger (msg.get keyT) = some literal)
    (hstring : stringOf (msg.get keySymbol) = some symbol) (hne : symbol ≠ [])
    (hside : TextAt msg keySide) :
    (parseFullExecutionReport fromStr msg.payload).map
        (Option.map fun report => (report.tradeIdStr, report.balance, report.symbol, report.side,
          report.filledQty, report.fillPrice)) =
      some (some (literal, amount msg.balance, symbol, (stringOf (msg.get keySide)).getD [],
        amount msg.filledQty, amount msg.fillPrice)) := by
  have hreads := reads_fullEffect fromStr
  have htext := textAt_of_stringOf hstring
  have hfinalSymbol : (final (fullEffect fromStr) msg).symbol = symbol := by
    rw [read_text fullEffect_symbol_of_ne (fun _ _ => rfl) rfl htext, hstring, Option.getD_some]
  have hfinalSide : (final (fullEffect fromStr) msg).side = (stringOf (msg.get keySide)).getD [] :=
    read_text fullEffect_side_of_ne (fun _ _ => rfl) rfl hside
  have hfinalQty : (final (fullEffect fromStr) msg).filledQty = amount msg.filledQty :=
    read_amount hfrom fullEffect_filledQty_of_ne (fun _ _ _ => rfl) rfl msg.filledQty_eq
  have hfinalPrice : (final (fullEffect fromStr) msg).fillPrice = amount msg.fillPrice :=
    read_amount hfrom fullEffect_fillPrice_of_ne (fun _ _ _ => rfl) rfl msg.fillPrice_eq
  have haccept : (final (fullEffect fromStr) msg).isExecutionReport = true ∧
      (final (fullEffect fromStr) msg).symbol ≠ [] :=
    ⟨(hreads.final_isExecutionReport msg).mpr hreport, by rw [hfinalSymbol]; exact hne⟩
  rw [parseFullExecutionReport, scan_fullField_payload htext hside, Option.map_some,
    Option.map_some, if_pos haccept, Option.map_some, hreads.final_tradeIdStr,
    elim_of_positiveInteger hinteger, hreads.final_balance hfrom, hfinalSymbol, hfinalSide,
    hfinalQty, hfinalPrice]

/-- With a symbol that is a string, the full parser does not agree with a side that is not. -/
lemma fullReport_ne {symbol : List UInt8} (hstring : stringOf (msg.get keySymbol) = some symbol)
    {v : Value} (hget : msg.get keySide = some v) (hv : ¬ v.IsString)
    (literal : List UInt8) (balance qty price : ℚ) :
    (parseFullExecutionReport fromStr msg.payload).map
        (Option.map fun report => (report.tradeIdStr, report.balance, report.symbol, report.side,
          report.filledQty, report.fillPrice)) ≠
      some (some (literal, balance, symbol, (stringOf (msg.get keySide)).getD [], qty, price)) := by
  obtain ⟨f, hscan, hside⟩ := exists_scan_side (textAt_of_stringOf hstring) hget hv
  have hexpected : (stringOf (msg.get keySide)).getD [] = [] := by
    rw [hget]
    cases v with
    | string s => exact absurd trivial hv
    | number n => rfl
    | literal l => rfl
  rw [parseFullExecutionReport, hscan, Option.map_some, Option.map_some, hexpected]
  split
  · intro heq
    simp only [Option.map_some, Option.some_inj, Prod.mk.injEq] at heq
    exact hside heq.2.2.2.1
  · intro heq
    simp at heq

end Full

/-- **Execution reports are read as they are written unless a trade id is cut short or a side is not
a string.** -/
theorem executionReports_iff {fromStr : List UInt8 → Option ℚ}
    (hfrom : ∀ d : PlainDecimal, fromStr d.number.render = some d.number.value)
    (msg : ReportMessage) :
    (msg.Agrees fromStr ∧ msg.AgreesFully fromStr) ↔ msg.ReadsRight := by
  rw [agrees_iff hfrom]
  constructor
  · rintro ⟨hagrees, hfull⟩ hreport
    refine ⟨hagrees hreport, ?_⟩
    intro literal symbol hinteger hstring hne v hget
    by_contra hv
    exact fullReport_ne hstring hget hv _ _ _ _
      (hfull literal symbol hreport hinteger hstring hne)
  · intro hright
    refine ⟨fun hreport => (hright hreport).1, ?_⟩
    intro literal symbol hreport hinteger hstring hne
    exact fullReport_eq hfrom hreport hinteger hstring hne
      ((hright hreport).2 literal symbol hinteger hstring hne)

/-! ### Samples -/

/-- The exact values of plain decimals. -/
def exactFromStr (bytes : List UInt8) : Option ℚ :=
  let scanned := scanNumber false 0 (bytes ++ [comma])
  if scanned.2.2 = [comma] ∧ bytes.any isDigit = true then
    some (numeral 0 ((bytes.filter fun c => c ≠ dot).map digitValue) / 10 ^ scanned.2.1)
  else none

lemma exactFromStr_render (d : PlainDecimal) :
    exactFromStr d.number.render = some d.number.value := by
  have hany : d.number.render.any isDigit = true := by
    obtain ⟨digit, digits, hdigits⟩ := List.exists_cons_of_ne_nil d.number.digits_ne
    rw [List.any_eq_true]
    exact ⟨digitByte digit, by simp [JsonNumber.render, hdigits], isDigit_digitByte digit⟩
  rw [exactFromStr, scanNumber_render _ (numberEnds_cons (by decide) (by decide) _), filter_render,
    if_pos ⟨rfl, hany⟩]
  rfl

/-- Characters of one byte that need no escapes. -/
def PlainAscii (bytes : List UInt8) : Prop :=
  ∀ c ∈ bytes, c ≠ quote ∧ c ≠ 92 ∧ c ≠ colon ∧ c < 128

instance (bytes : List UInt8) : Decidable (PlainAscii bytes) :=
  List.decidableBAll (fun c => c ≠ quote ∧ c ≠ 92 ∧ c ≠ colon ∧ c < 128) bytes

/-- A string of such characters. -/
def asciiString (bytes : List UInt8) (h : PlainAscii bytes) : PlainString where
  bytes := bytes
  plain := fun c hc => ⟨(h c hc).1, (h c hc).2.1, (h c hc).2.2.1⟩
  valid := Utf8.valid_of_ascii fun c hc => (h c hc).2.2.2

lemma ascii_executionReport : PlainAscii executionReport := by decide

lemma ascii_key_event : PlainAscii [keyE] := by decide

lemma ascii_key_trade : PlainAscii [keyT] := by decide

lemma ascii_key_symbol : PlainAscii [keySymbol] := by decide

lemma ascii_key_side : PlainAscii [keySide] := by decide

lemma ascii_key_balance : PlainAscii [keyBalance] := by decide

lemma ascii_btc : PlainAscii [66, 84, 67] := by decide

lemma ascii_decimal : PlainAscii [49, 46, 53] := by decide

/-- The digit 1. -/
def one : Fin 10 := ⟨1, one_lt_ten⟩

/-- The digit 5. -/
def five : Fin 10 := ⟨5, five_lt_ten⟩

lemma leading_five : ∀ ds : List (Fin 10), [five] = 0 :: ds → ds = [] := by
  intro ds h
  exact absurd (List.cons.inj h).1 (by decide)

lemma five_ne_nil : [five] ≠ [] := List.cons_ne_nil _ _

lemma one_ne_nil : [one] ≠ [] := List.cons_ne_nil _ _

/-- `"e":"executionReport"`. -/
def reportMember : Member where
  key := asciiString [keyE] ascii_key_event
  value := .string (asciiString executionReport ascii_executionReport)

/-- A trade id with the integer part 5. -/
def tradeMember (fraction : List (Fin 10)) : Member where
  key := asciiString [keyT] ascii_key_trade
  value := .number ⟨false, [five], fraction, none, five_ne_nil, leading_five⟩

/-- `"s":"BTC"`. -/
def symbolMember : Member where
  key := asciiString [keySymbol] ascii_key_symbol
  value := .string (asciiString [66, 84, 67] ascii_btc)

/-- `"S":null`. -/
def nullSideMember : Member where
  key := asciiString [keySide] ascii_key_side
  value := .literal .null

/-- `"B":"1.5"`. -/
def balanceMember : Member where
  key := asciiString [keyBalance] ascii_key_balance
  value := .string (asciiString [49, 46, 53] ascii_decimal)

lemma short_decimal : [one].length + [five].length ≤ 28 := by decide

/-- The decimal 1.5. -/
def oneAndAHalf : PlainDecimal := ⟨⟨[one], [five], one_ne_nil⟩, short_decimal⟩

lemma nodup_report :
    ([balanceMember, symbolMember, tradeMember [], reportMember].map
      fun m => m.key.bytes).Nodup := by decide

lemma nodup_cut : ([reportMember, tradeMember [five]].map fun m => m.key.bytes).Nodup := by decide

lemma nodup_nullSide :
    ([reportMember, tradeMember [], symbolMember, nullSideMember].map
      fun m => m.key.bytes).Nodup := by decide

/-- A report with a balance, a symbol and a trade id in front of the event. -/
def sampleReport : ReportMessage where
  members := [balanceMember, symbolMember, tradeMember [], reportMember]
  balance := some oneAndAHalf
  filledQty := none
  fillPrice := none
  keys_nodup := nodup_report
  balance_eq := rfl
  filledQty_eq := trivial
  fillPrice_eq := trivial

/-- A report with the trade id 5.5. -/
def cutReport : ReportMessage where
  members := [reportMember, tradeMember [five]]
  balance := none
  filledQty := none
  fillPrice := none
  keys_nodup := nodup_cut
  balance_eq := trivial
  filledQty_eq := trivial
  fillPrice_eq := trivial

/-- A report without a side. -/
def nullSideReport : ReportMessage where
  members := [reportMember, tradeMember [], symbolMember, nullSideMember]
  balance := none
  filledQty := none
  fillPrice := none
  keys_nodup := nodup_nullSide
  balance_eq := trivial
  filledQty_eq := trivial
  fillPrice_eq := trivial

/-- A report that both parsers read. -/
theorem executionReports_sample :
    sampleReport.ReadsRight ∧ sampleReport.Agrees exactFromStr ∧
      sampleReport.AgreesFully exactFromStr := by
  have hright : sampleReport.ReadsRight := by
    intro _
    refine ⟨by decide, ?_⟩
    intro literal symbol _ _ _ v hv
    have hnone : sampleReport.get keySide = none := rfl
    rw [hnone] at hv
    cases hv
  exact ⟨hright, (executionReports_iff exactFromStr_render sampleReport).mpr hright⟩

/-- The trade id 5.5 is taken for 5, and a side that is null for `null}`. -/
theorem cut_tradeId_and_null_side :
    ¬ cutReport.Agrees exactFromStr ∧ ¬ nullSideReport.AgreesFully exactFromStr := by
  refine ⟨?_, ?_⟩
  · rw [agrees_iff exactFromStr_render]
    intro h
    exact h (by decide) (by decide)
  · intro h
    have hside : nullSideReport.get keySide = some (.literal .null) := rfl
    have hsymbol : stringOf (nullSideReport.get keySymbol) = some [66, 84, 67] := rfl
    exact fullReport_ne hsymbol hside id _ _ _ _
      (h [53] [66, 84, 67] (by decide) rfl rfl (List.cons_ne_nil _ _))

end OrderFeed

end HftArb
