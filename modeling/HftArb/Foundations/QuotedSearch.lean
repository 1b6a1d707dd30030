import HftArb.Foundations.TextSearch

/-!
# Searching a quoted pattern piece by piece

A text is cut into pieces at its quotes, and so is a pattern.  A pattern between quotes is found in
a text where its pieces are found among those of the text, with a piece before them and a piece
after them: `find_quoted`.  The pieces of a pattern are those of `List.splitOn`.
-/

namespace TextSearch

variable {α : Type*} {q : α}

/-! ## Texts and pieces -/

/-- Two pieces and more. -/
lemma intercalate_cons_quote (p p' : List α) (ps : List (List α)) :
    [q].intercalate (p :: p' :: ps) = p ++ q :: [q].intercalate (p' :: ps) := by
  rw [List.intercalate_cons_cons, List.append_assoc, List.singleton_append]

/-- Pieces that end with a quote each. -/
def closed (q : α) (ps : List (List α)) : List α := ps.flatMap fun p => p ++ [q]

/-- The first piece with its quote. -/
lemma closed_cons (p : List α) (ps : List (List α)) :
    closed q (p :: ps) = p ++ q :: closed q ps := by
  rw [closed, List.flatMap_cons, List.append_assoc, List.singleton_append]
  rfl

/-- A text before a quote. -/
lemma intercalate_append_quote {ps : List (List α)} (h : ps ≠ []) :
    [q].intercalate ps ++ [q] = closed q ps := by
  induction ps with
  | nil => exact absurd rfl h
  | cons p ps ih =>
    cases ps with
    | nil => rw [List.intercalate_singleton, closed_cons]; rfl
    | cons p' ps =>
      rw [intercalate_cons_quote, List.append_assoc, List.cons_append, ih (List.cons_ne_nil _ _),
        ← closed_cons]

/-- The pieces of a text in two parts. -/
lemma intercalate_append {ps ps' : List (List α)} (h : ps' ≠ []) :
    [q].intercalate (ps ++ ps') = closed q ps ++ [q].intercalate ps' := by
  induction ps with
  | nil => rfl
  | cons p ps ih =>
    obtain ⟨p', more, hmore⟩ := List.exists_cons_of_ne_nil (List.append_ne_nil_of_right_ne_nil ps h)
    rw [List.cons_append, hmore, intercalate_cons_quote, ← hmore, ih, closed_cons,
      List.append_assoc, List.cons_append]

/-- Closed pieces begin a text exactly when they are its first pieces and another one follows. -/
lemma closed_prefix_iff {ks ps : List (List α)} (hks : ∀ k ∈ ks, q ∉ k) (hps : ∀ p ∈ ps, q ∉ p)
    (hne : ps ≠ []) :
    closed q ks <+: [q].intercalate ps ↔ ∃ rest, rest ≠ [] ∧ ps = ks ++ rest := by
  induction ks generalizing ps with
  | nil => exact iff_of_true List.nil_prefix ⟨ps, hne, rfl⟩
  | cons k ks ih =>
    have hk : q ∉ k := hks k List.mem_cons_self
    obtain ⟨p, ps, rfl⟩ := List.exists_cons_of_ne_nil hne
    have hp : q ∉ p := hps p List.mem_cons_self
    rw [closed_cons]
    cases ps with
    | nil =>
      rw [List.intercalate_singleton]
      constructor
      · intro hbegins
        have hmem : q ∈ k ++ q :: closed q ks := List.mem_append_right _ List.mem_cons_self
        exact absurd (hbegins.subset hmem) hp
      · rintro ⟨rest, hrest, heq⟩
        rw [List.cons_append] at heq
        have hnil := (List.cons.inj heq).2.symm
        exact absurd (List.append_eq_nil_iff.mp hnil).2 hrest
    | cons p' ps =>
      have ih' := ih (fun k' hk' => hks k' (List.mem_cons_of_mem _ hk'))
        (fun p' hp' => hps p' (List.mem_cons_of_mem _ hp')) (List.cons_ne_nil p' ps)
      rw [intercalate_cons_quote]
      constructor
      · intro hbegins
        obtain ⟨rfl, htail⟩ := prefix_quoted hk hp hbegins
        obtain ⟨rest, hrest, heq⟩ := ih'.mp htail
        exact ⟨rest, hrest, by rw [heq, List.cons_append]⟩
      · rintro ⟨rest, hrest, heq⟩
        rw [List.cons_append] at heq
        obtain ⟨rfl, htail⟩ := List.cons.inj heq
        rw [List.prefix_append_right_inj, List.cons_prefix_cons]
        exact ⟨rfl, ih'.mpr ⟨rest, hrest, htail⟩⟩

/-- The text ends with its last piece. -/
lemma getLast?_intercalate (ps : List (List α)) {p : List α} (h : p ≠ []) :
    ([q].intercalate (ps ++ [p])).getLast? = p.getLast? := by
  rw [intercalate_append (List.cons_ne_nil p []), List.intercalate_singleton,
    List.getLast?_append_of_ne_nil _ h]

/-! ## The search -/

variable [DecidableEq α]

/-- The pieces have no quotes. -/
lemma not_mem_of_mem_splitOn {text p : List α} (h : p ∈ text.splitOn q) : q ∉ p := by
  induction text generalizing p with
  | nil =>
    rw [List.splitOn_nil, List.mem_singleton] at h
    rw [h]
    exact List.not_mem_nil
  | cons c text ih =>
    rw [List.splitOn_cons_eq_if_modifyHead] at h
    split at h
    · rcases List.mem_cons.mp h with rfl | h
      · exact List.not_mem_nil
      · exact ih h
    · next hc =>
      obtain ⟨p', ps, hps⟩ := List.exists_cons_of_ne_nil (List.splitOn_ne_nil q text)
      rw [hps, List.modifyHead_cons] at h
      rw [hps] at ih
      rcases List.mem_cons.mp h with rfl | h
      · rw [List.mem_cons, not_or]
        exact ⟨fun heq => hc (beq_iff_eq.mpr heq.symm), ih List.mem_cons_self⟩
      · exact ih (List.mem_cons_of_mem _ h)

/-- The search for pieces between quotes in a text, as a search among the pieces of the text behind
its first one.  Nothing is found at the end, where no quote follows. -/
lemma find_closed {ks ps : List (List α)} {p : List α} (hks : ∀ k ∈ ks, q ∉ k) (hne : ks ≠ [])
    (hp : q ∉ p) (hps : ∀ p ∈ ps, q ∉ p) :
    find (q :: closed q ks) ([q].intercalate (p :: ps)) =
      (find ks ps).bind fun found =>
        if found.2 = [] then none
        else some ([q].intercalate (p :: found.1), [q].intercalate found.2) := by
  induction ps generalizing p with
  | nil =>
    have havoids : Avoids (q :: closed q ks) p [] := avoids_of_not_mem hp []
    rw [List.intercalate_singleton, ← List.append_nil p, find_append_of_avoids havoids, find, find,
      if_neg hne, if_neg (List.cons_ne_nil _ _)]
    rfl
  | cons p' ps ih =>
    have hp' : q ∉ p' := hps p' List.mem_cons_self
    have hps' : ∀ p ∈ ps, q ∉ p := fun p hp => hps p (List.mem_cons_of_mem _ hp)
    have hbegins := closed_prefix_iff hks hps (List.cons_ne_nil p' ps)
    have hmove (hnot : ¬ closed q ks <+: [q].intercalate (p' :: ps)) :
        find (q :: closed q ks) (q :: [q].intercalate (p' :: ps)) =
          (find (q :: closed q ks) ([q].intercalate (p' :: ps))).map
            fun found => (q :: found.1, found.2) :=
      find_cons_of_not_prefix fun h => hnot (List.cons_prefix_cons.mp h).2
    rw [intercalate_cons_quote, find_append_of_avoids (avoids_of_not_mem hp _)]
    by_cases hstart : ks <+: p' :: ps
    · obtain ⟨rest, hrest⟩ := hstart
      by_cases hend : rest = []
      · -- the pieces of the pattern are the last ones: no quote behind them, and no room later
        have hnot : ¬ closed q ks <+: [q].intercalate (p' :: ps) := by
          rw [hbegins]
          rintro ⟨rest', hrest', heq⟩
          rw [← hrest, hend, List.append_right_inj] at heq
          exact hrest' heq.symm
        have hshort : ps.length < ks.length := by
          have hlength := congrArg List.length hrest
          rw [hend, List.append_nil, List.length_cons] at hlength
          omega
        rw [hmove hnot, ih hp' hps', find_eq_none_of_length_lt hshort, ← hrest, find_append_self,
          Option.bind_some, if_pos hend]
        rfl
      · rw [← hrest, find_append_self, intercalate_append hend, ← List.cons_append,
          find_append_self, Option.bind_some, if_neg hend, Option.map_some, List.append_nil,
          List.intercalate_singleton]
    · have hnot : ¬ closed q ks <+: [q].intercalate (p' :: ps) := by
        rw [hbegins]
        rintro ⟨rest, -, heq⟩
        exact hstart ⟨rest, heq.symm⟩
      rw [hmove hnot, ih hp' hps', find_cons_of_not_prefix hstart]
      cases find ks ps with
      | none => rfl
      | some found =>
        by_cases hend : found.2 = []
        · simp [hend]
        · simp only [Option.map_some, Option.bind_some, if_neg hend, intercalate_cons_quote]

/-- The search for a quoted pattern, by the pieces of the pattern. -/
lemma find_quoted (pattern : List α) {ps : List (List α)} {p : List α} (hp : q ∉ p)
    (hps : ∀ p ∈ ps, q ∉ p) :
    find (q :: (pattern ++ [q])) ([q].intercalate (p :: ps)) =
      (find (pattern.splitOn q) ps).bind fun found =>
        if found.2 = [] then none
        else some ([q].intercalate (p :: found.1), [q].intercalate found.2) := by
  have hpattern : pattern ++ [q] = closed q (pattern.splitOn q) := by
    rw [← intercalate_append_quote (List.splitOn_ne_nil q pattern), List.intercalate_splitOn]
  rw [hpattern]
  exact find_closed (fun _ => not_mem_of_mem_splitOn) (List.splitOn_ne_nil q pattern) hp hps

end TextSearch
