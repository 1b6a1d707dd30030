import Mathlib.Data.List.Infix
import Mathlib.Tactic

/-!
# Checks that stop at the first failure

A checker looks at one rule after the other and stops with a message at the first one that does not
hold.  `Checks rules post r` says that the outcome `r` is that of such a checker: it is an error
whose message names a rule that does not hold, or all rules hold and the result has the property
`post`.

`Checks.exists_ok_iff` is what such a checker accepts; `Checks.bind`, `Checks.rejectIf` and
`Checks.forM` build one from smaller ones, in the order in which they run.
-/

namespace Checking

/-- A condition with the path of what it is about. -/
structure Rule where
  path : List Char
  holds : Prop

/-- Stop with a message under a condition. -/
def rejectIf (p : Prop) [Decidable p] (msg : List Char) : Except (List Char) Unit :=
  if p then .error msg else .ok ()

/-- An outcome is that of a checker of the rules. -/
structure Checks {α : Type} (rules : List Rule) (post : α → Prop) (r : Except (List Char) α) :
    Prop where
  sound : ∀ a, r = .ok a → post a ∧ ∀ rule ∈ rules, rule.holds
  blames : ∀ msg, r = .error msg → ∃ rule ∈ rules, ¬ rule.holds ∧ rule.path <:+: msg

namespace Checks

variable {α β : Type} {rules rules' : List Rule} {post : α → Prop} {post' : β → Prop}
  {r : Except (List Char) α}

/-- A checker accepts when all its rules hold. -/
lemma exists_ok_iff (h : Checks rules post r) :
    (∃ a, r = .ok a) ↔ ∀ rule ∈ rules, rule.holds := by
  constructor
  · rintro ⟨a, ha⟩
    exact (h.sound a ha).2
  · intro hall
    cases r with
    | ok a => exact ⟨a, rfl⟩
    | error msg =>
      obtain ⟨rule, hrule, hnot, -⟩ := h.blames msg rfl
      exact absurd (hall rule hrule) hnot

/-- There is nothing left to check. -/
lemma ok {a : α} (ha : post a) : Checks [] post (.ok a) := by
  refine ⟨fun a' h => ?_, fun _ h => by cases h⟩
  cases h
  exact ⟨ha, fun _ hrule => absurd hrule List.not_mem_nil⟩

/-- A failure that is about the path of the first rule. -/
lemma error {path msg : List Char} {p : Prop} (hp : ¬ p) (hpath : path <:+: msg) :
    Checks (⟨path, p⟩ :: rules) post (.error msg) := by
  refine ⟨fun a ha => (by cases ha), fun msg' hmsg => ?_⟩
  cases hmsg
  exact ⟨_, List.mem_cons_self, hp, hpath⟩

/-- A checker that goes on with the result of another one. -/
lemma bind {f : α → Except (List Char) β} (hr : Checks rules post r)
    (hf : ∀ a, post a → (∀ rule ∈ rules, rule.holds) → Checks rules' post' (f a)) :
    Checks (rules ++ rules') post' (r >>= f) := by
  cases r with
  | error msg =>
    refine ⟨fun b hb => (by cases hb), fun msg' hmsg => ?_⟩
    obtain ⟨rule, hrule, hbad⟩ := hr.blames msg rfl
    cases hmsg
    exact ⟨rule, List.mem_append_left _ hrule, hbad⟩
  | ok a =>
    obtain ⟨hpost, hall⟩ := hr.sound a rfl
    have hnext := hf a hpost hall
    refine ⟨fun b hb => ?_, fun msg hmsg => ?_⟩
    · obtain ⟨hpost', hall'⟩ := hnext.sound b hb
      exact ⟨hpost', fun rule hrule => (List.mem_append.mp hrule).elim (hall rule) (hall' rule)⟩
    · obtain ⟨rule, hrule, hbad⟩ := hnext.blames msg hmsg
      exact ⟨rule, List.mem_append_right _ hrule, hbad⟩

/-- A check whose only result is that it succeeds, and what comes after it. -/
lemma andThen {check : Except (List Char) Unit} {rule : Rule} {unit : Unit → Prop}
    (hcheck : Checks [rule] unit check) (hr : rule.holds → Checks rules post r) :
    Checks (rule :: rules) post (check >>= fun _ => r) :=
  hcheck.bind fun _ _ hall => hr (hall rule (List.mem_singleton_self rule))

/-- A single test. -/
lemma rejectIf {p q : Prop} [Decidable p] {path msg : List Char} (hq : q ↔ ¬ p)
    (hpath : path <:+: msg) : Checks [⟨path, q⟩] (fun _ => True) (rejectIf p msg) := by
  unfold Checking.rejectIf
  split_ifs with hp
  · exact error (fun h => hq.mp h hp) hpath
  · refine ⟨fun _ _ => ⟨trivial, fun rule hrule => ?_⟩, fun msg' hmsg => by cases hmsg⟩
    rw [List.mem_singleton.mp hrule]
    exact hq.mpr hp

/-- The same check for every element of a list. -/
lemma forM {f : α → Except (List Char) Unit} {ruleOf : α → Rule}
    (hf : ∀ a, Checks [ruleOf a] (fun _ => True) (f a)) (l : List α) :
    Checks (l.map ruleOf) (fun _ => True) (l.forM f) := by
  induction l with
  | nil => exact ok trivial
  | cons a l ih => exact (hf a).andThen fun _ => ih

/-- Rules that say the same, by name. -/
lemma of_iff (h : Checks rules post r)
    (hsound : (∀ rule ∈ rules, rule.holds) → ∀ rule ∈ rules', rule.holds)
    (hblames : ∀ rule ∈ rules, ¬ rule.holds →
      ∃ rule' ∈ rules', ¬ rule'.holds ∧ rule'.path = rule.path) : Checks rules' post r := by
  refine ⟨fun a ha => (h.sound a ha).imp_right hsound, fun msg hmsg => ?_⟩
  obtain ⟨rule, hrule, hnot, hpath⟩ := h.blames msg hmsg
  obtain ⟨rule', hrule', hnot', hsame⟩ := hblames rule hrule hnot
  exact ⟨rule', hrule', hnot', hsame ▸ hpath⟩

/-- The rules in another order. -/
lemma perm (h : Checks rules post r) (hperm : rules.Perm rules') : Checks rules' post r :=
  h.of_iff (fun hall rule hrule => hall rule (hperm.mem_iff.mpr hrule))
    fun rule hrule hnot => ⟨rule, hperm.mem_iff.mp hrule, hnot, rfl⟩

/-- A rule that says the same as the first one. -/
lemma head_congr {path : List Char} {p q : Prop} (h : Checks (⟨path, p⟩ :: rules) post r)
    (hiff : p ↔ q) : Checks (⟨path, q⟩ :: rules) post r := by
  rwa [propext hiff] at h

/-- A first rule that holds. -/
lemma cons_of_holds {rule : Rule} (h : Checks rules post r) (hrule : rule.holds) :
    Checks (rule :: rules) post r :=
  h.of_iff (fun hall => List.forall_mem_cons.mpr ⟨hrule, hall⟩)
    fun rule' hrule' hnot => ⟨rule', List.mem_cons_of_mem _ hrule', hnot, rfl⟩

/-- Two rules about one path. -/
lemma merge {path : List Char} {p q : Prop} (h : Checks (⟨path, p⟩ :: ⟨path, q⟩ :: rules) post r) :
    Checks (⟨path, p ∧ q⟩ :: rules) post r := by
  refine h.of_iff (fun hall => ?_) fun rule hrule hnot => ?_
  · obtain ⟨hp, hall⟩ := List.forall_mem_cons.mp hall
    obtain ⟨hq, hall⟩ := List.forall_mem_cons.mp hall
    exact List.forall_mem_cons.mpr ⟨⟨hp, hq⟩, hall⟩
  · rcases List.mem_cons.mp hrule with rfl | hrule
    · exact ⟨_, List.mem_cons_self, fun hboth => hnot hboth.1, rfl⟩
    · rcases List.mem_cons.mp hrule with rfl | hrule
      · exact ⟨_, List.mem_cons_self, fun hboth => hnot hboth.2, rfl⟩
      · exact ⟨rule, List.mem_cons_of_mem _ hrule, hnot, rfl⟩

end Checks

end Checking
