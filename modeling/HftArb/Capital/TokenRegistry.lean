import HftArb.Foundations.Runs
import HftArb.Foundations.TwoWayMap

/-!
# The token registry

`CategorizedInventory` keeps the tokens under their identifier, the identifiers under the symbols,
and one list of identifiers for each of four categories.  A registration overwrites the two maps and
appends to the lists, and removes nothing.

The maps stay inverse to each other and the lists exact as long as every registration is of a new
identifier under a new symbol, or repeats the symbol of an identifier that is in none of the lists
(`registry_consistent_iff`).
-/

namespace HftArb

open TwoWayMap Runs

/-- The category bit of majors, such as BTC and ETH. -/
def catMajor : UInt16 := 0b0001

/-- The category bit of altcoins. -/
def catAltcoin : UInt16 := 0b0010

/-- The category bit of memecoins. -/
def catMemecoin : UInt16 := 0b0100

/-- The category bit of stablecoins. -/
def catStable : UInt16 := 0b1000

/-- A registered token. -/
structure TokenAsset where
  id : UInt16
  symbol : String
  categoryMask : UInt16

/-- The registry: two maps and four lists. -/
structure CategorizedInventory where
  tokenRegistry : UInt16 → Option TokenAsset
  symbolToId : String → Option UInt16
  memecoinIndices : List UInt16
  altcoinIndices : List UInt16
  majorIndices : List UInt16
  stableIndices : List UInt16

/-- A call of `register_token`. -/
structure Registration where
  id : UInt16
  symbol : String
  mask : UInt16

namespace CategorizedInventory

/-- The empty registry. -/
def new : CategorizedInventory := ⟨fun _ => none, fun _ => none, [], [], [], []⟩

section Model

-- `to_uppercase` of the standard library.
variable (toUppercase : String → String)

/-- Register a token. -/
def registerToken (inv : CategorizedInventory) (r : Registration) : CategorizedInventory where
  symbolToId := Function.update inv.symbolToId (toUppercase r.symbol) (some r.id)
  tokenRegistry := Function.update inv.tokenRegistry r.id
    (some ⟨r.id, toUppercase r.symbol, r.mask⟩)
  memecoinIndices :=
    if r.mask &&& catMemecoin ≠ 0 then inv.memecoinIndices ++ [r.id] else inv.memecoinIndices
  altcoinIndices :=
    if r.mask &&& catAltcoin ≠ 0 then inv.altcoinIndices ++ [r.id] else inv.altcoinIndices
  majorIndices :=
    if r.mask &&& catMajor ≠ 0 then inv.majorIndices ++ [r.id] else inv.majorIndices
  stableIndices :=
    if r.mask &&& catStable ≠ 0 then inv.stableIndices ++ [r.id] else inv.stableIndices

/-- The registry after some registrations. -/
def afterRegistrations (inv : CategorizedInventory) (rs : List Registration) :
    CategorizedInventory :=
  rs.foldl (registerToken toUppercase) inv

end Model

variable (inv : CategorizedInventory)

/-- The symbol of a registered identifier. -/
def symbolOf (i : UInt16) : Option String := (inv.tokenRegistry i).map TokenAsset.symbol

/-- The identifier is registered, and its mask has the bit now. -/
def HasCategory (bit i : UInt16) : Prop :=
  ∃ asset, inv.tokenRegistry i = some asset ∧ asset.categoryMask &&& bit ≠ 0

/-- The maps are inverse to each other, and every list holds the identifiers of its category. -/
structure Consistent : Prop where
  symbols : Inverse inv.symbolToId inv.symbolOf
  memecoin : Indexes inv.memecoinIndices (inv.HasCategory catMemecoin)
  altcoin : Indexes inv.altcoinIndices (inv.HasCategory catAltcoin)
  major : Indexes inv.majorIndices (inv.HasCategory catMajor)
  stable : Indexes inv.stableIndices (inv.HasCategory catStable)

/-- The four bits that have a list. -/
def listedBits : List UInt16 := [catMemecoin, catAltcoin, catMajor, catStable]

/-- A registration that overwrites nothing: identifier and symbol are new, or belong together
already and the identifier is in no list. -/
def OverwritesNothing (toUppercase : String → String) (r : Registration) : Prop :=
  (inv.tokenRegistry r.id = none ∧ inv.symbolToId (toUppercase r.symbol) = none) ∨
    ∃ asset, inv.tokenRegistry r.id = some asset ∧ asset.symbol = toUppercase r.symbol ∧
      ∀ bit ∈ listedBits, asset.categoryMask &&& bit = 0

/-! ## One registration -/

section Step

variable {inv} (toUppercase : String → String) (r : Registration)

lemma symbolOf_registerToken : (inv.registerToken toUppercase r).symbolOf =
    Function.update inv.symbolOf r.id (some (toUppercase r.symbol)) := by
  funext i
  unfold symbolOf registerToken
  by_cases hi : i = r.id
  · subst hi
    simp
  · simp [hi]

lemma hasCategory_registerToken_self (bit : UInt16) :
    (inv.registerToken toUppercase r).HasCategory bit r.id ↔ r.mask &&& bit ≠ 0 := by
  simp [HasCategory, registerToken]

lemma hasCategory_registerToken_of_ne (bit : UInt16) {i : UInt16} (hi : i ≠ r.id) :
    (inv.registerToken toUppercase r).HasCategory bit i ↔ inv.HasCategory bit i := by
  simp [HasCategory, registerToken, hi]

/-- A list of the new registry is exact when the identifier was not in it. -/
lemma indexes_registerToken {bit : UInt16} {l : List UInt16} (h : Indexes l (inv.HasCategory bit)) :
    Indexes (if r.mask &&& bit ≠ 0 then l ++ [r.id] else l)
      ((inv.registerToken toUppercase r).HasCategory bit) ↔ ¬ inv.HasCategory bit r.id :=
  h.update_iff (hasCategory_registerToken_self toUppercase r bit)
    fun _ hi => hasCategory_registerToken_of_ne toUppercase r bit hi

/-- A registration keeps the registry consistent exactly when it overwrites nothing. -/
lemma consistent_registerToken_iff (h : inv.Consistent) :
    (inv.registerToken toUppercase r).Consistent ↔ inv.OverwritesNothing toUppercase r := by
  have hmaps : Inverse (inv.registerToken toUppercase r).symbolToId
      (inv.registerToken toUppercase r).symbolOf ↔
      inv.symbolToId (toUppercase r.symbol) = none ∧ inv.symbolOf r.id = none ∨
        inv.symbolToId (toUppercase r.symbol) = some r.id := by
    rw [symbolOf_registerToken]
    exact h.symbols.update_iff (toUppercase r.symbol) r.id
  have hlists : (inv.registerToken toUppercase r).Consistent ↔
      Inverse (inv.registerToken toUppercase r).symbolToId
        (inv.registerToken toUppercase r).symbolOf ∧
      ∀ bit ∈ listedBits, ¬ inv.HasCategory bit r.id := by
    have hmeme := indexes_registerToken toUppercase r h.memecoin
    have halt := indexes_registerToken toUppercase r h.altcoin
    have hmajor := indexes_registerToken toUppercase r h.major
    have hstable := indexes_registerToken toUppercase r h.stable
    simp only [listedBits, List.mem_cons, List.not_mem_nil, or_false, forall_eq_or_imp, forall_eq]
    constructor
    · intro hnew
      exact ⟨hnew.symbols, hmeme.mp hnew.memecoin, halt.mp hnew.altcoin, hmajor.mp hnew.major,
        hstable.mp hnew.stable⟩
    · rintro ⟨hsymbols, hnomeme, hnoalt, hnomajor, hnostable⟩
      exact ⟨hsymbols, hmeme.mpr hnomeme, halt.mpr hnoalt, hmajor.mpr hnomajor,
        hstable.mpr hnostable⟩
  rw [hlists, hmaps, h.symbols (toUppercase r.symbol) r.id]
  unfold OverwritesNothing symbolOf HasCategory
  cases hasset : inv.tokenRegistry r.id with
  | none => simp
  | some asset => simp

end Step

/-! ## Every sequence of registrations -/

lemma consistent_new : new.Consistent where
  symbols := inverse_empty
  memecoin := indexes_nil fun i => by simp [HasCategory, new]
  altcoin := indexes_nil fun i => by simp [HasCategory, new]
  major := indexes_nil fun i => by simp [HasCategory, new]
  stable := indexes_nil fun i => by simp [HasCategory, new]

lemma afterRegistrations_append_singleton (toUppercase : String → String)
    (inv : CategorizedInventory) (rs : List Registration) (r : Registration) :
    inv.afterRegistrations toUppercase (rs ++ [r]) =
      (inv.afterRegistrations toUppercase rs).registerToken toUppercase r := by
  simp [afterRegistrations]

/-- The registry is consistent after every part of a sequence of registrations exactly when none of
them overwrites something. -/
theorem registry_consistent_iff (toUppercase : String → String) (rs : List Registration) :
    (∀ before after, rs = before ++ after →
      (new.afterRegistrations toUppercase before).Consistent) ↔
    ∀ before r after, rs = before ++ r :: after →
      (new.afterRegistrations toUppercase before).OverwritesNothing toUppercase r := by
  have hstep : ∀ before r, (new.afterRegistrations toUppercase before).Consistent →
      ((new.afterRegistrations toUppercase (before ++ [r])).Consistent ↔
        (new.afterRegistrations toUppercase before).OverwritesNothing toUppercase r) := by
    intro before r h
    rw [afterRegistrations_append_singleton]
    exact consistent_registerToken_iff toUppercase r h
  refine (forall_prefix_iff (P := fun before =>
    (new.afterRegistrations toUppercase before).Consistent)).trans ?_
  refine (and_iff_right consistent_new).trans ?_
  exact forall_split_congr (I := fun before =>
    (new.afterRegistrations toUppercase before).Consistent) consistent_new hstep
    (fun before r h hok => (hstep before r h).mpr hok) rs

/-- The identifier 1 as a stablecoin `A` and then as `B`, which keeps `A` in the map of symbols and
lists the identifier twice. -/
def renamed : List Registration := [⟨1, "A", catStable⟩, ⟨1, "B", catStable⟩]

/-- A renamed token is found under its old symbol, and is listed twice. -/
theorem renamed_not_consistent :
    (new.afterRegistrations String.toUpper renamed).symbolToId "A" = some 1 ∧
    ((new.afterRegistrations String.toUpper renamed).symbolOf 1) = some "B" ∧
    (new.afterRegistrations String.toUpper renamed).stableIndices = [1, 1] ∧
    ¬ (new.afterRegistrations String.toUpper renamed).Consistent := by
  have htwice : (new.afterRegistrations String.toUpper renamed).stableIndices = [1, 1] := by
    decide +kernel
  refine ⟨by decide +kernel, by decide +kernel, htwice, ?_⟩
  intro h
  have hnodup := h.stable.1
  rw [htwice] at hnodup
  exact absurd hnodup (by decide)

end CategorizedInventory

end HftArb
