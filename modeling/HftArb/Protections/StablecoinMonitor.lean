import Mathlib.Data.List.DropRight
import HftArb.Decimal
import HftArb.Foundations.Runs

/-!
# The stablecoin depeg monitor

The monitor keeps the last price of each symbol and, at every update, walks its monitored symbols in
the order of the configuration: the first one off its peg is the depegged coin.

The price is stored under the symbol in upper case but with its blanks, and looked up under the
symbol as it is configured.  An update that names a monitored symbol up to blanks and case is
therefore seen only when these two texts agree, and `reflectsLatest_iff` says that this is all that
can go wrong.  The conversion to upper case is a parameter.
-/

namespace HftArb

open Runs

/-! ## Texts -/

/-- `char::is_whitespace`. -/
def isWhitespace (c : Char) : Bool :=
  (0x9 ≤ c.val && c.val ≤ 0xD) || c.val == 0x20 || c.val == 0x85 || c.val == 0xA0 ||
    c.val == 0x1680 || (0x2000 ≤ c.val && c.val ≤ 0x200A) || c.val == 0x2028 || c.val == 0x2029 ||
    c.val == 0x202F || c.val == 0x205F || c.val == 0x3000

/-- `str::trim`. -/
def trim (s : String) : String :=
  String.ofList ((s.toList.dropWhile isWhitespace).rdropWhile isWhitespace)

/-! ## The monitor -/

/-- What the monitor reads of its configuration. -/
structure StablecoinConfig where
  depegThreshold : Decimal
  monitoredSymbols : List String

/-- The entry of a symbol. -/
structure StablecoinPrice where
  symbol : String
  price : Decimal
  exchange : String
  timestamp : ℤ

/-- What an update reads and writes of the state. -/
structure StablecoinState where
  prices : String → Option StablecoinPrice
  depegActive : Bool
  depeggedCoin : Option String

namespace StablecoinState

/-- The state of a fresh monitor. -/
def initial : StablecoinState where
  prices := fun _ => none
  depegActive := false
  depeggedCoin := none

end StablecoinState

namespace StablecoinConfig

/-- `StablecoinConfig::default`. -/
def standard : StablecoinConfig where
  depegThreshold := 998 / 1000
  monitoredSymbols := ["USDT", "USDC", "DAI"]

variable (config : StablecoinConfig)

/-- The price is below the threshold or as far above the peg. -/
def OffPeg (price : Decimal) : Prop :=
  price < config.depegThreshold ∨ 1 + (1 - config.depegThreshold) < price

instance : DecidablePred config.OffPeg := fun _ => inferInstanceAs (Decidable (_ ∨ _))

/-- The monitored symbol has an entry off its peg. -/
def entryOffPeg (prices : String → Option StablecoinPrice) (sym : String) : Bool :=
  (prices sym).any fun sp => config.OffPeg sp.price

/-- The loop over the monitored symbols: whether one is off its peg, and the first such one. -/
def checkMonitored (prices : String → Option StablecoinPrice) : Bool × Option String :=
  config.monitoredSymbols.foldl
    (fun acc sym =>
      if config.entryOffPeg prices sym then
        (true, if acc.2.isNone then some sym else acc.2)
      else acc)
    (false, none)

end StablecoinConfig

/-- Set the status from the entries. -/
def StablecoinConfig.evaluate (config : StablecoinConfig) (state : StablecoinState) :
    StablecoinState :=
  let checked := config.checkMonitored state.prices
  if checked.1 then { state with depegActive := true, depeggedCoin := checked.2 }
  else { state with depegActive := false, depeggedCoin := none }

/-- A call of `update_price`, with the clock it reads. -/
structure StablecoinUpdate where
  symbol : String
  price : Decimal
  exchange : String
  now : ℤ

namespace StablecoinMonitor

section Model

variable (toUppercase : String → String) (config : StablecoinConfig)

/-- Store a price and evaluate the depeg status; a blank symbol and a price that is not positive are
rejected. -/
def updatePrice (state : StablecoinState) (u : StablecoinUpdate) : StablecoinState :=
  if trim u.symbol = "" then state
  else if u.price ≤ 0 then state
  else
    let entry : StablecoinPrice := ⟨toUppercase (trim u.symbol), u.price, u.exchange, u.now⟩
    config.evaluate
      { state with prices := Function.update state.prices (toUppercase u.symbol) (some entry) }

/-- One update. -/
def monitorStep (state : StablecoinState) (u : StablecoinUpdate) : StablecoinState × List Empty :=
  (updatePrice toUppercase config state u, [])

/-! ## What the status should say -/

/-- A symbol after trimming and case folding. -/
def normalized (s : String) : String := toUppercase (trim s)

/-- The update gives a price to the monitored symbol. -/
def Names (m : String) (u : StablecoinUpdate) : Prop :=
  0 < u.price ∧ normalized toUppercase u.symbol = normalized toUppercase m

instance (m : String) : DecidablePred (Names toUppercase m) :=
  fun _ => inferInstanceAs (Decidable (_ ∧ _))

/-- The latest positive price of a symbol. -/
def latestPrice (updates : List StablecoinUpdate) (m : String) : Option Decimal :=
  (updates.reverse.find? fun u => Names toUppercase m u).map StablecoinUpdate.price

/-- The latest positive price of the symbol is off its peg. -/
def latestOffPeg (updates : List StablecoinUpdate) (m : String) : Bool :=
  (latestPrice toUppercase updates m).any fun price => config.OffPeg price

/-- After the updates the status is active exactly when the latest price of a monitored symbol is
off its peg, and its coin is the first such symbol of the configuration. -/
def ReflectsLatest (updates : List StablecoinUpdate) : Prop :=
  let state := runState (monitorStep toUppercase config) StablecoinState.initial updates
  (state.depegActive = true ↔
    ∃ m ∈ config.monitoredSymbols, latestOffPeg toUppercase config updates m = true) ∧
  state.depeggedCoin = config.monitoredSymbols.find? (latestOffPeg toUppercase config updates)

/-- The first monitored symbol that the text names, up to blanks and case. -/
def named (s : String) : Option String :=
  config.monitoredSymbols.find? fun m => normalized toUppercase s = normalized toUppercase m

/-- The monitored symbol under which a price of the text is found again. -/
def found (s : String) : Option String :=
  if trim s = "" then none else config.monitoredSymbols.find? fun m => toUppercase s = m

/-- The update is stored under the key. -/
def StoredAs (key : String) (u : StablecoinUpdate) : Prop :=
  trim u.symbol ≠ "" ∧ 0 < u.price ∧ toUppercase u.symbol = key

instance (key : String) : DecidablePred (StoredAs toUppercase key) :=
  fun _ => inferInstanceAs (Decidable (_ ∧ _))

/-- The price found under a key after the updates. -/
def storedPrice (updates : List StablecoinUpdate) (key : String) : Option Decimal :=
  (updates.reverse.find? fun u => StoredAs toUppercase key u).map StablecoinUpdate.price

/-- The price found under the key is off its peg. -/
def storedOffPeg (updates : List StablecoinUpdate) (key : String) : Bool :=
  (storedPrice toUppercase updates key).any fun price => config.OffPeg price

end Model

/-! ## The state of a run -/

variable {toUppercase : String → String} {config : StablecoinConfig}
variable {updates : List StablecoinUpdate}

/-- The loop answers whether a monitored symbol is off its peg and which is the first. -/
lemma checkMonitored_eq (prices : String → Option StablecoinPrice) :
    config.checkMonitored prices =
      (config.monitoredSymbols.any (config.entryOffPeg prices),
        config.monitoredSymbols.find? (config.entryOffPeg prices)) := by
  have hloop : ∀ (syms : List String) (acc : Bool × Option String),
      syms.foldl (fun acc sym => if config.entryOffPeg prices sym then
          (true, if acc.2.isNone then some sym else acc.2) else acc) acc =
        (acc.1 || syms.any (config.entryOffPeg prices),
          acc.2.or (syms.find? (config.entryOffPeg prices))) := by
    intro syms
    induction syms with
    | nil => simp
    | cons sym syms ih =>
      intro acc
      rw [List.foldl_cons, ih]
      by_cases h : config.entryOffPeg prices sym = true
      · cases acc.2 <;> simp [h]
      · simp [h]
  have hinit := hloop config.monitoredSymbols (false, none)
  rwa [Bool.false_or, Option.none_or] at hinit

/-- The status set is the answer of the loop. -/
lemma evaluate_spec (config : StablecoinConfig) (state : StablecoinState) :
    (config.evaluate state).prices = state.prices ∧
      ((config.evaluate state).depegActive, (config.evaluate state).depeggedCoin) =
        config.checkMonitored state.prices := by
  unfold StablecoinConfig.evaluate
  rw [checkMonitored_eq]
  dsimp only
  by_cases h : config.monitoredSymbols.any (config.entryOffPeg state.prices) = true
  · rw [if_pos h, h]
    exact ⟨rfl, rfl⟩
  · have hany := Bool.eq_false_iff.mpr h
    rw [if_neg h, hany]
    rw [List.any_eq_false] at hany
    rw [List.find?_eq_none.mpr hany]
    exact ⟨rfl, rfl⟩

/-- An update that is not stored changes nothing. -/
lemma updatePrice_of_rejected {u : StablecoinUpdate} (h : trim u.symbol = "" ∨ u.price ≤ 0)
    (state : StablecoinState) : updatePrice toUppercase config state u = state := by
  unfold updatePrice
  by_cases hblank : trim u.symbol = ""
  · rw [if_pos hblank]
  · rw [if_neg hblank, if_pos (h.resolve_left hblank)]

/-- A stored update replaces the entry of its key and evaluates the status anew. -/
lemma updatePrice_of_accepted (toUppercase : String → String) (config : StablecoinConfig)
    {u : StablecoinUpdate} (hsym : trim u.symbol ≠ "") (hprice : 0 < u.price)
    (state : StablecoinState) :
    ∃ entry : StablecoinPrice, entry.price = u.price ∧
      (updatePrice toUppercase config state u).prices =
        Function.update state.prices (toUppercase u.symbol) (some entry) ∧
      ((updatePrice toUppercase config state u).depegActive,
          (updatePrice toUppercase config state u).depeggedCoin) =
        config.checkMonitored (updatePrice toUppercase config state u).prices := by
  refine ⟨⟨toUppercase (trim u.symbol), u.price, u.exchange, u.now⟩, rfl, ?_⟩
  unfold updatePrice
  rw [if_neg hsym, if_neg (not_le.mpr hprice)]
  obtain ⟨hprices, hstatus⟩ := evaluate_spec config
    { state with
      prices := Function.update state.prices (toUppercase u.symbol)
        (some ⟨toUppercase (trim u.symbol), u.price, u.exchange, u.now⟩) }
  refine ⟨hprices, ?_⟩
  dsimp only
  rw [hprices]
  exact hstatus

/-- After a run the entries are the latest stored prices and the status is the loop over them. -/
lemma runState_spec (toUppercase : String → String) (config : StablecoinConfig)
    (updates : List StablecoinUpdate) :
    (∀ key, ((runState (monitorStep toUppercase config) .initial updates).prices key).map
        StablecoinPrice.price = storedPrice toUppercase updates key) ∧
      ((runState (monitorStep toUppercase config) .initial updates).depegActive,
          (runState (monitorStep toUppercase config) .initial updates).depeggedCoin) =
        config.checkMonitored
          (runState (monitorStep toUppercase config) .initial updates).prices := by
  induction updates using List.reverseRecOn with
  | nil =>
    refine ⟨fun key => rfl, ?_⟩
    have hnone : config.entryOffPeg StablecoinState.initial.prices = fun _ => false := rfl
    rw [checkMonitored_eq, runState_nil, hnone]
    simp [StablecoinState.initial, List.find?_eq_none.mpr]
  | append_singleton updates u ih =>
    obtain ⟨hprices, hstatus⟩ := ih
    rw [runState_append]
    generalize runState (monitorStep toUppercase config) .initial updates = state at *
    simp only [runState_cons, runState_nil, monitorStep]
    have hlast : ∀ key, storedPrice toUppercase (updates ++ [u]) key =
        if StoredAs toUppercase key u then some u.price
        else storedPrice toUppercase updates key := by
      intro key
      unfold storedPrice
      by_cases h : StoredAs toUppercase key u <;> simp [h]
    by_cases hrejected : trim u.symbol = "" ∨ u.price ≤ 0
    · rw [updatePrice_of_rejected hrejected]
      refine ⟨fun key => ?_, hstatus⟩
      have hnot : ¬ StoredAs toUppercase key u := by
        rintro ⟨hsym, hprice, -⟩
        exact hrejected.elim hsym (not_le.mpr hprice)
      rw [hlast, if_neg hnot, hprices]
    · rw [not_or, not_le] at hrejected
      obtain ⟨entry, hentry, hupdate, hnew⟩ :=
        updatePrice_of_accepted toUppercase config hrejected.1 hrejected.2 state
      refine ⟨fun key => ?_, hnew⟩
      rw [hlast, hupdate]
      by_cases hkey : toUppercase u.symbol = key
      · subst hkey
        have hstored : StoredAs toUppercase (toUppercase u.symbol) u :=
          ⟨hrejected.1, hrejected.2, rfl⟩
        rw [if_pos hstored, Function.update_self, Option.map_some, hentry]
      · rw [if_neg fun h => hkey h.2.2, Function.update_of_ne (Ne.symm hkey), hprices]

/-- The status is right exactly when the first symbol found off its peg is the one that should
be. -/
lemma reflectsLatest_iff_find (updates : List StablecoinUpdate) :
    ReflectsLatest toUppercase config updates ↔
      config.monitoredSymbols.find? (storedOffPeg toUppercase config updates) =
        config.monitoredSymbols.find? (latestOffPeg toUppercase config updates) := by
  obtain ⟨hprices, hstatus⟩ := runState_spec toUppercase config updates
  have hentry : config.entryOffPeg
      (runState (monitorStep toUppercase config) .initial updates).prices =
        storedOffPeg toUppercase config updates := by
    funext key
    rw [storedOffPeg, ← hprices key, Option.any_map]
    rfl
  rw [checkMonitored_eq, hentry, Prod.mk.injEq] at hstatus
  unfold ReflectsLatest
  dsimp only
  rw [hstatus.1, hstatus.2, List.any_eq_true, and_iff_right_of_imp]
  intro hfind
  have hsome := congrArg Option.isSome hfind
  rw [Bool.eq_iff_iff, List.find?_isSome, List.find?_isSome] at hsome
  exact hsome

/-! ## When the status is right -/

/-- Two predicates find the same first element when one implies the other and the first element
of the weaker one has the stronger one. -/
lemma find?_eq_of_imp {α : Type*} {p q : α → Bool} {l : List α}
    (himp : ∀ a ∈ l, p a = true → q a = true) (hfirst : ∀ a, l.find? q = some a → p a = true) :
    l.find? p = l.find? q := by
  cases hq : l.find? q with
  | none =>
    rw [List.find?_eq_none] at hq ⊢
    exact fun a ha hp => hq a ha (himp a ha hp)
  | some a =>
    have hp := hfirst a hq
    rw [List.find?_eq_some_iff_append] at hq ⊢
    obtain ⟨-, as, bs, rfl, hbefore⟩ := hq
    refine ⟨hp, as, bs, rfl, ?_⟩
    intro b hb
    have hqb := hbefore b hb
    cases hpb : p b with
    | false => rfl
    | true =>
      rw [himp b (by simp [hb]) hpb] at hqb
      exact absurd hqb (by decide)

/-- A text is found under a monitored symbol when its key is that symbol. -/
lemma found_eq_some_iff {s m : String} (hm : m ∈ config.monitoredSymbols) :
    found toUppercase config s = some m ↔ trim s ≠ "" ∧ toUppercase s = m := by
  unfold found
  by_cases hblank : trim s = ""
  · simp [hblank]
  · rw [if_neg hblank]
    constructor
    · intro h
      exact ⟨hblank, by simpa using List.find?_some h⟩
    · rintro ⟨-, rfl⟩
      rw [List.find?_eq_some_iff_append]
      obtain ⟨as, bs, hsplit, hnot⟩ := List.eq_append_cons_of_mem hm
      refine ⟨by simp, as, bs, hsplit, ?_⟩
      intro a ha
      have hne : toUppercase s ≠ a := fun h => hnot (h ▸ ha)
      simp [hne]

/-- When every text is found under the monitored symbol it names, the updates stored under a symbol
that has one are those that name it. -/
lemma storedAs_iff_names (hfound : ∀ u ∈ updates,
      named toUppercase config u.symbol = found toUppercase config u.symbol)
    {m : String} (hm : m ∈ config.monitoredSymbols) {u : StablecoinUpdate} (hu : u ∈ updates)
    (hstored : StoredAs toUppercase m u) {v : StablecoinUpdate} (hv : v ∈ updates) :
    StoredAs toUppercase m v ↔ Names toUppercase m v := by
  have hnorm : ∀ w ∈ updates, StoredAs toUppercase m w →
      named toUppercase config w.symbol = some m ∧
        normalized toUppercase w.symbol = normalized toUppercase m := by
    intro w hw h
    have hw' := hfound w hw
    rw [(found_eq_some_iff hm).mpr ⟨h.1, h.2.2⟩] at hw'
    exact ⟨hw', by simpa using List.find?_some hw'⟩
  constructor
  · intro h
    exact ⟨h.2.1, (hnorm v hv h).2⟩
  · rintro ⟨hprice, hname⟩
    obtain ⟨hnamed, hnorm⟩ := hnorm u hu hstored
    have hv' : named toUppercase config v.symbol = some m := by
      rw [← hnamed, named, named, hname, hnorm]
    rw [hfound v hv, found_eq_some_iff hm] at hv'
    exact ⟨hv'.1, hprice, hv'.2⟩

/-- Under the same condition a symbol with a stored price has it as its latest price. -/
lemma storedPrice_eq_latestPrice (hfound : ∀ u ∈ updates,
      named toUppercase config u.symbol = found toUppercase config u.symbol)
    {m : String} (hm : m ∈ config.monitoredSymbols) {u : StablecoinUpdate} (hu : u ∈ updates)
    (hstored : StoredAs toUppercase m u) :
    storedPrice toUppercase updates m = latestPrice toUppercase updates m := by
  have hsame : (updates.reverse.find? fun v => StoredAs toUppercase m v) =
      updates.reverse.find? fun v => Names toUppercase m v := by
    apply List.find?_congr
    intro v hv
    rw [decide_eq_decide]
    exact storedAs_iff_names hfound hm hu hstored (List.mem_reverse.mp hv)
  rw [storedPrice, latestPrice, hsame]

/-- An off-peg latest price comes from an update. -/
lemma exists_of_latestOffPeg {m : String} (h : latestOffPeg toUppercase config updates m = true) :
    ∃ u ∈ updates, Names toUppercase m u := by
  unfold latestOffPeg latestPrice at h
  cases hfind : updates.reverse.find? fun u => Names toUppercase m u with
  | none => simp [hfind] at h
  | some u =>
    exact ⟨u, List.mem_reverse.mp (List.mem_of_find?_eq_some hfind),
      by simpa using List.find?_some hfind⟩

/-- An off-peg stored price comes from an update. -/
lemma exists_of_storedOffPeg {m : String} (h : storedOffPeg toUppercase config updates m = true) :
    ∃ u ∈ updates, StoredAs toUppercase m u := by
  unfold storedOffPeg storedPrice at h
  cases hfind : updates.reverse.find? fun u => StoredAs toUppercase m u with
  | none => simp [hfind] at h
  | some u =>
    exact ⟨u, List.mem_reverse.mp (List.mem_of_find?_eq_some hfind),
      by simpa using List.find?_some hfind⟩

/-- The first monitored symbol whose latest price is off its peg is named by its updates. -/
lemma named_of_first {m : String} {u : StablecoinUpdate}
    (hfirst : config.monitoredSymbols.find? (latestOffPeg toUppercase config updates) = some m)
    (hu : Names toUppercase m u) : named toUppercase config u.symbol = some m := by
  rw [List.find?_eq_some_iff_append] at hfirst
  obtain ⟨hoff, as, bs, hsplit, hbefore⟩ := hfirst
  rw [named, List.find?_eq_some_iff_append]
  refine ⟨by simpa using hu.2, as, bs, hsplit, ?_⟩
  intro a ha
  -- an earlier symbol of the same name would have the same latest price
  have hne : normalized toUppercase u.symbol ≠ normalized toUppercase a := by
    intro h
    have hsame : latestOffPeg toUppercase config updates a =
        latestOffPeg toUppercase config updates m := by
      simp only [latestOffPeg, latestPrice, Names, ← h, ← hu.2]
    have hfalse := hbefore a ha
    rw [hsame, hoff] at hfalse
    exact absurd hfalse (by decide)
  simp [hne]

/-- The status reflects the latest prices in all runs of updates with the given texts exactly when
each text is found under the first monitored symbol that it names. -/
theorem reflectsLatest_iff (toUppercase : String → String) (config : StablecoinConfig)
    (texts : Set String) :
    (∀ updates : List StablecoinUpdate, (∀ u ∈ updates, u.symbol ∈ texts) →
        ReflectsLatest toUppercase config updates) ↔
      ∀ s ∈ texts, named toUppercase config s = found toUppercase config s := by
  constructor
  · -- one update at an off-peg price tells the two apart
    intro h s hs
    let price : Decimal := |2 - config.depegThreshold| + 1
    have hpos : 0 < price := by positivity
    have hoff : config.OffPeg price :=
      Or.inr (by linarith [le_abs_self (2 - config.depegThreshold)])
    have hsingle := h [⟨s, price, "", 0⟩] (by simpa using hs)
    rw [reflectsLatest_iff_find] at hsingle
    have hlatest : latestOffPeg toUppercase config [⟨s, price, "", 0⟩] =
        fun m => decide (normalized toUppercase s = normalized toUppercase m) := by
      funext m
      by_cases hm : normalized toUppercase s = normalized toUppercase m <;>
        simp [latestOffPeg, latestPrice, Names, hm, hpos, hoff]
    have hstored : storedOffPeg toUppercase config [⟨s, price, "", 0⟩] =
        fun m => decide (trim s ≠ "" ∧ toUppercase s = m) := by
      funext m
      by_cases hm : trim s ≠ "" ∧ toUppercase s = m <;>
        simp [storedOffPeg, storedPrice, StoredAs, hm, hpos, hoff]
    rw [hlatest, hstored] at hsingle
    rw [named, ← hsingle, found]
    by_cases hblank : trim s = "" <;> simp [hblank]
  · intro h updates htexts
    have hfound : ∀ u ∈ updates,
        named toUppercase config u.symbol = found toUppercase config u.symbol :=
      fun u hu => h u.symbol (htexts u hu)
    rw [reflectsLatest_iff_find]
    apply find?_eq_of_imp
    · intro m hm hoff
      obtain ⟨u, hu, hstored⟩ := exists_of_storedOffPeg hoff
      rwa [storedOffPeg, storedPrice_eq_latestPrice hfound hm hu hstored] at hoff
    · intro m hfirst
      have hm := List.mem_of_find?_eq_some hfirst
      have hoff := List.find?_some hfirst
      obtain ⟨u, hu, hnames⟩ := exists_of_latestOffPeg hoff
      have hnamed := named_of_first hfirst hnames
      rw [hfound u hu, found_eq_some_iff hm] at hnamed
      have hstored : StoredAs toUppercase m u := ⟨hnamed.1, hnames.1, hnamed.2⟩
      rwa [latestOffPeg, ← storedPrice_eq_latestPrice hfound hm hu hstored] at hoff

/-- With the default configuration a price of 0.9 given for the text with a blank after the symbol
is not seen. -/
theorem not_reflectsLatest_blank :
    ¬ ReflectsLatest String.toUpper StablecoinConfig.standard
      [⟨"USDT ", 9 / 10, "binance", 0⟩] := by
  rw [reflectsLatest_iff_find]
  decide +kernel

end StablecoinMonitor

end HftArb
