import HftArb.Capital.Rebalancer
import HftArb.Feeds.BinanceDepth

/-!
# Reading the deposit history

`parse_deposit_response` goes through the deposits of the destination exchange and stops at the
first one of the coin that it takes for a success or for a rejection.  A history of Binance is an
array; those of Bybit and OKX are objects, which are read by one loop.  That loop takes the success
statuses of all three exchanges for a success and does not compare the amount, and in every format a
rejection ends the search although the deposit may follow it (`parseDepositResponse_iff`).
-/

namespace HftArb

open BinanceDepth

namespace BinanceDepth.Json

/-- `as_i64`. -/
def asI64 : Json → Option Int64
  | .number (.posInt n) => if n.toNat < 2 ^ 63 then some n.toInt64 else none
  | .number (.negInt z) => some (.ofInt z)
  | _ => none

/-- The field of an object in brackets. -/
def index (v : Json) (key : String) : Json := (v.get? key).getD .null

/-- An integer. -/
def ofI64 (z : Int64) : Json :=
  .number (if 0 ≤ z then .posInt z.toUInt64 else .negInt z.toInt)

lemma asI64_ofI64 (z : Int64) : (ofI64 z).asI64 = some z := by
  unfold ofI64
  split_ifs with hz
  · have hlt : z.toUInt64.toNat < 2 ^ 63 := by
      rw [Int64.toNat_toUInt64_of_le hz]
      exact z.toNatClampNeg_lt
    rw [asI64, if_pos hlt, Int64.toInt64_toUInt64]
  · rw [asI64, Int64.ofInt_toInt]

end BinanceDepth.Json

namespace DepositVerification

/-! ## The loops -/

/-- `eq_ignore_ascii_case`. -/
def eqIgnoreAsciiCase (s t : String) : Bool :=
  s.toList.map Char.toLower = t.toList.map Char.toLower

/-- What the loop over the deposits of a format takes for a success and for a rejection. -/
structure DepositLoop (σ : Type) where
  successes : List σ
  rejections : List σ
  checksAmount : Bool
  reason : σ → String

/-- The loop over the array of Binance. -/
def binanceLoop : DepositLoop Int64 where
  successes := [1]
  rejections := [6]
  checksAmount := true
  reason _ := "deposit rejected by exchange"

/-- The loop over the rows of Bybit and OKX. -/
def objectLoop : DepositLoop String where
  successes := ["3", "2", "1"]
  rejections := ["6", "4", "rejected"]
  checksAmount := false
  reason state := "deposit rejected (state=" ++ state ++ ")"

section Model

-- `serde_json::from_str`, the parser of decimals, and `to_uppercase`.
variable (fromStr : String → Option Json) (parseDecimal : String → Option Decimal)
  (toUppercase : String → String)

/-- What a loop makes of one deposit; nothing when it goes on. -/
def DepositLoop.verdict {σ : Type} [DecidableEq σ] (loop : DepositLoop σ) (upper : String)
    (expectedAmount : Decimal) (coin : String) (status : σ) (amountStr : String) :
    Option DepositVerifyResult :=
  let confirmed : Option DepositVerifyResult :=
    if eqIgnoreAsciiCase coin upper = true ∧ status ∈ loop.successes then
      match parseDecimal amountStr with
      | some amt =>
        if h : 0 < amt then
          if loop.checksAmount = true ∧ 1 < |amt - expectedAmount| then none
          else some (.confirmed amt h)
        else none
      | none => none
    else none
  confirmed.orElse fun _ =>
    if eqIgnoreAsciiCase coin upper = true ∧ status ∈ loop.rejections then
      some (.failed (loop.reason status))
    else none

/-- One deposit of the array of Binance. -/
def binanceVerdict (upper : String) (expectedAmount : Decimal) (dep : Json) :
    Option DepositVerifyResult :=
  let coin := ((dep.index "coin").asStr).getD ""
  let status := ((dep.index "status").asI64).getD 0
  let amountStr := ((dep.index "amount").asStr).getD "0"
  binanceLoop.verdict parseDecimal upper expectedAmount coin status amountStr

/-- One row of Bybit or OKX. -/
def objectVerdict (upper : String) (expectedAmount : Decimal) (dep : Json) :
    Option DepositVerifyResult :=
  let coin := (((dep.get? "coin").orElse fun _ => dep.get? "ccy").bind Json.asStr).getD ""
  let state := (((dep.get? "state").bind Json.asStr).orElse fun _ =>
    (dep.get? "status").bind Json.asStr).getD ""
  let amountStr := (((dep.get? "amount").orElse fun _ => dep.get? "amt").bind Json.asStr).getD "0"
  objectLoop.verdict parseDecimal upper expectedAmount coin state amountStr

/-- The rows of Bybit or OKX. -/
def rowsOf (v : Json) : Option Json :=
  ((v.get? "result").bind fun r => r.get? "rows").orElse fun _ => v.get? "data"

/-- `parse_deposit_response`. -/
def parseDepositResponse (body tokenSymbol : String) (expectedAmount : Decimal) :
    DepositVerifyResult :=
  let upper := toUppercase tokenSymbol
  match fromStr body with
  | none => .apiError "unparseable deposit response"
  | some v =>
    match v.asArray with
    | some deposits =>
      (deposits.findSome? (binanceVerdict parseDecimal upper expectedAmount)).getD .notFound
    | none =>
      match (rowsOf v).bind Json.asArray with
      | some rows =>
        (rows.findSome? (objectVerdict parseDecimal upper expectedAmount)).getD .notFound
      | none => .apiError "unparseable deposit response"

end Model

/-! ## Deposit histories -/

/-- The names of the fields that are read. -/
def readNames : List String :=
  ["coin", "ccy", "amount", "amt", "status", "state", "result", "rows", "data"]

/-- Fields that are not read. -/
def OtherFields : Type :=
  {entries : List (String × Json) // ∀ name ∈ readNames, entries.lookup name = none}

/-- A deposit: its coin, the text of its amount, its status and its other fields. -/
structure DepositRecord (σ : Type) where
  coin : String
  amount : String
  status : σ
  others : OtherFields

/-- A deposit of Binance. -/
def DepositRecord.toBinance (r : DepositRecord Int64) : Json :=
  .object (("amount", .string r.amount) :: ("coin", .string r.coin) ::
    ("status", .ofI64 r.status) :: r.others.1)

/-- A row of Bybit. -/
def DepositRecord.toBybit (r : DepositRecord String) : Json :=
  .object (("amount", .string r.amount) :: ("coin", .string r.coin) ::
    ("state", .string r.status) :: r.others.1)

/-- A row of OKX. -/
def DepositRecord.toOkx (r : DepositRecord String) : Json :=
  .object (("amt", .string r.amount) :: ("ccy", .string r.coin) ::
    ("state", .string r.status) :: r.others.1)

/-- The deposit history of an exchange. -/
inductive DepositHistory
  | binance (records : List (DepositRecord Int64))
  | bybit (records : List (DepositRecord String)) (result message : OtherFields)
  | okx (records : List (DepositRecord String)) (message : OtherFields)

/-- The body of a response. -/
def DepositHistory.render : DepositHistory → Json
  | .binance records => .array (records.map DepositRecord.toBinance)
  | .bybit records result message =>
    .object (("result", .object (("rows", .array (records.map DepositRecord.toBybit)) ::
      result.1)) :: message.1)
  | .okx records message =>
    .object (("data", .array (records.map DepositRecord.toOkx)) :: message.1)

section Credits

variable {σ : Type} (parseDecimal : String → Option Decimal) (upper : String)
  (expectedAmount : Decimal)

/-- The deposit is the expected one: its coin, its exchange's success status, about the amount. -/
def DepositRecord.Credited (success : σ) (r : DepositRecord σ) (a : Decimal) : Prop :=
  eqIgnoreAsciiCase r.coin upper = true ∧ r.status = success ∧ parseDecimal r.amount = some a ∧
    0 < a ∧ |a - expectedAmount| ≤ 1

/-- The deposit is taken for a success. -/
def DepositLoop.Accepts (loop : DepositLoop σ) (r : DepositRecord σ) (a : Decimal) : Prop :=
  eqIgnoreAsciiCase r.coin upper = true ∧ r.status ∈ loop.successes ∧
    parseDecimal r.amount = some a ∧ 0 < a ∧
    (loop.checksAmount = true → |a - expectedAmount| ≤ 1)

/-- The deposit is taken for a rejection. -/
def DepositLoop.Rejects (loop : DepositLoop σ) (r : DepositRecord σ) : Prop :=
  eqIgnoreAsciiCase r.coin upper = true ∧ r.status ∈ loop.rejections

/-- The loop goes on after the deposit. -/
def DepositLoop.Passes (loop : DepositLoop σ) (r : DepositRecord σ) : Prop :=
  (∀ a, ¬ loop.Accepts parseDecimal upper expectedAmount r a) ∧ ¬ loop.Rejects upper r

/-- Some deposit of a list is credited with the amount. -/
def CreditedIn (success : σ) (records : List (DepositRecord σ)) (a : Decimal) : Prop :=
  ∃ r ∈ records, r.Credited parseDecimal upper expectedAmount success a

/-- The first deposit that the loop does not pass is taken for a success with the amount of an
expected deposit, or for a rejection where there is no expected deposit. -/
def DepositLoop.FirstRight (loop : DepositLoop σ) (success : σ)
    (records : List (DepositRecord σ)) : Prop :=
  ∀ before r after, records = before ++ r :: after →
    (∀ r' ∈ before, loop.Passes parseDecimal upper expectedAmount r') →
    (∀ a, loop.Accepts parseDecimal upper expectedAmount r a →
        CreditedIn parseDecimal upper expectedAmount success records a) ∧
      (loop.Rejects upper r →
        ∀ a, ¬ CreditedIn parseDecimal upper expectedAmount success records a)

/-- Some deposit of the history is credited with the amount; the success statuses are 1, 3 and 2. -/
def DepositHistory.Credits (a : Decimal) : DepositHistory → Prop
  | .binance records => CreditedIn parseDecimal upper expectedAmount 1 records a
  | .bybit records _ _ => CreditedIn parseDecimal upper expectedAmount "3" records a
  | .okx records _ => CreditedIn parseDecimal upper expectedAmount "2" records a

/-- The first deposit that is not passed is judged right. -/
def DepositHistory.FirstRight : DepositHistory → Prop
  | .binance records => binanceLoop.FirstRight parseDecimal upper expectedAmount 1 records
  | .bybit records _ _ => objectLoop.FirstRight parseDecimal upper expectedAmount "3" records
  | .okx records _ => objectLoop.FirstRight parseDecimal upper expectedAmount "2" records

end Credits

/-! ## One deposit -/

section Verdict

variable {σ : Type} [DecidableEq σ] {parseDecimal : String → Option Decimal} {upper : String}
  {expectedAmount : Decimal} {loop : DepositLoop σ}

/-- The verdict on a deposit. -/
def DepositLoop.verdictOn (parseDecimal : String → Option Decimal) (upper : String)
    (expectedAmount : Decimal) (loop : DepositLoop σ) (r : DepositRecord σ) :
    Option DepositVerifyResult :=
  loop.verdict parseDecimal upper expectedAmount r.coin r.status r.amount

/-- A deposit is taken for a success of one amount, or its rejection is looked at. -/
lemma verdictOn_cases (parseDecimal : String → Option Decimal) (upper : String)
    (expectedAmount : Decimal) (loop : DepositLoop σ) (r : DepositRecord σ) :
    (∃ a h, loop.Accepts parseDecimal upper expectedAmount r a ∧
        loop.verdictOn parseDecimal upper expectedAmount r = some (.confirmed a h)) ∨
      ((∀ a, ¬ loop.Accepts parseDecimal upper expectedAmount r a) ∧
        loop.verdictOn parseDecimal upper expectedAmount r =
          if eqIgnoreAsciiCase r.coin upper = true ∧ r.status ∈ loop.rejections then
            some (.failed (loop.reason r.status))
          else none) := by
  unfold DepositLoop.verdictOn DepositLoop.verdict
  by_cases hsuccess : eqIgnoreAsciiCase r.coin upper = true ∧ r.status ∈ loop.successes
  · cases hparse : parseDecimal r.amount with
    | none =>
      refine Or.inr ⟨fun a h => ?_, by simp only [if_pos hsuccess, Option.orElse_none]⟩
      rw [h.2.2.1] at hparse
      cases hparse
    | some amt =>
      by_cases hright : 0 < amt ∧ (loop.checksAmount = true → |amt - expectedAmount| ≤ 1)
      · have htolerance : ¬ (loop.checksAmount = true ∧ 1 < |amt - expectedAmount|) :=
          fun h => absurd (hright.2 h.1) (not_le.mpr h.2)
        refine Or.inl ⟨amt, hright.1, ⟨hsuccess.1, hsuccess.2, hparse, hright⟩, ?_⟩
        simp only [if_pos hsuccess, dif_pos hright.1, if_neg htolerance, Option.orElse_some]
      · refine Or.inr ⟨fun a h => ?_, ?_⟩
        · obtain rfl := Option.some.inj (hparse.symm.trans h.2.2.1)
          exact hright h.2.2.2
        · simp only [if_pos hsuccess]
          by_cases hpos : 0 < amt
          · have htolerance : loop.checksAmount = true ∧ 1 < |amt - expectedAmount| := by
              by_contra h
              refine hright ⟨hpos, fun hchecks => ?_⟩
              exact not_lt.mp fun hlt => h ⟨hchecks, hlt⟩
            simp only [dif_pos hpos, if_pos htolerance, Option.orElse_none]
          · simp only [dif_neg hpos, Option.orElse_none]
  · refine Or.inr ⟨fun a h => hsuccess ⟨h.1, h.2.1⟩, ?_⟩
    simp only [if_neg hsuccess, Option.orElse_none]

/-- What is confirmed is taken for a success. -/
lemma verdictOn_eq_confirmed_iff {r : DepositRecord σ} {a : Decimal} :
    (∃ h, loop.verdictOn parseDecimal upper expectedAmount r = some (.confirmed a h)) ↔
      loop.Accepts parseDecimal upper expectedAmount r a := by
  rcases verdictOn_cases parseDecimal upper expectedAmount loop r with
    ⟨b, hb, haccepts, heq⟩ | ⟨hnone, heq⟩
  · rw [heq]
    constructor
    · rintro ⟨h, hconfirmed⟩
      obtain rfl : b = a := by injection Option.some.inj hconfirmed
      exact haccepts
    · intro h
      obtain rfl := Option.some.inj (haccepts.2.2.1.symm.trans h.2.2.1)
      exact ⟨hb, rfl⟩
  · refine iff_of_false ?_ (hnone a)
    rintro ⟨h, hconfirmed⟩
    rw [heq] at hconfirmed
    split at hconfirmed <;> cases hconfirmed

/-- The loop goes on after a deposit that it takes for neither. -/
lemma verdictOn_eq_none_iff {r : DepositRecord σ} :
    loop.verdictOn parseDecimal upper expectedAmount r = none ↔
      loop.Passes parseDecimal upper expectedAmount r := by
  rcases verdictOn_cases parseDecimal upper expectedAmount loop r with
    ⟨b, hb, haccepts, heq⟩ | ⟨hnone, heq⟩
  · rw [heq]
    exact iff_of_false nofun fun h => h.1 b haccepts
  · rw [heq, DepositLoop.Passes, DepositLoop.Rejects]
    by_cases hrejects : eqIgnoreAsciiCase r.coin upper = true ∧ r.status ∈ loop.rejections
    · rw [if_pos hrejects]
      exact iff_of_false nofun fun h => h.2 hrejects
    · rw [if_neg hrejects]
      exact iff_of_true rfl ⟨hnone, hrejects⟩

/-! ## A list of deposits -/

/-- No status is taken for a success and for a rejection. -/
def DepositLoop.Unambiguous (loop : DepositLoop σ) : Prop :=
  ∀ status ∈ loop.successes, status ∉ loop.rejections

/-- The result of the loop. -/
def DepositLoop.result (parseDecimal : String → Option Decimal) (upper : String)
    (expectedAmount : Decimal) (loop : DepositLoop σ) (records : List (DepositRecord σ)) :
    DepositVerifyResult :=
  (records.findSome? (loop.verdictOn parseDecimal upper expectedAmount)).getD .notFound

/-- The loop stops at the first deposit that it does not pass. -/
lemma result_of_first {before after : List (DepositRecord σ)} {r : DepositRecord σ}
    {v : DepositVerifyResult}
    (hbefore : ∀ r' ∈ before, loop.Passes parseDecimal upper expectedAmount r')
    (hv : loop.verdictOn parseDecimal upper expectedAmount r = some v) :
    loop.result parseDecimal upper expectedAmount (before ++ r :: after) = v := by
  have hpassed : before.findSome? (loop.verdictOn parseDecimal upper expectedAmount) = none :=
    List.findSome?_eq_none_iff.mpr fun r' hr' => verdictOn_eq_none_iff.mpr (hbefore r' hr')
  rw [DepositLoop.result, List.findSome?_append, hpassed, List.findSome?_cons, hv]
  rfl

/-- A confirmed amount comes from the first deposit that is not passed. -/
lemma exists_first_of_result_confirmed {records : List (DepositRecord σ)} {a : Decimal} {h : 0 < a}
    (hresult : loop.result parseDecimal upper expectedAmount records = .confirmed a h) :
    ∃ before r after, records = before ++ r :: after ∧
      (∀ r' ∈ before, loop.Passes parseDecimal upper expectedAmount r') ∧
      loop.Accepts parseDecimal upper expectedAmount r a := by
  unfold DepositLoop.result at hresult
  cases hfind : records.findSome? (loop.verdictOn parseDecimal upper expectedAmount) with
  | none =>
    rw [hfind] at hresult
    cases hresult
  | some v =>
    rw [hfind, Option.getD_some] at hresult
    subst hresult
    obtain ⟨before, r, after, rfl, hr, hbefore⟩ := List.findSome?_eq_some_iff.mp hfind
    exact ⟨before, r, after, rfl, fun r' hr' => verdictOn_eq_none_iff.mp (hbefore r' hr'),
      verdictOn_eq_confirmed_iff.mp ⟨h, hr⟩⟩

/-- A list with a deposit that is not passed has a first one. -/
lemma exists_first_of_not_passes {records : List (DepositRecord σ)} {r : DepositRecord σ}
    (hr : r ∈ records) (hpasses : ¬ loop.Passes parseDecimal upper expectedAmount r) :
    ∃ before r' after, records = before ++ r' :: after ∧
      (∀ r'' ∈ before, loop.Passes parseDecimal upper expectedAmount r'') ∧
      ((∃ a, loop.Accepts parseDecimal upper expectedAmount r' a) ∨ loop.Rejects upper r') := by
  cases hfind : records.findSome? (loop.verdictOn parseDecimal upper expectedAmount) with
  | none =>
    exact absurd (verdictOn_eq_none_iff.mp (List.findSome?_eq_none_iff.mp hfind r hr)) hpasses
  | some v =>
    obtain ⟨before, r', after, rfl, hv, hbefore⟩ := List.findSome?_eq_some_iff.mp hfind
    refine ⟨before, r', after, rfl, fun r'' hr'' => verdictOn_eq_none_iff.mp (hbefore r'' hr''), ?_⟩
    by_contra hneither
    push Not at hneither
    rw [verdictOn_eq_none_iff.mpr hneither] at hv
    cases hv

variable {success : σ} {records : List (DepositRecord σ)}

omit [DecidableEq σ] in
/-- A rejection is not confirmed. -/
lemma not_accepts_of_rejects (hloop : loop.Unambiguous) {r : DepositRecord σ}
    (hr : loop.Rejects upper r) (a : Decimal) :
    ¬ loop.Accepts parseDecimal upper expectedAmount r a :=
  fun h => hloop r.status h.2.1 hr.2

omit [DecidableEq σ] in
/-- An expected deposit is taken for a success. -/
lemma accepts_of_credited (hsuccess : success ∈ loop.successes) {r : DepositRecord σ} {a : Decimal}
    (h : r.Credited parseDecimal upper expectedAmount success a) :
    loop.Accepts parseDecimal upper expectedAmount r a :=
  ⟨h.1, h.2.1 ▸ hsuccess, h.2.2.1, h.2.2.2.1, fun _ => h.2.2.2.2⟩

/-- The loop recognises the expected deposits: what it confirms is the amount of one of them, and
when there is one it confirms an amount. -/
def Recognises (result : DepositVerifyResult) (credits : Decimal → Prop) : Prop :=
  (∀ a h, result = .confirmed a h → credits a) ∧
    ((∃ a, credits a) → ∃ a h, result = .confirmed a h)

/-- A loop recognises the expected deposits exactly when it is right about the first deposit that it
does not pass. -/
lemma recognises_iff (hloop : loop.Unambiguous) (hsuccess : success ∈ loop.successes) :
    Recognises (loop.result parseDecimal upper expectedAmount records)
        (CreditedIn parseDecimal upper expectedAmount success records) ↔
      loop.FirstRight parseDecimal upper expectedAmount success records := by
  constructor
  · rintro ⟨hright, hfound⟩ before r after rfl hbefore
    refine ⟨fun a haccepts => ?_, fun hrejects a hcredited => ?_⟩
    · obtain ⟨h, hv⟩ := verdictOn_eq_confirmed_iff.mpr haccepts
      exact hright a h (result_of_first hbefore hv)
    · obtain ⟨b, h, hresult⟩ := hfound ⟨a, hcredited⟩
      cases hv : loop.verdictOn parseDecimal upper expectedAmount r with
      | none => exact (verdictOn_eq_none_iff.mp hv).2 hrejects
      | some v =>
        rw [result_of_first hbefore hv] at hresult
        rw [hresult] at hv
        exact not_accepts_of_rejects hloop hrejects b (verdictOn_eq_confirmed_iff.mp ⟨h, hv⟩)
  · intro hfirst
    refine ⟨fun a h hresult => ?_, ?_⟩
    · obtain ⟨before, r, after, rfl, hbefore, haccepts⟩ := exists_first_of_result_confirmed hresult
      exact (hfirst before r after rfl hbefore).1 a haccepts
    · rintro ⟨a, r, hr, hcredited⟩
      obtain ⟨before, r', after, rfl, hbefore, ⟨b, haccepts⟩ | hrejects⟩ :=
        exists_first_of_not_passes hr fun h => h.1 a (accepts_of_credited hsuccess hcredited)
      · obtain ⟨h, hv⟩ := verdictOn_eq_confirmed_iff.mpr haccepts
        exact ⟨b, h, result_of_first hbefore hv⟩
      · exact absurd ⟨r, hr, hcredited⟩ ((hfirst before r' after rfl hbefore).2 hrejects a)

/-- Every credited amount is confirmed exactly when the expected deposits are recognised and have
one amount. -/
lemma forall_confirmed_iff {result : DepositVerifyResult} {credits : Decimal → Prop} :
    (∀ a, (∃ h, result = .confirmed a h) ↔ credits a) ↔
      Recognises result credits ∧ ∀ a b, credits a → credits b → a = b := by
  constructor
  · intro hiff
    refine ⟨⟨fun a h hresult => (hiff a).mp ⟨h, hresult⟩, ?_⟩, fun a b ha hb => ?_⟩
    · rintro ⟨a, ha⟩
      exact ⟨a, (hiff a).mpr ha⟩
    · obtain ⟨h, hresult⟩ := (hiff a).mpr ha
      obtain ⟨h', hresult'⟩ := (hiff b).mpr hb
      injection hresult.symm.trans hresult'
  · rintro ⟨⟨hright, hfound⟩, hunique⟩ a
    constructor
    · rintro ⟨h, hresult⟩
      exact hright a h hresult
    · intro ha
      obtain ⟨b, h, hresult⟩ := hfound ⟨a, ha⟩
      obtain rfl := hunique a b ha (hright b h hresult)
      exact ⟨h, hresult⟩

end Verdict

lemma binanceLoop_unambiguous : binanceLoop.Unambiguous := by
  simp [DepositLoop.Unambiguous, binanceLoop]

lemma objectLoop_unambiguous : objectLoop.Unambiguous := by
  simp [DepositLoop.Unambiguous, objectLoop]

/-! ## Responses -/

section Response

variable {fromStr : String → Option Json} {parseDecimal : String → Option Decimal}
  {toUppercase : String → String} {upper : String} {expectedAmount : Decimal}

lemma binanceVerdict_toBinance (r : DepositRecord Int64) :
    binanceVerdict parseDecimal upper expectedAmount r.toBinance =
      binanceLoop.verdictOn parseDecimal upper expectedAmount r := by
  simp [binanceVerdict, DepositLoop.verdictOn, DepositRecord.toBinance, Json.index, Json.get?,
    Json.asStr, Json.asI64_ofI64, List.lookup_cons]

lemma objectVerdict_toBybit (r : DepositRecord String) :
    objectVerdict parseDecimal upper expectedAmount r.toBybit =
      objectLoop.verdictOn parseDecimal upper expectedAmount r := by
  simp [objectVerdict, DepositLoop.verdictOn, DepositRecord.toBybit, Json.get?, Json.asStr,
    List.lookup_cons]

lemma objectVerdict_toOkx (r : DepositRecord String) :
    objectVerdict parseDecimal upper expectedAmount r.toOkx =
      objectLoop.verdictOn parseDecimal upper expectedAmount r := by
  have hcoin : r.others.1.lookup "coin" = none := r.others.2 "coin" (by decide)
  have hamount : r.others.1.lookup "amount" = none := r.others.2 "amount" (by decide)
  simp [objectVerdict, DepositLoop.verdictOn, DepositRecord.toOkx, Json.get?, Json.asStr,
    List.lookup_cons, hcoin, hamount]

/-- The result for a history. -/
def DepositHistory.result (parseDecimal : String → Option Decimal) (upper : String)
    (expectedAmount : Decimal) : DepositHistory → DepositVerifyResult
  | .binance records => binanceLoop.result parseDecimal upper expectedAmount records
  | .bybit records _ _ => objectLoop.result parseDecimal upper expectedAmount records
  | .okx records _ => objectLoop.result parseDecimal upper expectedAmount records

lemma parseDepositResponse_render {body : String} {history : DepositHistory}
    (hbody : fromStr body = some history.render) (tokenSymbol : String) :
    parseDepositResponse fromStr parseDecimal toUppercase body tokenSymbol expectedAmount =
      history.result parseDecimal (toUppercase tokenSymbol) expectedAmount := by
  unfold parseDepositResponse
  rw [hbody]
  cases history with
  | binance records =>
    simp only [DepositHistory.render, Json.asArray, List.findSome?_map, DepositHistory.result,
      DepositLoop.result, Function.comp_def, binanceVerdict_toBinance]
  | bybit records result message =>
    simp [DepositHistory.render, Json.asArray, rowsOf, Json.get?, List.lookup_cons,
      List.findSome?_map, DepositHistory.result, DepositLoop.result, Function.comp_def,
      objectVerdict_toBybit]
  | okx records message =>
    have hresult : message.1.lookup "result" = none := message.2 "result" (by decide)
    simp [DepositHistory.render, Json.asArray, rowsOf, Json.get?, List.lookup_cons, hresult,
      List.findSome?_map, DepositHistory.result, DepositLoop.result, Function.comp_def,
      objectVerdict_toOkx]

/-- The histories whose expected deposits are recognised. -/
lemma DepositHistory.recognises_iff (parseDecimal : String → Option Decimal) (upper : String)
    (expectedAmount : Decimal) (history : DepositHistory) :
    Recognises (history.result parseDecimal upper expectedAmount)
        (fun a => history.Credits parseDecimal upper expectedAmount a) ↔
      history.FirstRight parseDecimal upper expectedAmount := by
  cases history with
  | binance records =>
    exact DepositVerification.recognises_iff binanceLoop_unambiguous (by decide)
  | bybit records result message =>
    exact DepositVerification.recognises_iff objectLoop_unambiguous (by decide)
  | okx records message =>
    exact DepositVerification.recognises_iff objectLoop_unambiguous (by decide)

/-- The deposit history confirms the expected deposits exactly when the first deposit that is not
passed is judged right; it then confirms every expected amount when there is only one. -/
theorem parseDepositResponse_iff {body : String} {history : DepositHistory}
    (hbody : fromStr body = some history.render) (tokenSymbol : String) (expectedAmount : Decimal) :
    ((∀ a, (∃ h, parseDepositResponse fromStr parseDecimal toUppercase body tokenSymbol
          expectedAmount = .confirmed a h) ↔
        history.Credits parseDecimal (toUppercase tokenSymbol) expectedAmount a) ↔
      history.FirstRight parseDecimal (toUppercase tokenSymbol) expectedAmount ∧
        ∀ a b, history.Credits parseDecimal (toUppercase tokenSymbol) expectedAmount a →
          history.Credits parseDecimal (toUppercase tokenSymbol) expectedAmount b → a = b) ∧
    (Recognises
        (parseDepositResponse fromStr parseDecimal toUppercase body tokenSymbol expectedAmount)
        (fun a => history.Credits parseDecimal (toUppercase tokenSymbol) expectedAmount a) ↔
      history.FirstRight parseDecimal (toUppercase tokenSymbol) expectedAmount) := by
  rw [parseDepositResponse_render hbody]
  have hrecognises := history.recognises_iff parseDecimal (toUppercase tokenSymbol) expectedAmount
  exact ⟨by rw [forall_confirmed_iff, hrecognises], hrecognises⟩

end Response

/-! ## Two histories -/

/-- The decimals of the histories. -/
def readDecimal (s : String) : Option Decimal :=
  if s = "500" then some 500 else if s = "900" then some 900 else none

/-- A deposit of USDT. -/
def usdt {σ : Type} (amount : String) (status : σ) : DepositRecord σ :=
  ⟨"USDT", amount, status, ⟨[], fun _ _ => rfl⟩⟩

/-- The text of a history of Bybit with a deposit of another size. -/
def staleText : String :=
  "\x7b\"result\":\x7b\"rows\":[" ++
    "\x7b\"amount\":\"900\",\"coin\":\"USDT\",\"state\":\"3\"\x7d]\x7d\x7d"

/-- The history of this text. -/
def staleHistory : DepositHistory :=
  .bybit [usdt "900" "3"] ⟨[], fun _ _ => rfl⟩ ⟨[], fun _ _ => rfl⟩

/-- The text of a history of Binance with a rejection and the expected deposit. -/
def rejectedText : String :=
  "[\x7b\"amount\":\"900\",\"coin\":\"USDT\",\"status\":6\x7d," ++
    "\x7b\"amount\":\"500\",\"coin\":\"USDT\",\"status\":1\x7d]"

/-- The history of this text. -/
def rejectedHistory : DepositHistory := .binance [usdt "900" 6, usdt "500" 1]

/-- The text of a history of Binance with the expected deposit. -/
def expectedText : String := "[\x7b\"amount\":\"500\",\"coin\":\"USDT\",\"status\":1\x7d]"

/-- The history of this text. -/
def expectedHistory : DepositHistory := .binance [usdt "500" 1]

/-- The reader of the three texts. -/
def readText (body : String) : Option Json :=
  if body = staleText then some staleHistory.render
  else if body = rejectedText then some rejectedHistory.render
  else if body = expectedText then some expectedHistory.render
  else none

lemma expectedHistory_credits (a : Decimal) :
    expectedHistory.Credits readDecimal "USDT" 500 a ↔ a = 500 := by
  constructor
  · rintro ⟨r, hr, hcredited⟩
    rw [List.mem_singleton] at hr
    subst hr
    exact (Option.some.inj hcredited.2.2.1).symm
  · rintro rfl
    exact ⟨_, List.mem_singleton_self _, by decide, rfl, rfl, by norm_num, by norm_num⟩

lemma expectedHistory_firstRight :
    expectedHistory.FirstRight readDecimal "USDT" 500 := by
  intro before r after hsplit _
  obtain rfl : usdt "500" 1 = r := by
    rcases before with _ | ⟨r', before⟩
    · exact (List.cons.inj hsplit).1
    · exact absurd (congrArg List.length hsplit) (by simp)
  refine ⟨fun a haccepts => ?_, fun hrejects => absurd hrejects.2 (by decide)⟩
  exact (expectedHistory_credits a).mpr (Option.some.inj haccepts.2.2.1).symm

/-- The expected deposit alone is confirmed. -/
theorem parseDepositResponse_iff_expected :
    ∃ h, parseDepositResponse readText readDecimal id expectedText "USDT" 500 =
      .confirmed 500 h := by
  have hbody : readText expectedText = some expectedHistory.render := rfl
  refine ((parseDepositResponse_iff hbody "USDT" 500).1.mpr
    ⟨expectedHistory_firstRight, fun a b ha hb => ?_⟩ 500).mpr
      ((expectedHistory_credits 500).mpr rfl)
  rw [(expectedHistory_credits a).mp ha, (expectedHistory_credits b).mp hb]

/-- A deposit of another size is confirmed, and a deposit behind a rejection is not. -/
theorem deposit_history_misjudged :
    ((∃ h, parseDepositResponse readText readDecimal id staleText "USDT" 500 = .confirmed 900 h) ∧
      ¬ staleHistory.Credits readDecimal "USDT" 500 900) ∧
    ((∀ a h, parseDepositResponse readText readDecimal id rejectedText "USDT" 500 ≠
        .confirmed a h) ∧
      rejectedHistory.Credits readDecimal "USDT" 500 500) := by
  have hstale : readText staleText = some staleHistory.render := rfl
  have hrejected : readText rejectedText = some rejectedHistory.render := rfl
  refine ⟨⟨⟨by norm_num, ?_⟩, ?_⟩, ?_, ?_⟩
  · rw [parseDepositResponse_render hstale]
    rfl
  · rintro ⟨r, hr, hcredited⟩
    exact absurd hcredited.2.2.2.2 (by norm_num)
  · intro a h
    rw [parseDepositResponse_render hrejected]
    exact nofun
  · exact ⟨usdt "500" 1, by simp, by decide, rfl, rfl, by norm_num, by norm_num⟩

end DepositVerification

end HftArb
