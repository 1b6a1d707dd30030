import HftArb.Capital.DepositVerification
import HftArb.Foundations.Numerals

/-!
# Withdrawal responses

Six exchanges answer a withdrawal with a code in a JSON body.  Their parsers take different defaults
for a missing code: those of KuCoin and Bitget take it for a success, and that of Kraken counts the
texts in the array of errors, so that a missing array is a success too.  The id is rendered as JSON,
with quotes around a string (`reports_right_iff`).

A `Document` is a body in which the numbers are still literals; what `serde_json` makes of a literal
and how it prints a number are parameters.
-/

namespace HftArb

open BinanceDepth Numerals

/-! ## JSON texts -/

namespace BinanceDepth.Json

/-- The quotation mark. -/
def quotationMark : Char := Char.ofNat 34

/-- The backslash. -/
def backslash : Char := Char.ofNat 92

/-- A character inside quotation marks. -/
def escapeChar (c : Char) : List Char :=
  if c = quotationMark ∨ c = backslash then [backslash, c]
  else match c.toNat with
    | 8 => [backslash, 'b']
    | 9 => [backslash, 't']
    | 10 => [backslash, 'n']
    | 12 => [backslash, 'f']
    | 13 => [backslash, 'r']
    | n =>
      if n < 32 then [backslash, 'u', '0', '0', Nat.digitChar (n / 16), Nat.digitChar (n % 16)]
      else [c]

/-- A quoted string. -/
def quote (s : String) : String :=
  String.ofList (quotationMark :: (s.toList.flatMap escapeChar ++ [quotationMark]))

variable (showNumber : JsonNumber → String)

mutual

/-- `to_string` of a JSON value. -/
def toText : Json → String
  | null => "null"
  | bool b => if b then "true" else "false"
  | number n => showNumber n
  | string s => quote s
  | array values => "[" ++ String.intercalate "," (valueTexts values) ++ "]"
  | object entries => "\x7b" ++ String.intercalate "," (entryTexts entries) ++ "\x7d"

@[inherit_doc toText] def valueTexts : List Json → List String
  | [] => []
  | v :: values => toText v :: valueTexts values

@[inherit_doc toText] def entryTexts : List (String × Json) → List String
  | [] => []
  | (key, v) :: entries => (quote key ++ ":" ++ toText v) :: entryTexts entries

end

/-- A quoted string is not its content. -/
lemma quote_ne (s : String) : quote s ≠ s := by
  intro heq
  have hle : ∀ text : List Char, text.length ≤ (text.flatMap escapeChar).length := by
    intro text
    induction text with
    | nil => exact Nat.zero_le _
    | cons c text ih =>
      have hpos : 0 < (escapeChar c).length := by
        unfold escapeChar
        split_ifs
        · exact Nat.succ_pos _
        · split <;> try exact Nat.succ_pos _
          split_ifs <;> exact Nat.succ_pos _
      rw [List.flatMap_cons, List.length_append, List.length_cons]
      omega
  have hlength := congrArg (fun t : String => t.toList.length) heq
  simp only [quote, String.toList_ofList, List.length_cons, List.length_append,
    List.length_nil] at hlength
  have hcontent := hle s.toList
  omega

end BinanceDepth.Json

namespace WithdrawalResponses

open Json

/-! ## Bodies with literals -/

/-- A JSON body with the literals of its numbers. -/
inductive Document
  | null
  | bool (b : Bool)
  | number (literal : String)
  | string (s : String)
  | array (values : List Document)
  | object (entries : List (String × Document))

namespace Document

section Value

variable (readNumber : String → JsonNumber)

mutual

/-- The JSON value of a body. -/
def value : Document → Json
  | null => .null
  | bool b => .bool b
  | number literal => .number (readNumber literal)
  | string s => .string s
  | array values => .array (valuesOf values)
  | object entries => .object (entriesOf entries)

@[inherit_doc value] def valuesOf : List Document → List Json
  | [] => []
  | d :: values => value d :: valuesOf values

@[inherit_doc value] def entriesOf : List (String × Document) → List (String × Json)
  | [] => []
  | (key, d) :: entries => (key, value d) :: entriesOf entries

end

end Value

/-- A field of an object. -/
def get? (d : Document) (key : String) : Option Document :=
  match d with
  | object entries => entries.lookup key
  | _ => none

/-- The first element of an array. -/
def first? : Document → Option Document
  | array (d :: _) => some d
  | _ => none

variable {readNumber : String → JsonNumber}

lemma get?_value (d : Document) (key : String) :
    (d.value readNumber).get? key = (d.get? key).map (value readNumber) := by
  cases d with
  | object entries =>
    rw [value, Json.get?, get?]
    induction entries with
    | nil => rfl
    | cons entry entries ih =>
      obtain ⟨name, d⟩ := entry
      rw [entriesOf, List.lookup_cons, List.lookup_cons]
      cases key == name with
      | false => exact ih
      | true => rfl
  | null => rfl
  | bool b => rfl
  | number literal => rfl
  | string s => rfl
  | array values => rfl

lemma first?_value (d : Document) :
    ((d.value readNumber).asArray.bind fun values => values.head?) =
      d.first?.map (value readNumber) := by
  cases d with
  | array values => cases values <;> rfl
  | null => rfl
  | bool b => rfl
  | number literal => rfl
  | string s => rfl
  | object entries => rfl

end Document

/-! ## The parsers -/

/-- `WithdrawalResult`. -/
structure WithdrawalResult where
  success : Bool
  withdrawalId : Option String
  fee : Decimal
  error : Option String

/-- `is_success` of a status code. -/
def isSuccess (status : UInt16) : Bool := decide (200 ≤ status ∧ status < 300)

/-- What the parser of an exchange reads in a body. -/
structure ResponseFormat where
  exchange : String
  accepts : Json → Bool
  errorText : Json → String
  withdrawalId : Json → Option String
  fee : Json → Decimal

/-- The body of a parser, on what `serde_json` reads. -/
def ResponseFormat.parse (format : ResponseFormat) (status : UInt16)
    (read : Except String Json) : Except String WithdrawalResult :=
  match read with
  | .error e => .error (format.exchange ++ " withdrawal JSON: " ++ e)
  | .ok v =>
    if format.accepts v = false ∨ isSuccess status = false then
      .ok
        { success := false
          withdrawalId := none
          fee := 0
          error := some (format.errorText v) }
    else
      .ok
        { success := true
          withdrawalId := format.withdrawalId v
          fee := format.fee v
          error := none }

/-- `as_u64_safe`. -/
def asU64Safe (v : Json) : Option UInt64 :=
  match v with
  | .string s => parseU64Text s.toList
  | _ => v.asU64

/-- The text of a message. -/
def messageOf (v : Json) (key : String) : Option String := (v.get? key).bind Json.asStr

section Parsers

variable (showNumber : JsonNumber → String) (parseDecimal : String → Option Decimal)

/-- The decimal in a text, zero when there is none. -/
def feeIn (field : Option Json) : Decimal :=
  ((field.bind Json.asStr).bind parseDecimal).getD 0

/-- What is read in an answer of Bybit. -/
def bybitFormat : ResponseFormat where
  exchange := "Bybit"
  accepts v := ((v.get? "retCode").bind asI64).getD (-1) = 0
  errorText v := (messageOf v "retMsg").getD "unknown error"
  withdrawalId v := ((v.get? "result").bind fun r => r.get? "id").map (toText showNumber)
  fee v := feeIn parseDecimal ((v.get? "result").bind fun r => r.get? "fee")

/-- `parse_bybit_withdrawal_response`. -/
def parseBybitWithdrawalResponse : UInt16 → Except String Json → Except String WithdrawalResult :=
  (bybitFormat showNumber parseDecimal).parse

/-- The first element of the data of OKX. -/
def firstData (v : Json) : Option Json :=
  (v.get? "data").bind fun d => d.asArray.bind fun values => values.head?

/-- What is read in an answer of OKX. -/
def okxFormat : ResponseFormat where
  exchange := "OKX"
  accepts v := (messageOf v "code").getD "5" = "0"
  errorText v := (messageOf v "msg").getD "unknown error"
  withdrawalId v := ((firstData v).bind fun item => item.get? "wdId").map (toText showNumber)
  fee v := feeIn parseDecimal ((firstData v).bind fun item => item.get? "fee")

/-- `parse_okx_withdrawal_response`. -/
def parseOkxWithdrawalResponse : UInt16 → Except String Json → Except String WithdrawalResult :=
  (okxFormat showNumber parseDecimal).parse

/-- The id in the data of KuCoin: a string as it is, a member of an object, or the data. -/
def kucoinId (d : Json) : Option String :=
  match d with
  | .string s => some s
  | .object _ => ((d.get? "withdrawalId").orElse fun _ => d.get? "id").map (toText showNumber)
  | _ => some (toText showNumber d)

/-- What is read in an answer of KuCoin; a missing code is a success. -/
def kucoinFormat : ResponseFormat where
  exchange := "KuCoin"
  accepts v := ((v.get? "code").bind asU64Safe).getD 200000 = 200000
  errorText v := (messageOf v "msg").getD "unknown error"
  withdrawalId v := (v.get? "data").bind (kucoinId showNumber)
  fee _ := 0

/-- `parse_kucoin_withdrawal_response`. -/
def parseKucoinWithdrawalResponse : UInt16 → Except String Json → Except String WithdrawalResult :=
  (kucoinFormat showNumber).parse

/-- What is read in an answer of Bitget; a missing code is a success. -/
def bitgetFormat : ResponseFormat where
  exchange := "Bitget"
  accepts v := (messageOf v "code").getD "00000" = "00000"
  errorText v := (messageOf v "msg").getD "unknown error"
  withdrawalId v := (v.get? "data").map (toText showNumber)
  fee v := feeIn parseDecimal ((v.get? "data").bind fun d => d.get? "fee")

/-- `parse_bitget_withdrawal_response`. -/
def parseBitgetWithdrawalResponse : UInt16 → Except String Json → Except String WithdrawalResult :=
  (bitgetFormat showNumber parseDecimal).parse

/-- What is read in an answer of HTX. -/
def htxFormat : ResponseFormat where
  exchange := "HTX"
  accepts v := ((v.get? "code").bind asI64).getD (-1) = 200
  errorText v := ((messageOf v "message").orElse fun _ => messageOf v "msg").getD "unknown error"
  withdrawalId v := (v.get? "data").map (toText showNumber)
  fee v := feeIn parseDecimal ((v.get? "data").bind fun d => d.get? "fee")

/-- `parse_htx_withdrawal_response`. -/
def parseHtxWithdrawalResponse : UInt16 → Except String Json → Except String WithdrawalResult :=
  (htxFormat showNumber parseDecimal).parse

/-- The error texts of Kraken; a missing array has none. -/
def krakenErrors (v : Json) : List String :=
  (((v.get? "error").bind asArray).map fun values => values.filterMap asStr).getD []

/-- What is read in an answer of Kraken. -/
def krakenFormat : ResponseFormat where
  exchange := "Kraken"
  accepts v := krakenErrors v = []
  errorText v := String.intercalate "; " (krakenErrors v)
  withdrawalId v := ((v.get? "result").bind fun r => r.get? "refid").map (toText showNumber)
  fee _ := 0

/-- `parse_kraken_withdrawal_response`. -/
def parseKrakenWithdrawalResponse : UInt16 → Except String Json → Except String WithdrawalResult :=
  (krakenFormat showNumber).parse

/-- The six exchanges. -/
inductive WithdrawalExchange
  | bybit | okx | kucoin | bitget | htx | kraken

/-- What is read in an answer of an exchange. -/
def formatOf : WithdrawalExchange → ResponseFormat
  | .bybit => bybitFormat showNumber parseDecimal
  | .okx => okxFormat showNumber parseDecimal
  | .kucoin => kucoinFormat showNumber
  | .bitget => bitgetFormat showNumber parseDecimal
  | .htx => htxFormat showNumber parseDecimal
  | .kraken => krakenFormat showNumber

/-- The parser of an exchange. -/
def parserOf : WithdrawalExchange → UInt16 → Except String Json → Except String WithdrawalResult
  | .bybit => parseBybitWithdrawalResponse showNumber parseDecimal
  | .okx => parseOkxWithdrawalResponse showNumber parseDecimal
  | .kucoin => parseKucoinWithdrawalResponse showNumber
  | .bitget => parseBitgetWithdrawalResponse showNumber parseDecimal
  | .htx => parseHtxWithdrawalResponse showNumber parseDecimal
  | .kraken => parseKrakenWithdrawalResponse showNumber

end Parsers

/-! ## Success marks and ids -/

/-- The success mark of an exchange. -/
def HasMark : WithdrawalExchange → Json → Prop
  | .bybit, v => (v.get? "retCode").bind asI64 = some 0
  | .okx, v => v.get? "code" = some (.string "0")
  | .kucoin, v => (v.get? "code").bind asU64Safe = some 200000
  | .bitget, v => v.get? "code" = some (.string "00000")
  | .htx, v => (v.get? "code").bind asI64 = some 200
  | .kraken, v => v.get? "error" = some (.array [])

/-- The body has no mark that can be read, and the parser takes this for a success. -/
def TakenForMark : WithdrawalExchange → Json → Prop
  | .kucoin, v => (v.get? "code").bind asU64Safe = none
  | .bitget, v => (v.get? "code").bind asStr = none
  | .kraken, v => (∀ values, v.get? "error" = some (.array values) →
      values ≠ [] ∧ ∀ e ∈ values, e.asStr = none)
  | _, _ => False

/-- The member of a body with the id. -/
def idMember : WithdrawalExchange → Document → Option Document
  | .bybit, d => (d.get? "result").bind fun r => r.get? "id"
  | .okx, d => ((d.get? "data").bind Document.first?).bind fun item => item.get? "wdId"
  | .kucoin, d => (d.get? "data").bind fun data =>
      match data with
      | .object _ => (data.get? "withdrawalId").orElse fun _ => data.get? "id"
      | _ => some data
  | .bitget, d => d.get? "data"
  | .htx, d => d.get? "data"
  | .kraken, d => (d.get? "result").bind fun r => r.get? "refid"

/-- The id is reported as it is: the content of a string, the literal of a number. -/
def IdRight (exchange : WithdrawalExchange) (d : Document) (withdrawalId : Option String) : Prop :=
  ∀ id, idMember exchange d = some id →
    (∀ s, id = .string s → withdrawalId = some s) ∧
      ∀ literal, id = .number literal → withdrawalId = some literal

section Reports

variable (readNumber : String → JsonNumber) (showNumber : JsonNumber → String)
  (parseDecimal : String → Option Decimal)

/-- The id is not a string, but for the data of KuCoin, and a number that is printed as it is
written. -/
def IdShown (exchange : WithdrawalExchange) (d : Document) : Prop :=
  ∀ id, idMember exchange d = some id →
    (∀ s, id = .string s → exchange = .kucoin ∧ d.get? "data" = some id) ∧
      ∀ literal, id = .number literal → showNumber (readNumber literal) = literal

/-- Success is reported exactly on a success mark, with the id. -/
def ReportsRight (exchange : WithdrawalExchange) (status : UInt16) (d : Document) : Prop :=
  ∃ r, parserOf showNumber parseDecimal exchange status (.ok (d.value readNumber)) = .ok r ∧
    (r.success = true ↔ isSuccess status = true ∧ HasMark exchange (d.value readNumber)) ∧
    (r.success = true → IdRight exchange d r.withdrawalId)

end Reports

/-! ## What the parsers accept -/

section Acceptance

variable {readNumber : String → JsonNumber} {showNumber : JsonNumber → String}
  {parseDecimal : String → Option Decimal}

lemma parserOf_eq (exchange : WithdrawalExchange) :
    parserOf showNumber parseDecimal exchange =
      (formatOf showNumber parseDecimal exchange).parse := by
  cases exchange <;> rfl

/-- A value with a default that is not the one looked for. -/
lemma getD_eq_iff_of_ne {α : Type*} {o : Option α} {default a : α} (h : default ≠ a) :
    o.getD default = a ↔ o = some a := by
  cases o with
  | none => exact iff_of_false h nofun
  | some b => rw [Option.getD_some, Option.some.injEq]

/-- A value with the default that is looked for. -/
lemma getD_eq_self_iff {α : Type*} {o : Option α} {a : α} :
    o.getD a = a ↔ o = some a ∨ o = none := by
  cases o with
  | none => exact iff_of_true rfl (Or.inr rfl)
  | some b => simp

lemma messageOf_eq_some_iff {v : Json} {key s : String} :
    messageOf v key = some s ↔ v.get? key = some (.string s) := by
  rw [messageOf, Option.bind_eq_some_iff]
  constructor
  · rintro ⟨field, hfield, hs⟩
    cases field with
    | string t =>
      obtain rfl := Option.some.inj hs
      exact hfield
    | null => cases hs
    | bool b => cases hs
    | number n => cases hs
    | array values => cases hs
    | object entries => cases hs
  · exact fun h => ⟨_, h, rfl⟩

/-- No text among the errors: an empty array, or what is taken for one. -/
lemma krakenErrors_eq_nil_iff (v : Json) :
    krakenErrors v = [] ↔ HasMark .kraken v ∨ TakenForMark .kraken v := by
  rw [krakenErrors, HasMark, TakenForMark]
  cases hfield : v.get? "error" with
  | none => simp
  | some field =>
    cases field with
    | array values =>
      rw [Option.bind_some, asArray, Option.map_some, Option.getD_some,
        List.filterMap_eq_nil_iff]
      constructor
      · intro hnone
        by_cases hnil : values = []
        · exact Or.inl (by rw [hnil])
        · refine Or.inr fun values' heq => ?_
          obtain rfl := Json.array.inj (Option.some.inj heq)
          exact ⟨hnil, hnone⟩
      · rintro (hempty | htaken)
        · obtain rfl := Json.array.inj (Option.some.inj hempty)
          exact fun value hvalue => absurd hvalue List.not_mem_nil
        · exact (htaken values rfl).2
    | null => simp [asArray]
    | bool b => simp [asArray]
    | number n => simp [asArray]
    | string s => simp [asArray]
    | object entries => simp [asArray]

/-- A parser accepts a success mark and what it takes for one. -/
lemma accepts_iff (exchange : WithdrawalExchange) (v : Json) :
    (formatOf showNumber parseDecimal exchange).accepts v = true ↔
      HasMark exchange v ∨ TakenForMark exchange v := by
  cases exchange with
  | bybit =>
    rw [show TakenForMark .bybit v = False from rfl, or_false]
    exact decide_eq_true_iff.trans (getD_eq_iff_of_ne (by decide))
  | okx =>
    rw [show TakenForMark .okx v = False from rfl, or_false]
    exact (decide_eq_true_iff.trans (getD_eq_iff_of_ne (by decide))).trans messageOf_eq_some_iff
  | kucoin => exact decide_eq_true_iff.trans getD_eq_self_iff
  | bitget =>
    refine (decide_eq_true_iff.trans getD_eq_self_iff).trans ?_
    rw [messageOf_eq_some_iff]
    rfl
  | htx =>
    rw [show TakenForMark .htx v = False from rfl, or_false]
    exact decide_eq_true_iff.trans (getD_eq_iff_of_ne (by decide))
  | kraken => exact decide_eq_true_iff.trans (krakenErrors_eq_nil_iff v)

/-- What is taken for a mark is none. -/
lemma TakenForMark.not_hasMark {exchange : WithdrawalExchange} {v : Json}
    (h : TakenForMark exchange v) : ¬ HasMark exchange v := by
  cases exchange with
  | bybit => exact h.elim
  | okx => exact h.elim
  | kucoin => exact fun hmark => by cases h.symm.trans hmark
  | bitget =>
    intro hmark
    rw [HasMark] at hmark
    rw [TakenForMark, hmark] at h
    cases h
  | htx => exact h.elim
  | kraken => exact fun hmark => (h [] hmark).1 rfl

/-! ## What the parsers make of the id -/

lemma getPath_value (d : Document) (outer inner : String) :
    (((d.value readNumber).get? outer).bind fun r => r.get? inner) =
      ((d.get? outer).bind fun r => r.get? inner).map (Document.value readNumber) := by
  rw [Document.get?_value, Option.bind_map, Option.map_bind]
  congr 1
  funext r
  exact r.get?_value inner

lemma firstData_value (d : Document) :
    firstData (d.value readNumber) =
      ((d.get? "data").bind Document.first?).map (Document.value readNumber) := by
  rw [firstData, Document.get?_value, Option.bind_map, Option.map_bind]
  congr 1
  funext r
  exact r.first?_value

/-- The id is printed as JSON. -/
lemma withdrawalId_eq_map {exchange : WithdrawalExchange} (h : exchange ≠ .kucoin)
    (d : Document) :
    (formatOf showNumber parseDecimal exchange).withdrawalId (d.value readNumber) =
      (idMember exchange d).map fun id => toText showNumber (id.value readNumber) := by
  have hdata : ((d.value readNumber).get? "data").map (toText showNumber) =
      (d.get? "data").map fun id => toText showNumber (id.value readNumber) := by
    rw [Document.get?_value, Option.map_map]
    rfl
  cases exchange with
  | bybit => exact (congrArg _ (getPath_value d _ _)).trans (Option.map_map _ _ _)
  | okx =>
    have hitem : ((firstData (d.value readNumber)).bind fun item => item.get? "wdId") =
        (idMember .okx d).map (Document.value readNumber) := by
      rw [firstData_value, Option.bind_map, idMember, Option.map_bind]
      congr 1
      funext item
      exact item.get?_value "wdId"
    exact (congrArg _ hitem).trans (Option.map_map _ _ _)
  | kucoin => exact absurd rfl h
  | bitget => exact hdata
  | htx => exact hdata
  | kraken => exact (congrArg _ (getPath_value d _ _)).trans (Option.map_map _ _ _)

/-- The id of KuCoin is a member of an object, the first of two. -/
lemma orElse_value (readNumber : String → JsonNumber) (data : Document) :
    (((data.value readNumber).get? "withdrawalId").orElse fun _ =>
        (data.value readNumber).get? "id") =
      ((data.get? "withdrawalId").orElse fun _ => data.get? "id").map
        (Document.value readNumber) := by
  rw [Document.get?_value, Document.get?_value]
  cases data.get? "withdrawalId" <;> rfl

/-- KuCoin's data is read as it is, when it is a string, or else printed as JSON. -/
lemma kucoinId_cases (readNumber : String → JsonNumber) (showNumber : JsonNumber → String)
    {d data id : Document} (hdata : d.get? "data" = some data)
    (hid : idMember .kucoin d = some id) :
    (∃ s, id = .string s ∧ data = id ∧
      kucoinId showNumber (data.value readNumber) = some s) ∨
    (kucoinId showNumber (data.value readNumber) =
        some (toText showNumber (id.value readNumber)) ∧ ∀ s, id = .string s → data ≠ id) := by
  rw [idMember, hdata, Option.bind_some] at hid
  cases data with
  | string s =>
    obtain rfl := Option.some.inj hid
    exact Or.inl ⟨s, rfl, rfl, rfl⟩
  | object entries =>
    have hmember : (((Document.object entries).value readNumber).get? "withdrawalId").orElse
        (fun _ => ((Document.object entries).value readNumber).get? "id") =
          some (id.value readNumber) :=
      (orElse_value readNumber (.object entries)).trans (congrArg _ hid)
    refine Or.inr ⟨congrArg (Option.map (toText showNumber)) hmember, ?_⟩
    rintro s rfl
    exact nofun
  | null =>
    obtain rfl := Option.some.inj hid
    exact Or.inr ⟨rfl, nofun⟩
  | bool b =>
    obtain rfl := Option.some.inj hid
    exact Or.inr ⟨rfl, nofun⟩
  | number literal =>
    obtain rfl := Option.some.inj hid
    exact Or.inr ⟨rfl, nofun⟩
  | array values =>
    obtain rfl := Option.some.inj hid
    exact Or.inr ⟨rfl, nofun⟩

/-- The id is printed as JSON, but for a string that is the data of KuCoin. -/
lemma withdrawalId_cases (readNumber : String → JsonNumber) (showNumber : JsonNumber → String)
    (parseDecimal : String → Option Decimal) {exchange : WithdrawalExchange} {d id : Document}
    (hid : idMember exchange d = some id) :
    (∃ s, id = .string s ∧ exchange = .kucoin ∧ d.get? "data" = some id ∧
      (formatOf showNumber parseDecimal exchange).withdrawalId (d.value readNumber) = some s) ∨
    ((formatOf showNumber parseDecimal exchange).withdrawalId (d.value readNumber) =
        some (toText showNumber (id.value readNumber)) ∧
      ∀ s, id = .string s → ¬ (exchange = .kucoin ∧ d.get? "data" = some id)) := by
  by_cases hexchange : exchange = .kucoin
  · subst hexchange
    have hread : (formatOf showNumber parseDecimal .kucoin).withdrawalId (d.value readNumber) =
        (d.get? "data").bind fun data => kucoinId showNumber (data.value readNumber) := by
      refine (congrArg (Option.bind · (kucoinId showNumber)) (d.get?_value "data")).trans ?_
      rw [Option.bind_map]
      rfl
    obtain ⟨data, hdata, -⟩ := Option.bind_eq_some_iff.mp hid
    rw [hread, hdata, Option.bind_some]
    rcases kucoinId_cases readNumber showNumber hdata hid with
      ⟨s, heq, rfl, hs⟩ | ⟨hprinted, hother⟩
    · exact Or.inl ⟨s, heq, rfl, rfl, hs⟩
    · exact Or.inr ⟨hprinted, fun s heq h => hother s heq (Option.some.inj h.2)⟩
  · refine Or.inr ⟨?_, fun s _ h => hexchange h.1⟩
    rw [withdrawalId_eq_map hexchange, hid]
    rfl

/-- The id that a parser returns is right exactly when it is shown as it is. -/
lemma idRight_iff (exchange : WithdrawalExchange) (d : Document) :
    IdRight exchange d
        ((formatOf showNumber parseDecimal exchange).withdrawalId (d.value readNumber)) ↔
      IdShown readNumber showNumber exchange d := by
  refine forall_congr' fun id => imp_congr_right fun hid => ?_
  rcases withdrawalId_cases readNumber showNumber parseDecimal hid with
    ⟨s, rfl, hkucoin, hdata, hread⟩ | ⟨hread, hother⟩
  · rw [hread]
    refine and_congr (forall_congr' fun t => imp_congr_right fun heq => ?_) ?_
    · obtain rfl := Document.string.inj heq
      exact iff_of_true rfl ⟨hkucoin, hdata⟩
    · exact iff_of_true nofun nofun
  · rw [hread]
    refine and_congr (forall_congr' fun s => imp_congr_right fun heq => ?_)
      (forall_congr' fun literal => imp_congr_right fun heq => ?_)
    · refine iff_of_false (fun hsame => ?_) (hother s heq)
      rw [heq, Document.value, toText, Option.some.injEq] at hsame
      exact quote_ne s hsame
    · rw [heq, Document.value, toText, Option.some.injEq]

/-! ## Reports -/

/-- A parser reports right exactly when the status is no success, or the body has no mark that is
only taken for one and, with a mark, an id that is shown as it is. -/
theorem reports_right_iff (exchange : WithdrawalExchange) (status : UInt16) (d : Document) :
    ReportsRight readNumber showNumber parseDecimal exchange status d ↔
      (isSuccess status = true →
        ¬ TakenForMark exchange (d.value readNumber) ∧
          (HasMark exchange (d.value readNumber) →
            IdShown readNumber showNumber exchange d)) := by
  have haccepts : (formatOf showNumber parseDecimal exchange).accepts (d.value readNumber) = true ↔
      HasMark exchange (d.value readNumber) ∨ TakenForMark exchange (d.value readNumber) :=
    accepts_iff exchange (d.value readNumber)
  rw [ReportsRight, parserOf_eq, ResponseFormat.parse]
  by_cases hstatus : isSuccess status = true
  · by_cases haccept :
        (formatOf showNumber parseDecimal exchange).accepts (d.value readNumber) = true
    · rw [if_neg (by simp [haccept, hstatus])]
      simp only [Except.ok.injEq, exists_eq_left', true_iff, hstatus, true_and, forall_const,
        idRight_iff]
      constructor
      · rintro ⟨hmark, hshown⟩
        exact ⟨fun htaken => htaken.not_hasMark hmark, fun _ => hshown⟩
      · rintro ⟨htaken, hshown⟩
        have hmark := (haccepts.mp haccept).resolve_right htaken
        exact ⟨hmark, hshown hmark⟩
    · have hneither := haccepts.not.mp haccept
      rw [if_pos (Or.inl (Bool.not_eq_true _ ▸ haccept))]
      simp only [Except.ok.injEq, exists_eq_left', Bool.false_eq_true, false_iff, hstatus,
        true_and, false_imp_iff, and_true, forall_const]
      exact iff_of_true (fun hmark => hneither (Or.inl hmark))
        ⟨fun htaken => hneither (Or.inr htaken), fun hmark => absurd (Or.inl hmark) hneither⟩
  · rw [if_pos (Or.inr (Bool.not_eq_true _ ▸ hstatus))]
    simp [hstatus]

end Acceptance

/-! ## Answers that are not reported right -/

/-- Integers as `serde_json` reads them. -/
def readInteger (literal : String) : JsonNumber := .posInt ((parseU64Text literal.toList).getD 0)

/-- Integers as `serde_json` prints them. -/
def showInteger : JsonNumber → String
  | .posInt n => toString n
  | .negInt z => toString z
  | .float bits => toString bits

/-- An answer of Bybit with a code and an id. -/
def bybitAnswer : Document :=
  .object [("result", .object [("id", .string "10195")]), ("retCode", .number "0")]

/-- An empty answer of KuCoin is a success; the id of Bybit is reported with quotes. -/
theorem empty_answer_accepted :
    ((parserOf showInteger (fun _ => none) .kucoin 200
        (.ok ((Document.object []).value readInteger))).toOption.map fun r => r.success) =
          some true ∧
      ¬ HasMark .kucoin ((Document.object []).value readInteger) ∧
      ((parserOf showInteger (fun _ => none) .bybit 200
        (.ok (bybitAnswer.value readInteger))).toOption.map fun r => r.withdrawalId) =
          some (some "\"10195\"") := by
  refine ⟨rfl, nofun, ?_⟩
  decide +kernel

end WithdrawalResponses

end HftArb
