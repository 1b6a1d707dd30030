import HftArb.Foundations.ByteOffsets

/-!
# The payloads of the Discord notifications

A notification becomes one embed: a title, a description, a color, fields, a footer and a timestamp.
Discord refuses descriptions and field values that are too long, so they are cut at a number of
bytes and marked with an ellipsis.

`buildEmbedPayload_fits` says that no notification, whatever its texts, makes the cut fail or leaves
a description, a footer or a field value over its limit, and that a text which is cut loses no more
than it must.
-/

namespace HftArb

namespace Discord

open ByteOffsets

/-- Maximum length of a field value. -/
def fieldValueMax : ℕ := 1024

/-- Maximum length of a description. -/
def descriptionMax : ℕ := 2048

def colorGreen : UInt32 := 65280

def colorBlue : UInt32 := 255

def colorRed : UInt32 := 16711680

def colorBlurple : UInt32 := 3066993

/-- A notification of an execution, of a breaker, or of the system. -/
inductive DiscordNotification
  | crossExchangeFill (tokenId : UInt16) (symbol totalSizeUsd legAExchange legAPrice legBExchange
      legBPrice grossSpreadPct netYieldUsdt : List Char) (executionLatencyUs : UInt64)
      (pipeline : List Char)
  | triangularFill (exchange loopRoute inputCapitalUsdt finalPayoutUsdt netYieldPct
      netYieldUsdt : List Char) (executionLatencyUs : UInt64) (pipeline : List Char)
  | riskBreakerTrip (layerName violationDetail : List Char)
  | systemInfo (title description : List Char) (fields : List (List Char × List Char))
  deriving DecidableEq

/-- A field of an embed. -/
structure Field where
  name : List Char
  value : List Char
  inline : Bool
  deriving DecidableEq

/-- The embed of a notification. -/
structure Embed where
  title : List Char
  description : List Char
  color : UInt32
  fields : List Field
  footerText : List Char
  timestamp : List Char
  deriving DecidableEq

/-- A text, cut with an ellipsis if it has too many bytes.  The cut of the source panics off a
character boundary, which is none here. -/
def truncateForDiscord (s : List Char) (maxLen : ℕ) : Option (List Char) :=
  if byteLen s ≤ maxLen then some s
  else (sliceTo s (floorCharBoundary s (maxLen - 1))).map (· ++ ['…'])

/-- The footer of an execution. -/
def executionFooter (executionLatencyUs : UInt64) (pipeline : List Char) : List Char :=
  "Execution latency: ".toList ++ Nat.toDigits 10 executionLatencyUs.toNat ++
    " us | Pipeline: ".toList ++ pipeline

/-- The embed of a notification before anything is cut. -/
def untruncated (timestamp : List Char) : DiscordNotification → Embed
  | .crossExchangeFill _ symbol totalSizeUsd legAExchange legAPrice legBExchange legBPrice
      grossSpreadPct netYieldUsdt executionLatencyUs pipeline =>
    { title := "🎯 CROSS-EXCHANGE ARBITRAGE FILL".toList
      description := "Successfully captured a price discrepancy between exchanges.".toList
      color := colorGreen
      fields := [
        ⟨"Asset Symbol".toList, symbol, true⟩,
        ⟨"Total Size Allocated".toList, totalSizeUsd, true⟩,
        ⟨"Leg A (Buy)".toList, legAExchange ++ " @ ".toList ++ legAPrice, true⟩,
        ⟨"Leg B (Sell)".toList, legBExchange ++ " @ ".toList ++ legBPrice, true⟩,
        ⟨"Gross Spread Capture".toList, grossSpreadPct, true⟩,
        ⟨"Net Pure Yield".toList, netYieldUsdt, true⟩]
      footerText := executionFooter executionLatencyUs pipeline
      timestamp := timestamp }
  | .triangularFill exchange loopRoute inputCapitalUsdt finalPayoutUsdt netYieldPct netYieldUsdt
      executionLatencyUs pipeline =>
    { title := "🔄 TRIANGULAR ARBITRAGE LOOP COMPLETION".toList
      description :=
        "Internal cycle execution cleared successfully on a single exchange.".toList
      color := colorBlue
      fields := [
        ⟨"Exchange Venue".toList, exchange, true⟩,
        ⟨"Loop Routing Track".toList, loopRoute, false⟩,
        ⟨"Initial Input Capital".toList, inputCapitalUsdt, true⟩,
        ⟨"Final Payout Balance".toList, finalPayoutUsdt, true⟩,
        ⟨"Net Yield Generation".toList,
          netYieldPct ++ " (".toList ++ netYieldUsdt ++ ")".toList, true⟩]
      footerText := executionFooter executionLatencyUs pipeline
      timestamp := timestamp }
  | .riskBreakerTrip layerName violationDetail =>
    { title := "🚨 EMERGENCY FINANCIAL BREAKER TRIP".toList
      description :=
        "The risk management engine has intervened to lock down capital.".toList
      color := colorRed
      fields := [
        ⟨"Triggered Layer Gate".toList, layerName, true⟩,
        ⟨"Violation Parameter".toList, violationDetail, true⟩,
        ⟨"System Status".toList, "GLOBAL TRADING LOCKED DOWN".toList, false⟩]
      footerText := "Action taken in <1 microsecond | All strategies halted instantly.".toList
      timestamp := timestamp }
  | .systemInfo title description fields =>
    { title := "🚀 ".toList ++ title
      description := description
      color := colorBlurple
      fields := fields.map fun field => ⟨field.1, field.2, true⟩
      footerText := "HFT Arbitrage Engine".toList
      timestamp := timestamp }

/-- The value of a field, cut. -/
def truncateField (f : Field) : Option Field :=
  (truncateForDiscord f.value fieldValueMax).map fun value => { f with value := value }

/-- `build_embed_payload`; the timestamp is that of the clock. -/
def buildEmbedPayload (timestamp : List Char) (notification : DiscordNotification) :
    Option Embed := do
  let embed := untruncated timestamp notification
  let description ← truncateForDiscord embed.description descriptionMax
  let fields ← embed.fields.mapM truncateField
  let footerText ← truncateForDiscord embed.footerText descriptionMax
  return { embed with description := description, fields := fields, footerText := footerText }

/-! ## The limits -/

/-- A text is another one, cut to a length: it has at most this many characters, it is the other one
if this has room, and otherwise the longest piece of it that leaves a byte for the ellipsis. -/
structure CutTo (maxLen : ℕ) (s cut : List Char) : Prop where
  length_le : cut.length ≤ maxLen
  same : byteLen s ≤ maxLen → cut = s
  longest : maxLen < byteLen s → ∃ front, cut = front ++ ['…'] ∧ front <+: s ∧
    byteLen front < maxLen ∧ ∀ longer, longer <+: s → byteLen longer < maxLen → longer <+: front

/-- A text is cut without a failure. -/
lemma exists_truncateForDiscord {maxLen : ℕ} (hpos : 0 < maxLen) (s : List Char) :
    ∃ cut, truncateForDiscord s maxLen = some cut ∧ CutTo maxLen s cut := by
  unfold truncateForDiscord
  split_ifs with hfits
  · exact ⟨s, rfl, (length_le_byteLen s).trans hfits, fun _ => rfl,
      fun h => absurd hfits (not_le.mpr h)⟩
  · obtain ⟨front, hslice, hbegins, hle, hmax⟩ :=
      exists_sliceTo_floorCharBoundary s (maxLen - 1)
    refine ⟨front ++ ['…'], by rw [hslice]; rfl, ?_, fun h => absurd h hfits, fun _ =>
      ⟨front, rfl, hbegins, by omega, fun longer hlonger hlt => hmax longer hlonger (by omega)⟩⟩
    have hlen := length_le_byteLen front
    rw [List.length_append, List.length_singleton]
    omega

lemma fieldValueMax_pos : 0 < fieldValueMax := by decide

lemma descriptionMax_pos : 0 < descriptionMax := by decide

/-- Fields are cut one by one. -/
lemma exists_mapM_truncateField (fields : List Field) :
    ∃ cut, fields.mapM truncateField = some cut ∧
      List.Forall₂ (fun f c => c.name = f.name ∧ c.inline = f.inline ∧
        CutTo fieldValueMax f.value c.value) fields cut := by
  induction fields with
  | nil => exact ⟨[], rfl, List.Forall₂.nil⟩
  | cons f fields ih =>
    obtain ⟨cut, hcut, hall⟩ := ih
    obtain ⟨value, hvalue, hfits⟩ := exists_truncateForDiscord fieldValueMax_pos f.value
    refine ⟨{ f with value := value } :: cut, ?_, List.Forall₂.cons ⟨rfl, rfl, hfits⟩ hall⟩
    rw [List.mapM_cons, hcut, truncateField, hvalue]
    rfl

/-- Every notification has a payload.  Its description, its footer and its field values are those of
the notification, cut to the limits, and nothing else of it is changed. -/
theorem buildEmbedPayload_fits (timestamp : List Char) (notification : DiscordNotification) :
    ∃ embed, buildEmbedPayload timestamp notification = some embed ∧
      CutTo descriptionMax (untruncated timestamp notification).description embed.description ∧
      CutTo descriptionMax (untruncated timestamp notification).footerText embed.footerText ∧
      List.Forall₂ (fun f c => c.name = f.name ∧ c.inline = f.inline ∧
        CutTo fieldValueMax f.value c.value) (untruncated timestamp notification).fields
          embed.fields ∧
      embed.title = (untruncated timestamp notification).title ∧
      embed.color = (untruncated timestamp notification).color ∧
      embed.timestamp = timestamp := by
  obtain ⟨description, hdescription, hcutDescription⟩ :=
    exists_truncateForDiscord descriptionMax_pos (untruncated timestamp notification).description
  obtain ⟨footerText, hfooter, hcutFooter⟩ :=
    exists_truncateForDiscord descriptionMax_pos (untruncated timestamp notification).footerText
  obtain ⟨fields, hfields, hcutFields⟩ :=
    exists_mapM_truncateField (untruncated timestamp notification).fields
  refine ⟨{ untruncated timestamp notification with
    description := description, fields := fields, footerText := footerText }, ?_,
    hcutDescription, hcutFooter, hcutFields, rfl, rfl, ?_⟩
  · unfold buildEmbedPayload
    dsimp only
    rw [hdescription, hfields, hfooter]
    rfl
  · cases notification <;> rfl

end Discord

end HftArb
