import Switchboard.Message.Amount
import Switchboard.Message.Drawn
import Switchboard.Message.Variant
import Switchboard.Timestamp

/-!
# Messages of Twitch

The kind of a message is told by the fields that it has. Every field has a default, so that a
message has all the fields of its kind. A message without a timestamp gets that of the clock.
-/
namespace Switchboard.Twitch

open Drawn (made)

/-- The first of several keys, or a made default. -/
def pick (raw : Record Value) (keys : List String) (default : Value) : Drawn :=
  Drawn.firstOf [] raw keys (made default)

/-- The first of several keys, or a drawn default. -/
def pickOr (raw : Record Value) (keys : List String) (default : Drawn) : Drawn :=
  Drawn.firstOf [] raw keys default

def hasAny (raw : Record Value) (keys : List String) : Bool :=
  !(pick raw keys .absent).value.isAbsent

def classify (raw : Record Value) : TwitchKind :=
  if hasAny raw ["subscriptionType", "tier", "isGift"] then .subscription
  else if hasAny raw ["bits", "bitsAmount", "cheerEmotes"] then .bits
  else if Record.has raw "viewerCount" || hasAny raw ["raiderName", "raidType"] then .raid
  else .comment

def userField (raw : Record Value) (key : String) (default : Drawn) : Drawn :=
  Drawn.firstOf ["user"] ((Value.lookup raw "user").fields?.getD []) [key] default

def commonFields (raw : Record Value) (now : Int) : Except Fault (Record Drawn) := do
  let username := pick raw ["username"] (.text "")
  let name := pickOr raw ["name"] (userField raw "login" username)
  let timestamp := pick raw ["timestamp"] (.text (Calendar.instantText now))
  let comment ← Markup.plainComment (pick raw ["comment", "message"] (.text "")).value
  return [
    ("id", pick raw ["id", "msgId"] (.text "")),
    ("liveId", pick raw ["liveId", "channelId"] (.text "")),
    ("userId", pickOr raw ["userId"] (userField raw "id" (made (.text "")))),
    ("name", name),
    ("displayName", pickOr raw ["displayName"] (userField raw "displayName" name)),
    ("isOwner", pick raw ["isOwner", "isBroadcaster"] (.bool false)),
    ("isModerator", pick raw ["isModerator", "isMod"] (.bool false)),
    ("timestamp", made (Timestamp.read timestamp.value)),
    ("hasGift", pick raw ["hasGift"] (.bool false)),
    ("comment", made (.text comment)),
    ("profileImageUrl",
      pickOr raw ["profileImage"] (userField raw "profileImageUrl" (made (.text "")))),
    ("isSubscriber", pick raw ["isSubscriber", "isSubscribed"] (.bool false)),
    ("isVip", pick raw ["isVip"] (.bool false)),
    ("isPartner", pick raw ["isPartner"] (.bool false)),
    ("isAffiliate", pick raw ["isAffiliate"] (.bool false)),
    ("isTurbo", pick raw ["isTurbo"] (.bool false)),
    ("isPrime", pick raw ["isPrime"] (.bool false)),
    ("isStaff", pick raw ["isStaff"] (.bool false)),
    ("isGlobalMod", pick raw ["isGlobalMod"] (.bool false)),
    ("badges", pick raw ["badges"] (.list [])),
    ("badgeInfo", pick raw ["badgeInfo"] (.record [])),
    ("color", pick raw ["color"] (.text "#FFFFFF")),
    ("emotes", pick raw ["emotes"] (.record [])),
    ("userType", pick raw ["userType"] (.text "")),
    ("subscriptionTier", pick raw ["subscriptionTier"] (.int 0)),
    ("subscriptionMonths", pick raw ["subscriptionMonths"] (.int 0)),
    ("channelName", pick raw ["channelName", "channel"] (.text "")),
    ("roomId", pick raw ["roomId"] (.text "")),
    ("firstMsg", pick raw ["firstMsg"] (.bool false)),
    ("returning", pick raw ["returning"] (.bool false)),
    ("rituals", pick raw ["rituals"] (.record []))]

def fieldOf (fields : Record Drawn) (key : String) : Drawn :=
  (Record.get? fields key).getD .absent

/-- The value, or an empty text where it counts as not given. -/
def orEmpty (d : Drawn) : Drawn := if d.value.given then d else made (.text "")

def commentFields (raw : Record Value) (fields : Record Drawn) : Record Drawn :=
  [("replyTo", pick raw ["replyTo"] .null),
   ("isReply", pick raw ["isReply"] (.bool false)),
   ("replyParentDisplayName", pick raw ["replyParentDisplayName"] (.text "")),
   ("replyParentMsgBody", pick raw ["replyParentMsgBody"] (.text "")),
   ("isHighlight", pick raw ["isHighlight"] (.bool false)),
   ("msgId", pickOr raw ["msgId"] (fieldOf fields "id")),
   ("isSystemMessage", pick raw ["isSystemMessage"] (.bool false)),
   ("systemMessageType", pick raw ["systemMessageType"] (.text ""))]

def bitsFields (raw : Record Value) (fields : Record Drawn) : Except Fault (Record Drawn) := do
  let bits := pick raw ["bits", "bitsAmount"] (.int 0)
  let message := pickOr raw ["bitsMessage", "message"] (fieldOf fields "comment")
  let dollars ← Amount.bitsInDollars bits.value
  let tier ← Amount.cheerTier bits.value
  return [
    ("hasGift", made (.bool true)),
    ("bits", bits),
    ("totalBits", pickOr raw ["totalBits"] bits),
    ("bitsInDollars", pick raw ["bitsInDollars"] (.double dollars)),
    ("cheerTier", made (.text tier)),
    ("cheerBadge", pick raw ["cheerBadge"] .null),
    ("cheerBadgeTier", pick raw ["cheerBadgeTier"] (.int 0)),
    ("isAnonymous", pick raw ["isAnonymous"] (.bool false)),
    ("cheerEmotes", pick raw ["cheerEmotes"] (.list [])),
    ("bitsMessage", message),
    ("comment", orEmpty message),
    ("isPinned", pick raw ["isPinned"] (.bool false))]

def subscriptionFields (raw : Record Value) (fields : Record Drawn) :
    Except Fault (Record Drawn) := do
  let tier := pick raw ["tier", "subscriptionTier"] (.text "1000")
  let months := pick raw ["multiMonthGift"] (.int 1)
  let number ← Amount.tierNumber tier.value
  let plan := pick raw ["plan"] (.text ("Tier " ++ Nat.repr number))
  let message := pickOr raw ["subMessage", "message"] (fieldOf fields "comment")
  let worth ← Amount.subscriptionValue tier.value months.value
  return [
    ("hasGift", made (.bool true)),
    ("subscriptionType", pick raw ["subscriptionType"] (.text "")),
    ("tier", tier),
    ("tierNumber", made (.int number)),
    ("months", pick raw ["months", "cumulativeMonths"] (.int 0)),
    ("streak", pick raw ["streak", "streakMonths"] (.int 0)),
    ("isGift", pick raw ["isGift"] (.bool false)),
    ("gifterId", pick raw ["gifterId"] (.text "")),
    ("gifterName", pick raw ["gifterName"] (.text "")),
    ("gifterDisplayName", pick raw ["gifterDisplayName"] (.text "")),
    ("recipientId", pick raw ["recipientId"] (.text "")),
    ("recipientName", pick raw ["recipientName"] (.text "")),
    ("recipientDisplayName", pick raw ["recipientDisplayName"] (.text "")),
    ("multiMonthGift", months),
    ("multiMonthTenure", pick raw ["multiMonthTenure"] (.int 0)),
    ("massGiftCount", pick raw ["massGiftCount"] (.int 0)),
    ("senderCount", pick raw ["senderCount"] (.int 0)),
    ("isPrime", pick raw ["isPrime"] (.bool false)),
    ("plan", plan),
    ("planName", pickOr raw ["planName"] plan),
    ("approximateValue", made (.double worth)),
    ("subMessage", message),
    ("comment", orEmpty message)]

def raidComment (viewers message : Value) : Except Fault String := do
  let count ← viewers.display
  let text ← Markup.textOf message
  let whole := "Raided with " ++ count ++ " viewers! " ++ text
  return String.ofList (Text.trim Text.isBlank whole.toList)

def raidFields (raw : Record Value) (fields : Record Drawn) : Except Fault (Record Drawn) := do
  let viewers := pick raw ["viewerCount", "raiderCount"] (.int 0)
  let message := pick raw ["raidMessage", "message"] (.text "")
  let name := pickOr raw ["raiderName", "fromChannel"] (fieldOf fields "name")
  let display := pickOr raw ["raiderDisplayName", "fromDisplayName"] (fieldOf fields "displayName")
  let id := pickOr raw ["raiderId", "fromChannelId"] (fieldOf fields "userId")
  let size ← Amount.raidSize viewers.value
  let comment ← raidComment viewers.value message.value
  return [
    ("hasGift", made (.bool true)),
    ("raiderName", name),
    ("raiderDisplayName", display),
    ("raiderId", id),
    ("viewerCount", viewers),
    ("raidSize", made (.text size)),
    ("targetChannelName", pick raw ["targetChannelName", "toChannel"] (.text "")),
    ("targetChannelId", pick raw ["targetChannelId", "toChannelId"] (.text "")),
    ("targetDisplayName", pick raw ["targetDisplayName", "toDisplayName"] (.text "")),
    ("raidMessage", message),
    ("name", name),
    ("displayName", display),
    ("userId", id),
    ("comment", made (.text comment)),
    ("isHosting", pick raw ["isHosting"] (.bool false)),
    ("raidType", pick raw ["raidType"] (.text "raid"))]

/-- The fields that a kind of message has beyond the common ones. -/
def kindFields (raw : Record Value) (fields : Record Drawn) :
    TwitchKind → Except Fault (Record Drawn)
  | .comment => .ok (commentFields raw fields)
  | .bits => bitsFields raw fields
  | .subscription => subscriptionFields raw fields
  | .raid => raidFields raw fields

def normalize (raw : Record Value) (now : Int) : Except Fault (Variant × Record Drawn) := do
  let kind := classify raw
  let fields ← commonFields raw now
  return (.twitch kind, Record.merge fields (← kindFields raw fields kind))

end Switchboard.Twitch
