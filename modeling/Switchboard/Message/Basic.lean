import Switchboard.Message.Bilibili
import Switchboard.Message.Niconico
import Switchboard.Message.Twitch
import Switchboard.Message.Youtube

/-!
# Messages

A comment comes with the service that it was made on and its raw data. A message is what such a
comment is brought to: a record of the fields that its variant has. Its summary holds the fields
that do not depend on the platform, under keys of their own, and some that do.
-/
namespace Switchboard

structure Message where
  variant : Variant
  fields : Record Drawn

namespace Message

/-- The fields of a message without those that are absent, with its type and its endpoint. -/
def ofFields (v : Variant) (fields : Record Drawn) : Message :=
  let there := fields.filter fun p => !p.2.value.isAbsent
  ⟨v, Record.put "endpoint" (.made (.text v.endpoint))
    (Record.put "type" (.made (.text v.tag)) there)⟩

def payload (m : Message) : Record Value := m.fields.map fun p => (p.1, p.2.value)

def summaryBase : List (String × String) :=
  [("author", "name"), ("comment", "comment"), ("timestamp", "timestamp"),
   ("iconUrl", "profileImageUrl")]

def bilibiliExtras : List String :=
  ["userLevel", "medalLevel", "medalName", "isVip", "isSvip", "guardLevel"]

def twitchExtras : List String :=
  ["displayName", "isSubscriber", "isVip", "isModerator", "isPartner", "isAffiliate", "isTurbo",
   "isPrime", "isStaff", "isGlobalMod", "badges", "badgeInfo", "color", "emotes", "userType",
   "subscriptionTier", "subscriptionMonths", "channelName", "firstMsg", "returning", "rituals"]

def summaryExtras : Variant → List String
  | .youtubeComment => []
  | .youtubeSuperchat => ["paidText", "price", "tier", "unit", "colors"]
  | .bilibiliComment => bilibiliExtras
  | .bilibiliGift => bilibiliExtras ++
    ["giftName", "giftId", "price", "num", "totalCoin", "coinType", "giftType", "action",
     "isSpecialGift", "specialGiftType"]
  | .niconicoComment => []
  | .niconicoGift => ["price"]
  | .twitch .comment => twitchExtras ++
    ["replyTo", "isReply", "replyParentDisplayName", "replyParentMsgBody", "isHighlight", "msgId",
     "isSystemMessage", "systemMessageType"]
  | .twitch .bits => twitchExtras ++
    ["bits", "totalBits", "bitsInDollars", "cheerBadge", "cheerBadgeTier", "isAnonymous",
     "cheerEmotes", "bitsMessage", "isPinned"]
  | .twitch .subscription => twitchExtras ++
    ["subscriptionType", "tier", "months", "streak", "isGift", "gifterId", "gifterName",
     "gifterDisplayName", "recipientId", "recipientName", "recipientDisplayName",
     "multiMonthGift", "multiMonthTenure", "massGiftCount", "senderCount", "plan", "planName",
     "subMessage"]
  | .twitch .raid => twitchExtras ++
    ["raiderName", "raiderDisplayName", "raiderId", "viewerCount", "targetChannelName",
     "targetChannelId", "targetDisplayName", "raidMessage", "isHosting", "raidType"]

def summaryKeys (v : Variant) : List (String × String) :=
  summaryBase ++ (summaryExtras v).map fun key => (key, key)

/-- The summary of a record of a variant, whatever its fields hold; `tag` stands for the type. -/
def summaryOf {α : Type} (v : Variant) (tag : α) (fields : Record α) : Record α :=
  (summaryKeys v).foldl
    (fun post key =>
      match Record.get? fields key.2 with
      | some value => Record.put key.1 value post
      | none => post)
    [("type", tag)]

def summary (m : Message) : Record Value := summaryOf m.variant (.text m.variant.tag) m.payload

/-- The variant and the fields of raw data of a service; none for a service that is not known. -/
def normalizeRaw? (service : String) (raw : Record Value) (now : Int) :
    Option (Except Fault (Variant × Record Drawn)) :=
  match service with
  | "youtube" => some (Youtube.normalize raw)
  | "bilibili" => some (Bilibili.normalize raw)
  | "niconama" => some (Niconico.normalize raw)
  | "niconico" => some (Niconico.normalize raw)
  | "twitch" => some (Twitch.normalize raw now)
  | _ => none

/-- The message of a comment; none for a comment of a service that is not known, or without raw
data. -/
def ofComment (now : Int) (comment : Value) : Except Fault (Option Message) :=
  match comment with
  | .record c =>
    match Value.lookup c "service", Value.lookup c "data" with
    | .text service, .record raw =>
      match normalizeRaw? service raw now with
      | some found => do
        let (v, fields) ← found
        return some (ofFields v fields)
      | none => .ok none
    | _, _ => .ok none
  | _ => .ok none

end Message

end Switchboard
