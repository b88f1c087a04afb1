import Switchboard.Message.Amount
import Switchboard.Message.Drawn
import Switchboard.Message.Variant
import Switchboard.Timestamp

/-!
# Messages of Bilibili
-/
namespace Switchboard.Bilibili

open Drawn (made)

/-- The first of several keys, or a made default. -/
def pick (raw : Record Value) (keys : List String) (default : Value) : Drawn :=
  Drawn.firstOf [] raw keys (made default)

def commonFields (raw : Record Value) : Except Fault (Record Drawn) := do
  let name := pick raw ["name", "uname"] .absent
  let comment ← Markup.plainComment (pick raw ["comment", "msg"] (.text "")).value
  return [
    ("id", Drawn.field [] raw "id"),
    ("liveId", pick raw ["liveId", "roomId"] .absent),
    ("userId", pick raw ["userId", "uid"] .absent),
    ("name", name),
    ("isOwner", pick raw ["isOwner"] (.bool false)),
    ("timestamp", made (Timestamp.read (Value.lookup raw "timestamp"))),
    ("hasGift", pick raw ["hasGift"] (.bool false)),
    ("comment", made (.text comment)),
    ("displayName", Drawn.firstOf [] raw ["displayName", "uname"] name),
    ("profileImageUrl", pick raw ["profileImage", "face"] (.text "")),
    ("userLevel", pick raw ["userLevel"] (.int 0)),
    ("medalLevel", pick raw ["medalLevel"] (.int 0)),
    ("medalName", pick raw ["medalName"] (.text "")),
    ("isVip", pick raw ["isVip"] (.bool false)),
    ("isSvip", pick raw ["isSvip"] (.bool false)),
    ("guardLevel", pick raw ["guardLevel"] (.int 0)),
    ("fansMedal", pick raw ["fansMedal"] .null)]

def giftFields (raw : Record Value) : Except Fault (Record Drawn) := do
  let price := pick raw ["price"] (.int 0)
  let num := pick raw ["num"] (.int 1)
  let total ← Amount.product price.value num.value
  let comment ← Markup.giftComment (pick raw ["comment", "msg"] (.text "")).value
  return [
    ("giftName", pick raw ["giftName"] (.text "")),
    ("giftId", pick raw ["giftId"] (.int 0)),
    ("price", price),
    ("num", num),
    ("totalCoin", pick raw ["totalCoin"] total),
    ("coinType", pick raw ["coinType"] (.text "gold")),
    ("giftType", pick raw ["giftType"] (.int 0)),
    ("action", pick raw ["action"] (.text "投喂")),
    ("isSpecialGift", pick raw ["isSpecialGift"] (.bool false)),
    ("specialGiftType", pick raw ["specialGiftType"] (.text "")),
    ("comment", made (.text comment))]

def normalize (raw : Record Value) : Except Fault (Variant × Record Drawn) := do
  let fields ← commonFields raw
  if (Value.lookupOrAbsent raw "hasGift").truthy then
    return (.bilibiliGift, Record.merge fields (← giftFields raw))
  else return (.bilibiliComment, fields)

end Switchboard.Bilibili
