import Switchboard.Message.Drawn
import Switchboard.Message.Markup
import Switchboard.Message.Variant
import Switchboard.Timestamp

/-!
# Messages of Niconico
-/
namespace Switchboard.Niconico

open Drawn (made copied)

def commonFields (raw : Record Value) : Record Drawn :=
  copied raw ["id", "liveId", "userId", "name", "screenName", "isOwner", "hasGift", "no",
    "premium", "anonymity", "displayName"] ++
  [("timestamp", made (Timestamp.read (Value.lookup raw "timestamp"))),
   ("profileImageUrl", Drawn.field [] raw "profileImage")]

def normalize (raw : Record Value) : Except Fault (Variant × Record Drawn) := do
  let fields := commonFields raw
  let comment := Value.lookup raw "comment"
  if (Value.lookupOrAbsent raw "hasGift").truthy then
    let comment ← Markup.giftComment comment
    return (.niconicoGift,
      fields ++ [("price", Drawn.field [] raw "price"), ("comment", made (.text comment))])
  else
    let comment ← Markup.plainComment comment
    return (.niconicoComment, fields ++ [("comment", made (.text comment))])

end Switchboard.Niconico
