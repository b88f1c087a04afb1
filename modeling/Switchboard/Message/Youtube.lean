import Switchboard.Message.Color
import Switchboard.Message.Drawn
import Switchboard.Message.Variant
import Switchboard.Timestamp

/-!
# Messages of YouTube

A message with a gift is a super chat if it has everything that a super chat has. Super stickers,
gifted memberships and milestones stay comments.
-/
namespace Switchboard.Youtube

open Drawn (made copied)

def commonFields (raw : Record Value) : Except Fault (Record Drawn) := do
  let copies := copied raw ["id", "liveId", "userId", "name", "isOwner", "isModerator", "isMember",
    "autoModerated", "hasGift", "displayName"]
  let comment ← Markup.plainComment (Value.lookup raw "comment")
  let profile := Value.lookup raw "profileImage"
  let image ← if profile.truthy then do
      let address ← Markup.textOf profile
      pure (String.ofList (Markup.resizeImage address.toList))
    else pure ""
  return copies ++ [("timestamp", made (Timestamp.read (Value.lookup raw "timestamp"))),
    ("comment", made (.text comment)), ("profileImageUrl", made (.text image))]

def colorKeys : List String :=
  ["headerBackgroundColor", "headerTextColor", "bodyBackgroundColor", "bodyTextColor"]

/-- The colours that a super chat may have. -/
def optionalColorKeys : List String := ["authorNameTextColor", "timestampColor"]

/-- The colours of some keys of a record. -/
def colorsOf (source : Record Value) : List String → Except Fault (Record Value)
  | [] => .ok []
  | key :: keys => do
    let color ← Color.ofValue (Value.lookup source key)
    return (key, .record color) :: (← colorsOf source keys)

def colors (source : Record Value) : Except Fault (Record Value) :=
  colorsOf source
    (colorKeys ++ optionalColorKeys.filter fun key => (Value.lookupOrAbsent source key).truthy)

/-- What a super chat has to have. -/
def superchatKeys : List String := ["paidText", "price", "unit", "colors", "tier"]

def isSuperchat (raw : Record Value) : Bool :=
  (Value.lookupOrAbsent raw "hasGift").truthy && (Value.lookup raw "giftType").isText "superchat" &&
    superchatKeys.all fun key => (Value.lookupOrAbsent raw key).truthy

def normalize (raw : Record Value) : Except Fault (Variant × Record Drawn) := do
  let fields ← commonFields raw
  if isSuperchat raw then
    let colors ← colors ((Value.lookup raw "colors").fields?.getD [])
    let extras := Record.put "colors" (made (.record colors)) (copied raw superchatKeys)
    return (.youtubeSuperchat, Record.merge fields extras)
  else return (.youtubeComment, fields)

end Switchboard.Youtube
