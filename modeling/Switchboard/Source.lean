import Switchboard.Platform
import Switchboard.Text.Lower
import Switchboard.Value.Text

/-!
# Where a message comes from

The platform of a message is told by its tags first and by the fields it has last. A message also
counts as a gift or as a comment, by whether it says that it has a gift.
-/
namespace Switchboard.Source

def unknown : String := "unknown"

def startsWith (word s : String) : Bool := word.toList.isPrefixOf s.toList

/-- The platform that a type tag names, apart from the one whose messages may carry a service. -/
def ofTag? (s : String) : Option Platform :=
  if startsWith "youtube" s then some .youtube
  else if startsWith "bilibili" s then some .bilibili
  else if startsWith "niconico" s || s == "niconama" then some .niconico
  else none

/-- The source of a record. The service comes before the tag of the last platform. -/
def ofRecord (r : Record Value) : Except Fault String := do
  let tag := (Value.lookup r "type").text?
  match tag.bind ofTag? with
  | some p => return p.name
  | none =>
    let service := Value.lookup r "service"
    if service.given then return Text.lower (← service.plain)
    else if tag.any (startsWith "twitch") then return Platform.twitch.name
    else if Record.has r "userLevel" || Record.has r "guardLevel" then
      return Platform.bilibili.name
    else if Record.has r "isMember" then return Platform.youtube.name
    else return unknown

/-- The source of a message; what is no record has none. -/
def detect : Value → Except Fault String
  | .record r => ofRecord r
  | _ => .ok unknown

def hasGift (r : Record Value) : Bool :=
  match Record.get? r "hasGift" with
  | some (.bool b) => b
  | _ => false

/-- Whether a record is of the kind asked for. Kinds other than gifts and comments ask nothing. -/
def isOfKind (kind : String) (r : Record Value) : Bool :=
  if kind == "gift" || kind == "superchat" then hasGift r
  else if kind == "comment" then !hasGift r
  else true

def matchesKind (kind message : Value) : Except Fault Bool :=
  match message, kind with
  | .record r, .text k => .ok (isOfKind k r)
  | .record _, .list _ => .error .unhashableKey
  | .record _, .record _ => .error .unhashableKey
  | .record _, .table _ => .error .unhashableKey
  | .record _, _ => .ok true
  | _, _ => .error .notARecord

@[simp] theorem detect_null : detect .null = .ok unknown := rfl

end Switchboard.Source
