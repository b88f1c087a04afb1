import Switchboard.Message.Variant
import Switchboard.Rule.Condition
import Switchboard.Text.Lower
import Switchboard.Value.Number

/-!
# The catalog of fields

For every platform the catalog lists the fields that a condition can test, with the operators that
make sense for each. Some fields belong to one kind of message only.
-/
namespace Switchboard.Catalog

inductive FieldType
  | text
  | number
  | boolean
  deriving DecidableEq

def FieldType.name : FieldType → String
  | .text => "string"
  | .number => "number"
  | .boolean => "boolean"

/-- The operators that make sense for a type of data. -/
def FieldType.operators : FieldType → List Operator
  | .text => [.equals, .notEquals, .contains, .notContains, .startsWith, .endsWith, .regex]
  | .number =>
    [.equals, .notEquals, .greaterThan, .greaterThanOrEqual, .lessThan, .lessThanOrEqual]
  | .boolean => [.equals]

structure Field where
  name : String
  label : String
  type : FieldType
  operators : List Operator

def textField (name label : String) : Field := ⟨name, label, .text, FieldType.text.operators⟩

def numberField (name label : String) : Field :=
  ⟨name, label, .number, FieldType.number.operators⟩

def booleanField (name label : String) : Field :=
  ⟨name, label, .boolean, FieldType.boolean.operators⟩

structure Entry where
  platform : Platform
  name : String
  color : String
  kinds : List Kind
  commonFields : List Field
  /-- The kind that has further fields, and these. -/
  furtherKind : Kind
  furtherFields : List Field

/-- The endpoints that the messages of a platform are sent to by default. -/
def endpoints (p : Platform) : List String :=
  (Variant.all.filter (·.platform = p)).map Variant.endpoint

def nameField : Field := textField "name" "User Name"

def commentField : Field := textField "comment" "Message Text"

def displayNameField : Field := textField "displayName" "Display Name"

def isOwnerField : Field := booleanField "isOwner" "Is Channel Owner"

def youtube : Entry where
  platform := .youtube
  name := "YouTube"
  color := "#ff0000"
  kinds := [.comment, .superchat]
  commonFields := [nameField, commentField, displayNameField, isOwnerField,
    booleanField "isModerator" "Is Moderator",
    booleanField "isMember" "Is Channel Member",
    booleanField "hasGift" "Has Gift/SuperChat"]
  furtherKind := .superchat
  furtherFields := [
    numberField "price" "SuperChat Amount",
    ⟨"unit", "Currency", .text, [.equals, .notEquals]⟩,
    numberField "tier" "SuperChat Tier",
    textField "paidText" "Paid Amount Text"]

def bilibili : Entry where
  platform := .bilibili
  name := "Bilibili"
  color := "#00a1d6"
  kinds := [.comment, .gift]
  commonFields := [nameField, commentField, displayNameField,
    numberField "userLevel" "User Level",
    numberField "medalLevel" "Medal Level",
    textField "medalName" "Medal Name",
    booleanField "isVip" "Is VIP",
    booleanField "isSvip" "Is SVIP",
    numberField "guardLevel" "Guard Level (0=none, 1=总督, 2=提督, 3=舰长)",
    isOwnerField,
    booleanField "hasGift" "Has Gift"]
  furtherKind := .gift
  furtherFields := [
    numberField "price" "Gift Price (CNY)",
    textField "giftName" "Gift Name",
    numberField "num" "Gift Quantity",
    numberField "totalCoin" "Total Coin"]

def niconico : Entry where
  platform := .niconico
  name := "Niconico"
  color := "#252525"
  kinds := [.comment, .gift]
  commonFields := [nameField, commentField, isOwnerField,
    numberField "premium" "Premium Member",
    booleanField "hasGift" "Has Gift"]
  furtherKind := .gift
  furtherFields := [numberField "price" "Gift Price (JPY)"]

def twitch : Entry where
  platform := .twitch
  name := "Twitch"
  color := "#9146ff"
  kinds := [.comment, .gift]
  commonFields := [nameField, commentField, displayNameField, isOwnerField,
    booleanField "isModerator" "Is Moderator",
    booleanField "isSubscriber" "Is Subscriber",
    booleanField "isVip" "Is VIP",
    booleanField "firstMsg" "First Time Chatter",
    textField "type" "Message Type (twitch, twitch-bits, ...)",
    booleanField "hasGift" "Has Gift (bits, subscription, raid)"]
  furtherKind := .gift
  furtherFields := [
    numberField "bits" "Bits Amount",
    textField "cheerTier" "Cheer Tier",
    numberField "tierNumber" "Subscription Tier (1-3)",
    numberField "months" "Subscription Months",
    booleanField "isGift" "Is Gifted Subscription",
    numberField "viewerCount" "Raid Viewer Count",
    textField "raidSize" "Raid Size"]

def entries : List Entry := [youtube, bilibili, niconico, twitch]

/-- The entry of a source, which any value may stand for. Lists and records cannot be looked up. -/
def entry? (source : Value) : Except Fault (Option Entry) :=
  match source with
  | .text s => .ok (entries.find? (·.platform.name == s))
  | .list _ => .error .unhashableKey
  | .record _ => .error .unhashableKey
  | .table _ => .error .unhashableKey
  | _ => .ok none

/-- The fields of a kind of message beyond the common ones. -/
def Entry.furtherFieldsOf (e : Entry) (kind : Value) : Except Fault (List Field) :=
  match kind with
  | .text k => .ok (if k == e.furtherKind.name then e.furtherFields else [])
  | .list _ => .error .unhashableKey
  | .record _ => .error .unhashableKey
  | .table _ => .error .unhashableKey
  | _ => .ok []

/-- The common fields of a source, and those of a kind of message if one is given. -/
def availableFields (source kind : Value) : Except Fault (List Field) := do
  match ← entry? source with
  | none => return []
  | some e => return e.commonFields ++ (← if kind.given then e.furtherFieldsOf kind else pure [])

def field? (source name kind : Value) : Except Fault (Option Field) := do
  return (← availableFields source kind).find? fun f => name.isText f.name

/-- Why a condition does not suit the catalog. -/
inductive Complaint
  | noSuchField
  | operatorNotSupported
  | notANumber
  | notABoolean
  deriving DecidableEq

def Complaint.message : Complaint → String
  | .noSuchField => "Field not found"
  | .operatorNotSupported => "Operator not supported for this field"
  | .notANumber => "Value must be a number"
  | .notABoolean => "Value must be true or false"

/-- What is wrong with a condition on a field, if anything is. -/
def complaint? (source kind name operator value : Value) : Except Fault (Option Complaint) := do
  match ← field? source name kind with
  | none => return some .noSuchField
  | some f =>
    if !f.operators.any (fun o => operator.isText o.name) then return some .operatorNotSupported
    match f.type with
    | .text => return none
    | .number =>
      if (← value.leadingNumber).isNaN then return some .notANumber else return none
    | .boolean =>
      let word := Text.lower (← value.display)
      if word == "true" || word == "false" then return none else return some .notABoolean

def textList (ss : List String) : Value := .list (ss.map .text)

def Field.toValue (f : Field) : Value :=
  .record [("name", .text f.name), ("label", .text f.label), ("type", .text f.type.name),
    ("operators", textList (f.operators.map Operator.name))]

def Entry.toValue (e : Entry) : Value :=
  .record [("name", .text e.name), ("color", .text e.color),
    ("messageTypes", textList (e.kinds.map Kind.name)),
    ("commonFields", .list (e.commonFields.map Field.toValue)),
    ("specificFields", .record [(e.furtherKind.name, .list (e.furtherFields.map Field.toValue))]),
    ("defaultEndpoints", textList (endpoints e.platform))]

def toValue : Value := .record (entries.map fun e => (e.platform.name, e.toValue))

def operatorLabel : Operator → String
  | .equals => "Equals (=)"
  | .notEquals => "Not Equals (≠)"
  | .greaterThan => "Greater Than (>)"
  | .greaterThanOrEqual => "Greater Than or Equal (≥)"
  | .lessThan => "Less Than (<)"
  | .lessThanOrEqual => "Less Than or Equal (≤)"
  | .contains => "Contains"
  | .notContains => "Does Not Contain"
  | .startsWith => "Starts With"
  | .endsWith => "Ends With"
  | .regex => "Regular Expression"

def operatorLabels : Value :=
  .record (Operator.all.map fun o => (o.name, .text (operatorLabel o)))

end Switchboard.Catalog
