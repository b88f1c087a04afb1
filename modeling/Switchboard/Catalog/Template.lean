import Switchboard.Message.Variant
import Switchboard.Rule.Basic

/-!
# Templates of rules

Rules to start from, each with a name and a description.
-/
namespace Switchboard.Catalog

def conditionValue (field : String) (o : Operator) (value : Value) (dataType : String) : Value :=
  .record [("field", .text field), ("operator", .text o.name), ("value", value),
    ("dataType", .text dataType)]

/-- An action that sends some fields of a message to an endpoint. -/
def actionValue (endpoint : String) (fields : List String) : Value :=
  .record [("type", .text routeToEndpoint), ("endpoint", .text endpoint),
    ("fields", .list (fields.map fun path =>
      .record [("path", .text path), ("enabled", .bool true)]))]

/-- A template of a rule; `body` holds what decides whether the rule matches and what it does. -/
def template (name description : String) (body : Record Value) (blockDefault : Bool) : Value :=
  .record [("name", .text name), ("description", .text description),
    ("rule", .record ([("name", .text name), ("enabled", .bool true)] ++ body ++
      [("blockDefault", .bool blockDefault)]))]

def largeSuperchats : Value :=
  template "Large Super Chats" "Send YouTube super chats above 20 to a dedicated endpoint"
    [("conditionGroups", .list [.record [
        ("source", .text Platform.youtube.name),
        ("messageType", .text Kind.superchat.name),
        ("conditions", .list [conditionValue "price" .greaterThan (.int 20) "number"]),
        ("conditionLogic", .text "AND")]]),
     ("groupLogic", .text "OR"),
     ("actions", .list [
        actionValue "/onecomme/youtube/super/large" ["name", "price", "unit", "comment"]])]
    false

def membersOnly : Value :=
  template "Members Only" "Forward comments from channel members"
    [("conditionGroups", .list [.record [
        ("source", .text Platform.youtube.name),
        ("messageType", .text Kind.comment.name),
        ("conditions", .list [conditionValue "isMember" .equals (.bool true) "boolean"])]]),
     ("actions", .list [actionValue "/onecomme/members" ["name", "comment"]])]
    false

def guardMembers : Value :=
  template "Bilibili Guard Members" "Route messages from guard members (any guard level)"
    [("conditionGroups", .list [.record [
        ("source", .text Platform.bilibili.name),
        ("conditions", .list [conditionValue "guardLevel" .greaterThan (.int 0) "number"])]]),
     ("actions", .list [actionValue "/onecomme/bilibili/guard" []])]
    false

def bigCheers : Value :=
  template "Big Twitch Cheers" "Route cheers of 1000 bits or more"
    [("conditionGroups", .list [.record [
        ("source", .text Platform.twitch.name),
        ("messageType", .text Kind.gift.name),
        ("conditions", .list [conditionValue "bits" .greaterThanOrEqual (.int 1000) "number"])]]),
     ("actions", .list [actionValue "/onecomme/twitch/bits/big" ["displayName", "bits"]])]
    false

def keywordFilter : Value :=
  template "Keyword Filter" "Block default routing for messages containing a keyword"
    [("conditions", .list [conditionValue "comment" .contains (.text "spam") "string"]),
     ("conditionLogic", .text "AND"),
     ("actions", .list [])]
    true

def templates : List Value :=
  [largeSuperchats, membersOnly, guardMembers, bigCheers, keywordFilter]

end Switchboard.Catalog
