import Switchboard.Catalog.Basic
import Switchboard.Catalog.Template
import Switchboard.Control.Reply
import Switchboard.Control.Route
import Switchboard.Router

/-!
# The control interface

Rules and settings are managed, comments are fed in and the log is looked at by requests to the
router.
-/
namespace Switchboard.Control

/-- The whole number that a value stands for. -/
def wholeNumber : Value → Except Fault Int
  | .int n => .ok n
  | .bool b => .ok b.toNat
  | .double x =>
    match x.truncate? with
    | some n => .ok n
    | none => if x.isNaN then .error .notANumeral else .error .notFinite
  | .text s =>
    match Number.readInt? s.toList with
    | some n => .ok n
    | none => .error .notANumeral
  | _ => .error .notANumber

def rulesValue (rules : List Rule) : Value := .list (rules.map Rule.toValue)

def listRules (r : Router) : Reply := .success [("rules", rulesValue r.book.rules)]

/-- The reply of a change to the rules. -/
def withBook {α : Type} (r : Router) (result : RuleBook × Except Fault α)
    (reply : Except Fault α → Reply) : Router × Reply :=
  ({ r with book := result.1 }, reply result.2)

def addRule (r : Router) (q : Request) (now : Int) : Router × Reply :=
  match q.json .null with
  | .error f => (r, .refusal "rule" f)
  | .ok body =>
    withBook r (r.book.add body now) fun result =>
      .ofExcept "rule" (result.map fun rule => [("rule", rule.toValue)])

def notFound (id : String) : Reply := .failure 404 ("Rule not found: " ++ id)

def updateRule (r : Router) (q : Request) (id : String) (now : Int) : Router × Reply :=
  match q.jsonFields .ruleChanges with
  | .error f => (r, .refusal "rule" f)
  | .ok changes =>
    withBook r (r.book.update id (.record changes) now) fun result =>
      match result with
      | .ok none => notFound id
      | .ok (some rule) => .success [("rule", rule.toValue)]
      | .error f => .refusal "rule" f

def deleteRule (r : Router) (id : String) (now : Int) : Router × Reply :=
  withBook r (r.book.delete id now) fun result =>
    match result with
    | .ok true => .success []
    | .ok false => notFound id
    | .error f => .broken f

def validateCondition (q : Request) : Reply :=
  .ofExcept "condition" do
    let r ← q.jsonFields .condition
    let complaint ← Catalog.complaint? (Value.lookup r "source") (Value.lookup r "messageType")
      (Value.lookup r "field") (Value.lookup r "operator") (Value.lookup r "value")
    return [("valid", .bool complaint.isNone),
      ("error", (complaint.map fun c => Value.text c.message).getD .null)]

def testRule (q : Request) : Reply :=
  .ofExcept "test request" do
    let r ← q.jsonFields .ruleTest
    let rule ← match Record.get? r "rule" with
      | some rule => pure rule
      | none => throw (.unexpected .ruleTest)
    let message := Value.lookup r "testMessage"
    if message.given && message.fields?.isNone then throw (.unexpected .testMessage)
    let matched ← RuleBook.test rule (if message.given then message else .record [])
    return [("matches", .bool matched)]

/-- The record under a key of the body. -/
def messageOf (q : Request) : Except Fault Value := do
  match ← q.json (.record []) with
  | .record r =>
    match Value.lookup r "message" with
    | .record m => return .record m
    | _ => throw (.unexpected .message)
  | _ => throw (.unexpected .message)

def processMessage (r : Router) (q : Request) : Reply :=
  match messageOf q with
  | .error f => .refusal "message" f
  | .ok message =>
    match r.book.process message with
    | .ok verdict => .success verdict.toRecord
    | .error f => .broken f

def templates : Reply := .success [("templates", .list Catalog.templates)]

def schemas : Reply :=
  .success [("schemas", Catalog.toValue), ("operators", Catalog.operatorLabels)]

def settingsValue (r : Router) : Value := .record r.settings.current.toRecord

def showSettings (r : Router) : Reply := .success [("config", settingsValue r)]

/-- Brings the sender and the log in line with changed settings. -/
def follow (r : Router) (s : Settings) : Router × Option Fault :=
  let r := { r with
    sender := r.sender.retarget (.text s.oscHost) (.int s.oscPort) (.text s.oscMessageFormat.name) }
  match r.log.resizeTo (.int s.maxLogMessages) with
  | .ok log => ({ r with log }, none)
  | .error f => (r, some f)

def updateSettings (r : Router) (q : Request) (now : Int) : Router × Reply :=
  match q.jsonFields .settings with
  | .error f => (r, .refusal "configuration" f)
  | .ok changes =>
    match r.settings.update changes with
    | .error f => (r, .refusal "configuration" f)
    | .ok settings =>
      match settings.save now with
      | (kept, .error f) => ({ r with settings := kept }, .broken f)
      | (kept, .ok saved) =>
        match follow { r with settings := kept } settings.current with
        | (r, none) => (r, .success [("config", settingsValue r), ("saved", .bool saved)])
        | (r, some f) => (r, .broken f)

/-- The host and the port of the body; a port that is given is a whole number. -/
def targetOf (q : Request) : Except Fault (Value × Value) := do
  match ← q.json (.record []) with
  | .record r => do
    let port := Value.lookup r "port"
    let port ← if port.given then (wholeNumber port).map Value.int else pure .null
    return (Value.lookup r "host", port)
  | _ => return (.null, .null)

def ping (r : Router) (q : Request) (now : Int) : Router × Reply :=
  match targetOf q with
  | .error f => (r, .refusal "test target" f)
  | .ok (host, port) =>
    match r.ping now host port with
    | (r, .ok result) => (r, .success result)
    | (r, .error f) => (r, .broken f)

/-- The list of comments of the body. -/
def commentsOf (q : Request) : Except Fault (List Value) := do
  match ← q.json (.record []) with
  | .record r =>
    match Value.lookup r "comments" with
    | .list comments => return comments
    | _ => throw (.unexpected .comments)
  | _ => throw (.unexpected .comments)

def ingest (r : Router) (q : Request) (now : Int) : Router × Reply :=
  match commentsOf q with
  | .error f => (r, .refusal "comments" f)
  | .ok comments =>
    match r.handle now comments with
    | (r, .ok n) => (r, .success [("processed", .int n), ("received", .int comments.length)])
    | (r, .error f) => (r, .broken f)

/-- The limit of the query; none where it is no integer. -/
def limitOf (q : Request) : Option (Option Int) :=
  match q.parameter? "limit" with
  | none => some none
  | some s => (Number.readInt? s.toList).map some

def logs (r : Router) (q : Request) : Reply :=
  match limitOf q with
  | none => .failure 400 "limit must be an integer"
  | some limit =>
    let entries := r.log.select (q.parameter? "direction") limit
    match r.sender.stats with
    | .error f => .broken f
    | .ok sender =>
      .success [("messages", .list (entries.map fun e => .record e.toRecord)),
        ("stats", .record (Record.put "osc" (.record sender) r.log.stats))]

def clearLogs (r : Router) : Router × Reply := ({ r with log := r.log.clear }, .success [])

def exportAll (r : Router) (now : Int) : Reply :=
  .success [("configuration", settingsValue r), ("rules", rulesValue r.book.rules),
    ("exportInfo", .record [("exportedAt", .text (Calendar.instantText now)),
      ("version", .text documentVersion), ("ruleCount", .int r.book.rules.length)])]

def serve (r : Router) (q : Request) (now : Int) : Route → Router × Reply
  | .listRules => (r, listRules r)
  | .addRule => addRule r q now
  | .testRule => (r, testRule q)
  | .processMessage => (r, processMessage r q)
  | .validateCondition => (r, validateCondition q)
  | .updateRule id => updateRule r q id now
  | .deleteRule id => deleteRule r id now
  | .templates => (r, templates)
  | .schemas => (r, schemas)
  | .showSettings => (r, showSettings r)
  | .updateSettings => updateSettings r q now
  | .ping => ping r q now
  | .ingest => ingest r q now
  | .logs => (r, logs r q)
  | .clearLogs => clearLogs r
  | .exportAll => (r, exportAll r now)

def answer (r : Router) (q : Request) (now : Int) : Router × Reply :=
  match Route.find q with
  | .ok route => serve r q now route
  | .error status => (r, .bare status)

end Switchboard.Control
