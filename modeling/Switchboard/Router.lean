import Switchboard.Log
import Switchboard.Message.Basic
import Switchboard.Osc.Sender
import Switchboard.Projection
import Switchboard.Rule.Book

/-!
# The router

A comment is brought to a message, and the message is sent to the endpoints of the rules that
match it, reduced to the fields that these select, and then to the default endpoints. Everything
is logged. What is sent shares its records with the raw data of the comment, so a projection that
writes into one of them shows in all that is sent later, and in what has been logged.
-/
namespace Switchboard

structure Router where
  book : RuleBook := {}
  sender : Osc.Sender
  settings : SettingsFile := {}
  log : Log
  network : Osc.Network := {}

structure Outcome where
  variant : Variant
  verdict : Verdict
  sent : List String := []
  failed : List String := []

/-- What is kept in mind while a comment is routed: the message, the data of the entries logged
for it, by their ids, and the next free label. -/
structure Course where
  message : Shared
  logged : List (Nat × Shared)
  next : Nat

namespace Course

/-- The place of a field of a message in the labelled raw data, or a value of its own. -/
def ofDrawn (raw : Shared) (d : Drawn) (next : Nat) : Shared × Nat :=
  match d.origin with
  | [] => Shared.label d.value next
  | keys =>
    match Shared.field? keys raw with
    | some s => (s, next)
    | none => Shared.label d.value next

def ofFields (raw : Shared) : Record Drawn → Nat → Record Shared × Nat
  | [], next => ([], next)
  | (key, d) :: fields, next =>
    let (s, next) := ofDrawn raw d next
    let (ss, next) := ofFields raw fields next
    ((key, s) :: ss, next)

def start (raw : Value) (id : Nat) (fields : Record Drawn) : Course :=
  let (raw, next) := Shared.label raw 0
  let (fields, next) := ofFields raw fields next
  ⟨.record next fields, [(id, raw)], next + 1⟩

def fields (c : Course) : Record Shared :=
  match c.message with
  | .record _ fs => fs
  | _ => []

/-- The projection of the message on some fields, and the course after it. Without fields it is
the message. -/
def project (c : Course) (specs : List FieldSpec) : Course × Except Fault Shared :=
  if specs.isEmpty then (c, .ok c.message)
  else
    let view := Projection.start c.message (c.logged.map Prod.snd) c.next
    let (view, fault) := Projection.addFields view (specs.map .ok)
    let after : Course :=
      ⟨view.message, (c.logged.map Prod.fst).zip view.others, view.next⟩
    match fault with
    | none => (after, .ok view.projected)
    | some f => (after, .error f)

def summary (c : Course) (v : Variant) : Course × Shared :=
  let fields := Message.summaryOf v (.leaf (.text v.tag)) c.fields
  ({ c with next := c.next + 1 }, .record c.next fields)

def keep (c : Course) (id : Nat) (data : Shared) : Course :=
  { c with logged := c.logged ++ [(id, data)] }

/-- The entries of a log with the data as it is now. -/
def settle (c : Course) (entries : List Log.Entry) : List Log.Entry :=
  entries.map fun e =>
    match c.logged.lookup e.id with
    | some data => { e with data := data.plain }
    | none => e

end Course

namespace Router

def commonEndpoint : String := "/onecomme/common"

/-- A router with a log. A log without entries gives way to a new one of the capacity set. -/
def start (book : RuleBook) (sender : Osc.Sender) (settings : SettingsFile) (log : Log)
    (network : Osc.Network) : Except Fault Router := do
  let log ←
    if log.entries.isEmpty then do
      pure (Log.empty (← Log.capacityOf (.int settings.current.maxLogMessages)))
    else pure log
  return { book, sender, settings, log, network }

def record (r : Router) (now : Int) (t : Traffic) (data : Value) (extra : Record Value) :
    Router × Except Fault Nat :=
  let (log, entry) := r.log.record now t data extra
  ({ r with log := log }, entry.map (·.id))

/-- Sends a payload and logs that. A payload that the sender faults on leaves no trace. -/
def deliver (r : Router) (now : Int) (endpoint : String) (payload : Value) (extra : Record Value) :
    Except Fault (Router × Bool × Option Nat) := do
  let (done, sender, network) ← r.sender.send r.network endpoint payload
  let (r, id) :=
    { r with sender, network }.record now (.outgoing (.text endpoint) done) payload extra
  return (r, done, id.toOption)

structure Routing where
  router : Router
  course : Course
  outcome : Outcome

namespace Routing

def send (p : Routing) (now : Int) (endpoint : String) (payload : Shared) :
    Routing × Option Fault :=
  match p.router.deliver now endpoint payload.plain [] with
  | .error f => (p, some f)
  | .ok (router, done, id) =>
    ({ router
       course := match id with
         | some id => p.course.keep id payload
         | none => p.course
       outcome :=
         if done then { p.outcome with sent := p.outcome.sent ++ [endpoint] }
         else { p.outcome with failed := p.outcome.failed ++ [endpoint] } }, none)

def andThen (done : Routing × Option Fault) (next : Routing → Routing × Option Fault) :
    Routing × Option Fault :=
  match done with
  | (p, none) => next p
  | (p, some f) => (p, some f)

/-- Whether an action sends the message on: its type says so, and its endpoint starts with a
slash. -/
def isSending (a : Action) : Bool :=
  a.type == routeToEndpoint && a.endpoint.startsWith "/"

/-- Carries actions out one after the other, up to a fault. -/
def act (p : Routing) (now : Int) : List Action → Routing × Option Fault
  | [] => (p, none)
  | a :: actions =>
    if isSending a then
      match p.course.project a.fields with
      | (course, .ok payload) =>
        andThen ({ p with course }.send now a.endpoint payload) fun p => p.act now actions
      | (course, .error f) => ({ p with course }, some f)
    else p.act now actions

def sendDefaults (p : Routing) (now : Int) : Routing × Option Fault :=
  andThen (p.send now p.outcome.variant.endpoint p.course.message) fun p =>
    let (course, summary) := p.course.summary p.outcome.variant
    { p with course }.send now commonEndpoint summary

/-- The router afterwards, with the logged data as it has become. -/
def finish (p : Routing) : Router :=
  let log := p.router.log
  { p.router with log := { log with entries := p.course.settle log.entries } }

def goesOn (p : Routing) : Bool :=
  p.outcome.verdict.passes && p.router.settings.current.enableDefaultEndpoints

def run (p : Routing) (now : Int) : Router × Except Fault Outcome :=
  match andThen (p.act now p.outcome.verdict.actions) fun p =>
    if p.goesOn then p.sendDefaults now else (p, none) with
  | (p, some f) => (p.finish, .error f)
  | (p, none) => (p.finish, .ok p.outcome)

end Routing

/-- What a comment holds under a key; null for what is no record. -/
def part (comment : Value) (key : String) : Value :=
  match comment with
  | .record r => Value.lookup r key
  | _ => .null

def routeMessage (r : Router) (now : Int) (raw : Value) (id : Nat) (m : Message) :
    Router × Except Fault Outcome :=
  match r.book.process (.record m.payload) with
  | .error f => (r, .error f)
  | .ok verdict => Routing.run ⟨r, .start raw id m.fields, ⟨m.variant, verdict, [], []⟩⟩ now

/-- Routes a comment; none for one that is brought to no message. A comment that cannot be read is
not logged. -/
def route (r : Router) (now : Int) (comment : Value) : Router × Except Fault (Option Outcome) :=
  match Message.ofComment now comment with
  | .error f => (r, .error f)
  | .ok message =>
    let raw := part comment "data"
    match r.record now (.incoming (part comment "service") message.isSome) raw [] with
    | (r, .error f) => (r, .error f)
    | (r, .ok id) =>
      match message with
      | none => (r, .ok none)
      | some m =>
        let (r, outcome) := r.routeMessage now raw id m
        (r, outcome.map some)

def isRouted : Except Fault (Option Outcome) → Bool
  | .ok (some _) => true
  | _ => false

/-- Notes a fault of a comment with the name of its service. A service without a text cannot be
named. -/
def note (comment : Value) : Except Fault (Option Outcome) → Except Fault Unit
  | .ok _ => .ok ()
  | .error _ => do
    let _ ← (part comment "service").plain
    return ()

/-- Routes comments one after the other and counts those that led to an outcome. A comment that
ends in a fault is passed over, once that has been noted. -/
def handle (r : Router) (now : Int) : List Value → Router × Except Fault Nat
  | [] => (r, .ok 0)
  | comment :: comments =>
    let (r, result) := r.route now comment
    match note comment result with
    | .error f => (r, .error f)
    | .ok _ =>
      let (r, n) := r.handle now comments
      (r, n.map fun n => if isRouted result then n + 1 else n)

def testEndpoints : List String :=
  ["/onecomme/test", "/onecomme/connection-test", "/test/osc-router", "/onecomme/test/ping"]

def testPayload (now : Int) : Value :=
  .record [("type", .text "test"), ("message", .text "OSC connection test"),
    ("timestamp", .text (Calendar.instantText now)), ("source", .text "onecomme-osc-router")]

def sendTests (r : Router) (now : Int) : List String → Router × Except Fault (List (String × Bool))
  | [] => (r, .ok [])
  | e :: es =>
    match r.deliver now e (testPayload now) [("test", .bool true)] with
    | .error f => (r, .error f)
    | .ok (r, done, _) =>
      let (r, results) := r.sendTests now es
      (r, results.map fun results => (e, done) :: results)

/-- Tests the connection to a target; what is not given of it is taken from the settings. Another
target than the sender's own has a sender of its own for the time. -/
def ping (r : Router) (now : Int) (host port : Value) : Router × Except Fault (Record Value) :=
  let settings := r.settings.current
  let host := if host.given then host else .text settings.oscHost
  let port := if port.given then port else .int settings.oscPort
  let own := host.sameKey r.sender.target.host && port.sameKey r.sender.target.port
  let sender := if own then r.sender else r.sender.forTarget ⟨host, port⟩
  let (after, results) := { r with sender }.sendTests now testEndpoints
  let after := if own then after else { after with sender := r.sender }
  (after, do
    return [("target", .text (← (⟨host, port⟩ : Osc.Target).text)),
      ("endpoints", .list (testEndpoints.map .text)),
      ("timestamp", .text (Calendar.instantText now)),
      ("results", .record ((← results).map fun p => (p.1, .bool p.2)))])

def updateSettings (r : Router) (changes : Record Value) : Except Fault Router := do
  return { r with settings := ← r.settings.update changes }

@[simp] theorem handle_nil (r : Router) (now : Int) : r.handle now [] = (r, .ok 0) := rfl

@[simp] theorem sendTests_nil (r : Router) (now : Int) : r.sendTests now [] = (r, .ok []) := rfl

end Router

end Switchboard
