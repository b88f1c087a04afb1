import Switchboard.Control.Request

/-!
# Control routes

What a request asks for is found from its path and its method. The rule of an identifier has a
path of its own, unless the identifier is empty or has a brace.
-/
namespace Switchboard.Control

inductive Route
  | listRules
  | addRule
  | testRule
  | processMessage
  | validateCondition
  | updateRule (id : String)
  | deleteRule (id : String)
  | templates
  | schemas
  | showSettings
  | updateSettings
  | ping
  | ingest
  | logs
  | clearLogs
  | exportAll

namespace Route

/-- A method that reads is also asked for by its headers alone. -/
def reading (r : Route) : List (String × Route) := [("GET", r), ("HEAD", r)]

def fixed : List String → List (String × Route)
  | ["api", "rules"] => reading .listRules ++ [("POST", .addRule)]
  | ["api", "rules", "test"] => [("POST", .testRule)]
  | ["api", "rules", "process"] => [("POST", .processMessage)]
  | ["api", "rules", "validate"] => [("POST", .validateCondition)]
  | ["api", "templates"] => reading .templates
  | ["api", "schemas"] => reading .schemas
  | ["api", "config"] => reading .showSettings ++ [("PUT", .updateSettings)]
  | ["api", "osc", "test"] => [("POST", .ping)]
  | ["api", "comments"] => [("POST", .ingest)]
  | ["api", "logs"] => reading .logs ++ [("DELETE", .clearLogs)]
  | ["api", "export"] => reading .exportAll
  | _ => []

/-- Whether a text can stand in a path as an identifier. -/
def isId (s : String) : Bool :=
  s != "" && s.toList.all fun c => c != '\x7b' && c != '\x7d'

def ofRule : List String → List (String × Route)
  | ["api", "rules", id] =>
    if isId id then [("PUT", .updateRule id), ("DELETE", .deleteRule id)] else []
  | _ => []

def methods (path : List String) : List (String × Route) := fixed path ++ ofRule path

/-- The route of a request, or the status that says why there is none. -/
def find (q : Request) : Except Nat Route :=
  let known := methods q.segments
  if known.isEmpty then .error 404
  else
    match known.lookup q.method with
    | some r => .ok r
    | none => .error 405

end Route

end Switchboard.Control
