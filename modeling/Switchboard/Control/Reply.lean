import Switchboard.Json.Writer

/-!
# Control replies

A reply holds JSON that says whether the request succeeded. A target that is not known, or that
does not have the method, is answered by a status alone, and a fault that nothing makes up for by
the fault.
-/
namespace Switchboard.Control

inductive Reply
  | json (status : Nat) (text : String)
  | bare (status : Nat)
  | broken (f : Fault)

namespace Reply

def status : Reply → Nat
  | .json n _ => n
  | .bare n => n
  | .broken _ => 500

/-- A record as a reply; one that cannot be written breaks it. -/
def ofRecord (status : Nat) (fields : Record Value) : Reply :=
  match Json.write (.record fields) with
  | .ok s => .json status s
  | .error f => .broken f

def success (fields : Record Value) : Reply :=
  ofRecord 200 (Record.merge [("success", .bool true)] fields)

def failure (status : Nat) (message : String) : Reply :=
  ofRecord status [("success", .bool false), ("error", .text message)]

/-- The number of the places at which a record broke its form. -/
def countText (n : Nat) (form : String) : String :=
  toString n ++ (if n = 1 then " validation error for " else " validation errors for ") ++ form

/-- The words for a fault, where it has words of its own. -/
def detail : Fault → String
  | .ruleNotARecord kind => "rule must be a mapping, got " ++ kind
  | .unexpected e => e.text
  | .rejected r => countText r.issues.length r.form
  | _ => "*"

/-- The reply to a request whose input is at fault; any other fault breaks it. -/
def refusal (subject : String) (f : Fault) : Reply :=
  if f.isOfInput then failure 400 ("Invalid " ++ subject ++ ": " ++ detail f) else .broken f

def ofExcept (subject : String) : Except Fault (Record Value) → Reply
  | .ok fields => success fields
  | .error f => refusal subject f

@[simp] theorem status_bare (n : Nat) : (Reply.bare n).status = n := rfl

@[simp] theorem status_broken (f : Fault) : (Reply.broken f).status = 500 := rfl

end Reply

end Switchboard.Control
