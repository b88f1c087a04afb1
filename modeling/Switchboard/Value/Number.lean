import Switchboard.Value.Text

/-!
# Values as numbers

A value is read as a number in two ways. Its *leading number* is the longest literal at the start
of its text, whatever follows. Its *number* asks the whole text to be one literal, and takes null,
booleans and blank texts as numbers too. Where there is nothing to read the result is not a number.
-/
namespace Switchboard

namespace Double

/-- The double nearest to an integer, which is refused when it is past every double. -/
def ofInt (n : Int) : Except Fault Double :=
  match ofInt? n with
  | some x => .ok x
  | none => .error .numberTooLarge

end Double

namespace Value

open Number Text

def leadingNumber : Value → Except Fault Double
  | .int n => Double.ofInt n
  | .double x => .ok x
  | v => do
    let text ← v.display
    return ((readPrefix? (trimLeft isBlank text.toList)).map Prod.fst).getD .nan

/-- The number at the start of the value's text, and zero where there is none. -/
def leadingNumberOrZero (v : Value) : Except Fault Double := do
  let x ← v.leadingNumber
  return if x.isNaN || x.isZero then .zero else x

def numberOfText (s : String) : Double :=
  match trim isBlank s.toList with
  | [] => .zero
  | cs =>
    match readPrefix? cs with
    | some (x, []) => x
    | _ => .nan

def number : Value → Except Fault Double
  | .absent => .ok .nan
  | .null => .ok .zero
  | .bool b => .ok (if b then .ofNat 1 else .zero)
  | .int n => Double.ofInt n
  | .double x => .ok x
  | .record _ => .ok .nan
  | .table _ => .ok .nan
  | v => do return numberOfText (← v.display)

/-- Equality of values of the same kind. Integers and doubles are one kind and are compared
without rounding. Lists and records are only ever equal to themselves, which two values read apart
never are. -/
def strictEq : Value → Value → Bool
  | .absent, .absent => true
  | .null, .null => true
  | .bool a, .bool b => a == b
  | .int a, .int b => a == b
  | .int a, .double y => y.eqInt a
  | .double x, .int b => x.eqInt b
  | .double x, .double y => x.eqv y
  | .text s, .text t => s == t
  | _, _ => false

@[simp] theorem number_null : number .null = .ok .zero := rfl

@[simp] theorem strictEq_text (s t : String) : strictEq (.text s) (.text t) = (s == t) := rfl

end Value

end Switchboard
