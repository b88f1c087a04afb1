import Switchboard.Pattern.Dialect
import Switchboard.Pattern.Search
import Switchboard.Rule.Condition
import Switchboard.Text.Lower
import Switchboard.Value.Number

/-!
# Comparisons

What each operator of a condition asks of the two values. Texts are put in order by their code
points; any other two values are put in order as numbers, and what is no number stands in no
order. Looking for a text inside another leaves letter case aside.
-/
namespace Switchboard

def occursIn (needle : List Char) : List Char → Bool
  | [] => needle.isEmpty
  | c :: cs => needle.isPrefixOf (c :: cs) || occursIn needle cs

namespace Value

/-- The values as a condition of some type of data compares them. -/
def coerce (dataType : String) (v : Value) : Except Fault Value :=
  if dataType == "number" then do return .double (← v.leadingNumberOrZero)
  else if dataType == "boolean" then .ok (.bool v.truthy)
  else .ok v

end Value

namespace Operator

def inOrder (texts : String → String → Bool) (numbers : Double → Double → Bool) (a b : Value) :
    Except Fault Bool :=
  match a, b with
  | .text s, .text t => .ok (texts s t)
  | a, b => do
    let x ← a.number
    let y ← b.number
    return numbers x y

/-- The displays of two values without regard to letter case. -/
def lowered (a b : Value) : Except Fault (List Char × List Char) := do
  let s ← a.display
  let t ← b.display
  return ((Text.lower s).toList, (Text.lower t).toList)

def holds (o : Operator) (a b : Value) : Except Fault Bool :=
  match o with
  | .equals => .ok (Value.strictEq a b)
  | .notEquals => .ok (!Value.strictEq a b)
  | .greaterThan => inOrder (fun s t => t < s) (fun x y => y.lt x) a b
  | .greaterThanOrEqual => inOrder (fun s t => !(s < t)) (fun x y => y.le x) a b
  | .lessThan => inOrder (fun s t => s < t) Double.lt a b
  | .lessThanOrEqual => inOrder (fun s t => !(t < s)) Double.le a b
  | .contains => do
    let (s, t) ← lowered a b
    return occursIn t s
  | .notContains => do
    let (s, t) ← lowered a b
    return !occursIn t s
  | .startsWith => do
    let (s, t) ← lowered a b
    return t.isPrefixOf s
  | .endsWith => do
    let (s, t) ← lowered a b
    return t.isSuffixOf s
  | .regex => do
    let t ← b.display
    let s ← a.display
    return Pattern.search (Pattern.ofBrowser t) s

end Operator

end Switchboard
