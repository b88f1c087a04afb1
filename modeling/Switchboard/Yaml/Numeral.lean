import Switchboard.Fault
import Switchboard.Number.Literal

/-!
# Numerals

The plain scalars that stand for numbers. An integer is binary, octal, decimal, hexadecimal or of
base sixty, where colons part the places; a double has a point. Underscores may stand among the
digits. Any scalar may be given one of the two types, and is then read by the rules of a numeral
as far as they go.
-/
namespace Switchboard.Yaml

def isSign (c : Char) : Bool := c = '+' || c = '-'

def dropSign : List Char → List Char
  | c :: r => if isSign c then r else c :: r
  | [] => []

def isPlace (c : Char) : Bool := c.isDigit || c = '_'

/-- Places of base sixty, each after a colon. -/
def isSexagesimalRest : List Char → Bool
  | [] => true
  | [':', d] => d.isDigit
  | ':' :: d :: ':' :: r => d.isDigit && isSexagesimalRest (':' :: r)
  | ':' :: d :: e :: r => '0' ≤ d && d ≤ '5' && e.isDigit && isSexagesimalRest r
  | _ => false

def isExponent : List Char → Bool
  | [] => true
  | e :: s :: r => (e = 'e' || e = 'E') && isSign s && !r.isEmpty && r.all Char.isDigit
  | _ => false

def isIntText (cs : List Char) : Bool :=
  match dropSign cs with
  | ['0'] => true
  | '0' :: 'b' :: r => !r.isEmpty && r.all fun c => c = '0' || c = '1' || c = '_'
  | '0' :: 'x' :: r => !r.isEmpty && r.all fun c => (Text.hexValue? c).isSome || c = '_'
  | '0' :: r => r.all fun c => ('0' ≤ c && c ≤ '7') || c = '_'
  | d :: r => d.isDigit && isSexagesimalRest (r.dropWhile isPlace)
  | [] => false

/-- What follows the digits of a double up to its point: more places, and an exponent unless
places of base sixty came before. -/
def isFractionText : List Char → Bool
  | '.' :: r => isExponent (r.dropWhile isPlace)
  | r =>
    match r.dropWhile (· != '.') with
    | '.' :: more =>
      !(r.takeWhile (· != '.')).isEmpty && isSexagesimalRest (r.takeWhile (· != '.')) &&
        more.all isPlace
    | _ => false

def isDoubleText (cs : List Char) : Bool :=
  let infinities := [".inf", ".Inf", ".INF"].map String.toList
  let nans := [".nan", ".NaN", ".NAN"].map String.toList
  if nans.contains cs || infinities.contains (dropSign cs) then true
  else
    match cs with
    | '.' :: d :: r => d.isDigit && isExponent (r.dropWhile isPlace)
    | _ =>
      match dropSign cs with
      | d :: r => d.isDigit && isFractionText (r.dropWhile isPlace)
      | [] => false

/-- The digits of a numeral in a base, after a sign and the mark of the base. -/
def intInBase? (base : Nat) (mark : Char) (cs : List Char) : Option Int :=
  let (negative, r) := Number.spanSign (Text.trim Text.isWhite cs)
  let ds := match r with
    | '0' :: m :: more => if m.toLower = mark then more else r
    | _ => r
  let digit? (c : Char) : Option Nat := (Text.hexValue? c).filter (· < base)
  if ds.isEmpty then none
  else do
    let values ← ds.mapM digit?
    let n := values.foldl (fun n d => base * n + d) 0
    return if negative then -(n : Int) else n

def orNoNumeral {α : Type} (x : Option α) : Except Fault α :=
  match x with
  | some a => .ok a
  | none => .error .notANumeral

def splitColons : List Char → List (List Char)
  | [] => [[]]
  | ':' :: r => [] :: splitColons r
  | c :: r =>
    match splitColons r with
    | part :: parts => (c :: part) :: parts
    | [] => [[c]]

/-- A text without its sign, and whether the sign is a minus. -/
def takeSign (cs : List Char) : Except Fault (Bool × List Char) :=
  match cs with
  | [] => .error .emptyNumeral
  | c :: _ => .ok (c = '-', dropSign cs)

def magnitude (cs : List Char) : Except Fault Int :=
  match cs with
  | [] => .error .emptyNumeral
  | ['0'] => .ok 0
  | '0' :: 'b' :: r => orNoNumeral (intInBase? 2 'b' r)
  | '0' :: 'x' :: r => orNoNumeral (intInBase? 16 'x' r)
  | '0' :: r => orNoNumeral (intInBase? 8 'o' ('0' :: r))
  | cs =>
    if cs.contains ':' then do
      let places ← (splitColons cs).mapM fun part => orNoNumeral (Number.readInt? part)
      return places.foldl (fun n d => n * 60 + d) 0
    else orNoNumeral (Number.readInt? cs)

/-- The integer of a text that has that type. -/
def readInt (cs : List Char) : Except Fault Int := do
  let (negative, r) ← takeSign (cs.filter (· != '_'))
  let n ← magnitude r
  return if negative then -n else n

/-- A sum of places, each weighing sixty times as much as the one after it. -/
def sumPlaces (places : List Double) : Double :=
  (places.reverse.foldl
    (fun (sum : Double × Nat) d => (sum.1.add (d.mul (.ofNat sum.2)), sum.2 * 60))
    (.zero, 1)).1

/-- The double of a text that has that type. -/
def readDouble (cs : List Char) : Except Fault Double := do
  let (negative, r) ← takeSign (Number.lowerAscii (cs.filter (· != '_')))
  let x ←
    if r = ".inf".toList then pure (.infinite false)
    else if r = ".nan".toList then pure .nan
    else if r.contains ':' then do
      pure (sumPlaces (← (splitColons r).mapM fun part => orNoNumeral (Number.readDouble? part)))
    else orNoNumeral (Number.readDouble? r)
  return if negative then x.neg else x

end Switchboard.Yaml
