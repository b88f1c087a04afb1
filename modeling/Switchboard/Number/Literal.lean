import Switchboard.Number.Double
import Switchboard.Text.Blank
import Switchboard.Text.Digit

/-!
# Number literals

A literal is an optional sign, digits of any script with an optional point among or around them, and
an optional exponent. Reading takes the longest literal that the text starts with. The module also
reads whole texts as integers and doubles: there white space at both ends is left out and single
underscores between digits are passed over.
-/
namespace Switchboard.Number

open Text

def digitsValue (cs : List Char) : Nat :=
  cs.foldl (fun n c => 10 * n + (decimalValue? c).getD 0) 0

def spanDigits (cs : List Char) : List Char × List Char :=
  (cs.takeWhile isDecimal, cs.dropWhile isDecimal)

def spanSign : List Char → Bool × List Char
  | '-' :: cs => (true, cs)
  | '+' :: cs => (false, cs)
  | cs => (false, cs)

/-- The digits of a literal, how many of them stand after the point, and what follows them. -/
def spanMantissa? (cs : List Char) : Option (List Char × Nat × List Char) :=
  match spanDigits cs with
  | ([], '.' :: r) =>
    match spanDigits r with
    | ([], _) => none
    | (f, r) => some (f, f.length, r)
  | ([], _) => none
  | (w, '.' :: r) =>
    let (f, r) := spanDigits r
    some (w ++ f, f.length, r)
  | (w, r) => some (w, 0, r)

def spanExponent (cs : List Char) : Int × List Char :=
  match cs with
  | [] => (0, [])
  | c :: r =>
    if c = 'e' ∨ c = 'E' then
      let (negative, r) := spanSign r
      match spanDigits r with
      | ([], _) => (0, cs)
      | (e, r) => (if negative then -(digitsValue e : Int) else digitsValue e, r)
    else (0, cs)

/-- What stands after `word`, if the text starts with it. -/
def dropWord? (word cs : List Char) : Option (List Char) :=
  if word.isPrefixOf cs then some (cs.drop word.length) else none

def readUnsigned? (negative : Bool) (cs : List Char) : Option (Double × List Char) :=
  (spanMantissa? cs).map fun (ds, places, r) =>
    let (e, r) := spanExponent r
    (Double.ofDecimal negative (digitsValue ds) (e - places), r)

/-- The double of the longest literal at the start, and what follows it; `Infinity` is a literal. -/
def readPrefix? (cs : List Char) : Option (Double × List Char) :=
  let (negative, r) := spanSign cs
  match dropWord? "Infinity".toList r with
  | some r => some (.infinite negative, r)
  | none => readUnsigned? negative r

/-- The text without single underscores between digits; none if an underscore stands elsewhere. -/
def dropUnderscores? : List Char → Option (List Char)
  | [] => some []
  | '_' :: _ => none
  | c :: '_' :: d :: cs =>
    if isDecimal c && isDecimal d then (dropUnderscores? (d :: cs)).map (c :: ·) else none
  | c :: cs => (dropUnderscores? cs).map (c :: ·)

def lowerAscii (cs : List Char) : List Char := cs.map Char.toLower

/-- The double that a whole text stands for. The names of the special values are read in any
letter case. -/
def readDouble? (cs : List Char) : Option Double :=
  let (negative, r) := spanSign (trim isWhite cs)
  let name := String.ofList (lowerAscii r)
  if name = "inf" ∨ name = "infinity" then some (.infinite negative)
  else if name = "nan" then some .nan
  else
    match (dropUnderscores? r).bind (readUnsigned? negative) with
    | some (x, []) => some x
    | _ => none

/-- The most digits that an integer is read from or written with. -/
def digitLimit : Nat := 4300

def readInt? (cs : List Char) : Option Int :=
  let (negative, r) := spanSign (trim isWhite cs)
  match dropUnderscores? r with
  | some (d :: ds) =>
    let digits := d :: ds
    if digits.all isDecimal && digits.length ≤ digitLimit then
      some (if negative then -(digitsValue digits : Int) else digitsValue digits)
    else none
  | _ => none

theorem spanDigits_append (cs : List Char) : (spanDigits cs).1 ++ (spanDigits cs).2 = cs :=
  List.takeWhile_append_dropWhile

end Switchboard.Number
