import Switchboard.Fault
import Switchboard.Number.Literal
import Switchboard.Value.Nesting

/-!
# Reading JSON

A text is read as one value with blanks around it. A numeral without a fraction and an exponent
is an integer, and any other a double. The three doubles that have no numerals are read by name.
Of a key that is repeated the last value counts. Recursion is bounded by the length of the text,
since every value takes at least one character. A text that is nested too deep is given up where it
is, be the rest of it JSON or not.
-/
namespace Switchboard.Json

open Number

def isSpace (c : Char) : Bool := c = ' ' || c = '\t' || c = '\n' || c = '\r'

def skipSpace (cs : List Char) : List Char := cs.dropWhile isSpace

def readUnit? : List Char → Option (Nat × List Char)
  | a :: b :: c :: d :: r => do
    let a ← Text.hexValue? a
    let b ← Text.hexValue? b
    let c ← Text.hexValue? c
    let d ← Text.hexValue? d
    return (((a * 16 + b) * 16 + c) * 16 + d, r)
  | _ => none

def isHighUnit (n : Nat) : Bool := 0xd800 ≤ n && n < 0xdc00

def isLowUnit (n : Nat) : Bool := 0xdc00 ≤ n && n < 0xe000

/-- The character of a code unit, or of a pair of them, and what follows. -/
def readUnits? (cs : List Char) : Option (Char × List Char) := do
  let (n, r) ← readUnit? cs
  let single := (if isHighUnit n || isLowUnit n then '\ufffd' else Char.ofNat n, r)
  if isHighUnit n then
    match r with
    | '\\' :: 'u' :: r' =>
      match readUnit? r' with
      | some (m, r') =>
        if isLowUnit m then
          return (Char.ofNat (0x10000 + (n - 0xd800) * 0x400 + (m - 0xdc00)), r')
        else return single
      | none => none
    | _ => return single
  else return single

def readEscape? : List Char → Option (Char × List Char)
  | '"' :: r => some ('"', r)
  | '\\' :: r => some ('\\', r)
  | '/' :: r => some ('/', r)
  | 'b' :: r => some ('\x08', r)
  | 'f' :: r => some ('\x0c', r)
  | 'n' :: r => some ('\n', r)
  | 'r' :: r => some ('\r', r)
  | 't' :: r => some ('\t', r)
  | 'u' :: r => readUnits? r
  | _ => none

/-- The characters up to the closing quote, last first, and what follows it. -/
def readChars? : Nat → List Char → List Char → Option (List Char × List Char)
  | 0, _, _ => none
  | n + 1, acc, cs =>
    match cs with
    | [] => none
    | '"' :: r => some (acc, r)
    | '\\' :: r =>
      match readEscape? r with
      | some (c, r) => readChars? n (c :: acc) r
      | none => none
    | c :: r => if c.toNat < 0x20 then none else readChars? n (c :: acc) r

def readText? (cs : List Char) : Option (String × List Char) :=
  (readChars? (cs.length + 1) [] cs).map fun (acc, r) => (String.ofList acc.reverse, r)

def isAsciiDigit (c : Char) : Bool := '0' ≤ c && c ≤ '9'

/-- The digits of an integer without leading zeros, and what follows them. -/
def spanInteger? : List Char → Option (List Char × List Char)
  | '0' :: r => some (['0'], r)
  | cs =>
    match cs.takeWhile isAsciiDigit with
    | [] => none
    | ds => some (ds, cs.dropWhile isAsciiDigit)

def spanFraction (cs : List Char) : List Char × List Char :=
  match cs with
  | '.' :: r => if (r.takeWhile isAsciiDigit).isEmpty then ([], cs)
    else (r.takeWhile isAsciiDigit, r.dropWhile isAsciiDigit)
  | _ => ([], cs)

def spanPower (cs : List Char) : Option Int × List Char :=
  match cs with
  | [] => (none, cs)
  | c :: r =>
    if c = 'e' ∨ c = 'E' then
      let (negative, r) := spanSign r
      match r.takeWhile isAsciiDigit with
      | [] => (none, cs)
      | ds =>
        let e : Int := digitsValue ds
        (some (if negative then -e else e), r.dropWhile isAsciiDigit)
    else (none, cs)

def readMagnitude? (negative : Bool) (cs : List Char) : Option (Value × List Char) :=
  match dropWord? "Infinity".toList cs with
  | some r => some (.double (.infinite negative), r)
  | none => do
    let (whole, r) ← spanInteger? cs
    match spanFraction r with
    | ([], r) =>
      match spanPower r with
      | (none, r) =>
        if whole.length ≤ digitLimit then
          let n : Int := digitsValue whole
          return (.int (if negative then -n else n), r)
        else none
      | (some e, r) => return (.double (Double.ofDecimal negative (digitsValue whole) e), r)
    | (fraction, r) =>
      let (e, r) := spanPower r
      let digits := digitsValue (whole ++ fraction)
      return (.double (Double.ofDecimal negative digits (e.getD 0 - fraction.length)), r)

def readNumber? : List Char → Option (Value × List Char)
  | '-' :: cs => readMagnitude? true cs
  | cs => readMagnitude? false cs

def readName? (cs : List Char) : Option (Value × List Char) :=
  [("null", Value.null), ("true", .bool true), ("false", .bool false), ("NaN", .double .nan)]
    |>.findSome? fun (name, v) => (dropWord? name.toList cs).map fun r => (v, r)

/-- What is found; without it the text is no JSON. -/
def found {α : Type} : Option α → Except Fault α
  | some a => .ok a
  | none => .error .notJson

mutual

/-- The value at the start, with room for some levels, and what follows it. -/
def readValue : Nat → Nat → List Char → Except Fault (Value × List Char)
  | 0, _, _ => .error .notJson
  | _ + 1, 0, _ => .error .nestedTooDeep
  | n + 1, room + 1, cs =>
    match cs with
    | '"' :: r => do
      let (s, r) ← found (readText? r)
      return (.text s, r)
    | '[' :: r =>
      match skipSpace r with
      | ']' :: r => .ok (.list [], r)
      | r => do
        let (items, r) ← readItems n room r
        return (.list items, r)
    | '\x7b' :: r =>
      match skipSpace r with
      | '\x7d' :: r => .ok (.record [], r)
      | r => do
        let (fields, r) ← readFields n room r
        return (.record (Record.ofPairs fields), r)
    | cs => found ((readName? cs).or (readNumber? cs))

def readItems : Nat → Nat → List Char → Except Fault (List Value × List Char)
  | 0, _, _ => .error .notJson
  | n + 1, room, cs => do
    let (v, r) ← readValue n room cs
    match skipSpace r with
    | ',' :: r => do
      let (vs, r) ← readItems n room (skipSpace r)
      return (v :: vs, r)
    | ']' :: r => return ([v], r)
    | _ => throw .notJson

def readFields : Nat → Nat → List Char → Except Fault (List (String × Value) × List Char)
  | 0, _, _ => .error .notJson
  | n + 1, room, cs =>
    match cs with
    | '"' :: r => do
      let (key, r) ← found (readText? r)
      match skipSpace r with
      | ':' :: r => do
        let (v, r) ← readValue n room (skipSpace r)
        match skipSpace r with
        | ',' :: r => do
          let (fs, r) ← readFields n room (skipSpace r)
          return ((key, v) :: fs, r)
        | '\x7d' :: r => return ([(key, v)], r)
        | _ => throw .notJson
      | _ => throw .notJson
    | _ => .error .notJson

end

/-- The value that a whole text stands for. Reading takes one call for each level. -/
def read (s : String) : Except Fault Value := do
  let cs := skipSpace s.toList
  let (v, r) ← readValue (cs.length + 1) (Value.levelLimit 1) cs
  if (skipSpace r).isEmpty then return v else throw .notJson

end Switchboard.Json
