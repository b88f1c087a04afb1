import Switchboard.Fault
import Switchboard.Value.Text

/-!
# Checking the form of a value

A check reads a value as something more definite. It lists every place that breaks the form, so
checks of several fields are made side by side and not one after the other. A fault in the midst
of a check ends it at once, whatever has been listed.
-/
namespace Switchboard

inductive Check (α : Type)
  | ok (a : α)
  | issues (found : List Issue)
  | broken (f : Fault)

namespace Check

variable {α β γ : Type}

def map (f : α → β) : Check α → Check β
  | .ok a => .ok (f a)
  | .issues found => .issues found
  | .broken f => .broken f

def both (x : Check α) (y : Check β) : Check (α × β) :=
  match x, y with
  | .broken f, _ => .broken f
  | _, .broken f => .broken f
  | .issues a, .issues b => .issues (a ++ b)
  | .issues a, .ok _ => .issues a
  | .ok _, .issues b => .issues b
  | .ok a, .ok b => .ok (a, b)

def seq (f : Check (α → β)) (x : Unit → Check α) : Check β :=
  (both f (x ())).map fun p => p.1 p.2

instance : Applicative Check where
  pure := .ok
  seq := seq

def issue (reason : Reason) : Check α := .issues [⟨[], reason⟩]

/-- Moves the places of the issues one step down. -/
def under (s : Step) : Check α → Check α
  | .issues found => .issues (found.map fun i => { i with place := s :: i.place })
  | c => c

def ofExcept : Except Fault α → Check α
  | .ok a => .ok a
  | .error f => .broken f

def andThen (c : Check α) (f : α → Check β) : Check β :=
  match c with
  | .ok a => f a
  | .issues found => .issues found
  | .broken f => .broken f

/-- The result, with a list of issues as the rejection of a form. -/
def run (form : String) : Check α → Except Fault α
  | .ok a => .ok a
  | .issues found => .error (.rejected ⟨form, found⟩)
  | .broken f => .error f

@[simp] theorem run_ok (form : String) (a : α) : (Check.ok a).run form = .ok a := rfl

def textOfOctets (reason : Reason) (bytes : List UInt8) : Check String :=
  match String.fromUTF8? ⟨bytes.toArray⟩ with
  | some s => .ok s
  | none => issue reason

def text : Value → Check String
  | .text s => .ok s
  | .octets bytes => textOfOctets .notUnicode bytes
  | _ => issue .notText

def textOrNull : Value → Check (Option String)
  | .null => .ok none
  | v => (text v).map some

/-- The plain text of any value. An integer in it that is too long is an issue, and too many levels
break the check off. -/
def plainText (v : Value) : Check String :=
  match v.plain with
  | .ok s => .ok s
  | .error f => if f.family = .value then issue .noText else .broken f

/-- The words that are read as true and as false, in any letter case. -/
def flagWord? (s : String) : Option Bool :=
  let w := String.ofList (Number.lowerAscii s.toList)
  if ["1", "on", "t", "true", "y", "yes"].contains w then some true
  else if ["0", "off", "f", "false", "n", "no"].contains w then some false
  else none

def flagOfText (s : String) : Check Bool :=
  match flagWord? s with
  | some b => .ok b
  | none => issue .notReadAsBool

/-- The bound of the machine integers; doubles strictly within it are read as such. -/
def machineBound : Int := 2 ^ 63

/-- One of the numbers zero and one; an integer that is no machine integer is not even a number
that could be read. -/
def flagOfInt (n : Int) : Check Bool :=
  if n = 0 then .ok false
  else if n = 1 then .ok true
  else if -machineBound ≤ n ∧ n < machineBound then issue .notReadAsBool
  else issue .notBool

def intOfDouble (x : Double) : Check Int :=
  match x.truncate? with
  | none => issue .notFinite
  | some n =>
    if !x.isIntegral then issue .hasFraction
    else if -machineBound < n ∧ n < machineBound then .ok n
    else issue .intTooLong

/-- A boolean, one of the numbers zero and one, or a word for one of the two. -/
def flag : Value → Check Bool
  | .bool b => .ok b
  | .text s => flagOfText s
  | .octets bytes => (textOfOctets .notReadAsBool bytes).andThen flagOfText
  | .int n => flagOfInt n
  | .double x =>
    match intOfDouble x with
    | .ok n => flagOfInt n
    | _ => issue .notBool
  | _ => issue .notBool

/-- A numeral without the zeros in front of it; one is kept if nothing else is left. -/
def dropLeadingZeros? (cs : List Char) : Option (List Char) :=
  let isFiller (c : Char) : Bool := c = '0' || c = '_'
  match cs with
  | '0' :: _ =>
    match cs.dropWhile isFiller with
    | [] => some (cs.drop (cs.length - 1))
    | '.' :: r => some (cs.drop (cs.length - r.length - 2))
    | c :: r => if c.isDigit then some (c :: r) else none
  | c :: _ => if c.isDigit || c = '-' then some cs else none
  | [] => none

/-- A numeral without a fraction that is all zeros. -/
def dropZeroFraction (cs : List Char) : List Char :=
  match cs.dropWhile (· != '.') with
  | _ :: fraction => if fraction.all (· == '0') then cs.takeWhile (· != '.') else cs
  | [] => cs

def hasDoubledUnderscore : List Char → Bool
  | '_' :: '_' :: _ => true
  | _ :: cs => hasDoubledUnderscore cs
  | [] => false

/-- A numeral without its underscores, where none stands at an end or beside another. -/
def dropInnerUnderscores (cs : List Char) : List Char :=
  if cs.head? = some '_' || cs.getLast? = some '_' || hasDoubledUnderscore cs then cs
  else cs.filter (· != '_')

def plainInt? : List Char → Option Int
  | '-' :: ds => (plainNat? ds).map fun n => -(n : Int)
  | ds => (plainNat? ds).map fun n => (n : Int)
where
  plainNat? (ds : List Char) : Option Nat :=
    if ds.isEmpty || !ds.all Char.isDigit || (ds.head? = some '0' && 1 < ds.length) then none
    else some (Number.digitsValue ds)

/-- The integer that a text stands for: white space around it, a sign, zeros in front, a fraction
of zeros and single underscores are allowed. -/
def looseInt? (s : String) : Option Int := do
  let cs ← match Text.trim Text.isWhite s.toList with
    | '+' :: '-' :: _ => none
    | '+' :: cs => some cs
    | cs => some cs
  let cs ← dropLeadingZeros? cs
  plainInt? (dropInnerUnderscores (dropZeroFraction cs))

def integerOfText (s : String) : Check Int :=
  if Number.digitLimit < s.utf8ByteSize then issue .intTooLong
  else
    match looseInt? s with
    | some n => .ok n
    | none => issue .notReadAsInt

def integer : Value → Check Int
  | .int n => .ok n
  | .bool b => .ok (if b then 1 else 0)
  | .double x => intOfDouble x
  | .text s => integerOfText s
  | .octets bytes => (textOfOctets .notReadAsInt bytes).andThen integerOfText
  | _ => issue .notInt

def integerWithin (least : Int) (most : Option Int) (v : Value) : Check Int :=
  (integer v).andThen fun n =>
    if n < least then issue .tooSmall
    else if most.any (· < n) then issue .tooLarge
    else .ok n

/-- Checks the items of a list, each at its own place. -/
def items (item : Value → Check α) : Nat → List Value → Check (List α)
  | _, [] => .ok []
  | n, v :: vs => ((item v).under (.index n)).both (items item (n + 1) vs) |>.map fun p => p.1 :: p.2

def listOf (item : Value → Check α) : Value → Check (List α)
  | .list vs => items item 0 vs
  | _ => issue .notList

/-- The key under which a field is given, with its value: the wire name before the plain one. -/
def find? (r : Record Value) (wire plain : String) : Option (String × Value) :=
  match Record.get? r wire with
  | some v => some (wire, v)
  | none => (Record.get? r plain).map fun v => (plain, v)

def required (r : Record Value) (wire plain : String) (read : Value → Check α) : Check α :=
  match find? r wire plain with
  | some (key, v) => (read v).under (.key key)
  | none => .issues [⟨[.key wire], .missing⟩]

def optional (r : Record Value) (wire plain : String) (default : α) (read : Value → Check α) :
    Check α :=
  match find? r wire plain with
  | some (key, v) => (read v).under (.key key)
  | none => .ok default

/-- The fields of a record under keys that no field of a form was read from. Each field of the
form is given by its wire name and its plain name. -/
def others (r : Record Value) (names : List (String × String)) : Record Value :=
  let used := names.filterMap fun n => (find? r n.1 n.2).map Prod.fst
  r.filter fun p => !used.contains p.1

def textFields (entries : List (Value × Value)) : Record Value :=
  entries.filterMap fun e => e.1.text?.map fun key => (key, e.2)

def stepTo (key : Value) : Step := .key (key.asNumber.plain.toOption.getD "")

def keysAreTexts (entries : List (Value × Value)) : Check Unit :=
  match entries.filter fun e => e.1.text?.isNone with
  | [] => .ok ()
  | others => .issues (others.map fun e => ⟨[stepTo e.1], .keyNotText⟩)

/-- Reads the fields of a record. A table that has keys of other kinds is refused. -/
def onRecord (read : Record Value → Check α) : Value → Check α
  | .record r => read r
  | .table entries => ((read (textFields entries)).both (keysAreTexts entries)).map Prod.fst
  | _ => issue .notRecord

end Check

end Switchboard
