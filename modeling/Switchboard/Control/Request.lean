import Switchboard.Fault
import Switchboard.Json.Reader
import Switchboard.Text.Quoted

/-!
# Control requests

A request has a method, a target and a body. The target is a path with a query behind a question
mark, and in both of them characters may be written as the octets of their encoding, each after a
percent sign. The body is JSON.
-/
namespace Switchboard.Control

structure Request where
  method : String
  target : String
  body : String := ""

def spanOctets : List Char → List UInt8 × List Char
  | '%' :: a :: b :: r =>
    match Text.hexValue? a, Text.hexValue? b with
    | some x, some y =>
      let (os, rest) := spanOctets r
      (UInt8.ofNat (x * 16 + y) :: os, rest)
    | _, _ => ([], '%' :: a :: b :: r)
  | r => ([], r)

/-- The character whose encoding stands at the start, and how many octets follow its first one. -/
def leadingChar? (os : List UInt8) : Option (Char × Nat) :=
  [0, 1, 2, 3].findSome? fun n =>
    if n < os.length then
      (String.fromUTF8? ⟨(os.take (n + 1)).toArray⟩).bind fun s => s.toList.head?.map (·, n)
    else none

/-- The characters that octets encode. One that is part of no encoding is written as in a target.
`skip` octets belong to the character before. -/
def octetChars : Nat → List UInt8 → List Char
  | _, [] => []
  | skip + 1, _ :: os => octetChars skip os
  | 0, o :: os =>
    match leadingChar? (o :: os) with
    | some (c, n) => c :: octetChars n os
    | none => '%' :: (Text.hexDigits 2 o.toNat).map Char.toUpper ++ octetChars 0 os

/-- The text with its octets decoded. `left` bounds the length. -/
def decodedFrom (plusIsSpace : Bool) : Nat → List Char → List Char
  | 0, cs => cs
  | _ + 1, [] => []
  | left + 1, c :: r =>
    match spanOctets (c :: r) with
    | ([], _) =>
      (if c = '+' && plusIsSpace then ' ' else c) :: decodedFrom plusIsSpace left r
    | (os, rest) => octetChars 0 os ++ decodedFrom plusIsSpace left rest

def decoded (plusIsSpace : Bool) (cs : List Char) : List Char :=
  decodedFrom plusIsSpace cs.length cs

def splitAt (separator : Char) : List Char → List (List Char)
  | [] => [[]]
  | c :: r =>
    if c = separator then [] :: splitAt separator r
    else
      match splitAt separator r with
      | part :: parts => (c :: part) :: parts
      | [] => [[c]]

namespace Request

def whole (q : Request) : List Char := q.target.toList.takeWhile (· != '#')

/-- The decoded segments of the path; none where it does not start with a slash. -/
def segments (q : Request) : List String :=
  match splitAt '/' (q.whole.takeWhile (· != '?')) with
  | [] :: parts => parts.map fun part => String.ofList (decoded false part)
  | _ => []

def query (q : Request) : List (String × String) :=
  let text := (q.whole.dropWhile (· != '?')).drop 1
  let parts := (splitAt '&' text).filter fun part => !part.isEmpty
  parts.map fun part =>
    (String.ofList (decoded true (part.takeWhile (· != '='))),
      String.ofList (decoded true ((part.dropWhile (· != '=')).drop 1)))

def parameter? (q : Request) (name : String) : Option String := q.query.lookup name

/-- The body, and a default for a blank one. -/
def json (q : Request) (default : Value) : Except Fault Value :=
  if q.body.toList.all Text.isBlank then .ok default else Json.read q.body

/-- The fields of the body, which are none for a blank one. -/
def jsonFields (q : Request) (e : Expectation) : Except Fault (Record Value) := do
  match ← q.json (.record []) with
  | .record r => return r
  | _ => throw (.unexpected e)

end Request

end Switchboard.Control
