import Switchboard.Text.Printable

/-!
# Quoted text

A text in quotes, as it stands inside the printed form of a list or a record. Single quotes are
the rule; double quotes are taken for a text with a single quote and no double one. What is not
printable is written by its code point.
-/
namespace Switchboard.Text

/-- The lower-case hexadecimal digits of a natural, at least `width` of them. -/
def hexDigits (width n : Nat) : List Char :=
  let ds := Nat.toDigits 16 n
  List.replicate (width - ds.length) '0' ++ ds

def quotedChar (quote c : Char) : List Char :=
  if c = quote ∨ c = '\\' then ['\\', c]
  else if c = '\n' then ['\\', 'n']
  else if c = '\r' then ['\\', 'r']
  else if c = '\t' then ['\\', 't']
  else if isPrintable c then [c]
  else if c.toNat ≤ 0xff then '\\' :: 'x' :: hexDigits 2 c.toNat
  else if c.toNat ≤ 0xffff then '\\' :: 'u' :: hexDigits 4 c.toNat
  else '\\' :: 'U' :: hexDigits 8 c.toNat

def quoteFor (cs : List Char) : Char :=
  if cs.contains '\'' && !cs.contains '"' then '"' else '\''

def quoted (s : String) : String :=
  let cs := s.toList
  let q := quoteFor cs
  String.ofList (q :: (cs.flatMap (quotedChar q) ++ [q]))

/-- Octets in quotes; those outside the printable ASCII range are written as numbers. -/
def quotedOctets (octets : List UInt8) : String :=
  let cs := octets.map fun b => Char.ofNat b.toNat
  let q := quoteFor cs
  let shown (c : Char) : List Char :=
    if c.toNat < 0x7f then quotedChar q c else '\\' :: 'x' :: hexDigits 2 c.toNat
  String.ofList ('b' :: q :: (cs.flatMap shown ++ [q]))

example : quoted "it's" = "\"it's\"" := by decide +kernel

end Switchboard.Text
