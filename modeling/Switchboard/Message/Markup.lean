import Switchboard.Value.Text

/-!
# Markup in comments

A comment may hold emoji as image tags, and it writes the three characters that tags are made of
as entities. Tags are taken out before entities are decoded, so that text a viewer typed is never
taken for a tag.
-/
namespace Switchboard.Markup

/-- Replaces every occurrence of a pattern, from left to right; `skip` characters belong to the
last occurrence. -/
def replaceFrom (pattern replacement : List Char) : Nat → List Char → List Char
  | _, [] => []
  | skip + 1, _ :: cs => replaceFrom pattern replacement skip cs
  | 0, c :: cs =>
    if pattern.isPrefixOf (c :: cs) then
      replacement ++ replaceFrom pattern replacement (pattern.length - 1) cs
    else c :: replaceFrom pattern replacement 0 cs

def replace (pattern replacement : String) (cs : List Char) : List Char :=
  replaceFrom pattern.toList replacement.toList 0 cs

/-- Decodes the three entities. The ampersand comes last, so that nothing is decoded twice. -/
def decodeEntities (cs : List Char) : List Char :=
  replace "&amp;" "&" (replace "&lt;" "<" (replace "&gt;" ">" cs))

def tagBody? (opening : String) (cs : List Char) : Option (List Char) :=
  if opening.toList.isPrefixOf cs then
    let rest := cs.drop opening.length
    let body := rest.takeWhile (· != '>')
    if body.length < rest.length then some body else none
  else none

/-- Replaces tags by what their bodies stand for; a tag that stands for nothing is left as it is.
`skip` characters belong to the last tag. -/
def replaceTags (opening : String) (meaning : List Char → Option (List Char)) :
    Nat → List Char → List Char
  | _, [] => []
  | skip + 1, _ :: cs => replaceTags opening meaning skip cs
  | 0, c :: cs =>
    match tagBody? opening (c :: cs) with
    | some body =>
      match meaning body with
      | some text => text ++ replaceTags opening meaning (opening.length + body.length) cs
      | none => c :: replaceTags opening meaning 0 cs
    | none => c :: replaceTags opening meaning 0 cs

/-- What stands before the last quotation mark. -/
def beforeLastQuote? (cs : List Char) : Option (List Char) :=
  if cs.contains '"' then some ((cs.reverse.dropWhile (· != '"')).drop 1).reverse else none

/-- The text of the last `alt` attribute of a tag that can be read, up to the last quotation mark.
-/
def altText? : List Char → Option (List Char)
  | [] => none
  | c :: cs =>
    match altText? cs with
    | some text => some text
    | none =>
      if "alt=\"".toList.isPrefixOf (c :: cs) then beforeLastQuote? ((c :: cs).drop 5) else none

def placeholder : List Char := ['▯']

def textOf : Value → Except Fault String
  | .null => .ok ""
  | .absent => .ok ""
  | v => v.display

def withPlaceholders (cs : List Char) : List Char :=
  decodeEntities (replaceTags "<img" (fun _ => some placeholder) 0 cs)

def withNames (cs : List Char) : List Char :=
  decodeEntities (replaceTags "<img" (fun _ => some []) 0 (replaceTags "<img " altText? 0 cs))

def plainComment (v : Value) : Except Fault String := do
  return String.ofList (withPlaceholders (← textOf v).toList)

def giftComment (v : Value) : Except Fault String := do
  return String.ofList (withNames (← textOf v).toList)

def sizeSuffix : List Char := "-c-k-c0x00ffffff-no-rj".toList

/-- The text after the last suffix of a line that has at least one character before it. -/
def afterLastSuffix? : List Char → Option (List Char)
  | [] => none
  | _ :: cs =>
    match afterLastSuffix? cs with
    | some rest => some rest
    | none => if sizeSuffix.isPrefixOf cs then some (cs.drop sizeSuffix.length) else none

/-- The address of a profile image in the size that is asked for; only the first size is changed. -/
def resizeImage : List Char → List Char
  | [] => []
  | '=' :: 's' :: cs =>
    let line := cs.takeWhile (· != '\n')
    match afterLastSuffix? line with
    | some rest => "=s240".toList ++ sizeSuffix ++ rest ++ cs.drop line.length
    | none => '=' :: resizeImage ('s' :: cs)
  | c :: cs => c :: resizeImage cs

@[simp] theorem resizeImage_nil : resizeImage [] = [] := by simp [resizeImage]

end Switchboard.Markup
