import Switchboard.Text.Word

/-!
# Patterns written for a browser

Patterns are written in a browser, whose spelling of named groups, of references to them and of
the class of all characters differs from the one read here. Three passes over the text replace
these spellings one after the other, and leave all other text as it is.
-/
namespace Switchboard.Pattern

/-- Marks the openings of named groups; `escaped` tells whether a backslash stands before. -/
def markNamedGroups : Bool → List Char → List Char
  | _, [] => []
  | escaped, '(' :: '?' :: '<' :: cs =>
    match cs with
    | '=' :: _ => '(' :: '?' :: '<' :: markNamedGroups false cs
    | '!' :: _ => '(' :: '?' :: '<' :: markNamedGroups false cs
    | _ => (if escaped then ['(', '?', '<'] else ['(', '?', 'P', '<']) ++ markNamedGroups false cs
  | _, c :: cs => c :: markNamedGroups (c = '\\') cs

def namedBackref? : List Char → Option (List Char)
  | '\\' :: 'k' :: '<' :: cs =>
    match cs.takeWhile Text.isWord, cs.dropWhile Text.isWord with
    | [], _ => none
    | name, '>' :: _ => some name
    | _, _ => none
  | _ => none

/-- Respells the references to named groups; `skip` characters belong to the last one. -/
def respellBackrefs : Nat → List Char → List Char
  | _, [] => []
  | skip + 1, _ :: cs => respellBackrefs skip cs
  | 0, c :: cs =>
    match namedBackref? (c :: cs) with
    | some name =>
      "(?P=".toList ++ name ++ ')' :: respellBackrefs (name.length + 3) cs
    | none => c :: respellBackrefs 0 cs

def respellAnything : List Char → List Char
  | [] => []
  | '[' :: '^' :: ']' :: cs => "[\\s\\S]".toList ++ respellAnything cs
  | c :: cs => c :: respellAnything cs

def ofBrowser (s : String) : String :=
  String.ofList (respellAnything (respellBackrefs 0 (markNamedGroups false s.toList)))

@[simp] theorem respellAnything_nil : respellAnything [] = [] := rfl

end Switchboard.Pattern
