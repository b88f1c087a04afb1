import Switchboard.Yaml.Numeral
import Switchboard.Yaml.Stamp

/-!
# Nodes

A document is a tree of nodes, and each node has a type. A plain scalar without a type of its own
has the one that its text looks like.
-/
namespace Switchboard.Yaml

inductive Kind
  | null
  | bool
  | int
  | double
  | octets
  | stamp
  | text
  | sequence
  | mapping
  | set
  | pairs
  /-- The key whose value is merged into a mapping. -/
  | merge
  /-- The key that stands for the value of a mapping as a scalar. -/
  | value
  | unknown
  deriving DecidableEq

/-- The start of the tags of all types but the unknown ones. -/
def kindStart : String := "tag:yaml.org,2002:"

namespace Kind

def names : List (String × Kind) :=
  [("null", .null), ("bool", .bool), ("int", .int), ("float", .double), ("binary", .octets),
   ("timestamp", .stamp), ("str", .text), ("seq", .sequence), ("map", .mapping), ("set", .set),
   ("omap", .pairs), ("pairs", .pairs), ("merge", .merge), ("value", .value)]

def ofTag (tag : String) : Kind :=
  ((names.find? fun n => kindStart ++ n.1 = tag).map Prod.snd).getD .unknown

def nullWords : List String := ["", "~", "null", "Null", "NULL"]

def trueWords : List String :=
  ["yes", "Yes", "YES", "true", "True", "TRUE", "on", "On", "ON"]

def falseWords : List String :=
  ["no", "No", "NO", "false", "False", "FALSE", "off", "Off", "OFF"]

/-- The type that a plain text looks like. -/
def ofPlain (s : String) : Kind :=
  let cs := s.toList
  if trueWords.contains s || falseWords.contains s then .bool
  else if isDoubleText cs then .double
  else if isIntText cs then .int
  else if s = "<<" then .merge
  else if nullWords.contains s then .null
  else if Stamp.isPlain cs then .stamp
  else if s = "=" then .value
  else if s = "!" || s = "&" || s = "*" then .unknown
  else .text

end Kind

inductive Node
  | scalar (kind : Kind) (text : String)
  | sequence (kind : Kind) (items : List Node)
  | mapping (kind : Kind) (entries : List (Node × Node))

namespace Node

def kind : Node → Kind
  | .scalar k _ => k
  | .sequence k _ => k
  | .mapping k _ => k

/-- The node that stands where there is nothing. -/
def nothing : Node := .scalar .null ""

end Node

end Switchboard.Yaml
