/-!
# Faults

The reasons for which an operation gives no result. A rejected record lists every place at which
it breaks the form asked for.
-/
namespace Switchboard

/-- Why a value does not have the form asked for at some place. -/
inductive Reason
  | missing
  | notText
  | notUnicode
  | notList
  | notRecord
  | keyNotText
  | notBool
  | notReadAsBool
  | notInt
  | notReadAsInt
  | intTooLong
  | hasFraction
  | notFinite
  | tooSmall
  | tooLarge
  | notAChoice
  | noText
  deriving DecidableEq

namespace Reason

def name : Reason → String
  | .missing => "missing"
  | .notText => "string_type"
  | .notUnicode => "string_unicode"
  | .notList => "list_type"
  | .notRecord => "model_type"
  | .keyNotText => "invalid_key"
  | .notBool => "bool_type"
  | .notReadAsBool => "bool_parsing"
  | .notInt => "int_type"
  | .notReadAsInt => "int_parsing"
  | .intTooLong => "int_parsing_size"
  | .hasFraction => "int_from_float"
  | .notFinite => "finite_number"
  | .tooSmall => "greater_than_equal"
  | .tooLarge => "less_than_equal"
  | .notAChoice => "literal_error"
  | .noText => "value_error"

end Reason

inductive Step
  | key (name : String)
  | index (n : Nat)
  deriving DecidableEq

structure Issue where
  place : List Step
  reason : Reason
  deriving DecidableEq

/-- A record that was refused, by the name of the form it was read as. -/
structure Rejection where
  form : String
  issues : List Issue
  deriving DecidableEq

inductive DocumentFault
  | character
  | token
  | arrangement
  /-- A name in it stands for no part of it, or for two, or another document follows. -/
  | reference
  | content
  deriving DecidableEq

inductive Expectation
  | condition
  | ruleTest
  | testMessage
  | message
  | ruleChanges
  | settings
  | comments
  deriving DecidableEq

namespace Expectation

def text : Expectation → String
  | .condition => "expected \x7bsource, field, operator, value\x7d"
  | .ruleTest => "expected \x7brule, testMessage\x7d"
  | .testMessage => "testMessage must be an object"
  | .message => "expected \x7bmessage: \x7b...\x7d\x7d"
  | .ruleChanges => "rule changes must be an object"
  | .settings => "config must be an object"
  | .comments => "expected \x7bcomments: [...]\x7d"

end Expectation

inductive Fault
  /-- An integer has more digits than its text may have. -/
  | numeralTooLong
  | notANumeral
  /-- An integer lies outside the range of a double or of a machine word. -/
  | numberTooLarge
  | notFinite
  | notARecord
  | unhashableKey
  | notIterable
  | notText
  | notANumber
  | ruleNotARecord (kind : String)
  | unknownFormat (quoted : String)
  | negativeCapacity
  | document (d : DocumentFault)
  | noSuchCharacter
  | noSuchDate
  | notADate
  | unknownWord
  | emptyNumeral
  | notAPair
  /-- A name was used for something further that is taken already. -/
  | reservedName
  | notJson
  | nestedTooDeep
  | unexpected (e : Expectation)
  | rejected (r : Rejection)
  deriving DecidableEq

/-- The families of faults, which are told apart where some of them are made up for. -/
inductive Fault.Family
  | value
  | kind
  | range
  /-- Something asked of a value that it does not have. -/
  | feature
  | name
  /-- A place that a text does not have. -/
  | place
  | depth
  | document
  deriving DecidableEq

namespace Fault

def family : Fault → Family
  | .numeralTooLong | .notANumeral | .unknownFormat _ | .negativeCapacity | .noSuchCharacter
  | .noSuchDate | .notAPair | .notJson | .rejected _ => .value
  | .unhashableKey | .notIterable | .notText | .notANumber | .ruleNotARecord _ | .reservedName
  | .unexpected _ => .kind
  | .numberTooLarge | .notFinite => .range
  | .notARecord | .notADate => .feature
  | .unknownWord => .name
  | .emptyNumeral => .place
  | .nestedTooDeep => .depth
  | .document _ => .document

/-- Whether a document that gives rise to the fault counts as having no content. -/
def isOfDocument (f : Fault) : Bool := f.family = .document

/-- Whether the fault lies in a value that was given, be it of a wrong kind or not acceptable. -/
def isOfInput (f : Fault) : Bool := f.family = .value || f.family = .kind

end Fault

end Switchboard
