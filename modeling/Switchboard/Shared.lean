import Switchboard.Path

/-!
# Shared values

One record may stand at several places at once: in the raw data of a comment, in the message made
of it and in what is sent of that. Every record therefore carries a label, and a write to a label
shows wherever the label stands. The plain value of a shared one forgets the labels.
-/
namespace Switchboard

inductive Shared
  /-- A value without parts. -/
  | leaf (v : Value)
  | list (items : List Shared)
  | record (label : Nat) (fields : List (String × Shared))

namespace Shared

def absent : Shared := .leaf .absent

def isAbsent : Shared → Bool
  | .leaf v => v.isAbsent
  | _ => false

mutual

def plain : Shared → Value
  | .leaf v => v
  | .list items => .list (plainItems items)
  | .record _ fields => .record (plainFields fields)

def plainItems : List Shared → List Value
  | [] => []
  | s :: ss => plain s :: plainItems ss

def plainFields : List (String × Shared) → List (String × Value)
  | [] => []
  | (key, s) :: ss => (key, plain s) :: plainFields ss

end

mutual

/-- A value whose records are labelled from `next` on, with the next free label. -/
def label : Value → Nat → Shared × Nat
  | .list items, next =>
    let (ss, next) := labelItems items next
    (.list ss, next)
  | .record fields, next =>
    let (ss, after) := labelFields fields (next + 1)
    (.record next ss, after)
  | v, next => (.leaf v, next)

def labelItems : List Value → Nat → List Shared × Nat
  | [], next => ([], next)
  | v :: vs, next =>
    let (s, next) := label v next
    let (ss, next) := labelItems vs next
    (s :: ss, next)

def labelFields : List (String × Value) → Nat → List (String × Shared) × Nat
  | [], next => ([], next)
  | (key, v) :: vs, next =>
    let (s, next) := label v next
    let (ss, next) := labelFields vs next
    ((key, s) :: ss, next)

end

/-- The value that one segment of a path selects. -/
def select (s : Shared) (segment : String) : Except Fault Shared :=
  match s with
  | .record _ fields => .ok ((Record.get? fields segment).getD absent)
  | .list items => do
    match ← Path.position segment with
    | some n => return items.getD n absent
    | none => return absent
  | .leaf v => do return .leaf (← Path.select v segment)

def follow : List String → Shared → Except Fault Shared
  | [], s => .ok s
  | k :: ks, s => do
    let t ← select s k
    if t.isAbsent then return absent else follow ks t

def read (s : Shared) (p : Path) : Except Fault Shared := follow p.segments s

/-- The value at the end of a chain of keys that lead through records. -/
def field? : List String → Shared → Option Shared
  | [], s => some s
  | k :: ks, .record _ fields => (Record.get? fields k).bind (field? ks)
  | _ :: _, _ => none

/-- A write of a value under a key of a labelled record. -/
structure Write where
  label : Nat
  key : String
  value : Shared

mutual

/-- The value after a write: it shows in every record of its label. -/
def apply (w : Write) : Shared → Shared
  | .leaf v => .leaf v
  | .list items => .list (applyItems w items)
  | .record l fields =>
    let fields := applyFields w fields
    .record l (if l = w.label then Record.put w.key w.value fields else fields)

def applyItems (w : Write) : List Shared → List Shared
  | [] => []
  | s :: ss => apply w s :: applyItems w ss

def applyFields (w : Write) : List (String × Shared) → List (String × Shared)
  | [] => []
  | (key, s) :: ss => (key, apply w s) :: applyFields w ss

end

/-- A value under a chain of new records, and the next free label. -/
def chain : List String → Shared → Nat → Shared × Nat
  | [], value, next => (value, next)
  | k :: ks, value, next =>
    let (inner, after) := chain ks value (next + 1)
    (.record next [(k, inner)], after)

/-- The write that puts a value at nested segments of a record: it goes to the last record on the
way that is there, and brings the missing ones along. -/
def writeAt (label : Nat) (fields : Record Shared) (first : String) (rest : List String)
    (value : Shared) (next : Nat) : Write × Nat :=
  match rest with
  | [] => (⟨label, first, value⟩, next)
  | k :: ks =>
    match Record.get? fields first with
    | some (.record l inner) => writeAt l inner k ks value next
    | _ =>
      let (made, after) := chain (k :: ks) value next
      (⟨label, first, made⟩, after)

@[simp] theorem plain_leaf (v : Value) : plain (.leaf v) = v := by simp [plain]

end Shared

end Switchboard
