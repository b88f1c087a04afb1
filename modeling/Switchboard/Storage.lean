import Switchboard.Yaml.Document
import Switchboard.Yaml.ReadBack

/-!
# Storage

A file holds a text, or a document that was written to it and has the value that is read back. A
file at a place that cannot be written is never there.
-/
namespace Switchboard

inductive Content
  | text (s : String)
  | document (v : Value)

def Content.value : Content → Except Fault Value
  | .text s => Yaml.read s
  | .document v => .ok v

structure File where
  content : Option Content := none
  writable : Bool := true

namespace File

def ofText (s : String) : File := { content := some (.text s) }

/-- A file that can never be written. -/
def unwritable : File := { writable := false }

def put (f : File) (c : Content) : File := if f.writable then { f with content := some c } else f

/-- The value of a file; null for one that is not there. -/
def value (f : File) : Except Fault Value :=
  match f.content with
  | some c => c.value
  | none => .ok .null

@[simp] theorem put_content {f : File} (h : f.writable = true) (c : Content) :
    (f.put c).content = some c := by simp [put, h]

@[simp] theorem put_writable (f : File) (c : Content) : (f.put c).writable = f.writable := by
  unfold put
  split <;> rfl

end File

end Switchboard
