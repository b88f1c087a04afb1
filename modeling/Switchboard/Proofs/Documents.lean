import Switchboard.Proofs.Numerals
import Switchboard.Rule.File

/-!
# Where the writing of a document ends

A value is written node by node. Writing ends at the first node that cannot be written: the absent
value, after which the document counts as having no content, or a node that stands too deep or is
an integer past the digit limit, after which it does not.
-/
namespace Switchboard

namespace Value

/-- A part of a value that is being written, with the room for values within each other that is
left for it. -/
structure Node where
  room : Nat
  value : Value

mutual

/-- The nodes of a value, in the order in which they are written. -/
def nodes (room : Nat) : Value → List Node
  | .list items => ⟨room, .list items⟩ :: nodesOfItems (room - 1) items
  | .record fields => ⟨room, .record fields⟩ :: nodesOfFields (room - 1) fields
  | .table entries => ⟨room, .table entries⟩ :: nodesOfEntries (room - 1) entries
  | v => [⟨room, v⟩]

def nodesOfItems (room : Nat) : List Value → List Node
  | [] => []
  | item :: items => nodes room item ++ nodesOfItems room items

def nodesOfFields (room : Nat) : List (String × Value) → List Node
  | [] => []
  | (_, value) :: fields => nodes room value ++ nodesOfFields room fields

def nodesOfEntries (room : Nat) : List (Value × Value) → List Node
  | [] => []
  | (key, value) :: entries =>
    nodes room key ++ (nodes room value ++ nodesOfEntries room entries)

end

theorem nodesOfItems_eq (room : Nat) (items : List Value) :
    nodesOfItems room items = items.flatMap (nodes room) := by
  induction items with
  | nil => rfl
  | cons item items ih => rw [nodesOfItems, ih, List.flatMap_cons]

namespace Node

/-- The node stands too deep, or is an integer past the digit limit. -/
def Breaks (p : Node) : Prop := p.room = 0 ∨ ∃ n, p.value = .int n ∧ IsOverlong n

/-- The fault of writing a node. -/
def fault? (p : Node) : Option Fault :=
  match p.room, p.value with
  | 0, _ => some .nestedTooDeep
  | _ + 1, .absent => some (.document .content)
  | _ + 1, .int n => match intText n with
    | .ok _ => none
    | .error f => some f
  | _ + 1, _ => none

theorem intText_eq_error {n : Int} {f : Fault} (h : intText n = .error f) :
    f = .numeralTooLong := by
  unfold intText at h
  dsimp only at h
  by_cases hlen : (Nat.toDigits 10 n.natAbs).length ≤ Number.digitLimit
  · simp [hlen] at h
  · simpa [hlen, eq_comm] using h

/-- A fault of a node is one of the document or comes of a node that breaks off. -/
theorem fault?_cases (p : Node) :
    p.Breaks ∧ (∃ f, p.fault? = some f ∧ f.isOfDocument = false) ∨
    ¬ p.Breaks ∧ (p.value = .absent ∧ p.fault? = some (.document .content) ∨
      p.value ≠ .absent ∧ p.fault? = none) := by
  obtain ⟨room, v⟩ := p
  cases room with
  | zero => exact Or.inl ⟨Or.inl rfl, .nestedTooDeep, rfl, by decide⟩
  | succ room =>
    cases v with
    | int n =>
      have hf := faults_intText n
      cases h : intText n with
      | ok s =>
        have hn : ¬ IsOverlong n := fun hn => by simpa [h] using hf.mpr hn
        exact Or.inr ⟨by simpa [Breaks] using hn, Or.inr ⟨by simp, by simp [fault?, h]⟩⟩
      | error f =>
        obtain rfl := intText_eq_error h
        have hn : IsOverlong n := hf.mp ⟨_, h⟩
        exact Or.inl ⟨Or.inr ⟨n, rfl, hn⟩, .numeralTooLong, by simp [fault?, h], by decide⟩
    | absent => exact Or.inr ⟨by simp [Breaks], Or.inl ⟨rfl, rfl⟩⟩
    | _ => exact Or.inr ⟨by simp [Breaks], Or.inr ⟨by simp, rfl⟩⟩

end Node

/-- The fault of the first node that cannot be written. -/
def writeFault? (ps : List Node) : Option Fault := ps.findSome? Node.fault?

theorem writeFault?_append (ps qs : List Node) :
    writeFault? (ps ++ qs) = (writeFault? ps).or (writeFault? qs) := List.findSome?_append

/-- Writing the nodes breaks off before it comes to anything absent. -/
def BreaksOff (ps : List Node) : Prop :=
  ∃ before p after, ps = before ++ p :: after ∧ p.Breaks ∧ ∀ q ∈ before, q.value ≠ .absent

theorem breaksOff_cons {p : Node} {ps : List Node} :
    BreaksOff (p :: ps) ↔ p.Breaks ∨ p.value ≠ .absent ∧ BreaksOff ps := by
  constructor
  · rintro ⟨before, q, after, he, hq, hb⟩
    cases before with
    | nil =>
      obtain ⟨rfl, -⟩ := List.cons.inj he
      exact Or.inl hq
    | cons r before =>
      obtain ⟨rfl, rfl⟩ := List.cons.inj he
      exact Or.inr ⟨hb p List.mem_cons_self, before, q, after, rfl, hq,
        fun r hr => hb r (List.mem_cons_of_mem _ hr)⟩
  · rintro (hp | ⟨hp, before, q, after, rfl, hq, hb⟩)
    · exact ⟨[], p, ps, rfl, hp, by simp⟩
    · exact ⟨p :: before, q, after, rfl, hq, by simpa using ⟨hp, hb⟩⟩

/-- Where nothing is absent, writing breaks off at the first node that lets it. -/
theorem breaksOff_of_mem {p : Node} {ps : List Node} (hp : p ∈ ps) (h : p.Breaks)
    (present : ∀ q ∈ ps, q.value ≠ .absent) : BreaksOff ps := by
  obtain ⟨before, after, rfl⟩ := List.append_of_mem hp
  exact ⟨before, p, after, rfl, h, fun q hq => present q (List.mem_append_left _ hq)⟩

theorem writeFault?_cons (p : Node) (ps : List Node) :
    writeFault? (p :: ps) = p.fault?.or (writeFault? ps) := by
  unfold writeFault?
  rw [List.findSome?_cons]
  cases p.fault? <;> rfl

/-- Writing ends with a fault that is not of the document exactly where it breaks off. -/
theorem writeFault?_breaksOff (ps : List Node) :
    (∃ f, writeFault? ps = some f ∧ f.isOfDocument = false) ↔ BreaksOff ps := by
  induction ps with
  | nil => simp [writeFault?, BreaksOff]
  | cons p ps ih =>
    rw [writeFault?_cons, breaksOff_cons, ← ih]
    rcases p.fault?_cases with ⟨hp, f, hf, hd⟩ | ⟨hp, ⟨ha, hf⟩ | ⟨ha, hf⟩⟩
    · exact iff_of_true ⟨f, by rw [hf, Option.some_or], hd⟩ (Or.inl hp)
    · simp [hf, hp, ha, Fault.isOfDocument, Fault.family]
    · simp [hf, hp, ha]

/-- Writing ends with a fault of the document exactly where something is absent and writing does not
break off before it. -/
theorem writeFault?_ofDocument (ps : List Node) :
    (∃ f, writeFault? ps = some f ∧ f.isOfDocument = true) ↔
      (∃ p ∈ ps, p.value = .absent) ∧ ¬ BreaksOff ps := by
  induction ps with
  | nil => simp [writeFault?]
  | cons p ps ih =>
    rw [writeFault?_cons, breaksOff_cons]
    rcases p.fault?_cases with ⟨hp, f, hf, hd⟩ | ⟨hp, ⟨ha, hf⟩ | ⟨ha, hf⟩⟩
    · simp [hf, hp, hd]
    · simp [hf, hp, ha, Fault.isOfDocument, Fault.family]
    · simp [hf, hp, ha, ih]

end Value

/-- The fault of an operation, if it has one. -/
def faultOf {α : Type} : Except Fault α → Option Fault
  | .ok _ => none
  | .error f => some f

theorem faultOf_bind_pure {α β : Type} (e : Except Fault α) (f : α → β) :
    faultOf (e >>= fun a => pure (f a)) = faultOf e := by cases e <;> rfl

theorem faultOf_bind_bind_pure {α β γ : Type} (e : Except Fault α) (d : Except Fault β)
    (f : α → β → γ) :
    faultOf (e >>= fun a => d >>= fun b => pure (f a b)) = (faultOf e).or (faultOf d) := by
  cases e <;> cases d <;> rfl

namespace Yaml

open Value

/-- Without room nothing is written, and the first node says so. -/
theorem writeFault?_nodes_zero (v : Value) : writeFault? (v.nodes 0) = some .nestedTooDeep := by
  cases v <;> rfl

mutual

theorem faultOf_readBackWithin :
    ∀ (room : Nat) (v : Value), faultOf (readBackWithin room v) = writeFault? (v.nodes room)
  | 0, v => by
    rw [writeFault?_nodes_zero, readBackWithin]
    rfl
  | room + 1, .int n => by
    unfold readBackWithin nodes writeFault?
    cases h : intText n <;> simp [Node.fault?, h] <;> rfl
  | room + 1, .list items => by
    rw [readBackWithin, nodes, faultOf_bind_pure]
    exact faultOf_readBackItems room items
  | room + 1, .record fields => by
    rw [readBackWithin, nodes, faultOf_bind_pure]
    exact faultOf_readBackFields room fields
  | room + 1, .table entries => by
    rw [readBackWithin, nodes, faultOf_bind_pure]
    exact faultOf_readBackEntries room entries
  | _ + 1, .absent | _ + 1, .null | _ + 1, .bool _ | _ + 1, .double _ | _ + 1, .text _
  | _ + 1, .octets _ | _ + 1, .stamp _ => rfl

theorem faultOf_readBackItems (room : Nat) :
    ∀ items : List Value,
      faultOf (readBackItems room items) = writeFault? (nodesOfItems room items)
  | [] => rfl
  | item :: items => by
    rw [readBackItems, nodesOfItems, writeFault?_append, faultOf_bind_bind_pure,
      faultOf_readBackWithin room item, faultOf_readBackItems room items]

theorem faultOf_readBackFields (room : Nat) :
    ∀ fields : List (String × Value),
      faultOf (readBackFields room fields) = writeFault? (nodesOfFields room fields)
  | [] => rfl
  | (_, value) :: fields => by
    rw [readBackFields, nodesOfFields, writeFault?_append, faultOf_bind_bind_pure,
      faultOf_readBackWithin room value, faultOf_readBackFields room fields]

theorem faultOf_readBackEntries (room : Nat) :
    ∀ entries : List (Value × Value),
      faultOf (readBackEntries room entries) = writeFault? (nodesOfEntries room entries)
  | [] => rfl
  | (key, value) :: entries => by
    have hkey := faultOf_readBackWithin room key
    have hvalue := faultOf_readBackWithin room value
    have hentries := faultOf_readBackEntries room entries
    rw [readBackEntries, nodesOfEntries, writeFault?_append, writeFault?_append, ← hkey, ← hvalue,
      ← hentries]
    cases readBackWithin room key with
    | error f => rfl
    | ok k => exact faultOf_bind_bind_pure _ _ _

end

end Yaml

namespace RuleFile

/-- The nodes of some rules in their document, in which they stand below the document and the
list. -/
def nodesOf (rules : List Rule) : List Value.Node :=
  rules.flatMap fun r => r.toValue.nodes (Yaml.nestingLimit - 2)

theorem writeFault?_document (rules : List Rule) (now : Int) :
    Value.writeFault? ((document rules now).nodes Yaml.nestingLimit) =
      Value.writeFault? (nodesOf rules) := by
  have hrules : Value.nodesOfItems (Yaml.nestingLimit - 2) (rules.map Rule.toValue) =
      nodesOf rules := by
    rw [Value.nodesOfItems_eq, List.flatMap_map]
    rfl
  rw [← hrules, document]
  simp only [Value.nodes, Value.nodesOfFields, List.append_nil]
  rfl

/-- A save that gives no answer has broken off in writing the rules. -/
theorem faults_save (f : RuleFile) (rules : List Rule) (now : Int) :
    Faults (f.save rules now).2 ↔ f.file.writable = true ∧ Value.BreaksOff (nodesOf rules) := by
  have hfault := Yaml.faultOf_readBackWithin Yaml.nestingLimit (document rules now)
  rw [writeFault?_document] at hfault
  rw [← Value.writeFault?_breaksOff, ← hfault]
  cases hw : f.file.writable with
  | false => simp [save, hw]
  | true =>
    have hback : Yaml.readBackWithin Yaml.nestingLimit (document rules now) =
        Yaml.readBack (document rules now) := rfl
    rw [hback]
    cases hr : Yaml.readBack (document rules now) with
    | ok v => simp [save, hw, hr, faultOf]
    | error e => cases he : e.isOfDocument <;> simp [save, hw, hr, he, faultOf]

end RuleFile

end Switchboard
