import Switchboard.Proofs.RuleForms

/-!
# The two spellings of the fields of rules

Some fields of a rule have a plain name besides the one on the wire. Records that differ only in
which of the two they use are read alike: as rules that differ at most in further keys of these
names, or with rejections whose places differ at most in the spelling.
-/
namespace Switchboard

/-- The fields of rules that have two names, by their wire name and their plain name. -/
def Rule.spellings : List (String × String) :=
  [("blockDefault", "block_default"), ("conditionGroups", "condition_groups"),
   ("groupLogic", "group_logic"), ("conditionLogic", "condition_logic")]

namespace Spelling

/-- The spellings of the fields that are chosen by their wire names. -/
def among (chosen : String → Bool) : List (String × String) :=
  Rule.spellings.filter fun n => chosen n.1

/-- The key in its plain spelling, if it is the wire name of a chosen field. -/
def respell (chosen : String → Bool) (key : String) : String :=
  ((among chosen).lookup key).getD key

/-- Whether the key is one of the two names of a chosen field. -/
def names (chosen : String → Bool) (key : String) : Bool :=
  (among chosen).any fun n => key = n.1 || key = n.2

theorem spellings_apart : ∀ n ∈ Rule.spellings, ∀ m ∈ Rule.spellings,
    n.1 ≠ m.2 ∧ (n.1 = m.1 → n = m) ∧ (n.2 = m.2 → n = m) := by decide

variable {chosen : String → Bool}

theorem mem_spellings {n : String × String} (hn : n ∈ among chosen) : n ∈ Rule.spellings :=
  (List.mem_filter.mp hn).1

theorem wire_ne_plain {n m : String × String} (hn : n ∈ Rule.spellings) (hm : m ∈ Rule.spellings) :
    n.1 ≠ m.2 := (spellings_apart n hn m hm).1

theorem names_eq_true {key : String} :
    names chosen key = true ↔ ∃ n ∈ among chosen, key = n.1 ∨ key = n.2 := by
  simp [names]

theorem names_eq_false {key : String} :
    names chosen key = false ↔ ∀ n ∈ among chosen, key ≠ n.1 ∧ key ≠ n.2 := by
  simp [names]

theorem respell_cases (chosen : String → Bool) (key : String) :
    (∃ n ∈ among chosen, key = n.1 ∧ respell chosen key = n.2) ∨
      (∀ n ∈ among chosen, key ≠ n.1) ∧ respell chosen key = key := by
  cases h : (among chosen).lookup key with
  | some plain =>
    refine Or.inl ⟨(key, plain), Record.mem_of_get?_eq_some h, rfl, ?_⟩
    simp [respell, h]
  | none =>
    refine Or.inr ⟨?_, by simp [respell, h]⟩
    rintro n hn rfl
    exact Record.get?_eq_none_iff.mp h (List.mem_map_of_mem hn)

/-- Only whether the key itself is chosen counts. -/
theorem respell_congr {other : String → Bool} {key : String} (h : chosen key = other key) :
    respell chosen key = respell other key := by
  have hlookup : ∀ c : String → Bool, (among c).lookup key =
      if c key then Rule.spellings.lookup key else none :=
    fun c => Record.get?_filter_key c Rule.spellings key
  rw [respell, respell, hlookup, hlookup, h]

theorem respell_wire {n : String × String} (hn : n ∈ among chosen) : respell chosen n.1 = n.2 := by
  rcases respell_cases chosen n.1 with ⟨m, hm, hkey, he⟩ | ⟨hne, -⟩
  · rw [he, (spellings_apart n (mem_spellings hn) m (mem_spellings hm)).2.1 hkey]
  · exact absurd rfl (hne n hn)

theorem respell_plain {n : String × String} (hn : n ∈ among chosen) : respell chosen n.2 = n.2 := by
  rcases respell_cases chosen n.2 with ⟨m, hm, hkey, -⟩ | ⟨-, he⟩
  · exact absurd hkey.symm (wire_ne_plain (mem_spellings hm) (mem_spellings hn))
  · exact he

theorem respell_of_names_eq_false {key : String} (h : names chosen key = false) :
    respell chosen key = key := by
  rcases respell_cases chosen key with ⟨n, hn, hkey, -⟩ | ⟨-, he⟩
  · exact absurd hkey (names_eq_false.mp h n hn).1
  · exact he

@[simp] theorem names_respell (key : String) :
    names chosen (respell chosen key) = names chosen key := by
  rcases respell_cases chosen key with ⟨n, hn, hkey, he⟩ | ⟨-, he⟩
  · rw [he, names_eq_true.mpr ⟨n, hn, Or.inr rfl⟩, names_eq_true.mpr ⟨n, hn, Or.inl hkey⟩]
  · rw [he]

/-- No key is given a wire name. -/
theorem respell_ne_wire {n : String × String} (hn : n ∈ among chosen) (key : String) :
    respell chosen key ≠ n.1 := by
  rcases respell_cases chosen key with ⟨m, hm, -, he⟩ | ⟨hne, he⟩
  · rw [he]
    exact (wire_ne_plain (mem_spellings hn) (mem_spellings hm)).symm
  · rw [he]
    exact hne n hn

/-- The plain name of a chosen field is given to its two names. -/
theorem respell_eq_plain {n : String × String} (hn : n ∈ among chosen) {key : String} :
    respell chosen key = n.2 ↔ key = n.1 ∨ key = n.2 := by
  constructor
  · intro h
    rcases respell_cases chosen key with ⟨m, hm, hkey, he⟩ | ⟨-, he⟩
    · have hnm := (spellings_apart m (mem_spellings hm) n (mem_spellings hn)).2.2 (he.symm.trans h)
      exact Or.inl (hnm ▸ hkey)
    · exact Or.inr (he.symm.trans h)
  · rintro (rfl | rfl)
    · exact respell_wire hn
    · exact respell_plain hn

/-- A field with two names that is not chosen shares no name with one that is, and neither does a
key that is no name of such a field. -/
theorem names_of_not_mem {n : String × String} (hn : n ∈ Rule.spellings) (hout : n ∉ among chosen) :
    names chosen n.1 = false ∧ names chosen n.2 = false := by
  simp only [names_eq_false]
  constructor
  · intro m hm
    refine ⟨?_, wire_ne_plain hn (mem_spellings hm)⟩
    intro he
    exact hout ((spellings_apart n hn m (mem_spellings hm)).2.1 he ▸ hm)
  · intro m hm
    refine ⟨(wire_ne_plain (mem_spellings hm) hn).symm, ?_⟩
    intro he
    exact hout ((spellings_apart n hn m (mem_spellings hm)).2.2 he ▸ hm)

theorem names_of_not_spelled {key : String} (h : ∀ n ∈ Rule.spellings, key ≠ n.1 ∧ key ≠ n.2) :
    names chosen key = false :=
  names_eq_false.mpr fun n hn => h n (mem_spellings hn)

end Spelling

open Spelling

/-! ## Checks up to the spelling -/

/-- The issue with the first step towards its place in the plain spelling. -/
def Issue.respell (chosen : String → Bool) (i : Issue) : Issue :=
  match i.place with
  | .key key :: rest => { i with place := .key (Spelling.respell chosen key) :: rest }
  | _ => i

/-- A rejection with its issues in the plain spelling. -/
def Fault.respell (chosen : String → Bool) : Fault → Fault
  | .rejected j => .rejected { j with issues := j.issues.map (Issue.respell chosen) }
  | f => f

namespace Check

variable {α β : Type} (chosen : String → Bool)

/-- The issues of a check in the plain spelling. -/
def respell : Check α → Check α
  | .issues found => .issues (found.map (Issue.respell chosen))
  | c => c

@[simp] theorem respell_ok (a : α) : (Check.ok a).respell chosen = .ok a := rfl

@[simp] theorem respell_map' (f : α → β) (x : Check α) :
    (x.map f).respell chosen = (x.respell chosen).map f := by
  cases x <;> rfl

@[simp] theorem respell_both (x : Check α) (y : Check β) :
    (x.both y).respell chosen = (x.respell chosen).both (y.respell chosen) := by
  cases x <;> cases y <;> simp [both, respell]

@[simp] theorem respell_seq (f : Check (α → β)) (x : Check α) :
    (f <*> x).respell chosen = f.respell chosen <*> x.respell chosen := by
  change ((both f x).map _).respell chosen = (both _ _).map _
  rw [respell_map', respell_both]

@[simp] theorem respell_map (f : α → β) (x : Check α) :
    (f <$> x).respell chosen = f <$> x.respell chosen := respell_seq chosen (.ok f) x

theorem respell_under (key : String) (x : Check α) :
    (x.under (.key key)).respell chosen = x.under (.key (Spelling.respell chosen key)) := by
  cases x with
  | issues found => simp [under, respell, Issue.respell]
  | _ => rfl

variable {chosen}

/-- Two records have the same value for a field, under keys that are the same in the plain
spelling. -/
def SameField (chosen : String → Bool) (m₁ m₂ : Record Value) (n : String × String) : Prop :=
  (find? m₁ n.1 n.2).map (Prod.map (Spelling.respell chosen) id) =
    (find? m₂ n.1 n.2).map (Prod.map (Spelling.respell chosen) id)

section Fields

variable {m₁ m₂ : Record Value} {n : String × String}

theorem SameField.cases (h : SameField chosen m₁ m₂ n) :
    (find? m₁ n.1 n.2 = none ∧ find? m₂ n.1 n.2 = none) ∨
      ∃ k₁ k₂ v, find? m₁ n.1 n.2 = some (k₁, v) ∧ find? m₂ n.1 n.2 = some (k₂, v) ∧
        Spelling.respell chosen k₁ = Spelling.respell chosen k₂ := by
  unfold SameField at h
  rcases h₁ : find? m₁ n.1 n.2 with _ | ⟨k₁, v₁⟩ <;> rcases h₂ : find? m₂ n.1 n.2 with _ | ⟨k₂, v₂⟩
  · exact Or.inl ⟨rfl, rfl⟩
  · rw [h₁, h₂] at h
    cases h
  · rw [h₁, h₂] at h
    cases h
  · rw [h₁, h₂] at h
    simp only [Option.map_some, Prod.map, id, Option.some.injEq, Prod.mk.injEq] at h
    obtain ⟨hkey, rfl⟩ := h
    exact Or.inr ⟨k₁, k₂, v₁, rfl, rfl, hkey⟩

theorem SameField.of_get? (hwire : Record.get? m₁ n.1 = Record.get? m₂ n.1)
    (hplain : Record.get? m₁ n.2 = Record.get? m₂ n.2) : SameField chosen m₁ m₂ n := by
  unfold SameField find?
  rw [hwire, hplain]

theorem SameField.optional (h : SameField chosen m₁ m₂ n) (default : α) (read : Value → Check α) :
    (optional m₁ n.1 n.2 default read).respell chosen =
      (optional m₂ n.1 n.2 default read).respell chosen := by
  unfold Check.optional
  rcases h.cases with ⟨h₁, h₂⟩ | ⟨k₁, k₂, v, h₁, h₂, hkey⟩
  · rw [h₁, h₂]
  · simp only [h₁, h₂, respell_under, hkey]

theorem SameField.required (h : SameField chosen m₁ m₂ n) (read : Value → Check α) :
    (required m₁ n.1 n.2 read).respell chosen = (required m₂ n.1 n.2 read).respell chosen := by
  unfold Check.required
  rcases h.cases with ⟨h₁, h₂⟩ | ⟨k₁, k₂, v, h₁, h₂, hkey⟩
  · rw [h₁, h₂]
  · simp only [h₁, h₂, respell_under, hkey]

end Fields

end Check

/-! ## Records up to the spelling -/

/-- The fields of a record whose keys are no names of chosen fields. -/
def Record.unspelled (chosen : String → Bool) (m : Record Value) : Record Value :=
  m.filter fun p => !names chosen p.1

theorem Record.unspelled_eq_self {chosen : String → Bool} {m : Record Value}
    (h : ∀ n ∈ among chosen, get? m n.1 = none ∧ get? m n.2 = none) : m.unspelled chosen = m := by
  refine List.filter_eq_self.mpr fun p hp => ?_
  rw [Bool.not_eq_true', names_eq_false]
  intro n hn
  have hkey : p.1 ∈ keys m := List.mem_map_of_mem hp
  constructor
  · intro he
    exact get?_eq_none_iff.mp (h n hn).1 (he ▸ hkey)
  · intro he
    exact get?_eq_none_iff.mp (h n hn).2 (he ▸ hkey)

/-- Two records have the same chosen fields, each under one of its names, and the same further
keys. -/
structure Record.Alike (chosen : String → Bool) (m₁ m₂ : Record Value) : Prop where
  field : ∀ n ∈ among chosen, Check.SameField chosen m₁ m₂ n
  further : m₁.unspelled chosen = m₂.unspelled chosen

namespace Record.Alike

variable {chosen : String → Bool} {m₁ m₂ : Record Value}

theorem get?_eq (h : Alike chosen m₁ m₂) {key : String} (hkey : names chosen key = false) :
    get? m₁ key = get? m₂ key := by
  have hfilter : ∀ m : Record Value, get? (m.unspelled chosen) key = get? m key := by
    intro m
    rw [unspelled, get?_filter_key fun k => !names chosen k, hkey]
    rfl
  rw [← hfilter m₁, h.further, hfilter m₂]

theorem sameField (h : Alike chosen m₁ m₂) {n : String × String} (hn : n ∈ Rule.spellings) :
    Check.SameField chosen m₁ m₂ n := by
  by_cases hin : n ∈ among chosen
  · exact h.field n hin
  · obtain ⟨hwire, hplain⟩ := names_of_not_mem hn hin
    exact .of_get? (h.get?_eq hwire) (h.get?_eq hplain)

/-- A field that has one name is the same in both records. -/
theorem sameField_of_not_spelled (h : Alike chosen m₁ m₂) (key : String)
    (hkey : ∀ n ∈ Rule.spellings, key ≠ n.1 ∧ key ≠ n.2) :
    Check.SameField chosen m₁ m₂ (key, key) :=
  .of_get? (h.get?_eq (names_of_not_spelled hkey)) (h.get?_eq (names_of_not_spelled hkey))

theorem sameFields (h : Alike chosen m₁ m₂) {fields : List (String × String)}
    (hfields : ∀ n ∈ fields, n ∈ Rule.spellings ∨
      n.1 = n.2 ∧ ∀ m ∈ Rule.spellings, n.1 ≠ m.1 ∧ n.1 ≠ m.2) :
    ∀ n ∈ fields, Check.SameField chosen m₁ m₂ n := by
  intro n hn
  rcases hfields n hn with hspelled | ⟨he, hkey⟩
  · exact h.sameField hspelled
  · obtain ⟨wire, plain⟩ := n
    obtain rfl : wire = plain := he
    exact h.sameField_of_not_spelled wire hkey

theorem unspelled_erase (m : Record Value) (key : String) :
    (erase m key).unspelled chosen = erase (m.unspelled chosen) key := by
  simp only [unspelled, erase, List.filter_filter, Bool.and_comm]

theorem erase_of_not_spelled (h : Alike chosen m₁ m₂) (key : String)
    (hkey : ∀ n ∈ Rule.spellings, key ≠ n.1 ∧ key ≠ n.2) :
    Alike chosen (erase m₁ key) (erase m₂ key) := by
  constructor
  · intro n hn
    obtain ⟨hwire, hplain⟩ := hkey n (mem_spellings hn)
    have hfield := h.field n hn
    simp only [Check.SameField, Check.find?, get?_erase_of_ne hwire.symm,
      get?_erase_of_ne hplain.symm] at hfield ⊢
    exact hfield
  · rw [unspelled_erase, unspelled_erase, h.further]

/-- A field may be taken out of both records under both of its names. -/
theorem erase_field (h : Alike chosen m₁ m₂) {n : String × String} (hn : n ∈ Rule.spellings) :
    Alike chosen (erase (erase m₁ n.1) n.2) (erase (erase m₂ n.1) n.2) := by
  constructor
  · intro m hm
    have hne := spellings_apart n hn m (mem_spellings hm)
    by_cases he : n = m
    · subst he
      have hgone : ∀ r : Record Value, get? (erase (erase r n.1) n.2) n.1 = none := by
        intro r
        rw [get?_erase_of_ne (wire_ne_plain hn hn), get?_erase_self]
      exact .of_get? (by rw [hgone, hgone]) (by rw [get?_erase_self, get?_erase_self])
    · have hwire : ∀ r : Record Value, get? (erase (erase r n.1) n.2) m.1 = get? r m.1 := by
        intro r
        rw [get?_erase_of_ne (wire_ne_plain (mem_spellings hm) hn),
          get?_erase_of_ne fun hw => he (hne.2.1 hw.symm)]
      have hplain : ∀ r : Record Value, get? (erase (erase r n.1) n.2) m.2 = get? r m.2 := by
        intro r
        rw [get?_erase_of_ne fun hp => he (hne.2.2 hp.symm), get?_erase_of_ne hne.1.symm]
      have hfield := h.field m hm
      simp only [Check.SameField, Check.find?, hwire, hplain] at hfield ⊢
      exact hfield
  · simp only [unspelled_erase, h.further]

/-- The keys that a form is read from are the same in the plain spelling, so what else there is
differs at most in names of chosen fields. -/
theorem unspelled_others (h : Alike chosen m₁ m₂) {fields : List (String × String)}
    (hfields : ∀ n ∈ fields, Check.SameField chosen m₁ m₂ n) :
    Record.unspelled chosen (Check.others m₁ fields) =
      Record.unspelled chosen (Check.others m₂ fields) := by
  let used (m : Record Value) : List String :=
    fields.filterMap fun n => (Check.find? m n.1 n.2).map Prod.fst
  have hused : ∀ key, names chosen key = false → (key ∈ used m₁ ↔ key ∈ used m₂) := by
    intro key hkey
    simp only [used, List.mem_filterMap]
    refine exists_congr fun n => and_congr_right fun hn => ?_
    rcases (hfields n hn).cases with ⟨h₁, h₂⟩ | ⟨k₁, k₂, v, h₁, h₂, hk⟩
    · rw [h₁, h₂]
    · have hself : ∀ k, k = key → Spelling.respell chosen k = key := by
        rintro k rfl
        exact respell_of_names_eq_false hkey
      have hback : ∀ k, Spelling.respell chosen k = key → k = key := by
        intro k hk
        have hout : names chosen k = false := by rw [← names_respell, hk, hkey]
        rw [← hk, respell_of_names_eq_false hout]
      simp only [h₁, h₂, Option.map_some, Option.some.injEq]
      exact ⟨fun he => hback k₂ (hk ▸ hself k₁ he), fun he => hback k₁ (hk ▸ hself k₂ he)⟩
  have hswap : ∀ m : Record Value, Record.unspelled chosen (Check.others m fields) =
      (m.unspelled chosen).filter fun p => !(used m).contains p.1 := by
    intro m
    simp only [unspelled, Check.others, List.filter_filter, used, Bool.and_comm]
  rw [hswap, hswap, h.further]
  refine List.filter_congr fun p hp => ?_
  have hkey : names chosen p.1 = false := by simpa using (List.mem_filter.mp hp).2
  simp only [List.contains_eq_mem, hused p.1 hkey]

end Record.Alike

/-! ## Rules up to the spelling -/

namespace Rule

/-- The rule without further keys that are names of chosen fields. -/
def unspelled (chosen : String → Bool) (r : Rule) : Rule :=
  { r with extras := r.extras.unspelled chosen }

/-- What is read as a rule, up to the spelling of chosen fields. -/
def unspelledResult (chosen : String → Bool) : Except Fault Rule → Except Fault Rule
  | .ok r => .ok (r.unspelled chosen)
  | .error f => .error (f.respell chosen)

variable {chosen : String → Bool} {m₁ m₂ : Record Value}

theorem unspelledResult_run {c₁ c₂ : Check Rule}
    (h : (c₁.map (unspelled chosen)).respell chosen = (c₂.map (unspelled chosen)).respell chosen)
    (form : String) :
    unspelledResult chosen (c₁.run form) = unspelledResult chosen (c₂.run form) := by
  cases c₁ <;> cases c₂ <;>
    simp_all [Check.map, Check.respell, Check.run, unspelledResult, Fault.respell]

theorem map_ofRecordWith (m : Record Value) (shape : Check Shape) (extras : Record Value) :
    (ofRecordWith m shape extras).map (unspelled chosen) =
      ofRecordWith m shape (extras.unspelled chosen) := by
  unfold ofRecordWith
  rw [Check.seq_ok, Check.seq_ok, Check.map'_map']
  refine Check.map'_congr fun g hg => ?_
  simp only [Check.seq_eq_ok, Check.map_eq_ok] at hg
  obtain ⟨_, ⟨_, ⟨_, ⟨_, ⟨_, ⟨id, -, rfl⟩, name, -, rfl⟩, enabled, -, rfl⟩, block, -, rfl⟩,
    actions, -, rfl⟩, s, -, rfl⟩ := hg
  rfl

/-- Two records that are alike are read alike, whatever the shape is read from. -/
theorem ofRecordWith_alike (h : Record.Alike chosen m₁ m₂) {s₁ s₂ : Check Shape}
    (hshape : s₁.respell chosen = s₂.respell chosen) {e₁ e₂ : Record Value}
    (hextras : e₁.unspelled chosen = e₂.unspelled chosen) :
    ((ofRecordWith m₁ s₁ e₁).map (unspelled chosen)).respell chosen =
      ((ofRecordWith m₂ s₂ e₂).map (unspelled chosen)).respell chosen := by
  have hid := (h.sameField_of_not_spelled "id" (by decide)).optional none readId
  have hname := (h.sameField_of_not_spelled "name" (by decide)).optional ""
    (unlessNull "" Check.text)
  have henabled := (h.sameField_of_not_spelled "enabled" (by decide)).optional true
    (unlessNull true Check.flag)
  have hblock := (h.sameField (n := ("blockDefault", "block_default")) (by decide)).optional false
    (unlessNull false Check.flag)
  have hactions := (h.sameField_of_not_spelled "actions" (by decide)).optional []
    (listIfGiven Action.read)
  rw [map_ofRecordWith, map_ofRecordWith, hextras]
  simp only [ofRecordWith, Check.respell_seq, Check.respell_map, hid, hname, henabled, hblock,
    hactions, hshape]

theorem readGrouped_alike (h : Record.Alike chosen m₁ m₂) :
    ((readGrouped m₁).map (unspelled chosen)).respell chosen =
      ((readGrouped m₂).map (unspelled chosen)).respell chosen := by
  have hgroups := (h.sameField (n := ("conditionGroups", "condition_groups")) (by decide)).required
    (Check.listOf ConditionGroup.read)
  have hlogic := (h.sameField (n := ("groupLogic", "group_logic")) (by decide)).optional "OR"
    (readLogic "OR")
  refine ofRecordWith_alike h ?_ (h.unspelled_others (h.sameFields ?_))
  · simp only [Check.respell_seq, Check.respell_map, hgroups, hlogic]
  · decide

theorem readFlat_alike (h : Record.Alike chosen m₁ m₂) :
    ((readFlat m₁).map (unspelled chosen)).respell chosen =
      ((readFlat m₂).map (unspelled chosen)).respell chosen := by
  have hconditions := (h.sameField_of_not_spelled "conditions" (by decide)).optional []
    (listIfGiven Condition.read)
  have hlogic := (h.sameField (n := ("conditionLogic", "condition_logic")) (by decide)).optional
    "AND" (readLogic "AND")
  refine ofRecordWith_alike h ?_ (h.unspelled_others (h.sameFields ?_))
  · simp only [Check.respell_seq, Check.respell_map, hconditions, hlogic]
  · decide

theorem groupsOf_alike (h : Record.Alike chosen m₁ m₂) : groupsOf m₁ = groupsOf m₂ := by
  rw [groupsOf_eq, groupsOf_eq]
  rcases (h.sameField (n := ("conditionGroups", "condition_groups")) (by decide)).cases with
    ⟨h₁, h₂⟩ | ⟨k₁, k₂, v, h₁, h₂, -⟩
  · rw [h₁, h₂]
  · rw [h₁, h₂]
    rfl

/-- The further keys of a rule are those of the record that its shape is read from, which has
nothing that was not given. -/
theorem extras_of_ofRecord {m : Record Value} {r : Rule} (h : ofRecord m = .ok r) :
    ∃ m', r.extras = Check.others m' r.shape.names ∧
      ∀ key, Record.get? m key = none → Record.get? m' key = none := by
  have h := Check.run_eq_ok.mp h
  unfold check at h
  dsimp only at h
  split at h
  · obtain ⟨-, hshape, hextras⟩ := ofRecordWith_eq_ok h
    simp only [Check.seq_eq_ok, Check.map_eq_ok] at hshape
    obtain ⟨_, ⟨groups, -, rfl⟩, logic, -, hshape⟩ := hshape
    refine ⟨_, by rw [hextras, ← hshape]; rfl, ?_⟩
    intro key hkey
    exact Record.get?_filter_eq_none hkey _
  · obtain ⟨-, hshape, hextras⟩ := ofRecordWith_eq_ok h
    simp only [Check.seq_eq_ok, Check.map_eq_ok] at hshape
    obtain ⟨_, ⟨conditions, -, rfl⟩, logic, -, hshape⟩ := hshape
    refine ⟨_, by rw [hextras, ← hshape]; rfl, ?_⟩
    intro key hkey
    refine Record.get?_filter_eq_none (Record.get?_filter_eq_none ?_ _) _
    exact Record.get?_filter_eq_none hkey _

/-- A rule has no further key that is a name of a chosen field if all of these are fields of its
shape and none was given under both of its names. -/
theorem unspelled_eq_self {m : Record Value} {r : Rule} (h : ofRecord m = .ok r)
    (own : ∀ n ∈ among chosen, n ∈ r.shape.names)
    (once : ∀ n ∈ among chosen, Record.get? m n.1 = none ∨ Record.get? m n.2 = none) :
    r.unspelled chosen = r := by
  obtain ⟨m', hextras, hsub⟩ := extras_of_ofRecord h
  have hnone : ∀ n ∈ among chosen, Record.get? r.extras n.1 = none ∧
      Record.get? r.extras n.2 = none := by
    intro n hn
    rw [hextras]
    refine ⟨Check.get?_others_wire m' (own n hn), ?_⟩
    have hdistinct : n.2 ≠ n.1 := (wire_ne_plain (mem_spellings hn) (mem_spellings hn)).symm
    rw [Check.get?_others_plain m' (own n hn) hdistinct ?_]
    · rintro ⟨hwire, hplain⟩
      rcases once n hn with hnone | hnone <;> simp [Record.has, hsub _ hnone] at hwire hplain
    · have hapart : ∀ n ∈ Rule.spellings, ∀ m ∈ groupedNames ++ flatNames,
          n.2 = m.1 ∨ n.2 = m.2 → m = n := by decide
      intro m hm
      refine hapart n (mem_spellings hn) m ?_
      cases hs : r.shape <;> simp_all [Shape.names]
  rw [unspelled, Record.unspelled_eq_self hnone]

/-- Records that are alike up to the spelling of chosen fields are read as rules that are, or are
refused with issues that are. -/
theorem ofRecord_alike (h : Record.Alike chosen m₁ m₂) :
    unspelledResult chosen (ofRecord m₁) = unspelledResult chosen (ofRecord m₂) := by
  have hshape := h.erase_of_not_spelled "shape" (by decide)
  have hflat := hshape.erase_field (n := ("conditionGroups", "condition_groups")) (by decide)
  simp only [ofRecord, check, groupsOf_alike hshape]
  split
  · exact unspelledResult_run (readGrouped_alike hshape) _
  · exact unspelledResult_run (readFlat_alike hflat) _

end Rule

end Switchboard
