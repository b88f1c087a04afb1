import Mathlib
import Switchboard.Proofs.Documents
import Switchboard.Proofs.Forms
import Switchboard.Proofs.Levels
import Switchboard.Proofs.RuleChanges

/-!
# The identifiers of rules

Whatever changes are made, every rule has an identifier of its own that is not empty. A number that
is given out as an identifier is larger than all given out before, and the search for it ends within
as many steps as there are rules. An update keeps the place and the identifier of its rule, and a
delete takes one rule away. A change that fails leaves everything as it was, with one exception: the
rules hold a value that is nested too deep to be written, or an integer past the digit limit. That
is noticed only after the rules have been changed and the file has been emptied.
-/
namespace Switchboard

namespace RuleBook

variable {b : RuleBook} {now : Int}

/-! ## The search for a free number -/

theorem hasId_eq_true {id : String} : b.hasId id = true ↔ some id ∈ b.rules.map (·.id) := by
  unfold hasId
  rw [List.any_eq_true, List.mem_map]
  simp

theorem le_freeFrom (b : RuleBook) (steps : Nat) (n : Int) : n ≤ b.freeFrom steps n := by
  induction steps generalizing n with
  | zero => exact le_refl n
  | succ steps ih =>
    unfold freeFrom
    split
    · exact le_trans (by omega) (ih (n + 1))
    · exact le_refl n

/-- Every number that the search passes is taken. -/
theorem hasId_of_lt_freeFrom (b : RuleBook) (steps : Nat) {n m : Int} (hn : n ≤ m)
    (hm : m < b.freeFrom steps n) : b.hasId (toString m) = true := by
  induction steps generalizing n with
  | zero => simp only [freeFrom] at hm; omega
  | succ steps ih =>
    unfold freeFrom at hm
    split at hm
    · rename_i ht
      by_cases he : n = m
      · exact he ▸ ht
      · exact ih (by omega) hm
    · omega

/-- If the search ends at a number that is taken, it has passed as many as it had steps. -/
theorem freeFrom_of_hasId (b : RuleBook) (steps : Nat) (n : Int)
    (h : b.hasId (toString (b.freeFrom steps n)) = true) : b.freeFrom steps n = n + steps := by
  induction steps generalizing n with
  | zero => simp [freeFrom]
  | succ steps ih =>
    unfold freeFrom at h ⊢
    split at h
    · rename_i ht
      simp only [ht, if_true]
      rw [ih (n + 1) h]
      omega
    · rename_i ht
      exact absurd h ht

theorem toString_injective {m n : Int} (h : toString m = toString n) : m = n := Int.repr_inj.mp h

/-- With one step for each rule the search ends at a number that is free: more numbers than there
are rules cannot all be taken. -/
theorem hasId_freeFrom (b : RuleBook) (n : Int) :
    b.hasId (toString (b.freeFrom b.rules.length n)) = false := by
  rw [Bool.eq_false_iff]
  intro htaken
  have hend := freeFrom_of_hasId b b.rules.length n htaken
  let ids := (List.range (b.rules.length + 1)).map fun i : Nat => some (toString (n + (i : Int)))
  have hnodup : ids.Nodup := by
    refine List.Nodup.map_on ?_ List.nodup_range
    intro i _ j _ he
    have := toString_injective (Option.some.inj he)
    omega
  have hsubset : ids ⊆ b.rules.map (·.id) := by
    intro id hid
    obtain ⟨i, hi, rfl⟩ := List.mem_map.mp hid
    rw [List.mem_range] at hi
    rw [← hasId_eq_true]
    by_cases hlast : i = b.rules.length
    · rw [hlast, ← hend]
      exact htaken
    · exact hasId_of_lt_freeFrom b b.rules.length (n := n) (by omega) (by rw [hend]; omega)
  have hlength := (hnodup.subperm hsubset).length_le
  simp [ids] at hlength

/-- The next number is the first one that is free, from the time or from the last number on. -/
theorem nextId_spec (b : RuleBook) (now : Int) :
    b.hasId (toString (b.nextId now)) = false ∧ max now (b.lastId + 1) ≤ b.nextId now ∧
      ∀ m, max now (b.lastId + 1) ≤ m → m < b.nextId now → b.hasId (toString m) = true :=
  ⟨hasId_freeFrom b _, le_freeFrom b _ _, fun _ => hasId_of_lt_freeFrom b _⟩

/-! ## What one change does to the identifiers -/

/-- The rule comes with an identifier that is not empty and not taken. -/
def keepsId (b : RuleBook) (r : Rule) : Prop := ∃ id, r.id = some id ∧ id ≠ "" ∧ b.hasId id = false

instance (b : RuleBook) (r : Rule) : Decidable (b.keepsId r) :=
  match h : r.id with
  | none => isFalse (by simp [keepsId, h])
  | some id => decidable_of_iff (id ≠ "" ∧ b.hasId id = false) (by simp [keepsId, h])

/-- The numbers that a change gives out as identifiers. -/
def issues (b : RuleBook) (now : Int) : Change → List Int
  | .add rule => match Rule.ofValue rule with
    | .ok r => if b.keepsId r then [] else [b.nextId now]
    | .error _ => []
  | _ => []

/-- The rules of a book have identifiers of their own, and no number that was given out is larger
than the last one. -/
structure Identified (b : RuleBook) (issued : List Int) : Prop where
  named : ∀ r ∈ b.rules, ∃ id, r.id = some id ∧ id ≠ ""
  distinct : (b.rules.map (·.id)).Nodup
  bounded : ∀ n ∈ issued, n ≤ b.lastId
  positive : 0 ≤ b.lastId

theorem insert_eq (b : RuleBook) (r : Rule) (now : Int) :
    b.insert r now =
      if b.keepsId r then (r, { b with rules := b.rules ++ [r] })
      else ({ r with id := some (toString (b.nextId now)) },
        { b with
          rules := b.rules ++ [{ r with id := some (toString (b.nextId now)) }]
          lastId := b.nextId now }) := by
  rcases insert_cases b r now with ⟨id, hid, hne, hfree, he⟩ | ⟨hno, he⟩
  · rw [he, if_pos ⟨id, hid, hne, hfree⟩]
  · rw [he, if_neg]
    rintro ⟨id, hid, hne, hfree⟩
    rcases hno id hid with h | h
    · exact hne h
    · rw [hfree] at h
      cases h

theorem toString_ne_empty (n : Int) : toString n ≠ "" := by
  cases n with
  | ofNat m =>
    change Nat.repr m ≠ ""
    unfold Nat.repr
    simp
  | negSucc m =>
    change "-" ++ Nat.repr (m + 1) ≠ ""
    simp

/-- A rule with an identifier that is free may be put at the end. -/
theorem Identified.append {issued : List Int} (h : b.Identified issued) {r : Rule} {id : String}
    (hid : r.id = some id) (hne : id ≠ "") (hfree : b.hasId id = false) {last : Int}
    (hlast : b.lastId ≤ last) :
    Identified { b with rules := b.rules ++ [r], lastId := last } issued where
  named := by
    intro s hs
    rcases List.mem_append.mp hs with hs | hs
    · exact h.named s hs
    · exact ⟨id, List.mem_singleton.mp hs ▸ hid, hne⟩
  distinct := by
    rw [List.map_append, List.nodup_append]
    refine ⟨h.distinct, by simp, ?_⟩
    intro x hx y hy hxy
    rw [List.map_singleton, List.mem_singleton] at hy
    rw [hxy, hy, hid, ← hasId_eq_true, hfree] at hx
    cases hx
  bounded := fun n hn => le_trans (h.bounded n hn) hlast
  positive := le_trans h.positive hlast

theorem Identified.insert {issued : List Int} (h : b.Identified issued) (r : Rule) (now : Int) :
    (b.insert r now).2.Identified
      (issued ++ if b.keepsId r then [] else [b.nextId now]) := by
  obtain ⟨hfree, hle, -⟩ := nextId_spec b now
  rw [insert_eq]
  split
  · rename_i hk
    obtain ⟨id, hid, hne, hfree⟩ := hk
    rw [List.append_nil]
    exact h.append hid hne hfree (le_refl _)
  · have hlast : b.lastId ≤ b.nextId now := by omega
    have happend := h.append (r := { r with id := some (toString (b.nextId now)) }) rfl
      (toString_ne_empty _) hfree hlast
    refine ⟨happend.named, happend.distinct, ?_, happend.positive⟩
    intro n hn
    rcases List.mem_append.mp hn with hn | hn
    · exact happend.bounded n hn
    · rw [List.mem_singleton.mp hn]

/-! ## The identifier of a rule that is read again -/

/-- A value that was put under a text is found under it. -/
theorem get?_textFields_putEntry (key : String) (value : Value) (es : List (Value × Value)) :
    Record.get? (Check.textFields (Value.putEntry (.text key) value es)) key = some value := by
  induction es with
  | nil => simp [Value.putEntry, Check.textFields, Value.text?, Record.get?_cons]
  | cons e es ih =>
    obtain ⟨k, v⟩ := e
    unfold Value.putEntry
    split
    · rename_i hk
      rw [Value.sameKey_text_eq] at hk
      rw [Value.eq_text_of_isText hk]
      simp [Check.textFields, Value.text?, Record.get?_cons]
    · rename_i hk
      unfold Check.textFields at ih ⊢
      rw [List.filterMap_cons]
      cases k with
      | text s =>
        have hne : key ≠ s := fun he => hk (by simp [he])
        simpa [Value.text?, Record.get?_cons, hne] using ih
      | _ => exact ih

theorem recordOf?_eq_textFields {es : List (Value × Value)} {fields : Record Value}
    (h : Value.recordOf? es = some fields) : fields = Check.textFields es := by
  induction es generalizing fields with
  | nil =>
    simp only [Value.recordOf?, Option.some.injEq] at h
    simp [← h, Check.textFields]
  | cons e es ih =>
    obtain ⟨k, v⟩ := e
    cases k with
    | text s =>
      simp only [Value.recordOf?, Option.map_eq_some_iff] at h
      obtain ⟨rest, hrest, rfl⟩ := h
      simp [ih hrest, Check.textFields, Value.text?]
    | _ => simp [Value.recordOf?] at h

theorem check_of_ofEntries {es : List (Value × Value)} {r : Rule}
    (h : Rule.ofValue (.ofEntries es) = .ok r) : (Rule.check (Check.textFields es)).2 = .ok r := by
  unfold Value.ofEntries at h
  cases hr : Value.recordOf? es with
  | some fields =>
    rw [hr] at h
    rw [← recordOf?_eq_textFields hr]
    exact Check.run_eq_ok.mp h
  | none =>
    rw [hr] at h
    obtain ⟨p, hp, rfl⟩ := Check.map'_eq_ok.mp (Check.run_eq_ok.mp h)
    exact (Check.both_eq_ok.mp hp).1

theorem id_of_ofRecordWith {fields extras : Record Value} {shape : Check Rule.Shape} {r : Rule}
    {id : String} (hid : Record.get? fields "id" = some (.text id))
    (h : Rule.ofRecordWith fields shape extras = .ok r) : r.id = some id := by
  simp only [Rule.ofRecordWith, Check.seq_eq_ok, Check.map_eq_ok] at h
  obtain ⟨_, ⟨_, ⟨_, ⟨_, ⟨_, ⟨_, ⟨found, hf, rfl⟩, _, -, rfl⟩, _, -, rfl⟩, _, -, rfl⟩, _, -, rfl⟩,
    _, -, rfl⟩, _, -, rfl⟩ := h
  simp only [Check.optional, Check.find?, hid, Check.under_eq_ok] at hf
  exact (Check.ok.inj hf).symm

theorem id_of_check {fields : Record Value} {r : Rule} {id : String}
    (hid : Record.get? fields "id" = some (.text id)) (h : (Rule.check fields).2 = .ok r) :
    r.id = some id := by
  have herase : ∀ (s : Record Value) (key : String), "id" ≠ key →
      Record.get? s "id" = some (.text id) → Record.get? (s.erase key) "id" = some (.text id) := by
    intro s key hne hs
    rw [Record.erase, Record.get?_filter_key fun k => k != key]
    simpa [hne] using hs
  have hshape := herase fields "shape" (by simp) hid
  unfold Rule.check at h
  dsimp only at h
  split at h
  · exact id_of_ofRecordWith hshape h
  · exact id_of_ofRecordWith (herase _ _ (by simp) (herase _ _ (by simp) hshape)) h

/-- A rule that is revised keeps its identifier. -/
theorem id_of_revised {r new : Rule} {id : String} {changes : Value}
    (h : revised r id changes = .ok new) : new.id = some id := by
  unfold revised at h
  cases hc : changesOf changes with
  | error e => simp [hc, Except.bind] at h
  | ok entries =>
    rw [hc] at h
    exact id_of_check (get?_textFields_putEntry _ _ _) (check_of_ofEntries h)

/-! ## Updates and deletes -/

/-- The rule that is found stands at its place, and an update replaces it there. -/
theorem replace_of_find? {id : String} {old : Rule} {rules : List Rule}
    (h : rules.find? (·.id = some id) = some old) (new : Rule) :
    ∃ before after, rules = before ++ old :: after ∧ old.id = some id ∧
      replace id new rules = before ++ new :: after := by
  induction rules with
  | nil => cases h
  | cons r rules ih =>
    rw [List.find?_cons] at h
    by_cases hr : r.id = some id
    · simp only [hr, decide_true, Option.some.injEq] at h
      subst h
      exact ⟨[], rules, rfl, hr, by simp [replace, hr]⟩
    · simp only [hr, decide_false] at h
      obtain ⟨before, after, rfl, hid, he⟩ := ih h
      exact ⟨r :: before, after, rfl, hid, by simp [replace, hr, he]⟩

theorem nodup_filterMap {rules : List Rule} (distinct : (rules.map (·.id)).Nodup) :
    (rules.filterMap (·.id)).Nodup := by
  have hid := distinct.filterMap (f := id) fun _ _ _ => by simp +contextual
  rwa [List.filterMap_map] at hid

/-- Where no two rules have the same identifier, a delete takes one rule away. -/
theorem filter_of_hasId {id : String} {rules : List Rule}
    (distinct : (rules.filterMap (·.id)).Nodup) (h : some id ∈ rules.map (·.id)) :
    ∃ before old after, rules = before ++ old :: after ∧ old.id = some id ∧
      rules.filter (·.id != some id) = before ++ after := by
  obtain ⟨old, hm, hid⟩ := List.mem_map.mp h
  obtain ⟨before, after, rfl⟩ := List.append_of_mem hm
  refine ⟨before, old, after, rfl, hid, ?_⟩
  rw [List.filterMap_append, List.filterMap_cons_some hid, List.nodup_middle, List.nodup_cons,
    List.mem_append, not_or] at distinct
  have hother : ∀ rs : List Rule, id ∉ rs.filterMap (·.id) →
      rs.filter (·.id != some id) = rs := by
    intro rs hrs
    refine List.filter_eq_self.mpr fun r hr => ?_
    have hne : r.id ≠ some id := fun he => hrs (List.mem_filterMap.mpr ⟨r, hr, he⟩)
    simpa using hne
  rw [List.filter_append, List.filter_cons, hother before distinct.1.1, hother after distinct.1.2]
  simp [hid]

/-! ## Runs -/

/-- The book after some changes at their times. -/
def run : RuleBook → List (Int × Change) → RuleBook
  | b, [] => b
  | b, (now, c) :: steps => run (b.changed now c) steps

/-- The numbers that the changes of a run give out. -/
def issued : RuleBook → List (Int × Change) → List Int
  | _, [] => []
  | b, (now, c) :: steps => b.issues now c ++ issued (b.changed now c) steps

theorem Identified.persist {p : RuleBook} {is : List Int} (h : p.Identified is) (now : Int) :
    (p.persist now).1.Identified is := by
  refine ⟨?_, ?_, ?_, ?_⟩
  · rw [persist_rules]
    exact h.named
  · rw [persist_rules]
    exact h.distinct
  · rw [persist_lastId]
    exact h.bounded
  · rw [persist_lastId]
    exact h.positive

theorem Identified.replace {is : List Int} (h : b.Identified is) {id : String} {old new : Rule}
    (hold : b.find? id = some old) (hnew : new.id = some id) :
    Identified { b with rules := RuleBook.replace id new b.rules } is := by
  obtain ⟨before, after, hrules, hid, he⟩ := replace_of_find? hold new
  have hids : (RuleBook.replace id new b.rules).map (·.id) = b.rules.map (·.id) := by
    rw [he, hrules]
    simp [hid, hnew]
  refine ⟨?_, ?_, h.bounded, h.positive⟩
  · intro r hr
    have hr : r.id ∈ b.rules.map (·.id) := by
      rw [← hids]
      exact List.mem_map_of_mem hr
    obtain ⟨s, hs, hsid⟩ := List.mem_map.mp hr
    rw [← hsid]
    exact h.named s hs
  · change ((RuleBook.replace id new b.rules).map (·.id)).Nodup
    rw [hids]
    exact h.distinct

theorem Identified.filter {is : List Int} (h : b.Identified is) (keep : Rule → Bool) :
    Identified { b with rules := b.rules.filter keep } is where
  named := fun r hr => h.named r (List.mem_filter.mp hr).1
  distinct := h.distinct.sublist (List.filter_sublist.map _)
  bounded := h.bounded
  positive := h.positive

/-- What one change preserves, whatever becomes of it. -/
theorem Identified.changed {is : List Int} (h : b.Identified is) (now : Int) (c : Change) :
    (b.changed now c).Identified (is ++ b.issues now c) := by
  rw [changed_eq]
  cases hp : b.planned now c with
  | none =>
    have hissues : b.issues now c = [] := by
      cases c with
      | add rule => cases hr : Rule.ofValue rule <;> simp_all [planned, issues, Except.toOption]
      | _ => rfl
    rw [hissues, List.append_nil]
    exact h
  | some p =>
    refine Identified.persist ?_ now
    cases c with
    | add rule =>
      obtain ⟨r, hr, rfl⟩ := planned_add.mp hp
      have hissues : b.issues now (.add rule) = if b.keepsId r then [] else [b.nextId now] := by
        simp only [issues, hr]
      rw [hissues]
      exact h.insert r now
    | update id changes =>
      obtain ⟨old, hold, new, hnew, rfl⟩ := planned_update.mp hp
      change Identified _ (is ++ [])
      rw [List.append_nil]
      exact h.replace hold (id_of_revised hnew)
    | delete id =>
      obtain ⟨-, rfl⟩ := planned_delete.mp hp
      change Identified _ (is ++ [])
      rw [List.append_nil]
      exact h.filter _

/-- What a whole run preserves. -/
theorem Identified.run {is : List Int} (h : b.Identified is) (steps : List (Int × Change)) :
    (b.run steps).Identified (is ++ b.issued steps) := by
  induction steps generalizing b is with
  | nil =>
    rw [issued, List.append_nil]
    exact h
  | cons step steps ih =>
    obtain ⟨now, c⟩ := step
    rw [issued, ← List.append_assoc]
    exact ih (h.changed now c)

/-! ## Changes that fail -/

/-- The rules that a change is to write hold a value that is nested too deep, or an integer past the
digit limit, before anything else that cannot be written, and the file can be written to. -/
def BreaksOff (b : RuleBook) (now : Int) (c : Change) : Prop :=
  ∃ p f, b.planned now c = some p ∧ b.file = some f ∧ f.file.writable = true ∧
    Value.BreaksOff (RuleFile.nodesOf p.rules)

theorem writeFaults_iff {p : RuleBook} : p.WriteFaults now ↔
    ∃ f, p.file = some f ∧ f.file.writable = true ∧
      Value.BreaksOff (RuleFile.nodesOf p.rules) := by
  unfold WriteFaults
  refine exists_congr fun f => ?_
  rw [exists_and_left, ← RuleFile.faults_save f p.rules now]
  rfl

theorem breaksOff_iff {c : Change} :
    b.BreaksOff now c ↔ ∃ p, b.planned now c = some p ∧ p.WriteFaults now := by
  constructor
  · rintro ⟨p, f, hp, hf, h⟩
    exact ⟨p, hp, writeFaults_iff.mpr ⟨f, (planned_file hp).trans hf, h⟩⟩
  · rintro ⟨p, hp, h⟩
    obtain ⟨f, hf, h⟩ := writeFaults_iff.mp h
    exact ⟨p, f, hp, (planned_file hp).symm.trans hf, h⟩

/-- A change that fails for any other reason leaves the book as it was. -/
theorem changed_eq_self {c : Change} (hfails : ¬ b.Succeeds now c) (h : ¬ b.BreaksOff now c) :
    b.changed now c = b := by
  rw [changed_eq]
  cases hp : b.planned now c with
  | none => rfl
  | some p =>
    refine absurd ((succeeds_iff b now c).mpr ⟨p, hp, fun hw => ?_⟩) hfails
    exact h (breaksOff_iff.mpr ⟨p, hp, hw⟩)

/-- Every change of a run that fails leaves the rules and the file as they were. -/
def FailsSafely : RuleBook → List (Int × Change) → Prop
  | _, [] => True
  | b, (now, c) :: steps =>
    (¬ b.Succeeds now c → (b.changed now c).rules = b.rules ∧ (b.changed now c).file = b.file) ∧
      FailsSafely (b.changed now c) steps

/-- No change of a run breaks off in writing. -/
def WritesOn : RuleBook → List (Int × Change) → Prop
  | _, [] => True
  | b, (now, c) :: steps => ¬ b.BreaksOff now c ∧ WritesOn (b.changed now c) steps

/-- The rules of the book could be written again. -/
def Rewritable (b : RuleBook) : Prop :=
  ∀ f, b.file = some f → f.file.writable = true → ¬ Value.BreaksOff (RuleFile.nodesOf b.rules)

theorem rewritable_of_empty (h : b.rules = []) : b.Rewritable := by
  rw [Rewritable, h]
  rintro f - - ⟨before, p, after, he, -⟩
  cases before <;> cases he

theorem writable_save (f : RuleFile) (rules : List Rule) (now : Int) :
    (f.save rules now).1.file.writable = f.file.writable := by
  cases hw : f.file.writable with
  | false => rw [RuleFile.save_of_not_writable hw, hw]
  | true =>
    cases hr : Yaml.readBack (RuleFile.document rules now) with
    | ok v => simp [RuleFile.save_of_readBack hw hr, RuleFile.rewritten, hw]
    | error e => simp [RuleFile.save_of_fault hw hr, RuleFile.rewritten, hw]

theorem Rewritable.changed (h : b.Rewritable) {c : Change} (hc : ¬ b.BreaksOff now c) :
    (b.changed now c).Rewritable := by
  rw [changed_eq]
  cases hp : b.planned now c with
  | none => exact h
  | some p =>
    intro f hf hw
    rw [persist_file, Option.map_eq_some_iff] at hf
    obtain ⟨g, hg, rfl⟩ := hf
    rw [writable_save] at hw
    rw [persist_rules]
    exact fun hb => hc ⟨p, g, hp, (planned_file hp).symm.trans hg, hw, hb⟩

theorem BreaksOff.not_succeeds {c : Change} (h : b.BreaksOff now c) : ¬ b.Succeeds now c := by
  obtain ⟨p, hp, hfault⟩ := breaksOff_iff.mp h
  intro hs
  obtain ⟨q, hq, hno⟩ := (succeeds_iff b now c).mp hs
  rw [hp, Option.some.injEq] at hq
  exact hno (hq ▸ hfault)

/-- A change that breaks off fails and has changed the rules. -/
theorem not_safe_of_breaksOff (h : b.Rewritable) {c : Change} (hc : b.BreaksOff now c) :
    ¬ b.Succeeds now c ∧ (b.changed now c).rules ≠ b.rules := by
  refine ⟨hc.not_succeeds, ?_⟩
  obtain ⟨p, hp, hfault⟩ := breaksOff_iff.mp hc
  obtain ⟨f, hf, hw, hb⟩ := writeFaults_iff.mp hfault
  intro hrules
  rw [changed_eq, hp] at hrules
  simp only [persist_rules] at hrules
  exact h f ((planned_file hp).symm.trans hf) hw (hrules ▸ hb)

/-- A run fails safely exactly if none of its changes breaks off. -/
theorem failsSafely_iff (h : b.Rewritable) (steps : List (Int × Change)) :
    b.FailsSafely steps ↔ b.WritesOn steps := by
  induction steps generalizing b with
  | nil => exact Iff.rfl
  | cons step steps ih =>
    obtain ⟨now, c⟩ := step
    by_cases hc : b.BreaksOff now c
    · obtain ⟨hfails, hrules⟩ := not_safe_of_breaksOff h hc
      exact iff_of_false (fun hs => hrules (hs.1 hfails).1) (fun hw => hw.1 hc)
    · have hsafe : ¬ b.Succeeds now c →
          (b.changed now c).rules = b.rules ∧ (b.changed now c).file = b.file := by
        intro hfails
        rw [changed_eq_self hfails hc]
        exact ⟨rfl, rfl⟩
      have hrest := ih (h.changed hc)
      exact ⟨fun hs => ⟨hc, hrest.mp hs.2⟩, fun hw => ⟨hsafe, hrest.mpr hw.2⟩⟩

/-! ## The answers of the changes -/

theorem add_eq_ok {rule : Value} {r : Rule} (h : (b.add rule now).2 = .ok r) :
    ∃ s, Rule.ofValue rule = .ok s ∧ r = (b.insert s now).1 ∧
      (b.add rule now).1.rules = (b.insert s now).2.rules := by
  unfold add at h ⊢
  cases hs : Rule.ofValue rule with
  | error e => simp [hs] at h
  | ok s =>
    simp only [hs, after_snd_eq_ok] at h
    exact ⟨s, rfl, h.2, by simp [after_fst]⟩

theorem update_eq_ok {id : String} {changes : Value} {r : Rule}
    (h : (b.update id changes now).2 = .ok (some r)) :
    ∃ old, b.find? id = some old ∧ revised old id changes = .ok r ∧
      (b.update id changes now).1.rules = replace id r b.rules := by
  unfold update at h ⊢
  cases hf : b.find? id with
  | none => simp [hf] at h
  | some old =>
    cases hr : revised old id changes with
    | error e =>
      unfold revised at hr
      simp [hf, hr] at h
    | ok new =>
      have hnew := hr
      unfold revised at hr
      simp only [hf, hr, after_snd_eq_ok, Option.some.injEq] at h
      rw [h.2]
      exact ⟨old, rfl, hnew, by simp [hr, after_fst]⟩

theorem delete_eq_ok {id : String} (h : (b.delete id now).2 = .ok true) :
    b.hasId id = true ∧ (b.delete id now).1.rules = b.rules.filter (·.id != some id) := by
  unfold delete at h ⊢
  cases hid : b.hasId id with
  | false => simp [hid] at h
  | true => exact ⟨rfl, by simp [after_fst]⟩

/-- An add puts one rule at the end, with its own identifier if that is free and else with a number
larger than all given out before. -/
theorem Identified.add_appends {is : List Int} (hb : b.Identified is) {rule : Value} {r : Rule}
    (h : (b.add rule now).2 = .ok r) :
    ∃ s, Rule.ofValue rule = .ok s ∧ (b.add rule now).1.rules = b.rules ++ [r] ∧
      (b.keepsId s → r = s) ∧
      (¬ b.keepsId s → ∃ n : Int, r = { s with id := some (toString n) } ∧ 0 < n ∧
        b.hasId (toString n) = false ∧ ∀ m ∈ is, m < n) := by
  obtain ⟨s, hs, hr, hrules⟩ := add_eq_ok h
  obtain ⟨hfree, hle, -⟩ := nextId_spec b now
  rw [insert_eq] at hr hrules
  refine ⟨s, hs, ?_, ?_, ?_⟩
  · rw [hrules, hr]
    split <;> rfl
  · intro hk
    rw [hr, if_pos hk]
  · intro hk
    have hpositive := hb.positive
    refine ⟨b.nextId now, by rw [hr, if_neg hk], by omega, hfree, ?_⟩
    intro m hm
    have := hb.bounded m hm
    omega

/-- An update changes one rule, at its place. -/
theorem update_in_place {id : String} {changes : Value} {r : Rule}
    (h : (b.update id changes now).2 = .ok (some r)) :
    ∃ before old after, b.rules = before ++ old :: after ∧ old.id = some id ∧ r.id = some id ∧
      (b.update id changes now).1.rules = before ++ r :: after := by
  obtain ⟨old, hold, hrevised, hrules⟩ := update_eq_ok h
  obtain ⟨before, after, hsplit, hid, hreplace⟩ := replace_of_find? hold r
  exact ⟨before, old, after, hsplit, hid, id_of_revised hrevised, hrules.trans hreplace⟩

/-- A delete takes one rule away. -/
theorem Identified.delete_removes {is : List Int} (hb : b.Identified is) {id : String}
    (h : (b.delete id now).2 = .ok true) :
    ∃ before old after, b.rules = before ++ old :: after ∧ old.id = some id ∧
      (b.delete id now).1.rules = before ++ after := by
  obtain ⟨hid, hrules⟩ := delete_eq_ok h
  obtain ⟨before, old, after, hsplit, hold, hfilter⟩ :=
    filter_of_hasId (nodup_filterMap hb.distinct) (hasId_eq_true.mp hid)
  exact ⟨before, old, after, hsplit, hold, hrules.trans hfilter⟩

theorem start_eq {given : Option (List Value)} {file : Option RuleFile}
    (h : RuleBook.start given file = .ok b) (empty : b.rules = []) : b = { file := file } := by
  have hfile : b.file = file ∧ b.lastId = 0 := by
    unfold start at h
    rcases given with _ | values <;> rcases file with _ | f
    · obtain rfl := Except.ok.inj h
      exact ⟨rfl, rfl⟩
    · cases hl : f.load with
      | error e => simp [hl, bind, Except.bind] at h
      | ok rules =>
        simp only [hl] at h
        obtain rfl := Except.ok.inj h
        exact ⟨rfl, rfl⟩
    all_goals
      cases hr : readAll values with
      | error e => simp [hr, bind, Except.bind] at h
      | ok rules =>
        simp only [hr] at h
        obtain rfl := Except.ok.inj h
        exact ⟨rfl, rfl⟩
  obtain ⟨rules, f, last⟩ := b
  obtain ⟨rfl, rfl⟩ := hfile
  simp only at empty
  rw [empty]

/-- A book that starts without rules comes, by any changes at any times, to rules with identifiers
of their own. From there an add puts one rule at the end, with its own identifier if that is free
and else with a number larger than all given out before; an update changes one rule at its place;
a delete takes one rule away. A run fails safely exactly if none of its changes breaks off in
writing. -/
theorem run_identified {given : Option (List Value)} {file : Option RuleFile} {b₀ : RuleBook}
    (started : start given file = .ok b₀) (empty : b₀.rules = []) (steps : List (Int × Change)) :
    let b := b₀.run steps
    (∀ r ∈ b.rules, ∃ id, r.id = some id ∧ id ≠ "") ∧ (b.rules.map (·.id)).Nodup ∧
    (∀ rule now r, (b.add rule now).2 = .ok r →
      ∃ s, Rule.ofValue rule = .ok s ∧ (b.add rule now).1.rules = b.rules ++ [r] ∧
        (b.keepsId s → r = s) ∧
        (¬ b.keepsId s → ∃ n : Int, r = { s with id := some (toString n) } ∧ 0 < n ∧
          b.hasId (toString n) = false ∧ ∀ m ∈ b₀.issued steps, m < n)) ∧
    (∀ id changes now r, (b.update id changes now).2 = .ok (some r) →
      ∃ before old after, b.rules = before ++ old :: after ∧ old.id = some id ∧ r.id = some id ∧
        (b.update id changes now).1.rules = before ++ r :: after) ∧
    (∀ id now, (b.delete id now).2 = .ok true →
      ∃ before old after, b.rules = before ++ old :: after ∧ old.id = some id ∧
        (b.delete id now).1.rules = before ++ after) ∧
    (b₀.FailsSafely steps ↔ b₀.WritesOn steps) := by
  intro b
  obtain rfl := start_eq started empty
  have hstart : Identified { file := file } [] := ⟨by simp, by simp, by simp, le_refl _⟩
  have hb : b.Identified (issued { file := file } steps) := hstart.run steps
  refine ⟨hb.named, hb.distinct, ?_, ?_, ?_, ?_⟩
  · intro rule now r h
    exact hb.add_appends h
  · intro id changes now r h
    exact update_in_place h
  · intro id now h
    exact hb.delete_removes h
  · exact failsSafely_iff (rewritable_of_empty rfl) steps

theorem run_identified_unnamed :
    let b := run {} [(5, .add (.record [])), (5, .add (.record [])),
      (3, .add (.record [("id", .text "6")]))]
    b.rules.map (·.id) = [some "5", some "6", some "7"] ∧ (b.rules.map (·.id)).Nodup ∧
      ∀ r ∈ b.rules, ∃ id, r.id = some id ∧ id ≠ "" := by
  have h := @run_identified none none {} rfl rfl [(5, .add (.record [])), (5, .add (.record [])),
    (3, .add (.record [("id", .text "6")]))]
  exact ⟨by decide +kernel, h.2.1, h.1⟩

theorem nodes_nestedLists (room n : Nat) :
    ∀ p ∈ (Value.nestedLists n).nodes room, p.value ≠ .absent := by
  induction n generalizing room with
  | zero => simp [Value.nestedLists, Value.nodes, Value.nodesOfItems]
  | succ n ih => simpa [Value.nestedLists, Value.nodes, Value.nodesOfItems] using ih (room - 1)

theorem breaks_nestedLists {room n : Nat} (h : room ≤ n) :
    ∃ p ∈ (Value.nestedLists n).nodes room, p.Breaks := by
  induction n generalizing room with
  | zero => exact ⟨⟨room, .list []⟩, List.mem_cons_self, Or.inl (Nat.le_zero.mp h)⟩
  | succ n ih =>
    obtain ⟨p, hp, hbreaks⟩ := @ih (room - 1) (by omega)
    exact ⟨p, by simp [Value.nestedLists, Value.nodes, Value.nodesOfItems, hp], hbreaks⟩

/-- A rule with a note that has one item. -/
def noted (v : Value) : Rule := { id := some "a", extras := [("note", .list [v])] }

theorem nodesOf_noted (v : Value) : RuleFile.nodesOf [noted v] =
    [⟨326, (noted v).toValue⟩, ⟨325, .text "a"⟩, ⟨325, .text ""⟩, ⟨325, .bool true⟩,
      ⟨325, .bool false⟩, ⟨325, .list []⟩, ⟨325, .list []⟩, ⟨325, .text "AND"⟩,
      ⟨325, .list [v]⟩] ++ v.nodes 324 := by
  have hnil : v.nodes 324 = v.nodes 324 ++ [] ++ [] ++ [] := by simp only [List.append_nil]
  rw [hnil]
  rfl

/-- A rule with a note that is nested too deep is refused after it has been added. -/
theorem not_failsSafely_nested :
    ¬ FailsSafely { file := some {} }
      [(0, .add (.record [("id", .text "a"), ("note", Value.nestedLists 340)]))] := by
  have hbreaksOff : Value.BreaksOff (RuleFile.nodesOf [noted (Value.nestedLists 339)]) := by
    obtain ⟨p, hp, hbreaks⟩ := breaks_nestedLists (show 324 ≤ 339 by decide)
    rw [nodesOf_noted]
    refine Value.breaksOff_of_mem (List.mem_append_right _ hp) hbreaks ?_
    rw [List.forall_mem_append]
    exact ⟨by simp [Rule.toValue], nodes_nestedLists 324 339⟩
  rw [Value.nestedLists]
  generalize Value.nestedLists 339 = v at hbreaksOff ⊢
  have hadd : BreaksOff { file := some {} } 0
      (.add (.record [("id", .text "a"), ("note", .list [v])])) :=
    ⟨{ rules := [noted v], file := some {} }, {}, rfl, rfl, rfl, hbreaksOff⟩
  intro h
  obtain ⟨hfails, hrules⟩ := not_safe_of_breaksOff (rewritable_of_empty rfl) hadd
  exact hrules (h.1 hfails).1

end RuleBook

end Switchboard
