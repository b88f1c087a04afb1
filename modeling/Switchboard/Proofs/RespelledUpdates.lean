import Switchboard.Proofs.RuleChanges
import Switchboard.Proofs.Spellings

/-!
# Updates in another spelling

An update puts its changes into the record of the rule, which has the wire names. A change in the
plain spelling is read where the record has no wire name for it. Where it has one that one is read,
and the change is kept as a further key.
-/
namespace Switchboard

open Spelling

namespace Record

variable {α : Type}

theorem filter_put (keep : String → Bool) (key : String) (value : α) (r : Record α) :
    (put key value r).filter (fun p => keep p.1) =
      if keep key then put key value (r.filter fun p => keep p.1)
      else r.filter fun p => keep p.1 := by
  induction r with
  | nil => cases hkeep : keep key <;> simp [put, hkeep]
  | cons p r ih =>
    obtain ⟨k, v⟩ := p
    by_cases hk : k = key
    · subst hk
      cases hkeep : keep k <;> simp [hkeep, put]
    · rw [put, if_neg hk, List.filter_cons, List.filter_cons, ih]
      cases keep key <;> cases keep k <;> simp [put, hk]

theorem filter_merge (keep : String → Bool) (r s : Record α) :
    (merge r s).filter (fun p => keep p.1) =
      merge (r.filter fun p => keep p.1) (s.filter fun p => keep p.1) := by
  unfold merge
  induction s generalizing r with
  | nil => rfl
  | cons p s ih =>
    rw [List.foldl_cons, ih, filter_put, List.filter_cons]
    cases keep p.1 <;> rfl

/-- What the second of two records has under a key last counts. -/
theorem get?_merge_reverse (r s : Record α) (key : String) :
    get? (merge r s) key = (get? s.reverse key).or (get? r key) := by
  unfold merge
  induction s generalizing r with
  | nil => rfl
  | cons p s ih =>
    obtain ⟨k, v⟩ := p
    rw [List.foldl_cons, ih, List.reverse_cons, get?_append, Option.or_assoc]
    congr 1
    by_cases hk : key = k
    · subst hk
      simp [get?_cons]
    · simp [get?_cons, hk, get?_put_of_ne hk]

/-- A key is found as before where it alone takes the place of another. -/
theorem get?_map_key {rename : String → String} {key renamed : String} {r : Record α}
    (h : ∀ k ∈ keys r, rename k = renamed ↔ k = key) :
    get? (r.map fun p => (rename p.1, p.2)) renamed = get? r key := by
  induction r with
  | nil => rfl
  | cons p r ih =>
    obtain ⟨k, v⟩ := p
    have hk := h k List.mem_cons_self
    rw [List.map_cons, get?_cons, get?_cons, ih fun j hj => h j (List.mem_cons_of_mem _ hj)]
    by_cases he : key = k
    · rw [if_pos he, if_pos (hk.mpr he.symm).symm]
    · rw [if_neg he, if_neg fun hr => he (hk.mp hr.symm).symm]

theorem mem_keys_reverse {r : Record α} {key : String} : key ∈ keys r.reverse ↔ key ∈ keys r := by
  simp [keys]

theorem get?_reverse_eq_none {r : Record α} {key : String} :
    get? r.reverse key = none ↔ get? r key = none := by
  rw [get?_eq_none_iff, get?_eq_none_iff, mem_keys_reverse]

end Record

namespace RuleBook

/-- Changes with the chosen fields in the plain spelling. -/
def respelled (chosen : String → Bool) (changes : Record Value) : Record Value :=
  changes.map fun p => (respell chosen p.1, p.2)

/-- No field is given in both spellings. -/
def GivenOnce (changes : Record Value) : Prop :=
  ∀ n ∈ Rule.spellings, Record.get? changes n.1 = none ∨ Record.get? changes n.2 = none

instance (changes : Record Value) : Decidable (GivenOnce changes) :=
  inferInstanceAs (Decidable (∀ n ∈ Rule.spellings, _ ∨ _))

/-- The changes but for the chosen fields that a rule is written with. -/
def heard (chosen : String → Bool) (r : Rule) (changes : Record Value) : Record Value :=
  changes.filter fun p => !((among chosen).any (·.1 = p.1) && Record.has r.toRecord p.1)

/-- The record that an update of a rule is read from. -/
def revisedRecord (r : Rule) (id : String) (changes : Record Value) : Record Value :=
  Record.put "id" (.text id) (Record.merge r.toRecord changes)

theorem putEntry_texts (key : String) (value : Value) (r : Record Value) :
    Value.putEntry (.text key) value (r.map fun p => (.text p.1, p.2)) =
      (Record.put key value r).map fun p => (.text p.1, p.2) := by
  induction r with
  | nil => rfl
  | cons p r ih =>
    obtain ⟨k, v⟩ := p
    by_cases hk : k = key <;> simp [Value.putEntry, Record.put, hk, ih]

theorem ofEntries_texts (r : Record Value) :
    Value.ofEntries (r.map fun p => (.text p.1, p.2)) = .record r := by
  have h : Value.recordOf? (r.map fun p => (.text p.1, p.2)) = some r := by
    induction r with
    | nil => rfl
    | cons p r ih => simp [Value.recordOf?, ih]
  rw [Value.ofEntries, h]

theorem foldl_putEntry_texts (r changes : Record Value) :
    (changes.map fun p => (Value.text p.1, p.2)).foldl (fun es c => Value.putEntry c.1 c.2 es)
        (r.map fun p => (.text p.1, p.2)) =
      (Record.merge r changes).map fun p => (.text p.1, p.2) := by
  unfold Record.merge
  induction changes generalizing r with
  | nil => rfl
  | cons p changes ih =>
    rw [List.map_cons, List.foldl_cons, List.foldl_cons, putEntry_texts, ih]

/-- Changes whose keys are texts make a rule of the record that they are put into. -/
theorem revised_record (r : Rule) (id : String) (changes : Record Value) :
    revised r id (.record changes) = Rule.ofRecord (revisedRecord r id changes) := by
  change Rule.ofValue (merged r id (changes.map fun p => (.text p.1, p.2))) = _
  rw [merged, foldl_putEntry_texts, putEntry_texts, ofEntries_texts]
  rfl

/-! ## What is read of changes in the plain spelling -/

section

variable {chosen : String → Bool} {changes : Record Value} {r : Rule} {id : String}
  {n : String × String}

theorem get?_revisedRecord {key : String} (hkey : key ≠ "id") :
    Record.get? (revisedRecord r id changes) key =
      (Record.get? changes.reverse key).or (Record.get? r.toRecord key) := by
  rw [revisedRecord, Record.get?_put_of_ne hkey, Record.get?_merge_reverse]

theorem unspelled_revisedRecord :
    (revisedRecord r id changes).unspelled chosen =
      Record.put "id" (.text id) (Record.merge (r.toRecord.unspelled chosen)
        (changes.unspelled chosen)) := by
  have hid : names chosen "id" = false := names_of_not_spelled (by decide)
  rw [Record.unspelled, revisedRecord, Record.filter_put fun k => !names chosen k,
    Record.filter_merge fun k => !names chosen k, hid]
  rfl

theorem unspelled_respelled :
    (respelled chosen changes).unspelled chosen = changes.unspelled chosen := by
  induction changes with
  | nil => rfl
  | cons p changes ih =>
    simp only [respelled, Record.unspelled] at ih ⊢
    rw [List.map_cons, List.filter_cons, List.filter_cons, names_respell, ih]
    cases hp : names chosen p.1 with
    | true => rfl
    | false => simp [respell_of_names_eq_false hp]

theorem unspelled_heard : (heard chosen r changes).unspelled chosen = changes.unspelled chosen := by
  simp only [heard, Record.unspelled, List.filter_filter]
  refine List.filter_congr fun p _ => ?_
  cases hp : names chosen p.1 with
  | true => rfl
  | false =>
    have hwire : (among chosen).any (·.1 = p.1) = false := by
      rw [List.any_eq_false]
      intro n hn he
      exact (names_eq_false.mp hp n hn).1 (of_decide_eq_true he).symm
    simp [hwire]

/-- The plain name of a chosen field has what was given for the field in either spelling. -/
theorem get?_respelled_plain (hn : n ∈ among chosen)
    (once : Record.get? changes n.1 = none ∨ Record.get? changes n.2 = none) :
    Record.get? (respelled chosen changes) n.2 =
      (Record.get? changes n.1).or (Record.get? changes n.2) := by
  rcases once with hwire | hplain
  · rw [hwire, Option.none_or]
    refine Record.get?_map_key fun k hk => ?_
    have hne : k ≠ n.1 := fun he => Record.get?_eq_none_iff.mp hwire (he ▸ hk)
    rw [respell_eq_plain hn, or_iff_right hne]
  · rw [hplain, Option.or_none]
    refine Record.get?_map_key fun k hk => ?_
    have hne : k ≠ n.2 := fun he => Record.get?_eq_none_iff.mp hplain (he ▸ hk)
    rw [respell_eq_plain hn, or_iff_left hne]

theorem get?_respelled_wire (hn : n ∈ among chosen) :
    Record.get? (respelled chosen changes) n.1 = none := by
  rw [Record.get?_eq_none_iff]
  intro hm
  obtain ⟨_, hq, he⟩ := List.mem_map.mp hm
  obtain ⟨p, -, rfl⟩ := List.mem_map.mp hq
  exact respell_ne_wire hn p.1 he

theorem respelled_reverse :
    (respelled chosen changes).reverse = respelled chosen changes.reverse := by
  simp [respelled]

theorem get?_heard (key : String) :
    Record.get? (heard chosen r changes).reverse key =
      if (among chosen).any (·.1 = key) && Record.has r.toRecord key then none
      else Record.get? changes.reverse key := by
  rw [heard, ← List.filter_reverse, Record.get?_filter_key fun k =>
    !((among chosen).any (·.1 = k) && Record.has r.toRecord k)]
  cases (among chosen).any (·.1 = key) && Record.has r.toRecord key <;> rfl

theorem spelled_ne_id (hn : n ∈ Rule.spellings) : n.1 ≠ "id" ∧ n.2 ≠ "id" := by
  revert n
  decide

/-- The record of an update in the plain spelling is, up to the spelling, that of the changes that
are heard in the wire spelling. -/
theorem revisedRecord_alike (once : GivenOnce changes) :
    Record.Alike chosen (revisedRecord r id (respelled chosen changes))
      (revisedRecord r id (heard chosen r changes)) := by
  constructor
  · intro n hn
    have hid := spelled_ne_id (mem_spellings hn)
    have once := (once n (mem_spellings hn)).imp Record.get?_reverse_eq_none.mpr
      Record.get?_reverse_eq_none.mpr
    have hwire : (among chosen).any (·.1 = n.1) = true :=
      List.any_eq_true.mpr ⟨n, hn, decide_eq_true rfl⟩
    have hplain : (among chosen).any (·.1 = n.2) = false := by
      rw [List.any_eq_false]
      intro m hm he
      exact wire_ne_plain (mem_spellings hm) (mem_spellings hn) (of_decide_eq_true he)
    have hsame := respell_wire hn
    have hself := respell_plain hn
    simp only [Check.SameField, Check.find?, get?_revisedRecord hid.1, get?_revisedRecord hid.2,
      respelled_reverse, get?_respelled_wire hn, get?_respelled_plain hn once, get?_heard, hwire,
      hplain, Record.has]
    cases hr : Record.get? r.toRecord n.1 with
    | some v => simp
    | none =>
      rcases once with hnone | hnone
      · simp [hnone]
      · cases hc : Record.get? changes.reverse n.1 <;> simp [hnone, hsame, hself]
  · rw [unspelled_revisedRecord, unspelled_revisedRecord, unspelled_respelled, unspelled_heard]

theorem revised_alike (once : GivenOnce changes) :
    Rule.unspelledResult chosen (revised r id (.record (respelled chosen changes))) =
      Rule.unspelledResult chosen (revised r id (.record (heard chosen r changes))) := by
  rw [revised_record, revised_record]
  exact Rule.ofRecord_alike (revisedRecord_alike once)

/-- No field that a rule is written with is null, apart from its identifier. -/
theorem isNull_of_mem_own (r : Rule) : ∀ p ∈ r.own, p.1 ≠ "id" → p.2.isNull = false := by
  cases hs : r.shape <;> simp [Rule.own, hs, Rule.Shape.toRecord, Value.isNull]

/-- A rule is written with all fields of its shape but for the identifier. -/
theorem has_toRecord (hid : n.1 ≠ "id") (own : n ∈ r.shape.names) :
    Record.has r.toRecord n.1 = true := by
  have hkey : n.1 ∈ Record.keys r.own := by
    rw [Rule.keys_own]
    exact List.mem_map_of_mem own
  cases hv : Record.get? r.own n.1 with
  | none => exact absurd hkey (Record.get?_eq_none_iff.mp hv)
  | some v =>
    have hnull := isNull_of_mem_own r _ (Record.mem_of_get?_eq_some hv) hid
    have hwritten : Record.get? (dropNulls (r.own ++ r.extras)) n.1 = some v := by
      refine Record.get?_filter_of_eq_some ?_ (by rw [hnull]; rfl)
      rw [Record.get?_append, hv, Option.some_or]
    rw [Record.has, Rule.toRecord_eq, hwritten]
    rfl

/-- No chosen field of the shape that the rule has is heard. -/
theorem get?_heard_own (hn : n ∈ among chosen) (own : n ∈ r.shape.names) :
    Record.get? (heard chosen r changes) n.1 = none := by
  have hwire : (among chosen).any (·.1 = n.1) = true :=
    List.any_eq_true.mpr ⟨n, hn, decide_eq_true rfl⟩
  have hid : n.1 ≠ "id" := (spelled_ne_id (mem_spellings hn)).1
  rw [← Record.get?_reverse_eq_none, get?_heard, hwire, has_toRecord hid own]
  rfl

/-- All changes are heard if the rule is written without the chosen fields that are given. -/
theorem heard_eq_self
    (h : ∀ n ∈ among chosen, Record.has changes n.1 = true → Record.has r.toRecord n.1 = false) :
    heard chosen r changes = changes := by
  refine List.filter_eq_self.mpr fun p hp => ?_
  cases hany : (among chosen).any (·.1 = p.1) with
  | false => rfl
  | true =>
    obtain ⟨n, hn, he⟩ := List.any_eq_true.mp hany
    have he : n.1 = p.1 := of_decide_eq_true he
    have hgiven : Record.has changes n.1 = true := by
      rw [Record.has, Option.isSome_iff_ne_none, ne_eq, Record.get?_eq_none_iff, not_not, he]
      exact List.mem_map_of_mem hp
    simp [← he, h n hn hgiven]

/-- The fields that are chosen and given. -/
def given (chosen : String → Bool) (changes : Record Value) (key : String) : Bool :=
  chosen key && Record.has changes key

theorem mem_among_given : n ∈ among (given chosen changes) ↔
    n ∈ among chosen ∧ Record.has changes n.1 = true := by
  simp [among, given, and_assoc]

theorem respelled_given : respelled (given chosen changes) changes = respelled chosen changes := by
  refine List.map_congr_left fun p hp => ?_
  have hgiven : Record.has changes p.1 = true := by
    rw [Record.has, Option.isSome_iff_ne_none, ne_eq, Record.get?_eq_none_iff, not_not]
    exact List.mem_map_of_mem hp
  have hsame : given chosen changes p.1 = chosen p.1 := by simp [given, hgiven]
  rw [respell_congr hsame]

/-- Changes in the plain spelling make the same rule if they belong to its shape and the rule that
they are made to has none of their names. -/
theorem revised_respelled (once : GivenOnce changes) {new : Rule}
    (hnew : revised r id (.record changes) = .ok new)
    (free : ∀ n ∈ among chosen, Record.has changes n.1 = true →
      Record.get? r.toRecord n.1 = none ∧ Record.get? r.toRecord n.2 = none ∧ n ∈ new.shape.names) :
    revised r id (.record (respelled chosen changes)) = .ok new := by
  have hfree : ∀ n ∈ among (given chosen changes), Record.get? r.toRecord n.1 = none ∧
      Record.get? r.toRecord n.2 = none ∧ n ∈ new.shape.names := by
    intro n hn
    obtain ⟨hchosen, hgiven⟩ := mem_among_given.mp hn
    exact free n hchosen hgiven
  have halike : Rule.unspelledResult (given chosen changes) (revised r id _) = _ :=
    revised_alike once
  rw [heard_eq_self fun n hn _ => by simp [Record.has, (hfree n hn).1], hnew, respelled_given]
    at halike
  cases hother : revised r id (.record (respelled chosen changes)) with
  | error f =>
    rw [hother] at halike
    cases halike
  | ok other =>
    rw [hother] at halike
    have hsame : other.unspelled (given chosen changes) = new.unspelled (given chosen changes) :=
      Except.ok.inj halike
    have hshape : other.shape = new.shape := by
      change (other.unspelled (given chosen changes)).shape = _
      rw [hsame]
      rfl
    rw [revised_record] at hnew hother
    have hnewself : new.unspelled (given chosen changes) = new := by
      refine Rule.unspelled_eq_self hnew (fun n hn => (hfree n hn).2.2) ?_
      intro n hn
      right
      obtain ⟨hchosen, hgiven⟩ := mem_among_given.mp hn
      have hplain : Record.get? changes n.2 = none := by
        refine (once n (mem_spellings hchosen)).resolve_left ?_
        simpa [Record.has, Option.isSome_iff_ne_none] using hgiven
      rw [get?_revisedRecord (spelled_ne_id (mem_spellings hn)).2,
        Record.get?_reverse_eq_none.mpr hplain, (hfree n hn).2.1]
      rfl
    have hotherself : other.unspelled (given chosen changes) = other := by
      refine Rule.unspelled_eq_self hother (fun n hn => hshape ▸ (hfree n hn).2.2) ?_
      intro n hn
      left
      rw [get?_revisedRecord (spelled_ne_id (mem_spellings hn)).1, respelled_reverse,
        get?_respelled_wire (mem_among_given.mp hn).1, (hfree n hn).1]
      rfl
    rw [← hnewself, ← hsame, hotherself]

end

/-! ## Updates -/

/-- What an update answers and leaves behind, by what it makes of the rule. -/
def concluded (b : RuleBook) (id : String) (now : Int) :
    Except Fault Rule → RuleBook × Except Fault (Option Rule)
  | .ok new => after (some new) ({ b with rules := replace id new b.rules }.persist now)
  | .error e => (b, .error e)

theorem update_eq_concluded {b : RuleBook} {id : String} {r : Rule} (found : b.find? id = some r)
    (changes : Value) (now : Int) :
    b.update id changes now = b.concluded id now (revised r id changes) := by
  unfold update
  rw [found]
  change (match revised r id changes with | .ok new => _ | .error e => _) = _
  cases revised r id changes <;> rfl

/-- An update whose changes are given in the plain spelling does what the update does with those of
the changes that are heard, up to the spelling, and no field of the shape that the rule has is heard
in the plain spelling. It does the same as in the wire spelling where the fields belong to the shape
that the rule gets and the rule has neither of their names. -/
theorem update_respelled {b : RuleBook} {id : String} {r : Rule} (found : b.find? id = some r)
    {chosen : String → Bool} {changes : Record Value} (once : GivenOnce changes) (now : Int) :
    (∃ plain wire, Rule.unspelledResult chosen plain = Rule.unspelledResult chosen wire ∧
      b.update id (.record (respelled chosen changes)) now = b.concluded id now plain ∧
      b.update id (.record (heard chosen r changes)) now = b.concluded id now wire) ∧
    (∀ n ∈ among chosen, n ∈ r.shape.names → Record.get? (heard chosen r changes) n.1 = none) ∧
    ∀ new, revised r id (.record changes) = .ok new →
      (∀ n ∈ among chosen, Record.has changes n.1 = true →
        Record.get? r.toRecord n.1 = none ∧ Record.get? r.toRecord n.2 = none ∧
          n ∈ new.shape.names) →
      b.update id (.record (respelled chosen changes)) now = b.update id (.record changes) now := by
  refine ⟨?_, ?_, ?_⟩
  · exact ⟨_, _, revised_alike once, update_eq_concluded found _ now,
      update_eq_concluded found _ now⟩
  · intro n hn own
    exact get?_heard_own hn own
  · intro new hnew free
    rw [update_eq_concluded found, update_eq_concluded found, hnew,
      revised_respelled once hnew free]

/-- A book of one rule, which has no conditions. -/
def single : RuleBook := { rules := [{ id := some "a" }] }

/-- Changes that give the rule groups in the place of conditions. -/
def grouping : Record Value :=
  [("blockDefault", .bool true), ("conditionGroups", .list [.record []]),
    ("groupLogic", .text "AND")]

theorem update_respelled_grouping :
    respelled (· != "blockDefault") grouping = [("blockDefault", .bool true),
      ("condition_groups", .list [.record []]), ("group_logic", .text "AND")] ∧
    single.update "a" (.record (respelled (· != "blockDefault") grouping)) 0 =
      single.update "a" (.record grouping) 0 := by
  refine ⟨rfl, ?_⟩
  refine (update_respelled (b := single) (r := { id := some "a" }) rfl ?_ 0).2.2 _ rfl ?_
  · decide
  · decide

/-- The rule has the name "blockDefault" already, so that "block_default" does not count. -/
theorem update_respelled_unheard : GivenOnce [("blockDefault", .bool true)] ∧
    respelled (fun _ => true) [("blockDefault", .bool true)] = [("block_default", .bool true)] ∧
    (single.update "a" (.record [("blockDefault", .bool true)]) 0).2 =
      .ok (some { id := some "a", blockDefault := true }) ∧
    (single.update "a" (.record [("block_default", .bool true)]) 0).2 =
      .ok (some { id := some "a", extras := [("block_default", .bool true)] }) := by
  refine ⟨?_, rfl, rfl, rfl⟩
  decide

end RuleBook

end Switchboard
