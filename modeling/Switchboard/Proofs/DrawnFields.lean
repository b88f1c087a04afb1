import Switchboard.Message.Basic
import Switchboard.Path
import Switchboard.Proofs.Forms
import Switchboard.Proofs.Numerals

/-!
# Where fields are drawn from

A field that is drawn from a place in the raw data of a comment has the value that is there. So a
message stands for the same record whether its fields are taken from their places or given by their
values.
-/
namespace Switchboard

namespace Drawn

/-- The value is made, or it is the one at the place that it was drawn from. -/
def IsFrom (raw : Value) (d : Drawn) : Prop :=
  d.origin = [] ∨ Path.follow d.origin raw = .ok d.value

/-- The fields of a record are from raw data. -/
def AreFrom (raw : Value) (fields : Record Drawn) : Prop := ∀ p ∈ fields, p.2.IsFrom raw

variable {raw : Value} {d : Drawn} {fields others : Record Drawn}

@[simp] theorem isFrom_made (raw v : Value) : (made v).IsFrom raw := Or.inl rfl

@[simp] theorem isFrom_absent (raw : Value) : absent.IsFrom raw := Or.inl rfl

@[simp] theorem areFrom_nil (raw : Value) : AreFrom raw [] := nofun

@[simp] theorem areFrom_cons (key : String) (d : Drawn) (fields : Record Drawn) :
    AreFrom raw ((key, d) :: fields) ↔ d.IsFrom raw ∧ AreFrom raw fields := List.forall_mem_cons

@[simp] theorem areFrom_append :
    AreFrom raw (fields ++ others) ↔ AreFrom raw fields ∧ AreFrom raw others :=
  List.forall_mem_append

theorem AreFrom.put (h : AreFrom raw fields) (key : String) (hd : d.IsFrom raw) :
    AreFrom raw (Record.put key d fields) := by
  intro p hp
  rcases Record.mem_put hp with rfl | hp
  · exact hd
  · exact h p hp

theorem AreFrom.merge (h : AreFrom raw fields) (ho : AreFrom raw others) :
    AreFrom raw (Record.merge fields others) := by
  intro p hp
  rcases Record.mem_merge hp with hp | hp
  · exact h p hp
  · exact ho p hp

theorem AreFrom.isFrom_get? (h : AreFrom raw fields) (key : String) :
    ((Record.get? fields key).getD .absent).IsFrom raw := by
  cases hget : Record.get? fields key with
  | none => exact isFrom_absent raw
  | some d => exact h _ (Record.mem_of_get?_eq_some hget)

/-- The record is the one at a place of the raw data. -/
def IsAt (raw : Value) (place : List String) (r : Record Value) : Prop :=
  ∀ key v, Record.get? r key = some v → Path.follow (place ++ [key]) raw = .ok v

theorem isAt_nil (r : Record Value) : IsAt (.record r) [] r := by
  intro key v h
  have hselect : Path.select (.record r) key = .ok v := by
    rw [Path.select, Value.lookupOrAbsent, h, Option.getD_some]
  rw [List.nil_append, Path.follow, hselect]
  cases v <;> rfl

theorem isAt_part (r : Record Value) (key : String) :
    IsAt (.record r) [key] ((Value.lookup r key).fields?.getD []) := by
  intro inner v h
  cases hkey : Value.lookup r key with
  | record fields =>
    have hget : Record.get? r key = some (.record fields) := by
      unfold Value.lookup at hkey
      cases hg : Record.get? r key with
      | none => simp [hg] at hkey
      | some w => simpa [hg] using hkey
    have hselect : Path.select (.record r) key = .ok (.record fields) := by
      rw [Path.select, Value.lookupOrAbsent, hget, Option.getD_some]
    rw [hkey] at h
    rw [List.singleton_append, Path.follow, hselect]
    exact isAt_nil fields inner v h
  | _ => simp [hkey, Value.fields?] at h

theorem IsAt.field {place : List String} {r : Record Value} (h : IsAt raw place r) (key : String) :
    (Drawn.field place r key).IsFrom raw := by
  unfold Drawn.field
  cases hget : Record.get? r key with
  | none => exact isFrom_absent raw
  | some v => exact Or.inr (h key v hget)

theorem IsAt.firstOf {place : List String} {r : Record Value} (h : IsAt raw place r)
    (keys : List String) (hd : d.IsFrom raw) : (Drawn.firstOf place r keys d).IsFrom raw := by
  induction keys with
  | nil => exact hd
  | cons key keys ih =>
    unfold Drawn.firstOf
    dsimp only
    split
    · exact h.field key
    · exact ih

@[simp] theorem isFrom_field (r : Record Value) (key : String) :
    (Drawn.field [] r key).IsFrom (.record r) := (isAt_nil r).field key

@[simp] theorem isFrom_firstOf (r : Record Value) (keys : List String) (hd : d.IsFrom (.record r)) :
    (Drawn.firstOf [] r keys d).IsFrom (.record r) := (isAt_nil r).firstOf keys hd

@[simp] theorem areFrom_copied (r : Record Value) (keys : List String) :
    AreFrom (.record r) (copied r keys) := by
  intro p hp
  obtain ⟨key, -, hkey⟩ := List.mem_filterMap.mp hp
  cases hget : Record.get? r key with
  | none => simp [hget] at hkey
  | some v =>
    simp only [hget, Option.map_some, Option.some.injEq] at hkey
    rw [← hkey]
    exact Or.inr (isAt_nil r key v hget)

end Drawn

open Drawn

variable {raw : Record Value} {v : Variant} {fields : Record Drawn} {now : Int}

namespace Youtube

theorem areFrom_commonFields (h : commonFields raw = .ok fields) : AreFrom (.record raw) fields := by
  unfold commonFields at h
  obtain ⟨comment, -, h⟩ := bind_eq_ok_iff.mp h
  dsimp only at h
  split at h
  · obtain ⟨address, -, h⟩ := bind_eq_ok_iff.mp h
    obtain rfl := Except.ok.inj h
    simp
  · obtain rfl := Except.ok.inj h
    simp

/-- A message is a comment, or a super chat with colours of its own, which has a gift that counts as
true. -/
theorem normalize_cases (h : normalize raw = .ok (v, fields)) :
    v = .youtubeComment ∧ commonFields raw = .ok fields ∨
      v = .youtubeSuperchat ∧ ∃ common colors, commonFields raw = .ok common ∧
        fields = Record.merge common
          (Record.put "colors" (made (.record colors)) (copied raw superchatKeys)) ∧
        (Value.lookupOrAbsent raw "hasGift").truthy = true := by
  unfold normalize at h
  obtain ⟨common, hcommon, h⟩ := bind_eq_ok_iff.mp h
  split at h
  · rename_i hsuperchat
    simp only [isSuperchat, Bool.and_eq_true] at hsuperchat
    obtain ⟨colors, -, h⟩ := bind_eq_ok_iff.mp h
    obtain ⟨rfl, rfl⟩ := Prod.mk.inj (Except.ok.inj h)
    exact Or.inr ⟨rfl, common, colors, hcommon, rfl, hsuperchat.1.1⟩
  · obtain ⟨rfl, rfl⟩ := Prod.mk.inj (Except.ok.inj h)
    exact Or.inl ⟨rfl, hcommon⟩

theorem areFrom_normalize (h : normalize raw = .ok (v, fields)) : AreFrom (.record raw) fields := by
  rcases normalize_cases h with ⟨-, hcommon⟩ | ⟨-, common, colors, hcommon, rfl, -⟩
  · exact areFrom_commonFields hcommon
  · exact (areFrom_commonFields hcommon).merge
      ((areFrom_copied raw superchatKeys).put "colors" (isFrom_made _ _))

end Youtube

namespace Bilibili

@[simp] theorem isFrom_pick (raw : Record Value) (keys : List String) (default : Value) :
    (pick raw keys default).IsFrom (.record raw) := isFrom_firstOf raw keys (isFrom_made _ _)

theorem areFrom_commonFields (h : commonFields raw = .ok fields) : AreFrom (.record raw) fields := by
  unfold commonFields at h
  obtain ⟨comment, -, h⟩ := bind_eq_ok_iff.mp h
  obtain rfl := Except.ok.inj h
  simp

theorem areFrom_giftFields (h : giftFields raw = .ok fields) : AreFrom (.record raw) fields := by
  unfold giftFields at h
  obtain ⟨total, -, h⟩ := bind_eq_ok_iff.mp h
  obtain ⟨comment, -, h⟩ := bind_eq_ok_iff.mp h
  obtain rfl := Except.ok.inj h
  simp

theorem normalize_cases (h : normalize raw = .ok (v, fields)) :
    v = .bilibiliComment ∧ commonFields raw = .ok fields ∨
      v = .bilibiliGift ∧ ∃ common gift, commonFields raw = .ok common ∧
        giftFields raw = .ok gift ∧ fields = Record.merge common gift ∧
        (Value.lookupOrAbsent raw "hasGift").truthy = true := by
  unfold normalize at h
  obtain ⟨common, hcommon, h⟩ := bind_eq_ok_iff.mp h
  split at h
  · rename_i htruthy
    obtain ⟨gift, hgift, h⟩ := bind_eq_ok_iff.mp h
    obtain ⟨rfl, rfl⟩ := Prod.mk.inj (Except.ok.inj h)
    exact Or.inr ⟨rfl, common, gift, hcommon, hgift, rfl, htruthy⟩
  · obtain ⟨rfl, rfl⟩ := Prod.mk.inj (Except.ok.inj h)
    exact Or.inl ⟨rfl, hcommon⟩

theorem areFrom_normalize (h : normalize raw = .ok (v, fields)) : AreFrom (.record raw) fields := by
  rcases normalize_cases h with ⟨-, hcommon⟩ | ⟨-, common, gift, hcommon, hgift, rfl, -⟩
  · exact areFrom_commonFields hcommon
  · exact (areFrom_commonFields hcommon).merge (areFrom_giftFields hgift)

end Bilibili

namespace Niconico

theorem areFrom_commonFields (raw : Record Value) : AreFrom (.record raw) (commonFields raw) := by
  unfold commonFields
  simp

theorem normalize_cases (h : normalize raw = .ok (v, fields)) :
    (∃ comment, v = .niconicoComment ∧ fields = commonFields raw ++ [("comment", made comment)]) ∨
      ∃ comment, v = .niconicoGift ∧ fields = commonFields raw ++
        [("price", Drawn.field [] raw "price"), ("comment", made comment)] ∧
        (Value.lookupOrAbsent raw "hasGift").truthy = true := by
  unfold normalize at h
  dsimp only at h
  split at h
  · rename_i htruthy
    obtain ⟨comment, -, h⟩ := bind_eq_ok_iff.mp h
    obtain ⟨rfl, rfl⟩ := Prod.mk.inj (Except.ok.inj h)
    exact Or.inr ⟨_, rfl, rfl, htruthy⟩
  · obtain ⟨comment, -, h⟩ := bind_eq_ok_iff.mp h
    obtain ⟨rfl, rfl⟩ := Prod.mk.inj (Except.ok.inj h)
    exact Or.inl ⟨_, rfl, rfl⟩

theorem areFrom_normalize (h : normalize raw = .ok (v, fields)) : AreFrom (.record raw) fields := by
  have hfrom := areFrom_commonFields raw
  rcases normalize_cases h with ⟨comment, -, rfl⟩ | ⟨comment, -, rfl, -⟩ <;> simp [hfrom]

end Niconico

namespace Twitch

@[simp] theorem isFrom_pick (raw : Record Value) (keys : List String) (default : Value) :
    (pick raw keys default).IsFrom (.record raw) := isFrom_firstOf raw keys (isFrom_made _ _)

@[simp] theorem isFrom_pickOr (raw : Record Value) (keys : List String) {d : Drawn}
    (hd : d.IsFrom (.record raw)) : (pickOr raw keys d).IsFrom (.record raw) :=
  isFrom_firstOf raw keys hd

@[simp] theorem isFrom_userField (raw : Record Value) (key : String) {d : Drawn}
    (hd : d.IsFrom (.record raw)) : (userField raw key d).IsFrom (.record raw) :=
  (isAt_part raw "user").firstOf [key] hd

theorem areFrom_commonFields (h : commonFields raw now = .ok fields) :
    AreFrom (.record raw) fields := by
  unfold commonFields at h
  obtain ⟨comment, -, h⟩ := bind_eq_ok_iff.mp h
  obtain rfl := Except.ok.inj h
  simp

/-- What is drawn already, and the texts in the place of what is not given. -/
theorem isFrom_fieldOf (hfrom : AreFrom (.record raw) fields) (key : String) :
    (fieldOf fields key).IsFrom (.record raw) := hfrom.isFrom_get? key

@[simp] theorem isFrom_orEmpty {d : Drawn} (hd : d.IsFrom (.record raw)) :
    (orEmpty d).IsFrom (.record raw) := by
  unfold orEmpty
  split
  · exact hd
  · exact isFrom_made _ _

theorem areFrom_kindFields {kind : TwitchKind} {found : Record Drawn}
    (hfrom : AreFrom (.record raw) fields) (h : kindFields raw fields kind = .ok found) :
    AreFrom (.record raw) found := by
  have hfield := isFrom_fieldOf hfrom
  cases kind with
  | comment =>
    obtain rfl := Except.ok.inj h
    simp [commentFields, hfield]
  | bits =>
    simp only [kindFields, bitsFields] at h
    obtain ⟨dollars, -, h⟩ := bind_eq_ok_iff.mp h
    obtain ⟨tier, -, h⟩ := bind_eq_ok_iff.mp h
    obtain rfl := Except.ok.inj h
    simp [hfield]
  | subscription =>
    simp only [kindFields, subscriptionFields] at h
    obtain ⟨number, -, h⟩ := bind_eq_ok_iff.mp h
    obtain ⟨worth, -, h⟩ := bind_eq_ok_iff.mp h
    obtain rfl := Except.ok.inj h
    simp [hfield]
  | raid =>
    simp only [kindFields, raidFields] at h
    obtain ⟨size, -, h⟩ := bind_eq_ok_iff.mp h
    obtain ⟨comment, -, h⟩ := bind_eq_ok_iff.mp h
    obtain rfl := Except.ok.inj h
    simp [hfield]

theorem normalize_eq_ok (h : normalize raw now = .ok (v, fields)) :
    ∃ common found, commonFields raw now = .ok common ∧
      kindFields raw common (classify raw) = .ok found ∧
      v = .twitch (classify raw) ∧ fields = Record.merge common found := by
  unfold normalize at h
  obtain ⟨common, hcommon, h⟩ := bind_eq_ok_iff.mp h
  obtain ⟨found, hfound, h⟩ := bind_eq_ok_iff.mp h
  obtain ⟨rfl, rfl⟩ := Prod.mk.inj (Except.ok.inj h)
  exact ⟨common, found, hcommon, hfound, rfl, rfl⟩

theorem areFrom_normalize (h : normalize raw now = .ok (v, fields)) :
    AreFrom (.record raw) fields := by
  obtain ⟨common, found, hcommon, hfound, -, rfl⟩ := normalize_eq_ok h
  have hfrom := areFrom_commonFields hcommon
  exact hfrom.merge (areFrom_kindFields hfrom hfound)

end Twitch

namespace Message

theorem areFrom_normalizeRaw? {service : String} {found : Variant × Record Drawn}
    (h : normalizeRaw? service raw now = some (.ok found)) : AreFrom (.record raw) found.2 := by
  unfold normalizeRaw? at h
  split at h
  · exact Youtube.areFrom_normalize (Option.some.inj h)
  · exact Bilibili.areFrom_normalize (Option.some.inj h)
  · exact Niconico.areFrom_normalize (Option.some.inj h)
  · exact Niconico.areFrom_normalize (Option.some.inj h)
  · exact Twitch.areFrom_normalize (Option.some.inj h)
  · cases h

/-- A comment that is brought to a message names a known service and has raw data. -/
theorem ofComment_eq_some {comment : Value} {m : Message}
    (h : ofComment now comment = .ok (some m)) :
    ∃ c service raw v fields, comment = .record c ∧ Value.lookup c "service" = .text service ∧
      Value.lookup c "data" = .record raw ∧ normalizeRaw? service raw now = some (.ok (v, fields)) ∧
      m = ofFields v fields := by
  unfold ofComment at h
  split at h
  · rename_i c
    split at h
    · rename_i service raw hservice hdata
      split at h
      · rename_i found hfound
        obtain ⟨⟨v, fields⟩, rfl, h⟩ := bind_eq_ok_iff.mp h
        obtain rfl := Option.some.inj (Except.ok.inj h)
        exact ⟨c, service, raw, v, fields, rfl, hservice, hdata, hfound, rfl⟩
      · cases h
    · cases h
  · cases h

/-- The fields of a message are from the raw data of the comment that is brought to it. -/
theorem areFrom_ofComment {comment : Value} {m : Message}
    (h : ofComment now comment = .ok (some m)) :
    ∃ c raw, comment = .record c ∧ Value.lookup c "data" = .record raw ∧
      AreFrom (.record raw) m.fields := by
  obtain ⟨c, service, raw, v, fields, rfl, -, hdata, hfound, rfl⟩ := ofComment_eq_some h
  refine ⟨c, raw, rfl, hdata, ?_⟩
  apply AreFrom.put _ "endpoint" (isFrom_made _ _)
  apply AreFrom.put _ "type" (isFrom_made _ _)
  intro p hp
  exact areFrom_normalizeRaw? hfound p (List.mem_filter.mp hp).1

end Message

end Switchboard
