import Switchboard.Catalog.Basic
import Switchboard.Proofs.ExactProjections
import Switchboard.Proofs.GiftMessages

/-!
# Summaries

A summary has, under each of its keys, what the message has under the key that it stands for, and no
other keys. The messages of two platforms, and those with a paid text on a third, have a value for
every key that a summary asks for, but for the name of their author. On the platform where every
field has a default, the fields that the catalog lists for all its messages are always there.
-/
namespace Switchboard

/-! ## Keys that are gathered one by one -/

namespace Record

variable {α : Type}

theorem mem_keys_iff {r : Record α} {key : String} :
    key ∈ keys r ↔ ∃ value, get? r key = some value := by
  rw [← Option.isSome_iff_exists, Option.isSome_iff_ne_none, ne_eq, get?_eq_none_iff, not_not]

theorem mem_keys_put {r : Record α} {k key : String} {value : α} :
    key ∈ keys (put k value r) ↔ key = k ∨ key ∈ keys r := by
  rw [keys_put]
  split
  · rename_i hk
    exact ⟨Or.inr, fun h => h.elim (fun he => he ▸ hk) id⟩
  · simp [or_comm]

theorem mem_keys_merge {r s : Record α} {key : String} :
    key ∈ keys (merge r s) ↔ key ∈ keys r ∨ key ∈ keys s := by
  unfold merge
  induction s generalizing r with
  | nil => simp [keys]
  | cons p s ih =>
    rw [List.foldl_cons, ih, mem_keys_put]
    simp only [keys, List.map_cons, List.mem_cons]
    tauto

end Record

namespace Message

variable {α : Type} {fields : Record α}

/-- Puts what a record has under some keys into another record, each under a key of its own. -/
def gather (fields post : Record α) (keys : List (String × String)) : Record α :=
  keys.foldl
    (fun post key =>
      match Record.get? fields key.2 with
      | some value => Record.put key.1 value post
      | none => post)
    post

theorem get?_gather_of_notMem {keys : List (String × String)} {key : String}
    (h : key ∉ keys.map Prod.fst) (post : Record α) :
    Record.get? (gather fields post keys) key = Record.get? post key := by
  induction keys generalizing post with
  | nil => rfl
  | cons k keys ih =>
    rw [List.map_cons, List.mem_cons, not_or] at h
    rw [gather, List.foldl_cons]
    refine (ih h.2 _).trans ?_
    cases Record.get? fields k.2 with
    | none => rfl
    | some value => exact Record.get?_put_of_ne h.1 value post

theorem get?_gather {keys : List (String × String)} (distinct : (keys.map Prod.fst).Nodup)
    {k : String × String} (h : k ∈ keys) (post : Record α) :
    Record.get? (gather fields post keys) k.1 =
      (Record.get? fields k.2).or (Record.get? post k.1) := by
  induction keys generalizing post with
  | nil => cases h
  | cons j keys ih =>
    obtain ⟨hj, distinct⟩ := List.nodup_cons.mp distinct
    rw [gather, List.foldl_cons]
    rcases List.mem_cons.mp h with rfl | h
    · refine (get?_gather_of_notMem hj _).trans ?_
      cases Record.get? fields k.2 with
      | none => rfl
      | some value => simp
    · have hne : k.1 ≠ j.1 := fun he => hj (he ▸ List.mem_map_of_mem h)
      refine (ih distinct h _).trans ?_
      cases Record.get? fields j.2 with
      | none => rfl
      | some value => simp only [Record.get?_put_of_ne hne]

theorem nodup_gather (fields : Record α) {post : Record α} (distinct : (Record.keys post).Nodup)
    (keys : List (String × String)) : (Record.keys (gather fields post keys)).Nodup := by
  induction keys generalizing post with
  | nil => exact distinct
  | cons k keys ih =>
    rw [gather, List.foldl_cons]
    apply ih
    cases Record.get? fields k.2 with
    | none => exact distinct
    | some value => exact Record.nodup_put distinct k.1 value

theorem summaryOf_eq (v : Variant) (tag : α) (fields : Record α) :
    summaryOf v tag fields = gather fields [("type", tag)] (summaryKeys v) := rfl

/-- No key of a summary is listed twice, and none is that of the type. -/
theorem nodup_summaryKeys (v : Variant) : ("type" :: (summaryKeys v).map Prod.fst).Nodup := by
  have hall : ∀ v ∈ Variant.all, ("type" :: (summaryKeys v).map Prod.fst).Nodup := by decide +kernel
  exact hall v v.mem_all

end Message

/-! ## Fields that are there -/

namespace Drawn

def IsThere (d : Drawn) : Prop := d.value ≠ .absent

/-- No field is absent, unless its key is one of the given ones. -/
def MayLack (keys : List String) (fields : Record Drawn) : Prop :=
  ∀ p ∈ fields, p.1 ∈ keys ∨ p.2.IsThere

variable {keys : List String} {d : Drawn} {fields others : Record Drawn}

@[simp] theorem isThere_made {v : Value} : (made v).IsThere ↔ v ≠ .absent := Iff.rfl

@[simp] theorem timestamp_ne_absent (v : Value) : Timestamp.read v ≠ .absent := by
  unfold Timestamp.read
  split <;> exact nofun

theorem isThere_of_truthy (h : d.value.truthy = true) : d.IsThere := by
  intro habsent
  rw [habsent] at h
  cases h

/-- What is drawn counts as true, or it is the default. -/
@[simp] theorem isThere_firstOf (hd : d.IsThere) (place : List String) (r : Record Value)
    (names : List String) : (firstOf place r names d).IsThere := by
  induction names with
  | nil => exact hd
  | cons name names ih =>
    unfold firstOf
    dsimp only
    split
    · exact isThere_of_truthy ‹_›
    · exact ih

@[simp] theorem mayLack_nil (keys : List String) : MayLack keys [] := nofun

@[simp] theorem mayLack_cons (key : String) (d : Drawn) (fields : Record Drawn) :
    MayLack keys ((key, d) :: fields) ↔ (key ∈ keys ∨ d.IsThere) ∧ MayLack keys fields :=
  List.forall_mem_cons

@[simp] theorem mayLack_append :
    MayLack keys (fields ++ others) ↔ MayLack keys fields ∧ MayLack keys others :=
  List.forall_mem_append

theorem MayLack.merge (h : MayLack keys fields) (ho : MayLack [] others) :
    MayLack keys (Record.merge fields others) := by
  intro p hp
  rcases Record.mem_merge hp with hp | hp
  · exact h p hp
  · exact Or.inr ((ho p hp).resolve_left List.not_mem_nil)

theorem MayLack.put (h : MayLack keys fields) (key : String) (hd : d.IsThere) :
    MayLack keys (Record.put key d fields) := by
  intro p hp
  rcases Record.mem_put hp with rfl | hp
  · exact Or.inr hd
  · exact h p hp

theorem mayLack_copied (r : Record Value) (keys : List String) : MayLack keys (copied r keys) := by
  intro p hp
  exact Or.inl ((keys_copied r keys).subset (List.mem_map_of_mem hp))

theorem MayLack.exists_get? (h : MayLack keys fields) {key : String} (hkey : key ∉ keys)
    (hmem : key ∈ Record.keys fields) : ∃ d, Record.get? fields key = some d ∧ d.IsThere := by
  obtain ⟨d, hd⟩ := Record.mem_keys_iff.mp hmem
  exact ⟨d, hd, (h _ (Record.mem_of_get?_eq_some hd)).resolve_left hkey⟩

end Drawn

open Drawn

/-- The keys of a message that a summary of a variant asks for, but for the name of the author. -/
def Message.neededKeys (v : Variant) : List String :=
  ["comment", "timestamp", "profileImageUrl"] ++ Message.summaryExtras v

variable {raw : Record Value} {v : Variant} {fields : Record Drawn} {now : Int}

namespace Youtube

theorem mayLack_commonFields (h : commonFields raw = .ok fields) :
    MayLack ["id", "liveId", "userId", "name", "isOwner", "isModerator", "isMember",
      "autoModerated", "hasGift", "displayName"] fields := by
  unfold commonFields at h
  obtain ⟨comment, -, h⟩ := bind_eq_ok_iff.mp h
  dsimp only at h
  split at h
  · obtain ⟨address, -, h⟩ := bind_eq_ok_iff.mp h
    obtain rfl := Except.ok.inj h
    simp [mayLack_copied]
  · obtain rfl := Except.ok.inj h
    simp [mayLack_copied]

theorem mem_keys_commonFields (h : commonFields raw = .ok fields) :
    ∀ key ∈ ["comment", "timestamp", "profileImageUrl"], key ∈ Record.keys fields := by
  unfold commonFields at h
  obtain ⟨comment, -, h⟩ := bind_eq_ok_iff.mp h
  dsimp only at h
  split at h
  · obtain ⟨address, -, h⟩ := bind_eq_ok_iff.mp h
    obtain rfl := Except.ok.inj h
    simp [Record.keys]
  · obtain rfl := Except.ok.inj h
    simp [Record.keys]

theorem isSuperchat_of_normalize (h : normalize raw = .ok (.youtubeSuperchat, fields)) :
    isSuperchat raw = true := by
  unfold normalize at h
  obtain ⟨common, -, h⟩ := bind_eq_ok_iff.mp h
  split at h
  · assumption
  · cases h

theorem exists_truthy (h : isSuperchat raw = true) {key : String} (hkey : key ∈ superchatKeys) :
    ∃ v, Record.get? raw key = some v ∧ v.truthy = true := by
  simp only [isSuperchat, Bool.and_eq_true, List.all_eq_true] at h
  have htruthy := h.2 key hkey
  unfold Value.lookupOrAbsent at htruthy
  cases hget : Record.get? raw key with
  | none =>
    rw [hget] at htruthy
    cases htruthy
  | some v =>
    rw [hget] at htruthy
    exact ⟨v, rfl, htruthy⟩

/-- Everything that a super chat has to have is copied from it. -/
theorem mayLack_superchat (h : isSuperchat raw = true) : MayLack [] (copied raw superchatKeys) := by
  intro p hp
  obtain ⟨key, hkey, hp⟩ := List.mem_filterMap.mp hp
  obtain ⟨v, hv, htruthy⟩ := exists_truthy h hkey
  rw [hv] at hp
  obtain rfl := Option.some.inj hp
  exact Or.inr (isThere_of_truthy htruthy)

theorem mem_keys_superchat (h : isSuperchat raw = true) {key : String}
    (hkey : key ∈ superchatKeys) : key ∈ Record.keys (copied raw superchatKeys) := by
  obtain ⟨v, hv, -⟩ := exists_truthy h hkey
  exact Record.mem_keys_iff.mpr ⟨_, by rw [get?_copied, if_pos hkey, hv]; rfl⟩

theorem exists_needed (h : normalize raw = .ok (.youtubeSuperchat, fields)) :
    ∀ key ∈ Message.neededKeys .youtubeSuperchat,
      ∃ d, Record.get? fields key = some d ∧ d.IsThere := by
  have hsuperchat := isSuperchat_of_normalize h
  rcases normalize_cases h with ⟨hv, -⟩ | ⟨-, common, colors, hcommon, rfl, -⟩
  · cases hv
  have hextras : MayLack []
      (Record.put "colors" (made (.record colors)) (copied raw superchatKeys)) :=
    (mayLack_superchat hsuperchat).put "colors" nofun
  intro key hkey
  refine ((mayLack_commonFields hcommon).merge hextras).exists_get? ?_ ?_
  · revert key
    decide +kernel
  · rw [Record.mem_keys_merge, Record.mem_keys_put]
    have hcases : key ∈ ["comment", "timestamp", "profileImageUrl"] ∨ key ∈ superchatKeys := by
      revert key
      decide +kernel
    rcases hcases with hkey | hkey
    · exact Or.inl (mem_keys_commonFields hcommon key hkey)
    · exact Or.inr (Or.inr (mem_keys_superchat hsuperchat hkey))

end Youtube

namespace Bilibili

@[simp] theorem isThere_pick {default : Value} (h : default ≠ .absent) (raw : Record Value)
    (keys : List String) : (pick raw keys default).IsThere :=
  isThere_firstOf (isThere_made.mpr h) [] raw keys

theorem mayLack_commonFields (h : commonFields raw = .ok fields) :
    MayLack ["id", "liveId", "userId", "name", "displayName"] fields := by
  unfold commonFields at h
  obtain ⟨comment, -, h⟩ := bind_eq_ok_iff.mp h
  obtain rfl := Except.ok.inj h
  simp

theorem product_ne_absent {a b total : Value} (h : Amount.product a b = .ok total) :
    total ≠ .absent := by
  unfold Amount.product at h
  split at h
  · obtain rfl := Except.ok.inj h
    exact nofun
  · obtain ⟨x, -, h⟩ := bind_eq_ok_iff.mp h
    obtain rfl := Except.ok.inj h
    exact nofun
  · obtain ⟨y, -, h⟩ := bind_eq_ok_iff.mp h
    obtain rfl := Except.ok.inj h
    exact nofun
  · obtain rfl := Except.ok.inj h
    exact nofun
  · obtain rfl := Except.ok.inj h
    exact nofun

theorem mayLack_giftFields (h : giftFields raw = .ok fields) : MayLack [] fields := by
  unfold giftFields at h
  obtain ⟨total, htotal, h⟩ := bind_eq_ok_iff.mp h
  obtain ⟨comment, -, h⟩ := bind_eq_ok_iff.mp h
  obtain rfl := Except.ok.inj h
  simp [product_ne_absent htotal]

theorem mem_keys_commonFields (h : commonFields raw = .ok fields) :
    ∀ key ∈ Message.neededKeys .bilibiliComment, key ∈ Record.keys fields := by
  unfold commonFields at h
  obtain ⟨comment, -, h⟩ := bind_eq_ok_iff.mp h
  obtain rfl := Except.ok.inj h
  simp [Message.neededKeys, Message.summaryExtras, Message.bilibiliExtras, Record.keys]

theorem mem_keys_giftFields (h : giftFields raw = .ok fields) :
    ∀ key ∈ Message.neededKeys .bilibiliGift,
      key ∈ Message.neededKeys .bilibiliComment ∨ key ∈ Record.keys fields := by
  unfold giftFields at h
  obtain ⟨total, -, h⟩ := bind_eq_ok_iff.mp h
  obtain ⟨comment, -, h⟩ := bind_eq_ok_iff.mp h
  obtain rfl := Except.ok.inj h
  simp [Message.neededKeys, Message.summaryExtras, Message.bilibiliExtras, Record.keys]

theorem exists_needed (h : normalize raw = .ok (v, fields)) :
    ∀ key ∈ Message.neededKeys v, ∃ d, Record.get? fields key = some d ∧ d.IsThere := by
  intro key hkey
  rcases normalize_cases h with ⟨rfl, hcommon⟩ | ⟨rfl, common, gift, hcommon, hgift, rfl, -⟩
  · refine (mayLack_commonFields hcommon).exists_get? ?_ (mem_keys_commonFields hcommon key hkey)
    revert key
    decide +kernel
  · refine ((mayLack_commonFields hcommon).merge (mayLack_giftFields hgift)).exists_get? ?_ ?_
    · revert key
      decide +kernel
    · exact Record.mem_keys_merge.mpr
        ((mem_keys_giftFields hgift key hkey).imp_left (mem_keys_commonFields hcommon key))

end Bilibili

namespace Twitch

@[simp] theorem isThere_pick {default : Value} (h : default ≠ .absent) (raw : Record Value)
    (keys : List String) : (pick raw keys default).IsThere := 
  isThere_firstOf (isThere_made.mpr h) [] raw keys

@[simp] theorem isThere_pickOr {d : Drawn} (h : d.IsThere) (raw : Record Value)
    (keys : List String) : (pickOr raw keys d).IsThere := isThere_firstOf h [] raw keys

@[simp] theorem isThere_userField {d : Drawn} (h : d.IsThere) (raw : Record Value) (key : String) :
    (userField raw key d).IsThere := isThere_firstOf h ["user"] _ [key]

@[simp] theorem isThere_orEmpty {d : Drawn} (h : d.IsThere) : (orEmpty d).IsThere := by
  unfold orEmpty
  split
  · exact h
  · exact nofun

theorem mayLack_commonFields (h : commonFields raw now = .ok fields) : MayLack [] fields := by
  unfold commonFields at h
  obtain ⟨comment, -, h⟩ := bind_eq_ok_iff.mp h
  obtain rfl := Except.ok.inj h
  have hname : (pickOr raw ["name"]
      (userField raw "login" (pick raw ["username"] (.text "")))).IsThere :=
    isThere_pickOr (by simp) raw ["name"]
  simp [hname]

/-- The fields that every kind of message draws on are among the common ones. -/
theorem isThere_fieldOf (h : commonFields raw now = .ok fields) :
    ∀ key ∈ ["id", "userId", "name", "displayName", "comment"], (fieldOf fields key).IsThere := by
  intro key hkey
  have hthere := mayLack_commonFields h
  have hmem : key ∈ Record.keys fields := by
    unfold commonFields at h
    obtain ⟨comment, -, h⟩ := bind_eq_ok_iff.mp h
    obtain rfl := Except.ok.inj h
    revert key
    simp [Record.keys]
  obtain ⟨d, hd, hd'⟩ := hthere.exists_get? List.not_mem_nil hmem
  rwa [fieldOf, hd, Option.getD_some]

theorem mayLack_kindFields {kind : TwitchKind} {found : Record Drawn}
    (hcommon : commonFields raw now = .ok fields) (h : kindFields raw fields kind = .ok found) :
    MayLack [] found := by
  have hfield := isThere_fieldOf hcommon
  simp only [List.forall_mem_cons] at hfield
  cases kind with
  | comment =>
    obtain rfl := Except.ok.inj h
    simp [commentFields, hfield]
  | bits =>
    simp only [kindFields, bitsFields] at h
    obtain ⟨dollars, -, h⟩ := bind_eq_ok_iff.mp h
    obtain ⟨tier, -, h⟩ := bind_eq_ok_iff.mp h
    obtain rfl := Except.ok.inj h
    simp [hfield]
  | subscription =>
    simp only [kindFields, subscriptionFields] at h
    obtain ⟨number, -, h⟩ := bind_eq_ok_iff.mp h
    obtain ⟨worth, -, h⟩ := bind_eq_ok_iff.mp h
    obtain rfl := Except.ok.inj h
    simp [hfield]
  | raid =>
    simp only [kindFields, raidFields] at h
    obtain ⟨size, -, h⟩ := bind_eq_ok_iff.mp h
    obtain ⟨comment, -, h⟩ := bind_eq_ok_iff.mp h
    obtain rfl := Except.ok.inj h
    simp [hfield]

theorem mem_keys_commonFields (h : commonFields raw now = .ok fields) :
    ∀ key ∈ ["comment", "timestamp", "profileImageUrl"] ++ Message.twitchExtras,
      key ∈ Record.keys fields := by
  unfold commonFields at h
  obtain ⟨comment, -, h⟩ := bind_eq_ok_iff.mp h
  obtain rfl := Except.ok.inj h
  simp [Message.twitchExtras, Record.keys]

theorem mem_keys_kindFields {kind : TwitchKind} {found : Record Drawn}
    (h : kindFields raw fields kind = .ok found) :
    ∀ key ∈ Message.neededKeys (.twitch kind),
      key ∈ ["comment", "timestamp", "profileImageUrl"] ++ Message.twitchExtras ∨
        key ∈ Record.keys found := by
  cases kind with
  | comment =>
    obtain rfl := Except.ok.inj h
    simp [Message.neededKeys, Message.summaryExtras, Message.twitchExtras, commentFields,
      Record.keys]
  | bits =>
    simp only [kindFields, bitsFields] at h
    obtain ⟨dollars, -, h⟩ := bind_eq_ok_iff.mp h
    obtain ⟨tier, -, h⟩ := bind_eq_ok_iff.mp h
    obtain rfl := Except.ok.inj h
    simp [Message.neededKeys, Message.summaryExtras, Message.twitchExtras, Record.keys]
  | subscription =>
    simp only [kindFields, subscriptionFields] at h
    obtain ⟨number, -, h⟩ := bind_eq_ok_iff.mp h
    obtain ⟨worth, -, h⟩ := bind_eq_ok_iff.mp h
    obtain rfl := Except.ok.inj h
    simp [Message.neededKeys, Message.summaryExtras, Message.twitchExtras, Record.keys]
  | raid =>
    simp only [kindFields, raidFields] at h
    obtain ⟨size, -, h⟩ := bind_eq_ok_iff.mp h
    obtain ⟨comment, -, h⟩ := bind_eq_ok_iff.mp h
    obtain rfl := Except.ok.inj h
    simp [Message.neededKeys, Message.summaryExtras, Message.twitchExtras, Record.keys]

/-- The catalog lists the type, which every message has, and common fields. -/
theorem mem_keys_of_catalog (h : commonFields raw now = .ok fields) :
    ∀ f ∈ Catalog.twitch.commonFields, f.name = "type" ∨ f.name ∈ Record.keys fields := by
  unfold commonFields at h
  obtain ⟨comment, -, h⟩ := bind_eq_ok_iff.mp h
  obtain rfl := Except.ok.inj h
  simp [Catalog.twitch, Catalog.nameField, Catalog.commentField, Catalog.displayNameField,
    Catalog.isOwnerField, Catalog.textField, Catalog.booleanField, Record.keys]

theorem exists_normalize (h : normalize raw now = .ok (v, fields)) :
    (∀ key ∈ Message.neededKeys v, ∃ d, Record.get? fields key = some d ∧ d.IsThere) ∧
      ∀ f ∈ Catalog.twitch.commonFields, f.name = "type" ∨
        ∃ d, Record.get? fields f.name = some d ∧ d.IsThere := by
  obtain ⟨common, found, hcommon, hfound, rfl, rfl⟩ := normalize_eq_ok h
  have hlack := (mayLack_commonFields hcommon).merge (mayLack_kindFields hcommon hfound)
  refine ⟨fun key hkey => hlack.exists_get? List.not_mem_nil ?_, fun f hf => ?_⟩
  · exact Record.mem_keys_merge.mpr
      ((mem_keys_kindFields hfound key hkey).imp_left (mem_keys_commonFields hcommon key))
  · refine (mem_keys_of_catalog hcommon f hf).imp_right fun hmem => ?_
    exact hlack.exists_get? List.not_mem_nil (Record.mem_keys_merge.mpr (Or.inl hmem))

end Twitch

namespace Message

/-- The variants whose messages have a value for all that their summaries ask for. -/
def Fills (v : Variant) : Prop :=
  v.platform = .twitch ∨ v.platform = .bilibili ∨ v = .youtubeSuperchat

/-- The variant tells which of the four the raw data went through. -/
theorem normalizeRaw?_cases {service : String}
    (h : normalizeRaw? service raw now = some (.ok (v, fields))) :
    v.platform = .youtube ∧ Youtube.normalize raw = .ok (v, fields) ∨
    v.platform = .bilibili ∧ Bilibili.normalize raw = .ok (v, fields) ∨
    v.platform = .niconico ∧ Niconico.normalize raw = .ok (v, fields) ∨
    v.platform = .twitch ∧ Twitch.normalize raw now = .ok (v, fields) := by
  obtain ⟨hplatform, -⟩ := normalizeRaw?_platform h
  have hknown : ∀ p : Platform, servicePlatform? service = some p → v.platform = p := fun p hp =>
    Option.some.inj (hplatform.symm.trans hp)
  unfold normalizeRaw? at h
  split at h
  · exact Or.inl ⟨hknown _ (by decide), Option.some.inj h⟩
  · exact Or.inr (Or.inl ⟨hknown _ (by decide), Option.some.inj h⟩)
  · exact Or.inr (Or.inr (Or.inl ⟨hknown _ (by decide), Option.some.inj h⟩))
  · exact Or.inr (Or.inr (Or.inl ⟨hknown _ (by decide), Option.some.inj h⟩))
  · exact Or.inr (Or.inr (Or.inr ⟨hknown _ (by decide), Option.some.inj h⟩))
  · cases h

theorem exists_needed {service : String} (hv : Fills v)
    (h : normalizeRaw? service raw now = some (.ok (v, fields))) :
    ∀ key ∈ neededKeys v, ∃ d, Record.get? fields key = some d ∧ d.IsThere := by
  rcases normalizeRaw?_cases h with ⟨hplatform, h⟩ | ⟨-, h⟩ | ⟨hplatform, -⟩ | ⟨-, h⟩
  · rcases hv with hv | hv | rfl
    · cases hv.symm.trans hplatform
    · cases hv.symm.trans hplatform
    · exact Youtube.exists_needed h
  · exact Bilibili.exists_needed h
  · rcases hv with hv | hv | rfl
    · cases hv.symm.trans hplatform
    · cases hv.symm.trans hplatform
    · cases hplatform
  · exact (Twitch.exists_normalize h).1

theorem exists_catalog {service : String} (hv : v.platform = .twitch)
    (h : normalizeRaw? service raw now = some (.ok (v, fields))) :
    ∀ f ∈ Catalog.twitch.commonFields, f.name = "type" ∨
      ∃ d, Record.get? fields f.name = some d ∧ d.IsThere := by
  rcases normalizeRaw?_cases h with ⟨hplatform, -⟩ | ⟨hplatform, -⟩ | ⟨hplatform, -⟩ | ⟨-, h⟩
  · cases hv.symm.trans hplatform
  · cases hv.symm.trans hplatform
  · cases hv.symm.trans hplatform
  · exact (Twitch.exists_normalize h).2

/-- What is there stays in the message. -/
theorem exists_payload (v : Variant) {key : String} {d : Drawn}
    (hget : Record.get? fields key = some d) (hd : d.IsThere) :
    ∃ w, Record.get? (ofFields v fields).payload key = some w := by
  by_cases hendpoint : key = "endpoint"
  · exact hendpoint ▸ ⟨_, payload_endpoint v fields⟩
  by_cases htype : key = "type"
  · exact htype ▸ ⟨_, payload_type v fields⟩
  have hkeep : (!d.value.isAbsent) = true := by
    unfold Value.isAbsent
    split
    · exact absurd ‹_› hd
    · rfl
  rw [get?_payload, ofFields, Record.get?_put_of_ne hendpoint, Record.get?_put_of_ne htype,
    Record.get?_filter_of_eq_some hget hkeep]
  exact ⟨d.value, rfl⟩

theorem get?_summary {m : Message}
    (htype : Record.get? m.payload "type" = some (.text m.variant.tag)) :
    ∀ p ∈ ("type", "type") :: summaryKeys m.variant,
      Record.get? m.summary p.1 = Record.get? m.payload p.2 := by
  obtain ⟨hapart, distinct⟩ := List.nodup_cons.mp (nodup_summaryKeys m.variant)
  intro p hp
  rw [summary, summaryOf_eq]
  rcases List.mem_cons.mp hp with rfl | hp
  · exact (get?_gather_of_notMem hapart _).trans htype.symm
  · have hne : p.1 ≠ "type" := fun he => hapart (he ▸ List.mem_map_of_mem hp)
    rw [get?_gather distinct hp, Record.get?_cons, if_neg hne, Record.get?_nil, Option.or_none]

theorem map_fst_summaryKeys (v : Variant) :
    (summaryKeys v).map Prod.fst =
      ["author", "comment", "timestamp", "iconUrl"] ++ summaryExtras v := by
  rw [summaryKeys, List.map_append, List.map_map]
  exact congrArg _ (List.map_id' _)

theorem keys_summary_subset (m : Message) : Record.keys m.summary ⊆
    ["type", "author", "comment", "timestamp", "iconUrl"] ++ summaryExtras m.variant := by
  intro key hkey
  by_contra hout
  rw [List.cons_append, ← map_fst_summaryKeys, List.mem_cons, not_or] at hout
  obtain ⟨value, hvalue⟩ := Record.mem_keys_iff.mp hkey
  rw [summary, summaryOf_eq, get?_gather_of_notMem hout.2, Record.get?_cons,
    if_neg hout.1] at hvalue
  cases hvalue

theorem nodup_keys_summary (m : Message) : (Record.keys m.summary).Nodup := by
  rw [summary, summaryOf_eq]
  exact nodup_gather _ (by simp [Record.keys]) _

theorem mem_keys_summary {m : Message}
    (htype : Record.get? m.payload "type" = some (.text m.variant.tag))
    (hneeded : ∀ key ∈ neededKeys m.variant, ∃ w, Record.get? m.payload key = some w) :
    ∀ key ∈ ["type", "comment", "timestamp", "iconUrl"] ++ summaryExtras m.variant,
      key ∈ Record.keys m.summary := by
  have hmem : ∀ p ∈ ("type", "type") :: summaryKeys m.variant,
      (∃ w, Record.get? m.payload p.2 = some w) → p.1 ∈ Record.keys m.summary := by
    intro p hp hw
    rwa [Record.mem_keys_iff, get?_summary htype p hp]
  intro key hkey
  rcases List.mem_append.mp hkey with hkey | hkey
  · simp only [List.mem_cons, List.not_mem_nil, or_false] at hkey
    rcases hkey with rfl | rfl | rfl | rfl
    · exact hmem ("type", "type") (by simp) ⟨_, htype⟩
    · exact hmem ("comment", "comment") (by simp [summaryKeys, summaryBase])
        (hneeded _ (by simp [neededKeys]))
    · exact hmem ("timestamp", "timestamp") (by simp [summaryKeys, summaryBase])
        (hneeded _ (by simp [neededKeys]))
    · exact hmem ("iconUrl", "profileImageUrl") (by simp [summaryKeys, summaryBase])
        (hneeded _ (by simp [neededKeys]))
  · exact hmem (key, key) (by simp [summaryKeys, hkey]) (hneeded key (by simp [neededKeys, hkey]))

/-- A summary has no other keys than those of every summary and those of its variant, each of them
once and with what the message has under the key that it stands for. Where the variant fills its
summaries, only the author may be missing. On the platform whose fields all have defaults, the
fields that the catalog lists for all messages are there to be read. -/
theorem ofComment_summary {comment : Value} {m : Message}
    (h : ofComment now comment = .ok (some m)) :
    (Record.keys m.summary).Nodup ∧
    (∀ key ∈ Record.keys m.summary,
      key ∈ ["type", "author", "comment", "timestamp", "iconUrl"] ++ summaryExtras m.variant) ∧
    (∀ p ∈ ("type", "type") :: summaryKeys m.variant,
      Record.get? m.summary p.1 = Record.get? m.payload p.2) ∧
    (Fills m.variant → ∀ key ∈ ["type", "comment", "timestamp", "iconUrl"] ++
      summaryExtras m.variant, key ∈ Record.keys m.summary) ∧
    (m.variant.platform = .twitch → ∀ f ∈ Catalog.twitch.commonFields,
      ∃ w, w ≠ .absent ∧ Path.read (.record m.payload) (Path.ofText f.name) = .ok w) := by
  obtain ⟨c, service, raw, v, fields, -, -, -, hfound, rfl⟩ := ofComment_eq_some h
  have htype := payload_type v fields
  refine ⟨nodup_keys_summary _, keys_summary_subset _, get?_summary htype, ?_, ?_⟩
  · intro hfills
    apply mem_keys_summary htype
    intro key hkey
    obtain ⟨d, hget, hd⟩ := exists_needed hfills hfound key hkey
    exact exists_payload v hget hd
  · intro hplatform f hf
    obtain ⟨w, hw⟩ : ∃ w, Record.get? (ofFields v fields).payload f.name = some w := by
      rcases exists_catalog hplatform hfound f hf with hf | ⟨d, hget, hd⟩
      · exact hf ▸ ⟨_, htype⟩
      · exact exists_payload v hget hd
    refine ⟨w, payload_ne_absent v fields _ (Record.mem_of_get?_eq_some hw), ?_⟩
    have hsegments : ∀ f ∈ Catalog.twitch.commonFields,
        (Path.ofText f.name).segments = [f.name] := by
      decide +kernel
    rw [Path.read, hsegments f hf, Path.follow_singleton, Path.select, Value.lookupOrAbsent, hw]
    rfl

/-- A raid of which nothing is known. -/
def bareRaid : Value :=
  .record [("service", .text "twitch"), ("data", .record [("viewerCount", .int 0)])]

theorem ofComment_summary_bareRaid :
    ∃ m, ofComment 0 bareRaid = .ok (some m) ∧ m.variant = .twitch .raid ∧
      "targetDisplayName" ∈ Record.keys m.summary ∧ "endpoint" ∉ Record.keys m.summary ∧
      ∃ w, w ≠ .absent ∧ Path.read (.record m.payload) (Path.ofText "firstMsg") = .ok w := by
  obtain ⟨m, hm⟩ : ∃ m, ofComment 0 bareRaid = .ok (some m) := ⟨_, rfl⟩
  have hvariant : m.variant = .twitch .raid := by
    have hread : ((ofComment 0 bareRaid).toOption.bind id).map Message.variant =
        some (.twitch .raid) := by decide +kernel
    rw [hm] at hread
    exact Option.some.inj hread
  obtain ⟨-, hkeys, -, hfills, hcatalog⟩ := ofComment_summary hm
  rw [hvariant] at hkeys hfills hcatalog
  refine ⟨m, hm, hvariant, hfills (Or.inl rfl) _ (by decide +kernel), ?_, ?_⟩
  · exact fun hkey => absurd (hkeys _ hkey) (by decide +kernel)
  · exact hcatalog rfl (Catalog.booleanField "firstMsg" "First Time Chatter")
      (by simp [Catalog.twitch])

end Message

end Switchboard
