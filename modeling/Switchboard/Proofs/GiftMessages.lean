import Switchboard.Proofs.MessageSources

/-!
# Gifts among messages

Whether a message is of a variant with a gift is decided by whether the raw data has a gift that
counts as true, and whether rules take it for a gift by whether the message says that it is true.
The messages of one platform say so themselves, and the others pass on what the raw data has. So the
two answers agree unless the raw data has something else that counts as true.
-/
namespace Switchboard

namespace Drawn

theorem keys_copied (r : Record Value) (keys : List String) :
    (Record.keys (copied r keys)).Sublist keys := by
  induction keys with
  | nil => exact List.Sublist.refl _
  | cons key keys ih =>
    unfold copied at ih ⊢
    rw [List.filterMap_cons]
    cases Record.get? r key with
    | none => exact ih.cons key
    | some v => exact ih.cons_cons key

theorem get?_copied (r : Record Value) (keys : List String) (key : String) :
    Record.get? (copied r keys) key =
      if key ∈ keys then (Record.get? r key).map fun v => ⟨v, [key]⟩ else none := by
  induction keys with
  | nil => rfl
  | cons k keys ih =>
    unfold copied at ih ⊢
    rw [List.filterMap_cons]
    by_cases hk : key = k
    · subst hk
      cases hr : Record.get? r key with
      | none => simpa [hr] using ih
      | some v => simp [Record.get?_cons]
    · cases hr : Record.get? r k <;> simp [Record.get?_cons, hk, ih]

/-- What the fields of a message say of a gift. -/
def gift? (fields : Record Drawn) : Option Value := (Record.get? fields "hasGift").map Drawn.value

/-- A field that is false unless the raw data has something that counts as true. -/
theorem firstOf_eq_true (r : Record Value) (key : String) :
    (firstOf [] r [key] (made (.bool false))).value = .bool true ↔
      Record.get? r key = some (.bool true) := by
  unfold firstOf field
  cases hr : Record.get? r key with
  | none => simp [firstOf, made, absent, Value.truthy]
  | some v =>
    cases hv : v.truthy with
    | true => simp [hv]
    | false =>
      have hne : v ≠ .bool true := by
        rintro rfl
        cases hv
      simp [hv, firstOf, made, hne]

/-- The keys of the fields are distinct, and this is what the fields say of a gift. -/
structure Declares (fields : Record Drawn) (gift : Option Value) : Prop where
  distinct : (Record.keys fields).Nodup
  gift : gift? fields = gift

/-- Fields that are copied with others beside them pass on what the raw data says. -/
theorem declares_copied (r : Record Value) {keys : List String} {fields : Record Drawn}
    (distinct : (keys ++ Record.keys fields).Nodup) (h : "hasGift" ∈ keys) :
    Declares (copied r keys ++ fields) (Record.get? r "hasGift") where
  distinct := by
    rw [Record.keys, List.map_append]
    exact ((keys_copied r keys).append (List.Sublist.refl _)).nodup distinct
  gift := by
    have hfields : Record.get? fields "hasGift" = none := by
      rw [Record.get?_eq_none_iff]
      exact fun hf => (List.nodup_append.mp distinct).2.2 _ h _ hf rfl
    rw [gift?, Record.get?_append, get?_copied, if_pos h, hfields, Option.or_none, Option.map_map]
    exact Option.map_id'

/-- Fields that are put over others count where they say anything. -/
theorem Declares.merge {fields others : Record Drawn} {gift : Option Value}
    (h : Declares fields gift) (distinct : (Record.keys others).Nodup) :
    Declares (Record.merge fields others) ((gift? others).or gift) where
  distinct := Record.nodup_merge h.distinct others
  gift := by
    rw [← h.gift, gift?, gift?, gift?, Record.get?_merge distinct]
    cases Record.get? others "hasGift" <;> rfl

/-- What is known of the gift of a message. Its fields say that it has one if it is of one of the
variants that say so themselves, or the raw data has the very value true. If its variant is one with
a gift, it is one of these, or the raw data has a gift that counts as true. -/
structure Tells (raw : Record Value) (v : Variant) (fields : Record Drawn) : Prop where
  distinct : (Record.keys fields).Nodup
  gift : gift? fields = some (.bool true) ↔
    v.platform = .twitch ∧ v.kind ≠ .comment ∨ Record.get? raw "hasGift" = some (.bool true)
  truthy : v.kind ≠ .comment →
    v.platform = .twitch ∨ (Value.lookupOrAbsent raw "hasGift").truthy = true

/-- The messages of the platforms that do not put a gift into them. -/
theorem tells_of_platform {raw : Record Value} {v : Variant} {fields : Record Drawn}
    {gift : Option Value} (h : Declares fields gift) (hplatform : v.platform ≠ .twitch)
    (hgift : gift = some (.bool true) ↔ Record.get? raw "hasGift" = some (.bool true))
    (htruthy : v.kind ≠ .comment → (Value.lookupOrAbsent raw "hasGift").truthy = true) :
    Tells raw v fields where
  distinct := h.distinct
  gift := by simp [h.gift, hgift, hplatform]
  truthy hkind := Or.inr (htruthy hkind)

end Drawn

open Drawn

variable {raw : Record Value} {v : Variant} {fields : Record Drawn} {now : Int}

/-! ## What the messages of each platform say -/

namespace Youtube

theorem declares_commonFields (h : commonFields raw = .ok fields) :
    Declares fields (Record.get? raw "hasGift") := by
  unfold commonFields at h
  obtain ⟨comment, -, h⟩ := bind_eq_ok_iff.mp h
  dsimp only at h
  split at h
  · obtain ⟨address, -, h⟩ := bind_eq_ok_iff.mp h
    obtain rfl := Except.ok.inj h
    exact declares_copied raw (by simp [Record.keys]) (by simp)
  · obtain rfl := Except.ok.inj h
    exact declares_copied raw (by simp [Record.keys]) (by simp)

theorem declares_normalize (h : normalize raw = .ok (v, fields)) :
    Declares fields (Record.get? raw "hasGift") := by
  rcases normalize_cases h with ⟨-, hcommon⟩ | ⟨-, common, colors, hcommon, rfl, -⟩
  · exact declares_commonFields hcommon
  · have hextras : gift? (Record.put "colors" (made (.record colors)) (copied raw superchatKeys)) =
        none := by
      rw [gift?, Record.get?_put_of_ne (by decide), get?_copied, if_neg (by decide)]
      rfl
    have hmerged := (declares_commonFields hcommon).merge
      (Record.nodup_put ((keys_copied raw superchatKeys).nodup (by decide)) "colors"
        (made (.record colors)))
    rwa [hextras, Option.none_or] at hmerged

theorem tells_normalize (h : normalize raw = .ok (v, fields)) : Tells raw v fields := by
  have hdeclares := declares_normalize h
  rcases normalize_cases h with ⟨rfl, -⟩ | ⟨rfl, -, -, -, -, htruthy⟩
  · exact tells_of_platform hdeclares (by decide) Iff.rfl (absurd rfl)
  · exact tells_of_platform hdeclares (by decide) Iff.rfl fun _ => htruthy

end Youtube

namespace Bilibili

theorem declares_commonFields (h : commonFields raw = .ok fields) :
    Declares fields (some (pick raw ["hasGift"] (.bool false)).value) := by
  unfold commonFields at h
  obtain ⟨comment, -, h⟩ := bind_eq_ok_iff.mp h
  obtain rfl := Except.ok.inj h
  exact ⟨by simp [Record.keys], rfl⟩

theorem declares_normalize (h : normalize raw = .ok (v, fields)) :
    Declares fields (some (pick raw ["hasGift"] (.bool false)).value) := by
  rcases normalize_cases h with ⟨-, hcommon⟩ | ⟨-, common, gift, hcommon, hgift, rfl, -⟩
  · exact declares_commonFields hcommon
  · unfold giftFields at hgift
    obtain ⟨total, -, hgift⟩ := bind_eq_ok_iff.mp hgift
    obtain ⟨comment, -, hgift⟩ := bind_eq_ok_iff.mp hgift
    obtain rfl := Except.ok.inj hgift
    exact (declares_commonFields hcommon).merge (by simp [Record.keys])

theorem tells_normalize (h : normalize raw = .ok (v, fields)) : Tells raw v fields := by
  have hdeclares := declares_normalize h
  have hpick := Option.some_inj.trans (firstOf_eq_true raw "hasGift")
  rcases normalize_cases h with ⟨rfl, -⟩ | ⟨rfl, -, -, -, -, -, htruthy⟩
  · exact tells_of_platform hdeclares (by decide) hpick (absurd rfl)
  · exact tells_of_platform hdeclares (by decide) hpick fun _ => htruthy

end Bilibili

namespace Niconico

theorem declares_normalize (h : normalize raw = .ok (v, fields)) :
    Declares fields (Record.get? raw "hasGift") := by
  rcases normalize_cases h with ⟨comment, -, rfl⟩ | ⟨comment, -, rfl, -⟩ <;>
    · rw [commonFields, List.append_assoc]
      exact declares_copied raw (by simp [Record.keys]) (by simp)

theorem tells_normalize (h : normalize raw = .ok (v, fields)) : Tells raw v fields := by
  have hdeclares := declares_normalize h
  rcases normalize_cases h with ⟨-, rfl, -⟩ | ⟨-, rfl, -, htruthy⟩
  · exact tells_of_platform hdeclares (by decide) Iff.rfl (absurd rfl)
  · exact tells_of_platform hdeclares (by decide) Iff.rfl fun _ => htruthy

end Niconico

namespace Twitch

theorem declares_commonFields (h : commonFields raw now = .ok fields) :
    Declares fields (some (pick raw ["hasGift"] (.bool false)).value) := by
  unfold commonFields at h
  obtain ⟨comment, -, h⟩ := bind_eq_ok_iff.mp h
  obtain rfl := Except.ok.inj h
  exact ⟨by simp [Record.keys], rfl⟩

/-- The fields of every kind but comments say that there is a gift. -/
theorem declares_kindFields {kind : TwitchKind} {found : Record Drawn}
    (h : kindFields raw fields kind = .ok found) :
    Declares found (if kind = .comment then none else some (.bool true)) := by
  cases kind with
  | comment =>
    obtain rfl := Except.ok.inj h
    exact ⟨by simp [commentFields, Record.keys], rfl⟩
  | bits =>
    obtain ⟨dollars, -, h⟩ := bind_eq_ok_iff.mp h
    obtain ⟨tier, -, h⟩ := bind_eq_ok_iff.mp h
    obtain rfl := Except.ok.inj h
    exact ⟨by simp [Record.keys], rfl⟩
  | subscription =>
    obtain ⟨number, -, h⟩ := bind_eq_ok_iff.mp h
    obtain ⟨worth, -, h⟩ := bind_eq_ok_iff.mp h
    obtain rfl := Except.ok.inj h
    exact ⟨by simp [Record.keys], rfl⟩
  | raid =>
    obtain ⟨size, -, h⟩ := bind_eq_ok_iff.mp h
    obtain ⟨comment, -, h⟩ := bind_eq_ok_iff.mp h
    obtain rfl := Except.ok.inj h
    exact ⟨by simp [Record.keys], rfl⟩

theorem declares_normalize (h : normalize raw now = .ok (v, fields)) :
    Declares fields (if v.kind = .comment then some (pick raw ["hasGift"] (.bool false)).value
      else some (.bool true)) := by
  obtain ⟨common, found, hcommon, hfound, rfl, rfl⟩ := normalize_eq_ok h
  have hdeclares := declares_kindFields hfound
  have hmerged := (declares_commonFields hcommon).merge hdeclares.distinct
  rw [hdeclares.gift] at hmerged
  cases hkind : classify raw <;> rwa [hkind] at hmerged

theorem tells_normalize (h : normalize raw now = .ok (v, fields)) : Tells raw v fields := by
  have hdeclares := declares_normalize h
  obtain ⟨-, -, -, -, rfl, -⟩ := normalize_eq_ok h
  refine ⟨hdeclares.distinct, ?_, fun _ => Or.inl rfl⟩
  rw [hdeclares.gift]
  split
  · rename_i hkind
    simp only [hkind, ne_eq, not_true_eq_false, and_false, false_or]
    exact Option.some_inj.trans (firstOf_eq_true raw "hasGift")
  · rename_i hkind
    simp [hkind, Variant.platform]

end Twitch

/-! ## What rules take for a gift -/

theorem Source.hasGift_iff {r : Record Value} :
    hasGift r = true ↔ Record.get? r "hasGift" = some (.bool true) := by
  unfold hasGift
  split
  · simp [*]
  · rename_i hne
    simp only [Bool.false_eq_true, false_iff]
    exact hne true

namespace Message

theorem tells_normalizeRaw? {service : String}
    (h : normalizeRaw? service raw now = some (.ok (v, fields))) : Tells raw v fields := by
  unfold normalizeRaw? at h
  split at h
  · exact Youtube.tells_normalize (Option.some.inj h)
  · exact Bilibili.tells_normalize (Option.some.inj h)
  · exact Niconico.tells_normalize (Option.some.inj h)
  · exact Niconico.tells_normalize (Option.some.inj h)
  · exact Twitch.tells_normalize (Option.some.inj h)
  · cases h

/-- A message keeps what its fields say, unless that is absent. -/
theorem get?_payload_hasGift (distinct : (Record.keys fields).Nodup) :
    Record.get? (ofFields v fields).payload "hasGift" = some (.bool true) ↔
      gift? fields = some (.bool true) := by
  rw [get?_payload, ofFields, Record.get?_put_of_ne (by decide), Record.get?_put_of_ne (by decide),
    Record.get?_filter distinct, gift?]
  cases Record.get? fields "hasGift" with
  | none => rfl
  | some d =>
    -- the field is left out of the message if its value is absent, and then it is not true either
    cases hd : d.value.isAbsent with
    | true =>
      have hne : d.value ≠ .bool true := by
        intro he
        rw [he] at hd
        cases hd
      simp [hd, hne, Option.filter]
    | false => simp [hd, Option.filter]

/-- A message of a variant with a gift comes from raw data with a gift that counts as true, or from
the one platform whose messages say so themselves. Rules for gifts take these messages and those
whose raw data has the very value true, and rules for comments take all others. So a message of a
variant with a gift is a gift to the rules where the raw data has true or false. -/
theorem ofComment_gift {comment : Value} {m : Message} (h : ofComment now comment = .ok (some m)) :
    ∃ c raw, comment = .record c ∧ Value.lookup c "data" = .record raw ∧
      (m.variant.kind ≠ .comment →
        m.variant.platform = .twitch ∨ (Value.lookupOrAbsent raw "hasGift").truthy = true) ∧
      ∃ gift : Bool,
        (gift = true ↔ m.variant.platform = .twitch ∧ m.variant.kind ≠ .comment ∨
          Record.get? raw "hasGift" = some (.bool true)) ∧
        (m.variant.kind ≠ .comment → (∃ b, Record.get? raw "hasGift" = some (.bool b)) →
          gift = true) ∧
        Source.matchesKind (.text "gift") (.record m.payload) = .ok gift ∧
        Source.matchesKind (.text "superchat") (.record m.payload) = .ok gift ∧
        Source.matchesKind (.text "comment") (.record m.payload) = .ok !gift := by
  obtain ⟨c, service, raw, v, fields, rfl, -, hdata, hfound, rfl⟩ := ofComment_eq_some h
  have htells := tells_normalizeRaw? hfound
  have hgift : Source.hasGift (ofFields v fields).payload = true ↔
      v.platform = .twitch ∧ v.kind ≠ .comment ∨ Record.get? raw "hasGift" = some (.bool true) := by
    rw [Source.hasGift_iff, get?_payload_hasGift htells.distinct, htells.gift]
  refine ⟨c, raw, rfl, hdata, htells.truthy, _, hgift, ?_, rfl, rfl, rfl⟩
  rintro hkind ⟨b, hb⟩
  rw [hgift]
  rcases htells.truthy hkind with hplatform | htruthy
  · exact Or.inl ⟨hplatform, hkind⟩
  · rw [Value.lookupOrAbsent, hb, Option.getD_some, Value.truthy_bool] at htruthy
    exact Or.inr (htruthy ▸ hb)

/-- A gift whose raw data marks it with a value. -/
def markedGift (mark : Value) : Value :=
  .record [("service", .text "niconico"),
    ("data", .record [("hasGift", mark), ("price", .int 500), ("comment", .text "hi")])]

theorem ofComment_gift_marked :
    ∃ m, ofComment 0 (markedGift (.bool true)) = .ok (some m) ∧ m.variant = .niconicoGift ∧
      Source.matchesKind (.text "gift") (.record m.payload) = .ok true ∧
      Source.matchesKind (.text "comment") (.record m.payload) = .ok false := by
  obtain ⟨m, hm⟩ : ∃ m, ofComment 0 (markedGift (.bool true)) = .ok (some m) := ⟨_, rfl⟩
  have hvariant : m.variant = .niconicoGift := by
    have hread : ((ofComment 0 (markedGift (.bool true))).toOption.bind id).map Message.variant =
        some .niconicoGift := by decide +kernel
    rw [hm] at hread
    exact Option.some.inj hread
  obtain ⟨c, raw, hc, hraw, -, gift, -, hbool, hgift, -, hcomment⟩ := ofComment_gift hm
  obtain rfl := Value.record.inj hc
  obtain rfl := Value.record.inj hraw
  obtain rfl := hbool (by rw [hvariant]; decide) ⟨true, rfl⟩
  exact ⟨m, hm, hvariant, hgift, hcomment⟩

/-- A gift that is marked by a number is of a variant with a gift, but a comment to the rules. -/
theorem not_gift_marked_by_number : ¬ ∀ (now : Int) (comment : Value) (m : Message),
    ofComment now comment = .ok (some m) → m.variant.kind ≠ .comment →
      Source.matchesKind (.text "gift") (.record m.payload) = .ok true ∧
        Source.matchesKind (.text "comment") (.record m.payload) = .ok false := by
  intro h
  obtain ⟨m, hm⟩ : ∃ m, ofComment 0 (markedGift (.int 1)) = .ok (some m) := ⟨_, rfl⟩
  have hread : ((ofComment 0 (markedGift (.int 1))).toOption.bind id).map
      (fun m => (m.variant.kind, Source.hasGift m.payload)) = some (.gift, false) := by
    decide +kernel
  rw [hm] at hread
  obtain ⟨hkind, hgift⟩ := Prod.mk.inj (Option.some.inj hread)
  obtain ⟨htrue, -⟩ := h 0 _ m hm (by rw [hkind]; decide)
  have hsame : Source.hasGift m.payload = true := Except.ok.inj htrue
  rw [hgift] at hsame
  cases hsame

end Message

end Switchboard
