import Switchboard.Proofs.DrawnFields
import Switchboard.Proofs.SharedRecords
import Switchboard.Rule.Evaluation

/-!
# The source of a message

A message has the type and the endpoint of its variant, whatever its comment brought under these
keys, and nothing in it is absent. So its source is found again: the type of a message tells its
platform, but for the last platform, where a service would come before the type. No message of that
platform has a service, since its fields are built one by one and none of them is called so.
-/
namespace Switchboard

namespace Variant

/-- The tags of all platforms but the last are told by how they start. -/
theorem ofTag?_tag (v : Variant) :
    Source.ofTag? v.tag = if v.platform = .twitch then none else some v.platform := by
  cases v with
  | twitch kind => cases kind <;> decide +kernel
  | _ => decide +kernel

theorem startsWith_tag (kind : TwitchKind) :
    Source.startsWith "twitch" (Variant.twitch kind).tag = true := by
  cases kind <;> decide +kernel

theorem eq_twitch_of_platform {v : Variant} (h : v.platform = .twitch) :
    ∃ kind, v = .twitch kind := by
  cases v with
  | twitch kind => exact ⟨kind, rfl⟩
  | _ => cases h

/-- No two variants share both their platform and their kind. -/
theorem filter_all (v : Variant) :
    (all.filter fun w => w.platform = v.platform ∧ w.kind = v.kind) = [v] := by
  cases v with
  | twitch kind => cases kind <;> rfl
  | _ => rfl

end Variant

/-- The source of a record with the type of a variant. -/
theorem Source.ofRecord_of_tag {r : Record Value} {v : Variant}
    (htype : Record.get? r "type" = some (.text v.tag))
    (hservice : v.platform = .twitch → Record.get? r "service" = none) :
    Source.ofRecord r = .ok v.platform.name := by
  have htag : (Value.lookup r "type").text? = some v.tag := by
    rw [Value.lookup, htype]
    rfl
  unfold Source.ofRecord
  simp only [htag, Option.bind_some, v.ofTag?_tag]
  by_cases h : v.platform = .twitch
  -- the service is asked for before the tag, and there is none
  · obtain ⟨kind, rfl⟩ := Variant.eq_twitch_of_platform h
    have hnone : (Value.lookup r "service").given = false := by
      rw [Value.lookup, hservice h]
      rfl
    simp only [h, if_true, hnone, Option.any_some, Variant.startsWith_tag]
    rfl
  · simp only [h, if_false]
    rfl

variable {raw : Record Value} {v : Variant} {fields : Record Drawn} {now : Int}

namespace Twitch

theorem get?_commonFields (h : commonFields raw now = .ok fields) :
    Record.get? fields "service" = none := by
  unfold commonFields at h
  obtain ⟨comment, -, h⟩ := bind_eq_ok_iff.mp h
  obtain rfl := Except.ok.inj h
  rfl

theorem get?_kindFields {kind : TwitchKind} {found : Record Drawn}
    (h : kindFields raw fields kind = .ok found) : Record.get? found "service" = none := by
  cases kind with
  | comment =>
    obtain rfl := Except.ok.inj h
    rfl
  | bits =>
    obtain ⟨dollars, -, h⟩ := bind_eq_ok_iff.mp h
    obtain ⟨tier, -, h⟩ := bind_eq_ok_iff.mp h
    obtain rfl := Except.ok.inj h
    rfl
  | subscription =>
    obtain ⟨number, -, h⟩ := bind_eq_ok_iff.mp h
    obtain ⟨worth, -, h⟩ := bind_eq_ok_iff.mp h
    obtain rfl := Except.ok.inj h
    rfl
  | raid =>
    obtain ⟨size, -, h⟩ := bind_eq_ok_iff.mp h
    obtain ⟨comment, -, h⟩ := bind_eq_ok_iff.mp h
    obtain rfl := Except.ok.inj h
    rfl

/-- No field is called after the service. -/
theorem get?_normalize (h : normalize raw now = .ok (v, fields)) :
    Record.get? fields "service" = none := by
  obtain ⟨common, found, hcommon, hfound, -, rfl⟩ := normalize_eq_ok h
  exact Record.get?_merge_eq_none (get?_commonFields hcommon) (get?_kindFields hfound)

end Twitch

namespace Message

/-- The platform that a service stands for; one of them has two services. -/
def servicePlatform? (service : String) : Option Platform :=
  if service = "niconama" then some .niconico else Platform.ofName? service

/-- Raw data of a service is brought to a variant of its platform, and carries no service along
where that would hide the platform. -/
theorem normalizeRaw?_platform {service : String}
    (h : normalizeRaw? service raw now = some (.ok (v, fields))) :
    servicePlatform? service = some v.platform ∧
      (v.platform = .twitch → Record.get? fields "service" = none) := by
  unfold normalizeRaw? at h
  split at h
  · rcases Youtube.normalize_cases (Option.some.inj h) with ⟨rfl, -⟩ | ⟨rfl, -⟩ <;>
      exact ⟨by decide, nofun⟩
  · rcases Bilibili.normalize_cases (Option.some.inj h) with ⟨rfl, -⟩ | ⟨rfl, -⟩ <;>
      exact ⟨by decide, nofun⟩
  · rcases Niconico.normalize_cases (Option.some.inj h) with ⟨-, rfl, -⟩ | ⟨-, rfl, -⟩ <;>
      exact ⟨by decide, nofun⟩
  · rcases Niconico.normalize_cases (Option.some.inj h) with ⟨-, rfl, -⟩ | ⟨-, rfl, -⟩ <;>
      exact ⟨by decide, nofun⟩
  · obtain ⟨-, -, -, -, rfl, -⟩ := Twitch.normalize_eq_ok (Option.some.inj h)
    exact ⟨rfl, fun _ => Twitch.get?_normalize (Option.some.inj h)⟩
  · cases h

theorem get?_payload (m : Message) (key : String) :
    Record.get? m.payload key = (Record.get? m.fields key).map Drawn.value :=
  Record.get?_map Drawn.value m.fields key

theorem payload_type (v : Variant) (fields : Record Drawn) :
    Record.get? (ofFields v fields).payload "type" = some (.text v.tag) := by
  rw [get?_payload, ofFields, Record.get?_put_of_ne (by decide), Record.get?_put_self]
  rfl

theorem payload_endpoint (v : Variant) (fields : Record Drawn) :
    Record.get? (ofFields v fields).payload "endpoint" = some (.text v.endpoint) := by
  rw [get?_payload, ofFields, Record.get?_put_self]
  rfl

/-- A message has no key that is not its type or its endpoint, or one of the fields. -/
theorem payload_eq_none {key : String} (htype : key ≠ "type") (hendpoint : key ≠ "endpoint")
    (h : Record.get? fields key = none) : Record.get? (ofFields v fields).payload key = none := by
  rw [get?_payload, ofFields, Record.get?_put_of_ne hendpoint, Record.get?_put_of_ne htype,
    Record.get?_filter_eq_none h]
  rfl

theorem payload_ne_absent (v : Variant) (fields : Record Drawn) :
    ∀ p ∈ (ofFields v fields).payload, p.2 ≠ .absent := by
  intro p hp
  obtain ⟨q, hq, rfl⟩ := List.mem_map.mp hp
  rcases Record.mem_put hq with rfl | hq
  · exact nofun
  · rcases Record.mem_put hq with rfl | hq
    · exact nofun
    · have hthere := (List.mem_filter.mp hq).2
      intro habsent
      rw [show q.2.value = .absent from habsent] at hthere
      cases hthere

/-- The source of a message is its platform. -/
theorem detect_payload {service : String}
    (h : normalizeRaw? service raw now = some (.ok (v, fields))) :
    Source.detect (.record (ofFields v fields).payload) = .ok v.platform.name := by
  obtain ⟨-, hservice⟩ := normalizeRaw?_platform h
  apply Source.ofRecord_of_tag (payload_type v fields)
  intro hplatform
  exact payload_eq_none (by decide) (by decide) (hservice hplatform)

end Message

/-- A group that asks for nothing but a source asks where the message comes from. -/
theorem ConditionGroup.holds_of_source {g : ConditionGroup} {s source : String} {message : Value}
    (hs : s ≠ "") (hsource : g.source = some s) (hkind : g.messageType = none)
    (hconditions : g.conditions = []) (hdetect : Source.detect message = .ok source) :
    g.holds message = .ok (decide (s = source)) := by
  have hselects : g.selectsSource message = .ok (decide (s = source)) := by
    simp only [selectsSource, hsource, beq_iff_eq, hs, if_false, hdetect]
    change Except.ok (source == s) = _
    rw [beq_eq_decide, decide_eq_decide.mpr eq_comm]
  have hany : g.selectsKind message = .ok true := by rw [selectsKind, hkind]
  unfold holds
  rw [hselects, hany, hconditions]
  by_cases h : s = source <;> simp [h, bind, Except.bind, pure, Except.pure]

namespace Message

/-- A message has the only variant of its platform and kind, and the platform is that of the service
that its comment names. Its type and its endpoint are those of the variant, nothing in it is absent,
and its source is its platform, so that a group with a source alone holds of it where that source is
the platform. -/
theorem ofComment_source {comment : Value} {m : Message}
    (h : ofComment now comment = .ok (some m)) :
    (Variant.all.filter fun v => v.platform = m.variant.platform ∧ v.kind = m.variant.kind) =
      [m.variant] ∧
    (∃ c service, comment = .record c ∧ Value.lookup c "service" = .text service ∧
      servicePlatform? service = some m.variant.platform) ∧
    Record.get? m.payload "type" = some (.text m.variant.tag) ∧
    Record.get? m.payload "endpoint" = some (.text m.variant.endpoint) ∧
    (∀ p ∈ m.payload, p.2 ≠ .absent) ∧
    Source.detect (.record m.payload) = .ok m.variant.platform.name ∧
    ∀ (g : ConditionGroup) (s : String), s ≠ "" → g.source = some s → g.messageType = none →
      g.conditions = [] →
        g.holds (.record m.payload) = .ok (decide (s = m.variant.platform.name)) := by
  obtain ⟨c, service, raw, v, fields, rfl, hservice, -, hfound, rfl⟩ := ofComment_eq_some h
  obtain ⟨hplatform, -⟩ := normalizeRaw?_platform hfound
  have hdetect := detect_payload hfound
  refine ⟨v.filter_all, ⟨c, service, rfl, hservice, hplatform⟩, payload_type v fields,
    payload_endpoint v fields, payload_ne_absent v fields, hdetect, ?_⟩
  intro g s hs hsource hkind hconditions
  exact ConditionGroup.holds_of_source hs hsource hkind hconditions hdetect

/-- A cheer whose raw data claims another service, type and endpoint. -/
def claimingComment : Value :=
  .record [("service", .text "twitch"),
    ("data", .record [("bits", .int 100), ("service", .text "youtube"), ("type", .text "bilibili"),
      ("endpoint", .text "/elsewhere"), ("isMember", .bool true), ("userLevel", .int 3)])]

theorem ofComment_source_claiming :
    ∃ m, ofComment 0 claimingComment = .ok (some m) ∧ m.variant = .twitch .bits ∧
      Source.detect (.record m.payload) = .ok "twitch" ∧
      ConditionGroup.holds { source := some "youtube" } (.record m.payload) = .ok false := by
  obtain ⟨m, hm⟩ : ∃ m, ofComment 0 claimingComment = .ok (some m) := ⟨_, rfl⟩
  have hvariant : m.variant = .twitch .bits := by
    have hread : ((ofComment 0 claimingComment).toOption.bind id).map Message.variant =
        some (.twitch .bits) := by decide +kernel
    rw [hm] at hread
    exact Option.some.inj hread
  obtain ⟨-, -, -, -, -, hdetect, hholds⟩ := ofComment_source hm
  rw [hvariant] at hdetect hholds
  exact ⟨m, hm, hvariant, hdetect, hholds _ "youtube" (by decide) rfl rfl rfl⟩

end Message

end Switchboard
