import Switchboard.Proofs.DrawnFields
import Switchboard.Proofs.Projections
import Switchboard.Proofs.Relabelling
import Switchboard.Proofs.Routing

/-!
# What each endpoint receives of a message

An action receives the message reduced to its fields, whatever the actions before it have received,
and the default endpoints receive the message and its summary as they were built, unless a
projection before has written into the message.
-/
namespace Switchboard

open Shared

namespace Course

variable {contents : List (Record Shared)}

/-! ## The course of a message that was just built -/

/-- A drawn field is taken from its place in the raw data, or labelled anew. -/
theorem fits_ofDrawn {raw : Shared} {d : Drawn} (hraw : Fits contents raw)
    (hd : d.IsFrom raw.plain) : ∃ more,
    Fits (contents ++ more) (ofDrawn raw d contents.length).1 ∧
      (ofDrawn raw d contents.length).2 = (contents ++ more).length ∧
      (ofDrawn raw d contents.length).1.plain = d.value := by
  have hmade : ∃ more, Fits (contents ++ more) (label d.value contents.length).1 ∧
      (label d.value contents.length).2 = (contents ++ more).length ∧
      (label d.value contents.length).1.plain = d.value := by
    obtain ⟨more, hfits, hnext⟩ := fits_label d.value contents
    exact ⟨more, hfits, hnext, plain_label d.value _⟩
  unfold ofDrawn
  split
  · exact hmade
  · rename_i horigin
    split
    · rename_i s hs
      refine ⟨[], by simpa using hraw.field? hs, by simp, ?_⟩
      rcases hd with hd | hd
      · exact absurd hd (by simpa using horigin)
      · rw [follow_field? hs] at hd
        exact Except.ok.inj hd
    · exact hmade

theorem fits_ofFields {raw : Shared} {fields : Record Drawn} (hraw : Fits contents raw)
    (hfrom : Drawn.AreFrom raw.plain fields) : ∃ more,
    (∀ f ∈ (ofFields raw fields contents.length).1, Fits (contents ++ more) f.2) ∧
      (ofFields raw fields contents.length).2 = (contents ++ more).length ∧
      (ofFields raw fields contents.length).1.map (fun f => (f.1, f.2.plain)) =
        fields.map fun p => (p.1, p.2.value) := by
  induction fields generalizing contents with
  | nil => exact ⟨[], by simp [ofFields], by simp [ofFields], rfl⟩
  | cons p fields ih =>
    obtain ⟨key, d⟩ := p
    obtain ⟨hd, hrest⟩ := (Drawn.areFrom_cons key d fields).mp hfrom
    obtain ⟨first, hfirst, hnext, hplain⟩ := fits_ofDrawn hraw hd
    obtain ⟨more, hmore, hafter, hplains⟩ := ih (hraw.append first) hrest
    rw [← hnext] at hmore hafter hplains
    refine ⟨first ++ more, ?_, ?_, ?_⟩
    · intro f hf
      rw [ofFields] at hf
      rw [← List.append_assoc]
      rcases List.mem_cons.mp hf with rfl | hf
      · exact hfirst.append more
      · exact hmore f hf
    · rw [ofFields, ← List.append_assoc]
      exact hafter
    · rw [ofFields, List.map_cons, List.map_cons, hplains, hplain]

/-- The message of a new course is the record of its fields, and its labels stand for one record
each. -/
theorem start_message {raw : Value} {fields : Record Drawn} (hfrom : Drawn.AreFrom raw fields)
    (id : Nat) : ∃ contents, Fits contents (start raw id fields).message ∧
      (start raw id fields).next = contents.length ∧
      (start raw id fields).message.plain = .record (fields.map fun p => (p.1, p.2.value)) := by
  obtain ⟨contents, hraw, hnext⟩ := fits_label raw []
  rw [List.nil_append, List.length_nil] at hraw hnext
  have hplain := plain_label raw 0
  obtain ⟨more, hfields, hafter, hplains⟩ := @fits_ofFields contents (label raw 0).1 fields hraw
    (by rwa [hplain])
  rw [← hnext] at hfields hafter hplains
  refine ⟨contents ++ more ++ [(ofFields (label raw 0).1 fields (label raw 0).2).1], ?_, ?_, ?_⟩
  · apply Fits.record
    · rw [hafter, List.getElem?_concat_length]
    · intro f hf
      exact (hfields f hf).append _
  · rw [start, List.length_append, List.length_singleton, ← hafter]
  · rw [start, plain_record]
    exact congrArg Value.record hplains

/-! ## What a projection leaves behind -/

/-- A projection that spares the message leaves it as it is. -/
theorem project_spares {c : Course} (hfits : Fits contents c.message)
    (hfree : contents.length ≤ c.next) {specs : List FieldSpec}
    (hspares : Projection.Spares c.message.plain specs) :
    (c.project specs).1.message = c.message ∧ c.next ≤ (c.project specs).1.next := by
  obtain ⟨hmessage, hnext⟩ := Projection.addFields_message hfits (c.logged.map Prod.snd) hfree hspares
  unfold project
  split
  · exact ⟨rfl, Nat.le_refl _⟩
  · dsimp only
    split <;> exact ⟨hmessage, hnext⟩

variable {c₀ c after : Course} {actions : List Action} {sent : List (String × Value)}

/-- An action sends what is projected of the message at first, if those before it spare the
message. -/
theorem sendings_projection (hfits : Fits contents c₀.message) (hfree : contents.length ≤ c₀.next)
    (hsame : c.message = c₀.message) (hle : c₀.next ≤ c.next)
    (h : c.sendings actions = (sent, after, none)) {before rest : List Action} {a : Action}
    (hactions : actions.filter Router.Routing.isSending = before ++ a :: rest)
    (hspares : ∀ b ∈ before, Projection.Spares c₀.message.plain b.fields) :
    ∃ payload, sent[before.length]? = some (a.endpoint, payload) ∧
      (c₀.project a.fields).2.map plain = .ok payload := by
  induction actions generalizing c sent before with
  | nil => simp at hactions
  | cons b actions ih =>
    unfold sendings at h
    cases hb : Router.Routing.isSending b with
    | false =>
      rw [List.filter_cons_of_neg (by simp [hb])] at hactions
      simp only [hb, Bool.false_eq_true, if_false] at h
      exact ih hsame hle h hactions hspares
    | true =>
      rw [List.filter_cons_of_pos hb] at hactions
      rcases hproject : c.project b.fields with ⟨c', f | payload⟩
      · simp [hb, hproject] at h
      · rcases hrest : c'.sendings actions with ⟨sent', last, fault⟩
        simp only [hb, hproject, hrest, if_true, Prod.mk.injEq] at h
        obtain ⟨rfl, rfl, rfl⟩ := h
        cases before with
        | nil =>
          obtain ⟨rfl, -⟩ := List.cons.inj hactions
          have halone := project_of_message hfits hsame hfree hle b.fields
          rw [hproject] at halone
          exact ⟨payload.plain, rfl, halone.symm⟩
        | cons first before =>
          obtain ⟨rfl, htail⟩ := List.cons.inj hactions
          rw [← hsame] at hfits hspares
          obtain ⟨hmessage, hnext⟩ := project_spares hfits (Nat.le_trans hfree hle)
            (hspares b List.mem_cons_self)
          rw [hproject] at hmessage hnext
          rw [hsame] at hfits hspares hmessage
          exact ih hmessage (Nat.le_trans hle hnext) hrest htail fun b hb =>
            hspares b (List.mem_cons_of_mem _ hb)

/-- Actions that all spare the message leave it as it is. -/
theorem sendings_message (hfits : Fits contents c.message) (hfree : contents.length ≤ c.next)
    (h : c.sendings actions = (sent, after, none))
    (hspares : ∀ a ∈ actions.filter Router.Routing.isSending,
      Projection.Spares c.message.plain a.fields) : after.message = c.message := by
  induction actions generalizing c sent with
  | nil =>
    obtain ⟨-, rfl, -⟩ := by simpa [sendings] using h
    rfl
  | cons b actions ih =>
    unfold sendings at h
    cases hb : Router.Routing.isSending b with
    | false =>
      rw [List.filter_cons_of_neg (by simp [hb])] at hspares
      simp only [hb, Bool.false_eq_true, if_false] at h
      exact ih hfits hfree h hspares
    | true =>
      rw [List.filter_cons_of_pos hb] at hspares
      rcases hproject : c.project b.fields with ⟨c', f | payload⟩
      · simp [hb, hproject] at h
      · rcases hrest : c'.sendings actions with ⟨sent', last, fault⟩
        simp only [hb, hproject, hrest, if_true, Prod.mk.injEq] at h
        obtain ⟨rfl, rfl, rfl⟩ := h
        obtain ⟨hmessage, hnext⟩ := project_spares hfits hfree (hspares b List.mem_cons_self)
        rw [hproject] at hmessage hnext
        rw [← hmessage] at hfits hspares ⊢
        exact ih hfits (Nat.le_trans hfree hnext) hrest fun a ha =>
          hspares a (List.mem_cons_of_mem _ ha)

end Course

namespace Message

variable {α β : Type}

/-- A summary is made in the same way whatever the fields hold. -/
theorem summaryOf_map (f : α → β) (v : Variant) (tag : α) (fields : Record α) :
    (summaryOf v tag fields).map (fun p => (p.1, f p.2)) =
      summaryOf v (f tag) (fields.map fun p => (p.1, f p.2)) := by
  have hstart : ([("type", f tag)] : Record β) =
      ([("type", tag)] : Record α).map fun p => (p.1, f p.2) := rfl
  unfold summaryOf
  rw [hstart]
  generalize ([("type", tag)] : Record α) = post
  induction summaryKeys v generalizing post with
  | nil => rfl
  | cons key keys ih =>
    rw [List.foldl_cons, List.foldl_cons, ih, Record.get?_map]
    cases Record.get? fields key.2 with
    | none => rfl
    | some value => rw [Option.map_some, Record.put_map]

/-- The projection of a message of which nothing else has been sent. -/
def projection (m : Message) (raw : Value) (specs : List FieldSpec) : Except Fault Value :=
  ((Course.start raw 0 m.fields).project specs).2.map Shared.plain

end Message

namespace Course

variable {contents : List (Record Shared)}

theorem plain_summary {c : Course} {payload : Record Value} (hrecord : c.OfRecord)
    (h : c.message.plain = .record payload) (v : Variant) :
    (c.summary v).2.plain = .record (Message.summaryOf v (.text v.tag) payload) := by
  obtain ⟨l, fields, hmessage⟩ := hrecord
  rw [hmessage, plain_record] at h
  have hsummary := Message.summaryOf_map plain v (.leaf (.text v.tag)) fields
  rw [plain_leaf, Value.record.inj h] at hsummary
  rw [summary, plain_record, Course.fields, hmessage]
  exact congrArg Value.record hsummary

/-- What is sent of a message without a fault: to each action what is projected of the message at
first, if the actions before spare it, and to the default endpoints the message and its summary, if
all actions do. -/
theorem dispatch_payloads {c : Course} {payload : Record Value} {v : Variant} {verdict : Verdict}
    {enabled : Bool} (hfits : Fits contents c.message) (hfree : contents.length ≤ c.next)
    (hrecord : c.OfRecord) (hplain : c.message.plain = .record payload)
    (h : (c.dispatch v verdict enabled).2 = none) :
    (∀ before a rest, verdict.actions.filter Router.Routing.isSending = before ++ a :: rest →
      (∀ b ∈ before, Projection.Spares (.record payload) b.fields) →
      ∃ p, (c.dispatch v verdict enabled).1[before.length]? = some (a.endpoint, p) ∧
        (c.project a.fields).2.map plain = .ok p) ∧
    ((∀ a ∈ verdict.actions.filter Router.Routing.isSending,
        Projection.Spares (.record payload) a.fields) →
      (c.dispatch v verdict enabled).1.drop
          (verdict.actions.filter Router.Routing.isSending).length =
        if verdict.passes && enabled then
          [(v.endpoint, .record payload),
            (Router.commonEndpoint, .record (Message.summaryOf v (.text v.tag) payload))]
        else []) := by
  unfold dispatch at h ⊢
  rcases hs : c.sendings verdict.actions with ⟨sent, after, _ | f⟩
  · simp only [hs] at h ⊢
    have hlength : sent.length = (verdict.actions.filter Router.Routing.isSending).length := by
      simpa using congrArg List.length (sendings_endpoints hs)
    constructor
    · intro before a rest hactions hspares
      rw [← hplain] at hspares
      obtain ⟨p, hp, hproject⟩ := sendings_projection hfits hfree rfl (Nat.le_refl _) hs hactions
        hspares
      refine ⟨p, ?_, hproject⟩
      rw [List.getElem?_append_left (List.getElem?_eq_some_iff.mp hp).1]
      exact hp
    · intro hspares
      rw [← hplain] at hspares
      have hafter := sendings_message hfits hfree hs hspares
      have hplainAfter : after.message.plain = .record payload := by rw [hafter, hplain]
      rw [← hlength, List.drop_left, plain_summary (hrecord.sendings hs).1 hplainAfter, hplainAfter]
  · simp [hs] at h

end Course

namespace Router

/-- What a comment sends when it is routed to an outcome. -/
theorem dispatch_payloads {b : RuleBook} {format : Value} {enabled : Bool} {now : Int}
    {comment : Value} {m : Message} (brought : Message.ofComment now comment = .ok (some m))
    (routed : (b.dispatch format enabled now comment).2 = true) :
    ∃ verdict, b.process (.record m.payload) = .ok verdict ∧
      (∀ before a rest, verdict.actions.filter Routing.isSending = before ++ a :: rest →
        (∀ b ∈ before, Projection.Spares (.record m.payload) b.fields) →
        ∃ p, (b.dispatch format enabled now comment).1[before.length]? = some (a.endpoint, p) ∧
          m.projection (part comment "data") a.fields = .ok p) ∧
      ((∀ a ∈ verdict.actions.filter Routing.isSending,
          Projection.Spares (.record m.payload) a.fields) →
        (b.dispatch format enabled now comment).1.drop
            (verdict.actions.filter Routing.isSending).length =
          if verdict.passes && enabled then
            [(m.variant.endpoint, .record m.payload), (commonEndpoint, .record m.summary)]
          else []) := by
  obtain ⟨c, raw, rfl, hdata, hfrom⟩ := Message.areFrom_ofComment brought
  obtain ⟨contents, hfits, hnext, hplain⟩ := Course.start_message hfrom 0
  have hraw : part (.record c) "data" = .record raw := hdata
  unfold RuleBook.dispatch at routed ⊢
  rw [brought, hraw] at routed ⊢
  cases hprocess : b.process (.record m.payload) with
  | error f => simp [hprocess] at routed
  | ok verdict =>
    refine ⟨verdict, rfl, ?_⟩
    have hbare : ∀ specs, ((Course.start (.record raw) 0 m.fields).bare.project specs).2.map plain =
        m.projection (.record raw) specs := by
      intro specs
      rw [Course.project_bare]
      rfl
    have hrecord : (Course.start (.record raw) 0 m.fields).bare.OfRecord :=
      Course.ofRecord_start (.record raw) 0 m.fields
    have hmessage : Fits contents (Course.start (.record raw) 0 m.fields).bare.message := hfits
    simp only [hprocess] at routed ⊢
    rcases hdue : (Course.start (.record raw) 0 m.fields).bare.dispatch m.variant verdict enabled
      with ⟨due, fault⟩
    rcases hmade : Osc.made format fault due with ⟨sent, raised⟩
    simp only [hdue, hmade, Option.isNone_iff_eq_none] at routed ⊢
    -- routed to an outcome, nothing was held back of what was due
    obtain rfl := routed
    obtain ⟨rfl, rfl⟩ := Osc.made_eq_none hmade
    obtain ⟨hactions, hdefaults⟩ := Course.dispatch_payloads hmessage (Nat.le_of_eq hnext.symm)
      hrecord hplain (congrArg Prod.snd hdue)
    simp only [hbare, hdue] at hactions hdefaults
    exact ⟨hactions, hdefaults⟩

/-- A comment that is routed to an outcome is tried at each endpoint that it is due at. An action
receives what is projected of the message as if it were the only one, unless an action before has
written into the message. The default endpoints receive the message as it was built and its summary,
unless some action has. Only a path that leads on, through a list, from a record that an earlier
path of its action selects writes into the message. -/
theorem route_payloads {r : Router} {now : Int} {comment : Value} {m : Message}
    (brought : Message.ofComment now comment = .ok (some m))
    (routed : isRouted (r.route now comment).2 = true) :
    ∃ verdict as, r.book.process (.record m.payload) = .ok verdict ∧
      r.sender.Tries r.network as (r.route now comment).1.sender (r.route now comment).1.network ∧
      (∀ before a rest, verdict.actions.filter Routing.isSending = before ++ a :: rest →
        (∀ b ∈ before, Projection.Spares (.record m.payload) b.fields) →
        ∃ p, (as.map Osc.Attempt.sending)[before.length]? = some (a.endpoint, p) ∧
          m.projection (part comment "data") a.fields = .ok p) ∧
      ((∀ a ∈ verdict.actions.filter Routing.isSending,
          Projection.Spares (.record m.payload) a.fields) →
        (as.map Osc.Attempt.sending).drop (verdict.actions.filter Routing.isSending).length =
          if verdict.passes && r.settings.current.enableDefaultEndpoints then
            [(m.variant.endpoint, .record m.payload), (commonEndpoint, .record m.summary)]
          else []) := by
  obtain ⟨as, htries, hdispatch, -⟩ := route_tries r now comment
  have hdue : (r.book.dispatch r.sender.format r.settings.current.enableDefaultEndpoints now
      comment).2 = true := by
    rw [hdispatch]
    exact routed
  obtain ⟨verdict, hprocess, hactions, hdefaults⟩ := dispatch_payloads brought hdue
  rw [hdispatch] at hactions hdefaults
  exact ⟨verdict, as, hprocess, htries, hactions, hdefaults⟩

/-- A router that sends some fields of every message to an endpoint of their own. -/
def namesRouter (paths : List String) : Router where
  book :=
    { rules := [{ actions := [{ endpoint := "/names", fields := paths.map ({ path := · }) }] }] }
  sender := { target := ⟨.text "127.0.0.1", .int 19100⟩, format := .text "string" }
  log := .empty (some 100)

/-- A comment whose name is a record with a list in it. -/
def namedComment : Value :=
  .record [("service", .text "niconico"),
    ("data", .record [("name", .record [("parts", .list [.text "A"])]), ("comment", .text "hi")])]

theorem route_payloads_names :
    ∃ (m : Message) (verdict : Verdict) (as : List Osc.Attempt),
      Message.ofComment 0 namedComment = .ok (some m) ∧
      isRouted ((namesRouter ["name", "name.parts"]).route 0 namedComment).2 = true ∧
      (namesRouter ["name", "name.parts"]).book.process (.record m.payload) = .ok verdict ∧
      (as.map Osc.Attempt.sending).drop 1 =
        [(m.variant.endpoint, .record m.payload), (commonEndpoint, .record m.summary)] := by
  have routed : isRouted ((namesRouter ["name", "name.parts"]).route 0 namedComment).2 = true := by
    decide +kernel
  obtain ⟨verdict, as, hprocess, -, -, hdefaults⟩ := route_payloads rfl routed
  refine ⟨_, verdict, as, rfl, routed, hprocess, ?_⟩
  obtain rfl : (⟨(namesRouter ["name", "name.parts"]).book.rules⟩ : Verdict) = verdict :=
    Except.ok.inj hprocess
  have hsending : ((Verdict.mk (namesRouter ["name", "name.parts"]).book.rules).actions.filter
      Routing.isSending).length = 1 := by decide +kernel
  have hpasses : ((Verdict.mk (namesRouter ["name", "name.parts"]).book.rules).passes &&
      (namesRouter ["name", "name.parts"]).settings.current.enableDefaultEndpoints) = true := by
    decide +kernel
  rw [hsending, if_pos hpasses] at hdefaults
  exact hdefaults (by decide +kernel)

/-- A path that leads into a list of a record that was selected before puts a record where the list
is, and the default endpoint receives that. -/
theorem not_route_payloads_intruding :
    ∃ (m : Message) (built : Osc.Argument) (d : Osc.Delivery),
      Message.ofComment 0 namedComment = .ok (some m) ∧
      isRouted ((namesRouter ["name", "name.parts.0"]).route 0 namedComment).2 = true ∧
      Osc.argument (.record m.payload) (.text "string") = .ok built ∧
      ((namesRouter ["name", "name.parts.0"]).route 0 namedComment).1.network.delivered[1]? = some d ∧
      d.address = m.variant.endpoint ∧ d.argument ≠ built := by
  let built := "\x7b\"name\":\x7b\"parts\":[\"A\"]\x7d,\"timestamp\":null,\"comment\":\"hi\"," ++
    "\"type\":\"niconico\",\"endpoint\":\"/onecomme/niconico/comment\"\x7d"
  cases h : ((namesRouter ["name", "name.parts.0"]).route 0 namedComment).1.network.delivered[1]? with
  | none =>
    have hsome : ((namesRouter ["name", "name.parts.0"]).route 0
      namedComment).1.network.delivered[1]?.isSome = true := by decide +kernel
    rw [h] at hsome
    cases hsome
  | some d =>
    have haddress : (((namesRouter ["name", "name.parts.0"]).route 0
        namedComment).1.network.delivered[1]?.map (·.address)) =
          some (Variant.endpoint .niconicoComment) := by decide +kernel
    have hargument : (((namesRouter ["name", "name.parts.0"]).route 0
        namedComment).1.network.delivered[1]?.map (·.argument)) ≠ some (.string built) := by
      decide +kernel
    rw [h] at haddress hargument
    refine ⟨_, .string built, d, rfl, by decide +kernel, by decide +kernel, rfl, ?_, ?_⟩
    · exact Option.some.inj haddress
    · intro hsame
      exact hargument (congrArg some hsame)

end Router

end Switchboard
