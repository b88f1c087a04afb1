import Switchboard.Proofs.SenderAccounting
import Switchboard.Router

/-!
# What a comment is due to send

While a message is routed, entries are logged for it, and a projection also changes the data of
these. What is projected does not depend on them. So the rules, the settings and a comment say what
is due to be sent, and with the format of the sender what is sent: neither the log nor the answers
of the network do.
-/
namespace Switchboard

namespace Osc

/-- What a sender of some format makes of the sendings that are due, with the fault that ends them:
the first one that a payload raises, or else the one that is given. -/
def made (format : Value) (fault : Option Fault) :
    List (String × Value) → List (String × Value) × Option Fault
  | [] => ([], fault)
  | sending :: due =>
    match raised? format sending.2 with
    | some f => ([], some f)
    | none =>
      let (sent, fault) := made format fault due
      (sending :: sent, fault)

variable {format : Value} {fault : Option Fault}

theorem made_append (due others : List (String × Value)) : made format fault (due ++ others) =
    match made format none due with
    | (sent, some f) => (sent, some f)
    | (sent, none) =>
      let (rest, fault) := made format fault others
      (sent ++ rest, fault) := by
  induction due with
  | nil => rfl
  | cons sending due ih =>
    rw [List.cons_append, made, made]
    cases raised? format sending.2 with
    | some f => rfl
    | none =>
      rw [ih]
      rcases made format none due with ⟨sent, _ | f⟩ <;> rfl

theorem made_sublist (due : List (String × Value)) : (made format fault due).1.Sublist due := by
  induction due with
  | nil => exact .refl []
  | cons sending due ih =>
    rw [made]
    cases raised? format sending.2 with
    | some f => exact List.nil_sublist _
    | none => exact ih.cons_cons sending

/-- Without a fault all that is due is sent. -/
theorem made_eq_none {due sent : List (String × Value)} (h : made format fault due = (sent, none)) :
    fault = none ∧ sent = due := by
  induction due generalizing sent with
  | nil => simpa [made, eq_comm, and_comm] using h
  | cons sending due ih =>
    rw [made] at h
    cases hr : raised? format sending.2 with
    | some f => simp [hr] at h
    | none =>
      rcases hrest : made format fault due with ⟨rest, after⟩
      simp only [hr, hrest, Prod.mk.injEq] at h
      obtain ⟨rfl, rfl⟩ := h
      obtain ⟨hfault, rfl⟩ := ih hrest
      exact ⟨hfault, rfl⟩

end Osc

namespace Projection

/-- A field that is added is written at its path, if the message has it. -/
theorem addField_cases {view after : View} {spec : FieldSpec} (h : addField view spec = .ok after) :
    after = view ∨ ∃ value, spec.enabled = true ∧
      view.message.read (Path.ofText spec.path) = .ok value ∧ value.isAbsent = false ∧
      after = view.write (Path.ofText spec.path) value := by
  unfold addField at h
  cases he : spec.enabled with
  | false =>
    simp only [he, Bool.not_false, if_true, pure, Except.pure, Except.ok.injEq] at h
    exact Or.inl h.symm
  | true =>
    cases hr : view.message.read (Path.ofText spec.path) with
    | error f => simp [he, hr, bind, Except.bind] at h
    | ok value =>
      cases ha : value.isAbsent <;>
        simp only [he, hr, ha, bind, Except.bind, pure, Except.pure, Except.ok.injEq,
          Bool.not_true, Bool.false_eq_true, if_false, if_true] at h
      · exact Or.inr ⟨value, rfl, rfl, ha, h.symm⟩
      · exact Or.inl h.symm

namespace View

/-- The view without the data of the log. -/
def alone (view : View) : View := { view with others := [] }

theorem write_alone (view : View) (p : Path) (value : Shared) :
    view.alone.write p value = (view.write p value).alone := by
  unfold write alone
  dsimp only
  split <;> rfl

theorem addField_alone (view : View) (spec : FieldSpec) :
    addField view.alone spec = (addField view spec).map alone := by
  have hmessage : view.alone.message = view.message := rfl
  unfold addField
  rw [hmessage]
  cases spec.enabled with
  | false => rfl
  | true =>
    cases hr : view.message.read (Path.ofText spec.path) with
    | error f => simp [hr, bind, Except.bind, Except.map]
    | ok value =>
      cases ha : value.isAbsent <;>
        simp [hr, ha, bind, Except.bind, pure, Except.pure, Except.map, write_alone]

theorem addFields_alone (view : View) (specs : List (Except Fault FieldSpec)) :
    addFields view.alone specs =
      ((addFields view specs).1.alone, (addFields view specs).2) := by
  induction specs generalizing view with
  | nil => rfl
  | cons spec specs ih =>
    unfold addFields
    cases spec with
    | error f => rfl
    | ok spec =>
      simp only [Except.bind, addField_alone]
      cases addField view spec with
      | error f => rfl
      | ok view => exact ih view

/-- The message and the projection are records. -/
structure OfRecords (view : View) : Prop where
  message : ∃ l fields, view.message = .record l fields
  projected : ∃ l fields, view.projected = .record l fields

theorem OfRecords.write {view : View} (h : view.OfRecords) (p : Path) (value : Shared) :
    (view.write p value).OfRecords := by
  obtain ⟨⟨l, fields, hm⟩, k, projected, hp⟩ := h
  constructor <;> simp only [View.write, View.apply, hm, hp, Shared.apply] <;> exact ⟨_, _, rfl⟩

theorem OfRecords.addFields {view : View} (h : view.OfRecords) (specs : List FieldSpec) :
    (Projection.addFields view (specs.map .ok)).1.OfRecords := by
  induction specs generalizing view with
  | nil => exact h
  | cons spec specs ih =>
    simp only [List.map_cons, Projection.addFields, Except.bind]
    split
    · rename_i hadd
      rcases addField_cases hadd with rfl | ⟨value, -, -, -, rfl⟩
      · exact ih h
      · exact ih (h.write _ value)
    · exact h

end View

end Projection

theorem Variant.endpoint_ne (v : Variant) : v.endpoint ≠ "" := by
  intro he
  have hlength := congrArg String.length he
  simp [endpoint, String.length_append] at hlength

namespace Course

/-- The course without what has been logged. -/
def bare (c : Course) : Course := { c with logged := [] }

@[simp] theorem bare_keep (c : Course) (id : Nat) (data : Shared) : (c.keep id data).bare = c.bare :=
  rfl

@[simp] theorem bare_message (c : Course) : c.bare.message = c.message := rfl

theorem project_bare (c : Course) (specs : List FieldSpec) :
    c.bare.project specs = ((c.project specs).1.bare, (c.project specs).2) := by
  unfold project
  split
  · rfl
  · have halone : Projection.start c.bare.message (c.bare.logged.map Prod.snd) c.bare.next =
        (Projection.start c.message (c.logged.map Prod.snd) c.next).alone := rfl
    dsimp only
    rw [halone, Projection.View.addFields_alone]
    dsimp only
    split <;> rfl

/-- What actions are due to send, one after the other, with the course after them and the fault that
ends them. -/
def sendings (c : Course) : List Action → List (String × Value) × Course × Option Fault
  | [] => ([], c, none)
  | a :: actions =>
    if Router.Routing.isSending a then
      match c.project a.fields with
      | (c, .ok payload) =>
        let (rest, c, fault) := c.sendings actions
        ((a.endpoint, payload.plain) :: rest, c, fault)
      | (c, .error f) => ([], c, some f)
    else c.sendings actions

/-- What a message of a variant is due to send after a verdict on it, with the fault that ends
that. -/
def dispatch (c : Course) (v : Variant) (verdict : Verdict) (enabled : Bool) :
    List (String × Value) × Option Fault :=
  match c.sendings verdict.actions with
  | (sent, _, some f) => (sent, some f)
  | (sent, c, none) =>
    (sent ++ if verdict.passes && enabled then
      [(v.endpoint, c.message.plain), (Router.commonEndpoint, (c.summary v).2.plain)] else [], none)

/-- Without a fault the actions that send the message on do so in their order. -/
theorem sendings_endpoints {c after : Course} {actions : List Action} {sent : List (String × Value)}
    (h : c.sendings actions = (sent, after, none)) :
    sent.map Prod.fst = (actions.filter Router.Routing.isSending).map (·.endpoint) := by
  induction actions generalizing c sent with
  | nil =>
    simp only [sendings, Prod.mk.injEq] at h
    simp [← h.1]
  | cons a actions ih =>
    unfold sendings at h
    cases ha : Router.Routing.isSending a with
    | false =>
      simp only [ha, Bool.false_eq_true, if_false] at h
      simpa [ha] using ih h
    | true =>
      rcases hp : c.project a.fields with ⟨c', f | payload⟩
      · simp [ha, hp] at h
      · rcases hrest : c'.sendings actions with ⟨rest, last, fault⟩
        simp only [ha, hp, hrest, if_true, Prod.mk.injEq] at h
        obtain ⟨rfl, rfl, rfl⟩ := h
        simp [ha, ih hrest]

/-- The message of the course is a record. -/
def OfRecord (c : Course) : Prop := ∃ l fields, c.message = .record l fields

theorem ofRecord_start (raw : Value) (id : Nat) (fields : Record Drawn) :
    (start raw id fields).OfRecord := ⟨_, _, rfl⟩

/-- A projection of a record is a record, and it leaves one behind. -/
theorem OfRecord.project {c after : Course} (h : c.OfRecord) {specs : List FieldSpec}
    {result : Except Fault Shared} (hp : c.project specs = (after, result)) :
    after.OfRecord ∧ ∀ payload, result = .ok payload → ∃ l fields, payload = .record l fields := by
  unfold Course.project at hp
  split at hp
  · obtain ⟨rfl, rfl⟩ := Prod.mk.inj hp
    refine ⟨h, ?_⟩
    rintro _ ⟨⟩
    exact h
  · have hview : (Projection.start c.message (c.logged.map Prod.snd) c.next).OfRecords :=
      ⟨h, _, _, rfl⟩
    have hafter := hview.addFields specs
    dsimp only at hp
    split at hp <;> obtain ⟨rfl, rfl⟩ := Prod.mk.inj hp
    · refine ⟨hafter.message, ?_⟩
      rintro _ ⟨⟩
      exact hafter.projected
    · exact ⟨hafter.message, nofun⟩

/-- What can be put into a datagram: a record, for an endpoint with a name. -/
def IsDue (s : String × Value) : Prop := s.1 ≠ "" ∧ ∃ fields, s.2 = .record fields

theorem endpoint_ne_of_isSending {a : Action} (h : Router.Routing.isSending a = true) :
    a.endpoint ≠ "" := by
  intro he
  simp [Router.Routing.isSending, he] at h

theorem OfRecord.sendings {c after : Course} (h : c.OfRecord) {actions : List Action}
    {sent : List (String × Value)} {fault : Option Fault}
    (hs : c.sendings actions = (sent, after, fault)) :
    after.OfRecord ∧ ∀ s ∈ sent, IsDue s := by
  induction actions generalizing c sent with
  | nil =>
    simp only [Course.sendings, Prod.mk.injEq] at hs
    obtain ⟨rfl, rfl, -⟩ := hs
    exact ⟨h, by simp⟩
  | cons a actions ih =>
    unfold Course.sendings at hs
    cases ha : Router.Routing.isSending a with
    | false =>
      simp only [ha, Bool.false_eq_true, if_false] at hs
      exact ih h hs
    | true =>
      rcases hp : c.project a.fields with ⟨c', f | payload⟩ <;> have hproject := h.project hp
      · simp only [ha, hp, if_true, Prod.mk.injEq] at hs
        obtain ⟨rfl, rfl, -⟩ := hs
        exact ⟨hproject.1, by simp⟩
      · rcases hrest : c'.sendings actions with ⟨rest, last, fault'⟩
        simp only [ha, hp, hrest, if_true, Prod.mk.injEq] at hs
        obtain ⟨rfl, rfl, rfl⟩ := hs
        obtain ⟨hlast, hdue⟩ := ih hproject.1 hrest
        obtain ⟨l, fields, rfl⟩ := hproject.2 payload rfl
        refine ⟨hlast, ?_⟩
        intro s hs
        rcases List.mem_cons.mp hs with rfl | hs
        · exact ⟨endpoint_ne_of_isSending ha, _, by simp [Shared.plain]; rfl⟩
        · exact hdue s hs

theorem OfRecord.dispatch {c : Course} (h : c.OfRecord) (v : Variant) (verdict : Verdict)
    (enabled : Bool) : ∀ s ∈ (c.dispatch v verdict enabled).1, IsDue s := by
  unfold Course.dispatch
  rcases hs : c.sendings verdict.actions with ⟨sent, after, _ | f⟩ <;>
    obtain ⟨⟨l, fields, hm⟩, hdue⟩ := h.sendings hs
  · intro s hs
    rcases List.mem_append.mp hs with hs | hs
    · exact hdue s hs
    · split at hs
      · simp only [List.mem_cons, List.not_mem_nil, or_false] at hs
        rcases hs with rfl | rfl
        · exact ⟨v.endpoint_ne, _, by rw [hm, Shared.plain]⟩
        · exact ⟨(by decide : Router.commonEndpoint ≠ ""), _, by rw [summary, Shared.plain]⟩
      · cases hs
  · exact hdue

end Course

/-- What a comment sends by the rules of a book and a sender of some format, and whether it is
routed to an outcome. -/
def RuleBook.dispatch (b : RuleBook) (format : Value) (enabled : Bool) (now : Int)
    (comment : Value) : List (String × Value) × Bool :=
  match Message.ofComment now comment with
  | .ok (some m) =>
    match b.process (.record m.payload) with
    | .ok verdict =>
      let (due, fault) := (Course.start (Router.part comment "data") 0 m.fields).bare.dispatch
        m.variant verdict enabled
      let (sent, fault) := Osc.made format fault due
      (sent, fault.isNone)
    | .error _ => ([], false)
  | _ => ([], false)

theorem RuleBook.isDue_of_mem_dispatch {b : RuleBook} {format : Value} {enabled : Bool} {now : Int}
    {comment : Value} {s : String × Value}
    (h : s ∈ (b.dispatch format enabled now comment).1) : Course.IsDue s := by
  unfold dispatch at h
  split at h
  · split at h
    · exact Course.OfRecord.dispatch (c := (Course.start _ 0 _).bare)
        (Course.ofRecord_start _ 0 _) _ _ _ s ((Osc.made_sublist _).subset h)
    · cases h
  · cases h

end Switchboard
