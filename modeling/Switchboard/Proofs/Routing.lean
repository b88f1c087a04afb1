import Switchboard.Proofs.Dispatch
import Switchboard.Proofs.DrawnFields

/-!
# What routing a comment sends

A message goes to the endpoints of the actions of the rules that match it, and then to the two
default ones if no rule matches or one that does lets it pass. Every endpoint is tried once, in this
order, whatever became of those before it. The outcome tells the endpoints that were reached from
those that were not, and the log holds one entry for the comment and one for each endpoint.
-/
namespace Switchboard

namespace Osc

/-- A send that was tried, with its answer. -/
structure Attempt where
  endpoint : String
  payload : Value
  success : Bool

/-- The sender makes attempts one after the other, and each has the answer that the sender gives. -/
inductive Sender.Tries : Sender → Network → List Attempt → Sender → Network → Prop
  | nil (s : Sender) (net : Network) : Tries s net [] s net
  | cons {s s₁ s₂ : Sender} {net net₁ net₂ : Network} {a : Attempt} {as : List Attempt}
    (first : s.send net a.endpoint a.payload = .ok (a.success, s₁, net₁))
    (rest : Tries s₁ net₁ as s₂ net₂) : Tries s net (a :: as) s₂ net₂

theorem Sender.Tries.append {s s₁ s₂ : Sender} {net net₁ net₂ : Network} {as bs : List Attempt}
    (h : Tries s net as s₁ net₁) (h' : Tries s₁ net₁ bs s₂ net₂) :
    Tries s net (as ++ bs) s₂ net₂ := by
  induction h with
  | nil => exact h'
  | cons first _ ih => exact .cons first (ih h')

/-- No attempt changes the format. -/
theorem Sender.Tries.format {s after : Sender} {net net' : Network} {as : List Attempt}
    (h : s.Tries net as after net') : after.format = s.format := by
  induction h with
  | nil => rfl
  | cons first _ ih => exact ih.trans (send_format first)

namespace Attempt

/-- The endpoints of the attempts that were answered in one way. -/
def answered (success : Bool) (as : List Attempt) : List String :=
  (as.filter (·.success == success)).map (·.endpoint)

/-- What the log holds of an attempt. -/
def traffic (a : Attempt) : Traffic := .outgoing (.text a.endpoint) a.success

/-- What is sent, and where to. -/
def sending (a : Attempt) : String × Value := (a.endpoint, a.payload)

theorem answered_append (success : Bool) (as bs : List Attempt) :
    answered success (as ++ bs) = answered success as ++ answered success bs := by
  simp [answered]

end Attempt

end Osc

namespace Log

/-- The log without the data of its entries, which a later projection may still change. -/
def bare (log : Log) : Log :=
  { log with entries := log.entries.map fun e => { e with data := .null } }

/-- Records entries without data one after the other. -/
def recordAll (log : Log) (now : Int) (ts : List Traffic) : Log :=
  ts.foldl (fun log t => (log.record now t .null []).1) log

theorem recordAll_append (log : Log) (now : Int) (ts us : List Traffic) :
    log.recordAll now (ts ++ us) = (log.recordAll now ts).recordAll now us := List.foldl_append

theorem newest_map {α β : Type} (f : α → β) (capacity : Option Nat) (items : List α) :
    newest capacity (items.map f) = (newest capacity items).map f := by
  cases capacity with
  | none => rfl
  | some n => simp [newest, List.map_drop]

/-- An entry is recorded in the same way whatever its data is. -/
theorem bare_record (log : Log) (now : Int) (t : Traffic) (data : Value) (extra : Record Value) :
    (log.record now t data extra).1.bare = (log.bare.record now t .null extra).1 := by
  have hentries : newest log.capacity
      (log.entries.map (fun e => { e with data := .null }) ++
        [⟨log.nextId, now, t, .null, extra⟩]) =
      (newest log.capacity (log.entries ++ [⟨log.nextId, now, t, data, extra⟩])).map
        fun e => { e with data := .null } := by
    rw [← newest_map, List.map_append]
    rfl
  unfold record
  split
  · rfl
  · cases t with
    | incoming service processed =>
      cases hg : service.given <;> cases hk : service.isKey <;>
        simp [bare, append, countTotal, countName, countTime, hentries, hg, hk]
    | outgoing endpoint success =>
      cases hk : endpoint.isKey <;>
        simp [bare, append, countTotal, countName, countTime, hentries, hk]

end Log

namespace Router

namespace Routing

/-- One state of routing a message comes from another by some attempts: the sender and the network
have made them, the outcome lists their endpoints, and the log has one more entry for each. -/
structure Sends (now : Int) (p : Routing) (as : List Osc.Attempt) (q : Routing) : Prop where
  tried : p.router.sender.Tries p.router.network as q.router.sender q.router.network
  logged : q.router.log.bare = p.router.log.bare.recordAll now (as.map Osc.Attempt.traffic)
  sent : q.outcome.sent = p.outcome.sent ++ Osc.Attempt.answered true as
  failed : q.outcome.failed = p.outcome.failed ++ Osc.Attempt.answered false as
  variant : q.outcome.variant = p.outcome.variant
  verdict : q.outcome.verdict = p.outcome.verdict
  settings : q.router.settings = p.router.settings

variable {now : Int} {p q r : Routing} {as bs : List Osc.Attempt}

theorem Sends.refl (now : Int) (p : Routing) : Sends now p [] p :=
  ⟨.nil _ _, rfl, by simp [Osc.Attempt.answered], by simp [Osc.Attempt.answered], rfl, rfl, rfl⟩

theorem Sends.trans (h : Sends now p as q) (h' : Sends now q bs r) : Sends now p (as ++ bs) r where
  tried := h.tried.append h'.tried
  logged := by rw [h'.logged, h.logged, List.map_append, Log.recordAll_append]
  sent := by rw [h'.sent, h.sent, Osc.Attempt.answered_append, List.append_assoc]
  failed := by rw [h'.failed, h.failed, Osc.Attempt.answered_append, List.append_assoc]
  variant := h'.variant.trans h.variant
  verdict := h'.verdict.trans h.verdict
  settings := h'.settings.trans h.settings

/-- A send that raises no fault is one attempt, at its endpoint. -/
theorem send_cases (now : Int) (p : Routing) (endpoint : String) (payload : Shared) :
    (∃ f, Osc.raised? p.router.sender.format payload.plain = some f ∧
      p.send now endpoint payload = (p, some f)) ∨
    Osc.raised? p.router.sender.format payload.plain = none ∧
      ∃ success q, p.send now endpoint payload = (q, none) ∧ q.course.bare = p.course.bare ∧
        Sends now p [⟨endpoint, payload.plain, success⟩] q := by
  cases hs : p.router.sender.send p.router.network endpoint payload.plain with
  | error f =>
    refine Or.inl ⟨f, Osc.Sender.send_eq_error_iff.mp hs, ?_⟩
    simp [send, deliver, hs, bind, Except.bind]
  | ok result =>
    obtain ⟨success, s, net⟩ := result
    refine Or.inr ⟨Osc.Sender.raised?_eq_none hs, success, (p.send now endpoint payload).1, ?_⟩
    have hdeliver : ∃ id, p.router.deliver now endpoint payload.plain [] = .ok
        ({ p.router with
            sender := s, network := net
            log := (p.router.log.record now (.outgoing (.text endpoint) success)
              payload.plain []).1 }, success, id) := by
      simp [deliver, record, hs, bind, Except.bind, pure, Except.pure]
    obtain ⟨id, hd⟩ := hdeliver
    simp only [send, hd, true_and]
    refine ⟨by cases id <;> rfl, .cons hs (.nil s net), Log.bare_record _ now _ _ _, ?_, ?_, ?_, ?_,
      rfl⟩ <;> cases success <;> simp [Osc.Attempt.answered]

theorem course_bare_send (now : Int) (p : Routing) (endpoint : String) (payload : Shared) :
    (p.send now endpoint payload).1.course.bare = p.course.bare := by
  rcases p.send_cases now endpoint payload with ⟨f, -, h⟩ | ⟨-, success, q, h, hbare, -⟩
  · rw [h]
  · rw [h]
    exact hbare

/-- What is due is tried in its order, up to the first payload that raises a fault. -/
def Makes (now : Int) (p : Routing) (due : List (String × Value)) (fault : Option Fault)
    (done : Routing × Option Fault) : Prop :=
  ∃ as, Sends now p as done.1 ∧
    Osc.made p.router.sender.format fault due = (as.map Osc.Attempt.sending, done.2)

theorem makes_nil (now : Int) (p : Routing) (fault : Option Fault) :
    Makes now p [] fault (p, fault) := ⟨[], Sends.refl now p, rfl⟩

theorem send_makes (now : Int) (p : Routing) (endpoint : String) (payload : Shared) :
    Makes now p [(endpoint, payload.plain)] none (p.send now endpoint payload) := by
  rcases p.send_cases now endpoint payload with
    ⟨f, hraised, hsend⟩ | ⟨hraised, success, q, hsend, -, h⟩
  · rw [hsend]
    exact ⟨[], Sends.refl now p, by simp [Osc.made, hraised]⟩
  · rw [hsend]
    exact ⟨_, h, by simp [Osc.made, hraised, Osc.Attempt.sending]⟩

/-- What is due to two parts of routing is due to both. -/
theorem Makes.andThen {due others : List (String × Value)} {fault : Option Fault}
    {done : Routing × Option Fault} {next : Routing → Routing × Option Fault}
    (h : Makes now p due none done)
    (hnext : done.2 = none → Makes now done.1 others fault (next done.1)) :
    Makes now p (due ++ others) fault (andThen done next) := by
  obtain ⟨as, hsends, hmade⟩ := h
  obtain ⟨q, _ | f⟩ := done
  · obtain ⟨bs, hrest, hothers⟩ := hnext rfl
    refine ⟨as ++ bs, hsends.trans hrest, ?_⟩
    rw [hsends.tried.format] at hothers
    rw [Osc.made_append, hmade]
    simp only [hothers, List.map_append]
    rfl
  · refine ⟨as, hsends, ?_⟩
    rw [Osc.made_append, hmade]
    rfl

theorem eq_none_of_andThen {done : Routing × Option Fault}
    {next : Routing → Routing × Option Fault} (h : (andThen done next).2 = none) :
    done.2 = none ∧ andThen done next = next done.1 := by
  obtain ⟨q, _ | f⟩ := done
  · exact ⟨rfl, rfl⟩
  · cases h

/-- The course of a message is its own matter. -/
theorem Makes.of_course {due : List (String × Value)} {fault : Option Fault}
    {done : Routing × Option Fault} {course : Course}
    (h : Makes now { p with course } due fault done) : Makes now p due fault done := by
  obtain ⟨as, hsends, hmade⟩ := h
  exact ⟨as, ⟨hsends.tried, hsends.logged, hsends.sent, hsends.failed, hsends.variant,
    hsends.verdict, hsends.settings⟩, hmade⟩

/-- Actions try what they are due to send, and without a fault they leave the course behind that is
due to them. -/
theorem act_makes (now : Int) (p : Routing) (actions : List Action) :
    Makes now p (p.course.bare.sendings actions).1 (p.course.bare.sendings actions).2.2
        (p.act now actions) ∧
      ((p.act now actions).2 = none →
        (p.act now actions).1.course.bare = (p.course.bare.sendings actions).2.1) := by
  induction actions generalizing p with
  | nil => exact ⟨makes_nil now p none, fun _ => rfl⟩
  | cons a actions ih =>
    unfold act Course.sendings
    cases ha : isSending a with
    | false => exact ih p
    | true =>
      simp only [if_true, Course.project_bare]
      rcases hp : p.course.project a.fields with ⟨course, f | payload⟩
      · exact ⟨(makes_nil now { p with course } (some f)).of_course, nofun⟩
      · have hfirst := send_makes now { p with course } a.endpoint payload
        have hbare := course_bare_send now { p with course } a.endpoint payload
        have hrest := ih (({ p with course } : Routing).send now a.endpoint payload).1
        rw [hbare] at hrest
        dsimp only
        refine ⟨(hfirst.andThen fun _ => hrest.1).of_course, fun hnone => ?_⟩
        obtain ⟨hsent, hdone⟩ := eq_none_of_andThen hnone
        rw [hdone] at hnone ⊢
        exact hrest.2 hnone

/-- The default endpoints are that of the variant, for the message, and the common one, for its
summary. -/
theorem sendDefaults_makes (now : Int) (p : Routing) :
    Makes now p [(p.outcome.variant.endpoint, p.course.message.plain),
        (commonEndpoint, (p.course.bare.summary p.outcome.variant).2.plain)] none
      (p.sendDefaults now) := by
  refine (send_makes now p p.outcome.variant.endpoint p.course.message).andThen ?_
  intro hnone
  rcases p.send_cases now p.outcome.variant.endpoint p.course.message with
    ⟨f, -, h⟩ | ⟨-, success, q, h, hbare, hsends⟩
  · rw [h] at hnone
    cases hnone
  · rw [h]
    have hsecond := send_makes now { q with course := (q.course.summary q.outcome.variant).1 }
      commonEndpoint (q.course.summary q.outcome.variant).2
    rw [← hbare, ← hsends.variant]
    exact hsecond.of_course

theorem bare_finish (p : Routing) : p.finish.log.bare = p.router.log.bare := by
  have hsettle : (p.course.settle p.router.log.entries).map
      (fun e : Log.Entry => { e with data := Value.null }) =
      p.router.log.entries.map fun e => { e with data := .null } := by
    unfold Course.settle
    rw [List.map_map]
    refine List.map_congr_left fun e _ => ?_
    simp only [Function.comp_apply]
    split <;> rfl
  simp [finish, Log.bare, hsettle]

/-- A message tries what it is due to send. -/
theorem run_makes (now : Int) (p : Routing) :
    let due := p.course.bare.dispatch p.outcome.variant p.outcome.verdict
      p.router.settings.current.enableDefaultEndpoints
    Makes now p due.1 due.2 (andThen (p.act now p.outcome.verdict.actions) fun p =>
      if p.goesOn then p.sendDefaults now else (p, none)) := by
  obtain ⟨hact, hcourse⟩ := act_makes now p p.outcome.verdict.actions
  unfold Course.dispatch
  rcases hs : p.course.bare.sendings p.outcome.verdict.actions with ⟨sent, c, _ | f⟩ <;>
    simp only [hs] at hact hcourse ⊢
  · refine hact.andThen fun hnone => ?_
    obtain ⟨as, hsends, -⟩ := hact
    have hdefaults := sendDefaults_makes now (p.act now p.outcome.verdict.actions).1
    have hmessage : (p.act now p.outcome.verdict.actions).1.course.message = c.message :=
      congrArg (·.message) (hcourse hnone)
    rw [hcourse hnone, hsends.variant, hmessage] at hdefaults
    unfold goesOn
    rw [hsends.verdict, hsends.settings]
    cases p.outcome.verdict.passes && p.router.settings.current.enableDefaultEndpoints with
    | false => exact makes_nil now _ none
    | true => exact hdefaults
  · -- The actions end in a fault, so the default endpoints are not come to.
    rcases hact' : p.act now p.outcome.verdict.actions with ⟨q, _ | g⟩ <;> rw [hact'] at hact
    · obtain ⟨as, -, hmade⟩ := hact
      cases (Osc.made_eq_none hmade).1
    · exact hact

/-- What is left of routing a message is the router afterwards and the outcome or the fault. -/
theorem run_sends (now : Int) (p : Routing) :
    ∃ q as fault, Sends now p as q ∧ (p.run now).1 = q.finish ∧
      (let due := p.course.bare.dispatch p.outcome.variant p.outcome.verdict
        p.router.settings.current.enableDefaultEndpoints
      Osc.made p.router.sender.format due.2 due.1 = (as.map Osc.Attempt.sending, fault)) ∧
      (p.run now).2 = match fault with
        | none => .ok q.outcome
        | some f => .error f := by
  obtain ⟨as, hsends, hmade⟩ := run_makes now p
  unfold run
  rcases hdone : andThen (p.act now p.outcome.verdict.actions) fun p =>
      if p.goesOn then p.sendDefaults now else (p, none) with ⟨q, _ | f⟩ <;>
    rw [hdone] at hsends hmade
  · exact ⟨q, as, none, hsends, rfl, hmade, rfl⟩
  · exact ⟨q, as, some f, hsends, rfl, hmade, rfl⟩

/-- Without a fault the message has been sent to the endpoints of the actions, and to the default
ones if the verdict and the settings let it pass. -/
theorem run_endpoints {now : Int} {p : Routing} {after : Router} {o : Outcome}
    (h : p.run now = (after, .ok o)) :
    ∃ q as, Sends now p as q ∧ after = q.finish ∧ o = q.outcome ∧
      as.map (·.endpoint) = (p.outcome.verdict.actions.filter isSending).map (·.endpoint) ++
        if p.outcome.verdict.passes && p.router.settings.current.enableDefaultEndpoints then
          [p.outcome.variant.endpoint, commonEndpoint]
        else [] := by
  obtain ⟨q, as, fault, hsends, hfinish, hmade, hresult⟩ := run_sends now p
  rw [h] at hfinish hresult
  cases fault with
  | some f => cases hresult
  | none =>
    refine ⟨q, as, hsends, hfinish, Except.ok.inj hresult, ?_⟩
    obtain ⟨hnone, hdue⟩ := Osc.made_eq_none hmade
    have hmap : as.map (·.endpoint) = (as.map Osc.Attempt.sending).map Prod.fst := by
      rw [List.map_map]
      rfl
    unfold Course.dispatch at hnone hdue
    rcases hs : p.course.bare.sendings p.outcome.verdict.actions with ⟨sent, c, _ | f⟩
    · simp only [hs] at hdue
      rw [hmap, hdue, List.map_append, Course.sendings_endpoints hs]
      split <;> rfl
    · simp [hs] at hnone

end Routing

/-- The rules that match a message, in their order. -/
def matched (rules : List Rule) (message : Value) : List Rule :=
  rules.filter fun r => match r.holds message with
    | .ok answer => answer
    | .error _ => false

/-- The endpoints that a message is due at: those of the actions of the rules that match it which
send it on, and the default ones if these are enabled and no rule matches or one that does lets the
message pass. -/
def dueEndpoints (rules : List Rule) (enabled : Bool) (m : Message) : List String :=
  let rules := matched rules (.record m.payload)
  (rules.flatMap fun r => (r.actions.filter fun a =>
    a.type == "route_to_endpoint" && a.endpoint.toList.head? == some '/').map (·.endpoint)) ++
  if (rules.isEmpty || rules.any fun r => !r.blockDefault) && enabled then
    [m.variant.endpoint, "/onecomme/common"]
  else []

theorem matching_eq_ok {message : Value} {rules found : List Rule}
    (h : RuleBook.matching message rules = .ok found) : found = matched rules message := by
  induction rules generalizing found with
  | nil =>
    simp only [RuleBook.matching, Except.ok.injEq] at h
    simp [← h, matched]
  | cons r rules ih =>
    cases hr : r.holds message with
    | error e => simp [RuleBook.matching, hr, bind, Except.bind] at h
    | ok answer =>
      cases hrest : RuleBook.matching message rules with
      | error e => simp [RuleBook.matching, hr, hrest, bind, Except.bind] at h
      | ok rest =>
        have hm : matched rules message = rest := (ih hrest).symm
        simp only [RuleBook.matching, hr, hrest, bind, Except.bind, pure, Except.pure,
          Except.ok.injEq] at h
        unfold matched at hm ⊢
        cases answer <;> simp_all

theorem process_eq_ok {b : RuleBook} {message : Value} {v : Verdict}
    (h : b.process message = .ok v) : v.matched = matched b.rules message := by
  unfold RuleBook.process at h
  cases hm : RuleBook.matching message b.rules with
  | error e => simp [hm, bind, Except.bind] at h
  | ok found =>
    simp only [hm, bind, Except.bind, pure, Except.pure, Except.ok.injEq] at h
    rw [← h]
    exact matching_eq_ok hm

theorem isSending_eq (a : Action) : Routing.isSending a =
    (a.type == "route_to_endpoint" && a.endpoint.toList.head? == some '/') := by
  have hslash : a.endpoint.startsWith "/" = (a.endpoint.toList.head? == some '/') := by
    rw [Bool.eq_iff_iff, String.startsWith_string_iff, beq_iff_eq,
      show "/".toList = ['/'] from rfl]
    cases a.endpoint.toList <;> simp [eq_comm]
  rw [← hslash]
  rfl

/-- The endpoints that a verdict on a message leads to. -/
theorem dueEndpoints_eq {rules : List Rule} {m : Message} {v : Verdict}
    (h : v.matched = matched rules (.record m.payload)) (enabled : Bool) :
    dueEndpoints rules enabled m =
      (v.actions.filter Routing.isSending).map (·.endpoint) ++
        if v.passes && enabled then [m.variant.endpoint, commonEndpoint] else [] := by
  have hsending : Routing.isSending = fun a : Action =>
      a.type == "route_to_endpoint" && a.endpoint.toList.head? == some '/' := funext isSending_eq
  unfold dueEndpoints Verdict.actions Verdict.passes
  rw [h, hsending, List.filter_flatMap, List.map_flatMap]
  rfl

/-- A message that is routed to an outcome is tried at the endpoints that it is due at. -/
theorem routeMessage_sends {r after : Router} {now : Int} {raw : Value} {id : Nat} {m : Message}
    {o : Outcome} (h : r.routeMessage now raw id m = (after, .ok o)) :
    ∃ as, as.map (·.endpoint) =
        dueEndpoints r.book.rules r.settings.current.enableDefaultEndpoints m ∧
      r.sender.Tries r.network as after.sender after.network ∧
      o.sent = Osc.Attempt.answered true as ∧ o.failed = Osc.Attempt.answered false as ∧
      after.log.bare = r.log.bare.recordAll now (as.map Osc.Attempt.traffic) := by
  unfold routeMessage at h
  cases hprocess : r.book.process (.record m.payload) with
  | error f => simp [hprocess] at h
  | ok verdict =>
    simp only [hprocess] at h
    obtain ⟨q, as, hsends, rfl, rfl, hendpoints⟩ := Routing.run_endpoints h
    have hdue := dueEndpoints_eq (process_eq_ok hprocess) r.settings.current.enableDefaultEndpoints
    refine ⟨as, hendpoints.trans hdue.symm, hsends.tried, ?_, ?_, ?_⟩
    · simpa using hsends.sent
    · simpa using hsends.failed
    · rw [Routing.bare_finish, hsends.logged]

/-- A comment that is brought to a message and routed without a fault is tried at the endpoints that
the message is due at, each once and in order. The outcome splits them by the answers, and the log
has an entry for the comment and then one for each attempt. -/
theorem route_sends {r : Router} {now : Int} {comment : Value} {m : Message}
    (brought : Message.ofComment now comment = .ok (some m))
    (routed : ∃ answer, (r.route now comment).2 = .ok answer) :
    ∃ o as, (r.route now comment).2 = .ok (some o) ∧
      as.map (·.endpoint) =
        dueEndpoints r.book.rules r.settings.current.enableDefaultEndpoints m ∧
      r.sender.Tries r.network as (r.route now comment).1.sender (r.route now comment).1.network ∧
      o.sent = (as.filter (·.success)).map (·.endpoint) ∧
      o.failed = (as.filter (!·.success)).map (·.endpoint) ∧
      (r.route now comment).1.log.bare =
        r.log.bare.recordAll now (.incoming (part comment "service") true ::
          as.map fun a => .outgoing (.text a.endpoint) a.success) := by
  obtain ⟨answer, hanswer⟩ := routed
  rcases hrecord : r.record now (.incoming (part comment "service") true) (part comment "data") []
    with ⟨r₁, f | id⟩
  · simp [route, brought, hrecord] at hanswer
  · have hr₁ : r₁ = { r with log := (r.log.record now (.incoming (part comment "service") true)
        (part comment "data") []).1 } := (congrArg Prod.fst hrecord).symm
    have hlog : r₁.log.bare = r.log.bare.recordAll now [.incoming (part comment "service") true] := by
      rw [hr₁]
      exact Log.bare_record _ _ _ _ _
    have hroute : r.route now comment =
        ((r₁.routeMessage now (part comment "data") id m).1,
          (r₁.routeMessage now (part comment "data") id m).2.map some) := by
      simp [route, brought, hrecord]
    rw [hroute] at hanswer ⊢
    rcases hm : r₁.routeMessage now (part comment "data") id m with ⟨after, f | o⟩
    · simp [hm, Except.map] at hanswer
    · obtain ⟨as, hdue, htried, hsent, hfailed, hlogged⟩ := routeMessage_sends hm
      refine ⟨o, as, rfl, ?_, ?_, ?_, ?_, ?_⟩
      · rw [hdue, hr₁]
      · rw [hr₁] at htried
        exact htried
      · simpa [Osc.Attempt.answered] using hsent
      · simpa [Osc.Attempt.answered] using hfailed
      · rw [hlogged, hlog, ← Log.recordAll_append]
        rfl

/-! ## What is sent does not depend on the log -/

theorem service_of_brought {now : Int} {comment : Value} {m : Message}
    (brought : Message.ofComment now comment = .ok (some m)) :
    ∃ service, part comment "service" = .text service := by
  obtain ⟨c, service, raw, v, fields, rfl, hservice, -⟩ := Message.ofComment_eq_some brought
  exact ⟨service, hservice⟩

/-- An entry of a service with a text is recorded. -/
theorem record_of_text (r : Router) (now : Int) (service : String) (processed : Bool) (data : Value) :
    ∃ log id, r.record now (.incoming (.text service) processed) data [] =
      ({ r with log := log }, .ok id) := by
  have hcount : ∀ log : Log, ∃ counted,
      log.countName (.incoming (.text service) processed) = .ok counted := by
    intro log
    unfold Log.countName
    dsimp only
    split
    · exact ⟨_, rfl⟩
    · exact ⟨_, rfl⟩
  obtain ⟨counted, hc⟩ := hcount ((r.log.append ⟨r.log.nextId, now,
    .incoming (.text service) processed, data, []⟩).countTotal (.incoming (.text service) processed))
  exact ⟨_, _, by simp [record, Log.record, hc, Except.map]; exact ⟨rfl, rfl⟩⟩

/-- What the log holds of a comment itself: nothing if it could not be read. -/
def arrivals (now : Int) (comment : Value) : List Traffic :=
  match Message.ofComment now comment with
  | .error _ => []
  | .ok message => [.incoming (part comment "service") message.isSome]

/-- A comment tries what it is due to send by the rules and the settings, and these also say whether
it is routed to an outcome. The log has an entry for the comment, unless it could not be read, and
then one for each attempt. -/
theorem route_tries (r : Router) (now : Int) (comment : Value) :
    ∃ as, r.sender.Tries r.network as (r.route now comment).1.sender
        (r.route now comment).1.network ∧
      r.book.dispatch r.sender.format r.settings.current.enableDefaultEndpoints now comment =
        (as.map Osc.Attempt.sending, isRouted (r.route now comment).2) ∧
      (r.route now comment).1.log.bare =
        r.log.bare.recordAll now (arrivals now comment ++ as.map Osc.Attempt.traffic) := by
  unfold route RuleBook.dispatch arrivals
  cases hb : Message.ofComment now comment with
  | error f => exact ⟨[], .nil _ _, rfl, rfl⟩
  | ok message =>
    cases message with
    | none =>
      have hlog := Log.bare_record r.log now (.incoming (part comment "service") false)
        (part comment "data") []
      dsimp only [Option.isSome_none]
      rcases hr : r.record now (.incoming (part comment "service") false) (part comment "data") []
        with ⟨r₁, f | id⟩ <;>
      · obtain rfl : (r.record now _ _ []).1 = r₁ := congrArg Prod.fst hr
        exact ⟨[], .nil _ _, rfl, hlog⟩
    | some m =>
      obtain ⟨service, hs⟩ := service_of_brought hb
      obtain ⟨log, id, hr⟩ := record_of_text r now service true (part comment "data")
      have hlog : log.bare = r.log.bare.recordAll now [.incoming (.text service) true] := by
        obtain rfl : (r.log.record now (.incoming (.text service) true) (part comment "data") []).1 =
            log := congrArg (fun p => p.1.log) hr
        exact Log.bare_record _ _ _ _ _
      simp only [hs, Option.isSome_some, hr, List.singleton_append]
      unfold routeMessage
      cases hp : r.book.process (.record m.payload) with
      | error f => exact ⟨[], .nil _ _, rfl, hlog⟩
      | ok verdict =>
        have hbare : (Course.start (part comment "data") id m.fields).bare =
            (Course.start (part comment "data") 0 m.fields).bare := rfl
        obtain ⟨q, as, fault, hsends, hfinish, hdispatch, hresult⟩ := Routing.run_sends now
          ⟨{ r with log := log }, .start (part comment "data") id m.fields,
            ⟨m.variant, verdict, [], []⟩⟩
        rw [hbare] at hdispatch
        simp only [hfinish, hresult, hdispatch]
        refine ⟨as, hsends.tried, by cases fault <;> rfl, ?_⟩
        rw [Routing.bare_finish, hsends.logged, hlog, ← Log.recordAll_append]
        rfl

/-- A router with one rule that sends to one of two endpoints, on a network whose first two
transmissions fail. -/
def chatRouter : Router where
  book := { rules := [{ actions := [{ endpoint := "/chat" }, { endpoint := "chat" }] }] }
  sender := { target := ⟨.text "127.0.0.1", .int 19100⟩, format := .text "binary" }
  log := .empty (some 100)
  network := { sendFaults := [true, true] }

def chatComment : Value :=
  .record [("service", .text "niconico"), ("data", .record [("comment", .text "hello")])]

theorem route_sends_chat :
    ∃ (o : Outcome) (as : List Osc.Attempt), (chatRouter.route 0 chatComment).2 = .ok (some o) ∧
      as.map (·.endpoint) = ["/chat", "/onecomme/niconico/comment", "/onecomme/common"] ∧
      o.sent = (as.filter (·.success)).map (·.endpoint) ∧
      o.failed = (as.filter (!·.success)).map (·.endpoint) := by
  have hrouted : ∃ answer, (chatRouter.route 0 chatComment).2 = .ok answer := by
    have hok : (chatRouter.route 0 chatComment).2.isOk = true := by decide +kernel
    cases h : (chatRouter.route 0 chatComment).2 with
    | error f => simp [h, Except.isOk, Except.toBool] at hok
    | ok answer => exact ⟨answer, rfl⟩
  obtain ⟨o, as, ho, hdue, -, hsent, hfailed, -⟩ := route_sends rfl hrouted
  exact ⟨o, as, ho, hdue, hsent, hfailed⟩

end Router

end Switchboard
