import Switchboard.Router

/-!
# What routing keeps

Routing a comment logs what comes in, sends and logs what goes out, and in the end changes the data
of entries that have been logged. A property of routers that these three keep is kept by comments,
by lists of comments and by tests of the connection, however far they come. A send that faults
leaves no trace, so nothing is asked of it.
-/
namespace Switchboard.Router

/-- What is delivered goes through the sender, and then into the log. -/
theorem deliver_eq_ok {r after : Router} {now : Int} {endpoint : String} {payload : Value}
    {extra : Record Value} {done : Bool} {id : Option Nat}
    (h : r.deliver now endpoint payload extra = .ok (after, done, id)) :
    ∃ sender network, r.sender.send r.network endpoint payload = .ok (done, sender, network) ∧
      after = { r with
        sender, network
        log := (r.log.record now (.outgoing (.text endpoint) done) payload extra).1 } := by
  unfold deliver at h
  cases hs : r.sender.send r.network endpoint payload with
  | error f => simp [hs, bind, Except.bind] at h
  | ok result =>
    obtain ⟨answer, sender, network⟩ := result
    simp only [hs, bind, Except.bind, pure, Except.pure, Except.ok.injEq, Prod.mk.injEq] at h
    obtain ⟨rfl, rfl, -⟩ := h
    exact ⟨sender, network, rfl, rfl⟩

theorem deliver_eq_error {r : Router} {now : Int} {endpoint : String} {payload : Value}
    {extra : Record Value} {f : Fault} (h : r.deliver now endpoint payload extra = .error f) :
    r.sender.send r.network endpoint payload = .error f := by
  unfold deliver at h
  cases hs : r.sender.send r.network endpoint payload with
  | error g => simpa [hs, bind, Except.bind] using h
  | ok result => simp [hs, bind, Except.bind, pure, Except.pure] at h

/-- The property is kept by each of the steps that routing is made of. -/
structure Stable (P : Router → Prop) : Prop where
  recorded : ∀ {r : Router}, P r → ∀ now service processed data,
    P (r.record now (.incoming service processed) data []).1
  delivered : ∀ {r after : Router} {done : Bool} {id : Option Nat} {now endpoint payload extra},
    P r → (∀ p ∈ extra, p.1 ∉ (Traffic.outgoing (.text endpoint) true).ownNames) →
      r.deliver now endpoint payload extra = .ok (after, done, id) → P after
  settled : ∀ {r : Router}, P r → ∀ entries, P { r with log := { r.log with entries } }

variable {P : Router → Prop} {r : Router}

namespace Stable

variable {p : Routing}

theorem send (s : Stable P) (h : P p.router) (now : Int) (endpoint : String) (payload : Shared) :
    P (p.send now endpoint payload).1.router := by
  unfold Routing.send
  split
  · exact h
  · rename_i hdeliver
    exact s.delivered h (by simp) hdeliver

/-- What is kept by two parts of routing is kept by both, whether or not the first one faults. -/
theorem andThen {done : Routing × Option Fault} {next : Routing → Routing × Option Fault}
    (h : P done.1.router) (hnext : ∀ {q : Routing}, P q.router → P (next q).1.router) :
    P (Routing.andThen done next).1.router := by
  rcases done with ⟨q, _ | f⟩
  · exact hnext h
  · exact h

/-- Actions are carried out up to a fault, and what was done before it stays done. -/
theorem act (s : Stable P) (h : P p.router) (now : Int) (actions : List Action) :
    P (p.act now actions).1.router := by
  induction actions generalizing p with
  | nil => exact h
  | cons a actions ih =>
    unfold Routing.act
    split
    · split
      · rename_i course payload _
        exact andThen (@send P { p with course } s h now _ payload) ih
      · exact h
    · exact ih h

theorem sendDefaults (s : Stable P) (h : P p.router) (now : Int) :
    P (p.sendDefaults now).1.router :=
  andThen (s.send h now _ _) fun {q} hq =>
    @send P { q with course := (q.course.summary q.outcome.variant).1 } s hq now _ _

theorem finish (s : Stable P) (h : P p.router) : P p.finish := s.settled h _

theorem run (s : Stable P) (h : P p.router) (now : Int) : P (p.run now).1 := by
  have hdefaults : ∀ {q : Routing}, P q.router →
      P (if q.goesOn then q.sendDefaults now else (q, none)).1.router := by
    intro q hq
    split
    · exact s.sendDefaults hq now
    · exact hq
  have hdone := andThen (s.act h now p.outcome.verdict.actions) hdefaults
  unfold Routing.run
  split <;>
  · rename_i he
    rw [he] at hdone
    exact s.finish hdone

theorem routeMessage (s : Stable P) (h : P r) (now : Int) (raw : Value) (id : Nat) (m : Message) :
    P (r.routeMessage now raw id m).1 := by
  unfold Router.routeMessage
  split
  · exact h
  · exact s.run h now

theorem route (s : Stable P) (h : P r) (now : Int) (comment : Value) :
    P (r.route now comment).1 := by
  unfold Router.route
  cases Message.ofComment now comment with
  | error f => exact h
  | ok message =>
    have hrecord := s.recorded h now (part comment "service") message.isSome (part comment "data")
    dsimp only
    rcases hr : r.record now (.incoming (part comment "service") message.isSome)
      (part comment "data") [] with ⟨r₁, f | id⟩
    · simpa [hr] using hrecord
    · rw [hr] at hrecord
      cases message with
      | none => exact hrecord
      | some m => exact s.routeMessage hrecord now _ id m

theorem handle (s : Stable P) (h : P r) (now : Int) (comments : List Value) :
    P (r.handle now comments).1 := by
  induction comments generalizing r with
  | nil => exact h
  | cons comment comments ih =>
    have hroute := s.route h now comment
    unfold Router.handle
    dsimp only
    split
    · exact hroute
    · exact ih hroute

theorem sendTests (s : Stable P) (h : P r) (now : Int) (endpoints : List String) :
    P (r.sendTests now endpoints).1 := by
  induction endpoints generalizing r with
  | nil => exact h
  | cons e es ih =>
    unfold Router.sendTests
    split
    · exact h
    · rename_i hdeliver
      exact ih (s.delivered h (by simp [Traffic.ownNames]) hdeliver)

end Stable

/-- The target that a test is aimed at. -/
def aim (r : Router) (host port : Value) : Osc.Target where
  host := if host.given then host else .text r.settings.current.oscHost
  port := if port.given then port else .int r.settings.current.oscPort

/-- A test sends by the own sender, or by one of the same format that is for the test alone. -/
theorem ping_cases (r : Router) (now : Int) (host port : Value) :
    (r.ping now host port).1 = (r.sendTests now testEndpoints).1 ∨
      (r.ping now host port).1 =
        { ({ r with sender := r.sender.forTarget (r.aim host port) }.sendTests now
            testEndpoints).1 with sender := r.sender } := by
  unfold ping aim
  dsimp only
  generalize (if host.given = true then host else Value.text r.settings.current.oscHost) = h
  generalize (if port.given = true then port else Value.int r.settings.current.oscPort) = p
  cases hs : (h.sameKey r.sender.target.host && p.sameKey r.sender.target.port) with
  | true => exact Or.inl rfl
  | false => exact Or.inr rfl

end Switchboard.Router
