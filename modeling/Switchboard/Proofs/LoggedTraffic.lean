import Switchboard.Proofs.RouterInvariants
import Switchboard.Proofs.Routing

/-!
# What a router logs

A router notes each comment that it could read and each attempt to send something, in the order in
which it comes to them. So the log after any calls is the log before them with these notes, whatever
becomes of the comments and of what is sent.
-/
namespace Switchboard

namespace Osc

/-- The attempts that a sender makes at some sendings, one after the other, up to one that raises a
fault. -/
def Sender.attempts (s : Sender) (net : Network) : List (String × Value) → List Attempt
  | [] => []
  | sending :: rest =>
    match s.send net sending.1 sending.2 with
    | .error _ => []
    | .ok (success, s, net) => ⟨sending.1, sending.2, success⟩ :: s.attempts net rest

/-- What is tried says which attempts are made. -/
theorem Sender.Tries.eq_attempts {s after : Sender} {net net' : Network} {as : List Attempt}
    (h : s.Tries net as after net') : as = s.attempts net (as.map Attempt.sending) := by
  induction h with
  | nil => rfl
  | @cons s s₁ s₂ net net₁ net₂ a as first _ ih =>
    rw [List.map_cons, Sender.attempts, Attempt.sending, first]
    exact congrArg (a :: ·) ih

end Osc

namespace Log

/-- What is noted in a log, and when. -/
structure Note where
  now : Int
  traffic : Traffic
  extra : Record Value := []

/-- The log with some notes, one after the other. -/
def noted (log : Log) (notes : List Note) : Log :=
  notes.foldl (fun log n => (log.record n.now n.traffic .null n.extra).1) log

theorem noted_append (log : Log) (notes others : List Note) :
    log.noted (notes ++ others) = (log.noted notes).noted others := List.foldl_append

theorem recordAll_eq_noted (log : Log) (now : Int) (ts : List Traffic) :
    log.recordAll now ts = log.noted (ts.map fun t => ⟨now, t, []⟩) := by
  induction ts generalizing log with
  | nil => rfl
  | cons t ts ih => exact ih _

end Log

namespace Router

/-- What the log holds of a comment: the comment itself, if it could be read, and the attempts to
send what it is due to send. -/
def traffic (r : Router) (now : Int) (comment : Value) : List Traffic :=
  arrivals now comment ++ (r.sender.attempts r.network
    (r.book.dispatch r.sender.format r.settings.current.enableDefaultEndpoints now comment).1).map
    Osc.Attempt.traffic

theorem route_logged (r : Router) (now : Int) (comment : Value) :
    (r.route now comment).1.log.bare = r.log.bare.recordAll now (r.traffic now comment) := by
  obtain ⟨as, htries, hdispatch, hlogged⟩ := r.route_tries now comment
  rw [hlogged, traffic, hdispatch, ← htries.eq_attempts]

/-- What the log holds of comments that come one after the other, up to one whose fault cannot be
noted. -/
def batchTraffic (r : Router) (now : Int) : List Value → List Traffic
  | [] => []
  | comment :: comments =>
    r.traffic now comment ++
      match note comment (r.route now comment).2 with
      | .error _ => []
      | .ok _ => (r.route now comment).1.batchTraffic now comments

theorem handle_logged (r : Router) (now : Int) (comments : List Value) :
    (r.handle now comments).1.log.bare = r.log.bare.recordAll now (r.batchTraffic now comments) := by
  induction comments generalizing r with
  | nil => rfl
  | cons comment comments ih =>
    have hfirst := r.route_logged now comment
    unfold handle batchTraffic
    rw [Log.recordAll_append, ← hfirst]
    cases hn : note comment (r.route now comment).2 with
    | error f => simp only [hn]; rfl
    | ok _ => simp only [hn, ih]

/-- The sender that a test is made with. -/
def tester (r : Router) (host port : Value) : Osc.Sender :=
  let aim := r.aim host port
  if aim.host.sameKey r.sender.target.host && aim.port.sameKey r.sender.target.port then r.sender
  else r.sender.forTarget aim

/-- What the log holds of the tests of some endpoints. -/
def testNotes (s : Osc.Sender) (net : Osc.Network) (now : Int) (endpoints : List String) :
    List Log.Note :=
  (s.attempts net (endpoints.map fun e => (e, testPayload now))).map
    fun a => ⟨now, a.traffic, [("test", .bool true)]⟩

theorem sendTests_logged (r : Router) (now : Int) (endpoints : List String) :
    (r.sendTests now endpoints).1.log.bare =
      r.log.bare.noted (testNotes r.sender r.network now endpoints) := by
  induction endpoints generalizing r with
  | nil => rfl
  | cons e endpoints ih =>
    unfold sendTests testNotes
    rw [List.map_cons, Osc.Sender.attempts]
    cases hd : r.deliver now e (testPayload now) [("test", .bool true)] with
    | error f =>
      have hs := deliver_eq_error hd
      simp only [hs]
      rfl
    | ok result =>
      obtain ⟨after, done, id⟩ := result
      obtain ⟨sender, network, hs, rfl⟩ := deliver_eq_ok hd
      have hrest := ih { r with
        sender, network
        log := (r.log.record now (.outgoing (.text e) done) (testPayload now)
          [("test", .bool true)]).1 }
      rw [Log.bare_record] at hrest
      simp only [hs]
      exact hrest

theorem ping_logged (r : Router) (now : Int) (host port : Value) :
    (r.ping now host port).1.log.bare =
      r.log.bare.noted (testNotes (r.tester host port) r.network now testEndpoints) := by
  have hlog : (r.ping now host port).1.log =
      ({ r with sender := r.tester host port }.sendTests now testEndpoints).1.log := by
    unfold ping tester aim
    dsimp only
    generalize (if host.given = true then host else Value.text r.settings.current.oscHost) = h
    generalize (if port.given = true then port else Value.int r.settings.current.oscPort) = p
    cases h.sameKey r.sender.target.host && p.sameKey r.sender.target.port <;> rfl
  rw [hlog, sendTests_logged]

/-! ## Calls -/

/-- What may be asked of a router. -/
inductive Call
  | route (now : Int) (comment : Value)
  | handle (now : Int) (comments : List Value)
  | test (now : Int) (host port : Value)

/-- The router after a call. -/
def called (r : Router) : Call → Router
  | .route now comment => (r.route now comment).1
  | .handle now comments => (r.handle now comments).1
  | .test now host port => (r.ping now host port).1

/-- What a call notes in the log. -/
def notes (r : Router) : Call → List Log.Note
  | .route now comment => (r.traffic now comment).map fun t => ⟨now, t, []⟩
  | .handle now comments => (r.batchTraffic now comments).map fun t => ⟨now, t, []⟩
  | .test now host port => testNotes (r.tester host port) r.network now testEndpoints

theorem called_logged (r : Router) (c : Call) :
    (r.called c).log.bare = r.log.bare.noted (r.notes c) := by
  cases c with
  | route now comment => exact (r.route_logged now comment).trans (Log.recordAll_eq_noted ..)
  | handle now comments => exact (r.handle_logged now comments).trans (Log.recordAll_eq_noted ..)
  | test now host port => exact r.ping_logged now host port

/-- The router after some calls. -/
def afterCalls (r : Router) (cs : List Call) : Router := cs.foldl called r

/-- What some calls note in the log. -/
def allNotes (r : Router) : List Call → List Log.Note
  | [] => []
  | c :: cs => r.notes c ++ (r.called c).allNotes cs

/-- After any calls the log is what it was, with the notes of these calls. -/
theorem afterCalls_logged (r : Router) (cs : List Call) :
    (r.afterCalls cs).log.bare = r.log.bare.noted (r.allNotes cs) := by
  induction cs generalizing r with
  | nil => rfl
  | cons c cs ih =>
    have hrest := ih (r.called c)
    rw [called_logged] at hrest
    rw [allNotes, Log.noted_append]
    exact hrest

end Router

end Switchboard
