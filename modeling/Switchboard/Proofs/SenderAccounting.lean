import Switchboard.Osc.Sender
import Switchboard.Proofs.JsonTexts

/-!
# What a sender delivers and counts

Each attempt delivers one datagram or none, and the first one that does ends the send. So a send
delivers one datagram if its answer is yes and none otherwise, whatever fails on the way, and over
a run of sends, new targets and stops the counters of the sender are those of the answers.
-/
namespace Switchboard.Osc

/-- The fault that a payload raises in a sender of some format. One that lies in the payload or in
the format is made up for. -/
def raised? (format payload : Value) : Option Fault :=
  match argument payload format with
  | .ok _ => none
  | .error f => if f.isOfInput then none else some f

theorem raised?_eq_some_iff {format payload : Value} {f : Fault} :
    raised? format payload = some f ↔ argument payload format = .error f ∧ f.isOfInput = false := by
  unfold raised?
  cases argument payload format with
  | ok a => simp
  | error g =>
    dsimp only
    rw [Except.error.injEq]
    split
    · rename_i hg
      refine iff_of_false nofun ?_
      rintro ⟨rfl, hf⟩
      exact Bool.false_ne_true (hf.symm.trans hg)
    · rename_i hg
      rw [Option.some.injEq, iff_self_and]
      rintro rfl
      exact Bool.eq_false_of_not_eq_true hg

/-- Only what is nested too deep raises a fault. -/
theorem eq_of_raised? {format payload : Value} {f : Fault} (h : raised? format payload = some f) :
    f = .nestedTooDeep ∧
      (Value.levelLimit 1 < payload.levels ∨ Value.levelLimit 1 < format.levels) := by
  obtain ⟨hargument, hinput⟩ := raised?_eq_some_iff.mp h
  exact (ofInput_argument payload format f hargument).resolve_left fun hf =>
    Bool.false_ne_true (hinput.symm.trans hf)

namespace Sender

/-- A client that is held was made for the target of the sender. -/
def Aimed (s : Sender) : Prop := ∀ t, s.client = some t → t = s.target

theorem aimed_of_no_client {s : Sender} (h : s.client = none) : s.Aimed := by simp [Aimed, h]

variable {s after : Sender} {net net' : Network} {address endpoint : String} {a : Argument}
  {payload : Value} {done : Bool}

theorem reach_delivered (s : Sender) (net : Network) :
    (s.reach net).2.delivered = net.delivered := by
  unfold reach Network.connect
  cases s.client with
  | some t => rfl
  | none => cases net.connectFaults.headD false <;> rfl

theorem reach_target (aimed : s.Aimed) {t : Target} (h : (s.reach net).1 = some t) :
    t = s.target := by
  unfold reach at h
  cases hc : s.client with
  | some u =>
    simp only [hc, Option.some.injEq] at h
    exact h ▸ aimed u hc
  | none =>
    simp only [hc] at h
    split at h
    · exact (Option.some.inj h).symm
    · cases h

theorem transmit_delivered (net : Network) (d : Delivery) :
    (net.transmit d).2.delivered =
      if (net.transmit d).1 then net.delivered ++ [d] else net.delivered := by
  unfold Network.transmit
  split
  · rfl
  · cases net.sendFaults.headD false <;> rfl

/-- An attempt neither counts nor changes the target and the format. -/
theorem attempt_keeps (h : s.attempt net address a = (done, after, net')) :
    after.sent = s.sent ∧ after.errors = s.errors ∧ after.target = s.target ∧
      after.format = s.format := by
  unfold attempt at h
  rcases hr : s.reach net with ⟨_ | t, net₁⟩ <;>
    · simp only [hr, Prod.mk.injEq] at h
      obtain ⟨-, rfl, -⟩ := h
      exact ⟨rfl, rfl, rfl, rfl⟩

theorem attempt_delivered (aimed : s.Aimed) (h : s.attempt net address a = (done, after, net')) :
    after.Aimed ∧ net'.delivered =
      if done then net.delivered ++ [⟨s.target, address, a⟩] else net.delivered := by
  have hreach := reach_delivered s net
  have htarget := @reach_target s net aimed
  unfold attempt at h
  rcases hr : s.reach net with ⟨_ | t, net₁⟩
  · simp only [hr, Prod.mk.injEq] at h hreach
    obtain ⟨rfl, rfl, rfl⟩ := h
    exact ⟨aimed_of_no_client rfl, hreach⟩
  · simp only [hr, Prod.mk.injEq] at h hreach htarget
    obtain rfl := htarget rfl
    obtain ⟨hdone, rfl, rfl⟩ := h
    constructor
    · intro t ht
      dsimp only at ht
      split at ht
      · exact (Option.some.inj ht).symm
      · cases ht
    · rw [transmit_delivered, hdone, hreach]

/-- Attempts to hand a payload over, made one after the other. A payload without an argument is
attempted not even once. -/
inductive Attempts (endpoint : String) (payload : Value) :
    Sender → Network → List Bool → Sender → Network → Prop
  | none (s : Sender) (net : Network) : Attempts endpoint payload s net [] s net
  | next {s s₁ s₂ : Sender} {net net₁ net₂ : Network} {a : Argument} {done : Bool}
    {dones : List Bool} (encoded : argument payload s.format = .ok a)
    (first : s.attempt net endpoint a = (done, s₁, net₁))
    (rest : Attempts endpoint payload s₁ net₁ dones s₂ net₂) :
    Attempts endpoint payload s net (done :: dones) s₂ net₂

/-- The sender after an answer has been counted. -/
def counted (s : Sender) (answer : Bool) : Sender := if answer then s.countSent else s.countError

@[simp] theorem counted_target (s : Sender) (answer : Bool) :
    (s.counted answer).target = s.target := by cases answer <;> rfl

@[simp] theorem counted_format (s : Sender) (answer : Bool) :
    (s.counted answer).format = s.format := by cases answer <;> rfl

@[simp] theorem counted_client (s : Sender) (answer : Bool) :
    (s.counted answer).client = s.client := by cases answer <;> rfl

@[simp] theorem counted_sent (s : Sender) (answer : Bool) :
    (s.counted answer).sent = s.sent + answer.toNat := by cases answer <;> rfl

@[simp] theorem counted_errors (s : Sender) (answer : Bool) :
    (s.counted answer).errors = s.errors + (!answer).toNat := by cases answer <;> rfl

theorem send_eq_error_iff {f : Fault} :
    s.send net endpoint payload = .error f ↔ raised? s.format payload = some f := by
  unfold send raised?
  cases argument payload s.format with
  | ok a => simp
  | error g =>
    dsimp only
    split <;> simp

/-- A send that does not fault makes two attempts at most and counts its answer, which is that of
the last one. -/
theorem send_attempts (h : ∀ f, s.send net endpoint payload ≠ .error f) :
    ∃ dones after net', Attempts endpoint payload s net dones after net' ∧
      dones ∈ [[], [true], [false, true], [false, false]] ∧
      s.send net endpoint payload = .ok (dones.any id, after.counted (dones.any id), net') := by
  unfold send at h ⊢
  cases ha : argument payload s.format with
  | error f =>
    simp only [ha] at h
    split at h
    · rename_i hinput
      exact ⟨[], s, net, .none s net, by simp, by simp [hinput, counted]⟩
    · exact absurd rfl (h f)
  | ok a =>
    dsimp only
    unfold sendArgument
    rcases h₁ : s.attempt net endpoint a with ⟨_ | _, s₁, net₁⟩
    · have ha₁ : argument payload s₁.format = .ok a := by
        rw [(attempt_keeps h₁).2.2.2, ha]
      rcases h₂ : s₁.attempt net₁ endpoint a with ⟨_ | _, s₂, net₂⟩
      · exact ⟨[false, false], s₂, net₂, .next ha h₁ (.next ha₁ h₂ (.none s₂ net₂)), by simp,
          by simp [h₂, counted]⟩
      · exact ⟨[false, true], s₂, net₂, .next ha h₁ (.next ha₁ h₂ (.none s₂ net₂)), by simp,
          by simp [h₂, counted]⟩
    · exact ⟨[true], s₁, net₁, .next ha h₁ (.none s₁ net₁), by simp, by simp [counted]⟩

theorem attempts_of_send {answer : Bool}
    (hs : s.send net endpoint payload = .ok (answer, after, net')) :
    ∃ dones tried, Attempts endpoint payload s net dones tried net' ∧
      dones ∈ [[], [true], [false, true], [false, false]] ∧
      answer = dones.any id ∧ after = tried.counted answer := by
  have hnever : ∀ f, s.send net endpoint payload ≠ .error f := by
    intro f hf
    rw [hs] at hf
    cases hf
  obtain ⟨dones, tried, net₁, h, hmem, hsend⟩ := send_attempts hnever
  simp only [hs, Except.ok.injEq, Prod.mk.injEq] at hsend
  obtain ⟨rfl, rfl, rfl⟩ := hsend
  exact ⟨dones, tried, h, hmem, rfl, rfl⟩

theorem raised?_eq_none {answer : Bool}
    (hs : s.send net endpoint payload = .ok (answer, after, net')) :
    raised? s.format payload = none := by
  cases hr : raised? s.format payload with
  | none => rfl
  | some f => cases hs.symm.trans (send_eq_error_iff.mpr hr)

theorem Attempts.keeps {dones : List Bool} (h : Attempts endpoint payload s net dones after net') :
    after.sent = s.sent ∧ after.errors = s.errors ∧ after.target = s.target ∧
      after.format = s.format := by
  induction h with
  | none s net => exact ⟨rfl, rfl, rfl, rfl⟩
  | next encoded first rest ih =>
    obtain ⟨hsent, herrors, htarget, hformat⟩ := attempt_keeps first
    exact ⟨ih.1.trans hsent, ih.2.1.trans herrors, ih.2.2.1.trans htarget,
      ih.2.2.2.trans hformat⟩

theorem send_target {answer : Bool}
    (hs : s.send net endpoint payload = .ok (answer, after, net')) : after.target = s.target := by
  obtain ⟨dones, tried, h, -, -, rfl⟩ := attempts_of_send hs
  exact (counted_target tried answer).trans h.keeps.2.2.1

theorem send_format {answer : Bool}
    (hs : s.send net endpoint payload = .ok (answer, after, net')) : after.format = s.format := by
  obtain ⟨dones, tried, h, -, -, rfl⟩ := attempts_of_send hs
  exact (counted_format tried answer).trans h.keeps.2.2.2

/-- The datagrams that attempts deliver, one for each that succeeds. -/
theorem Attempts.delivered {dones : List Bool}
    (h : Attempts endpoint payload s net dones after net') (aimed : s.Aimed) :
    after.Aimed ∧ ∃ ds, net'.delivered = net.delivered ++ ds ∧ ds.length = dones.count true ∧
      ∀ d ∈ ds, d.target = s.target ∧ d.address = endpoint ∧
        argument payload s.format = .ok d.argument := by
  induction h with
  | none s net => exact ⟨aimed, [], by simp, rfl, by simp⟩
  | @next s s₁ s₂ net net₁ net₂ a done dones encoded first rest ih =>
    obtain ⟨-, -, htarget, hformat⟩ := attempt_keeps first
    obtain ⟨haimed, hfirst⟩ := attempt_delivered aimed first
    obtain ⟨hafter, ds, hds, hlength, hall⟩ := ih haimed
    rw [htarget, hformat] at hall
    refine ⟨hafter, ?_⟩
    cases done with
    | false => exact ⟨ds, by rw [hds, hfirst]; rfl, by simpa using hlength, hall⟩
    | true =>
      refine ⟨⟨s.target, endpoint, a⟩ :: ds, by simp [hds, hfirst], by simp [hlength], ?_⟩
      intro d hd
      rcases List.mem_cons.mp hd with rfl | hd
      · exact ⟨rfl, rfl, encoded⟩
      · exact hall d hd

variable {answer : Bool}

/-- A send counts its answer in one of the two counters. -/
theorem send_counts (hs : s.send net endpoint payload = .ok (answer, after, net')) :
    after.sent = s.sent + answer.toNat ∧ after.errors = s.errors + (!answer).toNat := by
  obtain ⟨dones, tried, h, -, rfl, rfl⟩ := attempts_of_send hs
  simp [h.keeps.1, h.keeps.2.1]

/-- A send delivers one datagram if its answer is yes, and none if it is no. -/
theorem send_delivered (aimed : s.Aimed)
    (hs : s.send net endpoint payload = .ok (answer, after, net')) :
    after.Aimed ∧ ∃ ds, net'.delivered = net.delivered ++ ds ∧ ds.length = answer.toNat ∧
      ∀ d ∈ ds, d.target = s.target ∧ d.address = endpoint ∧
        argument payload s.format = .ok d.argument := by
  obtain ⟨dones, tried, h, hmem, rfl, rfl⟩ := attempts_of_send hs
  obtain ⟨haimed, ds, hds, hlength, hall⟩ := h.delivered aimed
  have hcount : dones.count true = (dones.any id).toNat := by
    simp only [List.mem_cons, List.not_mem_nil, or_false] at hmem
    rcases hmem with rfl | rfl | rfl | rfl <;> rfl
  exact ⟨by simpa [Aimed] using haimed, ds, hds, hlength.trans hcount, hall⟩

/-- The account of one send: there is an answer, of two attempts at most, and it is yes if one
datagram with the endpoint and the argument of the payload was delivered, and no if none was. -/
structure Accounts (s : Sender) (net : Network) (endpoint : String) (payload : Value) : Prop where
  answers : ∃ dones after net', Attempts endpoint payload s net dones after net' ∧
    dones.length ≤ 2 ∧
    s.send net endpoint payload = .ok (dones.any id, after.counted (dones.any id), net')
  delivers : ∀ {answer after net'}, s.send net endpoint payload = .ok (answer, after, net') →
    (answer = true ↔ ∃ d, net'.delivered = net.delivered ++ [d] ∧
      d.target = s.target ∧ d.address = endpoint ∧ argument payload s.format = .ok d.argument)
  withholds : ∀ {answer after net'}, s.send net endpoint payload = .ok (answer, after, net') →
    (answer = false ↔ net'.delivered = net.delivered)

theorem accounts (aimed : s.Aimed) (hpayload : payload.levels ≤ Value.levelLimit 1)
    (hformat : s.format.levels ≤ Value.levelLimit 1) : s.Accounts net endpoint payload := by
  refine ⟨?_, ?_, ?_⟩
  · have hnever : ∀ f, s.send net endpoint payload ≠ .error f := by
      intro f hf
      rcases (eq_of_raised? (send_eq_error_iff.mp hf)).2 with hdeep | hdeep
      · exact absurd hpayload (Nat.not_le.mpr hdeep)
      · exact absurd hformat (Nat.not_le.mpr hdeep)
    obtain ⟨dones, after, net', h, hmem, hsend⟩ := send_attempts hnever
    refine ⟨dones, after, net', h, ?_, hsend⟩
    simp only [List.mem_cons, List.not_mem_nil, or_false] at hmem
    rcases hmem with rfl | rfl | rfl | rfl <;> simp
  · intro answer after net' hsend
    obtain ⟨-, ds, hds, hone, hall⟩ := send_delivered aimed hsend
    cases answer with
    | false =>
      obtain rfl := List.eq_nil_of_length_eq_zero hone
      simp [hds]
    | true =>
      obtain ⟨d, rfl⟩ := List.length_eq_one_iff.mp hone
      exact ⟨fun _ => ⟨d, hds, hall d List.mem_cons_self⟩, fun _ => rfl⟩
  · intro answer after net' hsend
    obtain ⟨-, ds, hds, hone, -⟩ := send_delivered aimed hsend
    rw [hds, List.append_right_eq_self, ← List.length_eq_zero_iff, hone]
    cases answer <;> simp

/-- What may be done with a sender. -/
inductive Operation
  | send (endpoint : String) (payload : Value)
  | retarget (host port format : Value)
  | stop

/-- A sender on its network, with the answers of its sends so far. -/
structure Session where
  sender : Sender
  network : Network
  answers : List Bool := []

namespace Session

/-- A send that faults has no answer and leaves no trace. -/
def step (p : Session) : Operation → Session
  | .send endpoint payload =>
    match p.sender.send p.network endpoint payload with
    | .ok (done, sender, network) => { sender, network, answers := p.answers ++ [done] }
    | .error _ => p
  | .retarget host port format => { p with sender := p.sender.retarget host port format }
  | .stop => { p with sender := p.sender.stop }

def run (p : Session) (os : List Operation) : Session := os.foldl step p

/-- The counters are those of the answers, and as many datagrams have been delivered as there were
answers of yes. -/
structure Balanced (before : Network) (p : Session) : Prop where
  sent : p.sender.sent = p.answers.count true
  errors : p.sender.errors = p.answers.count false
  delivered : ∃ ds, p.network.delivered = before.delivered ++ ds ∧ ds.length = p.sender.sent
  aimed : p.sender.Aimed

theorem Balanced.step {before : Network} {p : Session} (h : p.Balanced before) (o : Operation) :
    (p.step o).Balanced before := by
  cases o with
  | send endpoint payload =>
    cases hs : p.sender.send p.network endpoint payload with
    | error f =>
      have hstep : p.step (.send endpoint payload) = p := by simp [Session.step, hs]
      rwa [hstep]
    | ok result =>
      obtain ⟨done, after, net'⟩ := result
      obtain ⟨hsent, herrors⟩ := send_counts hs
      obtain ⟨haimed, ds, hds, hone, -⟩ := send_delivered h.aimed hs
      obtain ⟨earlier, hearlier, hlength⟩ := h.delivered
      have hstep : p.step (.send endpoint payload) = ⟨after, net', p.answers ++ [done]⟩ := by
        simp [Session.step, hs]
      rw [hstep]
      refine ⟨?_, ?_, ⟨earlier ++ ds, ?_, ?_⟩, haimed⟩
      · cases done <;> simp [hsent, h.sent]
      · cases done <;> simp [herrors, h.errors]
      · rw [hds, hearlier, List.append_assoc]
      · rw [List.length_append, hlength, hone, hsent]
  | retarget host port format =>
    exact ⟨h.sent, h.errors, h.delivered, aimed_of_no_client (retarget_client ..)⟩
  | stop => exact ⟨h.sent, h.errors, h.delivered, aimed_of_no_client (stop_client _)⟩

theorem Balanced.run {before : Network} {p : Session} (h : p.Balanced before)
    (os : List Operation) : (p.run os).Balanced before := by
  induction os generalizing p with
  | nil => exact h
  | cons o os ih => exact ih (h.step o)

end Session

end Sender

end Switchboard.Osc
