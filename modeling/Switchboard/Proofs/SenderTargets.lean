import Switchboard.Proofs.SenderAccounting

/-!
# Where a sender's datagrams go

A client that is held was made for the target that its sender has now, however often that target was
changed and whatever failed on the way. So a datagram goes where the counters of its sender say at
that time. A send makes a client only for an attempt that finds none. Senders that were made from
one another share the network, but nothing that one of them does changes another.
-/
namespace Switchboard.Osc

namespace Sender

variable {s after : Sender} {net net' : Network} {address endpoint : String} {a : Argument}
  {payload : Value} {done answer : Bool} {text : String}

/-- The counters of the sender show a text as its target. -/
def Reports (s : Sender) (text : String) : Prop :=
  ∃ r, s.stats = .ok r ∧ Record.get? r "target" = some (.text text)

theorem reports_of_text (h : s.target.text = .ok text) : s.Reports text :=
  ⟨[("target", .text text), ("format", s.format), ("sent", .int s.sent), ("errors", .int s.errors)],
    by simp [stats, h, bind, Except.bind, pure, Except.pure], rfl⟩

/-- A client that is held was made for the target of the sender, and that target has a text. -/
structure Current (s : Sender) : Prop where
  aimed : s.Aimed
  written : ∀ t, s.client = some t → ∃ text, t.text = .ok text

theorem current_of_no_client (h : s.client = none) : s.Current :=
  ⟨aimed_of_no_client h, by simp [h]⟩

/-- A client that an attempt reaches has a text as its target, be it held or new. -/
theorem reach_written (h : s.Current) {t : Target} (ht : (s.reach net).1 = some t) :
    ∃ text, t.text = .ok text := by
  unfold reach at ht
  cases hc : s.client with
  | some u =>
    simp only [hc, Option.some.injEq] at ht
    exact ht ▸ h.written u hc
  | none =>
    simp only [hc] at ht
    split at ht
    · rename_i hmade
      obtain rfl := Option.some.inj ht
      cases htext : s.target.text with
      | ok text => exact ⟨text, rfl⟩
      | error f => simp [htext, Except.isOk, Except.toBool] at hmade
    · cases ht

/-! ## The clients that attempts make -/

/-- An attempt in this state finds no client. -/
def findsNone (p : Sender × Network) : Bool := p.1.client.isNone

/-- An attempt in this state makes a client. -/
def makesClient (p : Sender × Network) : Bool := findsNone p && !p.2.connectFaults.headD false

/-- The clients asked for, and those made, between two states of the network are those of the
attempts made in some states. -/
structure Connects (states : List (Sender × Network)) (net net' : Network) : Prop where
  asked : net'.connectFaults = net.connectFaults.drop (states.countP findsNone)
  made : net'.connected = net.connected + states.countP makesClient

theorem Connects.append {states states' : List (Sender × Network)} {net₁ net₂ net₃ : Network}
    (h : Connects states net₁ net₂) (h' : Connects states' net₂ net₃) :
    Connects (states ++ states') net₁ net₃ where
  asked := by rw [h'.asked, h.asked, List.drop_drop, List.countP_append]
  made := by rw [h'.made, h.made, List.countP_append, Nat.add_assoc]

theorem reach_connects (s : Sender) (net : Network) : Connects [(s, net)] net (s.reach net).2 := by
  unfold reach Network.connect
  cases hc : s.client with
  | some t => constructor <;> simp [findsNone, makesClient, hc]
  | none =>
    cases hf : net.connectFaults.headD false <;>
      constructor <;> simp_all [findsNone, makesClient]

theorem transmit_connects (net : Network) (d : Delivery) :
    (net.transmit d).2.connectFaults = net.connectFaults ∧
      (net.transmit d).2.connected = net.connected := by
  unfold Network.transmit
  split
  · exact ⟨rfl, rfl⟩
  · cases net.sendFaults.headD false <;> exact ⟨rfl, rfl⟩

/-- An attempt asks for a client where it finds none, and for no other. -/
theorem attempt_connects (h : s.attempt net address a = (done, after, net')) :
    Connects [(s, net)] net net' := by
  have hreach := reach_connects s net
  unfold attempt at h
  rcases hr : s.reach net with ⟨_ | t, net₁⟩
  · simp only [hr, Prod.mk.injEq] at h hreach
    obtain ⟨-, -, rfl⟩ := h
    exact hreach
  · obtain ⟨hasked, hmade⟩ := transmit_connects net₁ ⟨t, address, a⟩
    simp only [hr, Prod.mk.injEq] at h hreach
    obtain ⟨-, -, rfl⟩ := h
    exact ⟨hasked.trans hreach.asked, hmade.trans hreach.made⟩

/-- The states in which the attempts of a send are made. -/
def attemptStates (s : Sender) (net : Network) (endpoint : String) (payload : Value) :
    List (Sender × Network) :=
  match argument payload s.format with
  | .error _ => []
  | .ok a =>
    match s.attempt net endpoint a with
    | (true, _, _) => [(s, net)]
    | (false, s₁, net₁) => [(s, net), (s₁, net₁)]

theorem length_attemptStates (s : Sender) (net : Network) (endpoint : String) (payload : Value) :
    (s.attemptStates net endpoint payload).length ≤ 2 := by
  unfold attemptStates
  split
  · simp
  · split <;> simp

/-- Handing a message over asks for one client for each attempt that finds none. -/
theorem sendArgument_connects (ha : argument payload s.format = .ok a)
    (hs : s.sendArgument net endpoint a = (answer, after, net')) :
    Connects (s.attemptStates net endpoint payload) net net' := by
  unfold sendArgument at hs
  unfold attemptStates
  rw [ha]
  dsimp only
  rcases h₁ : s.attempt net endpoint a with ⟨_ | _, s₁, net₁⟩
  · rcases h₂ : s₁.attempt net₁ endpoint a with ⟨_ | _, s₂, net₂⟩ <;>
      · simp only [h₁, h₂, Prod.mk.injEq] at hs
        obtain ⟨-, -, rfl⟩ := hs
        exact (attempt_connects h₁).append (attempt_connects h₂)
  · simp only [h₁, Prod.mk.injEq] at hs
    obtain ⟨-, -, rfl⟩ := hs
    exact attempt_connects h₁

theorem send_connects (hs : s.send net endpoint payload = .ok (answer, after, net')) :
    Connects (s.attemptStates net endpoint payload) net net' := by
  unfold send at hs
  cases ha : argument payload s.format with
  | error f =>
    rw [ha] at hs
    dsimp only at hs
    split at hs
    · simp only [Except.ok.injEq, Prod.mk.injEq] at hs
      obtain ⟨-, -, rfl⟩ := hs
      unfold attemptStates
      rw [ha]
      exact ⟨rfl, rfl⟩
    · cases hs
  | ok a =>
    rw [ha] at hs
    exact sendArgument_connects ha (Except.ok.inj hs)

/-! ## Where attempts and sends go -/

/-- An attempt leaves a client of the target of the sender, or none. -/
theorem Current.attempt (h : s.Current) (ha : s.attempt net address a = (done, after, net')) :
    after.Current ∧ (done = true → ∃ text, s.target.text = .ok text) := by
  have haimed := (attempt_delivered h.aimed ha).1
  have hreach := @reach_target s net h.aimed
  have hwritten := @reach_written s net h
  unfold Sender.attempt at ha
  rcases hr : s.reach net with ⟨_ | t, net₁⟩
  · simp only [hr, Prod.mk.injEq] at ha
    obtain ⟨rfl, rfl, -⟩ := ha
    exact ⟨current_of_no_client rfl, nofun⟩
  · simp only [hr, Prod.mk.injEq] at ha hreach hwritten
    obtain rfl := hreach rfl
    obtain ⟨text, htext⟩ := hwritten rfl
    obtain ⟨-, rfl, -⟩ := ha
    refine ⟨⟨haimed, fun u hu => ⟨text, ?_⟩⟩, fun _ => ⟨text, htext⟩⟩
    rw [haimed u hu]
    exact htext

theorem Attempts.current {dones : List Bool}
    (h : Attempts endpoint payload s net dones after net') (hc : s.Current) :
    after.Current ∧ (true ∈ dones → ∃ text, s.target.text = .ok text) := by
  induction h with
  | none s net => exact ⟨hc, nofun⟩
  | @next s s₁ s₂ net net₁ net₂ a done dones encoded first rest ih =>
    obtain ⟨hc₁, hdone⟩ := hc.attempt first
    obtain ⟨hc₂, hdones⟩ := ih hc₁
    rw [(attempt_keeps first).2.2.1] at hdones
    refine ⟨hc₂, fun hmem => ?_⟩
    rcases List.mem_cons.mp hmem with rfl | hmem
    · exact hdone rfl
    · exact hdones hmem

/-- A send leaves a client of the target of the sender, or none, and keeps that target. What it
delivers goes there, and the counters show that target before and after it. -/
theorem Current.send (h : s.Current)
    (hs : s.send net endpoint payload = .ok (answer, after, net')) :
    after.Current ∧ after.target = s.target ∧
      ∃ ds, net'.delivered = net.delivered ++ ds ∧ ∀ d ∈ ds, d.target = s.target ∧
        ∃ text, d.target.text = .ok text ∧ s.Reports text ∧ after.Reports text := by
  obtain ⟨dones, tried, ha, -, rfl, rfl⟩ := attempts_of_send hs
  obtain ⟨hc, htext⟩ := ha.current h
  obtain ⟨-, ds, hds, hlength, hall⟩ := ha.delivered h.aimed
  have htarget : (tried.counted (dones.any id)).target = s.target := by
    rw [counted_target, ha.keeps.2.2.1]
  refine ⟨⟨?_, ?_⟩, htarget, ds, hds, fun d hd => ⟨(hall d hd).1, ?_⟩⟩
  · simpa [Aimed] using hc.aimed
  · simpa using hc.written
  -- something was delivered, so that some attempt succeeded
  · have hmem : true ∈ dones := by
      rw [← List.count_pos_iff, ← hlength]
      exact List.length_pos_of_mem hd
    obtain ⟨text, hs⟩ := htext hmem
    refine ⟨text, ?_, reports_of_text hs, reports_of_text ?_⟩
    · rw [(hall d hd).1, hs]
    · rw [htarget, hs]

/-- What is known of any send of a sender: what it delivers goes to the target that the counters
show, and it asks for a client only where none is held, which is twice at most. -/
structure Directed (s : Sender) (net : Network) (endpoint : String) (payload : Value) : Prop where
  delivers : ∀ {answer after net'}, s.send net endpoint payload = .ok (answer, after, net') →
    ∃ ds, net'.delivered = net.delivered ++ ds ∧
      ∀ d ∈ ds, d.target = s.target ∧
        ∃ text, d.target.text = .ok text ∧ s.Reports text ∧ after.Reports text
  connects : ∀ {answer after net'}, s.send net endpoint payload = .ok (answer, after, net') →
    Connects (s.attemptStates net endpoint payload) net net'
  attempts : (s.attemptStates net endpoint payload).length ≤ 2

theorem Current.directed (h : s.Current) (net : Network) (endpoint : String) (payload : Value) :
    s.Directed net endpoint payload where
  delivers hs := (h.send hs).2.2
  connects := send_connects
  attempts := length_attemptStates s net endpoint payload

/-- Whatever is done with a sender leaves a client of its target, or none. -/
theorem Current.operate (h : s.Current) (net : Network) (answers : List Bool) (o : Operation) :
    (Session.step ⟨s, net, answers⟩ o).sender.Current := by
  cases o with
  | send endpoint payload =>
    unfold Session.step
    dsimp only
    split
    · rename_i hs
      exact (h.send hs).1
    · exact h
  | retarget host port format => exact current_of_no_client (retarget_client ..)
  | stop => exact current_of_no_client (stop_client _)

end Sender

/-! ## Senders made from one another -/

/-- Senders whose clients are made on one network. -/
structure Senders where
  members : List Sender
  network : Network

namespace Senders

/-- What may be done: something with one of the senders, or a new sender is made from one of them
for another target. -/
inductive Act
  | operate (i : Nat) (o : Sender.Operation)
  | derive (i : Nat) (target : Target)

/-- A sender alone. -/
def start (target : Target) (format : Value) (net : Network) : Senders :=
  ⟨[{ target, format }], net⟩

/-- An operation on a sender, and a new sender at the end; no sender, nothing done. -/
def step (g : Senders) : Act → Senders
  | .operate i o =>
    match g.members[i]? with
    | none => g
    | some s =>
      let p := Sender.Session.step ⟨s, g.network, []⟩ o
      ⟨g.members.set i p.sender, p.network⟩
  | .derive i target =>
    match g.members[i]? with
    | none => g
    | some s => { g with members := g.members ++ [s.forTarget target] }

def run (g : Senders) (acts : List Act) : Senders := acts.foldl step g

variable {g : Senders} {i : Nat} {s : Sender}

theorem step_derive (hi : g.members[i]? = some s) (target : Target) :
    g.step (.derive i target) = { g with members := g.members ++ [s.forTarget target] } := by
  simp only [step, hi]

/-- The clients of all senders are for the targets that these have now. -/
def Current (g : Senders) : Prop := ∀ s ∈ g.members, s.Current

theorem Current.step (h : g.Current) (a : Act) : (g.step a).Current := by
  unfold Senders.step
  cases a with
  | operate i o =>
    dsimp only
    split
    · exact h
    · rename_i s hi
      intro t ht
      rcases List.mem_or_eq_of_mem_set ht with ht | rfl
      · exact h t ht
      · exact (h s (List.mem_of_getElem? hi)).operate g.network [] o
  | derive i target =>
    dsimp only
    split
    · exact h
    · intro t ht
      rcases List.mem_append.mp ht with ht | ht
      · exact h t ht
      · rw [List.mem_singleton.mp ht]
        exact Sender.current_of_no_client rfl

theorem Current.run (h : g.Current) (acts : List Act) : (g.run acts).Current := by
  induction acts generalizing g with
  | nil => exact h
  | cons a acts ih => exact ih (h.step a)

/-- A step leaves every sender as it was but the one that it is about. -/
theorem step_others {a : Act} (hi : g.members[i]? = some s) (ha : ∀ o, a ≠ .operate i o) :
    (g.step a).members[i]? = some s := by
  unfold Senders.step
  cases a with
  | operate j o =>
    have hne : j ≠ i := fun he => ha o (he ▸ rfl)
    dsimp only
    split
    · exact hi
    · rw [List.getElem?_set_ne hne, hi]
  | derive j target =>
    dsimp only
    split
    · exact hi
    · rw [List.getElem?_append_left (List.getElem?_eq_some_iff.mp hi).1, hi]

theorem run_others {acts : List Act} (hi : g.members[i]? = some s)
    (ha : ∀ o, Act.operate i o ∉ acts) : (g.run acts).members[i]? = some s := by
  induction acts generalizing g with
  | nil => exact hi
  | cons a acts ih =>
    refine ih (step_others hi fun o he => ha o (he ▸ List.mem_cons_self)) fun o ho => ?_
    exact ha o (List.mem_cons_of_mem a ho)

/-- After every run of a new sender and of those made from it, a client that is held was made for
the target that its sender has, and every send will be directed there. A sender that is made from
another one is put beside it, and a sender changes only by what is done with it. -/
theorem run_directed (target : Target) (format : Value) (net : Network) (acts : List Act) :
    let g := (start target format net).run acts
    (∀ s ∈ g.members, (∀ t, s.client = some t → t = s.target) ∧
      ∀ endpoint payload, s.Directed g.network endpoint payload) ∧
    ∀ i s, g.members[i]? = some s →
      (∀ t, (g.step (.derive i t)).members = g.members ++ [s.forTarget t]) ∧
      ∀ later, (∀ o, Act.operate i o ∉ later) → (g.run later).members[i]? = some s := by
  have hstart : (start target format net).Current := by
    intro s hs
    rw [List.mem_singleton.mp hs]
    exact Sender.current_of_no_client rfl
  have hcurrent := hstart.run acts
  refine ⟨fun s hs => ⟨(hcurrent s hs).aimed, ?_⟩, fun i s hi => ⟨fun t => ?_, fun later ha => ?_⟩⟩
  · exact fun endpoint payload => (hcurrent s hs).directed _ endpoint payload
  · rw [step_derive hi]
  · exact run_others hi ha

end Senders

end Switchboard.Osc
