import Mathlib.Data.List.InsertIdx
import Switchboard.Proofs.JsonReading
import Switchboard.Proofs.Octets
import Switchboard.Proofs.RouterInvariants
import Switchboard.Proofs.Routing
import Switchboard.Proofs.SenderAccounting

/-!
# Batches of comments

What a comment sends depends on the rules, the settings and the comment, and these stay as they are
while a batch is handled. So on a network that works each comment of a batch is delivered as if it
had come alone, whatever became of the others, and one that ends in a fault can be left out.
-/
namespace Switchboard

namespace Osc

/-- No connection and no transmission that is to come fails. -/
structure Network.Working (net : Network) : Prop where
  connections : true ∉ net.connectFaults
  transmissions : true ∉ net.sendFaults

/-- A delivery without the target that it went to. -/
def Delivery.content (d : Delivery) : String × Argument := (d.address, d.argument)

namespace Network

variable {net : Network}

theorem headD_of_not_mem {faults : List Bool} (h : true ∉ faults) : faults.headD false = false := by
  cases faults with
  | nil => rfl
  | cons b faults =>
    cases b with
    | false => rfl
    | true => exact absurd List.mem_cons_self h

theorem Working.connect (h : net.Working) :
    net.connect.1 = true ∧ net.connect.2.Working ∧ net.connect.2.delivered = net.delivered := by
  have hhead := headD_of_not_mem h.connections
  unfold Network.connect
  simp only [hhead, Bool.false_eq_true, if_false, and_true, true_and]
  exact ⟨fun hm => h.connections (List.mem_of_mem_tail hm), h.transmissions⟩

theorem Working.transmit (h : net.Working) {d : Delivery}
    (sendable : isSendable d.address d.argument = true) :
    (net.transmit d).1 = true ∧ (net.transmit d).2.Working ∧
      (net.transmit d).2.delivered = net.delivered ++ [d] := by
  have hhead := headD_of_not_mem h.transmissions
  unfold Network.transmit
  simp only [sendable, hhead, Bool.not_true, Bool.and_false, Bool.false_eq_true, if_false, and_true,
    true_and]
  exact ⟨h.connections, fun hm => h.transmissions (List.mem_of_mem_tail hm)⟩

end Network

namespace Sender

variable {s after : Sender} {net net' : Network} {address : String} {a : Argument} {done : Bool}

/-- Whether the sender has a client, or would get one on a network that works. -/
def reaches (s : Sender) : Bool := s.client.isSome || s.target.text.isOk

/-- What the sender delivers of a payload to an endpoint on a network that works. -/
def carried (s : Sender) (sending : String × Value) : List (String × Argument) :=
  if s.reaches then
    match argument sending.2 s.format with
    | .ok a => [(sending.1, a)]
    | .error _ => []
  else []

theorem attempt_working (working : net.Working) (sendable : isSendable address a = true)
    (h : s.attempt net address a = (done, after, net')) :
    done = s.reaches ∧ after.reaches = s.reaches ∧ net'.Working ∧
      net'.delivered.map Delivery.content =
        net.delivered.map Delivery.content ++ if s.reaches then [(address, a)] else [] := by
  have hsent : ∀ {net : Network} {t : Target}, net.Working →
      (net.transmit ⟨t, address, a⟩).1 = true ∧ (net.transmit ⟨t, address, a⟩).2.Working ∧
      (net.transmit ⟨t, address, a⟩).2.delivered = net.delivered ++ [⟨t, address, a⟩] :=
    fun h => h.transmit sendable
  obtain ⟨hmade, hconnected, hdelivered⟩ := working.connect
  unfold attempt reach at h
  unfold reaches
  cases hc : s.client with
  | some t =>
    obtain ⟨hdone, hworking, hone⟩ := hsent (t := t) working
    simp only [hc, hdone, if_true, Prod.mk.injEq] at h
    obtain ⟨rfl, rfl, rfl⟩ := h
    simp [hworking, hone, Delivery.content]
  | none =>
    rcases hnet : net.connect with ⟨made, net₁⟩
    simp only [hnet] at hmade hconnected hdelivered
    cases ht : s.target.text.isOk with
    | true =>
      obtain ⟨hdone, hworking, hone⟩ := hsent (t := s.target) hconnected
      simp only [hc, hnet, hmade, ht, Bool.and_true, if_true, hdone, Prod.mk.injEq] at h
      obtain ⟨rfl, rfl, rfl⟩ := h
      simp [hworking, hone, hdelivered, Delivery.content]
    | false =>
      simp only [hc, hnet, ht, Bool.and_false, Bool.false_eq_true, if_false, Prod.mk.injEq] at h
      obtain ⟨rfl, rfl, rfl⟩ := h
      simp [ht, hconnected, hdelivered]

/-- A record has an argument that a client takes, if it has one at all. -/
theorem isSendable_of_isDue {sending : String × Value} {format : Value}
    (due : Course.IsDue sending) (h : argument sending.2 format = .ok a) :
    isSendable sending.1 a = true := by
  obtain ⟨hendpoint, fields, hrecord⟩ := due
  rw [hrecord] at h
  simp only [argument, payloadText, Json.write, Value.levelLimit_one, Json.writeWithin,
    bind_eq_ok_iff, pure, Except.pure, Except.ok.injEq] at h
  obtain ⟨f, -, text, ⟨parts, -, rfl⟩, rfl⟩ := h
  have hblob : ∀ inner : String, utf8 ("\x7b" ++ inner ++ "\x7d") ≠ [] := by
    intro inner hutf8
    have hlength := congrArg String.length (utf8_injective (hutf8.trans utf8_empty.symm))
    simp [String.length_append] at hlength
  cases f <;> simp [isSendable, Argument.ofText, hendpoint, hblob]

theorem send_working {sending : String × Value} (working : net.Working)
    (due : Course.IsDue sending)
    (h : s.send net sending.1 sending.2 = .ok (done, after, net')) :
    after.reaches = s.reaches ∧ after.format = s.format ∧ net'.Working ∧
      net'.delivered.map Delivery.content =
        net.delivered.map Delivery.content ++ s.carried sending := by
  unfold send at h
  unfold carried
  cases ha : argument sending.2 s.format with
  | error f =>
    simp only [ha] at h
    split at h
    · simp only [Except.ok.injEq, Prod.mk.injEq] at h
      obtain ⟨-, rfl, rfl⟩ := h
      simp [working, reaches, countError]
    · cases h
  | ok a =>
    have hsendable := isSendable_of_isDue due ha
    simp only [ha, sendArgument, Except.ok.injEq] at h
    rcases h₁ : s.attempt net sending.1 a with ⟨done₁, s₁, net₁⟩
    obtain ⟨hdone, hreaches, hworking, hone⟩ := attempt_working working hsendable h₁
    have hformat := (attempt_keeps h₁).2.2.2
    cases hr : s.reaches with
    | true =>
      obtain rfl : done₁ = true := hdone.trans hr
      simp only [h₁, Prod.mk.injEq] at h
      obtain ⟨-, rfl, rfl⟩ := h
      exact ⟨hreaches.trans hr, hformat, hworking, by simpa [hr] using hone⟩
    | false =>
      obtain rfl : done₁ = false := hdone.trans hr
      rcases h₂ : s₁.attempt net₁ sending.1 a with ⟨done₂, s₂, net₂⟩
      obtain ⟨hdone₂, hreaches₂, hworking₂, htwo⟩ := attempt_working hworking hsendable h₂
      have hformat₂ := (attempt_keeps h₂).2.2.2
      rw [hreaches, hr] at hdone₂ hreaches₂ htwo
      obtain rfl := hdone₂
      simp only [h₁, h₂, Prod.mk.injEq] at h
      obtain ⟨-, rfl, rfl⟩ := h
      exact ⟨hreaches₂, hformat₂.trans hformat, hworking₂,
        by simpa [hr] using htwo.trans (by simpa [hr] using hone)⟩

theorem Tries.working {as : List Attempt} (h : s.Tries net as after net') (working : net.Working)
    (due : ∀ a ∈ as, Course.IsDue a.sending) :
    after.reaches = s.reaches ∧ after.format = s.format ∧ net'.Working ∧
      net'.delivered.map Delivery.content =
        net.delivered.map Delivery.content ++ (as.map Attempt.sending).flatMap s.carried := by
  induction h with
  | nil s net => exact ⟨rfl, rfl, working, by simp⟩
  | @cons s s₁ s₂ net net₁ net₂ a as first rest ih =>
    have hdue : Course.IsDue a.sending := due a List.mem_cons_self
    obtain ⟨hreaches, hformat, hworking, hfirst⟩ := send_working working hdue first
    obtain ⟨hreaches', hformat', hworking', hrest⟩ :=
      ih hworking fun b hb => due b (List.mem_cons_of_mem _ hb)
    have hcarried : s₁.carried = s.carried := by
      funext sending
      simp only [carried, hreaches, hformat]
    refine ⟨hreaches'.trans hreaches, hformat'.trans hformat, hworking', ?_⟩
    rw [hrest, hfirst, hcarried]
    simp

end Sender

end Osc

namespace Router

variable {r : Router}

/-- How a comment of a batch passed: whether it was routed to an outcome, and the datagrams that
were delivered for it. -/
structure Passage where
  routed : Bool
  datagrams : List (String × Osc.Argument)

/-- The passages of comments that are routed one after the other. -/
def passages (r : Router) (now : Int) : List Value → List Passage
  | [] => []
  | comment :: comments =>
    let (after, result) := r.route now comment
    ⟨isRouted result,
      (after.network.delivered.drop r.network.delivered.length).map Osc.Delivery.content⟩ ::
      after.passages now comments

theorem length_passages (r : Router) (now : Int) (comments : List Value) :
    (r.passages now comments).length = comments.length := by
  induction comments generalizing r with
  | nil => rfl
  | cons comment comments ih => simp [passages, ih]

/-- The passage of a comment that comes alone. -/
def passage (r : Router) (now : Int) (comment : Value) : Passage :=
  let (sent, routed) := r.book.dispatch r.sender.format r.settings.current.enableDefaultEndpoints
    now comment
  ⟨routed, sent.flatMap r.sender.carried⟩

/-- Routing leaves the rules and the settings as they are. -/
theorem stable_book_settings (book : RuleBook) (settings : SettingsFile) :
    Stable fun r => r.book = book ∧ r.settings = settings where
  recorded h _ _ _ _ := h
  delivered h _ hdeliver := by
    obtain ⟨sender, network, -, rfl⟩ := deliver_eq_ok hdeliver
    exact h
  settled h _ := h

/-- On a network that works a comment passes as if it came alone, and so do those after it. -/
theorem route_passage (working : r.network.Working) (now : Int) (comment : Value) :
    (r.route now comment).1.network.Working ∧
      (r.route now comment).1.passage = r.passage ∧
      isRouted (r.route now comment).2 = (r.passage now comment).routed ∧
      ((r.route now comment).1.network.delivered.map Osc.Delivery.content) =
        r.network.delivered.map Osc.Delivery.content ++ (r.passage now comment).datagrams := by
  obtain ⟨hbook, hsettings⟩ := (stable_book_settings r.book r.settings).route ⟨rfl, rfl⟩ now comment
  obtain ⟨as, htries, hdispatch, -⟩ := r.route_tries now comment
  have hdue : ∀ a ∈ as, Course.IsDue a.sending := by
    intro a ha
    have hmem : a.sending ∈
        (r.book.dispatch r.sender.format r.settings.current.enableDefaultEndpoints now
          comment).1 := by
      rw [hdispatch]
      exact List.mem_map_of_mem ha
    exact RuleBook.isDue_of_mem_dispatch hmem
  obtain ⟨hreaches, hformat, hworking, hdelivered⟩ := htries.working working hdue
  refine ⟨hworking, ?_, ?_, ?_⟩
  · have hcarried : (r.route now comment).1.sender.carried = r.sender.carried := by
      funext sending
      simp only [Osc.Sender.carried, hreaches, hformat]
    funext now' comment'
    simp only [passage, hbook, hsettings, hcarried, hformat]
  · simp [passage, hdispatch]
  · simpa [passage, hdispatch] using hdelivered

theorem passages_eq_map (working : r.network.Working) (now : Int) (comments : List Value) :
    r.passages now comments = comments.map (r.passage now) := by
  induction comments generalizing r with
  | nil => rfl
  | cons comment comments ih =>
    obtain ⟨hworking, hsame, hrouted, hdelivered⟩ := route_passage working now comment
    simp only [passages, List.map_cons, ih hworking, hsame, hrouted, List.map_drop, hdelivered]
    simp

/-! ## Batches of JSON -/

/-- A fault of a comment that was read from JSON can be noted. -/
theorem note_of_isJson {comment : Value} (json : comment.IsJson)
    (result : Except Fault (Option Outcome)) : note comment result = .ok () := by
  cases result with
  | ok outcome => rfl
  | error f =>
    have hservice : (part comment "service").IsJson := by
      cases comment with
      | record c => exact json.lookup "service"
      | _ => exact ⟨.null, show 1 ≤ 985 by decide⟩
    obtain ⟨text, ht⟩ := not_faults_iff.mp
      (mt (Value.faults_plain _).mp hservice.not_lacksLiteral)
    simp [note, ht, bind, Except.bind, pure, Except.pure]

/-- A batch of JSON is handled to its end, and the comments that were routed are counted. -/
theorem handle_eq_ok (now : Int) {comments : List Value} (json : ∀ c ∈ comments, c.IsJson) :
    (r.handle now comments).2 = .ok ((r.passages now comments).countP (·.routed)) := by
  induction comments generalizing r with
  | nil => rfl
  | cons comment comments ih =>
    have hrest := ih (r := (r.route now comment).1) fun c hc => json c (List.mem_cons_of_mem _ hc)
    simp only [handle, note_of_isJson (json comment List.mem_cons_self), passages, hrest,
      Except.map, List.countP_cons]
    split <;> rfl

theorem handle_delivered (now : Int) {comments : List Value} (json : ∀ c ∈ comments, c.IsJson)
    (working : r.network.Working) :
    (r.handle now comments).1.network.delivered.map Osc.Delivery.content =
      r.network.delivered.map Osc.Delivery.content ++
        (r.passages now comments).flatMap (·.datagrams) := by
  induction comments generalizing r with
  | nil => simp [passages]
  | cons comment comments ih =>
    obtain ⟨hworking, -, -, hdelivered⟩ := route_passage working now comment
    have hrest := ih (r := (r.route now comment).1)
      (fun c hc => json c (List.mem_cons_of_mem _ hc)) hworking
    simp only [handle, note_of_isJson (json comment List.mem_cons_self), passages, hrest,
      List.flatMap_cons, List.map_drop, hdelivered]
    simp

/-- A batch of JSON is handled to its end on a network that works. The comments that were routed to
an outcome are counted, and what is delivered is what is delivered for each comment. These
datagrams are the same when a comment is left out, so one that is not brought to a message, or ends
in a fault at any point, changes nothing for the others. -/
theorem handle_isolates (now : Int) {comments : List Value} (json : ∀ c ∈ comments, c.IsJson)
    (working : r.network.Working) :
    (r.handle now comments).2 = .ok ((r.passages now comments).countP (·.routed)) ∧
      (r.handle now comments).1.network.delivered.map Osc.Delivery.content =
        r.network.delivered.map Osc.Delivery.content ++
          (r.passages now comments).flatMap (·.datagrams) ∧
      ∀ k, r.passages now (comments.eraseIdx k) = (r.passages now comments).eraseIdx k := by
  refine ⟨handle_eq_ok now json, handle_delivered now json working, ?_⟩
  intro k
  rw [passages_eq_map working, passages_eq_map working, List.eraseIdx_map]

/-- The router of the chat on a network that works. -/
def calmRouter : Router := { chatRouter with network := {} }

/-- A batch with a comment in its middle whose service cannot be counted. -/
def mixedBatch : List Value :=
  [chatComment, .record [("service", .list [.null]), ("data", .record [])], chatComment]

theorem isJson_chat : chatComment.IsJson :=
  ⟨.record (by simp [Value.OfJson.text, Value.OfJson.record]), by decide⟩

theorem handle_isolates_mixed : (calmRouter.handle 0 mixedBatch).2 = .ok 2 ∧
    isRouted (calmRouter.route 0 (.record [("service", .list [.null]), ("data", .record [])])).2 =
      false ∧
    calmRouter.passages 0 [chatComment, chatComment] =
      (calmRouter.passages 0 mixedBatch).eraseIdx 1 := by
  have json : ∀ c ∈ mixedBatch, c.IsJson := by
    have hunnamed : (Value.list [.null]).OfJson := .list (by simp [Value.OfJson.null])
    simp only [mixedBatch, List.mem_cons, List.not_mem_nil, or_false, forall_eq_or_imp, forall_eq]
    exact ⟨isJson_chat, ⟨.record (by simp [hunnamed, Value.OfJson.record]), by decide⟩, isJson_chat⟩
  have working : calmRouter.network.Working := ⟨by decide, by decide⟩
  obtain ⟨hcount, -, herase⟩ := handle_isolates 0 json working
  exact ⟨hcount.trans (congrArg Except.ok (by decide +kernel)), by decide +kernel, herase 1⟩

end Router

end Switchboard
