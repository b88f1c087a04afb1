import Switchboard.Proofs.Batches
import Switchboard.Proofs.LoggedTraffic
import Switchboard.Proofs.UnreadableComments

/-!
# The comments that a log counts

A comment is logged once it has been brought to a message or to none, and before anything else is
done with it. So the comments of a batch are logged one by one in their order, whatever becomes of
them later, and only those are missing that cannot be read.
-/
namespace Switchboard

def Traffic.isIncoming : Traffic → Bool
  | .incoming _ _ => true
  | .outgoing _ _ => false

namespace Log

theorem incoming_record (log : Log) (now : Int) (t : Traffic) (data : Value) :
    (log.record now t data []).1.incoming = log.incoming + t.isIncoming.toNat := by
  cases t with
  | incoming service processed =>
    cases hg : service.given <;> cases hk : service.isKey <;>
      simp [record, append, countTotal, countName, countTime, Traffic.isIncoming, hg, hk]
  | outgoing endpoint success =>
    cases hk : endpoint.isKey <;>
      simp [record, append, countTotal, countName, countTime, Traffic.isIncoming, hk]

theorem incoming_recordAll (log : Log) (now : Int) (ts : List Traffic) :
    (log.recordAll now ts).incoming = log.incoming + (ts.filter Traffic.isIncoming).length := by
  induction ts generalizing log with
  | nil => rfl
  | cons t ts ih =>
    have hrest := ih (log.record now t .null []).1
    rw [incoming_record] at hrest
    rw [recordAll, List.foldl_cons, ← recordAll, hrest]
    cases ht : t.isIncoming <;> simp [ht, Nat.add_comm, Nat.add_left_comm]

end Log

namespace Router

variable {r : Router} {now : Int}

theorem arrivals_of_isUnreadable {comment : Value} (json : comment.IsJson)
    (h : Message.IsUnreadable comment) : arrivals now comment = [] := by
  obtain ⟨f, hf⟩ := (Message.faults_ofComment json.kinds now).mpr h
  rw [arrivals, hf]

theorem arrivals_of_not_isUnreadable {comment : Value} (json : comment.IsJson)
    (h : ¬ Message.IsUnreadable comment) :
    ∃ processed, arrivals now comment = [.incoming (part comment "service") processed] := by
  obtain ⟨message, hm⟩ := not_faults_iff.mp (mt (Message.faults_ofComment json.kinds now).mp h)
  exact ⟨message.isSome, by rw [arrivals, hm]⟩

theorem length_arrivals_le (now : Int) (comment : Value) : (arrivals now comment).length ≤ 1 := by
  unfold arrivals
  split <;> simp

/-- What is noted of a comment starts with the comment, and the rest goes out. -/
theorem filter_traffic (r : Router) (now : Int) (comment : Value) :
    (r.traffic now comment).filter Traffic.isIncoming = arrivals now comment := by
  have hout : ∀ as : List Osc.Attempt,
      (as.map Osc.Attempt.traffic).filter Traffic.isIncoming = [] := by
    intro as
    rw [List.filter_eq_nil_iff]
    intro t ht
    obtain ⟨a, -, rfl⟩ := List.mem_map.mp ht
    exact Bool.false_ne_true
  rw [traffic, List.filter_append, hout, List.append_nil]
  unfold arrivals
  split <;> rfl

/-- No comment of a batch of JSON ends the batch, so what comes in is noted of each. -/
theorem filter_batchTraffic (r : Router) (now : Int) {comments : List Value}
    (json : ∀ c ∈ comments, c.IsJson) :
    (r.batchTraffic now comments).filter Traffic.isIncoming = comments.flatMap (arrivals now) := by
  induction comments generalizing r with
  | nil => rfl
  | cons comment comments ih =>
    have hnote := note_of_isJson (json comment List.mem_cons_self) (r.route now comment).2
    rw [batchTraffic, hnote, List.filter_append, filter_traffic, List.flatMap_cons,
      ih _ fun c hc => json c (List.mem_cons_of_mem _ hc)]

/-- Lists of at most one item each add up to one item for each exactly if none is empty. -/
theorem length_flatMap_arrivals (now : Int) (comments : List Value) :
    (comments.flatMap (arrivals now)).length ≤ comments.length ∧
      ((comments.flatMap (arrivals now)).length = comments.length ↔
        ∀ c ∈ comments, arrivals now c ≠ []) := by
  induction comments with
  | nil => simp
  | cons comment comments ih =>
    obtain ⟨hle, hiff⟩ := ih
    have hone := length_arrivals_le now comment
    have hnil : arrivals now comment ≠ [] ↔ (arrivals now comment).length = 1 := by
      rw [← List.length_pos_iff_ne_nil]
      omega
    rw [List.flatMap_cons, List.length_append, List.length_cons, List.forall_mem_cons, ← hiff, hnil]
    omega

/-- In a batch of JSON every comment that can be read has one entry of its own in the log, in the
order of the batch, whatever becomes of it, and a comment that cannot be read has none. So the total
of what came in rises by the length of the batch exactly if all its comments can be read. -/
theorem handle_arrivals (r : Router) (now : Int) {comments : List Value}
    (json : ∀ c ∈ comments, c.IsJson) :
    (r.handle now comments).1.log.bare = r.log.bare.recordAll now (r.batchTraffic now comments) ∧
    (r.batchTraffic now comments).filter Traffic.isIncoming = comments.flatMap (arrivals now) ∧
    (∀ c ∈ comments, ¬ Message.IsUnreadable c →
      ∃ processed, arrivals now c = [.incoming (part c "service") processed]) ∧
    (∀ c ∈ comments, Message.IsUnreadable c → arrivals now c = []) ∧
    (r.handle now comments).1.log.incoming =
      r.log.incoming + (comments.flatMap (arrivals now)).length ∧
    ((r.handle now comments).1.log.incoming = r.log.incoming + comments.length ↔
      ∀ c ∈ comments, ¬ Message.IsUnreadable c) := by
  have hlogged := r.handle_logged now comments
  have hfilter := r.filter_batchTraffic now json
  have htotal : (r.handle now comments).1.log.incoming =
      r.log.incoming + (comments.flatMap (arrivals now)).length := by
    change (r.handle now comments).1.log.bare.incoming = r.log.bare.incoming + _
    rw [hlogged, Log.incoming_recordAll, hfilter]
  refine ⟨hlogged, hfilter, ?_, ?_, htotal, ?_⟩
  · intro c hc
    exact arrivals_of_not_isUnreadable (json c hc)
  · intro c hc
    exact arrivals_of_isUnreadable (json c hc)
  · rw [htotal, Nat.add_left_cancel_iff, (length_flatMap_arrivals now comments).2]
    refine forall₂_congr fun c hc => ?_
    constructor
    · exact mt (arrivals_of_isUnreadable (json c hc))
    · intro h hnone
      obtain ⟨processed, he⟩ : ∃ processed, arrivals now c = [.incoming _ processed] :=
        arrivals_of_not_isUnreadable (json c hc) h
      exact absurd (he.symm.trans hnone) (List.cons_ne_nil _ _)

/-- A number that is beyond the doubles and short of the digit limit. -/
def countless : Int := 10 ^ 200 * 10 ^ 200

theorem isPastDoubles_countless : IsPastDoubles countless := by
  unfold IsPastDoubles
  decide +kernel

theorem not_isOverlong_countless : ¬ IsOverlong countless := by
  unfold IsOverlong
  decide +kernel

/-- A comment with so many bits that no double stands for them. -/
def boundlessComment : Value :=
  .record [("service", .text "twitch"), ("data", .record [("bits", .int countless)])]

theorem isJson_boundless : boundlessComment.IsJson := by
  have hraw : (Value.record [("bits", .int countless)]).OfJson :=
    .record (by simpa using Value.OfJson.int not_isOverlong_countless)
  refine ⟨.record ?_, by decide +kernel⟩
  simpa using ⟨Value.OfJson.text "twitch", hraw⟩

theorem isUnreadable_boundless : Message.IsUnreadable boundlessComment :=
  ⟨_, "twitch", _, rfl, rfl, rfl, Or.inr (Or.inl ⟨countless, rfl, isPastDoubles_countless⟩)⟩

theorem handle_arrivals_boundless :
    (∀ c ∈ [chatComment, boundlessComment], c.IsJson) ∧
      (calmRouter.handle 0 [chatComment, boundlessComment]).1.log.incoming = 1 := by
  have json : ∀ c ∈ [chatComment, boundlessComment], c.IsJson := by
    simp only [List.mem_cons, List.not_mem_nil, or_false, forall_eq_or_imp, forall_eq]
    exact ⟨isJson_chat, isJson_boundless⟩
  obtain ⟨-, -, -, hlost, htotal, -⟩ := handle_arrivals calmRouter 0 json
  have hnone := hlost boundlessComment (by simp) isUnreadable_boundless
  refine ⟨json, ?_⟩
  rw [htotal, List.flatMap_cons, List.flatMap_cons, hnone]
  decide +kernel

/-- A batch of one comment leaves no trace in the log. -/
theorem handle_arrivals_lost : (∀ c ∈ [boundlessComment], c.IsJson) ∧
    (calmRouter.handle 0 [boundlessComment]).2 = .ok 0 ∧
    (calmRouter.handle 0 [boundlessComment]).1.log.entries = [] ∧
    (calmRouter.handle 0 [boundlessComment]).1.log.incoming ≠
      calmRouter.log.incoming + [boundlessComment].length := by
  obtain ⟨f, hf⟩ := (Message.faults_ofComment isJson_boundless.kinds 0).mpr isUnreadable_boundless
  have hroute : calmRouter.route 0 boundlessComment = (calmRouter, .error f) := by
    rw [route, hf]
  have hhandle : calmRouter.handle 0 [boundlessComment] = (calmRouter, .ok 0) := by
    simp only [handle, hroute, note_of_isJson isJson_boundless]
    rfl
  rw [hhandle]
  refine ⟨?_, rfl, rfl, by decide⟩
  intro c hc
  obtain rfl := List.mem_singleton.mp hc
  exact isJson_boundless

end Router

end Switchboard
