import Switchboard.Proofs.Routing
import Switchboard.Proofs.RuleIdentity

/-!
# Rules that stand together

Where every rule says yes or no of a message, each one adds its own entries to the verdict, whatever
rules stand beside it. So the verdict of two lists of rules is made of the verdicts of both, a
change of one rule shows at its own place and nowhere else, and the order of the rules decides on
the order of the entries alone.
-/
namespace Switchboard

namespace Verdict

variable {v w joined : Verdict}

/-- A verdict keeps a message from the default endpoints if rules match and all of them block. -/
theorem passes_eq_false_iff :
    v.passes = false ↔ v.matched ≠ [] ∧ ∀ r ∈ v.matched, r.blockDefault = true := by
  simp [passes, List.any_eq_false]

/-- A verdict is made of two, one after the other. It blocks if one of the two has matches and those
that have some block. -/
structure Joins (v w joined : Verdict) : Prop where
  matched : joined.matched = v.matched ++ w.matched
  actions : joined.actions = v.actions ++ w.actions
  blocks : joined.passes = false ↔ (v.matched ≠ [] ∨ w.matched ≠ []) ∧
    (v.matched ≠ [] → v.passes = false) ∧ (w.matched ≠ [] → w.passes = false)

theorem joins_of_matched (h : joined.matched = v.matched ++ w.matched) : v.Joins w joined where
  matched := h
  actions := by simp only [actions, h, List.flatMap_append]
  blocks := by
    rw [passes_eq_false_iff, h, List.forall_mem_append]
    -- a verdict without matches lets pass, so it must not count against the other one
    rcases eq_or_ne v.matched [] with hv | hv <;> rcases eq_or_ne w.matched [] with hw | hw <;>
      simp [passes_eq_false_iff, hv, hw]

/-- The entries of a verdict are those of three, one after the other. -/
structure Between (front own back v : Verdict) : Prop where
  matched : v.matched = front.matched ++ own.matched ++ back.matched
  actions : v.actions = front.actions ++ own.actions ++ back.actions

theorem between_of_matched {front own back : Verdict}
    (h : v.matched = front.matched ++ own.matched ++ back.matched) : Between front own back v where
  matched := h
  actions := by simp only [actions, h, List.flatMap_append]

/-- Two verdicts have the same entries, if in another order. -/
structure Rearranges (v w : Verdict) : Prop where
  matched : v.matched.Perm w.matched
  actions : v.actions.Perm w.actions
  passes : v.passes = w.passes

theorem rearranges_of_matched (h : v.matched.Perm w.matched) : v.Rearranges w where
  matched := h
  actions := h.flatMap_right Rule.actions
  passes := by
    have hblocks : v.passes = false ↔ w.passes = false := by
      simp only [passes_eq_false_iff, h.mem_iff, ← List.length_pos_iff, h.length_eq]
    cases hv : v.passes <;> cases hw : w.passes <;> simp_all

end Verdict

namespace RuleBook

variable {message : Value} {rules : List Rule} {b : RuleBook} {now : Int} {c : Change}

/-- Each of some rules says yes or no of a message. -/
def Decide (message : Value) (rules : List Rule) : Prop := ∀ r ∈ rules, ¬ Faults (r.holds message)

/-- The verdict of some rules on a message. -/
def judge (message : Value) (rules : List Rule) : Except Fault Verdict :=
  process { rules } message

theorem faults_matching (message : Value) (rules : List Rule) :
    Faults (matching message rules) ↔ ∃ r ∈ rules, Faults (r.holds message) := by
  induction rules with
  | nil => simp [matching]
  | cons r rules ih =>
    rw [matching, faults_bind_bind_pure, ih]
    simp

/-- Rules that say yes or no come to a verdict, with the rules that say yes. -/
theorem judge_eq (h : Decide message rules) :
    judge message rules = .ok ⟨Router.matched rules message⟩ := by
  have hmatching : ¬ Faults (matching message rules) := by
    rw [faults_matching]
    rintro ⟨r, hr, hf⟩
    exact h r hr hf
  obtain ⟨found, hfound⟩ := not_faults_iff.mp hmatching
  have hjudge : judge message rules = .ok ⟨found⟩ := by
    simp only [judge, process, hfound, bind, Except.bind, pure, Except.pure]
  rw [hjudge, Router.matching_eq_ok hfound]

theorem mem_matched {r : Rule} :
    r ∈ Router.matched rules message ↔ r ∈ rules ∧ r.holds message = .ok true := by
  unfold Router.matched
  rw [List.mem_filter]
  cases r.holds message <;> simp

theorem decide_append {rules' : List Rule} :
    Decide message (rules ++ rules') ↔ Decide message rules ∧ Decide message rules' :=
  List.forall_mem_append

theorem matched_append (rules rules' : List Rule) (message : Value) :
    Router.matched (rules ++ rules') message =
      Router.matched rules message ++ Router.matched rules' message :=
  List.filter_append rules rules'

/-! ## The place of a change -/

/-- A change puts a rule behind all others, another one in the place of the rule that it names, or
takes the rule that it names away. -/
def Exchanges (b : RuleBook) (now : Int) (old new : Option Rule) (behind : List Rule) :
    Change → Prop
  | .add rule => old = none ∧ behind = [] ∧ ∃ r, new = some r ∧ (b.add rule now).2 = .ok r
  | .update id changes => ∃ r s, old = some r ∧ r.id = some id ∧ new = some s ∧ s.id = some id ∧
      (b.update id changes now).2 = .ok (some s)
  | .delete id => new = none ∧ ∃ r, old = some r ∧ r.id = some id

/-- A change that succeeds leaves the rules before its place and behind it as they were. -/
theorem Succeeds.exchanges (h : b.Succeeds now c) (distinct : (b.rules.filterMap (·.id)).Nodup) :
    ∃ front old new behind, b.rules = front ++ old.toList ++ behind ∧
      (b.changed now c).rules = front ++ new.toList ++ behind ∧
      b.Exchanges now old new behind c := by
  cases c with
  | add rule =>
    obtain ⟨r, hr⟩ := h
    obtain ⟨s, -, hs, hrules⟩ := add_eq_ok hr
    refine ⟨b.rules, none, some r, [], by simp, ?_, rfl, rfl, r, rfl, hr⟩
    change (b.add rule now).1.rules = _
    rw [hrules, hs, insert_eq]
    split <;> simp
  | update id changes =>
    obtain ⟨s, hs⟩ := h
    obtain ⟨front, r, behind, hrules, hr, hid, hafter⟩ := update_in_place hs
    exact ⟨front, some r, some s, behind, by simp [hrules], by simp [changed, hafter],
      r, s, rfl, hr, rfl, hid, hs⟩
  | delete id =>
    obtain ⟨hid, hafter⟩ := delete_eq_ok h
    obtain ⟨front, r, behind, hrules, hr, hfilter⟩ :=
      filter_of_hasId distinct (hasId_eq_true.mp hid)
    exact ⟨front, some r, none, behind, by simp [hrules], by simp [changed, hafter, hfilter],
      rfl, r, rfl, hr⟩

/-- The two verdicts have the entries of the rules before a place and behind it, and between them
those of the one rule, as it was and as it is. -/
def DifferAt (message : Value) (front : List Rule) (old new : Option Rule) (behind : List Rule)
    (v w : Verdict) : Prop :=
  ∃ vfront vold vnew vbehind, judge message front = .ok vfront ∧
    judge message old.toList = .ok vold ∧ judge message new.toList = .ok vnew ∧
    judge message behind = .ok vbehind ∧
    Verdict.Between vfront vold vbehind v ∧ Verdict.Between vfront vnew vbehind w

theorem differAt_of_decide {front behind : List Rule} {old new : Option Rule}
    (hold : Decide message (front ++ old.toList ++ behind))
    (hnew : Decide message (front ++ new.toList ++ behind)) :
    ∃ v w, judge message (front ++ old.toList ++ behind) = .ok v ∧
      judge message (front ++ new.toList ++ behind) = .ok w ∧
      DifferAt message front old new behind v w := by
  have hbetween : ∀ own : List Rule, Router.matched (front ++ own ++ behind) message =
      Router.matched front message ++ Router.matched own message ++
        Router.matched behind message := by
    intro own
    rw [matched_append, matched_append]
  refine ⟨_, _, judge_eq hold, judge_eq hnew, ?_⟩
  rw [decide_append, decide_append] at hold hnew
  exact ⟨_, _, _, _, judge_eq hold.1.1, judge_eq hold.1.2, judge_eq hnew.1.2, judge_eq hold.2,
    Verdict.between_of_matched (hbetween _), Verdict.between_of_matched (hbetween _)⟩

/-- On a message of which every rule says yes or no, the verdict of some rules has those that say
yes, in their order. Two lists of rules come to the verdict that is made of the verdicts of both. A
change that succeeds leaves the entries of the rules before its place and behind it, and exchanges
those of the one rule. Rules in another order come to the same entries in another order, and let the
same messages pass. -/
theorem rules_compose (message : Value) :
    (∀ rules, Decide message rules → ∃ v, judge message rules = .ok v ∧
      v.matched.Sublist rules ∧ ∀ r ∈ rules, r ∈ v.matched ↔ r.holds message = .ok true) ∧
    (∀ rules rules', Decide message (rules ++ rules') →
      ∃ v w joined, judge message rules = .ok v ∧ judge message rules' = .ok w ∧
        judge message (rules ++ rules') = .ok joined ∧ v.Joins w joined) ∧
    (∀ (b : RuleBook) now c, (b.rules.filterMap (·.id)).Nodup → b.Succeeds now c →
      Decide message b.rules → Decide message (b.changed now c).rules →
      ∃ front old new behind v w, b.rules = front ++ old.toList ++ behind ∧
        (b.changed now c).rules = front ++ new.toList ++ behind ∧
        b.Exchanges now old new behind c ∧ b.process message = .ok v ∧
        (b.changed now c).process message = .ok w ∧ DifferAt message front old new behind v w) ∧
    ∀ a b : RuleBook, a.rules.Perm b.rules → Decide message a.rules →
      ∃ v w, a.process message = .ok v ∧ b.process message = .ok w ∧ v.Rearranges w := by
  refine ⟨?_, ?_, ?_, ?_⟩
  · intro rules h
    exact ⟨_, judge_eq h, List.filter_sublist, fun r hr => mem_matched.trans (and_iff_right hr)⟩
  · intro rules rules' h
    obtain ⟨hrules, hrules'⟩ := decide_append.mp h
    exact ⟨_, _, _, judge_eq hrules, judge_eq hrules', judge_eq h,
      Verdict.joins_of_matched (matched_append rules rules' message)⟩
  · intro b now c distinct hs hbefore hafter
    obtain ⟨front, old, new, behind, hrules, hchanged, hexchanges⟩ := hs.exchanges distinct
    rw [hrules] at hbefore
    rw [hchanged] at hafter
    obtain ⟨v, w, hv, hw, hdiffer⟩ := differAt_of_decide hbefore hafter
    rw [← hrules] at hv
    rw [← hchanged] at hw
    exact ⟨front, old, new, behind, v, w, hrules, hchanged, hexchanges, hv, hw, hdiffer⟩
  · intro a b hperm h
    have hb : Decide message b.rules := fun r hr => h r (hperm.mem_iff.mpr hr)
    exact ⟨_, _, judge_eq h, judge_eq hb, Verdict.rearranges_of_matched (hperm.filter _)⟩

/-- A rule without conditions that blocks. -/
def blocking : Rule := { id := some "a", blockDefault := true }

/-- One that does not. -/
def passing : Rule := { id := some "b" }

/-- A rule that blocks is outvoted by one that does not, on either side of it, and blocks when that
one is taken away. -/
theorem rules_compose_outvoted :
    let m : Value := .record []
    let b : RuleBook := { rules := [blocking, passing] }
    (∃ joined, judge m ([blocking] ++ [passing]) = .ok joined ∧ joined.passes = true) ∧
      (∃ w, (b.changed 0 (.delete "b")).process m = .ok w ∧ w.passes = false) ∧
      ∃ v w, b.process m = .ok v ∧ process { rules := [passing, blocking] } m = .ok w ∧
        v.Rearranges w := by
  intro m b
  have hdecide : ∀ rules : List Rule, (∀ r ∈ rules, r = blocking ∨ r = passing) →
      Decide m rules := by
    intro rules hrules r hr
    rcases hrules r hr with rfl | rfl
    · exact not_faults_ok true
    · exact not_faults_ok true
  have hboth := hdecide [blocking, passing] (by simp)
  obtain ⟨-, hjoins, hchange, hperm⟩ := rules_compose m
  refine ⟨?_, ?_, hperm b { rules := [passing, blocking] } (List.Perm.swap ..) hboth⟩
  · obtain ⟨v, w, joined, -, hw, hjoined, h⟩ := hjoins [blocking] [passing] hboth
    obtain rfl := Except.ok.inj hw
    refine ⟨joined, hjoined, Bool.not_eq_false _ |>.mp fun hblocks => ?_⟩
    have hpasses := (h.blocks.mp hblocks).2.2 (List.cons_ne_nil _ _)
    cases hpasses
  · have hone : Decide m (b.changed 0 (.delete "b")).rules := hdecide [blocking] (by simp)
    obtain ⟨-, -, -, -, -, w, -, -, -, -, hw, -⟩ :=
      hchange b 0 (.delete "b") (by decide) rfl hboth hone
    refine ⟨w, hw, ?_⟩
    obtain rfl := Except.ok.inj hw
    rfl

end RuleBook

end Switchboard
