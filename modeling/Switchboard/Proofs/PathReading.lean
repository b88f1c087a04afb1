import Switchboard.Proofs.EvaluationFaults

/-!
# Reading places

A place is read without a fault, whether it leads to something or not, unless its path numbers the
items of a list on the way by digits that are no numeral. Only such a segment makes a path unsafe,
and every path with one is: some value has a list where the segment is reached.
-/
namespace Switchboard.Path

/-! ## The only fault -/

theorem position_eq_error {segment : String} {f : Fault} (h : position segment = .error f) :
    f = .notANumeral := by
  unfold position at h
  dsimp only at h
  split at h
  · cases h
  · split at h
    · cases h
    · exact (Except.error.inj h).symm

theorem select_eq_error {v : Value} {segment : String} {f : Fault}
    (h : select v segment = .error f) : f = .notANumeral := by
  cases v with
  | list items =>
    unfold select at h
    dsimp only at h
    cases hposition : position segment with
    | error e =>
      rw [hposition] at h
      exact Except.error.inj h ▸ position_eq_error hposition
    | ok n =>
      rw [hposition] at h
      cases n <;> cases h
  | _ => cases h

theorem follow_eq_error {segments : List String} {v : Value} {f : Fault}
    (h : follow segments v = .error f) : f = .notANumeral := by
  induction segments generalizing v with
  | nil => cases h
  | cons s ss ih =>
    rw [follow] at h
    cases hselect : select v s with
    | error e =>
      rw [hselect] at h
      exact Except.error.inj h ▸ select_eq_error hselect
    | ok w =>
      rw [hselect] at h
      cases w with
      | absent => cases h
      | _ => exact ih h

theorem read_eq_error_iff {v : Value} {p : Path} :
    read v p = .error .notANumeral ↔ Blocked p.segments v := by
  rw [← faults_read]
  constructor
  · exact fun h => ⟨_, h⟩
  · rintro ⟨f, h⟩
    rw [h, follow_eq_error h]

/-! ## Safe paths -/

/-- Records within each other along the segments, with an empty list in the innermost place. -/
def nest : List String → Value
  | [] => .list []
  | s :: ss => .record [(s, nest ss)]

theorem follow_nest (segments : List String) :
    follow segments (nest segments) = .ok (.list []) := by
  induction segments with
  | nil => rfl
  | cons s ss ih =>
    have hselect : select (nest (s :: ss)) s = .ok (nest ss) := by
      simp [nest, select, Value.lookupOrAbsent, Record.get?_cons]
    rw [follow, hselect]
    cases hn : nest ss with
    | absent => cases ss <;> cases hn
    | _ => rwa [hn] at ih

theorem exists_blocked_iff {segments : List String} :
    (∃ v, Blocked segments v) ↔ ∃ s ∈ segments, IsRefused s := by
  constructor
  · rintro ⟨v, before, s, rest, items, rfl, -, hs⟩
    exact ⟨s, by simp, hs⟩
  · rintro ⟨s, hmem, hs⟩
    obtain ⟨before, rest, rfl⟩ := List.append_of_mem hmem
    exact ⟨nest before, before, s, rest, [], rfl, follow_nest before, hs⟩

/-- A path gives a value, be it the absent one, unless it is blocked, and then the digits of its
segment are at fault. The paths that give a value whatever they are followed in are those that have
no segment of digits that is no numeral. -/
theorem read_total_iff (s : String) :
    (∀ v, ((∃ w, read v (ofText s) = .ok w) ↔ ¬ Blocked (ofText s).segments v) ∧
      (read v (ofText s) = .error .notANumeral ↔ Blocked (ofText s).segments v)) ∧
    ((∀ v, ∃ w, read v (ofText s) = .ok w) ↔ ∀ k ∈ (ofText s).segments, ¬ IsRefused k) := by
  have htotal (v : Value) :
      (∃ w, read v (ofText s) = .ok w) ↔ ¬ Blocked (ofText s).segments v := by
    rw [← not_faults_iff, faults_read]
  refine ⟨fun v => ⟨htotal v, read_eq_error_iff⟩, ?_⟩
  simp only [htotal]
  rw [← not_exists, exists_blocked_iff]
  simp only [not_exists, not_and]

/-- A list has no item that a superscript numbers, and asking for it is a fault. -/
theorem not_read_total_superscript :
    ¬ ∀ (s : String) (v : Value), ∃ w, read v (ofText s) = .ok w := by
  intro h
  obtain ⟨w, hw⟩ := h "xs.²" (.record [("xs", .list [.text "a"])])
  have hread : read (.record [("xs", .list [.text "a"])]) (ofText "xs.²") =
      .error .notANumeral := by
    rw [read_eq_error_iff]
    have hsegments : (ofText "xs.²").segments = ["xs", "²"] := by decide +kernel
    rw [hsegments]
    exact ⟨["xs"], "²", [], [.text "a"], rfl, rfl, by decide, by decide +kernel,
      Or.inl (by decide +kernel)⟩
  rw [hread] at hw
  cases hw

end Switchboard.Path
