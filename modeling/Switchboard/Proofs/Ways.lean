import Switchboard.Path

/-!
# Ways through a value

The segments of a path are a way through a value, and a way that goes on starts again from where its
first part leads. A dot between two texts parts the segments of the one from those of the other, so
a joined path leads where the second path leads from the end of the first.
-/
namespace Switchboard.Path

/-! ## Ways that go on -/

theorem follow_absent (ks : List String) : follow ks .absent = .ok .absent := by
  cases ks <;> rfl

/-- A way that goes on is the way on from where its first part leads. -/
theorem follow_append (as bs : List String) (v : Value) :
    follow (as ++ bs) v = follow as v >>= follow bs := by
  induction as generalizing v with
  | nil => rfl
  | cons k ks ih =>
    rw [List.cons_append, follow, follow]
    cases select v k with
    | error f => rfl
    | ok w =>
      cases w with
      | absent => exact (follow_absent bs).symm
      | _ => exact ih _

theorem follow_singleton (v : Value) (k : String) : follow [k] v = select v k := by
  rw [follow]
  cases select v k with
  | error f => rfl
  | ok w => cases w <;> rfl

theorem follow_cons (k : String) (ks : List String) (v : Value) :
    follow (k :: ks) v = select v k >>= follow ks := by
  rw [← List.singleton_append, follow_append, follow_singleton]

/-- No place on the way, before its end, holds a list. -/
def AvoidsLists (message : Value) (p : List String) : Prop :=
  ∀ before, before <+: p → before ≠ p → ∀ items, follow before message ≠ .ok (.list items)

/-! ## Joined paths -/

/-- The texts between the dots of two texts with a dot between them. -/
theorem splitDots_append (as bs : List Char) :
    splitDots (as ++ '.' :: bs) =
      ((splitDots as).1, (splitDots as).2 ++ (splitDots bs).1 :: (splitDots bs).2) := by
  induction as with
  | nil => rfl
  | cons c cs ih =>
    rw [List.cons_append, splitDots, splitDots, ih]
    by_cases hc : c = '.'
    · simp [hc]
    · simp [hc]

theorem segments_ofText (s : String) :
    (ofText s).segments =
      String.ofList (splitDots s.toList).1 :: (splitDots s.toList).2.map String.ofList := rfl

/-- A dot parts the segments of two paths. -/
theorem segments_ofText_join (p q : String) :
    (ofText (p ++ "." ++ q)).segments = (ofText p).segments ++ (ofText q).segments := by
  have htext : (p ++ "." ++ q).toList = p.toList ++ '.' :: q.toList := by simp
  rw [segments_ofText, segments_ofText, segments_ofText, htext, splitDots_append, List.map_append,
    List.map_cons, List.cons_append]

/-- A joined path is read by reading the second path where the first one leads, and what faults on
either of them is the fault of the whole. Where the first path leads nowhere, so does the joined
one. -/
theorem read_join (v : Value) (p q : String) :
    read v (ofText (p ++ "." ++ q)) = (do
      let w ← read v (ofText p)
      read w (ofText q)) ∧
    (read v (ofText p) = .ok .absent → read v (ofText (p ++ "." ++ q)) = .ok .absent) := by
  have hjoin : read v (ofText (p ++ "." ++ q)) =
      read v (ofText p) >>= fun w => read w (ofText q) := by
    rw [read, segments_ofText_join, follow_append]
    rfl
  refine ⟨hjoin, fun h => ?_⟩
  rw [hjoin, h]
  exact follow_absent _

/-- A message with a key that is the empty text. -/
def nestedMessage : Value :=
  .record [("user", .record [("", .list [.text "a", .record [("id", .int 7)]])])]

theorem read_join_nested :
    read nestedMessage (ofText ("user." ++ "." ++ "1.id")) = .ok (.int 7) ∧
      read nestedMessage (ofText ("user.name" ++ "." ++ "")) = .ok .absent := by
  constructor
  · rw [(read_join nestedMessage "user." "1.id").1]
    rfl
  · exact (read_join nestedMessage "user.name" "").2 rfl

end Switchboard.Path
