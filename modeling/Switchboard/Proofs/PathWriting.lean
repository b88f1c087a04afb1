import Switchboard.Proofs.Ways

/-!
# Writing places

Writing and reading agree on what a path means. What was written at a path is read there, a second
write leaves nothing of the first one, and a place that lies neither on the way nor beyond it keeps
what it had. A list on the way is the one exception, since the writer puts a record in its place.
-/
namespace Switchboard.Path

theorem select_putUnder (v : Value) (key segment : String) (value : Value) :
    select (putUnder v key value) segment = .ok (under (putUnder v key value) segment) := by
  apply select_eq_under
  intro items hitems
  have htable := isTable_putUnder v key value
  rw [hitems] at htable
  cases htable

/-! ## Segments -/

theorem follow_writeAt_self (ks : List String) (t value : Value) :
    follow ks (writeAt ks t value) = .ok value := by
  induction ks generalizing t with
  | nil => rfl
  | cons k ks ih =>
    rw [writeAt, follow_cons, select_putUnder, under_putUnder_self]
    exact ih (under t k)

theorem writeAt_writeAt (ks : List String) (t v w : Value) :
    writeAt ks (writeAt ks t v) w = writeAt ks t w := by
  induction ks generalizing t with
  | nil => rfl
  | cons k ks ih => rw [writeAt, writeAt, writeAt, under_putUnder_self, ih, putUnder_putUnder]

/-- A way that avoids lists selects by keys only, and goes on avoiding them. -/
theorem AvoidsLists.select_eq {t : Value} {k : String} {ks : List String}
    (h : AvoidsLists t (k :: ks)) (segment : String) :
    select t segment = .ok (under t segment) :=
  select_eq_under (fun items ht => h [] List.nil_prefix (List.cons_ne_nil k ks).symm items
    (congrArg Except.ok ht)) segment

theorem AvoidsLists.under {t : Value} {k : String} {ks : List String}
    (h : AvoidsLists t (k :: ks)) : AvoidsLists (under t k) ks := by
  intro before hprefix hne items hfollow
  apply h (k :: before) (List.cons_prefix_cons.mpr ⟨rfl, hprefix⟩) (by simpa using hne) items
  rw [follow_cons, h.select_eq]
  exact hfollow

/-- Where two ways part, there is a record or a table, whose other keys stay as they are, or a value
that the write replaces and that has no keys. -/
theorem follow_writeAt_of_not_prefix {ks js : List String} {t : Value} (hkj : ¬ ks <+: js)
    (hjk : ¬ js <+: ks) (h : AvoidsLists t ks) (value : Value) :
    follow js (writeAt ks t value) = follow js t := by
  induction ks generalizing js t with
  | nil => exact absurd List.nil_prefix hkj
  | cons k ks ih =>
    cases js with
    | nil => exact absurd List.nil_prefix hjk
    | cons j js =>
      rw [writeAt, follow_cons, follow_cons, select_putUnder, h.select_eq]
      by_cases hj : j = k
      · subst hj
        rw [under_putUnder_self]
        apply ih _ _ h.under
        · exact fun hprefix => hkj (List.cons_prefix_cons.mpr ⟨rfl, hprefix⟩)
        · exact fun hprefix => hjk (List.cons_prefix_cons.mpr ⟨rfl, hprefix⟩)
      · rw [under_putUnder_of_ne hj]

/-! ## Paths -/

/-- In a record or a table, what was written at a path is read there, and of two writes at a path
only the last one counts. A write is not seen at a second path if neither of the two leads on from
the end of the other and no list is on the way of the write. -/
theorem writeIn_laws {t : Value} (ht : t.isTable = true) (p q : Path) (v w : Value) :
    read (writeIn t p v) p = .ok v ∧
      writeIn (writeIn t p v) p w = writeIn t p w ∧
      (¬ p.segments <+: q.segments → ¬ q.segments <+: p.segments →
        (∀ before : Path, before.segments <+: p.segments → before ≠ p →
          ∀ items, read t before ≠ .ok (.list items)) →
        read (writeIn t p v) q = read t q) := by
  refine ⟨follow_writeAt_self _ t v, writeAt_writeAt _ t v w, fun hpq hqp hlists => ?_⟩
  apply follow_writeAt_of_not_prefix hpq hqp
  rintro (_ | ⟨first, rest⟩) hprefix hne items hlist
  · obtain rfl := Except.ok.inj hlist
    cases ht
  · refine hlists ⟨first, rest⟩ hprefix ?_ items hlist
    rintro rfl
    exact hne rfl

/-- A record with a text on the way of one path and a table whose keys are no texts on the way of
another. -/
def countedFields : Record Value :=
  [("user", .text "unknown"), ("counts", .table [(.int 1, .int 5), (.text "x", .int 6)])]

theorem writeIn_laws_counts :
    read (.record (write countedFields (ofText "user..name") (.text "Ann")))
        (ofText "user..name") = .ok (.text "Ann") ∧
      read (.record (write countedFields (ofText "counts.y") .null)) (ofText "counts.x") =
        .ok (.int 6) := by
  have hlaws := @writeIn_laws (.record countedFields) rfl
  rw [← writeIn_record, ← writeIn_record]
  constructor
  · exact (hlaws (ofText "user..name") (ofText "counts") (.text "Ann") .null).1
  · have hpath : ofText "counts.y" = ⟨"counts", ["y"]⟩ := by decide +kernel
    have hother : ofText "counts.x" = ⟨"counts", ["x"]⟩ := by decide +kernel
    have hlists : ∀ before : Path, before.segments <+: ["counts", "y"] →
        before ≠ ⟨"counts", ["y"]⟩ →
        ∀ items, read (.record countedFields) before ≠ .ok (.list items) := by
      rintro ⟨first, rest⟩ hprefix hne items
      obtain ⟨rfl, hrest⟩ := List.cons_prefix_cons.mp hprefix
      cases rest with
      | nil => exact nofun
      | cons s ss =>
        obtain ⟨rfl, hss⟩ := List.cons_prefix_cons.mp hrest
        obtain rfl := List.prefix_nil.mp hss
        exact absurd rfl hne
    rw [hpath, hother]
    exact (hlaws ⟨"counts", ["y"]⟩ ⟨"counts", ["x"]⟩ .null .null).2.2 (by decide) (by decide)
      hlists

end Switchboard.Path
