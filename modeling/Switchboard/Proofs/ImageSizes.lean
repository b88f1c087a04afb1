import Mathlib.Tactic.ByContra
import Switchboard.Proofs.TypedTexts

/-!
# The size of a profile image

An address may give the size of an image: a mark, the size and a suffix, all on one line. The first
of these stretches is replaced, and of those that begin there the longest. Its place does not depend
on the size that it gives. So the address that comes out has its first size at the same place, and
there it has the size that is asked for.
-/
namespace Switchboard.Markup

/-! ## Sizes in an address -/

/-- The stretch of an address that gives a size. -/
def sized (size : List Char) : List Char := '=' :: 's' :: (size ++ sizeSuffix)

/-- The size that is asked for. -/
def askedSize : List Char := "240".toList

/-- The address gives a size on one line, between what stands before and after. -/
structure HasSize (cs before size after : List Char) : Prop where
  ne_nil : size ≠ []
  oneLine : '\n' ∉ sized size
  eq : cs = before ++ (sized size ++ after)

/-- No size is given before this one, and no longer one at this place. -/
structure HasFirstSize (cs before size after : List Char) : Prop
    extends HasSize cs before size after where
  leftmost : ∀ {before' size' after'}, HasSize cs before' size' after' →
    before.length ≤ before'.length
  longest : ∀ {size' after'}, HasSize cs before size' after' → size'.length ≤ size.length

variable {c : Char} {cs before size after before' size' after' rest : List Char}

theorem newline_not_mem_sizeSuffix : '\n' ∉ sizeSuffix := by decide

theorem newline_not_mem_sized : '\n' ∉ sized size ↔ '\n' ∉ size := by
  simp [sized, newline_not_mem_sizeSuffix]

theorem sized_append (size after : List Char) :
    sized size ++ after = '=' :: 's' :: (size ++ (sizeSuffix ++ after)) := by
  simp [sized]

theorem sized_append_inj :
    sized size ++ after = sized size' ++ after' ↔
      size ++ (sizeSuffix ++ after) = size' ++ (sizeSuffix ++ after') := by
  rw [sized_append, sized_append, List.cons_inj_right, List.cons_inj_right]

theorem hasSize_append_iff :
    HasSize (before ++ cs) before size after ↔ HasSize cs [] size after := by
  constructor
  · intro h
    exact ⟨h.ne_nil, h.oneLine, List.append_cancel_left h.eq⟩
  · intro h
    exact ⟨h.ne_nil, h.oneLine, congrArg (before ++ ·) h.eq⟩

theorem HasSize.cons (h : HasSize cs before size after) (c : Char) :
    HasSize (c :: cs) (c :: before) size after :=
  ⟨h.ne_nil, h.oneLine, congrArg (c :: ·) h.eq⟩

/-- A size that is not given at the start of the text is given in the rest of it. -/
theorem HasSize.of_cons (h : HasSize (c :: cs) before size after) :
    before = [] ∨ ∃ before', before = c :: before' ∧ HasSize cs before' size after := by
  cases before with
  | nil => exact Or.inl rfl
  | cons b before' =>
    obtain ⟨rfl, hcs⟩ := List.cons.inj h.eq
    exact Or.inr ⟨before', rfl, h.ne_nil, h.oneLine, hcs⟩

/-- The first size stays the first one behind a character at which none is given. -/
theorem HasFirstSize.cons (h : HasFirstSize cs before size after)
    (hnone : ∀ size' after', ¬ HasSize (c :: cs) [] size' after') :
    HasFirstSize (c :: cs) (c :: before) size after where
  toHasSize := h.toHasSize.cons c
  leftmost := by
    intro before' size' after' h'
    rcases h'.of_cons with rfl | ⟨before'', rfl, h''⟩
    · exact absurd h' (hnone _ _)
    · exact Nat.succ_le_succ (h.leftmost h'')
  longest := by
    intro size' after' h'
    exact h.longest ⟨h'.ne_nil, h'.oneLine, List.cons.inj h'.eq |>.2⟩

theorem HasFirstSize.unique (h : HasFirstSize cs before size after)
    (h' : HasFirstSize cs before' size' after') :
    before = before' ∧ size = size' ∧ after = after' := by
  have hlength := Nat.le_antisymm (h.leftmost h'.toHasSize) (h'.leftmost h.toHasSize)
  obtain ⟨rfl, hstretch⟩ := List.append_inj (h.eq.symm.trans h'.eq) hlength
  have hsizes := Nat.le_antisymm (h'.longest h.toHasSize) (h.longest h'.toHasSize)
  obtain ⟨rfl, hrest⟩ := List.append_inj (sized_append_inj.mp hstretch) hsizes
  exact ⟨rfl, rfl, List.append_cancel_left hrest⟩

/-! ## Another size -/

/-- If a size is given in front of a stretch with some other size, one is given there for any size
in the stretch: either the same, or one that reaches to the end of the stretch. -/
theorem HasSize.exists_of_front {other front : List Char}
    (h : HasSize (front ++ (sized other ++ after)) [] size' after') (hfront : front ≠ [])
    (hline : '\n' ∉ size) : ∃ s a, HasSize (front ++ (sized size ++ after)) [] s a := by
  obtain ⟨hne, hline', heq⟩ := h
  rw [List.nil_append, sized_append size'] at heq
  obtain ⟨c, front, rfl⟩ := List.exists_cons_of_ne_nil hfront
  rw [List.cons_append, List.cons.injEq] at heq
  obtain ⟨rfl, heq⟩ := heq
  cases front with
  | nil => cases heq
  | cons c front =>
    rw [List.cons_append, List.cons.injEq, ← List.append_assoc size'] at heq
    obtain ⟨rfl, heq⟩ := heq
    rcases List.append_eq_append_iff.mp heq with ⟨e, he, -⟩ | ⟨e, rfl, -⟩
    · -- the size ends behind the start of the stretch, so all in front is on one line
      have hfront : '\n' ∉ front := by
        intro hmem
        apply hline'
        rw [sized, he]
        simp [hmem]
      refine ⟨front ++ '=' :: 's' :: size, after, by simp, ?_, by simp [sized]⟩
      rw [newline_not_mem_sized]
      simp [hfront, hline]
    · exact ⟨size', e ++ (sized size ++ after), hne, hline', by simp [sized]⟩

/-- The place of the first size does not depend on the size. -/
theorem HasFirstSize.resized (h : HasFirstSize cs before size after) (hne : size' ≠ [])
    (hline : '\n' ∉ size') :
    HasFirstSize (before ++ (sized size' ++ after)) before size' after where
  ne_nil := hne
  oneLine := newline_not_mem_sized.mpr hline
  eq := rfl
  leftmost := by
    intro b s a hs
    by_contra hlt
    obtain ⟨front, rfl⟩ : b <+: before := by
      have hb : b <+: before ++ (sized size' ++ after) := by
        rw [hs.eq]
        exact List.prefix_append _ _
      exact List.prefix_of_prefix_length_le hb (List.prefix_append _ _) (Nat.le_of_not_le hlt)
    have hfront : front ≠ [] := by
      rintro rfl
      simp at hlt
    rw [List.append_assoc, hasSize_append_iff] at hs
    obtain ⟨s', a', hs'⟩ := hs.exists_of_front hfront (newline_not_mem_sized.mp h.oneLine)
    have hearlier : HasSize cs b s' a' := by
      rw [h.eq, List.append_assoc, hasSize_append_iff]
      exact hs'
    exact hlt (h.leftmost hearlier)
  longest := by
    intro s a hs
    have heq := sized_append_inj.mp (List.append_cancel_left hs.eq)
    rcases List.append_eq_append_iff.mp heq with ⟨e, rfl, he⟩ | ⟨e, rfl, -⟩
    · -- a longer size would make the size of the other address longer as well
      have hlonger : HasSize cs before (size ++ e) a := by
        refine ⟨by simp [h.ne_nil], ?_, ?_⟩
        · rw [newline_not_mem_sized, List.mem_append]
          rintro (hmem | hmem)
          · exact newline_not_mem_sized.mp h.oneLine hmem
          · exact newline_not_mem_sized.mp hs.oneLine (List.mem_append_right _ hmem)
        · rw [h.eq, List.append_cancel_left_eq, sized_append_inj, he, List.append_assoc]
      have hle := h.longest hlonger
      rw [List.length_append] at hle ⊢
      omega
    · simp

/-! ## Replacing the size -/

theorem exists_of_afterLastSuffix? {line : List Char} (h : afterLastSuffix? line = some rest) :
    ∃ size, size ≠ [] ∧ line = size ++ (sizeSuffix ++ rest) := by
  induction line with
  | nil => cases h
  | cons c cs ih =>
    rw [afterLastSuffix?] at h
    split at h
    · rename_i rest' hrest
      obtain rfl := Option.some.inj h
      obtain ⟨size, -, rfl⟩ := ih hrest
      exact ⟨c :: size, List.cons_ne_nil _ _, rfl⟩
    · split at h
      · rename_i hstarts
        obtain ⟨t, rfl⟩ := List.isPrefixOf_iff_prefix.mp hstarts
        rw [List.drop_left] at h
        obtain rfl := Option.some.inj h
        exact ⟨[c], List.cons_ne_nil _ _, rfl⟩
      · cases h

/-- Behind a size there is a last suffix, and it is not before the suffix of that size. -/
theorem exists_afterLastSuffix? (c : Char) (size rest : List Char) :
    ∃ rest', afterLastSuffix? (c :: (size ++ (sizeSuffix ++ rest))) = some rest' ∧
      rest'.length ≤ rest.length := by
  induction size generalizing c with
  | nil =>
    rw [List.nil_append, afterLastSuffix?]
    cases hlater : afterLastSuffix? (sizeSuffix ++ rest) with
    | some rest' =>
      obtain ⟨between, -, heq⟩ := exists_of_afterLastSuffix? hlater
      have hlength := congrArg List.length heq
      simp only [List.length_append] at hlength
      exact ⟨rest', rfl, by omega⟩
    | none =>
      have hstarts : sizeSuffix.isPrefixOf (sizeSuffix ++ rest) = true :=
        List.isPrefixOf_iff_prefix.mpr (List.prefix_append _ _)
      refine ⟨rest, ?_, Nat.le_refl _⟩
      simp only [hstarts, if_true, List.drop_left]
  | cons d size ih =>
    obtain ⟨rest', hrest, hle⟩ := ih d
    rw [List.cons_append, afterLastSuffix?, hrest]
    exact ⟨rest', rfl, hle⟩

theorem hasSize_start_iff {t : List Char} : HasSize ('=' :: 's' :: t) [] size after ↔
    size ≠ [] ∧ '\n' ∉ size ∧ t = size ++ (sizeSuffix ++ after) := by
  have heq : '=' :: 's' :: t = [] ++ (sized size ++ after) ↔
      t = size ++ (sizeSuffix ++ after) := by
    rw [List.nil_append, sized_append, List.cons_inj_right, List.cons_inj_right]
  constructor
  · intro h
    exact ⟨h.ne_nil, newline_not_mem_sized.mp h.oneLine, heq.mp h.eq⟩
  · rintro ⟨hne, hline, ht⟩
    exact ⟨hne, newline_not_mem_sized.mpr hline, heq.mpr ht⟩

/-- A size stands on the line of its mark. -/
theorem takeWhile_size (h : '\n' ∉ size) (after : List Char) :
    (size ++ (sizeSuffix ++ after)).takeWhile (· != '\n') =
      size ++ (sizeSuffix ++ after.takeWhile (· != '\n')) := by
  rw [takeWhile_append_ne h, takeWhile_append_ne newline_not_mem_sizeSuffix]

/-- What stands on the line of the mark is a size. -/
theorem hasSize_of_takeWhile {t : List Char} (hne : size ≠ [])
    (h : t.takeWhile (· != '\n') = size ++ (sizeSuffix ++ rest)) :
    HasSize ('=' :: 's' :: t) [] size (rest ++ t.drop (t.takeWhile (· != '\n')).length) := by
  rw [hasSize_start_iff]
  refine ⟨hne, ?_, ?_⟩
  · have hall := List.all_takeWhile (p := (· != '\n')) (l := t)
    rw [h, List.all_append, Bool.and_eq_true, List.all_eq_true] at hall
    intro hmem
    exact absurd (hall.1 _ hmem) (by decide)
  · have hstarts := List.prefix_iff_eq_append.mp (List.takeWhile_prefix (· != '\n') (l := t))
    rw [← List.append_assoc, ← List.append_assoc, List.append_assoc size, ← h, hstarts]

/-- Where a size is given at the start of the text, the longest one is replaced. -/
theorem resizeImage_start (h : HasSize cs [] size after) :
    ∃ size' after', HasFirstSize cs [] size' after' ∧
      resizeImage cs = sized askedSize ++ after' := by
  obtain ⟨t, rfl⟩ : ∃ t, cs = '=' :: 's' :: t := ⟨_, h.eq.trans (sized_append size after)⟩
  have hlast {s a : List Char} (hs : HasSize ('=' :: 's' :: t) [] s a) :
      ∃ rest, afterLastSuffix? (t.takeWhile (· != '\n')) = some rest ∧
        rest.length + s.length + sizeSuffix.length ≤ (t.takeWhile (· != '\n')).length := by
    obtain ⟨hne, hline, rfl⟩ := hasSize_start_iff.mp hs
    obtain ⟨c, s, rfl⟩ := List.exists_cons_of_ne_nil hne
    obtain ⟨rest, hrest, hle⟩ := exists_afterLastSuffix? c s (a.takeWhile (· != '\n'))
    rw [takeWhile_size hline]
    refine ⟨rest, hrest, ?_⟩
    simp only [List.length_append]
    omega
  obtain ⟨rest, hrest, -⟩ := hlast h
  obtain ⟨size', hne, hline⟩ := exists_of_afterLastSuffix? hrest
  refine ⟨size', _, ⟨hasSize_of_takeWhile hne hline, fun _ => Nat.zero_le _, ?_⟩, ?_⟩
  · intro s a hs
    obtain ⟨rest', hrest', hle⟩ := hlast hs
    obtain rfl := Option.some.inj (hrest.symm.trans hrest')
    have hlength := congrArg List.length hline
    simp only [List.length_append] at hlength
    omega
  · rw [resizeImage]
    simp only [hrest]
    simp [sized, askedSize]

/-- A character at which no size is given stays. -/
theorem resizeImage_cons (h : ∀ size after, ¬ HasSize (c :: cs) [] size after) :
    resizeImage (c :: cs) = c :: resizeImage cs := by
  by_cases hmark : ∃ t, c = '=' ∧ cs = 's' :: t
  · obtain ⟨t, rfl, rfl⟩ := hmark
    rw [resizeImage]
    cases hlast : afterLastSuffix? (t.takeWhile (· != '\n')) with
    | some rest =>
      obtain ⟨size, hne, hline⟩ := exists_of_afterLastSuffix? hlast
      exact absurd (hasSize_of_takeWhile hne hline) (h _ _)
    | none => rfl
  · rw [resizeImage]
    intro t hc hcs
    exact hmark ⟨t, hc, hcs⟩

/-- Only the first size is replaced. -/
theorem resizeImage_spec (cs : List Char) :
    (∀ before size after, ¬ HasSize cs before size after) ∧ resizeImage cs = cs ∨
      ∃ before size after, HasFirstSize cs before size after ∧
        resizeImage cs = before ++ (sized askedSize ++ after) := by
  induction cs with
  | nil =>
    refine Or.inl ⟨fun before size after h => ?_, resizeImage_nil⟩
    have hlength := congrArg List.length h.eq
    simp [sized] at hlength
  | cons c cs ih =>
    by_cases hstart : ∃ size after, HasSize (c :: cs) [] size after
    · obtain ⟨size, after, h⟩ := hstart
      obtain ⟨size', after', hfirst, heq⟩ := resizeImage_start h
      exact Or.inr ⟨[], size', after', hfirst, heq⟩
    · have hnone : ∀ size after, ¬ HasSize (c :: cs) [] size after := by
        intro size after h
        exact hstart ⟨size, after, h⟩
      rw [resizeImage_cons hnone]
      rcases ih with ⟨hsizes, heq⟩ | ⟨before, size, after, hfirst, heq⟩
      · refine Or.inl ⟨fun before size after h => ?_, by rw [heq]⟩
        rcases h.of_cons with rfl | ⟨before', rfl, h'⟩
        · exact hnone _ _ h
        · exact hsizes _ _ _ h'
      · exact Or.inr ⟨c :: before, size, after, hfirst.cons hnone, congrArg (c :: ·) heq⟩

theorem HasFirstSize.resizeImage_eq (h : HasFirstSize cs before size after) :
    resizeImage cs = before ++ (sized askedSize ++ after) := by
  rcases resizeImage_spec cs with ⟨hnone, -⟩ | ⟨before', size', after', h', heq⟩
  · exact absurd h.toHasSize (hnone _ _ _)
  · obtain ⟨rfl, -, rfl⟩ := h.unique h'
    exact heq

/-- Asking for the size of an address that has it changes nothing. Of the text, the first size with
its mark and its suffix is replaced, the longest at its place, and the rest is left as it is; a text
in which no size is given is left as a whole. -/
theorem resizeImage_idempotent (cs : List Char) :
    resizeImage (resizeImage cs) = resizeImage cs ∧
      ((∀ before size after, ¬ HasSize cs before size after) ∧ resizeImage cs = cs ∨
        ∃ before size after, HasFirstSize cs before size after ∧
          resizeImage cs = before ++ (sized askedSize ++ after)) := by
  refine ⟨?_, resizeImage_spec cs⟩
  rcases resizeImage_spec cs with ⟨-, heq⟩ | ⟨before, size, after, h, heq⟩
  · rw [heq, heq]
  · rw [heq]
    exact (h.resized (by decide) (by decide)).resizeImage_eq

/-- A mark has no size if the suffix is on another line, and a size reaches to the last suffix. -/
example : resizeImage "a=s1\nb=s2-c-k-c0x00ffffff-no-rj=s3-c-k-c0x00ffffff-no-rjz".toList =
    "a=s1\nb=s240-c-k-c0x00ffffff-no-rjz".toList := by
  decide +kernel

end Switchboard.Markup
