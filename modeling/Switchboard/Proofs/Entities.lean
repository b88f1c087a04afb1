import Switchboard.Message.Markup

/-!
# Entities

A rewriting that goes from left to right treats a text piece by piece. Decoding replaces one entity
after the other in the whole text, and still is a single such rewriting: no entity is a part of
another one, and what a replacement puts in begins no entity for a later one. So what was written
with entities is decoded once.
-/
namespace Switchboard.Markup

/-! ## Rewriting piece by piece -/

/-- The rewriting turns a piece of text into another one, whatever follows. -/
def Rewrites (f : List Char → List Char) (piece result : List Char) : Prop :=
  ∀ rest, f (piece ++ rest) = result ++ f rest

namespace Rewrites

variable {α : Type} {f : List Char → List Char} {xs ys xs' ys' : List Char}

theorem append (h : Rewrites f xs ys) (h' : Rewrites f xs' ys') :
    Rewrites f (xs ++ xs') (ys ++ ys') := by
  intro rest
  rw [List.append_assoc, h, h', List.append_assoc]

theorem flatMap {items : List α} {g k : α → List Char} (h : ∀ a ∈ items, Rewrites f (g a) (k a)) :
    Rewrites f (items.flatMap g) (items.flatMap k) := by
  induction items with
  | nil => exact fun _ => rfl
  | cons a items ih =>
    have hrest := ih fun b hb => h b (List.mem_cons_of_mem a hb)
    exact (h a List.mem_cons_self).append hrest

/-- A text is left as it is if each of its characters is. -/
theorem of_chars (h : ∀ c ∈ xs, Rewrites f [c] [c]) : Rewrites f xs xs := by
  have hall := flatMap h
  rwa [List.flatMap_singleton'] at hall

theorem eq (h : Rewrites f xs ys) (hnil : f [] = []) : f xs = ys := by
  have hwhole := h []
  rwa [List.append_nil, hnil, List.append_nil] at hwhole

end Rewrites

/-! ## Entities -/

/-- A typed character as it is sent. -/
def sentChar : Char → List Char
  | '&' => "&amp;".toList
  | '<' => "&lt;".toList
  | '>' => "&gt;".toList
  | c => [c]

/-- A typed text as it is sent. -/
def sent (cs : List Char) : List Char := cs.flatMap sentChar

/-- The character is none of those that markup is made of. -/
def IsPlain (c : Char) : Prop := c ≠ '&' ∧ c ≠ '<' ∧ c ≠ '>'

instance (c : Char) : Decidable (IsPlain c) := inferInstanceAs (Decidable (_ ∧ _ ∧ _))

theorem sentChar_cases (c : Char) :
    c = '&' ∨ c = '<' ∨ c = '>' ∨ IsPlain c ∧ sentChar c = [c] := by
  unfold IsPlain sentChar
  split <;> simp_all

theorem sentChar_of_isPlain {c : Char} (h : IsPlain c) : sentChar c = [c] := by
  obtain ⟨hamp, hlt, hgt⟩ := h
  rcases sentChar_cases c with hc | hc | hc | hc
  · exact absurd hc hamp
  · exact absurd hc hlt
  · exact absurd hc hgt
  · exact hc.2

theorem sent_append (cs ds : List Char) : sent (cs ++ ds) = sent cs ++ sent ds :=
  List.flatMap_append

theorem sent_eq_self {cs : List Char} (h : ∀ c ∈ cs, IsPlain c) : sent cs = cs := by
  induction cs with
  | nil => rfl
  | cons c cs ih =>
    obtain ⟨hc, hcs⟩ := List.forall_mem_cons.mp h
    change sentChar c ++ sent cs = c :: cs
    rw [sentChar_of_isPlain hc, ih hcs, List.singleton_append]

/-- The opening of a tag does not occur in what is sent for typed text. -/
theorem lt_not_mem_sent (cs : List Char) : '<' ∉ sent cs := by
  intro h
  obtain ⟨c, -, hc⟩ := List.mem_flatMap.mp h
  rcases sentChar_cases c with rfl | rfl | rfl | ⟨hplain, hself⟩
  · exact absurd hc (by decide)
  · exact absurd hc (by decide)
  · exact absurd hc (by decide)
  · rw [hself, List.mem_singleton] at hc
    exact hplain.2.1 hc.symm

/-- Decoding an entity leaves every character but the ampersand. -/
theorem rewrites_replace_of_ne {name : List Char} {replacement : String} {c : Char} (h : c ≠ '&') :
    Rewrites (replace (String.ofList ('&' :: name)) replacement) [c] [c] := by
  have hc : ('&' == c) = false := by
    rw [beq_eq_false_iff_ne]
    exact h.symm
  intro rest
  simp [replace, replaceFrom, List.isPrefixOf, hc]

/-! ## One pass -/

/-- One pass from left to right: an entity gives its character, and what was decoded is not looked
at again. -/
def decodeOnce : List Char → List Char
  | [] => []
  | '&' :: 'g' :: 't' :: ';' :: cs => '>' :: decodeOnce cs
  | '&' :: 'l' :: 't' :: ';' :: cs => '<' :: decodeOnce cs
  | '&' :: 'a' :: 'm' :: 'p' :: ';' :: cs => '&' :: decodeOnce cs
  | c :: cs => c :: decodeOnce cs

theorem rewrites_decodeOnce_of_ne {c : Char} (h : c ≠ '&') : Rewrites decodeOnce [c] [c] := by
  intro rest
  rw [List.singleton_append, decodeOnce]
  · rfl
  all_goals exact fun _ hc => absurd hc h

theorem replaceFrom_skip (pattern replacement xs rest : List Char) :
    replaceFrom pattern replacement xs.length (xs ++ rest) =
      replaceFrom pattern replacement 0 rest := by
  induction xs with
  | nil => rfl
  | cons x xs ih => exact ih

/-- An entity is replaced as a whole. -/
theorem rewrites_replace_entity (name : List Char) (replacement : String) :
    Rewrites (replace (String.ofList ('&' :: name)) replacement) ('&' :: name)
      replacement.toList := by
  intro rest
  have hprefix : ('&' :: name).isPrefixOf ('&' :: (name ++ rest)) = true := by
    rw [List.isPrefixOf_iff_prefix]
    exact List.prefix_append _ _
  rw [replace, replace, String.toList_ofList, List.cons_append, replaceFrom, hprefix, if_pos rfl]
  congr 1
  exact replaceFrom_skip _ _ name rest

/-- An ampersand is left as it is where the entity does not stand. -/
theorem replace_amp {name : List Char} (replacement : String) {cs : List Char} (h : ¬ name <+: cs) :
    replace (String.ofList ('&' :: name)) replacement ('&' :: cs) =
      '&' :: replace (String.ofList ('&' :: name)) replacement cs := by
  have hprefix : ('&' :: name).isPrefixOf ('&' :: cs) = false := by
    rw [← Bool.not_eq_true, List.isPrefixOf_iff_prefix, List.cons_prefix_cons]
    exact fun hp => h hp.2
  rw [replace, replace, String.toList_ofList, replaceFrom, hprefix, if_neg Bool.false_ne_true]

/-- What decoding puts in is not plain, so a plain word begins the decoded text only if it began the
text. -/
theorem prefix_replace_iff {name : List Char} {r : Char} (hr : ¬ IsPlain r) {word : List Char}
    (hword : word.all (fun c => decide (IsPlain c)) = true) (cs : List Char) :
    word <+: replace (String.ofList ('&' :: name)) (String.ofList [r]) cs ↔ word <+: cs := by
  induction word generalizing cs with
  | nil => simp
  | cons c word ih =>
    rw [List.all_cons, Bool.and_eq_true, decide_eq_true_eq] at hword
    obtain ⟨hc, hrest⟩ := hword
    have hstarts {d : Char} (ds : List Char) (hd : ¬ IsPlain d) : ¬ c :: word <+: d :: ds := by
      rw [List.cons_prefix_cons]
      rintro ⟨rfl, -⟩
      exact hd hc
    cases cs with
    | nil => rfl
    | cons d cs =>
      by_cases hd : d = '&'
      · -- An ampersand stays or gives way to what is put in, and neither begins a plain word.
        subst hd
        refine iff_of_false ?_ (hstarts cs (by decide))
        by_cases hname : name <+: cs
        · obtain ⟨rest, rfl⟩ := hname
          rw [← List.cons_append, rewrites_replace_entity, String.toList_ofList]
          exact hstarts _ hr
        · rw [replace_amp _ hname]
          exact hstarts _ (by decide)
      · have hkept := @rewrites_replace_of_ne name (String.ofList [r]) d hd cs
        rw [List.singleton_append, List.singleton_append] at hkept
        rw [hkept, List.cons_prefix_cons, List.cons_prefix_cons, ih hrest]

theorem Rewrites.decodeEntities {a b c d : List Char} (hgt : Rewrites (replace "&gt;" ">") a b)
    (hlt : Rewrites (replace "&lt;" "<") b c) (hamp : Rewrites (replace "&amp;" "&") c d) :
    Rewrites decodeEntities a d := by
  intro rest
  rw [Markup.decodeEntities, hgt, hlt, hamp]
  rfl

/-- An ampersand that begins none of the entities begins none after the earlier replacements. -/
theorem decodeEntities_amp {cs : List Char} (hgt : ¬ "gt;".toList <+: cs)
    (hlt : ¬ "lt;".toList <+: cs) (hamp : ¬ "amp;".toList <+: cs) :
    decodeEntities ('&' :: cs) = '&' :: decodeEntities cs := by
  have hlt' : ¬ "lt;".toList <+: replace "&gt;" ">" cs := by
    rwa [prefix_replace_iff (by decide) (by decide)]
  have hamp' : ¬ "amp;".toList <+: replace "&lt;" "<" (replace "&gt;" ">" cs) := by
    rwa [prefix_replace_iff (by decide) (by decide), prefix_replace_iff (by decide) (by decide)]
  calc decodeEntities ('&' :: cs)
    _ = replace "&amp;" "&" (replace "&lt;" "<" ('&' :: replace "&gt;" ">" cs)) :=
      congrArg (fun ds => replace "&amp;" "&" (replace "&lt;" "<" ds)) (replace_amp ">" hgt)
    _ = replace "&amp;" "&" ('&' :: replace "&lt;" "<" (replace "&gt;" ">" cs)) :=
      congrArg (replace "&amp;" "&") (replace_amp "<" hlt')
    _ = '&' :: decodeEntities cs := replace_amp "&" hamp'

/-- The three replacements, one after the other, are one pass: each entity is replaced by its own
replacement and untouched by the others, and none of them makes an entity for a later one. -/
theorem decodeEntities_eq_decodeOnce (cs : List Char) : decodeEntities cs = decodeOnce cs := by
  induction cs using decodeOnce.induct with
  | case1 => rfl
  | case2 cs ih =>
    have hpiece : Rewrites decodeEntities "&gt;".toList ['>'] :=
      .decodeEntities (b := ['>']) (c := ['>']) (fun _ => rfl) (fun _ => rfl) fun _ => rfl
    rw [decodeOnce, ← ih]
    exact hpiece cs
  | case3 cs ih =>
    have hpiece : Rewrites decodeEntities "&lt;".toList ['<'] :=
      .decodeEntities (b := "&lt;".toList) (c := ['<']) (fun _ => rfl) (fun _ => rfl) fun _ => rfl
    rw [decodeOnce, ← ih]
    exact hpiece cs
  | case4 cs ih =>
    have hpiece : Rewrites decodeEntities "&amp;".toList ['&'] :=
      .decodeEntities (b := "&amp;".toList) (c := "&amp;".toList) (fun _ => rfl) (fun _ => rfl)
        fun _ => rfl
    rw [decodeOnce, ← ih]
    exact hpiece cs
  | case5 c cs hgt hlt hamp ih =>
    have honce : decodeOnce (c :: cs) = c :: decodeOnce cs := by
      rw [decodeOnce]
      · exact hgt
      · exact hlt
      · exact hamp
    rw [honce, ← ih]
    by_cases hc : c = '&'
    · subst hc
      apply decodeEntities_amp
      · rintro ⟨rest, rfl⟩
        exact hgt rest rfl rfl
      · rintro ⟨rest, rfl⟩
        exact hlt rest rfl rfl
      · rintro ⟨rest, rfl⟩
        exact hamp rest rfl rfl
    · have hpiece : Rewrites decodeEntities [c] [c] :=
        .decodeEntities (rewrites_replace_of_ne hc) (rewrites_replace_of_ne hc)
          (rewrites_replace_of_ne hc)
      exact hpiece cs

/-- A typed text that is sent is decoded to itself. -/
theorem decodeEntities_sent (cs : List Char) : decodeEntities (sent cs) = cs := by
  have hpieces : Rewrites decodeOnce (sent cs) (cs.flatMap fun c => [c]) := by
    apply Rewrites.flatMap
    intro c _
    rcases sentChar_cases c with rfl | rfl | rfl | ⟨⟨hamp, -, -⟩, hself⟩
    · exact fun _ => rfl
    · exact fun _ => rfl
    · exact fun _ => rfl
    · rw [hself]
      exact rewrites_decodeOnce_of_ne hamp
  rw [decodeEntities_eq_decodeOnce, hpieces.eq rfl, List.flatMap_singleton']

/-- Decoding is one pass over the text, which never looks at what it has decoded. So a text in which
the three characters are written as entities is decoded to the text itself, and nothing twice. -/
theorem decodeEntities_once (cs : List Char) :
    decodeEntities cs = decodeOnce cs ∧ decodeEntities (sent cs) = cs :=
  ⟨decodeEntities_eq_decodeOnce cs, decodeEntities_sent cs⟩

end Switchboard.Markup
