import Switchboard.Proofs.Entities

/-!
# Typed texts with emoji among them

What a viewer typed is sent with the three characters of markup written as entities, and emoji stand
in it as tags. A rewriting that goes from left to right treats such a text piece by piece, so that
each tag is replaced on its own, and what was typed is decoded once and never taken for a tag.
-/
namespace Switchboard.Markup

/-! ## Tags -/

variable {opening : String} {meaning : List Char → Option (List Char)}

theorem replaceTags_skip (xs rest : List Char) :
    replaceTags opening meaning xs.length (xs ++ rest) = replaceTags opening meaning 0 rest := by
  induction xs with
  | nil => rfl
  | cons x xs ih => exact ih

/-- What a character is not in stands before the first one of that character. -/
theorem takeWhile_append_ne {xs : List Char} {c : Char} (h : c ∉ xs) (rest : List Char) :
    (xs ++ rest).takeWhile (· != c) = xs ++ rest.takeWhile (· != c) := by
  apply List.takeWhile_append_of_pos
  intro x hx
  rw [bne_iff_ne]
  rintro rfl
  exact h hx

/-- Up to a character stands what that character is not in. -/
theorem takeWhile_ne {xs : List Char} {c : Char} (h : c ∉ xs) (rest : List Char) :
    (xs ++ c :: rest).takeWhile (· != c) = xs := by
  rw [takeWhile_append_ne h]
  simp

/-- The body of a tag ends at the first closing bracket. -/
theorem tagBody?_tag {body : List Char} (h : '>' ∉ body) (rest : List Char) :
    tagBody? opening (opening.toList ++ (body ++ '>' :: rest)) = some body := by
  have hstart : opening.toList.isPrefixOf (opening.toList ++ (body ++ '>' :: rest)) = true := by
    rw [List.isPrefixOf_iff_prefix]
    exact List.prefix_append _ _
  have hdrop : (opening.toList ++ (body ++ '>' :: rest)).drop opening.length =
      body ++ '>' :: rest := by
    rw [← String.length_toList, List.drop_left]
  unfold tagBody?
  rw [if_pos hstart, hdrop]
  dsimp only
  rw [takeWhile_ne h, if_pos (by simp)]

/-- A tag that stands for something is replaced by it as a whole. -/
theorem rewrites_tag {body text : List Char} (hopening : opening.toList ≠ []) (h : '>' ∉ body)
    (hmeaning : meaning body = some text) :
    Rewrites (replaceTags opening meaning 0) (opening.toList ++ (body ++ ['>'])) text := by
  intro rest
  obtain ⟨o, os, ho⟩ := List.exists_cons_of_ne_nil hopening
  have hbody := @tagBody?_tag opening body h rest
  have hlength : opening.length + body.length = (os ++ (body ++ ['>'])).length := by
    rw [← String.length_toList, ho]
    simp only [List.length_cons, List.length_append, List.length_nil]
    omega
  have hwhole : opening.toList ++ (body ++ ['>']) ++ rest =
      o :: (os ++ (body ++ ['>']) ++ rest) := by
    rw [ho]
    rfl
  have hsame : opening.toList ++ (body ++ '>' :: rest) = o :: (os ++ (body ++ ['>']) ++ rest) := by
    rw [← hwhole]
    simp
  rw [hsame] at hbody
  rw [hwhole, replaceTags, hbody]
  dsimp only
  rw [hmeaning]
  dsimp only
  rw [hlength, replaceTags_skip]

/-- A character that no tag begins with is left as it is. -/
theorem rewrites_of_ne {name : List Char} {c : Char} (h : c ≠ '<') :
    Rewrites (replaceTags (String.ofList ('<' :: name)) meaning 0) [c] [c] := by
  have hc : ('<' == c) = false := by
    rw [beq_eq_false_iff_ne]
    exact h.symm
  intro rest
  simp [replaceTags, tagBody?, List.isPrefixOf, hc]

/-- Text without the opening of a tag is left as it is. -/
theorem rewrites_of_lt_not_mem {name xs : List Char} (h : '<' ∉ xs) :
    Rewrites (replaceTags (String.ofList ('<' :: name)) meaning 0) xs xs := by
  apply Rewrites.of_chars
  intro c hc
  apply rewrites_of_ne
  rintro rfl
  exact h hc

/-- A tag that stands for nothing is left as it is. -/
theorem rewrites_tag_of_none {name body : List Char} (h : '>' ∉ body)
    (hmeaning : meaning body = none) (hlt : '<' ∉ name ++ (body ++ ['>'])) :
    Rewrites (replaceTags (String.ofList ('<' :: name)) meaning 0)
      ('<' :: (name ++ (body ++ ['>']))) ('<' :: (name ++ (body ++ ['>']))) := by
  intro rest
  have hbody := @tagBody?_tag (String.ofList ('<' :: name)) body h rest
  have hsame : (String.ofList ('<' :: name)).toList ++ (body ++ '>' :: rest) =
      '<' :: (name ++ (body ++ ['>']) ++ rest) := by simp
  rw [hsame] at hbody
  rw [List.cons_append, replaceTags, hbody]
  dsimp only
  rw [hmeaning]
  dsimp only
  rw [rewrites_of_lt_not_mem hlt rest, List.cons_append]

/-! ## Texts with tags -/

/-- A text with tags in it: what stands before the first one, and each tag with what follows it. -/
structure Tagged (Tag : Type) where
  start : List Char
  rest : List (Tag × List Char)

namespace Tagged

variable {Tag : Type} {f : List Char → List Char}

/-- The text whose pieces are written in one way and its tags in another one. -/
def render (text : List Char → List Char) (tag : Tag → List Char) (t : Tagged Tag) : List Char :=
  text t.start ++ t.rest.flatMap fun p => tag p.1 ++ text p.2

theorem rewrites {text text' : List Char → List Char} {tag tag' : Tag → List Char} {t : Tagged Tag}
    (htext : ∀ u, Rewrites f (text u) (text' u))
    (htag : ∀ p ∈ t.rest, Rewrites f (tag p.1) (tag' p.1)) :
    Rewrites f (t.render text tag) (t.render text' tag') :=
  (htext t.start).append (Rewrites.flatMap fun p hp => (htag p hp).append (htext p.2))

theorem render_congr {text : List Char → List Char} {tag tag' : Tag → List Char} {t : Tagged Tag}
    (h : ∀ p ∈ t.rest, tag p.1 = tag' p.1) : t.render text tag = t.render text tag' := by
  have hpieces : t.rest.map (fun p => tag p.1 ++ text p.2) =
      t.rest.map fun p => tag' p.1 ++ text p.2 :=
    List.map_congr_left fun p hp => by rw [h p hp]
  rw [render, render, List.flatMap_def, List.flatMap_def, hpieces]

/-- A typed text in which tags stand for something without markup, and the same text as it is sent.
-/
theorem sent_render {tag : Tag → List Char} {t : Tagged Tag}
    (h : ∀ p ∈ t.rest, ∀ c ∈ tag p.1, IsPlain c) : sent (t.render id tag) = t.render sent tag := by
  have hpieces : Rewrites sent (t.render id tag) (t.render sent tag) := by
    apply rewrites
    · exact fun u rest => sent_append u rest
    · intro p hp rest
      rw [sent_append, sent_eq_self (h p hp)]
  exact hpieces.eq rfl

/-- Once its tags are replaced, what was typed is decoded. -/
theorem decodeEntities_render {tag : Tag → List Char} {t : Tagged Tag}
    (h : ∀ p ∈ t.rest, ∀ c ∈ tag p.1, IsPlain c) :
    decodeEntities (t.render sent tag) = t.render id tag := by
  rw [← sent_render h, decodeEntities_sent]

end Tagged

/-! ## Placeholders -/

/-- The tag of an emoji: anything but a closing bracket may stand in it. -/
structure EmojiTag where
  body : List Char
  unclosed : '>' ∉ body

def EmojiTag.text (t : EmojiTag) : List Char := "<img".toList ++ (t.body ++ ['>'])

/-- Whatever was typed between emoji comes back as it was typed, and each emoji as one placeholder.
-/
theorem plainComment_typed (t : Tagged EmojiTag) :
    plainComment (.text (String.ofList (t.render sent EmojiTag.text))) =
      .ok (String.ofList (t.render id fun _ => placeholder)) := by
  have htags : Rewrites (replaceTags "<img" (fun _ => some placeholder) 0)
      (t.render sent EmojiTag.text) (t.render sent fun _ => placeholder) := by
    apply Tagged.rewrites
    · intro u
      exact rewrites_of_lt_not_mem (lt_not_mem_sent u)
    · intro p _
      exact rewrites_tag (by decide) p.1.unclosed rfl
  have hplain : ∀ p ∈ t.rest, ∀ c ∈ placeholder, IsPlain c := by
    intro p _ c hc
    rw [placeholder, List.mem_singleton] at hc
    subst hc
    decide
  change Except.ok (String.ofList (withPlaceholders (String.ofList _).toList)) = _
  rw [String.toList_ofList, withPlaceholders, htags.eq rfl, Tagged.decodeEntities_render hplain]

end Switchboard.Markup
