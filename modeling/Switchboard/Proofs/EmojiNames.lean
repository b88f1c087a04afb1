import Switchboard.Proofs.TypedTexts

/-!
# The names of emoji

The tag of an emoji lists attributes, one of which may be its name. What is taken for the name goes
on to the last quotation mark of the tag, so the name is read as it is only from the last attribute;
and any attribute counts whose name ends in `alt`.
-/
namespace Switchboard.Markup

/-- An attribute of a tag. Its name has no character that separates attributes. -/
structure Attribute where
  name : List Char
  value : List Char
  name_plain : ∀ c ∈ name, IsPlain c ∧ c ∉ [' ', '=', '"']
  value_plain : ∀ c ∈ value, IsPlain c ∧ c ≠ '"'

namespace Attribute

def text (a : Attribute) : List Char := ' ' :: (a.name ++ ['=']) ++ '"' :: (a.value ++ ['"'])

theorem quote_not_mem_value (a : Attribute) : '"' ∉ a.value :=
  fun h => (a.value_plain _ h).2 rfl

theorem quote_not_mem_name (a : Attribute) : '"' ∉ ' ' :: (a.name ++ ['=']) := by
  intro h
  simp only [List.mem_cons, List.mem_append, List.not_mem_nil, or_false] at h
  rcases h with h | h | h
  · exact absurd h (by decide)
  · exact (a.name_plain _ h).2 (by decide)
  · exact absurd h (by decide)

theorem text_plain (a : Attribute) : ∀ c ∈ a.text, IsPlain c := by
  intro c hc
  simp only [text, List.cons_append, List.append_assoc, List.mem_cons, List.mem_append,
    List.not_mem_nil, or_false, List.nil_append] at hc
  rcases hc with rfl | hc | rfl | rfl | hc | rfl
  · decide
  · exact (a.name_plain c hc).1
  · decide
  · decide
  · exact (a.value_plain c hc).1
  · decide

end Attribute

/-- The attributes of a tag as they are written. -/
def listed (attributes : List Attribute) : List Char := attributes.flatMap Attribute.text

theorem listed_cons (a : Attribute) (rest : List Attribute) : listed (a :: rest) =
    ' ' :: (a.name ++ ['=']) ++ '"' :: (a.value ++ '"' :: listed rest) := by
  simp [listed, Attribute.text]

/-- The tag of an emoji with its attributes. -/
def imageTag (attributes : List Attribute) : List Char :=
  "<img".toList ++ (listed attributes ++ ['>'])

/-- The name of an emoji: the value of the attribute `alt`, the first one if there are more. -/
def nameOf (attributes : List Attribute) : List Char :=
  ((attributes.find? (·.name = "alt".toList)).map Attribute.value).getD []

/-- What is taken for the name of an emoji. Reading begins after the last mark of the form `alt="`,
which a value that ends in `alt=` makes as well, and stops at the last quotation mark. -/
def heard? : List Attribute → Option (List Char)
  | [] => none
  | a :: rest =>
    match heard? rest with
    | some text => some text
    | none =>
      if rest ≠ [] ∧ "alt=".toList <:+ a.value then some (listed rest).dropLast
      else if "alt".toList <:+ a.name then some (a.value ++ '"' :: listed rest).dropLast
      else none

/-- What is shown for an emoji. -/
def heard (attributes : List Attribute) : List Char := (heard? attributes).getD []

/-! ## Reading -/

variable {xs ys rest : List Char}

/-- A text is parted at its first quotation mark in one way. -/
theorem append_quote_inj {rest' : List Char} (hx : '"' ∉ xs) (hy : '"' ∉ ys)
    (h : xs ++ '"' :: rest = ys ++ '"' :: rest') : xs = ys ∧ rest = rest' := by
  have hsame : xs = ys := by rw [← takeWhile_ne hx rest, h, takeWhile_ne hy]
  subst hsame
  exact ⟨rfl, (List.cons.inj (List.append_cancel_left h)).2⟩

theorem prefix_quote_iff (h : '"' ∉ xs) :
    "alt=\"".toList <+: xs ++ '"' :: rest ↔ xs = "alt=".toList := by
  constructor
  · rintro ⟨t, ht⟩
    exact (append_quote_inj (by decide) h ht).1.symm
  · rintro rfl
    exact ⟨rest, rfl⟩

/-- Up to the next quotation mark, a name begins only where the mark ends the text `alt=`. -/
theorem altText?_quote (h : '"' ∉ xs) : altText? (xs ++ '"' :: rest) =
    (altText? rest).or (if "alt=".toList <:+ xs then beforeLastQuote? rest else none) := by
  induction xs with
  | nil =>
    have hquote : "alt=\"".toList.isPrefixOf ('"' :: rest) = false := rfl
    rw [List.nil_append, altText?, hquote, if_neg (by decide), if_neg (by decide)]
    cases altText? rest <;> rfl
  | cons c xs ih =>
    have hxs : '"' ∉ xs := fun hc => h (List.mem_cons_of_mem c hc)
    have hprefix : "alt=\"".toList.isPrefixOf (c :: (xs ++ '"' :: rest)) = true ↔
        c :: xs = "alt=".toList := by
      rw [List.isPrefixOf_iff_prefix]
      exact prefix_quote_iff h
    rw [List.cons_append, altText?, ih hxs]
    by_cases hwhole : c :: xs = "alt=".toList
    · obtain ⟨rfl, rfl⟩ := List.cons.inj hwhole
      cases altText? rest <;> rfl
    · have hsuffix : "alt=".toList <:+ c :: xs ↔ "alt=".toList <:+ xs := by
        rw [List.suffix_cons_iff]
        exact or_iff_right (Ne.symm hwhole)
      rw [if_neg (mt hprefix.mp hwhole)]
      simp only [hsuffix]
      cases (altText? rest).or (if "alt=".toList <:+ xs then beforeLastQuote? rest else none) <;> rfl

theorem beforeLastQuote?_concat (cs : List Char) : beforeLastQuote? (cs ++ ['"']) = some cs := by
  simp [beforeLastQuote?]

/-- The attributes of a tag end with a quotation mark. -/
theorem exists_listed_eq {attributes : List Attribute} (h : attributes ≠ []) :
    ∃ cs, listed attributes = cs ++ ['"'] := by
  obtain ⟨front, last, rfl⟩ := List.eq_nil_or_concat attributes |>.resolve_left h
  refine ⟨listed front ++ (' ' :: (last.name ++ ['=']) ++ '"' :: last.value), ?_⟩
  simp [listed, Attribute.text]

theorem beforeLastQuote?_listed (attributes : List Attribute) :
    beforeLastQuote? (listed attributes) =
      if attributes ≠ [] then some (listed attributes).dropLast else none := by
  by_cases h : attributes = []
  · subst h
    rfl
  · obtain ⟨cs, hcs⟩ := exists_listed_eq h
    rw [if_pos h, hcs, beforeLastQuote?_concat, List.dropLast_concat]

/-- What follows the quotation mark before a value ends with one. -/
theorem beforeLastQuote?_value (value : List Char) (attributes : List Attribute) :
    beforeLastQuote? (value ++ '"' :: listed attributes) =
      some (value ++ '"' :: listed attributes).dropLast := by
  by_cases h : attributes = []
  · subst h
    exact (beforeLastQuote?_concat value).trans (by rw [listed]; simp)
  · obtain ⟨cs, hcs⟩ := exists_listed_eq h
    rw [hcs, ← List.cons_append, ← List.append_assoc, beforeLastQuote?_concat, List.dropLast_concat]

/-- No name is before the mark of equality but that of the attribute. -/
theorem suffix_name_iff (name : List Char) :
    "alt=".toList <:+ ' ' :: (name ++ ['=']) ↔ "alt".toList <:+ name := by
  have hsplit : "alt=".toList = "alt".toList ++ ['='] := rfl
  have hspace : "alt".toList ≠ ' ' :: name := by
    intro h
    exact absurd (List.cons.inj h).1 (by decide)
  rw [hsplit, ← List.cons_append, List.suffix_append_inj_of_length_eq rfl, and_iff_left rfl,
    List.suffix_cons_iff]
  exact or_iff_right hspace

/-- Reading goes through the attributes from the last one to the first. -/
theorem altText?_listed (attributes : List Attribute) :
    altText? (listed attributes) = heard? attributes := by
  induction attributes with
  | nil => rfl
  | cons a rest ih =>
    rw [listed_cons, altText?_quote a.quote_not_mem_name, altText?_quote a.quote_not_mem_value, ih,
      beforeLastQuote?_listed, beforeLastQuote?_value, heard?]
    simp only [suffix_name_iff]
    cases heard? rest with
    | some text => rfl
    | none =>
      by_cases hrest : rest = []
      · simp only [hrest, ne_eq, not_true_eq_false, false_and, if_false, ite_self, Option.none_or]
      · simp only [hrest, ne_eq, not_false_eq_true, true_and, if_true, Option.none_or]
        split <;> rfl

/-! ## Tags -/

variable {attributes : List Attribute}

theorem listed_plain : ∀ c ∈ listed attributes, IsPlain c := by
  intro c hc
  obtain ⟨a, -, ha⟩ := List.mem_flatMap.mp hc
  exact a.text_plain c ha

/-- What is heard from an attribute on, if nothing is heard after it. -/
theorem heard?_cons_cases {a : Attribute} {rest : List Attribute} {text : List Char}
    (h : heard? (a :: rest) = some text) :
    heard? rest = some text ∨ rest ≠ [] ∧ text = (listed rest).dropLast ∨
      "alt".toList <:+ a.name ∧ text = (a.value ++ '"' :: listed rest).dropLast := by
  rw [heard?] at h
  split at h
  · rename_i found hfound
    exact Or.inl (hfound.trans h)
  · split at h
    · rename_i hvalue
      exact Or.inr (Or.inl ⟨hvalue.1, (Option.some.inj h).symm⟩)
    · split at h
      · rename_i hname
        exact Or.inr (Or.inr ⟨hname, (Option.some.inj h).symm⟩)
      · cases h

theorem heard?_plain {text : List Char} (h : heard? attributes = some text) :
    ∀ c ∈ text, IsPlain c := by
  induction attributes with
  | nil => cases h
  | cons a rest ih =>
    rcases heard?_cons_cases h with hrest | ⟨-, rfl⟩ | ⟨-, rfl⟩
    · exact ih hrest
    · intro c hc
      exact listed_plain c (List.dropLast_subset _ hc)
    · intro c hc
      have hmem := List.dropLast_subset _ hc
      rcases List.mem_append.mp hmem with hvalue | hlisted
      · exact (a.value_plain c hvalue).1
      · rcases List.mem_cons.mp hlisted with rfl | hlisted
        · decide
        · exact listed_plain c hlisted

theorem gt_not_mem_listed : '>' ∉ listed attributes := fun h => (listed_plain _ h).2.2 rfl

theorem lt_not_mem_listed : '<' ∉ listed attributes := fun h => (listed_plain _ h).2.1 rfl

theorem altText?_space (cs : List Char) : altText? (' ' :: cs) = altText? cs := by
  have hspace : "alt=\"".toList.isPrefixOf (' ' :: cs) = false := rfl
  rw [altText?, hspace]
  cases altText? cs <;> rfl

/-- A tag is replaced by what is heard in it, if anything is. -/
theorem rewrites_imageTag : Rewrites (replaceTags "<img " altText? 0) (imageTag attributes)
    ((heard? attributes).getD (imageTag attributes)) := by
  cases attributes with
  | nil => exact fun _ => rfl
  | cons a rest =>
    obtain ⟨body, hbody⟩ : ∃ body, listed (a :: rest) = ' ' :: body := ⟨_, rfl⟩
    have htag : imageTag (a :: rest) = "<img ".toList ++ (body ++ ['>']) := by
      rw [imageTag, hbody]
      rfl
    have hgt : '>' ∉ body := by
      intro h
      exact gt_not_mem_listed (hbody ▸ List.mem_cons_of_mem ' ' h)
    have hread : altText? body = heard? (a :: rest) := by
      rw [← altText?_listed, hbody, altText?_space]
    cases hheard : heard? (a :: rest) with
    | some text =>
      rw [htag, Option.getD_some]
      exact rewrites_tag (by decide) hgt (hread.trans hheard)
    | none =>
      have hlt : '<' ∉ "img ".toList ++ (body ++ ['>']) := by
        intro h
        rcases List.mem_append.mp h with h | h
        · exact absurd h (by decide)
        · rcases List.mem_append.mp h with h | h
          · exact lt_not_mem_listed (hbody ▸ List.mem_cons_of_mem ' ' h)
          · exact absurd h (by decide)
      rw [htag, Option.getD_none]
      exact rewrites_tag_of_none hgt (hread.trans hheard) hlt

/-- What is heard in a tag stays, and a tag in which nothing is heard goes. -/
theorem rewrites_heard : Rewrites (replaceTags "<img" (fun _ => some []) 0)
    ((heard? attributes).getD (imageTag attributes)) (heard attributes) := by
  unfold heard
  cases hheard : heard? attributes with
  | some text =>
    apply rewrites_of_lt_not_mem
    exact fun h => (heard?_plain hheard _ h).2.1 rfl
  | none => exact rewrites_tag (by decide) gt_not_mem_listed rfl

theorem heard_plain : ∀ c ∈ heard attributes, IsPlain c := by
  unfold heard
  cases hheard : heard? attributes with
  | some text => exact heard?_plain hheard
  | none => exact fun c hc => absurd hc (by simp)

/-! ## Legible tags -/

/-- The name of an emoji is read from its tag: either nothing in the tag makes a mark of the form
`alt="`, or the last attribute does, and its value is the name. -/
def Legible (attributes : List Attribute) : Prop :=
  (∀ a ∈ attributes, ¬ "alt".toList <:+ a.name) ∧
      (∀ a ∈ attributes.dropLast, ¬ "alt=".toList <:+ a.value) ∨
    ∃ front a, attributes = front ++ [a] ∧ "alt".toList <:+ a.name ∧ a.value = nameOf attributes

theorem heard?_cons_eq_none_iff {a : Attribute} {rest : List Attribute} :
    heard? (a :: rest) = none ↔ heard? rest = none ∧
      ¬ (rest ≠ [] ∧ "alt=".toList <:+ a.value) ∧ ¬ "alt".toList <:+ a.name := by
  rw [heard?]
  cases heard? rest with
  | some text => exact iff_of_false (by simp) (fun h => absurd h.1 (by simp))
  | none =>
    dsimp only
    by_cases hvalue : rest ≠ [] ∧ "alt=".toList <:+ a.value
    · rw [if_pos hvalue]
      exact iff_of_false (by simp) (fun h => h.2.1 hvalue)
    · rw [if_neg hvalue]
      by_cases hname : "alt".toList <:+ a.name
      · rw [if_pos hname]
        exact iff_of_false (by simp) (fun h => h.2.2 hname)
      · rw [if_neg hname]
        exact iff_of_true rfl ⟨rfl, hvalue, hname⟩

/-- Nothing is heard where no mark is made. -/
theorem heard?_eq_none_iff : heard? attributes = none ↔
    (∀ a ∈ attributes, ¬ "alt".toList <:+ a.name) ∧
      ∀ a ∈ attributes.dropLast, ¬ "alt=".toList <:+ a.value := by
  induction attributes with
  | nil => simp [heard?]
  | cons a rest ih =>
    rw [heard?_cons_eq_none_iff, ih, List.forall_mem_cons]
    by_cases hrest : rest = []
    · subst hrest
      simp
    · rw [List.dropLast_cons_of_ne_nil hrest, List.forall_mem_cons, and_iff_right hrest]
      exact ⟨fun ⟨⟨hnames, hvalues⟩, hvalue, hname⟩ => ⟨⟨hname, hnames⟩, hvalue, hvalues⟩,
        fun ⟨⟨hname, hnames⟩, hvalue, hvalues⟩ => ⟨⟨hnames, hvalues⟩, hvalue, hname⟩⟩

/-- The last attribute is heard before all others. -/
theorem heard?_concat (front : List Attribute) {a : Attribute} (h : "alt".toList <:+ a.name) :
    heard? (front ++ [a]) = some a.value := by
  induction front with
  | nil =>
    have hvalue : (a.value ++ '"' :: listed []).dropLast = a.value := List.dropLast_concat
    rw [List.nil_append, heard?, heard?]
    dsimp only
    rw [if_neg (fun h => h.1 rfl), if_pos h, hvalue]
  | cons b front ih =>
    rw [List.cons_append, heard?, ih]

theorem quote_mem_dropLast {xs ys : List Char} (h : ys ≠ []) :
    '"' ∈ (xs ++ '"' :: ys).dropLast := by
  rw [List.dropLast_append_cons, List.dropLast_cons_of_ne_nil h]
  exact List.mem_append_right xs List.mem_cons_self

/-- What is heard from an attribute that others follow has a quotation mark in it. -/
theorem heard?_cases {text : List Char} (h : heard? attributes = some text) :
    (∃ front a, attributes = front ++ [a] ∧ "alt".toList <:+ a.name ∧ text = a.value) ∨
      '"' ∈ text := by
  induction attributes with
  | nil => cases h
  | cons a rest ih =>
    rcases heard?_cons_cases h with hrest | ⟨hne, rfl⟩ | ⟨hname, rfl⟩
    · rcases ih hrest with ⟨front, b, rfl, hb⟩ | hquote
      · exact Or.inl ⟨a :: front, b, rfl, hb⟩
      · exact Or.inr hquote
    · obtain ⟨b, others, rfl⟩ := List.exists_cons_of_ne_nil hne
      rw [listed_cons]
      exact Or.inr (quote_mem_dropLast (by simp))
    · by_cases hrest : rest = []
      · subst hrest
        exact Or.inl ⟨[], a, rfl, hname, List.dropLast_concat⟩
      · obtain ⟨cs, hcs⟩ := exists_listed_eq hrest
        exact Or.inr (quote_mem_dropLast (by simp [hcs]))

theorem quote_not_mem_nameOf : '"' ∉ nameOf attributes := by
  unfold nameOf
  cases hfound : attributes.find? (·.name = "alt".toList) with
  | none => simp
  | some a => exact a.quote_not_mem_value

theorem nameOf_eq_nil (h : ∀ a ∈ attributes, ¬ "alt".toList <:+ a.name) : nameOf attributes = [] := by
  have hnone : attributes.find? (·.name = "alt".toList) = none := by
    rw [List.find?_eq_none]
    intro a ha hname
    have hown : a.name = "alt".toList := of_decide_eq_true hname
    exact h a ha (hown ▸ List.suffix_rfl)
  rw [nameOf, hnone]
  rfl

/-- A name is heard as it is exactly in a legible tag. -/
theorem heard_eq_nameOf_iff (attributes : List Attribute) :
    heard attributes = nameOf attributes ↔ Legible attributes := by
  unfold heard
  cases hheard : heard? attributes with
  | none =>
    have hsilent := heard?_eq_none_iff.mp hheard
    exact ⟨fun _ => Or.inl hsilent, fun _ => (nameOf_eq_nil hsilent.1).symm⟩
  | some text =>
    rw [Option.getD_some]
    constructor
    · rintro rfl
      rcases heard?_cases hheard with ⟨front, a, hsplit, ha, hvalue⟩ | hquote
      · exact Or.inr ⟨front, a, hsplit, ha, hvalue.symm⟩
      · exact absurd hquote quote_not_mem_nameOf
    · rintro (hsilent | ⟨front, a, hsplit, ha, hvalue⟩)
      · rw [heard?_eq_none_iff.mpr hsilent] at hheard
        cases hheard
      · rw [hsplit, heard?_concat front ha] at hheard
        exact (Option.some.inj hheard).symm.trans hvalue

/-! ## Texts -/

/-- Between the tags a text is decoded, and each tag gives way to what is heard in it. -/
theorem withNames_sent (t : Tagged (List Attribute)) :
    withNames (t.render sent imageTag) = t.render id heard := by
  have hnamed : Rewrites (replaceTags "<img " altText? 0) (t.render sent imageTag)
      (t.render sent fun attributes => (heard? attributes).getD (imageTag attributes)) := by
    apply Tagged.rewrites
    · intro u
      exact rewrites_of_lt_not_mem (lt_not_mem_sent u)
    · intro p _
      exact rewrites_imageTag
  have hothers : Rewrites (replaceTags "<img" (fun _ => some []) 0)
      (t.render sent fun attributes => (heard? attributes).getD (imageTag attributes))
      (t.render sent heard) := by
    apply Tagged.rewrites
    · intro u
      exact rewrites_of_lt_not_mem (lt_not_mem_sent u)
    · intro p _
      exact rewrites_heard
  rw [withNames, hnamed.eq rfl, hothers.eq rfl]
  exact Tagged.decodeEntities_render fun p _ => heard_plain

/-- In the comment of a gift each emoji stands for what is heard in its tag, among what was typed.
That is the name of the emoji exactly in a legible tag, so where all tags are legible the comment
has the names. -/
theorem giftComment_named (t : Tagged (List Attribute)) :
    giftComment (.text (String.ofList (t.render sent imageTag))) =
        .ok (String.ofList (t.render id heard)) ∧
      (∀ p ∈ t.rest, heard p.1 = nameOf p.1 ↔ Legible p.1) ∧
      ((∀ p ∈ t.rest, Legible p.1) →
        giftComment (.text (String.ofList (t.render sent imageTag))) =
          .ok (String.ofList (t.render id nameOf))) := by
  have hcomment : giftComment (.text (String.ofList (t.render sent imageTag))) =
      .ok (String.ofList (t.render id heard)) := by
    change Except.ok (String.ofList (withNames (String.ofList _).toList)) = _
    rw [String.toList_ofList, withNames_sent]
  refine ⟨hcomment, fun p _ => heard_eq_nameOf_iff p.1, ?_⟩
  intro hlegible
  rw [hcomment, Tagged.render_congr fun p hp => (heard_eq_nameOf_iff p.1).mpr (hlegible p hp)]

/-- Of the characters of a given text a property is decided one by one. -/
theorem forall_of_all {p : Char → Prop} [DecidablePred p] {cs : List Char}
    (h : cs.all (fun c => decide (p c)) = true) : ∀ c ∈ cs, p c :=
  fun c hc => of_decide_eq_true (List.all_eq_true.mp h c hc)

/-- The address of an image. -/
def clapAddress : Attribute :=
  ⟨"src".toList, "a.png".toList, forall_of_all (by decide), forall_of_all (by decide)⟩

/-- The name of an image. -/
def clapName : Attribute :=
  ⟨"alt".toList, "👏".toList, forall_of_all (by decide), forall_of_all (by decide)⟩

theorem giftComment_named_last :
    Legible [clapAddress, clapName] ∧
      giftComment (.text "&lt;3 <img src=\"a.png\" alt=\"👏\"> &amp;amp;") = .ok "<3 👏 &amp;" := by
  have hlegible : Legible [clapAddress, clapName] :=
    Or.inr ⟨[clapAddress], clapName, rfl, List.suffix_rfl, by decide⟩
  have hnamed := (giftComment_named ⟨"<3 ".toList, [([clapAddress, clapName], " &amp;".toList)]⟩).2.2
  refine ⟨hlegible, hnamed ?_⟩
  intro p hp
  rw [List.mem_singleton.mp hp]
  exact hlegible

/-- From a name that other attributes follow, reading goes on to the end of the last of them. -/
theorem not_giftComment_named_first : ¬ ∀ t : Tagged (List Attribute),
    (∀ p ∈ t.rest, (p.1.map Attribute.name).Nodup) →
      giftComment (.text (String.ofList (t.render sent imageTag))) =
        .ok (String.ofList (t.render id nameOf)) := by
  intro h
  have hfirst := h ⟨[], [([clapName, clapAddress], [])]⟩ (by decide)
  have hown : giftComment (.text "<img alt=\"👏\" src=\"a.png\">") = .ok "👏\" src=\"a.png" := by
    rfl
  exact absurd (Except.ok.inj (hown.symm.trans hfirst)) (by decide +kernel)

end Switchboard.Markup
