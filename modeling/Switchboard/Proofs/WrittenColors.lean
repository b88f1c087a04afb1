import Switchboard.Message.Color
import Switchboard.Proofs.NumberTexts
import Switchboard.Proofs.UnreadableComments

/-!
# Colours in texts

A colour is read from its first spelling in a text, and magenta stands for a text that has none. The
three components are naturals whatever they are, but the opacity may be spelled without a digit, and
then it is no number. So a colour has four numbers exactly if its first spelling gives the opacity a
digit.
-/
namespace Switchboard

/-! ## Digits and white space -/

namespace Text

/-- Letters of ASCII are no digits, so a digit stays as it is in lower case. -/
theorem toLower_of_isDecimal {c : Char} (h : isDecimal c = true) : c.toLower = c := by
  have hapart : ∀ z ∈ decimalZeros, z + 9 < 'A'.toNat ∨ 'Z'.toNat < z := by decide
  obtain ⟨z, hz, hlow, hhigh⟩ := isDecimal_iff.mp h
  have hz := hapart z hz
  have hletter : ¬ (c.val ≥ 'A'.val ∧ c.val ≤ 'Z'.val) := by
    rintro ⟨hfirst, hlast⟩
    have hfirst : 'A'.toNat ≤ c.toNat := hfirst
    have hlast : c.toNat ≤ 'Z'.toNat := hlast
    omega
  exact dif_neg hletter

theorem trim_eq_self {p : Char → Bool} {cs : List Char} (h : ∀ c ∈ cs, p c = false) :
    trim p cs = cs := by
  have hleft (ds : List Char) (hds : ∀ c ∈ ds, p c = false) : ds.dropWhile p = ds := by
    cases ds with
    | nil => rfl
    | cons d ds => rw [List.dropWhile_cons_of_neg (by simp [hds d])]
  rw [trim, trimRight, trimLeft, hleft cs h, hleft _ (by simpa using h), List.reverse_reverse]

end Text

namespace Number

open Text

/-- Digits are read up to a character that is none. -/
theorem spanDigits_mark {ds : List Char} (h : AllDigits isDecimal ds) {c : Char}
    (hc : isDecimal c = false) (rest : List Char) :
    spanDigits (ds ++ c :: rest) = (ds, c :: rest) := by
  rw [spanDigits_digits h, spanDigits_of_ends (endsDigits_of_ne hc), List.append_nil]

/-- What is read as digits, and the rest, make up the text. -/
theorem spanDigits_eq_iff {cs ds : List Char} {c : Char} (hc : isDecimal c = false)
    {rest : List Char} : spanDigits cs = (ds, c :: rest) ↔
      AllDigits isDecimal ds ∧ cs = ds ++ c :: rest := by
  constructor
  · intro h
    have hall := spanDigits_fst cs
    have happend := spanDigits_append cs
    rw [h] at hall happend
    exact ⟨hall, happend.symm⟩
  · rintro ⟨hds, rfl⟩
    exact spanDigits_mark hds hc rest

theorem dropUnderscores?_eq_self {cs : List Char} (h : '_' ∉ cs) :
    dropUnderscores? cs = some cs := by
  induction cs with
  | nil => rfl
  | cons c cs ih =>
    have hcs := ih fun hc => h (List.mem_cons_of_mem c hc)
    have hne : c ≠ '_' := fun hc => h (hc ▸ List.mem_cons_self)
    have hnext (d : Char) (ds : List Char) : cs ≠ '_' :: d :: ds := fun he => h (by simp [he])
    rw [dropUnderscores?.eq_4 _ _ hne hnext, hcs, Option.map_some]

/-- A mantissa alone is read as a double. -/
theorem Mantissa.readDouble?_text (m : Mantissa isDecimal) :
    readDouble? m.text = some (.ofDecimal false (digitsValue m.digits) (-m.places)) := by
  have hchars : ∀ c ∈ m.text, isDecimal c = true ∨ c = '.' := by
    intro c hc
    rw [text, List.mem_append] at hc
    rcases hc with hc | hc
    · exact Or.inl (m.whole_digits c hc)
    · cases hf : m.fraction with
      | none => simp [hf] at hc
      | some f =>
        rw [hf, Option.elim_some, List.mem_cons] at hc
        rcases hc with hc | hc
        · exact Or.inr hc
        · exact Or.inl (m.fraction_digits f hf c hc)
  have hother {c : Char} (hdigit : isDecimal c = false) (hpoint : c ≠ '.') : c ∉ m.text := by
    intro hc
    rcases hchars c hc with h | h
    · rw [hdigit] at h
      cases h
    · exact hpoint h
  have htrim : trim isWhite m.text = m.text := by
    apply trim_eq_self
    intro c hc
    rcases hchars c hc with h | rfl
    · exact isWhite_of_isDecimal h
    · decide
  have hsign : spanSign m.text = (false, m.text) := by
    apply spanSign_of_ends
    intro c hc
    have hmem := List.mem_of_mem_head? hc
    exact ⟨fun h => hother (by decide) (by decide) (h ▸ hmem),
      fun h => hother (by decide) (by decide) (h ▸ hmem)⟩
  have hlower : lowerAscii m.text = m.text := by
    refine (List.map_congr_left fun c hc => ?_).trans (List.map_id _)
    rcases hchars c hc with h | rfl
    · exact toLower_of_isDecimal h
    · decide
  have hname {word : String} (h : 'n' ∈ word.toList) : String.ofList m.text ≠ word := by
    rintro rfl
    rw [String.toList_ofList] at h
    exact hother (by decide) (by decide) h
  have hmantissa := @Mantissa.spanMantissa?_text [] m (by simp)
  rw [List.append_nil] at hmantissa
  unfold readDouble?
  simp only [htrim, hsign, hlower, hname (show 'n' ∈ "inf".toList by decide),
    hname (show 'n' ∈ "infinity".toList by decide), hname (show 'n' ∈ "nan".toList by decide),
    or_self, if_false, dropUnderscores?_eq_self (hother (c := '_') (by decide) (by decide)),
    Option.bind_some, readUnsigned?_eq, hmantissa, Option.map_some, spanExponent, Int.zero_sub]

end Number

/-! ## Spellings -/

namespace Color

open Number Text

/-- The form of an opacity: at most one digit, at most one point, and any digits. -/
def IsOpacity (cs : List Char) : Prop :=
  ∃ lead point tail, cs = lead ++ (point ++ tail) ∧ lead.length ≤ 1 ∧
    (point = [] ∨ point = ['.']) ∧ AllDigits isDecimal lead ∧ AllDigits isDecimal tail

/-- A colour as it is written. -/
structure Spelling where
  red : List Char
  green : List Char
  blue : List Char
  opacity : List Char
  components : ∀ ds ∈ [red, green, blue], ds ≠ [] ∧ AllDigits isDecimal ds
  isOpacity : IsOpacity opacity

namespace Spelling

def text (c : Spelling) : List Char :=
  "rgba(".toList ++ (c.red ++ ',' :: (c.green ++ ',' :: (c.blue ++ ',' :: (c.opacity ++ [')']))))

theorem text_eq (c : Spelling) : c.text = "rgba(".toList ++
    (c.red ++ ',' :: (c.green ++ ',' :: (c.blue ++ ',' :: (c.opacity ++ [')'])))) := rfl

def parts (c : Spelling) : List Char × List Char × List Char × List Char :=
  (c.red, c.green, c.blue, c.opacity)

/-- The spelling is the first of all that the text has. -/
inductive IsFirstIn (c : Spelling) : List Char → Prop
  | here {cs : List Char} (h : c.text <+: cs) : IsFirstIn c cs
  | later {x : Char} {cs : List Char} (none : ∀ d : Spelling, ¬ d.text <+: x :: cs)
    (h : IsFirstIn c cs) : IsFirstIn c (x :: cs)

end Spelling

variable {cs rest : List Char}

/-! ## Reading a spelling -/

theorem component?_eq_some_iff {mark : Char} (hmark : isDecimal mark = false) {ds : List Char} :
    component? mark cs = some (ds, rest) ↔
      ds ≠ [] ∧ AllDigits isDecimal ds ∧ cs = ds ++ mark :: rest := by
  constructor
  · intro h
    unfold component? at h
    split at h
    · cases h
    · rename_i w c r hne hspan
      split at h
      · rename_i hc
        subst hc
        obtain ⟨rfl, rfl⟩ := Prod.mk.inj (Option.some.inj h)
        exact ⟨hne, (spanDigits_eq_iff hmark).mp hspan⟩
      · cases h
    · cases h
  · rintro ⟨hne, hds, rfl⟩
    obtain ⟨d, ds, rfl⟩ := List.exists_cons_of_ne_nil hne
    unfold component?
    rw [spanDigits_mark hds hmark]
    exact if_pos rfl

theorem isOpacity_iff {a : List Char} : IsOpacity a ↔ AllDigits isDecimal a ∨
    ∃ ds fs, a = ds ++ '.' :: fs ∧ ds.length ≤ 1 ∧ AllDigits isDecimal ds ∧
      AllDigits isDecimal fs := by
  constructor
  · rintro ⟨lead, point, tail, rfl, hlead, rfl | rfl, hds, hfs⟩
    · left
      intro c hc
      rcases List.mem_append.mp hc with hc | hc
      · exact hds c hc
      · exact hfs c hc
    · exact Or.inr ⟨lead, tail, rfl, hlead, hds, hfs⟩
  · rintro (hall | ⟨ds, fs, rfl, hlead, hds, hfs⟩)
    · exact ⟨[], [], a, rfl, by simp, Or.inl rfl, nofun, hall⟩
    · exact ⟨ds, ['.'], fs, rfl, hlead, Or.inr rfl, hds, hfs⟩

theorem opacity?_eq_some_iff {a : List Char} :
    opacity? cs = some a ↔ IsOpacity a ∧ ∃ rest, cs = a ++ ')' :: rest := by
  have hclose : isDecimal ')' = false := by decide
  have hpoint : isDecimal '.' = false := by decide
  rw [isOpacity_iff]
  constructor
  · intro h
    unfold opacity? at h
    split at h
    · rename_i ds r hspan
      obtain ⟨hds, rfl⟩ := (spanDigits_eq_iff hclose).mp hspan
      obtain rfl := Option.some.inj h
      exact ⟨Or.inl hds, r, rfl⟩
    · rename_i ds r hspan
      obtain ⟨hds, rfl⟩ := (spanDigits_eq_iff hpoint).mp hspan
      split at h
      · rename_i fs r' hspan'
        obtain ⟨hfs, rfl⟩ := (spanDigits_eq_iff hclose).mp hspan'
        split at h
        · rename_i hlead
          obtain rfl := Option.some.inj h
          exact ⟨Or.inr ⟨ds, fs, rfl, hlead, hds, hfs⟩, r', by simp⟩
        · cases h
      · cases h
    · cases h
  · rintro ⟨hall | ⟨ds, fs, rfl, hlead, hds, hfs⟩, rest, rfl⟩
    · unfold opacity?
      simp only [spanDigits_mark hall hclose]
    · unfold opacity?
      rw [List.append_assoc, List.cons_append]
      simp only [spanDigits_mark hds hpoint, spanDigits_mark hfs hclose]
      exact if_pos hlead

theorem here?_eq_some_iff {p : List Char × List Char × List Char × List Char} :
    here? cs = some p ↔ ∃ c : Spelling, c.parts = p ∧ c.text <+: cs := by
  have hcomma : isDecimal ',' = false := by decide
  unfold here?
  simp only [Option.bind_eq_bind, Option.bind_eq_some_iff, Option.pure_def, Option.some.injEq]
  constructor
  · rintro ⟨_, hword, ⟨r, _⟩, hred, ⟨g, _⟩, hgreen, ⟨b, _⟩, hblue, a, hopacity, rfl⟩
    obtain rfl := dropWord?_eq_some_iff.mp hword
    obtain ⟨hr, hrs, rfl⟩ := (component?_eq_some_iff hcomma).mp hred
    obtain ⟨hg, hgs, rfl⟩ := (component?_eq_some_iff hcomma).mp hgreen
    obtain ⟨hb, hbs, rfl⟩ := (component?_eq_some_iff hcomma).mp hblue
    obtain ⟨ha, rest, rfl⟩ := opacity?_eq_some_iff.mp hopacity
    refine ⟨⟨r, g, b, a, by simp [hr, hrs, hg, hgs, hb, hbs], ha⟩, rfl, rest, ?_⟩
    simp [Spelling.text_eq]
  · rintro ⟨c, rfl, rest, rfl⟩
    obtain ⟨hr, hrs⟩ := c.components c.red (by simp)
    obtain ⟨hg, hgs⟩ := c.components c.green (by simp)
    obtain ⟨hb, hbs⟩ := c.components c.blue (by simp)
    refine ⟨_, dropWord?_eq_some_iff.mpr ?_, _, (component?_eq_some_iff hcomma).mpr ⟨hr, hrs, rfl⟩,
      _, (component?_eq_some_iff hcomma).mpr ⟨hg, hgs, rfl⟩, _,
      (component?_eq_some_iff hcomma).mpr ⟨hb, hbs, rfl⟩, c.opacity,
      opacity?_eq_some_iff.mpr ⟨c.isOpacity, rest, rfl⟩, rfl⟩
    simp [Spelling.text_eq]

theorem here?_eq_none_iff : here? cs = none ↔ ∀ c : Spelling, ¬ c.text <+: cs := by
  rw [Option.eq_none_iff_forall_ne_some]
  constructor
  · exact fun h c hc => h c.parts (here?_eq_some_iff.mpr ⟨c, rfl, hc⟩)
  · intro h p hp
    obtain ⟨c, -, hc⟩ := here?_eq_some_iff.mp hp
    exact h c hc

theorem find?_nil : find? [] = none := rfl

theorem find?_cons (x : Char) (cs : List Char) :
    find? (x :: cs) = (here? (x :: cs)).or (find? cs) := by
  rw [find?]
  cases here? (x :: cs) <;> rfl

theorem find?_eq_some_iff {p : List Char × List Char × List Char × List Char} :
    find? cs = some p ↔ ∃ c : Spelling, c.parts = p ∧ c.IsFirstIn cs := by
  induction cs with
  | nil =>
    simp only [find?_nil, reduceCtorEq, false_iff, not_exists, not_and]
    rintro c - ⟨h⟩
    exact absurd (List.prefix_nil.mp h) (by simp [Spelling.text_eq])
  | cons x cs ih =>
    cases hhere : here? (x :: cs) with
    | some q =>
      obtain ⟨c, hc, hprefix⟩ := here?_eq_some_iff.mp hhere
      rw [find?_cons, hhere, Option.some_or]
      constructor
      · intro h
        exact ⟨c, hc.trans (Option.some.inj h), .here hprefix⟩
      · rintro ⟨d, rfl, hd | ⟨hnone, -⟩⟩
        · rename_i hd
          have hsame := here?_eq_some_iff.mpr ⟨d, rfl, hd⟩
          rw [hhere] at hsame
          exact hsame
        · exact absurd hprefix (hnone c)
    | none =>
      have hnone := here?_eq_none_iff.mp hhere
      rw [find?_cons, hhere, Option.none_or]
      refine ih.trans (exists_congr fun c => and_congr_right fun _ => ?_)
      constructor
      · exact .later hnone
      · rintro (h | ⟨-, h⟩)
        · exact absurd h (hnone c)
        · exact h

theorem find?_eq_none_iff : find? cs = none ↔ ∀ c : Spelling, ¬ c.text <:+: cs := by
  induction cs with
  | nil =>
    simp only [find?_nil, true_iff]
    intro c h
    exact absurd (List.infix_nil.mp h) (by simp [Spelling.text_eq])
  | cons x cs ih =>
    simp only [List.infix_cons_iff, not_or, forall_and, ← ih, ← here?_eq_none_iff]
    rw [find?_cons, Option.or_eq_none_iff]

/-! ## What a spelling stands for -/

/-- An opacity with a digit is a mantissa. -/
theorem IsOpacity.exists_mantissa {a : List Char} (h : IsOpacity a)
    (hdigit : ∃ d ∈ a, isDecimal d = true) : ∃ m : Mantissa isDecimal, m.text = a := by
  obtain ⟨d, hmem, hd⟩ := hdigit
  rcases isOpacity_iff.mp h with hall | ⟨ds, fs, rfl, -, hds, hfs⟩
  · have hne : a ≠ [] := List.ne_nil_of_mem hmem
    exact ⟨⟨a, none, hall, by simp, Or.inl hne⟩, by simp [Mantissa.text]⟩
  · have hsome : ds ≠ [] ∨ ∃ f ∈ some fs, f ≠ [] := by
      rcases List.mem_append.mp hmem with hmem | hmem
      · exact Or.inl (List.ne_nil_of_mem hmem)
      · rcases List.mem_cons.mp hmem with rfl | hmem
        · exact absurd hd (by decide)
        · exact Or.inr ⟨fs, rfl, List.ne_nil_of_mem hmem⟩
    exact ⟨⟨ds, some fs, hds, by simpa using hfs, hsome⟩, rfl⟩

/-- Without a digit at most a point is left. -/
theorem IsOpacity.eq_of_no_digit {a : List Char} (h : IsOpacity a)
    (hdigit : ∀ d ∈ a, isDecimal d = false) : a = [] ∨ a = ['.'] := by
  have hnone {cs : List Char} (hcs : AllDigits isDecimal cs) (hsub : cs ⊆ a) : cs = [] := by
    rw [List.eq_nil_iff_forall_not_mem]
    intro c hc
    have := hdigit c (hsub hc)
    rw [hcs c hc] at this
    cases this
  rcases isOpacity_iff.mp h with hall | ⟨ds, fs, rfl, -, hds, hfs⟩
  · exact Or.inl (hnone hall (List.Subset.refl a))
  · right
    rw [hnone hds (by simp), hnone hfs (by simp), List.nil_append]

end Color

/-- The value is a number: an integer, or a double that is one. -/
def Value.IsNumber (v : Value) : Prop :=
  (∃ n, v = .int n) ∨ ∃ x, v = .double x ∧ x ≠ .nan

namespace Color

open Number Text

variable {cs : List Char}

/-- The opacity is a number if it is spelled with a digit, and null if it is not. -/
theorem opacityValue_cases {a : List Char} (h : IsOpacity a) :
    (∃ d ∈ a, isDecimal d = true) ∧ (opacityValue a).IsNumber ∨
      (∀ d ∈ a, isDecimal d = false) ∧ opacityValue a = .null := by
  by_cases hdigit : ∃ d ∈ a, isDecimal d = true
  · left
    refine ⟨hdigit, ?_⟩
    obtain ⟨m, rfl⟩ := h.exists_mantissa hdigit
    unfold opacityValue
    rw [m.readDouble?_text]
    dsimp only
    split
    · exact Or.inl ⟨_, rfl⟩
    · exact Or.inr ⟨_, rfl, Double.ofDecimal_ne_nan _ _ _⟩
  · right
    have hnone : ∀ d ∈ a, isDecimal d = false := by simpa using hdigit
    refine ⟨hnone, ?_⟩
    have hread : readDouble? a = none := by
      rcases h.eq_of_no_digit hnone with rfl | rfl <;> decide +kernel
    rw [opacityValue, hread]

/-- The colour that a spelling stands for. -/
def Spelling.color (c : Spelling) : Record Value :=
  [("r", .int (digitsValue c.red)), ("g", .int (digitsValue c.green)),
    ("b", .int (digitsValue c.blue)), ("a", opacityValue c.opacity)]

/-- No run of digits in the text is past the digit limit. -/
def HasShortRuns (cs : List Char) : Prop :=
  ∀ ds, AllDigits isDecimal ds → ds <:+: cs → ds.length ≤ digitLimit

theorem Spelling.IsFirstIn.infix {c : Spelling} (h : c.IsFirstIn cs) : c.text <:+: cs := by
  induction h with
  | here h => exact h.isInfix
  | later _ _ ih => exact ih.trans (List.suffix_cons _ _).isInfix

theorem Spelling.infix_text (c : Spelling) {ds : List Char} (h : ds ∈ [c.red, c.green, c.blue]) :
    ds <:+: c.text := by
  simp only [List.mem_cons, List.not_mem_nil, or_false] at h
  rcases h with rfl | rfl | rfl
  · exact ⟨"rgba(".toList, ',' :: (c.green ++ ',' :: (c.blue ++ ',' :: (c.opacity ++ [')']))),
      by simp [text_eq]⟩
  · exact ⟨"rgba(".toList ++ c.red ++ [','], ',' :: (c.blue ++ ',' :: (c.opacity ++ [')'])),
      by simp [text_eq]⟩
  · exact ⟨"rgba(".toList ++ c.red ++ ',' :: c.green ++ [','], ',' :: (c.opacity ++ [')']),
      by simp [text_eq]⟩

/-- The first spelling is what the text stands for. -/
theorem ofText_of_isFirstIn (short : HasShortRuns cs) {c : Spelling} (h : c.IsFirstIn cs) :
    ofText cs = .ok c.color := by
  have hvalue : ∀ ds ∈ [c.red, c.green, c.blue],
      componentValue ds = .ok (.int (digitsValue ds)) := by
    intro ds hds
    have hdigits := (c.components ds hds).2
    exact if_pos (short ds hdigits ((c.infix_text hds).trans h.infix))
  have hfind : find? cs = some (c.red, c.green, c.blue, c.opacity) :=
    find?_eq_some_iff.mpr ⟨c, rfl, h⟩
  unfold ofText
  rw [hfind]
  simp only [hvalue c.red (by simp), hvalue c.green (by simp), hvalue c.blue (by simp)]
  rfl

theorem ofText_of_none (h : ∀ c : Spelling, ¬ c.text <:+: cs) : ofText cs = .ok magenta := by
  rw [ofText, find?_eq_none_iff.mpr h]

/-- The value has a text, and no run of digits in that is past the digit limit. -/
def IsShort (v : Value) : Prop :=
  ¬ v.LacksDisplay ∧ ∀ s, Markup.textOf v = .ok s → HasShortRuns s.toList

/-- Every value with a text whose digits are within the limit has a colour. It is magenta if no
colour is spelled in its text, and else the one that is spelled first. Its components are naturals,
and its opacity is a number if it is spelled with a digit wherever it is spelled first, and null if
it is not. -/
theorem ofValue_components {v : Value} (short : IsShort v) :
    ∃ s, Markup.textOf v = .ok s ∧
      ((∀ c : Spelling, ¬ c.text <:+: s.toList) → ofValue v = .ok magenta) ∧
      (∀ c : Spelling, c.IsFirstIn s.toList → ofValue v = .ok c.color) ∧
      ∃ (r g b : Nat) (a : Value),
        ofValue v = .ok [("r", .int r), ("g", .int g), ("b", .int b), ("a", a)] ∧
        (a.IsNumber ↔
          ∀ c : Spelling, c.IsFirstIn s.toList → ∃ d ∈ c.opacity, isDecimal d = true) ∧
        (¬ a.IsNumber → a = .null) := by
  obtain ⟨s, hs⟩ := not_faults_iff.mp (mt (Markup.faults_textOf v).mp short.1)
  have hruns := short.2 s hs
  have hofValue : ofValue v = ofText s.toList := by
    rw [ofValue, hs]
    rfl
  rw [hofValue]
  refine ⟨s, hs, ofText_of_none, fun c hc => ofText_of_isFirstIn hruns hc, ?_⟩
  cases hfind : find? s.toList with
  | none =>
    have hnone := find?_eq_none_iff.mp hfind
    have hone : (Value.int 1).IsNumber := Or.inl ⟨1, rfl⟩
    refine ⟨255, 0, 255, .int 1, ofText_of_none hnone, ?_, fun h => absurd hone h⟩
    exact iff_of_true hone fun c hc => absurd hc.infix (hnone c)
  | some p =>
    obtain ⟨c, rfl, hc⟩ := find?_eq_some_iff.mp hfind
    have hunique : ∀ d : Spelling, d.IsFirstIn s.toList → d.opacity = c.opacity := by
      intro d hd
      have hsame := find?_eq_some_iff.mpr ⟨d, rfl, hd⟩
      rw [hfind] at hsame
      exact (congrArg (fun p => p.2.2.2) (Option.some.inj hsame)).symm
    refine ⟨_, _, _, _, ofText_of_isFirstIn hruns hc, ?_, ?_⟩
    · constructor
      · intro hnumber d hd
        rw [hunique d hd]
        rcases opacityValue_cases c.isOpacity with ⟨hdigit, -⟩ | ⟨-, hnull⟩
        · exact hdigit
        · rw [hnull] at hnumber
          rcases hnumber with ⟨n, h⟩ | ⟨x, h, -⟩ <;> cases h
      · intro h
        obtain ⟨d, hmem, hd⟩ := h c hc
        rcases opacityValue_cases c.isOpacity with ⟨-, hnumber⟩ | ⟨hnone, -⟩
        · exact hnumber
        · rw [hnone d hmem] at hd
          cases hd
    · intro hnumber
      rcases opacityValue_cases c.isOpacity with ⟨-, h⟩ | ⟨-, hnull⟩
      · exact absurd h hnumber
      · exact hnull

theorem isShort_text {s : String} (h : s.length ≤ digitLimit) : IsShort (.text s) := by
  refine ⟨Value.IsPlainLeaf.not_lacksDisplay trivial, ?_⟩
  intro t ht ds _ hinfix
  have hsame : s = t := Except.ok.inj ((Value.display_text s).symm.trans ht)
  subst hsame
  have hlength := hinfix.length_le
  rw [String.length_toList] at hlength
  omega

/-- A colour behind something that only starts like one. -/
def borderText : String := "1px rgba(1,2) rgba(230,33,23,.5)"

theorem ofValue_components_border :
    IsShort (.text borderText) ∧ ofValue (.text borderText) =
      .ok [("r", .int 230), ("g", .int 33), ("b", .int 23),
        ("a", .double (.ofRatio false 1 2))] := by
  have hshort : IsShort (.text borderText) := isShort_text (by decide +kernel)
  obtain ⟨s, hs, -, hfirst, -⟩ := ofValue_components hshort
  obtain rfl : borderText = s := Except.ok.inj ((Value.display_text borderText).symm.trans hs)
  have hfind : find? borderText.toList =
      some ("230".toList, "33".toList, "23".toList, ".5".toList) := by decide +kernel
  obtain ⟨c, hparts, hc⟩ := find?_eq_some_iff.mp hfind
  obtain ⟨hred, hgreen, hblue, hopacity⟩ : c.red = "230".toList ∧ c.green = "33".toList ∧
      c.blue = "23".toList ∧ c.opacity = ".5".toList := by
    simpa only [Spelling.parts, Prod.mk.injEq] using hparts
  have hhalf : readDouble? ".5".toList = some (.ofRatio false 1 2) := by decide +kernel
  have hfraction : (Double.ofRatio false 1 2).toInt? = none := by decide +kernel
  have hvalue : opacityValue ".5".toList = .double (.ofRatio false 1 2) := by
    rw [opacityValue, hhalf]
    dsimp only
    rw [hfraction]
  refine ⟨hshort, ?_⟩
  rw [hfirst c hc, Spelling.color, hred, hgreen, hblue, hopacity, hvalue]
  rfl

/-- A colour that leaves its opacity out has no number there, though magenta has. -/
theorem not_ofValue_components_blank : ¬ ∀ v, IsShort v →
    ∃ (r g b : Nat) (a : Value),
      ofValue v = .ok [("r", .int r), ("g", .int g), ("b", .int b), ("a", a)] ∧ a.IsNumber := by
  intro h
  obtain ⟨r, g, b, a, hcolor, hnumber⟩ :=
    h (.text "rgba(1,2,3,)") (isShort_text (by decide +kernel))
  have hread : ofValue (.text "rgba(1,2,3,)") =
      .ok [("r", .int 1), ("g", .int 2), ("b", .int 3), ("a", .null)] := by
    have hfind : find? "rgba(1,2,3,)".toList = some (['1'], ['2'], ['3'], []) := by decide +kernel
    have hnone : readDouble? [] = none := by decide +kernel
    change ofText "rgba(1,2,3,)".toList = _
    rw [ofText, hfind]
    simp only [opacityValue, hnone]
    rfl
  rw [hread] at hcolor
  obtain ⟨-, -, -, rfl⟩ :
      (1 : Int) = r ∧ (2 : Int) = g ∧ (3 : Int) = b ∧ Value.null = a := by
    simpa using hcolor
  rcases hnumber with ⟨n, hn⟩ | ⟨x, hx, -⟩
  · cases hn
  · cases hx

end Color

end Switchboard
