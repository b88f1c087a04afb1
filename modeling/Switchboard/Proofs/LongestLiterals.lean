import Switchboard.Value.Number

/-!
# The longest literal at the start of a text

The grammar of number literals is stated for any class of digits, and reading is compared with it:
what is read is the longest literal that the text starts with. Digits of every script are read, so
the same holds for the literals of ASCII where no other digit is in the literal that is read.
-/
namespace Switchboard.Number

open Text

/-! ## Literals -/

/-- Only digits of the class. -/
def AllDigits (digit : Char → Bool) (cs : List Char) : Prop := ∀ c ∈ cs, digit c = true

/-- A sign that may be left out; `true` is the minus sign. -/
def signMark : Option Bool → List Char
  | none => []
  | some true => ['-']
  | some false => ['+']

/-- The digits of a literal: those before the point, and those after it if there is a point. -/
structure Mantissa (digit : Char → Bool) where
  whole : List Char
  fraction : Option (List Char)
  whole_digits : AllDigits digit whole
  fraction_digits : ∀ f ∈ fraction, AllDigits digit f
  some_digit : whole ≠ [] ∨ ∃ f ∈ fraction, f ≠ []

/-- The exponent of a literal, of which there may be none: its letter, its sign and its digits. -/
structure Power (digit : Char → Bool) where
  letter : Char
  sign : Option Bool
  digits : List Char
  is_letter : letter = 'e' ∨ letter = 'E'
  is_digits : AllDigits digit digits
  some_digit : digits ≠ []

/-- A number literal. -/
inductive Literal (digit : Char → Bool)
  | infinity (sign : Option Bool)
  | decimal (sign : Option Bool) (mantissa : Mantissa digit) (power : Option (Power digit))

variable {digit : Char → Bool} {cs rest : List Char}

namespace Mantissa

def text (m : Mantissa digit) : List Char := m.whole ++ m.fraction.elim [] ('.' :: ·)

def digits (m : Mantissa digit) : List Char := m.whole ++ m.fraction.getD []

/-- How many digits stand after the point. -/
def places (m : Mantissa digit) : Nat := (m.fraction.getD []).length

end Mantissa

namespace Power

def text (p : Power digit) : List Char := p.letter :: (signMark p.sign ++ p.digits)

def value (p : Power digit) : Int :=
  if p.sign = some true then -(digitsValue p.digits : Int) else digitsValue p.digits

end Power

namespace Literal

def text : Literal digit → List Char
  | infinity sign => signMark sign ++ "Infinity".toList
  | decimal sign m p => signMark sign ++ (m.text ++ p.elim [] Power.text)

/-- The double that the literal stands for. -/
def value : Literal digit → Double
  | infinity sign => .infinite (sign = some true)
  | decimal sign m p =>
    .ofDecimal (sign = some true) (digitsValue m.digits) (p.elim 0 Power.value - m.places)

end Literal

/-- The literal is the longest one that the text starts with. -/
def IsLongest (l : Literal digit) (cs : List Char) : Prop :=
  l.text <+: cs ∧ ∀ l' : Literal digit, l'.text <+: cs → l'.text.length ≤ l.text.length

/-- What a text is read as from its start: the double of the longest literal there, and no number
where there is no literal. -/
def ReadsAs (digit : Char → Bool) (cs : List Char) (x : Double) : Prop :=
  (∃ l : Literal digit, IsLongest l cs ∧ x = l.value) ∨
    x = .nan ∧ ∀ l : Literal digit, ¬ l.text <+: cs

/-- What a whole text stands for: zero if it is empty, the double of a literal, and no number for
any other text. -/
def StandsFor (digit : Char → Bool) (cs : List Char) (x : Double) : Prop :=
  cs = [] ∧ x = .zero ∨
    (∃ l : Literal digit, l.text = cs ∧ x = l.value) ∨
    cs ≠ [] ∧ x = .nan ∧ ∀ l : Literal digit, l.text ≠ cs

/-! ## Digits and signs -/

/-- No digit comes first. -/
def EndsDigits (cs : List Char) : Prop := ∀ c ∈ cs.head?, isDecimal c = false

theorem spanDigits_fst (cs : List Char) : AllDigits isDecimal (spanDigits cs).1 :=
  fun c hc => List.all_eq_true.mp List.all_takeWhile c hc

theorem length_spanDigits_snd_le (cs : List Char) : (spanDigits cs).2.length ≤ cs.length :=
  (List.dropWhile_sublist _).length_le

/-- Reading digits goes on behind digits. -/
theorem spanDigits_digits {ds : List Char} (h : AllDigits isDecimal ds) (rest : List Char) :
    spanDigits (ds ++ rest) = (ds ++ (spanDigits rest).1, (spanDigits rest).2) := by
  rw [spanDigits, List.takeWhile_append_of_pos h, List.dropWhile_append_of_pos h]
  rfl

theorem spanDigits_of_ends (h : EndsDigits rest) : spanDigits rest = ([], rest) := by
  cases rest with
  | nil => rfl
  | cons c rest =>
    have hc := h c rfl
    simp [spanDigits, hc]

theorem endsDigits_of_ne {c : Char} (h : isDecimal c = false) : EndsDigits (c :: rest) := by
  intro d hd
  obtain rfl : c = d := by simpa using hd
  exact h

/-- No sign comes first. -/
def EndsSign (cs : List Char) : Prop := ∀ c ∈ cs.head?, c ≠ '+' ∧ c ≠ '-'

theorem spanSign_of_ends (h : EndsSign rest) : spanSign rest = (false, rest) := by
  unfold spanSign
  split
  · exact absurd rfl (h '-' rfl).2
  · exact absurd rfl (h '+' rfl).1
  · rfl

theorem spanSign_mark (sign : Option Bool) (h : EndsSign rest) :
    spanSign (signMark sign ++ rest) = (decide (sign = some true), rest) := by
  match sign with
  | none => exact spanSign_of_ends h
  | some true => rfl
  | some false => rfl

theorem exists_signMark (cs : List Char) :
    ∃ sign, cs = signMark sign ++ (spanSign cs).2 ∧ (spanSign cs).1 = decide (sign = some true) := by
  unfold spanSign
  split
  · exact ⟨some true, rfl, rfl⟩
  · exact ⟨some false, rfl, rfl⟩
  · exact ⟨none, rfl, rfl⟩

/-! ## What is read is a literal -/

theorem spanMantissa?_sound {ds r : List Char} {places : Nat}
    (h : spanMantissa? cs = some (ds, places, r)) :
    ∃ m : Mantissa isDecimal, cs = m.text ++ r ∧ ds = m.digits ∧ places = m.places := by
  have hwhole := spanDigits_append cs
  have hdigits := spanDigits_fst cs
  unfold spanMantissa? at h
  split at h
  · rename_i behind hcs
    have hfraction := spanDigits_append behind
    have hafter := spanDigits_fst behind
    rw [hcs] at hwhole
    split at h
    · cases h
    · rename_i f after hne hbehind
      rw [hbehind] at hfraction hafter
      simp only [Option.some.injEq, Prod.mk.injEq] at h
      obtain ⟨rfl, rfl, rfl⟩ := h
      refine ⟨⟨[], some f, by simp [AllDigits], by simpa using hafter, Or.inr ⟨f, rfl, hne⟩⟩,
        ?_, rfl, rfl⟩
      rw [← hwhole, ← hfraction]
      rfl
  · cases h
  · rename_i w behind hne hcs
    have hfraction := spanDigits_append behind
    have hafter := spanDigits_fst behind
    rw [hcs] at hwhole hdigits
    simp only [Option.some.injEq, Prod.mk.injEq] at h
    obtain ⟨rfl, rfl, rfl⟩ := h
    refine ⟨⟨w, some (spanDigits behind).1, hdigits, by simpa using hafter, Or.inl hne⟩,
      ?_, rfl, rfl⟩
    rw [← hwhole, Mantissa.text, Option.elim_some, List.append_assoc, List.cons_append, hfraction]
  · rename_i w after _ hne hpoint hcs
    rw [hcs] at hwhole hdigits
    simp only [Option.some.injEq, Prod.mk.injEq] at h
    obtain ⟨rfl, rfl, rfl⟩ := h
    refine ⟨⟨w, none, hdigits, by simp, Or.inl hne⟩, ?_, ?_, rfl⟩
    · rw [← hwhole, Mantissa.text, Option.elim_none, List.append_nil]
    · rw [Mantissa.digits, Option.getD_none, List.append_nil]

theorem spanExponent_sound {e : Int} {r : List Char} (h : spanExponent cs = (e, r)) :
    ∃ p : Option (Power isDecimal),
      cs = p.elim [] Power.text ++ r ∧ e = p.elim 0 Power.value := by
  have hnone {cs' : List Char} (h' : ((0 : Int), cs') = (e, r)) :
      ∃ p : Option (Power isDecimal),
        cs' = p.elim [] Power.text ++ r ∧ e = p.elim 0 Power.value := by
    obtain ⟨rfl, rfl⟩ := Prod.mk.inj h'
    exact ⟨none, rfl, rfl⟩
  unfold spanExponent at h
  split at h
  · exact hnone h
  · rename_i c behind
    split at h
    · rename_i hletter
      obtain ⟨sign, hsign, hnegative⟩ := exists_signMark behind
      have hdigits := spanDigits_append (spanSign behind).2
      have hall := spanDigits_fst (spanSign behind).2
      dsimp only at h
      split at h
      · exact hnone h
      · rename_i ds after hne hds
        rw [hds] at hdigits hall
        obtain ⟨rfl, rfl⟩ := Prod.mk.inj h
        refine ⟨some ⟨c, sign, ds, hletter, hall, hne⟩, ?_, ?_⟩
        · rw [Option.elim_some, Power.text, List.cons_append, List.append_assoc, hdigits, ← hsign]
        · rw [hnegative]
          simp [Power.value]
    · exact hnone h

theorem dropWord?_eq_some_iff {word : List Char} :
    dropWord? word cs = some rest ↔ cs = word ++ rest := by
  unfold dropWord?
  constructor
  · intro h
    split at h
    · rename_i hprefix
      rw [List.isPrefixOf_iff_prefix] at hprefix
      obtain ⟨t, rfl⟩ := hprefix
      rw [List.drop_left] at h
      rw [Option.some.inj h]
    · cases h
  · rintro rfl
    rw [if_pos (List.isPrefixOf_iff_prefix.mpr (List.prefix_append _ _)), List.drop_left]

theorem readUnsigned?_eq (negative : Bool) (cs : List Char) : readUnsigned? negative cs =
    (spanMantissa? cs).map fun m =>
      (.ofDecimal negative (digitsValue m.1) ((spanExponent m.2.2).1 - m.2.1),
        (spanExponent m.2.2).2) := rfl

/-- What is read at the start of a text is a literal. -/
theorem readPrefix?_sound {x : Double} {r : List Char} (h : readPrefix? cs = some (x, r)) :
    ∃ l : Literal isDecimal, cs = l.text ++ r ∧ x = l.value := by
  obtain ⟨sign, hsign, hnegative⟩ := exists_signMark cs
  unfold readPrefix? at h
  dsimp only at h
  split at h
  · rename_i after hword
    obtain ⟨rfl, rfl⟩ := Prod.mk.inj (Option.some.inj h)
    rw [dropWord?_eq_some_iff] at hword
    refine ⟨.infinity sign, ?_, ?_⟩
    · rw [Literal.text, List.append_assoc, ← hword, ← hsign]
    · rw [Literal.value, hnegative]
  · rw [readUnsigned?_eq] at h
    obtain ⟨⟨ds, places, behind⟩, hmantissa, hx⟩ := Option.map_eq_some_iff.mp h
    obtain ⟨hvalue, hrest⟩ := Prod.mk.inj hx
    obtain ⟨m, hm, rfl, rfl⟩ := spanMantissa?_sound hmantissa
    obtain ⟨p, hp, he⟩ := spanExponent_sound (Prod.eta (spanExponent behind)).symm
    rw [hrest] at hp
    refine ⟨.decimal sign m p, ?_, ?_⟩
    · rw [Literal.text, List.append_assoc, List.append_assoc, ← hp, ← hm, ← hsign]
    · rw [Literal.value, ← hvalue, hnegative, ← he]

/-! ## Reading takes the longest literal -/

theorem length_spanExponent_snd_le (cs : List Char) : (spanExponent cs).2.length ≤ cs.length := by
  obtain ⟨p, hp, -⟩ := spanExponent_sound (Prod.eta (spanExponent cs)).symm
  rw [congrArg List.length hp, List.length_append]
  exact Nat.le_add_left _ _

theorem endsSign_of_isDecimal {c : Char} (h : isDecimal c = true) (rest : List Char) :
    EndsSign (c :: rest) := by
  intro d hd
  obtain rfl : c = d := by simpa using hd
  constructor
  · rintro rfl
    exact absurd h (by decide)
  · rintro rfl
    exact absurd h (by decide)

/-- An exponent takes the digits that follow it. -/
theorem Power.spanExponent_text (p : Power isDecimal) (rest : List Char) :
    spanExponent (p.text ++ rest) =
      (if p.sign = some true then -(digitsValue (p.digits ++ (spanDigits rest).1) : Int)
        else digitsValue (p.digits ++ (spanDigits rest).1), (spanDigits rest).2) := by
  obtain ⟨d, ds, hd⟩ := List.exists_cons_of_ne_nil p.some_digit
  have hfirst : isDecimal d = true := p.is_digits d (by rw [hd]; exact List.mem_cons_self)
  have hsign : spanSign (signMark p.sign ++ (p.digits ++ rest)) =
      (decide (p.sign = some true), p.digits ++ rest) := by
    apply spanSign_mark
    rw [hd]
    exact endsSign_of_isDecimal hfirst _
  have hdigits := spanDigits_digits p.is_digits rest
  rw [text, List.cons_append, List.append_assoc, spanExponent, if_pos p.is_letter, hsign]
  dsimp only
  rw [hdigits, hd]
  simp

theorem Power.value_of_ends (p : Power isDecimal) (h : EndsDigits rest) :
    spanExponent (p.text ++ rest) = (p.value, rest) := by
  rw [p.spanExponent_text, spanDigits_of_ends h, List.append_nil]
  rfl

/-- A power begins with a letter. -/
theorem Power.head_text (p : Power isDecimal) (rest : List Char) :
    ∀ c ∈ (p.text ++ rest).head?, isDecimal c = false ∧ c ≠ '.' := by
  intro c hc
  obtain rfl : p.letter = c := by simpa [text] using hc
  rcases p.is_letter with h | h <;> rw [h] <;> decide

/-- Digits with a point behind them, or before others, are read with what follows the point. -/
theorem spanMantissa?_point {w r : List Char} (h : spanDigits cs = (w, '.' :: r))
    (hsome : w ≠ [] ∨ (spanDigits r).1 ≠ []) :
    spanMantissa? cs = some (w ++ (spanDigits r).1, (spanDigits r).1.length, (spanDigits r).2) := by
  unfold spanMantissa?
  rw [h]
  rcases hr : spanDigits r with ⟨f, after⟩
  rw [hr] at hsome
  cases w with
  | cons d w => simp [hr]
  | nil =>
    obtain ⟨d, f, rfl⟩ := List.exists_cons_of_ne_nil (hsome.resolve_left (by simp))
    simp [hr]

theorem spanMantissa?_whole {w r : List Char} (h : spanDigits cs = (w, r)) (hsome : w ≠ [])
    (hr : r.head? ≠ some '.') : spanMantissa? cs = some (w, 0, r) := by
  obtain ⟨d, w, rfl⟩ := List.exists_cons_of_ne_nil hsome
  unfold spanMantissa?
  rw [h]
  split
  · rename_i heq
    cases heq
  · rename_i heq
    cases heq
  · rename_i heq
    cases heq
    exact absurd rfl hr
  · rename_i heq
    cases heq
    rfl

namespace Mantissa

variable (m : Mantissa isDecimal)

/-- What the digits of a literal are read with: the digits that follow them, and, where they have no
point, a point and the digits behind it. -/
theorem spanMantissa?_cases (rest : List Char) :
    spanMantissa? (m.text ++ rest) = some (m.digits ++ (spanDigits rest).1,
        m.places + (if m.fraction = none then 0 else (spanDigits rest).1.length),
        (spanDigits rest).2) ∨
      m.fraction = none ∧ ∃ r, (spanDigits rest).2 = '.' :: r ∧
        spanMantissa? (m.text ++ rest) = some (m.digits ++ (spanDigits rest).1 ++ (spanDigits r).1,
          (spanDigits r).1.length, (spanDigits r).2) := by
  obtain ⟨whole, fraction, hwhole, hfraction, hsome⟩ := m
  cases fraction with
  | none =>
    have hne : whole ≠ [] := by simpa using hsome
    have hspan := spanDigits_digits hwhole rest
    have hsome : whole ++ (spanDigits rest).1 ≠ [] := by simp [hne]
    simp only [text, Option.elim_none, List.append_nil, digits, places, Option.getD_none]
    by_cases hpoint : (spanDigits rest).2.head? = some '.'
    · obtain ⟨r, hr⟩ := List.head?_eq_some_iff.mp hpoint
      rw [hr] at hspan
      exact Or.inr ⟨trivial, r, hr, spanMantissa?_point hspan (Or.inl hsome)⟩
    · exact Or.inl (spanMantissa?_whole hspan hsome hpoint)
  | some f =>
    have hf := spanDigits_digits (hfraction f rfl) rest
    have hspan : spanDigits (whole ++ '.' :: (f ++ rest)) = (whole, '.' :: (f ++ rest)) := by
      rw [spanDigits_digits hwhole, spanDigits_of_ends (endsDigits_of_ne (by decide)),
        List.append_nil]
    have hsome : whole ≠ [] ∨ (spanDigits (f ++ rest)).1 ≠ [] := by
      rw [hf]
      rcases hsome with hne | ⟨f', hf', hne⟩
      · exact Or.inl hne
      · obtain rfl := Option.some.inj hf'
        exact Or.inr (by simp [hne])
    have hread := spanMantissa?_point hspan hsome
    rw [hf] at hread
    left
    simpa [text, digits, places] using hread

/-- The digits of a literal are read up to what cannot go on with them. -/
theorem spanMantissa?_text (h : ∀ c ∈ rest.head?, isDecimal c = false ∧ c ≠ '.') :
    spanMantissa? (m.text ++ rest) = some (m.digits, m.places, rest) := by
  have hspan : spanDigits rest = ([], rest) := spanDigits_of_ends fun c hc => (h c hc).1
  rcases m.spanMantissa?_cases rest with hread | ⟨-, r, hr, -⟩
  · rw [hread, hspan]
    simp
  · rw [hspan] at hr
    subst hr
    exact absurd rfl (h '.' rfl).2

/-- However a text goes on behind the digits of a literal, they are read. -/
theorem spanMantissa?_covers (rest : List Char) :
    ∃ ds places r, spanMantissa? (m.text ++ rest) = some (ds, places, r) ∧
      r.length ≤ rest.length := by
  have hrest := length_spanDigits_snd_le rest
  rcases m.spanMantissa?_cases rest with hread | ⟨-, r, hr, hread⟩
  · exact ⟨_, _, _, hread, hrest⟩
  · have hbehind := length_spanDigits_snd_le r
    rw [hr, List.length_cons] at hrest
    exact ⟨_, _, _, hread, by omega⟩

/-- A literal begins with a digit or a point. -/
theorem exists_text_eq : ∃ c cs, m.text = c :: cs ∧ (isDecimal c = true ∨ c = '.') := by
  obtain ⟨whole, fraction, hwhole, hfraction, hsome⟩ := m
  cases whole with
  | cons d w => exact ⟨d, _, rfl, Or.inl (hwhole d List.mem_cons_self)⟩
  | nil =>
    cases fraction with
    | none => simp at hsome
    | some f => exact ⟨'.', f, rfl, Or.inr rfl⟩

end Mantissa

/-- No name and no sign is before a literal that begins with a digit or a point. -/
theorem Mantissa.ends (m : Mantissa isDecimal) (rest : List Char) :
    EndsSign (m.text ++ rest) ∧ dropWord? "Infinity".toList (m.text ++ rest) = none := by
  obtain ⟨c, cs, hcs, hc⟩ := m.exists_text_eq
  rw [hcs, List.cons_append]
  constructor
  · rcases hc with hc | rfl
    · exact endsSign_of_isDecimal hc _
    · intro d hd
      obtain rfl : '.' = d := by simpa using hd
      decide
  · cases hword : dropWord? "Infinity".toList (c :: (cs ++ rest)) with
    | none => rfl
    | some r =>
      obtain ⟨rfl, -⟩ := List.cons.inj (dropWord?_eq_some_iff.mp hword)
      exact absurd hc (by decide)

/-- Behind its sign a literal that begins with a digit or a point is read by its digits. -/
theorem Mantissa.readPrefix?_text (m : Mantissa isDecimal) (sign : Option Bool)
    (rest : List Char) : readPrefix? (signMark sign ++ (m.text ++ rest)) =
      readUnsigned? (decide (sign = some true)) (m.text ++ rest) := by
  obtain ⟨hsign, hword⟩ := m.ends rest
  rw [readPrefix?, spanSign_mark sign hsign]
  dsimp only
  rw [hword]

/-- Behind its sign the name of the infinities is read. -/
theorem readPrefix?_infinity (sign : Option Bool) (rest : List Char) :
    readPrefix? (signMark sign ++ ("Infinity".toList ++ rest)) =
      some (.infinite (sign = some true), rest) := by
  have hends : EndsSign ("Infinity".toList ++ rest) := by
    intro d hd
    obtain rfl : 'I' = d := by simpa using hd
    decide
  rw [readPrefix?, spanSign_mark sign hends]
  dsimp only
  rw [dropWord?_eq_some_iff.mpr rfl]

namespace Literal

/-- However a text goes on behind a literal, no less is read. -/
theorem readPrefix?_covers (l : Literal isDecimal) (rest : List Char) :
    ∃ x r, readPrefix? (l.text ++ rest) = some (x, r) ∧ r.length ≤ rest.length := by
  cases l with
  | infinity sign =>
    rw [text, List.append_assoc, readPrefix?_infinity]
    exact ⟨_, rest, rfl, Nat.le_refl _⟩
  | decimal sign m p =>
    rw [text, List.append_assoc, List.append_assoc, m.readPrefix?_text, readUnsigned?_eq]
    cases p with
    | none =>
      obtain ⟨ds, places, r, hread, hlength⟩ := m.spanMantissa?_covers rest
      have hbehind := length_spanExponent_snd_le r
      rw [Option.elim_none, List.nil_append, hread]
      exact ⟨_, _, rfl, by dsimp only; omega⟩
    | some p =>
      rw [Option.elim_some, m.spanMantissa?_text (p.head_text rest)]
      refine ⟨_, _, rfl, ?_⟩
      dsimp only
      rw [p.spanExponent_text]
      exact length_spanDigits_snd_le rest

/-- A literal is read as the double that it stands for. -/
theorem readPrefix?_text (l : Literal isDecimal) : readPrefix? l.text = some (l.value, []) := by
  cases l with
  | infinity sign =>
    have hread := readPrefix?_infinity sign []
    rwa [List.append_nil] at hread
  | decimal sign m p =>
    rw [text, m.readPrefix?_text, readUnsigned?_eq]
    cases p with
    | none =>
      have hread := @Mantissa.spanMantissa?_text [] m (by simp)
      rw [Option.elim_none, hread]
      rfl
    | some p =>
      have hhead := p.head_text []
      have hpower := @Power.value_of_ends [] p (by simp [EndsDigits])
      rw [List.append_nil] at hhead hpower
      rw [Option.elim_some, m.spanMantissa?_text hhead, Option.map_some, hpower]
      rfl

end Literal

theorem readPrefix?_eq_none_iff :
    readPrefix? cs = none ↔ ∀ l : Literal isDecimal, ¬ l.text <+: cs := by
  constructor
  · rintro hnone l ⟨rest, rfl⟩
    obtain ⟨x, r, hread, -⟩ := l.readPrefix?_covers rest
    rw [hread] at hnone
    cases hnone
  · intro h
    cases hread : readPrefix? cs with
    | none => rfl
    | some read =>
      obtain ⟨l, hl, -⟩ := readPrefix?_sound hread
      exact absurd ⟨_, hl.symm⟩ (h l)

/-- What is read is a longest literal. -/
theorem isLongest_of_readPrefix? {x : Double} {r : List Char} (h : readPrefix? cs = some (x, r)) :
    ∃ l : Literal isDecimal, IsLongest l cs ∧ x = l.value := by
  obtain ⟨l, hl, hx⟩ := readPrefix?_sound h
  refine ⟨l, ⟨⟨r, hl.symm⟩, ?_⟩, hx⟩
  rintro l' ⟨rest, hrest⟩
  obtain ⟨x', r', hread, hlength⟩ := l'.readPrefix?_covers rest
  rw [hrest, h] at hread
  obtain ⟨-, rfl⟩ := Prod.mk.inj (Option.some.inj hread)
  have htext := congrArg List.length (hl.symm.trans hrest.symm)
  rw [List.length_append, List.length_append] at htext
  omega

/-! ## Digits of ASCII -/

theorem isDecimal_of_isDigit {c : Char} (h : c.isDigit = true) : isDecimal c = true := by
  have hrange : '0' ≤ c ∧ c ≤ '9' := by simpa [Char.isDigit, Char.le_def] using h
  have hnine : c.toNat ≤ 57 := hrange.2
  rw [isDecimal, decimalValue?_ascii (by omega), if_pos hrange]
  rfl

/-- A literal is one for any class that has its digits. -/
theorem Literal.exists_of_digits {digit' : Char → Bool} (l : Literal digit)
    (h : ∀ c ∈ l.text, digit c = true → digit' c = true) :
    ∃ l' : Literal digit', l'.text = l.text ∧ l'.value = l.value := by
  cases l with
  | infinity sign => exact ⟨.infinity sign, rfl, rfl⟩
  | decimal sign m p =>
    have hmantissa : ∀ c ∈ m.text, digit c = true → digit' c = true := by
      intro c hc
      exact h c (List.mem_append_right _ (List.mem_append_left _ hc))
    have hwhole : AllDigits digit' m.whole := by
      intro c hc
      exact hmantissa c (List.mem_append_left _ hc) (m.whole_digits c hc)
    have hfraction : ∀ f ∈ m.fraction, AllDigits digit' f := by
      intro f hf c hc
      apply hmantissa c (List.mem_append_right _ _) (m.fraction_digits f hf c hc)
      rw [Option.mem_def.mp hf]
      exact List.mem_cons_of_mem '.' hc
    cases p with
    | none => exact ⟨.decimal sign ⟨_, _, hwhole, hfraction, m.some_digit⟩ none, rfl, rfl⟩
    | some p =>
      have hpower : AllDigits digit' p.digits := by
        intro c hc
        apply h c _ (p.is_digits c hc)
        apply List.mem_append_right _ (List.mem_append_right _ _)
        exact List.mem_cons_of_mem _ (List.mem_append_right _ hc)
      exact ⟨.decimal sign ⟨_, _, hwhole, hfraction, m.some_digit⟩
        (some ⟨_, _, _, p.is_letter, hpower, p.some_digit⟩), rfl, rfl⟩

/-- Among the digits of the literal is one that ASCII does not have. -/
def Literal.IsForeign (l : Literal isDecimal) : Prop :=
  ∃ c ∈ l.text, isDecimal c = true ∧ c.isDigit = false

/-- What stands in a literal besides its digits. -/
def marks : List Char := "+-.eEInfinity".toList

theorem mem_signMark {sign : Option Bool} {c : Char} (h : c ∈ signMark sign) : c ∈ marks := by
  match sign with
  | none => exact absurd h List.not_mem_nil
  | some true =>
    rw [List.mem_singleton.mp h]
    decide
  | some false =>
    rw [List.mem_singleton.mp h]
    decide

theorem Mantissa.mem_text {m : Mantissa digit} {c : Char} (h : c ∈ m.text) :
    digit c = true ∨ c ∈ marks := by
  rw [text, List.mem_append] at h
  rcases h with hc | hc
  · exact Or.inl (m.whole_digits c hc)
  · cases hfraction : m.fraction with
    | none =>
      rw [hfraction] at hc
      exact absurd hc List.not_mem_nil
    | some f =>
      rw [hfraction, Option.elim_some, List.mem_cons] at hc
      rcases hc with rfl | hc
      · exact Or.inr (by decide)
      · exact Or.inl (m.fraction_digits f hfraction c hc)

theorem Power.mem_text {p : Power digit} {c : Char} (h : c ∈ p.text) :
    digit c = true ∨ c ∈ marks := by
  rw [text, List.mem_cons, List.mem_append] at h
  rcases h with rfl | hc | hc
  · rcases p.is_letter with hletter | hletter <;> rw [hletter] <;> exact Or.inr (by decide)
  · exact Or.inr (mem_signMark hc)
  · exact Or.inl (p.is_digits c hc)

theorem Literal.mem_text {l : Literal digit} {c : Char} (h : c ∈ l.text) :
    digit c = true ∨ c ∈ marks := by
  cases l with
  | infinity sign =>
    rw [text, List.mem_append] at h
    rcases h with hc | hc
    · exact Or.inr (mem_signMark hc)
    · exact Or.inr (List.mem_append_right "+-.eE".toList hc)
  | decimal sign m p =>
    rw [text, List.mem_append, List.mem_append] at h
    rcases h with hc | hc | hc
    · exact Or.inr (mem_signMark hc)
    · exact m.mem_text hc
    · cases p with
      | none => exact absurd hc List.not_mem_nil
      | some p => exact p.mem_text hc

/-- The literals of ASCII are those in which no other digit is. -/
theorem Literal.exists_ascii_iff {l : Literal isDecimal} :
    (∃ l' : Literal Char.isDigit, l'.text = l.text ∧ l'.value = l.value) ↔ ¬ l.IsForeign := by
  constructor
  · rintro ⟨l', htext, -⟩ ⟨c, hc, hdecimal, hdigit⟩
    rw [← htext] at hc
    rcases l'.mem_text hc with hascii | hmark
    · rw [hascii] at hdigit
      cases hdigit
    · have hmarks : marks.all (fun d => !isDecimal d) = true := by decide
      have hnone := List.all_eq_true.mp hmarks c hmark
      rw [hdecimal] at hnone
      cases hnone
  · intro h
    apply l.exists_of_digits
    intro c hc hdecimal
    cases hdigit : c.isDigit with
    | true => rfl
    | false => exact absurd ⟨c, hc, hdecimal, hdigit⟩ h

/-- A literal of ASCII is one of any script. -/
theorem Literal.exists_wide (l : Literal Char.isDigit) :
    ∃ l' : Literal isDecimal, l'.text = l.text ∧ l'.value = l.value :=
  l.exists_of_digits fun _ _ h => isDecimal_of_isDigit h

/-! ## Readings of texts -/

/-- Literals of one text stand for one double. -/
theorem Literal.value_eq {l l' : Literal isDecimal} (h : l.text = l'.text) : l.value = l'.value := by
  have hread := l.readPrefix?_text
  rw [h, l'.readPrefix?_text] at hread
  exact (Prod.mk.inj (Option.some.inj hread)).1.symm

theorem Literal.value_eq_ascii {l l' : Literal Char.isDigit} (h : l.text = l'.text) :
    l.value = l'.value := by
  obtain ⟨w, htext, hvalue⟩ := l.exists_wide
  obtain ⟨w', htext', hvalue'⟩ := l'.exists_wide
  rw [← hvalue, ← hvalue', Literal.value_eq (htext.trans (h.trans htext'.symm))]

/-- Two longest literals of one text are the same text. -/
theorem IsLongest.text_eq {l l' : Literal digit} (h : IsLongest l cs) (h' : IsLongest l' cs) :
    l.text = l'.text := by
  have hlength := Nat.le_antisymm (h'.2 l h.1) (h.2 l' h'.1)
  rw [List.prefix_iff_eq_take.mp h.1, List.prefix_iff_eq_take.mp h'.1, hlength]

/-- A text with a longest literal is read as the double of it. -/
theorem IsLongest.readsAs_iff {l : Literal digit} {x : Double} (h : IsLongest l cs)
    (hvalue : ∀ l' : Literal digit, l'.text = l.text → l'.value = l.value) :
    ReadsAs digit cs x ↔ x = l.value := by
  constructor
  · rintro (⟨l', hl', rfl⟩ | ⟨-, hnone⟩)
    · exact hvalue l' (hl'.text_eq h)
    · exact absurd h.1 (hnone l)
  · rintro rfl
    exact Or.inl ⟨l, h, rfl⟩

theorem readsAs_iff_of_none {x : Double} (h : ∀ l : Literal digit, ¬ l.text <+: cs) :
    ReadsAs digit cs x ↔ x = .nan := by
  constructor
  · rintro (⟨l, hl, -⟩ | ⟨rfl, -⟩)
    · exact absurd hl.1 (h l)
    · rfl
  · rintro rfl
    exact Or.inr ⟨rfl, h⟩

/-- The longest literal of any script is what is read. -/
theorem readsAs_iff {x : Double} :
    ReadsAs isDecimal cs x ↔ ((readPrefix? cs).map Prod.fst).getD .nan = x := by
  cases hread : readPrefix? cs with
  | none =>
    rw [readsAs_iff_of_none (readPrefix?_eq_none_iff.mp hread)]
    exact eq_comm
  | some read =>
    obtain ⟨l, hl, hx⟩ := isLongest_of_readPrefix? hread
    rw [hl.readsAs_iff fun l' => Literal.value_eq, ← hx]
    exact eq_comm

/-- Where the longest literal of any script is one of ASCII, that is what is read. -/
theorem readsAs_ascii_iff {x : Double}
    (h : ∀ l : Literal isDecimal, IsLongest l cs → ¬ l.IsForeign) :
    ReadsAs Char.isDigit cs x ↔ ReadsAs isDecimal cs x := by
  cases hread : readPrefix? cs with
  | none =>
    have hwide := readPrefix?_eq_none_iff.mp hread
    have hascii : ∀ l : Literal Char.isDigit, ¬ l.text <+: cs := by
      intro l
      obtain ⟨w, htext, -⟩ := l.exists_wide
      rw [← htext]
      exact hwide w
    rw [readsAs_iff_of_none hwide, readsAs_iff_of_none hascii]
  | some read =>
    obtain ⟨l, hl, -⟩ := isLongest_of_readPrefix? hread
    obtain ⟨a, htext, hvalue⟩ := Literal.exists_ascii_iff.mpr (h l hl)
    have ha : IsLongest a cs := by
      refine ⟨htext ▸ hl.1, ?_⟩
      intro a' ha'
      obtain ⟨w, hw, -⟩ := a'.exists_wide
      rw [← hw, htext]
      exact hl.2 w (hw ▸ ha')
    rw [hl.readsAs_iff fun l' => Literal.value_eq, ha.readsAs_iff fun l' => Literal.value_eq_ascii,
      hvalue]

end Switchboard.Number
