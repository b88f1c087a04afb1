import Switchboard.Proofs.LongestLiterals

/-!
# Numbers in texts

A text has a leading number, which is the longest literal at its start, and as a whole it may stand
for a number. Both are read with the digits of every script. They are the numbers that the literals
of ASCII give, unless a digit of another script is in the literal that is read.
-/
namespace Switchboard

/-! ## Digits and blanks -/

namespace Text

theorem isDecimal_iff {c : Char} : isDecimal c = true ↔
    ∃ z ∈ decimalZeros, z ≤ c.toNat ∧ c.toNat ≤ z + 9 := by
  by_cases hascii : c.toNat < 0x80
  · have hothers : ∀ z ∈ decimalZeros, z < 0x80 → z = 0x30 := by decide
    have hrange : ('0' ≤ c ∧ c ≤ '9') ↔ 0x30 ≤ c.toNat ∧ c.toNat ≤ 0x30 + 9 := Iff.rfl
    rw [isDecimal, decimalValue?_ascii hascii]
    by_cases h : '0' ≤ c ∧ c ≤ '9'
    · simp only [if_pos h, Option.isSome_some, true_iff]
      exact ⟨0x30, by decide, hrange.mp h⟩
    · simp only [if_neg h, Option.isSome_none, Bool.false_eq_true, false_iff]
      rintro ⟨z, hz, hlow, hhigh⟩
      obtain rfl := hothers z hz (Nat.lt_of_le_of_lt hlow hascii)
      exact h (hrange.mpr ⟨hlow, hhigh⟩)
  · simp [isDecimal, decimalValue?, hascii]

/-- No digit is a blank. -/
theorem isBlank_of_isDecimal {c : Char} (h : isDecimal c = true) : isBlank c = false := by
  have hapart : ∀ z ∈ decimalZeros, 0x1f < z ∧
      ∀ r ∈ CharSet.white.runs, r.2 < z ∨ z + 9 < r.1 := by decide
  obtain ⟨z, hz, hlow, hhigh⟩ := isDecimal_iff.mp h
  obtain ⟨hseparator, hruns⟩ := hapart z hz
  have hwhite : isWhite c = false := by
    rw [isWhite, ← Bool.not_eq_true, CharSet.contains_iff]
    rintro ⟨r, hr, hfirst, hlast⟩
    have := hruns r hr
    omega
  have hlate : ¬ c.toNat ≤ 0x1f := by omega
  simp [isBlank, hwhite, hlate]

theorem isWhite_of_isDecimal {c : Char} (h : isDecimal c = true) : isWhite c = false := by
  rw [← Bool.not_eq_true]
  intro hwhite
  exact Bool.false_ne_true ((isBlank_of_isDecimal h).symm.trans (isBlank_of_isWhite hwhite))

end Text

/-! ## What is read is a number -/

namespace Double

theorem ofRatio_ne_nan (negative : Bool) (n d : Nat) : ofRatio negative n d ≠ .nan := by
  unfold ofRatio
  split
  · exact nofun
  · unfold ofRank
    dsimp only
    split <;> exact nofun

theorem ofDecimal_ne_nan (negative : Bool) (digits : Nat) (e : Int) :
    ofDecimal negative digits e ≠ .nan := by
  unfold ofDecimal
  split
  · exact nofun
  · dsimp only
    split
    · exact nofun
    · split
      · exact nofun
      · split
        · exact ofRatio_ne_nan _ _ _
        · exact ofRatio_ne_nan _ _ _

end Double

namespace Number

open Text

variable {digit : Char → Bool} {cs : List Char} {x : Double}

theorem Literal.value_ne_nan (l : Literal digit) : l.value ≠ .nan := by
  cases l with
  | infinity sign => exact nofun
  | decimal sign m p => exact Double.ofDecimal_ne_nan _ _ _

theorem Literal.text_ne_nil (l : Literal isDecimal) : l.text ≠ [] := by
  intro h
  have hread := l.readPrefix?_text
  rw [h] at hread
  cases hread

/-- A literal stands for its double. -/
theorem standsFor_text (l : Literal isDecimal) : StandsFor isDecimal l.text x ↔ x = l.value := by
  constructor
  · rintro (⟨hnil, -⟩ | ⟨l', hl', rfl⟩ | ⟨-, -, hnone⟩)
    · exact absurd hnil l.text_ne_nil
    · exact Literal.value_eq hl'
    · exact absurd rfl (hnone l)
  · rintro rfl
    exact Or.inr (Or.inl ⟨l, rfl, rfl⟩)

/-- No number is read exactly where no literal is. -/
theorem readsAs_nan_iff : ReadsAs digit cs .nan ↔ ∀ l : Literal digit, ¬ l.text <+: cs := by
  constructor
  · rintro (⟨l, -, hnan⟩ | ⟨-, hnone⟩)
    · exact absurd hnan.symm l.value_ne_nan
    · exact hnone
  · intro h
    exact Or.inr ⟨rfl, h⟩

/-- A text that is no literal and not empty stands for no number. -/
theorem standsFor_iff_of_none (hne : cs ≠ []) (h : ∀ l : Literal digit, l.text ≠ cs) :
    StandsFor digit cs x ↔ x = .nan := by
  constructor
  · rintro (⟨hnil, -⟩ | ⟨l, hl, -⟩ | ⟨-, rfl, -⟩)
    · exact absurd hnil hne
    · exact absurd hl (h l)
    · rfl
  · rintro rfl
    exact Or.inr (Or.inr ⟨hne, rfl, h⟩)

/-- A whole text stands for the same with the digits of ASCII exactly if it is no literal with
another digit. -/
theorem standsFor_ascii_iff :
    (∀ x, StandsFor Char.isDigit cs x ↔ StandsFor isDecimal cs x) ↔
      ∀ l : Literal isDecimal, l.text = cs → ¬ l.IsForeign := by
  constructor
  · rintro h l rfl hforeign
    rcases (h l.value).mpr ((standsFor_text l).mpr rfl) with
      ⟨hnil, -⟩ | ⟨a, ha, hvalue⟩ | ⟨-, hnan, -⟩
    · exact l.text_ne_nil hnil
    · exact Literal.exists_ascii_iff.mp ⟨a, ha, hvalue.symm⟩ hforeign
    · exact l.value_ne_nan hnan
  · intro h x
    unfold StandsFor
    have hliterals : (∃ a : Literal Char.isDigit, a.text = cs ∧ x = a.value) ↔
        ∃ l : Literal isDecimal, l.text = cs ∧ x = l.value := by
      constructor
      · rintro ⟨a, rfl, rfl⟩
        obtain ⟨w, htext, hvalue⟩ := a.exists_wide
        exact ⟨w, htext, hvalue.symm⟩
      · rintro ⟨l, hl, rfl⟩
        obtain ⟨a, htext, hvalue⟩ := Literal.exists_ascii_iff.mpr (h l hl)
        exact ⟨a, htext.trans hl, hvalue.symm⟩
    have hnone : (∀ a : Literal Char.isDigit, a.text ≠ cs) ↔
        ∀ l : Literal isDecimal, l.text ≠ cs := by
      constructor
      · intro ha l hl
        obtain ⟨a, htext, -⟩ := Literal.exists_ascii_iff.mpr (h l hl)
        exact ha a (htext.trans hl)
      · intro hl a ha
        obtain ⟨w, htext, -⟩ := a.exists_wide
        exact hl w (htext.trans ha)
    rw [hliterals, hnone]

end Number

namespace Value

open Number Text

/-- A whole text stands for the literal of any script that it is. -/
theorem standsFor_iff (s : String) (x : Double) :
    StandsFor isDecimal (trim isBlank s.toList) x ↔ numberOfText s = x := by
  unfold numberOfText
  generalize trim isBlank s.toList = cs
  by_cases hliteral : ∃ l : Literal isDecimal, l.text = cs
  · obtain ⟨l, rfl⟩ := hliteral
    obtain ⟨c, r, hcons⟩ := List.exists_cons_of_ne_nil l.text_ne_nil
    have hread := l.readPrefix?_text
    rw [standsFor_text, hcons]
    rw [hcons] at hread
    simp only [hread]
    exact eq_comm
  · have hnone : ∀ l : Literal isDecimal, l.text ≠ cs := fun l hl => hliteral ⟨l, hl⟩
    cases cs with
    | nil =>
      constructor
      · rintro (⟨-, rfl⟩ | ⟨l, hl, -⟩ | ⟨hne, -⟩)
        · rfl
        · exact absurd hl (hnone l)
        · exact absurd rfl hne
      · rintro rfl
        exact Or.inl ⟨rfl, rfl⟩
    | cons c r =>
      rw [standsFor_iff_of_none (List.cons_ne_nil c r) hnone]
      dsimp only
      split
      · rename_i y hread
        obtain ⟨l, hl, -⟩ := readPrefix?_sound hread
        rw [List.append_nil] at hl
        exact absurd hl.symm (hnone l)
      · exact eq_comm

variable {s : String} {x : Double}

theorem number_text_eq_ok_iff : (Value.text s).number = .ok x ↔ numberOfText s = x :=
  ⟨fun h => Except.ok.inj h, fun h => congrArg Except.ok h⟩

theorem leadingNumber_text_eq_ok_iff : (Value.text s).leadingNumber = .ok x ↔
    ((readPrefix? (trimLeft isBlank s.toList)).map Prod.fst).getD .nan = x :=
  ⟨fun h => Except.ok.inj h, fun h => congrArg Except.ok h⟩

/-- The leading number of a text is that of the longest literal behind its leading blanks, with
digits of any script, and there is none exactly where no literal is. The number of a text is zero
for a blank text, and else that of the literal that is left between its blanks. With the digits of
ASCII alone the leading number is the same where the longest literal has no other digit, and the
number is the same exactly where no literal with another digit is left. -/
theorem numbers_of_text (s : String) :
    (∀ x, (Value.text s).leadingNumber = .ok x ↔
        ReadsAs isDecimal (trimLeft isBlank s.toList) x) ∧
      ((Value.text s).leadingNumber = .ok .nan ↔
        ∀ l : Literal isDecimal, ¬ l.text <+: trimLeft isBlank s.toList) ∧
      (∀ x, (Value.text s).number = .ok x ↔ StandsFor isDecimal (trim isBlank s.toList) x) ∧
      ((∀ l : Literal isDecimal, IsLongest l (trimLeft isBlank s.toList) → ¬ l.IsForeign) →
        ∀ x, (Value.text s).leadingNumber = .ok x ↔
          ReadsAs Char.isDigit (trimLeft isBlank s.toList) x) ∧
      ((∀ x, (Value.text s).number = .ok x ↔
          StandsFor Char.isDigit (trim isBlank s.toList) x) ↔
        ∀ l : Literal isDecimal, l.text = trim isBlank s.toList → ¬ l.IsForeign) := by
  have hleading (x : Double) : (Value.text s).leadingNumber = .ok x ↔
      ReadsAs isDecimal (trimLeft isBlank s.toList) x := by
    rw [leadingNumber_text_eq_ok_iff, readsAs_iff]
  have hnumber (x : Double) : (Value.text s).number = .ok x ↔
      StandsFor isDecimal (trim isBlank s.toList) x := by
    rw [number_text_eq_ok_iff, standsFor_iff]
  refine ⟨hleading, (hleading _).trans readsAs_nan_iff, hnumber, ?_, ?_⟩
  · intro h x
    rw [hleading, readsAs_ascii_iff h]
  · rw [← standsFor_ascii_iff]
    constructor
    · intro h x
      rw [← h, hnumber]
    · intro h x
      rw [hnumber, h]

/-- A price with an exponent that is not finished. -/
def pricedText : String := "\t-12.50e+ or more"

theorem numbers_of_text_priced :
    (∀ l : Literal isDecimal, IsLongest l (trimLeft isBlank pricedText.toList) → ¬ l.IsForeign) ∧
      ReadsAs Char.isDigit (trimLeft isBlank pricedText.toList) (.ofDecimal true 1250 (-2)) := by
  have hall :
      (trimLeft isBlank pricedText.toList).all (fun c => !isDecimal c || c.isDigit) = true := by
    decide +kernel
  have hdigits : ∀ c ∈ trimLeft isBlank pricedText.toList, isDecimal c = true → c.isDigit = true := by
    intro c hc hdecimal
    have hself := List.all_eq_true.mp hall c hc
    rwa [hdecimal, Bool.not_true, Bool.false_or] at hself
  have hascii : ∀ l : Literal isDecimal,
      IsLongest l (trimLeft isBlank pricedText.toList) → ¬ l.IsForeign := by
    rintro l ⟨hl, -⟩ ⟨c, hc, hdecimal, hforeign⟩
    rw [hdigits c (hl.subset hc) hdecimal] at hforeign
    cases hforeign
  refine ⟨hascii, ((numbers_of_text pricedText).2.2.2.1 hascii _).mp ?_⟩
  rw [leadingNumber_text_eq_ok_iff]
  decide +kernel

/-- An Arabic three is read as a number, though no literal of ASCII is there. -/
theorem not_numbers_of_text_ascii : ¬ ∀ (s : String) (x : Double),
    (Value.text s).leadingNumber = .ok x ↔
      ReadsAs Char.isDigit (trimLeft isBlank s.toList) x := by
  intro h
  have hthree : (Value.text "٣").leadingNumber = .ok (.ofDecimal false 3 0) := by
    rw [leadingNumber_text_eq_ok_iff]
    decide +kernel
  rcases (h _ _).mp hthree with ⟨l, ⟨hl, -⟩, -⟩ | ⟨hnan, -⟩
  · obtain ⟨w, hw, -⟩ := l.exists_wide
    have hne : l.text ≠ [] := hw ▸ w.text_ne_nil
    obtain ⟨c, r, hcons⟩ := List.exists_cons_of_ne_nil hne
    have hc : c ∈ l.text := hcons ▸ List.mem_cons_self
    obtain rfl : c = '٣' := List.mem_singleton.mp (hl.subset hc)
    rcases l.mem_text hc with hdigit | hmark
    · exact absurd hdigit (by decide)
    · exact absurd hmark (by decide)
  · exact Double.ofDecimal_ne_nan _ _ _ hnan

end Value

end Switchboard
