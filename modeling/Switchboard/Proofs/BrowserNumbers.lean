import Switchboard.Proofs.FewestDigits
import Switchboard.Proofs.WrittenNumbers
import Switchboard.Rule.Comparison

/-!
# Numbers as a browser writes them

A browser writes the shortest decimal of a number: as an integer if that has at most twenty-one
digits, with a point if at most five zeros stand behind it, and otherwise with an exponent. The
display draws other lines. An integer has all its digits, whatever their number, and a fraction is
given an exponent from four zeros on, with at least two digits. So the two texts are the same
between these lines only.
-/
namespace Switchboard

/-! ## The text of a browser -/

namespace Decimal

/-- The digits with a point behind the first, if there are more, and an exponent of these digits. -/
def scientific (d : Decimal) (exponent : List Char) : List Char :=
  let ds := Nat.toDigits 10 d.digits
  ds.take 1 ++ (if ds.length = 1 then [] else '.' :: ds.drop 1) ++
    'e' :: (if d.point - 1 < 0 then '-' else '+') :: exponent

/-- The text that a browser gives to a positive number of which these are the shortest digits. -/
def browserText (d : Decimal) : String :=
  let ds := Nat.toDigits 10 d.digits
  let zeros (n : Int) : List Char := List.replicate n.toNat '0'
  String.ofList <|
    if (ds.length : Int) ≤ d.point ∧ d.point ≤ 21 then ds ++ zeros (d.point - ds.length)
    else if 0 < d.point ∧ d.point ≤ 21 then
      ds.take d.point.toNat ++ '.' :: ds.drop d.point.toNat
    else if -6 < d.point ∧ d.point ≤ 0 then '0' :: '.' :: (zeros (-d.point) ++ ds)
    else d.scientific (Nat.toDigits 10 (d.point - 1).natAbs)

end Decimal

/-- The text that a browser gives to a finite double. The two zeros have one text. -/
inductive Double.IsBrowserText (negative : Bool) (r : Magnitude) : String → Prop
  | zero : r.val = 0 → IsBrowserText negative r "0"
  | shortest {d : Decimal} : r.val ≠ 0 → r.IsShortest d →
    IsBrowserText negative r (signText negative ++ d.browserText)

namespace Double

variable {negative : Bool} {r : Magnitude} {t : String}

theorem isBrowserText_zero_iff (hr : r.val = 0) : IsBrowserText negative r t ↔ t = "0" := by
  constructor
  · rintro (⟨-⟩ | ⟨hne, -⟩)
    · rfl
    · exact absurd hr hne
  · rintro rfl
    exact .zero hr

theorem isBrowserText_iff {d : Decimal} (hr : r.val ≠ 0) (hd : r.IsShortest d) :
    IsBrowserText negative r t ↔ t = signText negative ++ d.browserText := by
  constructor
  · rintro (⟨hzero⟩ | ⟨-, hd'⟩)
    · exact absurd hzero hr
    · rw [hd.eq hr hd']
  · rintro rfl
    exact .shortest hr hd

end Double

namespace Magnitude

variable {r : Magnitude} {d : Decimal}

/-- The steps between magnitudes with a fraction are fractions. -/
theorem exponent_neg (h : r.isIntegral = false) : r.exponent < 0 := by
  by_contra hnonneg
  obtain ⟨j, hj⟩ : ∃ j : Nat, r.exponent = j := ⟨r.exponent.toNat, by omega⟩
  have hintegral : r.isIntegral = true := by
    rw [isIntegral_iff]
    refine ⟨r.significand * 2 ^ j, ?_⟩
    rw [value, hj, zpow_natCast]
    push_cast
    rfl
  rw [h] at hintegral
  cases hintegral

/-- An integer is not rounded to a magnitude with a fraction. -/
theorem Covers.not_natCast (h : r.isIntegral = false) (n : Nat) : ¬ r.Covers n := by
  intro hcovers
  obtain ⟨j, hj⟩ : ∃ j : Nat, r.exponent = -(j : Int) :=
    ⟨(-r.exponent).toNat, by have := exponent_neg h; omega⟩
  have hstep : (0 : ℚ) < 2 ^ r.exponent := zpow_pos (by norm_num) _
  have hscaled : (n : ℚ) = (n * 2 ^ j : Nat) * 2 ^ r.exponent := by
    rw [hj, zpow_neg, zpow_natCast]
    push_cast
    rw [mul_assoc, mul_inv_cancel₀ (by positivity), mul_one]
  have hnear : |((n * 2 ^ j : Nat) : ℚ) - r.significand| * 2 ^ r.exponent ≤
      1 / 2 * 2 ^ r.exponent := by
    calc |((n * 2 ^ j : Nat) : ℚ) - r.significand| * 2 ^ r.exponent
        = |(n : ℚ) - r.value| := by
          rw [hscaled, value, ← sub_mul, abs_mul, abs_of_pos hstep]
      _ ≤ 2 ^ r.exponent / 2 := hcovers.abs_sub_le
      _ = 1 / 2 * 2 ^ r.exponent := by ring
  have hhalf : |((n * 2 ^ j : Nat) : ℚ) - r.significand| ≤ 1 / 2 :=
    le_of_mul_le_mul_right hnear hstep
  have hequal : n * 2 ^ j = r.significand := by
    have hlt : |((n * 2 ^ j : Nat) : Int) - r.significand| < 1 := by
      have : |((n * 2 ^ j : Nat) : ℚ) - r.significand| < 1 := by linarith
      exact_mod_cast this
    rw [Int.abs_lt_one_iff] at hlt
    omega
  have hintegral : r.isIntegral = true := isIntegral_iff.mpr ⟨n, by rw [hscaled, hequal, value]⟩
  rw [h] at hintegral
  cases hintegral

/-- The shortest decimal of a magnitude with a fraction has digits behind the point. -/
theorem IsShortest.exponent_neg (hr : r.val ≠ 0) (h : r.IsShortest d)
    (hfraction : r.isIntegral = false) : d.exponent < 0 := by
  by_contra hnonneg
  obtain ⟨j, hj⟩ : ∃ j : Nat, d.exponent = j := ⟨d.exponent.toNat, by omega⟩
  have hcovers := (isReadFrom_iff hr).mp h.reads
  have hvalue : d.value = (d.digits * 10 ^ j : Nat) := by
    rw [Decimal.value, hj, zpow_natCast]
    push_cast
    rfl
  rw [hvalue] at hcovers
  exact Covers.not_natCast hfraction _ hcovers

/-- Numbers with a fraction are less than the sixteenth power of ten. -/
theorem IsShortest.point_le (hr : r.val ≠ 0) (h : r.IsShortest d)
    (hfraction : r.isIntegral = false) : d.point ≤ 16 := by
  have hstep : (0 : ℚ) < 2 ^ r.exponent := zpow_pos (by norm_num) _
  have hlow := Decimal.le_value (digits_pos_of_isReadFrom hr h.reads)
  have hreach := (abs_le.mp ((isReadFrom_iff hr).mp h.reads).abs_sub_le).2
  have hexponent : (2 : ℚ) ^ r.exponent ≤ 2 ^ (-1 : Int) := by
    apply zpow_le_zpow_right₀ (by norm_num)
    have := Magnitude.exponent_neg hfraction
    omega
  have hsig := r.significand_le
  have hvalue : d.value < 10 ^ (16 : Int) := by
    calc d.value ≤ (r.significand + 1 / 2) * 2 ^ r.exponent := by
          unfold value at hreach
          linarith
      _ ≤ 2 ^ 53 * 2 ^ (-1 : Int) := by
          gcongr
          linarith
      _ < 10 ^ (16 : Int) := by norm_num
  have hpow := (zpow_lt_zpow_iff_right₀ (by norm_num : (1 : ℚ) < 10)).mp (hlow.trans_lt hvalue)
  omega

/-- A decimal that ends in zero is not the shortest. -/
theorem IsShortest.mod_ne_zero (hr : r.val ≠ 0) (h : r.IsShortest d) : d.digits % 10 ≠ 0 := by
  intro hzero
  have hten : d.digits / 10 * 10 = d.digits := Nat.div_mul_cancel (Nat.dvd_of_mod_eq_zero hzero)
  have hpos := digits_pos_of_isReadFrom hr h.reads
  have hread : r.isReadFrom ⟨d.digits / 10, d.exponent + 1⟩ = true := by
    have htrim := isReadFrom_trimZeros r 1 d
    rwa [h.reads, Decimal.trimZeros, if_pos hzero] at htrim
  have hle := h.fewest _ hread
  have hcount := Double.digitCount_mul_ten (m := d.digits / 10) (by omega)
  rw [hten] at hcount
  dsimp only at hle
  omega

end Magnitude

/-! ## Fractions -/

namespace Decimal

variable {d : Decimal}

theorem scientific_inj {es es' : List Char} : d.scientific es = d.scientific es' ↔ es = es' := by
  simp [scientific]

/-- With an exponent the text starts with a digit other than zero. -/
theorem scientific_ne (hd : 0 < d.digits) (es cs : List Char) : d.scientific es ≠ '0' :: cs := by
  obtain ⟨c, rest, hcons, hc⟩ := Json.exists_toDigits_eq_cons hd
  simp [scientific, hcons, hc]

end Decimal

/-- A number of two digits or more is not filled up with zeros to two digits. -/
theorem zeros_append_toDigits_iff (n : Nat) :
    List.replicate (2 - ((Nat.toDigits 10 n).length : Int)).toNat '0' ++ Nat.toDigits 10 n =
      Nat.toDigits 10 n ↔ 10 ≤ n := by
  have hone : (Nat.toDigits 10 n).length ≤ 1 ↔ n < 10 ^ 1 :=
    Nat.length_toDigits_le_iff (by decide) Nat.one_pos
  have hpos := Nat.length_toDigits_pos (b := 10) (n := n)
  rw [List.append_left_eq_self, List.replicate_eq_nil_iff]
  omega

/-- A fraction is given its exponent two zeros earlier than by a browser, and the exponent at least
two digits. -/
theorem Magnitude.text_eq_browserText_iff {r : Magnitude} (hr : r.val ≠ 0)
    (hd : 0 < r.shortest.digits) (hexponent : r.shortest.exponent < 0)
    (hpoint : r.shortest.point ≤ 16) :
    r.text = r.shortest.browserText ↔ -4 < r.shortest.point ∨ r.shortest.point ≤ -9 := by
  unfold text
  rw [if_neg hr]
  generalize r.shortest = d at *
  have hlength : ((Nat.toDigits 10 d.digits).length : Int) + d.exponent = d.point := rfl
  have hwhole : ¬ (((Nat.toDigits 10 d.digits).length : Int) ≤ d.point ∧ d.point ≤ 21) := by omega
  unfold Decimal.browserText
  dsimp only
  rw [hlength, if_neg hwhole, String.ofList_inj]
  by_cases hrange : -4 < d.point
  · rw [if_pos ⟨hrange, hpoint⟩]
    by_cases hbelow : d.point ≤ 0
    · rw [if_pos hbelow, if_neg (by omega), if_pos ⟨by omega, hbelow⟩]
      simp [hrange]
    · rw [if_neg hbelow, if_neg (by omega), if_pos ⟨by omega, by omega⟩]
      simp [hrange]
  · rw [if_neg (by omega), if_neg (c := 0 < d.point ∧ d.point ≤ 21) (by omega)]
    change d.scientific _ = _ ↔ _
    by_cases hfixed : -6 < d.point
    · rw [if_pos ⟨hfixed, by omega⟩]
      simp only [Decimal.scientific_ne hd, false_iff]
      omega
    · rw [if_neg (by omega), Decimal.scientific_inj, zeros_append_toDigits_iff]
      omega

/-! ## Integers -/

theorem toDigits_mul_pow_ten {m : Nat} (hm : 0 < m) (j : Nat) :
    Nat.toDigits 10 (m * 10 ^ j) = Nat.toDigits 10 m ++ List.replicate j '0' := by
  induction j with
  | zero => simp
  | succ j ih =>
    have hpos : 0 < m * 10 ^ j := Nat.mul_pos hm (Nat.pow_pos (by decide))
    have happend := Nat.toDigits_append_toDigits (b := 10) (d := 0) (by decide) hpos (by decide)
    rw [Nat.toDigits_zero, ih] at happend
    rw [List.replicate_succ', ← List.append_assoc, happend]
    congr 1
    rw [Nat.pow_succ]
    ring

namespace Decimal

variable {d : Decimal}

/-- The value is a natural where the last digit stands at the point or in front of it. -/
theorem value_eq_natCast_iff {n : Nat} (hd : d.digits % 10 ≠ 0) :
    d.value = n ↔ ∃ j : Nat, d.exponent = j ∧ n = d.digits * 10 ^ j := by
  unfold value
  constructor
  · intro h
    rcases Int.lt_or_le d.exponent 0 with hneg | hnonneg
    · exfalso
      obtain ⟨j, hj⟩ : ∃ j : Nat, d.exponent = -((j + 1 : Nat) : Int) :=
        ⟨(-d.exponent - 1).toNat, by omega⟩
      rw [hj, zpow_neg, zpow_natCast, mul_inv_eq_iff_eq_mul₀ (by positivity)] at h
      have hwhole : d.digits = n * 10 ^ (j + 1) := by exact_mod_cast h
      rw [hwhole, Nat.pow_succ, ← Nat.mul_assoc, Nat.mul_mod_left] at hd
      exact hd rfl
    · obtain ⟨j, hj⟩ : ∃ j : Nat, d.exponent = j := ⟨d.exponent.toNat, by omega⟩
      rw [hj, zpow_natCast] at h
      exact ⟨j, hj, by exact_mod_cast h.symm⟩
  · rintro ⟨j, hj, rfl⟩
    rw [hj, zpow_natCast]
    push_cast
    rfl

/-- A browser's text that consists of digits is that of an integer up to twenty-one digits. -/
theorem browserText_eq_toDigits_iff {n : Nat} (hd : d.digits % 10 ≠ 0) :
    String.ofList (Nat.toDigits 10 n) = d.browserText ↔ d.point ≤ 21 ∧ d.value = n := by
  have hpos : 0 < d.digits := by omega
  have hlength : ((Nat.toDigits 10 d.digits).length : Int) + d.exponent = d.point := rfl
  rw [value_eq_natCast_iff hd]
  constructor
  · intro h
    unfold browserText at h
    dsimp only at h
    rw [String.ofList_inj] at h
    by_cases hwhole : ((Nat.toDigits 10 d.digits).length : Int) ≤ d.point ∧ d.point ≤ 21
    · rw [if_pos hwhole] at h
      have hvalue := congrArg Number.digitsValue h
      rw [Json.digitsValue_append, Json.digitsValue_zeros, Json.digitsValue_toDigits,
        Json.digitsValue_toDigits, List.length_replicate, Nat.add_zero] at hvalue
      exact ⟨hwhole.2, _, by omega, hvalue⟩
    · -- every other text has a point or an exponent in it
      exfalso
      have hdigits := Json.areDigits_toDigits n
      have hmark : '.' ∈ Nat.toDigits 10 n ∨ 'e' ∈ Nat.toDigits 10 n := by
        rw [h, if_neg hwhole]
        split
        · simp
        · split
          · simp
          · simp [scientific]
      rcases hmark with hmem | hmem
      · exact absurd (hdigits _ hmem) (by decide)
      · exact absurd (hdigits _ hmem) (by decide)
  · rintro ⟨hpoint, j, hj, rfl⟩
    unfold browserText
    dsimp only
    rw [if_pos ⟨by omega, hpoint⟩, toDigits_mul_pow_ten hpos]
    congr 3
    omega

end Decimal

/-! ## The display -/

namespace Value

variable {negative : Bool} {r : Magnitude}

theorem toInt?_finite (h : r.isIntegral = true) :
    (Double.finite negative r).toInt? = some (if negative then -(r.floor : Int) else r.floor) := by
  rw [Double.toInt?, Double.isIntegral, if_pos h]
  rfl

theorem display_zero (hr : r.val = 0) : (Value.double (.finite negative r)).display = .ok "0" := by
  have hsig : r.significand = 0 := by
    have := r.val_eq
    omega
  have hvalue : r.value = (0 : Nat) := by
    rw [Magnitude.value, hsig, Nat.cast_zero, zero_mul]
  have hintegral : r.isIntegral = true := Magnitude.isIntegral_iff.mpr ⟨0, hvalue⟩
  have hfloor : r.floor = 0 := by
    rw [← Magnitude.floor_eq_value hintegral] at hvalue
    exact_mod_cast hvalue
  rw [display_double, toInt?_finite hintegral, hfloor]
  cases negative <;> rfl

theorem display_integer (hr : r.val ≠ 0) (h : r.isIntegral = true) :
    (Value.double (.finite negative r)).display =
      .ok (Double.signText negative ++ String.ofList (Nat.toDigits 10 r.floor)) := by
  have hfloor : 0 < r.floor := by
    have hvalue := Magnitude.value_pos hr
    rw [← Magnitude.floor_eq_value h] at hvalue
    exact_mod_cast hvalue
  have hcount : (Nat.toDigits 10 r.floor).length ≤ Number.digitLimit := by
    have hshort := Double.not_isOverlong_of_toInt? (@toInt?_finite negative r h)
    rw [Nat.length_toDigits_le_iff (by decide) (by decide), ← Nat.not_le]
    cases negative <;> simpa [IsOverlong] using hshort
  rw [display_double, toInt?_finite h]
  unfold intText
  cases negative
  · have hsign : ¬ (r.floor : Int) < 0 := by omega
    simp [hcount, hsign, Double.signText]
  · simp [hcount, hfloor, Double.signText]

theorem display_fraction (h : r.isIntegral = false) :
    (Value.double (.finite negative r)).display = .ok (Double.signText negative ++ r.text) := by
  have hint : (Double.finite negative r).toInt? = none := by
    rw [Double.toInt?, Double.isIntegral, h]
    rfl
  rw [display_double, hint]
  rfl

/-- What an operator on texts says of two values depends on their displays alone. -/
theorem holds_congr {o : Operator} {a a' b b' : Value}
    (ho : o ∈ [.contains, .notContains, .startsWith, .endsWith, .regex])
    (ha : a.display = a'.display) (hb : b.display = b'.display) : o.holds a b = o.holds a' b' := by
  simp only [List.mem_cons, List.not_mem_nil, or_false] at ho
  rcases ho with rfl | rfl | rfl | rfl | rfl <;> simp only [Operator.holds, Operator.lowered, ha, hb]

theorem display_eq_browserText_iff {d : Decimal} (hr : r.val ≠ 0) (h : r.IsShortest d) :
    (Value.double (.finite negative r)).display = .ok (Double.signText negative ++ d.browserText) ↔
      r.isIntegral = true ∧ d.point ≤ 21 ∧ d.value = r.value ∨
        r.isIntegral = false ∧ (-4 < d.point ∨ d.point ≤ -9) := by
  have hd := h.mod_ne_zero hr
  cases hintegral : r.isIntegral with
  | true =>
    rw [display_integer hr hintegral, Except.ok.injEq, String.append_right_inj,
      Decimal.browserText_eq_toDigits_iff hd, Magnitude.floor_eq_value hintegral]
    simp
  | false =>
    have hexponent := h.exponent_neg hr hintegral
    have hpoint := h.point_le hr hintegral
    rw [display_fraction hintegral, Except.ok.injEq, String.append_right_inj]
    obtain rfl := (Magnitude.isShortest_iff hr).mp h
    rw [Magnitude.text_eq_browserText_iff hr (by omega) hexponent hpoint]
    simp

/-- A browser has one text for each finite double. The display is that text exactly for zero, for
integers up to twenty-one digits that the shortest digits give in full, and for fractions other than
those with four to eight zeros behind the point. An operator that looks into the text of such a
number looks into the browser's. -/
theorem display_finite (negative : Bool) (r : Magnitude) :
    (∃! t, Double.IsBrowserText negative r t) ∧
      ((∃ t, Double.IsBrowserText negative r t ∧
          (Value.double (.finite negative r)).display = .ok t ∧
          ∀ o ∈ [Operator.contains, .notContains, .startsWith, .endsWith, .regex], ∀ v : Value,
            o.holds (.double (.finite negative r)) v = o.holds (.text t) v ∧
              o.holds v (.double (.finite negative r)) = o.holds v (.text t)) ↔
        r.val = 0 ∨ ∃ d, r.IsShortest d ∧
          (r.isIntegral = true ∧ d.point ≤ 21 ∧ d.value = r.value ∨
            r.isIntegral = false ∧ (-4 < d.point ∨ d.point ≤ -9))) := by
  have hasks : ∀ t, (Value.double (.finite negative r)).display = .ok t →
      ∀ o ∈ [Operator.contains, .notContains, .startsWith, .endsWith, .regex], ∀ v : Value,
        o.holds (.double (.finite negative r)) v = o.holds (.text t) v ∧
          o.holds v (.double (.finite negative r)) = o.holds v (.text t) := by
    intro t ht o ho v
    have hsame : (Value.double (.finite negative r)).display = (Value.text t).display := by
      rw [ht, display_text]
    exact ⟨holds_congr ho hsame rfl, holds_congr ho rfl hsame⟩
  by_cases hr : r.val = 0
  · have htext : ∀ t, Double.IsBrowserText negative r t ↔ t = "0" :=
      fun t => Double.isBrowserText_zero_iff hr
    constructor
    · simp only [htext, existsUnique_eq]
    · have hdisplay := @display_zero negative r hr
      simp only [hr, true_or, iff_true]
      exact ⟨"0", .zero hr, hdisplay, hasks "0" hdisplay⟩
  · have hshortest := Magnitude.isShortest_shortest hr
    have htext : ∀ t, Double.IsBrowserText negative r t ↔
        t = Double.signText negative ++ r.shortest.browserText :=
      fun t => Double.isBrowserText_iff hr hshortest
    constructor
    · simp only [htext, existsUnique_eq]
    · constructor
      · rintro ⟨t, ht, hdisplay, -⟩
        rw [(htext t).mp ht] at hdisplay
        exact Or.inr ⟨_, hshortest, (display_eq_browserText_iff hr hshortest).mp hdisplay⟩
      · rintro (hzero | ⟨d, hd, hlines⟩)
        · exact absurd hzero hr
        · have hdisplay := (@display_eq_browserText_iff negative r d hr hd).mpr hlines
          exact ⟨_, .shortest hr hd, hdisplay, hasks _ hdisplay⟩

/-- One tenth is displayed as in a browser, and searched for a point accordingly. -/
theorem display_finite_tenth : ∃ r t, Double.ofRatio false 1 10 = .finite false r ∧
    Double.IsBrowserText false r t ∧ (Value.double (.finite false r)).display = .ok t ∧
    Operator.contains.holds (.double (.finite false r)) (.text ".") =
      Operator.contains.holds (.text t) (.text ".") := by
  let r : Magnitude := ⟨4591870180066957722, by decide⟩
  have hr : r.val ≠ 0 := by decide
  have hlines : r.isIntegral = false ∧ (-4 < r.shortest.point ∨ r.shortest.point ≤ -9) := by
    decide +kernel
  obtain ⟨-, hiff⟩ := display_finite false r
  obtain ⟨t, ht, hdisplay, hasks⟩ :=
    hiff.mpr (Or.inr ⟨_, Magnitude.isShortest_shortest hr, Or.inr hlines⟩)
  have hcontains := (hasks .contains (by simp) (.text ".")).1
  exact ⟨r, t, by decide +kernel, ht, hdisplay, hcontains⟩

/-- The sextillion has all its digits, where a browser gives it an exponent. -/
theorem not_display_browser_sextillion : ∃ r, Double.ofNat (10 ^ 21) = .finite false r ∧
    Double.IsBrowserText false r "1e+21" ∧
    (Value.double (.finite false r)).display = .ok "1000000000000000000000" ∧
    (Value.double (.finite false r)).display ≠ .ok "1e+21" := by
  let r : Magnitude := ⟨4921056587992461136, by decide⟩
  have hr : r.val ≠ 0 := by decide
  have hshortest : r.shortest = ⟨1, 21⟩ := by decide +kernel
  have hbrowser : Double.IsBrowserText false r "1e+21" := by
    have htext : "1e+21" = Double.signText false ++ r.shortest.browserText := by
      rw [hshortest]
      decide +kernel
    rw [htext]
    exact .shortest hr (Magnitude.isShortest_shortest hr)
  have hdisplay : (Value.double (.finite false r)).display = .ok "1000000000000000000000" := by
    have hintegral : r.isIntegral = true := by decide +kernel
    have htext : Double.signText false ++ String.ofList (Nat.toDigits 10 r.floor) =
        "1000000000000000000000" := by decide +kernel
    rw [display_integer hr hintegral, htext]
  refine ⟨r, by decide +kernel, hbrowser, hdisplay, ?_⟩
  rw [hdisplay, Ne, Except.ok.injEq]
  decide +kernel

end Value

end Switchboard
