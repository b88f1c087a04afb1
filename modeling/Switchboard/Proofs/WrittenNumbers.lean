import Switchboard.Proofs.JsonReading
import Switchboard.Proofs.ShortestDecimals

/-!
# Written numbers

An integer is read back from its digits, and a finite double from its text: whatever way the text is
laid out, it stands for the shortest decimal, up to zeros at the end of its digits. The text of a
number ends where something follows that no numeral goes on with.
-/
namespace Switchboard.Json

open Number

/-! ## Digits -/

/-- Digits of ASCII. -/
def AreDigits (cs : List Char) : Prop := ∀ c ∈ cs, isAsciiDigit c = true

/-- What follows is no digit. -/
def EndsDigits (rest : List Char) : Prop := ∀ c ∈ rest.head?, isAsciiDigit c = false

theorem AreDigits.append {cs ds : List Char} (hc : AreDigits cs) (hd : AreDigits ds) :
    AreDigits (cs ++ ds) := by
  intro c h
  rcases List.mem_append.mp h with h | h
  · exact hc c h
  · exact hd c h

theorem areDigits_zeros (n : Nat) : AreDigits (List.replicate n '0') := by
  intro c h
  rw [List.eq_of_mem_replicate h]
  decide

theorem areDigits_toDigits (n : Nat) : AreDigits (Nat.toDigits 10 n) := by
  intro c h
  have hdigit := Nat.isDigit_of_mem_toDigits (by decide) (by decide) h
  simpa [isAsciiDigit, Char.isDigit, Char.le_def] using hdigit

variable {ds rest : List Char}

theorem takeWhile_digits (hd : AreDigits ds) (hr : EndsDigits rest) :
    (ds ++ rest).takeWhile isAsciiDigit = ds ∧ (ds ++ rest).dropWhile isAsciiDigit = rest := by
  rw [List.takeWhile_append_of_pos hd, List.dropWhile_append_of_pos hd]
  cases rest with
  | nil => simp
  | cons c rest => simp [hr c (by simp)]

theorem digitsValue_append (cs ds : List Char) :
    digitsValue (cs ++ ds) = digitsValue cs * 10 ^ ds.length + digitsValue ds := by
  have hfold : ∀ n, ds.foldl (fun n c => 10 * n + (Text.decimalValue? c).getD 0) n =
      n * 10 ^ ds.length + digitsValue ds := by
    induction ds with
    | nil => simp [digitsValue]
    | cons d ds ih =>
      intro n
      have h := ih ((Text.decimalValue? d).getD 0)
      simp only [digitsValue, List.foldl_cons, Nat.mul_zero, Nat.zero_add, List.length_cons]
      rw [ih, h, Nat.pow_succ]
      ring
  rw [digitsValue, List.foldl_append, hfold]
  rfl

theorem digitsValue_zeros (n : Nat) : digitsValue (List.replicate n '0') = 0 := by
  induction n with
  | zero => rfl
  | succ n ih =>
    rw [List.replicate_succ', digitsValue_append, ih]
    decide

/-- The value of a digit of ASCII. -/
theorem decimalValue?_of_isAsciiDigit {c : Char} (h : isAsciiDigit c = true) :
    Text.decimalValue? c = some (c.toNat - '0'.toNat) := by
  have hrange : '0' ≤ c ∧ c ≤ '9' := by simpa [isAsciiDigit] using h
  have hnine : c.toNat ≤ 57 := hrange.2
  rw [Text.decimalValue?_ascii (by omega), if_pos hrange]

theorem digitsValue_toDigits (n : Nat) : digitsValue (Nat.toDigits 10 n) = n := by
  have hfold : ∀ cs : List Char, AreDigits cs → ∀ m,
      cs.foldl (fun n c => 10 * n + (Text.decimalValue? c).getD 0) m = Nat.ofDigitChars 10 cs m := by
    intro cs
    induction cs with
    | nil =>
      intro _ m
      rfl
    | cons c cs ih =>
      intro hcs m
      have hc := decimalValue?_of_isAsciiDigit (hcs c List.mem_cons_self)
      have hrest := ih (fun d hd => hcs d (List.mem_cons_of_mem _ hd))
        (10 * m + (c.toNat - '0'.toNat))
      rw [List.foldl_cons, hc, Option.getD_some, hrest]
      rfl
  rw [digitsValue, hfold _ (areDigits_toDigits n), Nat.ofDigitChars_ten_toDigits]

/-- Digits that are read as the whole part of a numeral: a zero, or digits that a zero does not
lead. -/
structure AreWhole (ds : List Char) : Prop where
  digits : AreDigits ds
  led : ds = ['0'] ∨ ∃ c cs, ds = c :: cs ∧ c ≠ '0'

theorem spanInteger?_whole (hw : AreWhole ds) (hr : EndsDigits rest) :
    spanInteger? (ds ++ rest) = some (ds, rest) := by
  obtain ⟨htake, hdrop⟩ := takeWhile_digits hw.digits hr
  rcases hw.led with rfl | ⟨c, cs, rfl, hc⟩
  · rfl
  · unfold spanInteger?
    split
    · rename_i r heq
      simp only [List.cons_append, List.cons.injEq] at heq
      exact absurd heq.1 hc
    · rw [htake, hdrop]

/-- The digits of a natural are led by a zero only if it is zero. -/
theorem exists_toDigits_eq_cons {n : Nat} (hn : 0 < n) :
    ∃ c cs, Nat.toDigits 10 n = c :: cs ∧ c ≠ '0' := by
  rcases hds : Nat.toDigits 10 n with _ | ⟨c, cs⟩
  · exact absurd hds Nat.toDigits_ne_nil
  · refine ⟨c, cs, rfl, ?_⟩
    rintro rfl
    have hvalue := digitsValue_toDigits n
    have hlt := digitsValue_lt cs
    have hcount : cs.length < Double.digitCount n := by simp [Double.digitCount, hds]
    have hle := Double.ten_pow_le_of_lt_digitCount hn hcount
    have hzero : digitsValue ('0' :: cs) = digitsValue cs := by
      rw [← List.singleton_append, digitsValue_append]
      have h0 : digitsValue ['0'] = 0 := by decide
      rw [h0, Nat.zero_mul, Nat.zero_add]
    rw [hds, hzero] at hvalue
    omega

theorem areWhole_toDigits (n : Nat) : AreWhole (Nat.toDigits 10 n) := by
  refine ⟨areDigits_toDigits n, ?_⟩
  rcases Nat.eq_zero_or_pos n with rfl | hn
  · exact Or.inl rfl
  · exact Or.inr (exists_toDigits_eq_cons hn)

/-! ## Numerals -/

/-- What follows does not go on with a numeral. -/
def EndsNumeral (rest : List Char) : Prop :=
  ∀ c ∈ rest.head?, isAsciiDigit c = false ∧ c ≠ '.' ∧ c ≠ 'e' ∧ c ≠ 'E'

variable {negative : Bool}

theorem EndsNumeral.digits (h : EndsNumeral rest) : EndsDigits rest := fun c hc => (h c hc).1

theorem AreWhole.exists_cons (hw : AreWhole ds) :
    ∃ c cs, ds = c :: cs ∧ isAsciiDigit c = true := by
  rcases hw.led with rfl | ⟨c, cs, rfl, -⟩
  · exact ⟨'0', [], rfl, rfl⟩
  · exact ⟨c, cs, rfl, hw.digits c List.mem_cons_self⟩

/-- A numeral that begins with a digit is no name. -/
theorem dropWord?_of_whole (hw : AreWhole ds) (rest : List Char) :
    dropWord? "Infinity".toList (ds ++ rest) = none := by
  obtain ⟨c, cs, rfl, hc⟩ := hw.exists_cons
  have hne : ('I' == c) = false := by
    rw [beq_eq_false_iff_ne]
    rintro rfl
    exact absurd hc (by decide)
  unfold dropWord?
  simp [List.isPrefixOf, hne]

theorem spanFraction_of_head (h : ∀ c ∈ rest.head?, c ≠ '.') : spanFraction rest = ([], rest) := by
  unfold spanFraction
  split
  · rename_i r
    exact absurd rfl (h '.' (by simp))
  · rfl

theorem spanFraction_point (hd : AreDigits ds) (hne : ds ≠ []) (hr : EndsDigits rest) :
    spanFraction ('.' :: (ds ++ rest)) = (ds, rest) := by
  obtain ⟨htake, hdrop⟩ := takeWhile_digits hd hr
  have hsome : ds.isEmpty = false := by simpa using hne
  simp only [spanFraction, htake, hdrop, hsome, Bool.false_eq_true, if_false]

theorem spanPower_of_head (h : ∀ c ∈ rest.head?, c ≠ 'e' ∧ c ≠ 'E') :
    spanPower rest = (none, rest) := by
  unfold spanPower
  split
  · rfl
  · rename_i c r
    obtain ⟨he, hE⟩ := h c (by simp)
    rw [if_neg (by simp [he, hE])]

/-- An exponent is written with its sign. -/
theorem spanPower_exponent {e : Int} (hd : AreDigits ds) (hne : ds ≠ [])
    (hv : digitsValue ds = e.natAbs) (hr : EndsDigits rest) :
    spanPower ('e' :: (if e < 0 then '-' else '+') :: (ds ++ rest)) = (some e, rest) := by
  obtain ⟨htake, hdrop⟩ := takeWhile_digits hd hr
  have hsign : spanSign ((if e < 0 then '-' else '+') :: (ds ++ rest)) =
      (decide (e < 0), ds ++ rest) := by
    by_cases he : e < 0
    · simp [he, spanSign]
    · simp [he, spanSign]
  unfold spanPower
  dsimp only
  rw [if_pos (Or.inl rfl), hsign]
  dsimp only
  rw [htake, hdrop]
  split
  · exact absurd rfl hne
  · rw [hv]
    by_cases he : e < 0
    · simp only [he, decide_true, if_true, Prod.mk.injEq, and_true, Option.some.injEq]
      omega
    · simp only [he, decide_false, Bool.false_eq_true, if_false, Prod.mk.injEq, and_true,
        Option.some.injEq]
      omega

theorem readMagnitude?_integer (hw : AreWhole ds) (hlength : ds.length ≤ digitLimit)
    (hr : EndsNumeral rest) : readMagnitude? negative (ds ++ rest) =
      some (.int (if negative then -(digitsValue ds : Int) else digitsValue ds), rest) := by
  unfold readMagnitude?
  rw [dropWord?_of_whole hw, spanInteger?_whole hw hr.digits]
  simp only [Option.bind_eq_bind, Option.bind_some]
  rw [spanFraction_of_head fun c hc => (hr c hc).2.1]
  dsimp only
  rw [spanPower_of_head fun c hc => (hr c hc).2.2]
  dsimp only
  rw [if_pos hlength]
  rfl

theorem readMagnitude?_fraction {fs after : List Char} {e : Option Int} (hw : AreWhole ds)
    (hf : AreDigits fs) (hne : fs ≠ []) (hr : EndsDigits rest)
    (hp : spanPower rest = (e, after)) :
    readMagnitude? negative (ds ++ '.' :: (fs ++ rest)) =
      some (.double (Double.ofDecimal negative (digitsValue (ds ++ fs)) (e.getD 0 - fs.length)),
        after) := by
  have hpoint : EndsDigits ('.' :: (fs ++ rest)) := by
    intro c hc
    obtain rfl : '.' = c := by simpa using hc
    rfl
  unfold readMagnitude?
  rw [dropWord?_of_whole hw, spanInteger?_whole hw hpoint]
  simp only [Option.bind_eq_bind, Option.bind_some, spanFraction_point hf hne hr, hp]
  rfl

theorem readMagnitude?_power {after : List Char} {e : Int} (hw : AreWhole ds)
    (hr : ∀ c ∈ rest.head?, isAsciiDigit c = false ∧ c ≠ '.')
    (hp : spanPower rest = (some e, after)) :
    readMagnitude? negative (ds ++ rest) =
      some (.double (Double.ofDecimal negative (digitsValue ds) e), after) := by
  unfold readMagnitude?
  rw [dropWord?_of_whole hw, spanInteger?_whole hw fun c hc => (hr c hc).1]
  simp only [Option.bind_eq_bind, Option.bind_some, spanFraction_of_head fun c hc => (hr c hc).2, hp]
  rfl

/-! ## Magnitudes of doubles -/

section Layouts

variable {n : Nat} {e : Int} {r : Magnitude}

/-- The whole part of a decimal: its leading digits, with zeros where there are no more. -/
theorem areWhole_take_toDigits (hn : 0 < n) {k : Nat} (hk : 0 < k) {zs : List Char}
    (hz : AreDigits zs) : AreWhole ((Nat.toDigits 10 n).take k ++ zs) := by
  obtain ⟨c, cs, hcons, hc⟩ := exists_toDigits_eq_cons hn
  obtain ⟨j, rfl⟩ : ∃ j, k = j + 1 := ⟨k - 1, by omega⟩
  constructor
  · apply AreDigits.append _ hz
    intro c hc
    exact areDigits_toDigits n c (List.mem_of_mem_take hc)
  · right
    exact ⟨c, cs.take j ++ zs, by simp [hcons], hc⟩

/-- Zeros between the point and the digits. -/
theorem readMagnitude?_leading {z : Nat} (hz : e = -((z : Int) + (Nat.toDigits 10 n).length))
    (hr : EndsNumeral rest) (hfinite : Double.ofDecimal negative n e = .finite negative r) :
    readMagnitude? negative ('0' :: '.' :: (List.replicate z '0' ++ Nat.toDigits 10 n ++ rest)) =
      some (.double (.finite negative r), rest) := by
  have hpower : spanPower rest = (none, rest) := spanPower_of_head fun c hc => (hr c hc).2.2
  have hwhole : AreWhole ['0'] := ⟨areDigits_zeros 1, Or.inl rfl⟩
  have hdigits := (areDigits_zeros z).append (areDigits_toDigits n)
  have hne : List.replicate z '0' ++ Nat.toDigits 10 n ≠ [] := by
    simp [Nat.toDigits_ne_nil]
  have hread := @readMagnitude?_fraction _ _ negative _ _ none hwhole hdigits hne hr.digits hpower
  have hvalue : digitsValue (['0'] ++ (List.replicate z '0' ++ Nat.toDigits 10 n)) = n := by
    have hzeros : ['0'] ++ (List.replicate z '0' ++ Nat.toDigits 10 n) =
        List.replicate (z + 1) '0' ++ Nat.toDigits 10 n := by
      rw [List.replicate_succ]
      rfl
    rw [hzeros, digitsValue_append, digitsValue_zeros, digitsValue_toDigits, Nat.zero_mul,
      Nat.zero_add]
  have hexponent : (none : Option Int).getD 0 -
      (List.replicate z '0' ++ Nat.toDigits 10 n).length = e := by
    rw [List.length_append, List.length_replicate, hz, Option.getD_none]
    push_cast
    ring
  rw [hvalue, hexponent, hfinite] at hread
  exact hread

/-- Zeros between the digits and the point. -/
theorem readMagnitude?_trailing (hn : 0 < n) {z : Nat} (hz : e = z) (hr : EndsNumeral rest)
    (hfinite : Double.ofDecimal negative n e = .finite negative r) :
    readMagnitude? negative (Nat.toDigits 10 n ++ List.replicate z '0' ++ ['.', '0'] ++ rest) =
      some (.double (.finite negative r), rest) := by
  have hpower : spanPower rest = (none, rest) := spanPower_of_head fun c hc => (hr c hc).2.2
  have hwhole := areWhole_take_toDigits hn (Nat.length_toDigits_pos (b := 10) (n := n))
    (areDigits_zeros z)
  rw [List.take_length] at hwhole
  have hread := @readMagnitude?_fraction _ _ negative ['0'] _ none hwhole (areDigits_zeros 1)
    (List.cons_ne_nil _ _) hr.digits hpower
  have hvalue : digitsValue (Nat.toDigits 10 n ++ List.replicate z '0' ++ ['0']) =
      n * 10 ^ (z + 1) := by
    have hzeros : List.replicate z '0' ++ ['0'] = List.replicate (z + 1) '0' :=
      List.replicate_succ'.symm
    rw [List.append_assoc, hzeros, digitsValue_append, digitsValue_zeros, digitsValue_toDigits,
      List.length_replicate, Nat.add_zero]
  have hexponent : (none : Option Int).getD 0 - (['0'] : List Char).length =
      e - ((z + 1 : Nat) : Int) := by
    rw [hz, Option.getD_none]
    push_cast
    simp
  rw [hvalue, hexponent, Double.ofDecimal_mul_pow_ten, hfinite] at hread
  rw [List.append_assoc]
  exact hread

/-- The point among the digits. -/
theorem readMagnitude?_among (hn : 0 < n) {k : Nat} (hk : 0 < k)
    (hlt : k < (Nat.toDigits 10 n).length) {p : Option Int} {after : List Char}
    (hr : EndsDigits rest) (hp : spanPower rest = (p, after))
    (he : p.getD 0 - ((Nat.toDigits 10 n).length - k : Nat) = e)
    (hfinite : Double.ofDecimal negative n e = .finite negative r) :
    readMagnitude? negative
        ((Nat.toDigits 10 n).take k ++ '.' :: ((Nat.toDigits 10 n).drop k ++ rest)) =
      some (.double (.finite negative r), after) := by
  have hnone : AreDigits [] := by simp [AreDigits]
  have hwhole := areWhole_take_toDigits hn hk hnone
  rw [List.append_nil] at hwhole
  have hdigits : AreDigits ((Nat.toDigits 10 n).drop k) := by
    intro c hc
    exact areDigits_toDigits n c (List.mem_of_mem_drop hc)
  have hne : (Nat.toDigits 10 n).drop k ≠ [] := by
    rw [← List.length_pos_iff, List.length_drop]
    omega
  have hread := @readMagnitude?_fraction _ _ negative _ _ p hwhole hdigits hne hr hp
  rw [List.take_append_drop, List.length_drop, digitsValue_toDigits, he, hfinite] at hread
  exact hread

/-- One digit without a point. -/
theorem readMagnitude?_single {after : List Char}
    (hr : ∀ c ∈ rest.head?, isAsciiDigit c = false ∧ c ≠ '.') (hp : spanPower rest = (some e, after))
    (hfinite : Double.ofDecimal negative n e = .finite negative r) :
    readMagnitude? negative (Nat.toDigits 10 n ++ rest) =
      some (.double (.finite negative r), after) := by
  have hread := @readMagnitude?_power _ _ negative _ _ (areWhole_toDigits n) hr hp
  rwa [digitsValue_toDigits, hfinite] at hread

/-- The point after the first digit, if there are more, and the exponent of that digit, written with
two digits or more. -/
theorem readMagnitude?_scientific (hn : 0 < n) {point : Int}
    (hpoint : ((Nat.toDigits 10 n).length : Int) + e = point) (hr : EndsNumeral rest)
    (hfinite : Double.ofDecimal negative n e = .finite negative r) :
    readMagnitude? negative ((Nat.toDigits 10 n).take 1 ++
        (if (Nat.toDigits 10 n).length = 1 then [] else '.' :: (Nat.toDigits 10 n).drop 1) ++
        'e' :: (if point - 1 < 0 then '-' else '+') ::
          (List.replicate (2 - ((Nat.toDigits 10 (point - 1).natAbs).length : Int)).toNat '0' ++
            Nat.toDigits 10 (point - 1).natAbs) ++ rest) =
      some (.double (.finite negative r), rest) := by
  have hlength := Nat.length_toDigits_pos (b := 10) (n := n)
  generalize hes : List.replicate (2 - ((Nat.toDigits 10 (point - 1).natAbs).length : Int)).toNat
    '0' ++ Nat.toDigits 10 (point - 1).natAbs = es
  have hdigits : AreDigits es := by
    rw [← hes]
    exact (areDigits_zeros _).append (areDigits_toDigits _)
  have hvalue : digitsValue es = (point - 1).natAbs := by
    rw [← hes, digitsValue_append, digitsValue_zeros, digitsValue_toDigits, Nat.zero_mul,
      Nat.zero_add]
  have hne : es ≠ [] := by
    rw [← hes]
    simp [Nat.toDigits_ne_nil]
  have hmark := spanPower_exponent hdigits hne hvalue hr.digits
  have hend : ∀ c ∈ ('e' :: (if point - 1 < 0 then '-' else '+') :: (es ++ rest)).head?,
      isAsciiDigit c = false ∧ c ≠ '.' := by
    intro c hc
    obtain rfl : 'e' = c := by simpa using hc
    decide
  by_cases hsingle : (Nat.toDigits 10 n).length = 1
  · rw [if_pos hsingle, List.append_nil, List.append_assoc, List.take_of_length_le hsingle.le]
    apply readMagnitude?_single hend _ hfinite
    rw [hmark]
    congr 2
    omega
  · rw [if_neg hsingle, List.append_assoc, List.append_assoc, List.cons_append]
    apply readMagnitude?_among hn Nat.one_pos (by omega) (fun c hc => (hend c hc).1) hmark _ hfinite
    rw [Option.getD_some]
    omega

end Layouts

/-- The text of a magnitude stands for the magnitude, whatever sign it has. -/
theorem readMagnitude?_text (r : Magnitude) (hr : EndsNumeral rest) :
    readMagnitude? negative (r.text.toList ++ rest) = some (.double (.finite negative r), rest) := by
  have hpower : spanPower rest = (none, rest) := spanPower_of_head fun c hc => (hr c hc).2.2
  unfold Magnitude.text
  by_cases hrank : r.val = 0
  · have hzero : Double.ofDecimal negative 0 (-1) = .finite negative r := by
      have hr0 : r = 0 := Fin.ext hrank
      rw [hr0]
      rfl
    rw [if_pos hrank]
    exact @readMagnitude?_leading _ negative 0 _ r 0 rfl hr hzero
  · rw [if_neg hrank]
    have hshortest := Magnitude.isReadFrom_shortest hrank
    generalize r.shortest = d at hshortest
    have hfinite : Double.ofDecimal negative d.digits d.exponent = .finite negative r := by
      apply Double.ofDecimal_sign
      simpa [Magnitude.isReadFrom] using hshortest
    have hpos : 0 < d.digits := by
      by_contra hno
      rw [Nat.eq_zero_of_not_pos hno] at hfinite
      simp only [Double.ofDecimal, if_true, Double.finite.injEq, true_and] at hfinite
      exact hrank (by rw [← hfinite]; rfl)
    have hlength := Nat.length_toDigits_pos (b := 10) (n := d.digits)
    dsimp only
    rw [String.toList_ofList]
    by_cases hrange : -4 < ((Nat.toDigits 10 d.digits).length : Int) + d.exponent ∧
        ((Nat.toDigits 10 d.digits).length : Int) + d.exponent ≤ 16
    · rw [if_pos hrange]
      by_cases hbelow : ((Nat.toDigits 10 d.digits).length : Int) + d.exponent ≤ 0
      · rw [if_pos hbelow]
        exact readMagnitude?_leading (by omega) hr hfinite
      · rw [if_neg hbelow]
        by_cases hexponent : 0 ≤ d.exponent
        · rw [if_pos hexponent]
          exact readMagnitude?_trailing hpos (by omega) hr hfinite
        · rw [if_neg hexponent, List.append_assoc, List.cons_append]
          apply readMagnitude?_among hpos (by omega) (by omega) hr.digits hpower _ hfinite
          rw [Option.getD_none]
          omega
    · rw [if_neg hrange]
      exact readMagnitude?_scientific hpos rfl hr hfinite

/-! ## The characters of numerals -/

/-- The characters are those of a numeral, and a digit comes first. -/
structure AreNumeral (cs : List Char) : Prop where
  led : ∃ c r, cs = c :: r ∧ isAsciiDigit c = true
  chars : ∀ c ∈ cs, isAsciiDigit c = true ∨ c ∈ ['.', 'e', '-', '+']

theorem AreNumeral.of_digits (hd : AreDigits ds) (hne : ds ≠ []) : AreNumeral ds := by
  obtain ⟨c, cs, rfl⟩ := List.exists_cons_of_ne_nil hne
  exact ⟨⟨c, cs, rfl, hd c List.mem_cons_self⟩, fun d h => Or.inl (hd d h)⟩

theorem AreNumeral.append_digits (h : AreNumeral ds) (hr : AreDigits rest) :
    AreNumeral (ds ++ rest) := by
  obtain ⟨c, r, rfl, hc⟩ := h.led
  refine ⟨⟨c, r ++ rest, rfl, hc⟩, ?_⟩
  intro d hd
  rcases List.mem_append.mp hd with hd | hd
  · exact h.chars d hd
  · exact Or.inl (hr d hd)

theorem AreNumeral.append_mark (h : AreNumeral ds) {c : Char} (hc : c ∈ ['.', 'e', '-', '+']) :
    AreNumeral (ds ++ [c]) := by
  obtain ⟨d, r, rfl, hd⟩ := h.led
  refine ⟨⟨d, r ++ [c], rfl, hd⟩, ?_⟩
  intro b hb
  rcases List.mem_append.mp hb with hb | hb
  · exact h.chars b hb
  · exact Or.inr (List.mem_singleton.mp hb ▸ hc)

theorem AreNumeral.append_fraction {fs : List Char} (h : AreNumeral ds) (hf : AreDigits fs) :
    AreNumeral (ds ++ '.' :: fs) := by
  have hpointed := (h.append_mark (c := '.') (by decide)).append_digits hf
  rwa [List.append_assoc] at hpointed

theorem AreNumeral.append_power (h : AreNumeral ds) (e : Int) {es : List Char} (he : AreDigits es) :
    AreNumeral (ds ++ 'e' :: (if e < 0 then '-' else '+') :: es) := by
  have hsign : (if e < 0 then '-' else '+') ∈ ['.', 'e', '-', '+'] := by
    split_ifs <;> decide
  have hmarked := ((h.append_mark (c := 'e') (by decide)).append_mark hsign).append_digits he
  rwa [List.append_assoc, List.append_assoc] at hmarked

theorem areNumeral_text (r : Magnitude) : AreNumeral r.text.toList := by
  have hzeros := areDigits_zeros
  have hzero : AreNumeral ['0'] := .of_digits (hzeros 1) (List.cons_ne_nil _ _)
  unfold Magnitude.text
  by_cases hrank : r.val = 0
  · rw [if_pos hrank]
    exact hzero.append_fraction (hzeros 1)
  · rw [if_neg hrank]
    have hdigits := areDigits_toDigits r.shortest.digits
    have hlength := Nat.length_toDigits_pos (b := 10) (n := r.shortest.digits)
    dsimp only
    rw [String.toList_ofList]
    generalize Nat.toDigits 10 r.shortest.digits = ds at *
    generalize r.shortest.exponent = e
    generalize hpoint : (ds.length : Int) + e = point
    have hne : ds ≠ [] := List.length_pos_iff.mp hlength
    have hdrop : ∀ k, AreDigits (ds.drop k) := fun k c h => hdigits c (List.mem_of_mem_drop h)
    have htake : ∀ k, 0 < k → AreNumeral (ds.take k) := by
      intro k hk
      apply AreNumeral.of_digits fun c h => hdigits c (List.mem_of_mem_take h)
      rw [← List.length_pos_iff, List.length_take]
      omega
    by_cases hrange : -4 < point ∧ point ≤ 16
    · rw [if_pos hrange]
      by_cases hbelow : point ≤ 0
      · rw [if_pos hbelow]
        exact hzero.append_fraction ((hzeros _).append hdigits)
      · rw [if_neg hbelow]
        by_cases hexponent : 0 ≤ e
        · rw [if_pos hexponent]
          have hwhole := (AreNumeral.of_digits hdigits hne).append_digits (hzeros e.toNat)
          exact hwhole.append_fraction (hzeros 1)
        · rw [if_neg hexponent]
          exact (htake point.toNat (by omega)).append_fraction (hdrop _)
    · rw [if_neg hrange]
      apply AreNumeral.append_power _ _ ((hzeros _).append (areDigits_toDigits _))
      by_cases hsingle : ds.length = 1
      · rw [if_pos hsingle, List.append_nil]
        exact htake 1 Nat.one_pos
      · rw [if_neg hsingle]
        exact (htake 1 Nat.one_pos).append_fraction (hdrop 1)

theorem areNumeral_toDigits (n : Nat) : AreNumeral (Nat.toDigits 10 n) :=
  .of_digits (areDigits_toDigits n) Nat.toDigits_ne_nil

/-- The sign is read before the magnitude. -/
theorem readNumber?_signed (h : AreNumeral ds) (rest : List Char) :
    readNumber? ((if negative then '-' :: ds else ds) ++ rest) =
      readMagnitude? negative (ds ++ rest) := by
  cases negative with
  | true => rfl
  | false =>
    obtain ⟨c, r, rfl, hc⟩ := h.led
    simp only [Bool.false_eq_true, if_false, List.cons_append]
    unfold readNumber?
    split
    · rename_i heq
      rw [(List.cons.inj heq).1] at hc
      exact absurd hc (by decide)
    · rfl

end Switchboard.Json
