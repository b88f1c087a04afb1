import Switchboard.Pattern.Dialect
import Switchboard.Proofs.BrowserTokens

/-!
# Patterns respelled piece by piece

The three passes over a pattern do not know its pieces. Together they respell whatever looks like
one of the three spellings, but for a group whose bracket has a backslash before it. So they give
the pieces respelled exactly if no such look-alike stands within a set or an escape, and no named
group stands behind an escaped backslash.
-/
namespace Switchboard.Pattern.Browser

/-- A reference starts here, whose name may have word characters of every script. -/
def StartsReference (cs : List Char) : Prop :=
  ∃ name ≠ [], (∀ c ∈ name, Text.isWord c = true) ∧ referenceText name <+: cs

/-- The set that excludes nothing starts here. -/
def StartsAnything (cs : List Char) : Prop := "[^]".toList <+: cs

/-- What starts here is respelled; `escaped` tells whether a backslash stands before. -/
def Spelled (escaped : Bool) (cs : List Char) : Prop :=
  escaped = false ∧ StartsGroup cs ∨ StartsReference cs ∨ StartsAnything cs

/-- Somewhere in the text something is spelled. -/
def Hides : Bool → List Char → Prop
  | _, [] => False
  | escaped, c :: cs => Spelled escaped (c :: cs) ∨ Hides (c = '\\') cs

/-- The three passes one after the other, over a text that a backslash may stand before. -/
def respell (escaped : Bool) (cs : List Char) : List Char :=
  respellAnything (respellBackrefs 0 (markNamedGroups escaped cs))

/-- The pieces respelled. -/
def respelledText (ts : List Token) : List Char := ts.flatMap Token.respelled

/-- The pieces begin with one at which the passes go wrong. -/
inductive Misread : List Token → Prop
  /-- A named group behind an escaped backslash is left as it is. -/
  | group {ts : List Token} (h : StartsGroup (textOf ts)) : Misread (.escape '\\' :: ts)
  /-- An escaped backslash is taken for that of a reference. -/
  | reference {ts : List Token} (h : StartsReference ('\\' :: textOf ts)) :
    Misread (.escape '\\' :: ts)
  /-- An escaped letter is taken for a reference, to a name that is not of ASCII. -/
  | name {ts : List Token} (h : StartsReference ('\\' :: 'k' :: textOf ts)) :
    Misread (.escape 'k' :: ts)
  /-- An escaped bracket is taken for that of the set that excludes nothing. -/
  | anything {ts : List Token} (h : StartsAnything ('[' :: textOf ts)) : Misread (.escape '[' :: ts)
  /-- Something is spelled in a set. -/
  | set {body : List Char} {ts : List Token} (other : body ≠ ['^'])
    (h : Hides false (Token.set body).text) : Misread (.set body :: ts)

/-- The passes go wrong at none of the pieces. -/
def Clear (ts : List Token) : Prop := ∀ us, us <:+ ts → ¬ Misread us

/-! ## Groups -/

theorem startsGroup_iff {cs : List Char} :
    StartsGroup cs ↔ ∃ rest, cs = '(' :: '?' :: '<' :: rest ∧
      (∀ tail, rest ≠ '=' :: tail) ∧ ∀ tail, rest ≠ '!' :: tail := by
  constructor
  · rintro ⟨⟨rest, hrest⟩, heq, hne⟩
    refine ⟨rest, hrest.symm, ?_, ?_⟩
    · rintro tail rfl
      exact heq ⟨tail, hrest⟩
    · rintro tail rfl
      exact hne ⟨tail, hrest⟩
  · rintro ⟨rest, rfl, heq, hne⟩
    refine ⟨⟨rest, rfl⟩, ?_, ?_⟩
    · rintro ⟨tail, htail⟩
      exact heq tail (by simpa using htail.symm)
    · rintro ⟨tail, htail⟩
      exact hne tail (by simpa using htail.symm)

theorem markNamedGroups_group {rest : List Char} (h : StartsGroup ("(?<".toList ++ rest))
    (escaped : Bool) :
    markNamedGroups escaped ("(?<".toList ++ rest) =
      (if escaped then "(?<".toList else "(?P<".toList) ++ markNamedGroups false rest := by
  obtain ⟨r, hr, heq, hne⟩ := startsGroup_iff.mp h
  obtain rfl : rest = r := by simpa using hr
  exact markNamedGroups.eq_4 escaped rest heq hne

theorem markNamedGroups_cons {escaped : Bool} {c : Char} {cs : List Char}
    (h : ¬ (escaped = false ∧ StartsGroup (c :: cs))) :
    markNamedGroups escaped (c :: cs) = c :: markNamedGroups (c = '\\') cs := by
  by_cases hopen : ∃ rest, c :: cs = '(' :: '?' :: '<' :: rest
  · obtain ⟨rest, hrest⟩ := hopen
    obtain ⟨rfl, rfl⟩ := List.cons.inj hrest
    have hrest : markNamedGroups false ('?' :: '<' :: rest) =
        '?' :: '<' :: markNamedGroups false rest := by
      simp [markNamedGroups]
    by_cases hgroup : StartsGroup ('(' :: '?' :: '<' :: rest)
    · have hescaped : escaped = true := by simpa [hgroup] using h
      have hmarked := markNamedGroups_group hgroup escaped
      rw [if_pos hescaped] at hmarked
      exact hmarked.trans (congrArg ('(' :: ·) hrest.symm)
    · have hbehind : (∃ tail, rest = '=' :: tail) ∨ ∃ tail, rest = '!' :: tail := by
        apply Classical.byContradiction
        intro hno
        rw [not_or, not_exists, not_exists] at hno
        exact hgroup (startsGroup_iff.mpr ⟨rest, rfl, hno.1, hno.2⟩)
      rcases hbehind with ⟨tail, rfl⟩ | ⟨tail, rfl⟩ <;> simp [markNamedGroups]
  · exact markNamedGroups.eq_5 escaped c cs fun rest hc hcs => hopen ⟨rest, by rw [hc, hcs]⟩

theorem not_startsGroup {c : Char} (h : c ≠ '(') (cs : List Char) : ¬ StartsGroup (c :: cs) := by
  intro hgroup
  obtain ⟨rest, hrest, -⟩ := startsGroup_iff.mp hgroup
  exact h (List.cons.inj hrest).1

theorem markNamedGroups_append {w : List Char} {c : Char} (h : '(' ∉ w) (hc : c ≠ '(')
    (escaped : Bool) (rest : List Char) :
    markNamedGroups escaped (w ++ c :: rest) = w ++ c :: markNamedGroups (c = '\\') rest := by
  induction w generalizing escaped with
  | nil => exact markNamedGroups_cons fun h => not_startsGroup hc _ h.2
  | cons d w ih =>
    obtain ⟨hd, hw⟩ := not_or.mp (mt List.mem_cons.mpr h)
    rw [List.cons_append, markNamedGroups_cons fun h => not_startsGroup (Ne.symm hd) _ h.2, ih hw,
      List.cons_append]

/-- The first character stays the same. -/
theorem markNamedGroups_eq_cons (escaped : Bool) (c : Char) (cs : List Char) :
    ∃ marked, markNamedGroups escaped (c :: cs) = c :: marked := by
  by_cases h : escaped = false ∧ StartsGroup (c :: cs)
  · obtain ⟨rest, hrest⟩ := h.2.1
    have hmarked := markNamedGroups_group (hrest ▸ h.2) escaped
    rw [hrest, if_neg (by simp [h.1])] at hmarked
    obtain rfl : '(' = c := (List.cons.inj hrest).1
    exact ⟨_, hmarked⟩
  · exact ⟨_, markNamedGroups_cons h⟩

/-- What has no bracket of a group is found where it was. -/
theorem prefix_markNamedGroups {w : List Char} (h : '(' ∉ w) (escaped : Bool) (cs : List Char) :
    w <+: markNamedGroups escaped cs ↔ w <+: cs := by
  induction w generalizing escaped cs with
  | nil => simp
  | cons d w ih =>
    obtain ⟨hd, hw⟩ := not_or.mp (mt List.mem_cons.mpr h)
    cases cs with
    | nil => simp [markNamedGroups]
    | cons c cs =>
      by_cases hc : c = '('
      · obtain ⟨marked, hmarked⟩ := markNamedGroups_eq_cons escaped c cs
        have hdc : d ≠ c := fun hdc => hd (hdc.trans hc).symm
        simp [hmarked, List.cons_prefix_cons, hdc]
      · rw [markNamedGroups_cons fun h => not_startsGroup hc _ h.2, List.cons_prefix_cons,
          List.cons_prefix_cons, ih hw]

/-! ## References -/

theorem toNat_lt_of_isAlphanum {c : Char} (h : c.isAlphanum = true) : c.toNat < 0x80 := by
  have hupper : c.isUpper = true → c.toNat ≤ 'Z'.toNat := fun h => (of_decide_eq_true h).2
  have hlower : c.isLower = true → c.toNat ≤ 'z'.toNat := fun h =>
    of_decide_eq_true (Bool.and_eq_true_iff.mp h).2
  have hdigit : c.isDigit = true → c.toNat ≤ '9'.toNat := fun h =>
    of_decide_eq_true (Bool.and_eq_true_iff.mp h).2
  rcases Bool.or_eq_true_iff.mp h with h | h
  · rcases Bool.or_eq_true_iff.mp h with h | h
    · exact Nat.lt_of_le_of_lt (hupper h) (by decide)
    · exact Nat.lt_of_le_of_lt (hlower h) (by decide)
  · exact Nat.lt_of_le_of_lt (hdigit h) (by decide)

theorem isWord_of_isAsciiWord {c : Char} (h : Text.isAsciiWord c = true) : Text.isWord c = true := by
  unfold Text.isAsciiWord at h
  unfold Text.isWord Text.isLetterOrNumber
  rcases Bool.or_eq_true_iff.mp h with h | h
  · rw [if_pos (toNat_lt_of_isAlphanum h), h, Bool.true_or]
  · rw [h, Bool.or_true]

theorem notMem_of_word {name : List Char} (word : ∀ c ∈ name, Text.isWord c = true) {c : Char}
    (hc : Text.isWord c = false) : c ∉ name := by
  intro hmem
  exact Bool.false_ne_true (hc.symm.trans (word c hmem))

theorem namedBackref?_reference {name : List Char} (named : name ≠ [])
    (word : ∀ c ∈ name, Text.isWord c = true) (rest : List Char) :
    namedBackref? (referenceText name ++ rest) = some name := by
  have hcloses : Text.isWord '>' = false := by decide
  have htake : (name ++ '>' :: rest).takeWhile Text.isWord = name := by
    simp [List.takeWhile_append_of_pos word, hcloses]
  have hdrop : (name ++ '>' :: rest).dropWhile Text.isWord = '>' :: rest := by
    simp [List.dropWhile_append_of_pos word, hcloses]
  have htext : referenceText name ++ rest = '\\' :: 'k' :: '<' :: (name ++ '>' :: rest) := by
    simp [referenceText]
  rw [htext, namedBackref?, htake, hdrop]
  cases name with
  | nil => exact absurd rfl named
  | cons c name => rfl

theorem startsReference_of_namedBackref? {cs name : List Char} (h : namedBackref? cs = some name) :
    StartsReference cs := by
  unfold namedBackref? at h
  split at h
  · rename_i cs
    split at h
    · cases h
    · rename_i rest hdrop hnamed
      have hsplit := List.takeWhile_append_dropWhile (p := Text.isWord) (l := cs)
      refine ⟨cs.takeWhile Text.isWord, hnamed,
        fun c hc => List.all_eq_true.mp List.all_takeWhile c hc, rest, ?_⟩
      rw [hdrop] at hsplit
      simp [referenceText, hsplit]
    · cases h
  · cases h

theorem startsReference_iff {cs : List Char} :
    StartsReference cs ↔ ∃ name ≠ [], (∀ c ∈ name, Text.isWord c = true) ∧
      ∃ rest, cs = '\\' :: 'k' :: '<' :: (name ++ '>' :: rest) := by
  have hprefix : ∀ name : List Char, referenceText name <+: cs ↔
      ∃ rest, cs = '\\' :: 'k' :: '<' :: (name ++ '>' :: rest) := by
    intro name
    simp [List.IsPrefix, referenceText, eq_comm]
  simp only [StartsReference, hprefix]

theorem not_startsReference {c : Char} (h : c ≠ '\\') (cs : List Char) :
    ¬ StartsReference (c :: cs) := by
  rintro ⟨name, -, -, rest, hrest⟩
  exact h (List.cons.inj hrest).1.symm

theorem respellBackrefs_cons {c : Char} {cs : List Char} (h : ¬ StartsReference (c :: cs)) :
    respellBackrefs 0 (c :: cs) = c :: respellBackrefs 0 cs := by
  have hnone : namedBackref? (c :: cs) = none := by
    cases hname : namedBackref? (c :: cs) with
    | none => rfl
    | some name => exact absurd (startsReference_of_namedBackref? hname) h
  rw [respellBackrefs, hnone]

theorem respellBackrefs_skip (w rest : List Char) :
    respellBackrefs w.length (w ++ rest) = respellBackrefs 0 rest := by
  induction w with
  | nil => rfl
  | cons c w ih => exact ih

theorem respellBackrefs_reference {name : List Char} (named : name ≠ [])
    (word : ∀ c ∈ name, Text.isWord c = true) (rest : List Char) :
    respellBackrefs 0 (referenceText name ++ rest) =
      "(?P=".toList ++ (name ++ [')']) ++ respellBackrefs 0 rest := by
  have hname := namedBackref?_reference named word rest
  have hskip := respellBackrefs_skip ("k<".toList ++ (name ++ ['>'])) rest
  have hlength : ("k<".toList ++ (name ++ ['>'])).length = name.length + 3 := by simp
  have htext : referenceText name ++ rest = '\\' :: ("k<".toList ++ (name ++ ['>']) ++ rest) := rfl
  rw [hlength] at hskip
  rw [htext] at hname ⊢
  rw [respellBackrefs, hname]
  simp only [hskip]
  simp

theorem respellBackrefs_append {w : List Char} (h : '\\' ∉ w) (rest : List Char) :
    respellBackrefs 0 (w ++ rest) = w ++ respellBackrefs 0 rest := by
  induction w with
  | nil => rfl
  | cons c w ih =>
    obtain ⟨hc, hw⟩ := not_or.mp (mt List.mem_cons.mpr h)
    rw [List.cons_append, respellBackrefs_cons (not_startsReference (Ne.symm hc) _), ih hw,
      List.cons_append]

/-- What has neither a bracket of a group nor a backslash is found where it was. -/
theorem prefix_respellBackrefs {w : List Char} (h : '(' ∉ w) (h' : '\\' ∉ w) (cs : List Char) :
    w <+: respellBackrefs 0 cs ↔ w <+: cs := by
  induction w generalizing cs with
  | nil => simp
  | cons d w ih =>
    obtain ⟨hd, hw⟩ := not_or.mp (mt List.mem_cons.mpr h)
    obtain ⟨hd', hw'⟩ := not_or.mp (mt List.mem_cons.mpr h')
    cases cs with
    | nil => simp [respellBackrefs]
    | cons c cs =>
      by_cases href : StartsReference (c :: cs)
      · obtain ⟨name, named, word, rest, hrest⟩ := href
        have hc : c = '\\' := (List.cons.inj hrest).1.symm
        have hdc : d ≠ c := fun hdc => hd' (hdc.trans hc).symm
        rw [← hrest, respellBackrefs_reference named word, hrest]
        simp [List.cons_prefix_cons, hdc, Ne.symm hd]
      · rw [respellBackrefs_cons href, List.cons_prefix_cons, List.cons_prefix_cons, ih hw hw']

/-! ## The set that excludes nothing -/

theorem respellAnything_cons {c : Char} {cs : List Char} (h : ¬ StartsAnything (c :: cs)) :
    respellAnything (c :: cs) = c :: respellAnything cs := by
  conv => lhs; unfold respellAnything
  split
  · contradiction
  · rename_i rest hcs
    exact absurd ⟨rest, hcs.symm⟩ h
  · rename_i hcs
    obtain ⟨rfl, rfl⟩ := List.cons.inj hcs
    rfl

theorem not_startsAnything {c : Char} (h : c ≠ '[') (cs : List Char) :
    ¬ StartsAnything (c :: cs) := by
  rintro ⟨rest, hrest⟩
  exact h (List.cons.inj hrest).1.symm

theorem respellAnything_append {w : List Char} (h : '[' ∉ w) (rest : List Char) :
    respellAnything (w ++ rest) = w ++ respellAnything rest := by
  induction w with
  | nil => rfl
  | cons c w ih =>
    obtain ⟨hc, hw⟩ := not_or.mp (mt List.mem_cons.mpr h)
    rw [List.cons_append, respellAnything_cons (not_startsAnything (Ne.symm hc) _), ih hw,
      List.cons_append]

/-! ## All three passes -/

theorem respell_nil (escaped : Bool) : respell escaped [] = [] := by
  simp [respell, markNamedGroups, respellBackrefs]

theorem startsReference_markNamedGroups {escaped : Bool} {cs : List Char} :
    StartsReference (markNamedGroups escaped cs) ↔ StartsReference cs := by
  have hname : ∀ name : List Char, (∀ c ∈ name, Text.isWord c = true) →
      '(' ∉ referenceText name := by
    intro name word
    have hparen : '(' ∉ name := notMem_of_word word (by decide)
    simpa [referenceText] using hparen
  constructor
  · rintro ⟨name, named, word, hprefix⟩
    exact ⟨name, named, word, (prefix_markNamedGroups (hname name word) _ _).mp hprefix⟩
  · rintro ⟨name, named, word, hprefix⟩
    exact ⟨name, named, word, (prefix_markNamedGroups (hname name word) _ _).mpr hprefix⟩

/-- A character at which nothing is spelled stays. -/
theorem respell_cons {escaped : Bool} {c : Char} {cs : List Char}
    (h : ¬ Spelled escaped (c :: cs)) :
    respell escaped (c :: cs) = c :: respell (c = '\\') cs := by
  obtain ⟨hgroup, hreference, hanything⟩ := by simpa only [Spelled, not_or] using h
  have hmark := markNamedGroups_cons hgroup
  have hreference' : ¬ StartsReference (markNamedGroups escaped (c :: cs)) :=
    mt startsReference_markNamedGroups.mp hreference
  have hanything' : ¬ StartsAnything (respellBackrefs 0 (markNamedGroups escaped (c :: cs))) := by
    unfold StartsAnything
    rw [prefix_respellBackrefs (by decide) (by decide), prefix_markNamedGroups (by decide)]
    exact hanything
  rw [hmark] at hreference' hanything'
  rw [respellBackrefs_cons hreference'] at hanything'
  unfold respell
  rw [hmark, respellBackrefs_cons hreference', respellAnything_cons hanything']

theorem respell_group {rest : List Char} (h : StartsGroup ("(?<".toList ++ rest)) :
    respell false ("(?<".toList ++ rest) = "(?P<".toList ++ respell false rest := by
  unfold respell
  rw [markNamedGroups_group h, if_neg Bool.false_ne_true, respellBackrefs_append (by decide),
    respellAnything_append (by decide)]

theorem respell_reference {name : List Char} (named : name ≠ [])
    (word : ∀ c ∈ name, Text.isWord c = true) (escaped : Bool) (rest : List Char) :
    respell escaped (referenceText name ++ rest) =
      "(?P=".toList ++ (name ++ [')']) ++ respell false rest := by
  have hbracket : '[' ∉ "(?P=".toList ++ (name ++ [')']) := by
    have hname : '[' ∉ name := notMem_of_word word (by decide)
    simpa using hname
  have hparen : '(' ∉ "\\k<".toList ++ name := by
    have hname : '(' ∉ name := notMem_of_word word (by decide)
    simpa using hname
  have hmark : markNamedGroups escaped (referenceText name ++ rest) =
      referenceText name ++ markNamedGroups false rest := by
    have h := markNamedGroups_append hparen (c := '>') (by decide) escaped rest
    simpa [referenceText] using h
  unfold respell
  rw [hmark, respellBackrefs_reference named word, respellAnything_append hbracket]

theorem respell_anything (escaped : Bool) (rest : List Char) :
    respell escaped ("[^]".toList ++ rest) = "[\\s\\S]".toList ++ respell false rest := by
  have hmark : markNamedGroups escaped ("[^]".toList ++ rest) =
      "[^]".toList ++ markNamedGroups false rest :=
    markNamedGroups_append (w := ['[', '^']) (c := ']') (by decide) (by decide) escaped rest
  unfold respell
  rw [hmark, respellBackrefs_append (by decide)]
  rfl

/-- Where something is spelled, the text is changed within the next three characters. -/
theorem Spelled.not_prefix {escaped : Bool} {cs : List Char} (h : Spelled escaped cs) :
    ¬ cs.take 3 <+: respell escaped cs := by
  rcases h with ⟨rfl, hgroup⟩ | ⟨name, named, word, rest, rfl⟩ | ⟨rest, rfl⟩
  · obtain ⟨rest, rfl⟩ := hgroup.1
    rw [respell_group hgroup]
    simp [List.cons_prefix_cons]
  · rw [respell_reference named word]
    simp [referenceText, List.cons_prefix_cons]
  · rw [respell_anything]
    simp [List.cons_prefix_cons]

theorem Spelled.three_le {escaped : Bool} {cs : List Char} (h : Spelled escaped cs) :
    3 ≤ cs.length := by
  rcases h with ⟨-, hgroup⟩ | ⟨name, -, -, rest, rfl⟩ | ⟨rest, rfl⟩
  · exact hgroup.1.length_le
  · simp [referenceText]
  · simp

/-! ## Sets -/

/-- What is spelled in a set does not go on behind its closing bracket. -/
theorem prefix_append_iff {v u rest : List Char} (h : ']' ∉ v.dropLast) :
    v <+: u ++ [']'] ++ rest ↔ v <+: u ++ [']'] := by
  constructor
  · intro hv
    have hw : u ++ [']'] <+: u ++ [']'] ++ rest := List.prefix_append _ _
    rcases Nat.lt_or_ge (u ++ [']']).length v.length with hlt | hge
    · have hlast : u ++ [']'] <+: v.dropLast := by
        apply List.prefix_of_prefix_length_le hw ((List.dropLast_prefix v).trans hv)
        rw [List.length_dropLast]
        omega
      exact absurd (hlast.subset (by simp)) h
    · exact List.prefix_of_prefix_length_le hv hw hge
  · intro hv
    exact hv.trans (List.prefix_append _ _)

theorem spelled_append_iff {escaped : Bool} {u rest : List Char} :
    Spelled escaped (u ++ [']'] ++ rest) ↔ Spelled escaped (u ++ [']']) := by
  have hgroup : StartsGroup (u ++ [']'] ++ rest) ↔ StartsGroup (u ++ [']']) := by
    unfold StartsGroup
    rw [prefix_append_iff (by decide), prefix_append_iff (by decide), prefix_append_iff (by decide)]
  have hname : ∀ name : List Char, (∀ c ∈ name, Text.isWord c = true) →
      ']' ∉ (referenceText name).dropLast := by
    intro name word
    have hdrop : (referenceText name).dropLast = "\\k<".toList ++ name := by
      rw [referenceText, ← List.append_assoc, List.dropLast_concat]
    have hbracket : ']' ∉ name := notMem_of_word word (by decide)
    simpa [hdrop] using hbracket
  have hreference : StartsReference (u ++ [']'] ++ rest) ↔ StartsReference (u ++ [']']) := by
    constructor
    · rintro ⟨name, named, word, hprefix⟩
      exact ⟨name, named, word, (prefix_append_iff (hname name word)).mp hprefix⟩
    · rintro ⟨name, named, word, hprefix⟩
      exact ⟨name, named, word, (prefix_append_iff (hname name word)).mpr hprefix⟩
  have hanything : StartsAnything (u ++ [']'] ++ rest) ↔ StartsAnything (u ++ [']']) :=
    prefix_append_iff (by decide)
  rw [Spelled, Spelled, hgroup, hreference, hanything]

theorem not_spelled_of_plain {c : Char} (hgroup : c ≠ '(') (hescape : c ≠ '\\') (hset : c ≠ '[')
    (escaped : Bool) (cs : List Char) : ¬ Spelled escaped (c :: cs) := by
  rintro (⟨-, h⟩ | h | h)
  · exact not_startsGroup hgroup cs h
  · exact not_startsReference hescape cs h
  · exact not_startsAnything hset cs h

/-- A set is left as it is exactly if nothing is spelled in it. -/
theorem respell_append_iff {escaped : Bool} {u rest result : List Char} :
    respell escaped (u ++ [']'] ++ rest) = u ++ [']'] ++ result ↔
      ¬ Hides escaped (u ++ [']']) ∧ respell false rest = result := by
  induction u generalizing escaped with
  | nil =>
    have hplain : ∀ cs, ¬ Spelled escaped (']' :: cs) :=
      not_spelled_of_plain (by decide) (by decide) (by decide) escaped
    have hkept : respell escaped (']' :: rest) = ']' :: respell false rest :=
      respell_cons (hplain rest)
    simp [Hides, hplain, hkept]
  | cons c u ih =>
    by_cases h : Spelled escaped (c :: (u ++ [']']))
    · have hlong : Spelled escaped (c :: u ++ [']'] ++ rest) := spelled_append_iff.mpr h
      refine iff_of_false ?_ (fun hclear => hclear.1 (Or.inl h))
      intro hsame
      apply hlong.not_prefix
      have htake : (c :: u ++ [']'] ++ rest).take 3 = (c :: u ++ [']']).take 3 :=
        List.take_append_of_le_length h.three_le
      rw [hsame, htake]
      exact (List.take_prefix _ _).trans (List.prefix_append _ _)
    · have hlong : ¬ Spelled escaped (c :: (u ++ [']'] ++ rest)) := fun hs =>
        h (spelled_append_iff (u := c :: u).mp hs)
      have hkept := respell_cons hlong
      simp only [List.cons_append] at hkept ⊢
      rw [hkept, List.cons.injEq, ih, Hides]
      simp [h]

/-! ## Pieces -/

theorem clear_cons_iff {t : Token} {ts : List Token} :
    Clear (t :: ts) ↔ ¬ Misread (t :: ts) ∧ Clear ts := by
  simp [Clear, List.suffix_cons_iff, or_imp, forall_and]

theorem misread_escape_iff {c : Char} {ts : List Token} :
    Misread (.escape c :: ts) ↔ StartsReference ('\\' :: c :: textOf ts) ∨
      Spelled true (c :: textOf ts) ∨ c = '\\' ∧ StartsGroup (textOf ts) := by
  constructor
  · intro h
    cases h with
    | group h => exact Or.inr (Or.inr ⟨rfl, h⟩)
    | reference h => exact Or.inr (Or.inl (Or.inr (Or.inl h)))
    | name h => exact Or.inl h
    | anything h => exact Or.inr (Or.inl (Or.inr (Or.inr h)))
  · rintro (h | (⟨hescaped, -⟩ | h | h) | ⟨rfl, h⟩)
    · obtain ⟨name, -, -, rest, hrest⟩ := id h
      obtain rfl : 'k' = c := (List.cons.inj (List.cons.inj hrest).2).1
      exact .name h
    · cases hescaped
    · obtain ⟨name, -, -, rest, hrest⟩ := id h
      obtain rfl : '\\' = c := (List.cons.inj hrest).1
      exact .reference h
    · obtain ⟨rest, hrest⟩ := id h
      obtain rfl : '[' = c := (List.cons.inj hrest).1
      exact .anything h
    · exact .group h

theorem misread_set_iff {body : List Char} {ts : List Token} :
    Misread (.set body :: ts) ↔ body ≠ ['^'] ∧ Hides false (Token.set body).text := by
  constructor
  · intro h
    cases h with
    | set other h => exact ⟨other, h⟩
  · exact fun h => .set h.1 h.2

/-- At a character that is a piece of its own nothing is spelled. -/
theorem Leads.not_spelled {c : Char} {rest : List Char} (h : Leads (.char c) rest)
    (escaped : Bool) : ¬ Spelled escaped (c :: rest) := by
  cases h with
  | char group escape set =>
    rintro (⟨-, h⟩ | h | ⟨tail, htail⟩)
    · exact group h
    · obtain ⟨name, -, -, tail, htail⟩ := startsReference_iff.mp h
      obtain ⟨rfl, rfl⟩ := List.cons.inj htail
      cases escape rfl
    · obtain ⟨rfl, rfl⟩ := List.cons.inj htail
      cases set rfl

/-- A character that begins no longer piece is a piece of its own. -/
theorem tokens_cons_plain {c : Char} (hgroup : c ≠ '(') (hescape : c ≠ '\\') (hset : c ≠ '[')
    (cs : List Char) : tokens (c :: cs) = .char c :: tokens cs := by
  have hreference : reference? (c :: cs) = none := by
    cases href : reference? (c :: cs) with
    | none => rfl
    | some name =>
      obtain ⟨-, -, rest, hrest⟩ := reference?_eq_some href
      exact absurd (List.cons.inj hrest).1.symm hescape
  have hfirst : first c cs = .char c := by
    rw [first, if_neg (not_startsGroup hgroup cs), hreference]
    simp only [hset, imp_false, not_false_eq_true]
    exact fun _ _ hc => absurd hc hescape
  rw [tokens, tokensFrom, hfirst]
  rfl

theorem prefix_respelledText {w cs : List Char} (plain : ∀ c ∈ w, c ≠ '(' ∧ c ≠ '\\' ∧ c ≠ '[')
    (h : w <+: cs) : w <+: respelledText (tokens cs) := by
  obtain ⟨rest, rfl⟩ := h
  induction w with
  | nil => exact List.nil_prefix
  | cons c w ih =>
    obtain ⟨⟨hgroup, hescape, hset⟩, hw⟩ := List.forall_mem_cons.mp plain
    rw [List.cons_append, tokens_cons_plain hgroup hescape hset]
    exact List.cons_prefix_cons.mpr ⟨rfl, ih hw⟩

theorem respell_group_iff {rest result : List Char} (h : StartsGroup ("(?<".toList ++ rest))
    (escaped : Bool) :
    respell escaped ("(?<".toList ++ rest) = "(?P<".toList ++ result ↔
      escaped = false ∧ respell false rest = result := by
  cases escaped with
  | false => rw [respell_group h, List.append_cancel_left_eq, eq_self_iff_true, true_and]
  | true =>
    -- the backslash keeps the opening as it is
    have hstays : ¬ Spelled true ("(?<".toList ++ rest) := by
      rintro (⟨hfalse, -⟩ | h | h)
      · cases hfalse
      · exact not_startsReference (by decide) _ h
      · exact not_startsAnything (by decide) _ h
    have hkept : respell true ("(?<".toList ++ rest) = "(?<".toList ++ respell false rest := by
      have hplain : ¬ Spelled false ('?' :: '<' :: rest) :=
        not_spelled_of_plain (by decide) (by decide) (by decide) _ _
      have hplain' : ¬ Spelled false ('<' :: rest) :=
        not_spelled_of_plain (by decide) (by decide) (by decide) _ _
      exact (respell_cons hstays).trans (congrArg _ ((respell_cons hplain).trans
        (congrArg _ (respell_cons hplain'))))
    rw [hkept]
    simp

/-- The characters behind the first one are no pieces but themselves. -/
theorem Spelled.take_prefix {c : Char} {rest : List Char} (h : Spelled true (c :: rest)) :
    rest.take 2 <+: respelledText (tokens rest) := by
  rcases h with ⟨hfalse, -⟩ | h | ⟨tail, htail⟩
  · cases hfalse
  · obtain ⟨name, -, -, tail, htail⟩ := startsReference_iff.mp h
    obtain ⟨-, rfl⟩ := List.cons.inj htail
    exact prefix_respelledText (w := ['k', '<']) (by simp) ⟨name ++ '>' :: tail, rfl⟩
  · obtain ⟨-, rfl⟩ := List.cons.inj htail
    exact prefix_respelledText (w := ['^', ']']) (by simp) ⟨tail, rfl⟩

/-- An escape is left as it is exactly if nothing is spelled at either of its characters. -/
theorem respell_escape_iff (escaped : Bool) (c : Char) (rest : List Char) :
    respell escaped ('\\' :: c :: rest) = '\\' :: c :: respelledText (tokens rest) ↔
      ¬ StartsReference ('\\' :: c :: rest) ∧ ¬ Spelled true (c :: rest) ∧
        respell (c = '\\') rest = respelledText (tokens rest) := by
  by_cases hfirst : StartsReference ('\\' :: c :: rest)
  · refine iff_of_false ?_ fun h => h.1 hfirst
    intro hsame
    have hspelled : Spelled escaped ('\\' :: c :: rest) := Or.inr (Or.inl hfirst)
    apply hspelled.not_prefix
    obtain ⟨name, -, -, tail, htail⟩ := startsReference_iff.mp hfirst
    obtain ⟨-, rfl⟩ := List.cons.inj (List.cons.inj htail).2
    have hnext : ['<'] <+: respelledText (tokens ('<' :: (name ++ '>' :: tail))) :=
      prefix_respelledText (by simp) ⟨name ++ '>' :: tail, rfl⟩
    rw [hsame]
    exact List.cons_prefix_cons.mpr ⟨rfl, List.cons_prefix_cons.mpr ⟨rfl, hnext⟩⟩
  · have hplain : ¬ Spelled escaped ('\\' :: c :: rest) := by
      rintro (⟨-, h⟩ | h | h)
      · exact not_startsGroup (by decide) _ h
      · exact hfirst h
      · exact not_startsAnything (by decide) _ h
    have hkept : respell escaped ('\\' :: c :: rest) = '\\' :: respell true (c :: rest) :=
      respell_cons hplain
    rw [hkept, List.cons.injEq]
    by_cases hsecond : Spelled true (c :: rest)
    · refine iff_of_false ?_ fun h => h.2.1 hsecond
      rintro ⟨-, hsame⟩
      apply hsecond.not_prefix
      rw [hsame]
      exact List.cons_prefix_cons.mpr ⟨rfl, hsecond.take_prefix⟩
    · rw [respell_cons hsecond, List.cons.injEq]
      simp [hfirst, hsecond]

/-- A set is respelled as it should be exactly if nothing else is spelled in it. -/
theorem respell_set_iff {escaped : Bool} {body rest result : List Char} :
    respell escaped ((Token.set body).text ++ rest) = (Token.set body).respelled ++ result ↔
      ¬ (body ≠ ['^'] ∧ Hides false (Token.set body).text) ∧ respell false rest = result := by
  by_cases hbody : body = ['^']
  · subst hbody
    have hany : respell escaped ((Token.set ['^']).text ++ rest) =
        (Token.set ['^']).respelled ++ respell false rest := respell_anything escaped rest
    rw [hany, List.append_cancel_left_eq]
    simp
  · have hsame : (Token.set body).respelled = (Token.set body).text := by
      unfold Token.respelled
      split <;> simp_all
    have hescaped : Hides escaped (Token.set body).text ↔ Hides false (Token.set body).text := by
      have hgroup : ∀ cs, ¬ StartsGroup ('[' :: cs) := not_startsGroup (by decide)
      simp [Token.text, Hides, Spelled, hgroup]
    have hiff : respell escaped ('[' :: body ++ [']'] ++ rest) = '[' :: body ++ [']'] ++ result ↔ _ :=
      respell_append_iff
    rw [hsame, ← hescaped]
    simpa [hbody, Token.text] using hiff

/-- Read behind a backslash or not, a text is respelled piece by piece if the passes go wrong at no
piece and leave no group behind the backslash. -/
theorem respell_tokens_iff (cs : List Char) (escaped : Bool) :
    respell escaped cs = respelledText (tokens cs) ↔
      ¬ (escaped = true ∧ StartsGroup cs) ∧ Clear (tokens cs) := by
  induction cs using induction_tokens generalizing escaped with
  | nil =>
    have hnone : Clear (tokens []) := by
      intro us hus
      rw [List.suffix_nil.mp hus]
      nofun
    have hgroup : ¬ StartsGroup [] := by decide
    exact iff_of_true (respell_nil escaped) ⟨fun h => hgroup h.2, hnone⟩
  | step t rest hleads htokens ih =>
    have htext : textOf (tokens rest) = rest := textOf_tokens rest
    rw [htokens, clear_cons_iff, respelledText, List.flatMap_cons, ← respelledText]
    have hih := ih false
    simp only [Bool.false_eq_true, false_and, not_false_eq_true, true_and] at hih
    cases hleads with
    | group starts =>
      have hclear : ¬ Misread (.group :: tokens rest) := nofun
      have hopens : StartsGroup (Token.group.text ++ rest) := starts
      have hiff : respell escaped (Token.group.text ++ rest) =
          Token.group.respelled ++ respelledText (tokens rest) ↔ _ :=
        respell_group_iff starts escaped
      rw [hiff, hih]
      simp [hopens, hclear]
    | @reference name _ named word =>
      have hclear : ¬ Misread (.reference name :: tokens rest) := nofun
      have hgroup : ¬ StartsGroup ((Token.reference name).text ++ rest) :=
        not_startsGroup (by decide) _
      have hword := fun c hc => isWord_of_isAsciiWord (word c hc)
      have hkept : respell escaped ((Token.reference name).text ++ rest) =
          (Token.reference name).respelled ++ respell false rest :=
        respell_reference named hword escaped rest
      rw [hkept, List.append_cancel_left_eq, hih]
      simp [hclear, hgroup]
    | escape c =>
      have hgroup : ¬ StartsGroup ((Token.escape c).text ++ rest) := not_startsGroup (by decide) _
      have hiff : respell escaped ((Token.escape c).text ++ rest) =
          (Token.escape c).respelled ++ respelledText (tokens rest) ↔ _ :=
        respell_escape_iff escaped c rest
      rw [hiff, ih, misread_escape_iff, htext, not_or, not_or]
      simp [hgroup, and_assoc]
    | set body =>
      have hgroup : ¬ StartsGroup ((Token.set body).text ++ rest) := not_startsGroup (by decide) _
      rw [respell_set_iff, hih, misread_set_iff]
      simp only [hgroup, and_false, not_false_eq_true, true_and]
    | @char c _ group escape set =>
      have hclear : ¬ Misread (.char c :: tokens rest) := nofun
      have hleads : Leads (.char c) rest := .char group escape set
      have hkept : respell escaped ((Token.char c).text ++ rest) =
          (Token.char c).respelled ++ respell (c = '\\') rest :=
        respell_cons (hleads.not_spelled escaped)
      have hgroup : ¬ StartsGroup ((Token.char c).text ++ rest) := group
      have hends : ¬ (c = '\\' ∧ StartsGroup rest) := by
        rintro ⟨hc, h⟩
        rw [escape hc] at h
        exact absurd h (by decide)
      rw [hkept, List.append_cancel_left_eq, ih, decide_eq_true_eq]
      simp [hgroup, hclear, hends]

/-- The pieces are the whole pattern. All of them are respelled, and nothing besides, exactly if the
passes go wrong at none. -/
theorem ofBrowser_eq_iff (s : String) :
    textOf (tokens s.toList) = s.toList ∧
      (ofBrowser s = String.ofList (respelledText (tokens s.toList)) ↔ Clear (tokens s.toList)) := by
  have hrespell : ofBrowser s = String.ofList (respell false s.toList) := rfl
  refine ⟨textOf_tokens _, ?_⟩
  rw [hrespell, String.ofList_inj, respell_tokens_iff]
  simp only [Bool.false_eq_true, false_and, not_false_eq_true, true_and]

example : ofBrowser "(?<n>[^)])\\k<n>[^]" = "(?P<n>[^)])(?P=n)[\\s\\S]" := by decide

/-- An escaped bracket is no set. -/
theorem not_ofBrowser_eq_bracket :
    ofBrowser "\\[^]" ≠ String.ofList (respelledText (tokens "\\[^]".toList)) := by
  decide

end Switchboard.Pattern.Browser
