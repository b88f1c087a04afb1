import Switchboard.Proofs.JsonTexts
import Switchboard.Proofs.Octets
import Switchboard.Proofs.WrittenNumbers

/-!
# What a payload is read back as

A value that is written as JSON is read back from its text: null, booleans, integers within the
digit limit, finite doubles, texts, lists of such values, and records of them in which no key comes
twice, if there is room for all its levels. The text holds no control character, whatever the value
holds.
-/
namespace Switchboard

/-- A value that a payload is made of. -/
inductive Value.IsPayload : Value → Prop
  | null : IsPayload .null
  | bool (b : Bool) : IsPayload (.bool b)
  | int {n : Int} (h : ¬ IsOverlong n) : IsPayload (.int n)
  | double (negative : Bool) (r : Magnitude) : IsPayload (.double (.finite negative r))
  | text (s : String) : IsPayload (.text s)
  | list {items : List Value} (h : ∀ v ∈ items, IsPayload v) : IsPayload (.list items)
  | record {fields : List (String × Value)} (distinct : (fields.map Prod.fst).Nodup)
    (h : ∀ f ∈ fields, IsPayload f.2) : IsPayload (.record fields)

namespace Record

variable {α : Type}

theorem put_of_not_mem {key : String} {value : α} {r : Record α} (h : key ∉ r.map Prod.fst) :
    put key value r = r ++ [(key, value)] := by
  induction r with
  | nil => rfl
  | cons p r ih =>
    obtain ⟨k, v⟩ := p
    simp only [List.map_cons, List.mem_cons, not_or] at h
    rw [put, if_neg (Ne.symm h.1), ih h.2]
    rfl

theorem merge_of_nodup {r s : Record α} (h : ((r ++ s).map Prod.fst).Nodup) :
    merge r s = r ++ s := by
  induction s generalizing r with
  | nil => simp [merge]
  | cons p s ih =>
    have hp : p.1 ∉ r.map Prod.fst := by
      rw [List.map_append, List.nodup_append] at h
      intro hmem
      exact h.2.2 p.1 hmem p.1 (by simp) rfl
    have happend : r ++ p :: s = (r ++ [p]) ++ s := by simp
    rw [happend] at h ⊢
    rw [← ih h]
    simp [merge, put_of_not_mem hp]

/-- Pairs of distinct keys are the record that they build. -/
theorem ofPairs_of_nodup {ps : List (String × α)} (h : (ps.map Prod.fst).Nodup) :
    ofPairs ps = ps := merge_of_nodup h

end Record

namespace Json

/-- No control character is among the characters. -/
def ArePrintable (cs : List Char) : Prop := ∀ c ∈ cs, 0x20 ≤ c.toNat

variable {cs ds rest : List Char} {n : Nat}

theorem ArePrintable.append (hc : ArePrintable cs) (hd : ArePrintable ds) :
    ArePrintable (cs ++ ds) := by
  intro c h
  rcases List.mem_append.mp h with h | h
  · exact hc c h
  · exact hd c h

theorem ArePrintable.cons {c : Char} (hc : 0x20 ≤ c.toNat) (hd : ArePrintable ds) :
    ArePrintable (c :: ds) := by
  intro d h
  rcases List.mem_cons.mp h with rfl | h
  · exact hc
  · exact hd d h

/-! ## Texts -/

/-- Four digits are read as a code unit whatever follows them. -/
theorem readUnit?_append {a b c d : Char} (h : readUnit? [a, b, c, d] = some (n, [])) :
    readUnit? (a :: b :: c :: d :: rest) = some (n, rest) := by
  unfold readUnit? at h ⊢
  simp only [Option.bind_eq_bind, Option.bind_eq_some_iff, Option.pure_def, Option.some.injEq,
    Prod.mk.injEq, and_true] at h ⊢
  exact h

/-- The four digits of a control character are read as the character. -/
theorem readUnits?_control {k : Nat} (h : k < 0x20) (rest : List Char) :
    readUnits? (Text.hexDigits 4 k ++ rest) = some (Char.ofNat k, rest) := by
  have hdigits : ∀ k < 0x20, (Text.hexDigits 4 k).length = 4 ∧
      readUnit? (Text.hexDigits 4 k) = some (k, []) := by decide +kernel
  obtain ⟨hlength, hunit⟩ := hdigits k h
  obtain ⟨a, b, c, d, hfour⟩ := List.length_eq_four.mp hlength
  rw [hfour] at hunit ⊢
  have hhigh : isHighUnit k = false := by simp [isHighUnit]; omega
  have hlow : isLowUnit k = false := by simp [isLowUnit]; omega
  simp [readUnits?, readUnit?_append hunit, hhigh, hlow]

theorem escapedChar_printable (c : Char) : ArePrintable (escapedChar c) := by
  have hcontrol : ∀ k < 0x20, (Text.hexDigits 4 k).all (fun d => 0x20 ≤ d.toNat) = true := by
    decide +kernel
  unfold escapedChar
  split_ifs with h1 h2 h3 h4 h5 h6 h7
  · rcases h1 with rfl | rfl <;> simp [ArePrintable]
  · simp [ArePrintable]
  · simp [ArePrintable]
  · simp [ArePrintable]
  · simp [ArePrintable]
  · simp [ArePrintable]
  · apply ArePrintable.cons (by decide)
    apply ArePrintable.cons (by decide)
    intro d hd
    exact of_decide_eq_true (List.all_eq_true.mp (hcontrol c.toNat h7) d hd)
  · intro d hd
    rw [List.mem_singleton.mp hd]
    omega

/-- One written character is one step of reading. -/
theorem readChars?_escapedChar (n : Nat) (acc : List Char) (c : Char) (rest : List Char) :
    readChars? (n + 1) acc (escapedChar c ++ rest) = readChars? n (c :: acc) rest := by
  unfold escapedChar
  split_ifs with h1 h2 h3 h4 h5 h6 h7
  · rcases h1 with rfl | rfl <;> rfl
  · rw [h2]
    rfl
  · rw [h3]
    rfl
  · rw [h4]
    rfl
  · rw [h5]
    rfl
  · rw [h6]
    rfl
  · have hunit := readUnits?_control h7 rest
    rw [Char.ofNat_toNat] at hunit
    simp only [List.cons_append, readChars?, readEscape?, hunit]
  · have hquote : c ≠ '"' ∧ c ≠ '\\' := not_or.mp h1
    rw [List.singleton_append, readChars?.eq_def]
    dsimp only
    split
    · contradiction
    · rename_i heq
      exact absurd (List.cons.inj heq).1 hquote.1
    · rename_i heq
      exact absurd (List.cons.inj heq).1 hquote.2
    · rename_i heq
      obtain ⟨rfl, rfl⟩ := List.cons.inj heq
      rw [if_neg h7]

theorem readChars?_escaped (acc rest : List Char) (h : cs.length < n) :
    readChars? n acc (cs.flatMap escapedChar ++ '"' :: rest) = some (cs.reverse ++ acc, rest) := by
  induction cs generalizing n acc with
  | nil =>
    obtain ⟨m, rfl⟩ : ∃ m, n = m + 1 := ⟨n - 1, by simp at h; omega⟩
    rfl
  | cons c cs ih =>
    obtain ⟨m, rfl⟩ : ∃ m, n = m + 1 := ⟨n - 1, by simp at h; omega⟩
    have hm : cs.length < m := by simpa using h
    rw [List.flatMap_cons, List.append_assoc, readChars?_escapedChar, ih (c :: acc) hm]
    simp

theorem length_le_length_escaped (cs : List Char) :
    cs.length ≤ (cs.flatMap escapedChar).length := by
  induction cs with
  | nil => exact Nat.le_refl 0
  | cons c cs ih =>
    have hc : 1 ≤ (escapedChar c).length := by
      unfold escapedChar
      split_ifs <;> simp
    rw [List.flatMap_cons, List.length_append, List.length_cons]
    omega

/-- A text is read back after its opening quote. -/
theorem readText?_escaped (s : String) (rest : List Char) :
    readText? (s.toList.flatMap escapedChar ++ '"' :: rest) = some (s, rest) := by
  have hlength := length_le_length_escaped s.toList
  have hread := @readChars?_escaped s.toList
    ((s.toList.flatMap escapedChar ++ '"' :: rest).length + 1) [] rest
    (by simp only [List.length_append, List.length_cons]; omega)
  unfold readText?
  rw [hread]
  simp

theorem toList_escaped (s : String) :
    (escaped s).toList = '"' :: (s.toList.flatMap escapedChar ++ ['"']) := by
  simp [escaped]

theorem escaped_printable (s : String) : ArePrintable (escaped s).toList := by
  rw [toList_escaped]
  apply ArePrintable.cons (by decide)
  apply ArePrintable.append
  · intro c hc
    obtain ⟨d, -, hd⟩ := List.mem_flatMap.mp hc
    exact escapedChar_printable d c hd
  · simp [ArePrintable]

/-! ## Values -/

/-- The characters are the text of a value that there is room for, wherever something follows that
no numeral goes on with. -/
structure Reads (room : Nat) (cs : List Char) (v : Value) : Prop where
  read : ∀ n rest, cs.length ≤ n → EndsNumeral rest →
    readValue n room (cs ++ rest) = .ok (v, rest)
  led : ∃ c r, cs = c :: r ∧ isSpace c = false ∧ c ≠ ']'
  printable : ArePrintable cs

/-- The characters are the texts of the items of a list, up to its closing bracket. -/
structure ReadsItems (room : Nat) (cs : List Char) (items : List Value) : Prop where
  read : ∀ n rest, cs.length < n → readItems n room (cs ++ ']' :: rest) = .ok (items, rest)
  led : ∃ c r, cs = c :: r ∧ isSpace c = false ∧ c ≠ ']'
  printable : ArePrintable cs

/-- The characters are the texts of the fields of a record, up to its closing brace. -/
structure ReadsFields (room : Nat) (cs : List Char) (fields : List (String × Value)) : Prop where
  read : ∀ n rest, cs.length < n → readFields n room (cs ++ '\x7d' :: rest) = .ok (fields, rest)
  led : ∃ r, cs = '"' :: r
  printable : ArePrintable cs

variable {room : Nat}

theorem skipSpace_cons {c : Char} (h : isSpace c = false) (r : List Char) :
    skipSpace (c :: r) = c :: r := by
  simp [skipSpace, List.dropWhile, h]

theorem endsNumeral_cons {c : Char} (h : c = ',' ∨ c = ']' ∨ c = '\x7d') (r : List Char) :
    EndsNumeral (c :: r) := by
  intro d hd
  obtain rfl : c = d := by simpa using hd
  rcases h with rfl | rfl | rfl <;> decide

theorem reads_null : Reads (room + 1) "null".toList .null where
  read n rest h _ := by
    obtain ⟨m, rfl⟩ : ∃ m, n = m + 1 := ⟨n - 1, by simp at h; omega⟩
    rfl
  led := ⟨'n', ['u', 'l', 'l'], rfl, by decide, by decide⟩
  printable := by simp [ArePrintable]

theorem reads_bool (b : Bool) :
    Reads (room + 1) (if b then "true" else "false").toList (.bool b) where
  read n rest h _ := by
    obtain ⟨m, rfl⟩ : ∃ m, n = m + 1 := ⟨n - 1, by cases b <;> simp at h <;> omega⟩
    cases b <;> rfl
  led := by
    cases b
    · exact ⟨'f', ['a', 'l', 's', 'e'], rfl, by decide, by decide⟩
    · exact ⟨'t', ['r', 'u', 'e'], rfl, by decide, by decide⟩
  printable := by cases b <;> simp [ArePrintable]

/-- A character that a numeral begins with begins nothing else. -/
theorem readValue_of_numeral {c : Char} (hc : c = '-' ∨ isAsciiDigit c = true) (n : Nat)
    (r : List Char) : readValue (n + 1) (room + 1) (c :: r) = found (readNumber? (c :: r)) := by
  have hne : ∀ d, isAsciiDigit d = false → d ≠ '-' → d ≠ c := by
    rintro d hd hminus rfl
    rcases hc with rfl | hc
    · exact hminus rfl
    · rw [hd] at hc
      cases hc
  have hname : readName? (c :: r) = none := by
    have hn : 'n' ≠ c := hne 'n' (by decide) (by decide)
    have ht : 't' ≠ c := hne 't' (by decide) (by decide)
    have hf : 'f' ≠ c := hne 'f' (by decide) (by decide)
    have hN : 'N' ≠ c := hne 'N' (by decide) (by decide)
    simp [readName?, Number.dropWord?, hn, ht, hf, hN]
  rw [readValue, hname, Option.none_or]
  · intro r' heq
    exact hne '"' (by decide) (by decide) (List.cons.inj heq).1.symm
  · intro r' heq
    exact hne '[' (by decide) (by decide) (List.cons.inj heq).1.symm
  · intro r' heq
    exact hne '\x7b' (by decide) (by decide) (List.cons.inj heq).1.symm

theorem isAsciiDigit_facts {c : Char} (h : c = '-' ∨ isAsciiDigit c = true) :
    isSpace c = false ∧ c ≠ ']' ∧ 0x20 ≤ c.toNat := by
  rcases h with rfl | h
  · decide
  · have hrange : '0' ≤ c ∧ c ≤ '9' := by simpa [isAsciiDigit] using h
    have hlow : 48 ≤ c.toNat := hrange.1
    refine ⟨?_, ?_, by omega⟩
    · simp only [isSpace, Bool.or_eq_false_iff, decide_eq_false_iff_not]
      refine ⟨⟨⟨?_, ?_⟩, ?_⟩, ?_⟩ <;> · rintro rfl; revert hlow; decide
    · rintro rfl
      revert h
      decide

theorem AreNumeral.printable (h : AreNumeral cs) : ArePrintable cs := by
  intro c hc
  have hmarks : ∀ d ∈ ['.', 'e', '-', '+'], 0x20 ≤ d.toNat := by simp
  rcases h.chars c hc with hdigit | hmark
  · exact (isAsciiDigit_facts (Or.inr hdigit)).2.2
  · exact hmarks c hmark

/-- A numeral behind its sign is the text of a value. -/
theorem Reads.of_numeral {negative : Bool} {v : Value} (h : AreNumeral cs)
    (hread : ∀ rest, EndsNumeral rest →
      readMagnitude? negative (cs ++ rest) = some (v, rest)) :
    Reads (room + 1) (if negative then '-' :: cs else cs) v := by
  obtain ⟨c, r, hcs, hc⟩ : ∃ c r, (if negative then '-' :: cs else cs) = c :: r ∧
      (c = '-' ∨ isAsciiDigit c = true) := by
    obtain ⟨c, r, rfl, hc⟩ := h.led
    cases negative with
    | true => exact ⟨'-', c :: r, rfl, Or.inl rfl⟩
    | false => exact ⟨c, r, rfl, Or.inr hc⟩
  obtain ⟨hspace, hbracket, -⟩ := isAsciiDigit_facts hc
  refine ⟨?_, ⟨c, r, hcs, hspace, hbracket⟩, ?_⟩
  · intro n rest hn hrest
    obtain ⟨m, rfl⟩ : ∃ m, n = m + 1 := ⟨n - 1, by simp [hcs] at hn; omega⟩
    rw [hcs, List.cons_append, readValue_of_numeral hc, ← List.cons_append, ← hcs,
      readNumber?_signed h, hread rest hrest]
    rfl
  · cases negative with
    | true => exact h.printable.cons (by decide)
    | false => exact h.printable

theorem reads_int {n : Int} {s : String} (h : intText n = .ok s) :
    Reads (room + 1) s.toList (.int n) := by
  unfold intText at h
  dsimp only at h
  split at h
  · rename_i hlength
    obtain rfl := Except.ok.inj h
    have hreads := @Reads.of_numeral _ room (decide (n < 0)) (.int n)
        (areNumeral_toDigits n.natAbs) <| by
      intro rest hrest
      rw [readMagnitude?_integer (areWhole_toDigits _) hlength hrest, digitsValue_toDigits]
      congr 3
      split_ifs <;> simp only [decide_eq_true_eq] at * <;> omega
    simpa using hreads
  · cases h

theorem reads_double (negative : Bool) (r : Magnitude) :
    Reads (room + 1) (doubleText (.finite negative r)).toList (.double (.finite negative r)) := by
  have hreads := @Reads.of_numeral _ room _ _ (areNumeral_text r) fun rest hrest =>
    @readMagnitude?_text _ negative r hrest
  cases negative with
  | true => simpa [doubleText, Double.text, Double.signText] using hreads
  | false => simpa [doubleText, Double.text, Double.signText] using hreads

theorem reads_text (s : String) : Reads (room + 1) (escaped s).toList (.text s) where
  read n rest h _ := by
    rw [toList_escaped] at h ⊢
    obtain ⟨m, rfl⟩ : ∃ m, n = m + 1 := ⟨n - 1, by simp at h; omega⟩
    rw [List.cons_append, List.append_assoc, List.singleton_append, readValue, readText?_escaped]
    rfl
  led := ⟨'"', _, toList_escaped s, by decide, by decide⟩
  printable := escaped_printable s

theorem reads_list_nil : Reads (room + 1) "[]".toList (.list []) where
  read n rest h _ := by
    obtain ⟨m, rfl⟩ : ∃ m, n = m + 1 := ⟨n - 1, by simp at h; omega⟩
    rfl
  led := ⟨'[', [']'], rfl, by decide, by decide⟩
  printable := by simp [ArePrintable]

theorem reads_record_nil : Reads (room + 1) "\x7b\x7d".toList (.record []) where
  read n rest h _ := by
    obtain ⟨m, rfl⟩ : ∃ m, n = m + 1 := ⟨n - 1, by simp at h; omega⟩
    rfl
  led := ⟨'\x7b', ['\x7d'], rfl, by decide, by decide⟩
  printable := by simp [ArePrintable]

theorem ReadsItems.reads {items : List Value} (h : ReadsItems room cs items) :
    Reads (room + 1) ('[' :: (cs ++ [']'])) (.list items) := by
  obtain ⟨c, r, hcs, hspace, hbracket⟩ := h.led
  refine ⟨?_, ⟨'[', cs ++ [']'], rfl, by decide, by decide⟩, ?_⟩
  · intro n rest hn _
    obtain ⟨m, rfl⟩ : ∃ m, n = m + 1 := ⟨n - 1, by simp at hn; omega⟩
    have hm : cs.length < m := by
      simp only [List.length_cons, List.length_append, List.length_nil] at hn
      omega
    have hitems := h.read m rest hm
    have hskip : skipSpace (cs ++ ']' :: rest) = cs ++ ']' :: rest := by
      rw [hcs, List.cons_append]
      exact skipSpace_cons hspace _
    rw [List.cons_append, List.append_assoc, List.singleton_append, readValue]
    dsimp only
    rw [hskip]
    split
    · rename_i heq
      rw [hcs, List.cons_append] at heq
      exact absurd (List.cons.inj heq).1 hbracket
    · rw [hitems]
      rfl
  · apply ArePrintable.cons (by decide)
    apply ArePrintable.append h.printable
    simp [ArePrintable]

theorem Reads.singleton {v : Value} (h : Reads room cs v) : ReadsItems room cs [v] where
  read n rest hn := by
    obtain ⟨m, rfl⟩ : ∃ m, n = m + 1 := ⟨n - 1, by omega⟩
    have hv := h.read m (']' :: rest) (by omega) (endsNumeral_cons (by simp) rest)
    rw [readItems, hv]
    rfl
  led := h.led
  printable := h.printable

theorem Reads.cons {v : Value} {items : List Value} (h : Reads room cs v)
    (hs : ReadsItems room ds items) : ReadsItems room (cs ++ ',' :: ds) (v :: items) where
  read n rest hn := by
    obtain ⟨m, rfl⟩ : ∃ m, n = m + 1 := ⟨n - 1, by omega⟩
    simp only [List.length_append, List.length_cons] at hn
    have hv := h.read m (',' :: (ds ++ ']' :: rest)) (by omega) (endsNumeral_cons (by simp) _)
    have hitems := hs.read m rest (by omega)
    obtain ⟨c, r, hds, hspace, -⟩ := hs.led
    have hskip : skipSpace (ds ++ ']' :: rest) = ds ++ ']' :: rest := by
      rw [hds, List.cons_append]
      exact skipSpace_cons hspace _
    rw [List.append_assoc, List.cons_append, readItems, hv]
    simp only [bind, Except.bind]
    rw [skipSpace_cons (by decide)]
    simp only [hskip, hitems]
    rfl
  led := by
    obtain ⟨c, r, rfl, hspace, hbracket⟩ := h.led
    exact ⟨c, r ++ ',' :: ds, rfl, hspace, hbracket⟩
  printable := h.printable.append (.cons (by decide) hs.printable)

/-- The text of a field up to the text of its value. -/
theorem readFields_key (n : Nat) (key : String) {c : Char} {r : List Char}
    (hspace : isSpace c = false) :
    readFields (n + 1) room ((escaped key).toList ++ ':' :: (c :: r)) =
      readValue n room (c :: r) >>= fun (v, r) =>
        match skipSpace r with
        | ',' :: r => readFields n room (skipSpace r) >>= fun (fs, r) => pure ((key, v) :: fs, r)
        | '\x7d' :: r => pure ([(key, v)], r)
        | _ => throw .notJson := by
  have hcolon : skipSpace (':' :: c :: r) = ':' :: c :: r := skipSpace_cons (by decide) _
  have hvalue : readValue n room (skipSpace (c :: r)) = readValue n room (c :: r) := by
    rw [skipSpace_cons hspace]
  rw [toList_escaped, List.cons_append, List.append_assoc, List.singleton_append, readFields,
    readText?_escaped]
  simp only [found, bind, Except.bind]
  rw [hcolon]
  exact hvalue ▸ rfl

theorem Reads.field {v : Value} (h : Reads room cs v) (key : String) :
    ReadsFields room ((escaped key).toList ++ ':' :: cs) [(key, v)] where
  read n rest hn := by
    obtain ⟨m, rfl⟩ : ∃ m, n = m + 1 := ⟨n - 1, by omega⟩
    simp only [List.length_append, List.length_cons] at hn
    have hv := h.read m ('\x7d' :: rest) (by omega) (endsNumeral_cons (by simp) rest)
    obtain ⟨c, r, rfl, hspace, -⟩ := h.led
    rw [List.append_assoc, List.cons_append, List.cons_append, readFields_key m key hspace,
      ← List.cons_append, hv]
    rfl
  led := ⟨_, by rw [toList_escaped]; rfl⟩
  printable := (escaped_printable key).append (.cons (by decide) h.printable)

theorem Reads.fields {v : Value} {fields : List (String × Value)} (h : Reads room cs v)
    (key : String) (hs : ReadsFields room ds fields) :
    ReadsFields room ((escaped key).toList ++ ':' :: cs ++ ',' :: ds) ((key, v) :: fields) where
  read n rest hn := by
    obtain ⟨m, rfl⟩ : ∃ m, n = m + 1 := ⟨n - 1, by omega⟩
    simp only [List.length_append, List.length_cons] at hn
    have hv := h.read m (',' :: (ds ++ '\x7d' :: rest)) (by omega) (endsNumeral_cons (by simp) _)
    have hfields := hs.read m rest (by omega)
    have hskip : skipSpace (ds ++ '\x7d' :: rest) = ds ++ '\x7d' :: rest := by
      obtain ⟨r, rfl⟩ := hs.led
      exact skipSpace_cons (by decide) _
    obtain ⟨c, r, rfl, hspace, -⟩ := h.led
    rw [List.append_assoc, List.append_assoc, List.cons_append, List.cons_append, List.cons_append,
      readFields_key m key hspace, ← List.cons_append, hv]
    simp only [bind, Except.bind]
    rw [skipSpace_cons (by decide)]
    simp only [hskip, hfields]
    rfl
  led := ⟨_, by rw [toList_escaped]; rfl⟩
  printable := ((escaped_printable key).append (.cons (by decide) h.printable)).append
    (.cons (by decide) hs.printable)

theorem ReadsFields.reads {fields : List (String × Value)} (h : ReadsFields room cs fields)
    (hpairs : Record.ofPairs fields = fields) :
    Reads (room + 1) ('\x7b' :: (cs ++ ['\x7d'])) (.record fields) := by
  obtain ⟨r, hcs⟩ := h.led
  refine ⟨?_, ⟨'\x7b', cs ++ ['\x7d'], rfl, by decide, by decide⟩, ?_⟩
  · intro n rest hn _
    obtain ⟨m, rfl⟩ : ∃ m, n = m + 1 := ⟨n - 1, by simp at hn; omega⟩
    have hm : cs.length < m := by
      simp only [List.length_cons, List.length_append, List.length_nil] at hn
      omega
    have hfields := h.read m rest hm
    have hskip : skipSpace (cs ++ '\x7d' :: rest) = cs ++ '\x7d' :: rest := by
      rw [hcs, List.cons_append]
      exact skipSpace_cons (by decide) _
    rw [List.cons_append, List.append_assoc, List.singleton_append, readValue]
    dsimp only
    rw [hskip]
    split
    · rename_i heq
      rw [hcs, List.cons_append] at heq
      exact absurd (List.cons.inj heq).1 (by decide)
    · rw [hfields]
      simp [hpairs, bind, Except.bind, pure, Except.pure]
  · apply ArePrintable.cons (by decide)
    apply ArePrintable.append h.printable
    simp [ArePrintable]

/-! ## What is written -/

theorem intText_eq_ok {n : Int} (h : ¬ IsOverlong n) : ∃ s, intText n = .ok s :=
  not_faults_iff.mp (mt (faults_intText n).mp h)

theorem intercalate_cons_cons (a b : List Char) (l : List (List Char)) :
    [','].intercalate (a :: b :: l) = a ++ ',' :: [','].intercalate (b :: l) := by
  simp [List.intercalate]

theorem exists_writeItems {items : List Value} (hne : items ≠ [])
    (h : ∀ v ∈ items, ∃ s, writeWithin room v = .ok s ∧ Reads room s.toList v) :
    ∃ texts, writeItems room items = .ok texts ∧
      ReadsItems room ([','].intercalate (texts.map String.toList)) items := by
  induction items with
  | nil => exact absurd rfl hne
  | cons v items ih =>
    obtain ⟨s, hs, hread⟩ := h v List.mem_cons_self
    cases items with
    | nil =>
      refine ⟨[s], by simp [writeItems, hs, bind, Except.bind, pure, Except.pure], ?_⟩
      simpa [List.intercalate] using hread.singleton
    | cons w items =>
      obtain ⟨texts, htexts, hreads⟩ := ih (List.cons_ne_nil _ _) fun u hu =>
        h u (List.mem_cons_of_mem _ hu)
      obtain ⟨t, texts', rfl⟩ : ∃ t texts', texts = t :: texts' := by
        apply List.exists_cons_of_ne_nil
        rintro rfl
        obtain ⟨c, r, hnil, -⟩ := hreads.led
        cases hnil
      refine ⟨s :: t :: texts', ?_, ?_⟩
      · rw [writeItems, hs, htexts]
        rfl
      · rw [List.map_cons, List.map_cons, intercalate_cons_cons, ← List.map_cons]
        exact hread.cons hreads

theorem exists_writeFields {fields : List (String × Value)} (hne : fields ≠ [])
    (h : ∀ f ∈ fields, ∃ s, writeWithin room f.2 = .ok s ∧ Reads room s.toList f.2) :
    ∃ texts, writeFields room fields = .ok texts ∧
      ReadsFields room ([','].intercalate (texts.map String.toList)) fields := by
  induction fields with
  | nil => exact absurd rfl hne
  | cons f fields ih =>
    obtain ⟨key, v⟩ := f
    obtain ⟨s, hs, hread⟩ := h (key, v) List.mem_cons_self
    have htext : (escaped key ++ ":" ++ s).toList = (escaped key).toList ++ ':' :: s.toList := by
      simp
    cases fields with
    | nil =>
      refine ⟨[escaped key ++ ":" ++ s], ?_, ?_⟩
      · rw [writeFields, hs]
        rfl
      · simpa only [List.map_cons, List.map_nil, htext, List.intercalate_singleton] using
          hread.field key
    | cons g fields =>
      obtain ⟨texts, htexts, hreads⟩ := ih (List.cons_ne_nil _ _) fun u hu =>
        h u (List.mem_cons_of_mem _ hu)
      obtain ⟨t, texts', rfl⟩ : ∃ t texts', texts = t :: texts' := by
        apply List.exists_cons_of_ne_nil
        rintro rfl
        obtain ⟨r, hnil⟩ := hreads.led
        cases hnil
      refine ⟨(escaped key ++ ":" ++ s) :: t :: texts', ?_, ?_⟩
      · rw [writeFields, hs, htexts]
        rfl
      · rw [List.map_cons, List.map_cons, htext, intercalate_cons_cons, ← List.map_cons]
        exact hread.fields key hreads

/-- A payload that there is room for has a text, and the text is that of the payload. -/
theorem exists_writeWithin {room : Nat} {v : Value} (h : v.IsPayload) (hroom : v.levels ≤ room) :
    ∃ s, writeWithin room v = .ok s ∧ Reads room s.toList v := by
  -- The parts of a value are written with room for one level less.
  induction room generalizing v with
  | zero => exact absurd hroom (Nat.not_le.mpr v.levels_pos)
  | succ room ih =>
    cases h with
    | null => exact ⟨_, by rw [writeWithin], reads_null⟩
    | bool b => exact ⟨_, by rw [writeWithin], reads_bool b⟩
    | int hn =>
      obtain ⟨s, hs⟩ := intText_eq_ok hn
      exact ⟨s, by rw [writeWithin, hs], reads_int hs⟩
    | double negative r => exact ⟨_, by rw [writeWithin], reads_double negative r⟩
    | text s => exact ⟨_, by rw [writeWithin], reads_text s⟩
    | @list items hitems =>
      by_cases hempty : items = []
      · subst hempty
        exact ⟨"[]", by simp [writeWithin, writeItems, bind, Except.bind, pure, Except.pure],
          reads_list_nil⟩
      · obtain ⟨texts, htexts, hreads⟩ := exists_writeItems hempty fun v hv =>
          ih (hitems v hv) (Value.levels_list_le.mp hroom v hv)
        refine ⟨"[" ++ ",".intercalate texts ++ "]", ?_, ?_⟩
        · rw [writeWithin, htexts]
          rfl
        · simpa using hreads.reads
    | @record fields distinct hfields =>
      by_cases hempty : fields = []
      · subst hempty
        exact ⟨"\x7b\x7d", by simp [writeWithin, writeFields, bind, Except.bind, pure, Except.pure],
          reads_record_nil⟩
      · obtain ⟨texts, htexts, hreads⟩ := exists_writeFields hempty fun f hf =>
          ih (hfields f hf) (Value.levels_record_le.mp hroom f hf)
        refine ⟨"\x7b" ++ ",".intercalate texts ++ "\x7d", ?_, ?_⟩
        · rw [writeWithin, htexts]
          rfl
        · simpa using hreads.reads (Record.ofPairs_of_nodup distinct)

/-- What is read as a value is the whole of a text. -/
theorem Reads.read_eq_ok {s : String} {v : Value} (h : Reads (Value.levelLimit 1) s.toList v) :
    Json.read s = .ok v := by
  obtain ⟨c, r, hs, hspace, -⟩ := h.led
  have hskip : skipSpace s.toList = s.toList := by
    rw [hs]
    exact skipSpace_cons hspace r
  have hread := h.read (s.toList.length + 1) [] (Nat.le_succ _) nofun
  rw [List.append_nil] at hread
  unfold Json.read
  rw [hskip]
  dsimp only
  rw [hread]
  rfl

end Json

namespace Osc

end Osc

end Switchboard
