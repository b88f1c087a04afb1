import Switchboard.Text.Word

/-!
# The pieces of a browser's pattern

A browser reads a pattern from left to right: the opening of a named group, a backslash with what it
escapes, a reference to a group, or a whole set. All else stands for itself. Of these pieces three
are spelled differently in the patterns that are read here.
-/
namespace Switchboard.Pattern.Browser

/-- The opening of a named group starts here, and not that of a look behind. -/
def StartsGroup (cs : List Char) : Prop :=
  "(?<".toList <+: cs ∧ ¬ "(?<=".toList <+: cs ∧ ¬ "(?<!".toList <+: cs

instance (cs : List Char) : Decidable (StartsGroup cs) := inferInstanceAs (Decidable (_ ∧ _ ∧ _))

/-- A reference as it is written. -/
def referenceText (name : List Char) : List Char := "\\k<".toList ++ (name ++ ['>'])

/-- The name of the reference to a group that starts here, if one does. -/
def reference? (cs : List Char) : Option (List Char) :=
  let name := (cs.drop 3).takeWhile Text.isAsciiWord
  if name ≠ [] ∧ referenceText name <+: cs then some name else none

/-- What stands before the first closing bracket that is not escaped. -/
def setBody? : List Char → Option (List Char)
  | [] => none
  | ']' :: _ => some []
  | '\\' :: c :: cs => (setBody? cs).map ('\\' :: c :: ·)
  | c :: cs => (setBody? cs).map (c :: ·)

/-- A piece of a pattern. -/
inductive Token
  | group
  | reference (name : List Char)
  | escape (c : Char)
  | set (body : List Char)
  | char (c : Char)

namespace Token

def text : Token → List Char
  | group => "(?<".toList
  | reference name => referenceText name
  | escape c => ['\\', c]
  | set body => '[' :: (body ++ [']'])
  | char c => [c]

/-- The piece as it is spelled here. The set that excludes nothing is that of all characters. -/
def respelled : Token → List Char
  | group => "(?P<".toList
  | reference name => "(?P=".toList ++ (name ++ [')'])
  | set ['^'] => "[\\s\\S]".toList
  | t => t.text

end Token

/-- The first piece of a pattern that is not empty. -/
def first (c : Char) (cs : List Char) : Token :=
  if StartsGroup (c :: cs) then .group
  else match reference? (c :: cs) with
    | some name => .reference name
    | none =>
      match c, cs with
      | '\\', d :: _ => .escape d
      | '[', cs => (setBody? cs).elim (.char '[') .set
      | c, _ => .char c

/-- The pieces of a pattern; `skip` characters belong to the last one. -/
def tokensFrom : Nat → List Char → List Token
  | _, [] => []
  | skip + 1, _ :: cs => tokensFrom skip cs
  | 0, c :: cs => first c cs :: tokensFrom ((first c cs).text.length - 1) cs

def tokens (cs : List Char) : List Token := tokensFrom 0 cs

/-- The text of some pieces. -/
def textOf (ts : List Token) : List Char := ts.flatMap Token.text

/-! ## Reading pieces -/

theorem setBody?_eq_some {cs body : List Char} (h : setBody? cs = some body) :
    body ++ [']'] <+: cs := by
  fun_induction setBody? cs generalizing body with
  | case1 => cases h
  | case2 cs =>
    cases h
    exact ⟨cs, rfl⟩
  | case3 c cs ih =>
    obtain ⟨b, hb, rfl⟩ := Option.map_eq_some_iff.mp h
    simpa using ih hb
  | case4 c cs _ _ ih =>
    obtain ⟨b, hb, rfl⟩ := Option.map_eq_some_iff.mp h
    simpa using ih hb

theorem reference?_eq_some {cs name : List Char} (h : reference? cs = some name) :
    name ≠ [] ∧ (∀ c ∈ name, Text.isAsciiWord c = true) ∧ referenceText name <+: cs := by
  unfold reference? at h
  dsimp only at h
  split at h
  · rename_i hname
    cases h
    exact ⟨hname.1, fun c hc => List.all_eq_true.mp List.all_takeWhile c hc, hname.2⟩
  · cases h

/-- The piece may be the first one before a text. -/
inductive Leads : Token → List Char → Prop
  | group {rest : List Char} (starts : StartsGroup ("(?<".toList ++ rest)) : Leads .group rest
  | reference {name rest : List Char} (named : name ≠ [])
    (word : ∀ c ∈ name, Text.isAsciiWord c = true) : Leads (.reference name) rest
  | escape (c : Char) (rest : List Char) : Leads (.escape c) rest
  | set (body rest : List Char) : Leads (.set body) rest
  | char {c : Char} {rest : List Char} (group : ¬ StartsGroup (c :: rest))
    (escape : c = '\\' → rest = []) (set : c = '[' → setBody? rest = none) : Leads (.char c) rest

/-- The first piece is a part of the text, and the next one begins behind it. -/
theorem exists_leads (c : Char) (cs : List Char) :
    ∃ rest, c :: cs = (first c cs).text ++ rest ∧ Leads (first c cs) rest := by
  unfold first
  split
  · rename_i hgroup
    obtain ⟨rest, hrest⟩ := hgroup.1
    exact ⟨rest, hrest.symm, .group (hrest ▸ hgroup)⟩
  · rename_i hgroup
    split
    · rename_i name hname
      obtain ⟨hne, hword, rest, hrest⟩ := reference?_eq_some hname
      exact ⟨rest, hrest.symm, .reference hne hword⟩
    · split
      · rename_i d ds _
        exact ⟨ds, rfl, .escape d ds⟩
      · cases hbody : setBody? cs with
        | some body =>
          obtain ⟨rest, hrest⟩ := setBody?_eq_some hbody
          exact ⟨rest, congrArg ('[' :: ·) hrest.symm, .set body rest⟩
        | none => exact ⟨cs, rfl, .char hgroup (fun h => absurd h (by decide)) fun _ => hbody⟩
      · rename_i hset hescape
        refine ⟨cs, rfl, .char hgroup ?_ ?_⟩
        · rintro rfl
          cases cs with
          | nil => rfl
          | cons d ds => exact (hescape d ds rfl rfl).elim
        · rintro rfl
          exact (hset rfl).elim

theorem tokensFrom_eq (skip : Nat) (cs : List Char) :
    tokensFrom skip cs = tokens (cs.drop skip) := by
  induction skip generalizing cs with
  | zero => rfl
  | succ skip ih =>
    cases cs with
    | nil => rfl
    | cons c cs => exact ih cs

/-- A text is read piece by piece. -/
theorem induction_tokens {P : List Char → Prop} (nil : P [])
    (step : ∀ t rest, Leads t rest → tokens (t.text ++ rest) = t :: tokens rest → P rest →
      P (t.text ++ rest)) (cs : List Char) : P cs := by
  induction hlength : cs.length using Nat.strongRecOn generalizing cs with
  | ind n ih =>
    cases cs with
    | nil => exact nil
    | cons c cs =>
      obtain ⟨rest, hrest, hleads⟩ := exists_leads c cs
      have hpos : 0 < (first c cs).text.length := by
        cases first c cs <;> simp [Token.text, referenceText]
      have hdrop : cs.drop ((first c cs).text.length - 1) = rest := by
        have h := congrArg (List.drop (first c cs).text.length) hrest
        rw [List.drop_left] at h
        rw [← h, ← List.drop_succ_cons (a := c), Nat.sub_add_cancel hpos]
      have htokens : tokens ((first c cs).text ++ rest) = first c cs :: tokens rest := by
        rw [← hrest, ← hdrop, ← tokensFrom_eq]
        rfl
      rw [hrest]
      apply step _ _ hleads htokens
      apply ih rest.length _ rest rfl
      have := congrArg List.length hrest
      rw [List.length_append, hlength] at this
      omega

/-- Nothing is lost in reading a text. -/
theorem textOf_tokens (cs : List Char) : textOf (tokens cs) = cs := by
  induction cs using induction_tokens with
  | nil => rfl
  | step t rest _ htokens ih => rw [htokens, textOf, List.flatMap_cons, ← textOf, ih]

end Switchboard.Pattern.Browser
