import Switchboard.Proofs.DrawnFields
import Switchboard.Proofs.JsonReading

/-!
# Comments that cannot be read

Of the comments that come as JSON, almost all are brought to a message or to none. What stops one is
a number that is out of range where a number is asked for: on one platform a count beyond the
doubles, on another the product of such a number with a double, and on a third a colour with too
many digits. On every platform it is also a list that is nested too deep where a text is asked for.
-/
namespace Switchboard

namespace Value

theorem ShowsOverlong.holdsOverlong {v : Value} (h : v.ShowsOverlong) : v.HoldsOverlong := by
  induction h with
  | int h => exact .int h
  | list hv _ ih => exact .list hv ih

theorem OfJson.not_showsOverlong {v : Value} (h : v.OfJson) : ¬ v.ShowsOverlong := fun hs =>
  h.not_holdsOverlong hs.holdsOverlong

/-- A value from JSON has a display unless that has too many levels. -/
theorem OfJson.faults_display {v : Value} (h : v.OfJson) : Faults v.display ↔ v.ShowsTooDeep := by
  rw [Value.faults_display, LacksDisplay, or_iff_right h.not_showsOverlong]

theorem OfJson.faultsOnly_display {v : Value} (h : v.OfJson) :
    FaultsOnly (· = .nestedTooDeep) v.display :=
  faultsOnly_displayWithin _ v h.not_showsOverlong

/-- The value is an integer beyond every double. -/
def IsBeyond (v : Value) : Prop := ∃ n, v = .int n ∧ IsPastDoubles n

theorem one_lt_of_isPastDoubles {n : Int} (h : IsPastDoubles n) : 1 < n.natAbs := by
  have hpos := Nat.two_pow_pos 970
  unfold IsPastDoubles at h
  generalize 2 ^ 970 = b at *
  omega

/-- The value gives no amount: it is an integer beyond every double, or nested too deep. -/
def LacksAmount (v : Value) : Prop := v.IsBeyond ∨ v.ShowsTooDeep

/-- A value that gives no amount counts as true. -/
theorem LacksAmount.truthy {v : Value} (h : v.LacksAmount) : v.truthy = true := by
  rcases h with ⟨n, rfl, hpast⟩ | hdeep
  · have hone := one_lt_of_isPastDoubles hpast
    have hne : n ≠ 0 := by
      rintro rfl
      cases hone
    simpa [Value.truthy] using hne
  · obtain ⟨items, rfl⟩ := hdeep.exists_list
    rfl

theorem lacksAmount_if_truthy (v : Value) :
    (if v.truthy then v else .int 1).LacksAmount ↔ v.LacksAmount := by
  cases htruthy : v.truthy with
  | true => rfl
  | false =>
    have hone : ¬ LacksAmount (.int 1) := by
      rintro (⟨n, hn, hpast⟩ | hdeep)
      · obtain rfl := Value.int.inj hn
        exact absurd (one_lt_of_isPastDoubles hpast) (by decide)
      · exact not_showsTooDeep (v := .int 1) nofun hdeep
    exact iff_of_false hone fun h => Bool.false_ne_true (htruthy.symm.trans h.truthy)

end Value

namespace Markup

theorem faults_textOf (v : Value) : Faults (textOf v) ↔ v.LacksDisplay := by
  cases v with
  | null => exact iff_of_false (not_faults_ok _) (Value.IsPlainLeaf.not_lacksDisplay trivial)
  | absent => exact iff_of_false (not_faults_ok _) (Value.IsPlainLeaf.not_lacksDisplay trivial)
  | _ => exact Value.faults_display _

variable {v : Value}

theorem faults_textOf_json (h : v.OfJson) : Faults (textOf v) ↔ v.ShowsTooDeep := by
  rw [faults_textOf, Value.LacksDisplay, or_iff_right h.not_showsOverlong]

theorem faultsOnly_textOf (h : v.OfJson) : FaultsOnly (· = .nestedTooDeep) (textOf v) := by
  cases v with
  | null => exact .ok _
  | absent => exact .ok _
  | _ => exact h.faultsOnly_display

theorem faults_plainComment (h : v.OfJson) : Faults (plainComment v) ↔ v.ShowsTooDeep := by
  rw [plainComment, faults_bind_pure, faults_textOf_json h]

theorem faults_giftComment (h : v.OfJson) : Faults (giftComment v) ↔ v.ShowsTooDeep := by
  rw [giftComment, faults_bind_pure, faults_textOf_json h]

end Markup

namespace Amount

/-- A value from JSON that gives no amount is a fault where an amount is asked for. -/
theorem faults_ofValue {v : Value} (h : v.OfJson) : Faults (ofValue v) ↔ v.LacksAmount := by
  have hother : (∀ n, v ≠ .int n) → (v.LacksAmount ↔ v.ShowsTooDeep) := by
    intro hint
    exact or_iff_right fun ⟨n, hn, _⟩ => hint n hn
  unfold ofValue
  split
  · rw [hother nofun]
    exact iff_of_false (not_faults_ok _) (Value.not_showsTooDeep nofun)
  · rename_i n
    have hdeep : ¬ Value.ShowsTooDeep (.int n) := Value.not_showsTooDeep nofun
    simp [Value.LacksAmount, Value.IsBeyond, Double.faults_ofInt, hdeep]
  · rw [hother nofun]
    exact iff_of_false (not_faults_ok _) (Value.not_showsTooDeep nofun)
  · rename_i hint _
    rw [hother hint, ← Markup.faults_textOf_json h]
    cases ht : Markup.textOf v with
    | ok s => simp
    | error f =>
      obtain rfl := Markup.faultsOnly_textOf h f ht
      simp [Fault.family]

/-- One factor is an integer beyond every double, and the other is a double. -/
def LacksProduct (a b : Value) : Prop :=
  (a.IsBeyond ∧ ∃ x, b = .double x) ∨ ((∃ x, a = .double x) ∧ b.IsBeyond)

theorem faults_product (a b : Value) : Faults (product a b) ↔ LacksProduct a b := by
  unfold product LacksProduct
  split
  · simp
  · rw [faults_bind_pure, Double.faults_ofInt]
    simp [Value.IsBeyond]
  · rw [faults_bind_pure, Double.faults_ofInt]
    simp [Value.IsBeyond]
  · simp [Value.IsBeyond]
  · rename_i hii hid hdi hdd
    rw [iff_false_left (not_faults_ok _)]
    rintro (⟨⟨n, rfl, -⟩, x, rfl⟩ | ⟨⟨x, rfl⟩, n, rfl, -⟩)
    · exact hid n x rfl rfl
    · exact hdi x n rfl rfl

end Amount

namespace Drawn

/-- What is drawn is the default or a value of the record. -/
theorem firstOf_property {P : Value → Prop} {r : Record Value} (hr : ∀ p ∈ r, P p.2) {d : Drawn}
    (hd : P d.value) (place keys : List String) : P (firstOf place r keys d).value := by
  induction keys with
  | nil => exact hd
  | cons key keys ih =>
    unfold firstOf field
    cases hget : Record.get? r key with
    | none => exact ih
    | some v =>
      dsimp only
      split
      · exact hr _ (Record.mem_of_get?_eq_some hget)
      · exact ih

end Drawn

theorem Value.OfJson.firstOf {r : Record Value} (h : (Value.record r).OfJson)
    (place keys : List String) {d : Drawn} (hd : d.value.OfJson) :
    (Drawn.firstOf place r keys d).value.OfJson := by
  cases h with
  | record h => exact Drawn.firstOf_property h hd place keys

/-! ## The platforms -/

namespace Color

/-- The text has a colour in it one of whose components has too many digits. -/
def HasLongComponent (cs : List Char) : Prop :=
  ∃ red green blue opacity, find? cs = some (red, green, blue, opacity) ∧
    ∃ ds ∈ [red, green, blue], Number.digitLimit < ds.length

/-- The value is nested too deep, or its text has such a colour in it. -/
def IsUnreadable (v : Value) : Prop :=
  v.ShowsTooDeep ∨ ∃ s, Markup.textOf v = .ok s ∧ HasLongComponent s.toList

theorem faults_componentValue (ds : List Char) :
    Faults (componentValue ds) ↔ Number.digitLimit < ds.length := by
  unfold componentValue
  split <;> simp <;> omega

theorem faults_ofText (cs : List Char) : Faults (ofText cs) ↔ HasLongComponent cs := by
  unfold ofText HasLongComponent
  cases hf : find? cs with
  | none => simp
  | some found =>
    obtain ⟨red, green, blue, opacity⟩ := found
    have hfound : (∃ r g b a, some (red, green, blue, opacity) = some (r, g, b, a) ∧
        ∃ ds ∈ [r, g, b], Number.digitLimit < ds.length) ↔
        ∃ ds ∈ [red, green, blue], Number.digitLimit < ds.length := by
      simp
    rw [hfound]
    dsimp only
    rw [faults_bind]
    simp only [faults_bind_bind_pure, faults_componentValue]
    by_cases hred : Number.digitLimit < red.length
    · simp [hred]
    · obtain ⟨n, hn⟩ := not_faults_iff.mp (mt (faults_componentValue red).mp hred)
      simp [hred, hn]

theorem faults_ofValue {v : Value} (h : v.OfJson) : Faults (ofValue v) ↔ IsUnreadable v := by
  simp only [ofValue, faults_bind, faults_ofText, Markup.faults_textOf_json h, IsUnreadable]

end Color

namespace Youtube

variable {raw source : Record Value}

/-- The colours that are asked for are among those of the record. -/
theorem faults_colorsOf (h : (Value.record source).OfJson) (keys : List String) :
    Faults (colorsOf source keys) ↔ ∃ key ∈ keys, Color.IsUnreadable (Value.lookup source key) := by
  induction keys with
  | nil => simp [colorsOf]
  | cons key keys ih =>
    rw [colorsOf, faults_bind_bind_pure, Color.faults_ofValue (h.lookup key), ih]
    simp

/-- The colours that a super chat gives. -/
def colorSource (raw : Record Value) : Record Value := (Value.lookup raw "colors").fields?.getD []

/-- The comment or the address of the profile image of the raw data is nested too deep, or the data
is that of a super chat with a colour that cannot be read. -/
def IsUnreadable (raw : Record Value) : Prop :=
  ((Value.lookup raw "comment").ShowsTooDeep ∨ (Value.lookup raw "profileImage").ShowsTooDeep) ∨
  isSuperchat raw = true ∧
    ∃ key ∈ colorKeys ++ optionalColorKeys.filter fun key =>
      (Value.lookupOrAbsent (colorSource raw) key).truthy,
      Color.IsUnreadable (Value.lookup (colorSource raw) key)

theorem faults_commonFields (h : (Value.record raw).OfJson) : Faults (commonFields raw) ↔
    (Value.lookup raw "comment").ShowsTooDeep ∨ (Value.lookup raw "profileImage").ShowsTooDeep := by
  have hprofile : (Value.lookup raw "profileImage").truthy = false →
      ¬ (Value.lookup raw "profileImage").ShowsTooDeep := fun hfalse hdeep =>
    Bool.false_ne_true (hfalse.symm.trans (Value.LacksAmount.truthy (Or.inr hdeep)))
  rw [commonFields, ← Markup.faults_plainComment (h.lookup "comment")]
  refine faults_bind_of_ok fun comment _ => ?_
  change Faults (if (Value.lookup raw "profileImage").truthy = true then _ else _) ↔ _
  split
  · simp only [pure_bind, faults_bind_pure, Markup.faults_textOf_json (h.lookup "profileImage")]
  · rename_i hfalse
    exact iff_of_false (not_faults_ok _) (hprofile (Bool.eq_false_of_not_eq_true hfalse))

theorem ofJson_colorSource (h : (Value.record raw).OfJson) :
    (Value.record (colorSource raw)).OfJson := by
  have hcolors := h.lookup "colors"
  unfold colorSource
  cases hc : Value.lookup raw "colors" with
  | record source => exact hc ▸ hcolors
  | _ => exact .record nofun

theorem faults_normalize (h : (Value.record raw).OfJson) :
    Faults (normalize raw) ↔ IsUnreadable raw := by
  unfold normalize IsUnreadable
  rw [← faults_commonFields h]
  refine faults_bind_of_ok fun fields _ => ?_
  split
  · rename_i hchat
    rw [faults_bind_pure]
    change Faults (colorsOf (colorSource raw) _) ↔ _
    rw [faults_colorsOf (ofJson_colorSource h), and_iff_right hchat]
    rfl
  · rename_i hchat
    simp [hchat]

end Youtube

namespace Bilibili

variable {raw : Record Value}

theorem ofJson_pick (h : (Value.record raw).OfJson) (keys : List String) {default : Value}
    (hd : default.OfJson) : (pick raw keys default).value.OfJson := h.firstOf [] keys hd

/-- The comment of the raw data is nested too deep, or the data is that of a gift whose price and
number have no product. -/
def IsUnreadable (raw : Record Value) : Prop :=
  (pick raw ["comment", "msg"] (.text "")).value.ShowsTooDeep ∨
  (Value.lookupOrAbsent raw "hasGift").truthy = true ∧
    Amount.LacksProduct (pick raw ["price"] (.int 0)).value (pick raw ["num"] (.int 1)).value

theorem faults_commonFields (h : (Value.record raw).OfJson) :
    Faults (commonFields raw) ↔ (pick raw ["comment", "msg"] (.text "")).value.ShowsTooDeep := by
  rw [commonFields, faults_bind_pure, Markup.faults_plainComment (ofJson_pick h _ (.text ""))]

theorem faults_giftFields (h : (Value.record raw).OfJson) : Faults (giftFields raw) ↔
    Amount.LacksProduct (pick raw ["price"] (.int 0)).value (pick raw ["num"] (.int 1)).value ∨
      (pick raw ["comment", "msg"] (.text "")).value.ShowsTooDeep := by
  unfold giftFields
  dsimp only
  rw [faults_bind_bind_pure, Amount.faults_product,
    Markup.faults_giftComment (ofJson_pick h _ (.text ""))]

theorem faults_normalize (h : (Value.record raw).OfJson) :
    Faults (normalize raw) ↔ IsUnreadable raw := by
  unfold normalize IsUnreadable
  rw [← faults_commonFields h]
  refine faults_bind_of_ok fun fields hfields => ?_
  -- The comment of a gift is also part of what it has beyond the common fields.
  have hshown : ¬ (pick raw ["comment", "msg"] (.text "")).value.ShowsTooDeep := by
    rw [← faults_commonFields h, hfields]
    exact not_faults_ok fields
  change Faults (if (Value.lookupOrAbsent raw "hasGift").truthy = true then _ else _) ↔ _
  split
  · rename_i hgift
    rw [faults_bind_pure, faults_giftFields h, or_iff_left hshown, and_iff_right hgift]
  · rename_i hgift
    simp [hgift]

end Bilibili

namespace Niconico

variable {raw : Record Value}

/-- The comment of the raw data is nested too deep. -/
def IsUnreadable (raw : Record Value) : Prop := (Value.lookup raw "comment").ShowsTooDeep

theorem faults_normalize (h : (Value.record raw).OfJson) :
    Faults (normalize raw) ↔ IsUnreadable raw := by
  have hcomment := h.lookup "comment"
  unfold normalize IsUnreadable
  dsimp only
  split
  · rw [faults_bind_pure, Markup.faults_giftComment hcomment]
  · rw [faults_bind_pure, Markup.faults_plainComment hcomment]

end Niconico

namespace Twitch

variable {raw : Record Value} {now : Int}

theorem ofJson_pick (h : (Value.record raw).OfJson) (keys : List String) {default : Value}
    (hd : default.OfJson) : (pick raw keys default).value.OfJson := h.firstOf [] keys hd

theorem ofJson_pick_int (h : (Value.record raw).OfJson) (keys : List String) {n : Int}
    (hn : n.natAbs ≤ 1) : (pick raw keys (.int n)).value.OfJson := by
  refine ofJson_pick h keys (.int fun hlong => ?_)
  have hone : 1 < 10 ^ Number.digitLimit := Nat.one_lt_pow (by decide) (by decide)
  exact absurd (Nat.lt_of_lt_of_le hone hlong) (Nat.not_lt.mpr hn)

/-- A text that the kind of the message asks for is nested too deep, or the number that it asks for
is beyond every double. -/
def LacksKindFields (raw : Record Value) : TwitchKind → Prop
  | .comment => False
  | .bits => (pick raw ["bits", "bitsAmount"] (.int 0)).value.LacksAmount
  | .subscription =>
    (pick raw ["tier", "subscriptionTier"] (.text "1000")).value.ShowsTooDeep ∨
      (pick raw ["multiMonthGift"] (.int 1)).value.LacksAmount
  | .raid =>
    (pick raw ["viewerCount", "raiderCount"] (.int 0)).value.LacksAmount ∨
      (pick raw ["raidMessage", "message"] (.text "")).value.ShowsTooDeep

/-- The comment of the raw data is nested too deep, or its kind asks for what cannot be read. -/
def IsUnreadable (raw : Record Value) : Prop :=
  (pick raw ["comment", "message"] (.text "")).value.ShowsTooDeep ∨
    LacksKindFields raw (classify raw)

theorem faults_commonFields (h : (Value.record raw).OfJson) : Faults (commonFields raw now) ↔
    (pick raw ["comment", "message"] (.text "")).value.ShowsTooDeep := by
  rw [commonFields, faults_bind_pure, Markup.faults_plainComment (ofJson_pick h _ (.text ""))]

theorem faults_bitsFields (h : (Value.record raw).OfJson) (fields : Record Drawn) :
    Faults (bitsFields raw fields) ↔ LacksKindFields raw .bits := by
  unfold bitsFields LacksKindFields
  dsimp only
  rw [faults_bind_bind_pure, Amount.bitsInDollars, Amount.cheerTier, faults_bind_pure,
    faults_bind_pure, Amount.faults_ofValue (ofJson_pick_int h _ (by decide)), or_self]

theorem faults_subscriptionFields (h : (Value.record raw).OfJson) (fields : Record Drawn) :
    Faults (subscriptionFields raw fields) ↔ LacksKindFields raw .subscription := by
  have htier := ofJson_pick h ["tier", "subscriptionTier"] (.text "1000")
  have hmonths : (if (pick raw ["multiMonthGift"] (.int 1)).value.truthy then
      (pick raw ["multiMonthGift"] (.int 1)).value else .int 1).OfJson := by
    have hone := ofJson_pick_int h ["multiMonthGift"] (n := 1) (by decide)
    split
    · exact hone
    · exact @ofJson_pick_int [] (.record nofun) [] 1 (by decide)
  unfold subscriptionFields LacksKindFields
  dsimp only
  rw [faults_bind_bind_pure, Amount.tierNumber, Amount.subscriptionValue, faults_bind_pure,
    faults_bind_bind_pure, Amount.tierOf, faults_bind_pure, Markup.faults_textOf_json htier,
    Amount.faults_ofValue hmonths, Value.lacksAmount_if_truthy, ← or_assoc, or_self]

theorem faults_raidFields (h : (Value.record raw).OfJson) (fields : Record Drawn) :
    Faults (raidFields raw fields) ↔ LacksKindFields raw .raid := by
  have hviewers := ofJson_pick_int h ["viewerCount", "raiderCount"] (n := 0) (by decide)
  have hmessage := ofJson_pick h ["raidMessage", "message"] (.text "")
  unfold raidFields LacksKindFields
  dsimp only
  rw [faults_bind_bind_pure, Amount.raidSize, raidComment, faults_bind_pure,
    faults_bind_bind_pure, Amount.faults_ofValue hviewers, hviewers.faults_display,
    Markup.faults_textOf_json hmessage, ← or_assoc]
  exact or_congr_left (or_iff_left_of_imp Or.inr)

theorem faults_kindFields (h : (Value.record raw).OfJson) (fields : Record Drawn) (k : TwitchKind) :
    Faults (kindFields raw fields k) ↔ LacksKindFields raw k := by
  cases k with
  | comment => exact iff_of_false (not_faults_ok _) id
  | bits => exact faults_bitsFields h fields
  | subscription => exact faults_subscriptionFields h fields
  | raid => exact faults_raidFields h fields

theorem faults_normalize (h : (Value.record raw).OfJson) :
    Faults (normalize raw now) ↔ IsUnreadable raw := by
  unfold normalize IsUnreadable
  rw [← @faults_commonFields raw now h]
  refine faults_bind_of_ok fun fields _ => ?_
  rw [faults_bind_pure, faults_kindFields h]

end Twitch

/-! ## Comments -/

namespace Message

/-- The raw data of a service breaks off the making of a message. -/
def IsUnreadableRaw (service : String) (raw : Record Value) : Prop :=
  match service with
  | "youtube" => Youtube.IsUnreadable raw
  | "bilibili" => Bilibili.IsUnreadable raw
  | "niconama" => Niconico.IsUnreadable raw
  | "niconico" => Niconico.IsUnreadable raw
  | "twitch" => Twitch.IsUnreadable raw
  | _ => False

/-- The comment is of a service with raw data that breaks off the making of a message. -/
def IsUnreadable (comment : Value) : Prop :=
  ∃ c service raw, comment = .record c ∧ Value.lookup c "service" = .text service ∧
    Value.lookup c "data" = .record raw ∧ IsUnreadableRaw service raw

theorem faults_normalizeRaw? {raw : Record Value} (json : (Value.record raw).OfJson)
    (service : String) (now : Int) :
    (∃ found, normalizeRaw? service raw now = some found ∧ Faults found) ↔
      IsUnreadableRaw service raw := by
  unfold normalizeRaw? IsUnreadableRaw
  split
  · simp [Youtube.faults_normalize json]
  · simp [Bilibili.faults_normalize json]
  · simp [Niconico.faults_normalize json]
  · simp [Niconico.faults_normalize json]
  · simp [Twitch.faults_normalize json]
  · simp_all

/-- Only such comments are neither brought to a message nor to none. -/
theorem faults_ofComment {comment : Value} (json : comment.OfJson) (now : Int) :
    Faults (ofComment now comment) ↔ IsUnreadable comment := by
  constructor
  · intro h
    unfold ofComment at h
    split at h
    · rename_i c
      split at h
      · rename_i service raw hservice hdata
        have hraw : (Value.record raw).OfJson := hdata ▸ json.lookup "data"
        refine ⟨c, service, raw, rfl, hservice, hdata, ?_⟩
        rw [← faults_normalizeRaw? hraw service now]
        split at h
        · rename_i found hfound
          exact ⟨found, hfound, faults_bind_pure.mp h⟩
        · exact absurd h (not_faults_ok _)
      · exact absurd h (not_faults_ok _)
    · exact absurd h (not_faults_ok _)
  · rintro ⟨c, service, raw, rfl, hservice, hdata, h⟩
    have hraw : (Value.record raw).OfJson := hdata ▸ json.lookup "data"
    obtain ⟨found, hfound, hfaults⟩ := (faults_normalizeRaw? hraw service now).mpr h
    simp only [ofComment, hservice, hdata, hfound]
    exact faults_bind_pure.mpr hfaults

end Message

end Switchboard
