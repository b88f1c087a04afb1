import Switchboard.Osc.Argument

/-!
# The octets of a text

A text is read back from its octets, so no two texts have the same ones.
-/
namespace Switchboard.Osc

/-- The octets of an array from a position on. -/
theorem toList_loop (octets : ByteArray) (i : Nat) (before : List UInt8) :
    ByteArray.toList.loop octets i before = before.reverse ++ octets.data.toList.drop i := by
  fun_induction ByteArray.toList.loop octets i before with
  | case1 i before h ih =>
    have hi : i < octets.data.toList.length := by simpa using h
    rw [ih, List.drop_eq_getElem_cons hi]
    simp [ByteArray.get!, h]
  | case2 i before h =>
    have hi : octets.data.toList.length ≤ i := by simpa using h
    simp [List.drop_eq_nil_of_le hi]

theorem utf8_eq (s : String) : utf8 s = s.toByteArray.data.toList := by
  simpa [utf8, ByteArray.toList] using toList_loop s.toByteArray 0 []

/-- The text that some octets stand for. -/
def ofUtf8? (octets : List UInt8) : Option String := String.fromUTF8? ⟨octets.toArray⟩

@[simp] theorem ofUtf8?_utf8 (s : String) : ofUtf8? (utf8 s) = some s := by
  simp [ofUtf8?, utf8_eq, String.fromUTF8?, String.fromUTF8, s.isValidUTF8]

theorem utf8_injective {s t : String} (h : utf8 s = utf8 t) : s = t := by
  simpa using congrArg ofUtf8? h

@[simp] theorem utf8_empty : utf8 "" = [] := by simp [utf8_eq]

end Switchboard.Osc
