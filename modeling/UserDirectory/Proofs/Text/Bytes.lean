import Mathlib.Logic.Function.Basic
import UserDirectory.Text.Bytes

/-!
# Texts, bytes and digits

Nothing is lost on the way from a text to its bytes and from bytes to their digits: both
maps are injective. Bytes are made character by character, and so the bytes of two texts
one after the other are those of both in turn.
-/

namespace UserDirectory

/-! ## The bytes of a text -/

theorem byteList_loop (bytes : ByteArray) (i : Nat) (acc : List UInt8) :
    ByteArray.toList.loop bytes i acc = acc.reverse ++ bytes.data.toList.drop i := by
  fun_induction ByteArray.toList.loop bytes i acc with
  | case1 i acc h ih =>
    have hi : i < bytes.data.toList.length := h
    have hget : bytes.get! i = bytes.data.toList[i] := getElem!_pos bytes.data i h
    rw [ih, List.reverse_cons, List.append_assoc, List.singleton_append, hget,
      ← List.drop_eq_getElem_cons hi]
  | case2 i acc h =>
    have hi : bytes.data.toList.length ≤ i := Nat.le_of_not_lt h
    rw [List.drop_eq_nil_of_le hi, List.append_nil]

theorem utf8Bytes_eq (s : String) : utf8Bytes s = s.toByteArray.data.toList := by
  unfold utf8Bytes ByteArray.toList
  rw [byteList_loop]
  rfl

/-- **A text is known by its bytes.** -/
theorem utf8Bytes_injective : Function.Injective utf8Bytes := by
  intro s t h
  rw [utf8Bytes_eq, utf8Bytes_eq] at h
  exact String.toByteArray_inj.1 (ByteArray.ext (Array.toList_inj.1 h))

@[simp] theorem utf8Bytes_empty : utf8Bytes "" = [] := utf8Bytes_eq ""

@[simp] theorem utf8Bytes_append (s t : String) :
    utf8Bytes (s ++ t) = utf8Bytes s ++ utf8Bytes t := by
  simp only [utf8Bytes_eq, String.toByteArray_append, ByteArray.data_append, Array.toList_append]

/-- **The bytes of a text are those of its characters in turn.** -/
theorem utf8Bytes_ofList_cons (c : Char) (cs : List Char) :
    utf8Bytes (String.ofList (c :: cs)) =
      utf8Bytes (String.singleton c) ++ utf8Bytes (String.ofList cs) := by
  rw [← utf8Bytes_append, String.singleton_eq_ofList, ← String.ofList_append]
  rfl

@[simp] theorem utf8Bytes_eq_nil_iff {s : String} : utf8Bytes s = [] ↔ s = "" :=
  utf8Bytes_injective.eq_iff' utf8Bytes_empty

/-! ## The digits of a byte -/

theorem hexLower_injective : ∀ m < 16, ∀ n < 16, hexLower m = hexLower n → m = n := by decide

/-- **Bytes are known by their digits**, two for each. -/
theorem hexText_injective : Function.Injective hexText := by
  intro bs cs h
  replace h := String.ofList_injective h
  induction bs generalizing cs with
  | nil =>
    cases cs with
    | nil => rfl
    | cons c cs => exact absurd h nofun
  | cons b bs ih =>
    cases cs with
    | nil => exact absurd h nofun
    | cons c cs =>
      obtain ⟨hhigh, h⟩ := List.cons.inj h
      obtain ⟨hlow, h⟩ := List.cons.inj h
      have hb := b.toNat_lt
      have hc := c.toNat_lt
      have hhigh := hexLower_injective _ (by omega) _ (by omega) hhigh
      have hlow := hexLower_injective _ (by omega) _ (by omega) hlow
      rw [ih h, UInt8.toNat_inj.1 (show b.toNat = c.toNat by omega)]

end UserDirectory
