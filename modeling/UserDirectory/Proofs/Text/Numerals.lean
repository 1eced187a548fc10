import UserDirectory.Text.Numeral

/-!
# Numerals of a fixed width

A number written with leading zeros reads back as itself, and as long as it fits the width
its numeral has exactly as many digits, so that it can be cut out of a longer text. Zeros
behind a numeral, on the other hand, count: they are how a fraction is brought to a fixed
number of places.
-/

namespace UserDirectory

/-! ## Values -/

theorem decimalValue_eq (digits : List Char) : decimalValue digits = Nat.ofDigitChars 10 digits 0 := by
  have hstep : (fun (n : Nat) (c : Char) => n * 10 + (c.toNat - 48)) =
      fun n c => 10 * n + (c.toNat - '0'.toNat) := by
    funext n c
    rw [Nat.mul_comm]
    rfl
  rw [decimalValue, hstep]
  rfl

theorem decimalValue_append (ds es : List Char) :
    decimalValue (ds ++ es) = decimalValue ds * tenTo es.length + decimalValue es := by
  rw [decimalValue_eq, decimalValue_eq, decimalValue_eq, Nat.ofDigitChars_append,
    Nat.ofDigitChars_eq_ofDigitChars_zero, Nat.mul_comm]
  rfl

theorem decimalValue_replicate_zero (n : Nat) : decimalValue (List.replicate n '0') = 0 := by
  rw [decimalValue_eq, Nat.ofDigitChars_replicate_zero, Nat.mul_zero]

/-- **A numeral is less than the power of ten of its length.** -/
theorem decimalValue_lt {digits : List Char} (h : ∀ c ∈ digits, c.isDigit = true) :
    decimalValue digits < tenTo digits.length := by
  induction digits with
  | nil => exact Nat.one_pos
  | cons c rest ih =>
    rw [List.forall_mem_cons] at h
    have hc : decimalValue [c] ≤ 9 := by
      have hle : c.toNat ≤ 57 := by
        have hdigit := h.1
        simp only [Char.isDigit, Bool.and_eq_true, decide_eq_true_eq] at hdigit
        exact hdigit.2
      show 0 * 10 + (c.toNat - 48) ≤ 9
      omega
    have hrest := ih h.2
    have hsplit : decimalValue (c :: rest) =
        decimalValue [c] * tenTo rest.length + decimalValue rest := decimalValue_append [c] rest
    have hnext : tenTo (c :: rest).length = tenTo rest.length * 10 := rfl
    have hmul := Nat.mul_le_mul_right (tenTo rest.length) hc
    rw [hsplit, hnext]
    omega

/-! ## Leading zeros -/

/-- **A number written with leading zeros** reads back. -/
theorem decimalValue_padded (width n : Nat) : decimalValue (padded width n) = n := by
  rw [padded, decimalValue_append, decimalValue_replicate_zero, Nat.zero_mul, Nat.zero_add,
    decimalValue_eq]
  exact Nat.ofDigitChars_toDigits (by decide) (by decide)

theorem isDigit_of_mem_padded {width n : Nat} {c : Char} (h : c ∈ padded width n) :
    c.isDigit = true := by
  rcases List.mem_append.1 h with h | h
  · rw [(List.mem_replicate.1 h).2]
    rfl
  · exact Nat.isDigit_of_mem_toDigits (by decide) (by decide) h

/-- **A number that fits the width** fills it. -/
theorem length_padded {width n : Nat} (hwidth : 0 < width) (h : n < tenTo width) :
    (padded width n).length = width := by
  have hle := (Nat.length_toDigits_le_iff (by decide) hwidth).2 h
  rw [padded, List.length_append, List.length_replicate]
  omega

end UserDirectory
