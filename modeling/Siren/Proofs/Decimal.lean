import Mathlib.Tactic.IntervalCases
import Siren.Text.Digits

/-!
# Decimal numbers

The printed form of a 64-bit integer is read back as that integer: the digits of a
number are those of its tenth part and one more, and reading goes the same way.
-/

namespace Siren
namespace Text

theorem encode_digitChar {digit : Nat} (small : digit < 10) :
    String.utf8EncodeChar (Nat.digitChar digit) = [UInt8.ofNat (48 + digit)] := by
  interval_cases digit <;> rfl

/-- The last digit of a number stands behind those of its tenth part. -/
theorem ofNat_eq (value : Nat) :
    ofNat value =
      (if value < 10 then [] else ofNat (value / 10)) ++ [UInt8.ofNat (48 + value % 10)] := by
  have spelled (value : Nat) :
      ofNat value = (Nat.toDigits 10 value).flatMap String.utf8EncodeChar := by
    rw [ofNat, ofString, Nat.repr, String.toList_ofList]
  rw [spelled, spelled, Nat.toDigits_eq_if (by omega)]
  split
  · rename_i small
    simp [encode_digitChar small, Nat.mod_eq_of_lt small]
  · simp [encode_digitChar (Nat.mod_lt value (by omega))]

theorem isDigit_digit {digit : Nat} (small : digit < 10) :
    isDigit (UInt8.ofNat (48 + digit)) = true := by
  interval_cases digit <;> rfl

theorem digitValue_digit {digit : Nat} (small : digit < 10) :
    digitValue (UInt8.ofNat (48 + digit)) = digit := by
  interval_cases digit <;> rfl

theorem ofNat_ne_nil (value : Nat) : ofNat value ≠ [] := by
  rw [ofNat_eq]
  exact List.append_ne_nil_of_right_ne_nil _ (List.cons_ne_nil _ _)

/-- Numbers are printed in digits. -/
theorem isDigit_of_mem_ofNat
    {value : Nat}
    {byte : UInt8}
    (member : byte ∈ ofNat value) :
    isDigit byte = true := by
  induction value using Nat.strongRecOn with
  | ind value inductionHypothesis =>
      rw [ofNat_eq, List.mem_append, List.mem_singleton] at member
      rcases member with earlier | rfl
      · split at earlier
        · cases earlier
        · exact inductionHypothesis (value / 10) (by omega) earlier
      · exact isDigit_digit (Nat.mod_lt value (by omega))

/-- Digits denote the number they are printed for. -/
theorem foldl_ofNat (value : Nat) :
    (ofNat value).foldl (fun sum digit => sum * 10 + digitValue digit) 0 = value := by
  induction value using Nat.strongRecOn with
  | ind value inductionHypothesis =>
      rw [ofNat_eq, List.foldl_append, List.foldl_cons, List.foldl_nil,
        digitValue_digit (Nat.mod_lt value (by omega))]
      split
      · rw [List.foldl_nil]
        omega
      · rw [inductionHypothesis (value / 10) (by omega)]
        omega

theorem magnitude?_ofNat (value : Nat) : magnitude? 10 (ofNat value) = some value := by
  have inBase : (ofNat value).any (fun digit => decide (10 ≤ digitValue digit)) = false := by
    rw [List.any_eq_false]
    intro digit member
    have isDigit := isDigit_of_mem_ofNat member
    have small : digit.toNat - 48 < 10 := by
      simp only [Text.isDigit, Bool.and_eq_true, decide_eq_true_eq, UInt8.le_iff_toNat_le,
        UInt8.toNat_ofNat] at isDigit
      omega
    rw [digitValue, if_pos isDigit]
    simpa using small
  rw [magnitude?, inBase, Bool.or_false, decide_eq_false (ofNat_ne_nil value), foldl_ofNat]
  rfl

/-- A number begins with a digit, so it has no sign. -/
theorem exists_ofNat_eq_cons (value : Nat) :
    ∃ first rest, ofNat value = first :: rest ∧ isDigit first = true ∧ first ≠ 45 := by
  cases equal : ofNat value with
  | nil => exact absurd equal (ofNat_ne_nil value)
  | cons first rest =>
      have digit : isDigit first = true :=
        isDigit_of_mem_ofNat (equal ▸ List.mem_cons_self)
      refine ⟨first, rest, rfl, digit, ?_⟩
      rintro rfl
      cases digit

/-- A number between the bounds fits into 64 bits. -/
theorem fits_of_bounds {value : Int} (lower : -2 ^ 63 ≤ value) (upper : value < 2 ^ 63) :
    (decide (-(Int.pow 2 63) ≤ value) && decide (value < Int.pow 2 63)) = true := by
  have power : Int.pow 2 63 = 9223372036854775808 := rfl
  rw [power, Bool.and_eq_true, decide_eq_true_eq, decide_eq_true_eq]
  omega

theorem toInt64?_ofNat {value : Nat} (fits : (value : Int) < 2 ^ 63) :
    toInt64? (ofNat value) = some (Int64.ofInt value) := by
  obtain ⟨first, rest, equal, -, unsigned⟩ := exists_ofNat_eq_cons value
  have noSign : ∀ digits, ofNat value ≠ 45 :: digits := by
    intro digits same
    exact unsigned (List.cons.inj (equal.symm.trans same)).1
  rw [toInt64?.eq_2 _ noSign, magnitude?_ofNat, Option.bind_eq_bind, Option.bind_some,
    Option.pure_def, Option.map_some, Option.bind_some]
  exact if_pos (fits_of_bounds (by omega) fits)

theorem toInt64?_minus {value : Nat} (fits : (value : Int) ≤ 2 ^ 63) :
    toInt64? (45 :: ofNat value) = some (Int64.ofInt (-value)) := by
  rw [toInt64?.eq_1, magnitude?_ofNat, Option.bind_eq_bind, Option.bind_some,
    Option.pure_def, Option.map_some, Option.bind_some]
  exact if_pos (fits_of_bounds (by omega) (by omega))

/-- An integer is read back from its printed form. -/
theorem toInt64?_ofInt (value : Int64) : toInt64? (ofInt value.toInt) = some value := by
  have lower := value.le_toInt
  have upper := value.toInt_lt
  cases equal : value.toInt with
  | ofNat magnitude =>
      rw [equal] at upper
      rw [ofInt, toInt64?_ofNat upper, ← Int64.ofInt_toInt value, equal]
      rfl
  | negSucc less =>
      rw [equal] at lower
      have read : toInt64? (45 :: ofNat (less + 1)) = _ := toInt64?_minus (by omega)
      rw [ofInt]
      exact read.trans (by rw [← Int64.ofInt_toInt value, equal]; rfl)

/-- A minus sign before the printed form of a natural number negates it. -/
theorem toInt64?_minus_ofInt {value : Int64} (natural : 0 ≤ value.toInt) :
    toInt64? (45 :: ofInt value.toInt) = some (-value) := by
  have upper := value.toInt_lt
  cases equal : value.toInt with
  | ofNat magnitude =>
      rw [equal] at upper
      rw [ofInt, toInt64?_minus (Int.le_of_lt upper), Int64.ofInt_neg,
        ← Int64.ofInt_toInt value, equal]
      rfl
  | negSucc less =>
      rw [equal] at natural
      omega

end Text
end Siren
