import AnnotationDefaults.Text.Quoted
import Mathlib.Algebra.Group.Nat.Defs

set_option autoImplicit false

/-!
Characters by code, and hexadecimal numerals that read back. A numeral of fixed
width is read as the number's remainder by that many digits, and no row of digits
denotes more than its length allows.
-/

namespace AnnotationDefaults

theorem toNat_ofNat_of_isValidChar {code : Nat} (hValid : code.isValidChar) :
    (Char.ofNat code).toNat = code := by
  rw [Char.ofNat, dif_pos hValid]
  rfl

namespace Hex

theorem value?_digit (letters : Case) {value : Nat} (hValue : value < 16) :
    value? (digit letters value) = some value := by
  revert value
  cases letters with
  | lower => decide
  | upper => decide

theorem lt_of_value?_eq_some {symbol : Char} {value : Nat} (hValue : value? symbol = some value) :
    value < 16 := by
  simp only [value?] at hValue
  split at hValue
  · cases hValue
    omega
  · split at hValue
    · cases hValue
      omega
    · split at hValue
      · cases hValue
        omega
      · cases hValue

theorem read?_fixed (letters : Case) (width value : Nat) :
    read? (fixed letters width value) = some (value % 16 ^ width) := by
  unfold read?
  induction width generalizing value with
  | zero =>
      rw [Nat.pow_zero, Nat.mod_one]
      rfl
  | succ width ih =>
      have hDigit : value % 16 < 16 := Nat.mod_lt _ (by omega)
      have hPower : 16 * (value / 16 % 16 ^ width) + value % 16 = value % 16 ^ (width + 1) := by
        rw [Nat.pow_succ, Nat.mul_comm (16 ^ width), Nat.mod_mul, Nat.add_comm]
      rw [fixed, List.foldlM_append, ih]
      simp only [Option.bind_eq_bind, Option.bind_some, List.foldlM_cons, List.foldlM_nil,
        value?_digit letters hDigit, Option.map_some, hPower]
      rfl

private theorem foldlM_lt {symbols : List Char} {start value : Nat}
    (hValue : symbols.foldlM (fun total symbol => (value? symbol).map (16 * total + ·)) start =
      some value) : value < 16 ^ symbols.length * (start + 1) := by
  induction symbols generalizing start with
  | nil =>
      cases hValue
      rw [List.length_nil, Nat.pow_zero, Nat.one_mul]
      exact Nat.lt_succ_self _
  | cons symbol rest ih =>
      rw [List.foldlM_cons, Option.bind_eq_bind, Option.bind_eq_some_iff] at hValue
      rcases hValue with ⟨next, hNext, hRest⟩
      rcases Option.map_eq_some_iff.1 hNext with ⟨digit, hDigit, rfl⟩
      have hLess := lt_of_value?_eq_some hDigit
      have hBound : 16 * start + digit + 1 ≤ 16 * (start + 1) := by omega
      calc
        value < 16 ^ rest.length * (16 * start + digit + 1) := ih hRest
        _ ≤ 16 ^ rest.length * (16 * (start + 1)) := Nat.mul_le_mul_left _ hBound
        _ = 16 ^ (symbol :: rest).length * (start + 1) := by
            rw [List.length_cons, Nat.pow_succ, Nat.mul_assoc]

theorem lt_of_read?_eq_some {symbols : List Char} {value : Nat}
    (hValue : read? symbols = some value) : value < 16 ^ symbols.length := by
  have hLess := foldlM_lt hValue
  rwa [Nat.zero_add, Nat.mul_one] at hLess

end Hex

end AnnotationDefaults
