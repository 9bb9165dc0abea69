import Chip8.Text.Hex
import Mathlib.Algebra.Group.Nat.Defs

/-!
# Digits of a fixed width

A number that is less than a power of sixteen fills a field of that width exactly, one
digit for each position. Whatever its width, a written number is made of digits only, and
no two numbers are written alike.
-/

namespace Chip8.Hex

/-- The digits of the last `width` positions, most significant first. -/
def fixed : Nat → Nat → List Char
  | 0, _ => []
  | width + 1, n => fixed width (n / 16) ++ [digit (n % 16)]

theorem digits_of_lt {n : Nat} (h : n < 16) : digits n = [digit n] := by
  rw [digits, if_pos h]

theorem digits_of_ge {n : Nat} (h : ¬n < 16) : digits n = digits (n / 16) ++ [digit (n % 16)] := by
  rw [digits, if_neg h]

theorem fixed_zero (width : Nat) : fixed width 0 = List.replicate width '0' := by
  induction width with
  | zero => rfl
  | succ width ih =>
      rw [fixed, ih, List.replicate_succ']
      rfl

/-- A number that fits has its digits behind zeros. -/
theorem replicate_append_digits {width n : Nat} (hpos : 0 < width) (h : n < 16 ^ width) :
    List.replicate (width - (digits n).length) '0' ++ digits n = fixed width n := by
  induction width generalizing n with
  | zero => exact absurd hpos (Nat.lt_irrefl 0)
  | succ width ih =>
      rw [fixed]
      by_cases hn : n < 16
      · rw [digits_of_lt hn, Nat.div_eq_of_lt hn, Nat.mod_eq_of_lt hn, fixed_zero]
        rfl
      · have hlt : n / 16 < 16 ^ width := by
          rw [Nat.div_lt_iff_lt_mul (by decide), ← Nat.pow_succ]
          exact h
        have hwidth : 0 < width := by
          rcases Nat.eq_zero_or_pos width with rfl | hwidth
          · simp at hlt
            omega
          · exact hwidth
        rw [digits_of_ge hn, ← ih hwidth hlt, List.length_append, List.length_singleton,
          Nat.add_sub_add_right, List.append_assoc]

theorem toList_padded {width n : Nat} (hpos : 0 < width) (h : n < 16 ^ width) :
    (padded width n).toList = fixed width n := by
  rw [padded, String.toList_ofList, replicate_append_digits hpos h]

theorem fixed_mod (width n : Nat) : fixed width (n % 16 ^ width) = fixed width n := by
  induction width generalizing n with
  | zero => rfl
  | succ width ih =>
      have hpow : 16 ^ (width + 1) = 16 * 16 ^ width := Nat.pow_succ'
      rw [fixed, fixed, hpow, Nat.mod_mul_right_div_self, Nat.mod_mul_right_mod, ih]

/-- The last digits of a number, in a field of their width. -/
theorem toList_padded_mod {width : Nat} (hpos : 0 < width) (n : Nat) :
    (padded width (n % 16 ^ width)).toList = fixed width n := by
  rw [toList_padded hpos (Nat.mod_lt n (Nat.pow_pos (by decide))), fixed_mod]

theorem padded_inj {width m n : Nat} (h : padded width m = padded width n) : m = n := by
  have hm := valueFrom_padded width m
  rw [h, valueFrom_padded width n] at hm
  exact (Option.some.inj hm).symm

theorem digit_inj {m n : Nat} (hm : m < 16) (hn : n < 16) (h : digit m = digit n) : m = n := by
  have heq := digit?_digit m hm
  rw [h, digit?_digit n hn] at heq
  exact (Option.some.inj heq).symm

theorem mem_digits {n : Nat} {c : Char} (h : c ∈ digits n) : ∃ d < 16, c = digit d := by
  fun_induction digits n with
  | case1 n hn => exact ⟨n, hn, List.mem_singleton.mp h⟩
  | case2 n hn ih =>
      rcases List.mem_append.mp h with h | h
      · exact ih h
      · exact ⟨n % 16, Nat.mod_lt n (by decide), List.mem_singleton.mp h⟩

theorem mem_padded {width n : Nat} {c : Char} (h : c ∈ (padded width n).toList) :
    ∃ d < 16, c = digit d := by
  rw [padded, String.toList_ofList] at h
  rcases List.mem_append.mp h with h | h
  · exact ⟨0, by decide, (List.mem_replicate.mp h).2⟩
  · exact mem_digits h

/-- A character that is no digit does not occur in a number. -/
theorem not_mem_padded {c : Char} (hc : ∀ d < 16, digit d ≠ c) (width n : Nat) :
    c ∉ (padded width n).toList := by
  intro h
  obtain ⟨d, hd, heq⟩ := mem_padded h
  exact hc d hd heq.symm

end Chip8.Hex
