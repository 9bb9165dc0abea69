import Chip8.Proofs.Text.Hex

/-!
# Visible text

The characters of ASCII that control nothing are shown as they are wherever text is shown.
Numbers are written in them alone, so what is put together from them and from such words is
visible text, whatever the numbers are, and it stays in one line.
-/

namespace Chip8

/-- One line of text, in characters of ASCII that control nothing. -/
def Visible (s : String) : Prop := ∀ c ∈ s.toList, 0x20 ≤ c.toNat ∧ c.toNat ≤ 0x7E

namespace Visible

instance (s : String) : Decidable (Visible s) :=
  decidable_of_iff (s.toList.all fun c => decide (0x20 ≤ c.toNat ∧ c.toNat ≤ 0x7E)) (by simp [Visible])

variable {s t : String}

theorem append (hs : Visible s) (ht : Visible t) : Visible (s ++ t) := by
  intro c hc
  rw [String.toList_append] at hc
  rcases List.mem_append.mp hc with hc | hc
  · exact hs c hc
  · exact ht c hc

theorem nat (n : Nat) : Visible (toString n) := by
  intro c hc
  rw [Nat.toString_eq_repr, Nat.toList_repr] at hc
  have hdigit := Nat.isDigit_of_mem_toDigits (by decide) (by decide) hc
  simp only [Char.isDigit, Bool.and_eq_true, decide_eq_true_eq] at hdigit
  have hlow : 48 ≤ c.toNat := UInt32.le_iff_toNat_le.mp hdigit.1
  have hhigh : c.toNat ≤ 57 := UInt32.le_iff_toNat_le.mp hdigit.2
  omega

theorem padded (width n : Nat) : Visible (Hex.padded width n) := by
  intro c hc
  obtain ⟨d, hd, rfl⟩ := Hex.mem_padded hc
  have htable : ∀ d < 16, 0x20 ≤ (Hex.digit d).toNat ∧ (Hex.digit d).toNat ≤ 0x7E := by decide
  exact htable d hd

theorem newline_not_mem (h : Visible s) : '\n' ∉ s.toList :=
  fun hmem => absurd (h '\n' hmem) (by decide)

end Visible

end Chip8
