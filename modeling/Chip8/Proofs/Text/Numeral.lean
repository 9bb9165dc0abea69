import Chip8.Text.Hex
import Mathlib.Data.Nat.Digits.Defs
import Mathlib.Tactic.Ring
import Mathlib.Tactic.SplitIfs

/-!
# Numbers by their digits

A digit stands for its place in the row of the sixteen digits, and the letters may be of
either case. What is read from a sequence of digits is the number that they are in base
sixteen, however many there are; one character that is no digit makes it no number.
-/

namespace Chip8.Hex

/-- The digits in the order of their values. -/
def lowerDigits : List Char :=
  ['0', '1', '2', '3', '4', '5', '6', '7', '8', '9', 'a', 'b', 'c', 'd', 'e', 'f']

def upperDigits : List Char :=
  ['0', '1', '2', '3', '4', '5', '6', '7', '8', '9', 'A', 'B', 'C', 'D', 'E', 'F']

/-- The character is the digit of this value, in one case or the other. -/
def IsDigit (c : Char) (d : Nat) : Prop := lowerDigits[d]? = some c ∨ upperDigits[d]? = some c

instance (c : Char) (d : Nat) : Decidable (IsDigit c d) := inferInstanceAs (Decidable (_ ∨ _))

theorem map_digit?_lowerDigits : lowerDigits.map digit? = (List.range 16).map some := by decide

theorem map_digit?_upperDigits : upperDigits.map digit? = (List.range 16).map some := by decide

theorem digit?_of_getElem? {row : List Char} (hrow : row.map digit? = (List.range 16).map some)
    {c : Char} {d : Nat} (h : row[d]? = some c) : digit? c = some d := by
  have hplace : (row.map digit?)[d]? = some (digit? c) := by
    rw [List.getElem?_map, h, Option.map_some]
  rw [hrow, List.getElem?_map] at hplace
  obtain ⟨i, hi, hdigit⟩ := Option.map_eq_some_iff.mp hplace
  obtain ⟨hlt, rfl⟩ := List.getElem?_eq_some_iff.mp hi
  rw [← hdigit, List.getElem_range]

theorem isDigit_of_lt : ∀ n < 103, ∀ d ∈ digit? (Char.ofNat n), IsDigit (Char.ofNat n) d := by
  decide

/-- The last digit of the tables is the letter of the number 102. -/
theorem toNat_lt_of_digit? {c : Char} {d : Nat} (h : digit? c = some d) : c.toNat < 103 := by
  unfold digit? at h
  split_ifs at h with hdecimal hupper hlower
  · exact Nat.lt_of_le_of_lt (Char.le_def.mp hdecimal.2) (by decide)
  · exact Nat.lt_of_le_of_lt (Char.le_def.mp hupper.2) (by decide)
  · exact Nat.lt_of_le_of_lt (Char.le_def.mp hlower.2) (by decide)

theorem digit?_eq_some_iff {c : Char} {d : Nat} : digit? c = some d ↔ IsDigit c d := by
  constructor
  · intro h
    have htable := isDigit_of_lt c.toNat (toNat_lt_of_digit? h) d
    rw [Char.ofNat_toNat] at htable
    exact htable h
  · rintro (h | h)
    · exact digit?_of_getElem? map_digit?_lowerDigits h
    · exact digit?_of_getElem? map_digit?_upperDigits h

/-- The digits read are those of the number in base sixteen, behind the ones read before. -/
theorem valueFrom_eq_some_iff {high n : Nat} {cs : List Char} :
    valueFrom high cs = some n ↔ ∃ ds, List.Forall₂ IsDigit cs ds ∧
      n = high * 16 ^ ds.length + Nat.ofDigits 16 ds.reverse := by
  induction cs generalizing high with
  | nil =>
      rw [valueFrom, Option.some.injEq]
      constructor
      · rintro rfl
        exact ⟨[], .nil, by simp⟩
      · rintro ⟨_, hall, rfl⟩
        cases hall
        simp
  | cons c cs ih =>
      -- the first digit has all others behind it: it is the highest and the last in reverse
      have hpositions : ∀ (d : Nat) (ds : List Nat),
          (16 * high + d) * 16 ^ ds.length + Nat.ofDigits 16 ds.reverse =
            high * 16 ^ (d :: ds).length + Nat.ofDigits 16 (d :: ds).reverse := by
        intro d ds
        rw [List.reverse_cons, Nat.ofDigits_append, Nat.ofDigits_singleton, List.length_reverse,
          List.length_cons, Nat.pow_succ]
        ring
      rw [valueFrom, Option.bind_eq_some_iff]
      constructor
      · rintro ⟨d, hd, hrest⟩
        obtain ⟨ds, hds, rfl⟩ := ih.mp hrest
        exact ⟨d :: ds, .cons (digit?_eq_some_iff.mp hd) hds, hpositions d ds⟩
      · rintro ⟨_, hall, rfl⟩
        cases hall with
        | cons hd hds =>
            exact ⟨_, digit?_eq_some_iff.mpr hd, ih.mpr ⟨_, hds, (hpositions _ _).symm⟩⟩

theorem exists_isDigit_of_mem {cs : List Char} {ds : List Nat} (h : List.Forall₂ IsDigit cs ds)
    {c : Char} (hc : c ∈ cs) : ∃ d, IsDigit c d := by
  induction h with
  | nil => cases hc
  | cons hd _ ih =>
      rcases List.mem_cons.mp hc with rfl | hc
      · exact ⟨_, hd⟩
      · exact ih hc

end Chip8.Hex
