/-!
# Upper-case hexadecimal numbers

Every address, word and byte in a listing is written in base sixteen with the
digits `0`–`9` and `A`–`F`. A number is padded with zeros to the width of its
field and is never cut: an address past the end of memory takes the digits it
needs. Reading accepts the letters of either case.
-/

namespace Chip8.Hex

/-- Meant for `d < 16`. -/
def digit (d : Nat) : Char :=
  Char.ofNat (if d < 10 then 48 + d else 55 + d)

/-- Most significant digit first; zero has one digit. -/
def digits (n : Nat) : List Char :=
  if n < 16 then [digit n] else digits (n / 16) ++ [digit (n % 16)]

def padded (width n : Nat) : String :=
  String.ofList (List.replicate (width - (digits n).length) '0' ++ digits n)

def digit? (c : Char) : Option Nat :=
  if '0' ≤ c ∧ c ≤ '9' then some (c.toNat - 48)
  else if 'A' ≤ c ∧ c ≤ 'F' then some (c.toNat - 55)
  else if 'a' ≤ c ∧ c ≤ 'f' then some (c.toNat - 87)
  else none

/-- The number that continues `high` with the digits `cs`, or `none` when one of
them is no digit. -/
def valueFrom (high : Nat) : List Char → Option Nat
  | [] => some high
  | c :: cs => (digit? c).bind fun d => valueFrom (16 * high + d) cs

theorem digit?_digit : ∀ d < 16, digit? (digit d) = some d := by decide

theorem valueFrom_append (high : Nat) (cs : List Char) (c : Char) :
    valueFrom high (cs ++ [c]) =
      (valueFrom high cs).bind fun n => (digit? c).map (16 * n + ·) := by
  induction cs generalizing high with
  | nil => cases h : digit? c <;> simp [valueFrom, h]
  | cons b bs ih => cases h : digit? b <;> simp [valueFrom, h, ih]

/-- The written digits read back as the number. -/
theorem valueFrom_digits (n : Nat) : valueFrom 0 (digits n) = some n := by
  induction n using digits.induct with
  | case1 n h =>
    rw [digits, if_pos h]
    simp [valueFrom, digit?_digit n h]
  | case2 n h ih =>
    rw [digits, if_neg h, valueFrom_append, ih, digit?_digit _ (Nat.mod_lt _ (by decide))]
    simp [Nat.div_add_mod]

theorem valueFrom_replicate_zero (k : Nat) (cs : List Char) :
    valueFrom 0 (List.replicate k '0' ++ cs) = valueFrom 0 cs := by
  induction k with
  | zero => rfl
  | succ k ih =>
    have hz : digit? '0' = some 0 := by decide
    simp [List.replicate_succ, valueFrom, hz, ih]

/-- Padding does not change the number that is read. -/
theorem valueFrom_padded (width n : Nat) : valueFrom 0 (padded width n).toList = some n := by
  simp [padded, valueFrom_replicate_zero, valueFrom_digits]

end Chip8.Hex
