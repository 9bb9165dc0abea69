/-!
# Bytes and text

Files, arguments and sinks hold bytes. Text is written in UTF-8. Bytes that may
be no text, such as a file name, are shown with every maximal invalid part
replaced by one U+FFFD: the part is the longest start of a well-formed sequence
found at that place, or a single byte if none starts there.
-/

namespace Chip8

abbrev Bytes := Array UInt8

namespace Utf8

def encode (s : String) : Bytes := s.toUTF8.data

@[simp]
theorem encode_append (s t : String) : encode (s ++ t) = encode s ++ encode t := by
  simp [encode, String.toByteArray_append, ByteArray.data_append]

def replacement : Char := '\uFFFD'

/-- What the first byte of a sequence announces: its bits of the code point and
the range allowed for each byte that follows. The narrower second ranges keep
out overlong forms, surrogates and numbers above U+10FFFF. -/
structure Lead where
  bits : Nat
  rest : List (UInt8 × UInt8)

def lead? (b : UInt8) : Option Lead :=
  let any : UInt8 × UInt8 := (0x80, 0xBF)
  if b < 0x80 then some ⟨b.toNat, []⟩
  else if b < 0xC2 then none
  else if b < 0xE0 then some ⟨b.toNat - 0xC0, [any]⟩
  else if b = 0xE0 then some ⟨0, [(0xA0, 0xBF), any]⟩
  else if b = 0xED then some ⟨0xD, [(0x80, 0x9F), any]⟩
  else if b < 0xF0 then some ⟨b.toNat - 0xE0, [any, any]⟩
  else if b = 0xF0 then some ⟨0, [(0x90, 0xBF), any, any]⟩
  else if b < 0xF4 then some ⟨b.toNat - 0xF0, [any, any, any]⟩
  else if b = 0xF4 then some ⟨4, [(0x80, 0x8F), any, any]⟩
  else none

/-- Reads the bytes that must follow, and gives the character and the bytes not
used. A byte outside its range is left for the next character. -/
def finish : Nat → List (UInt8 × UInt8) → List UInt8 → Char × List UInt8
  | bits, [], bytes => (Char.ofNat bits, bytes)
  | _, _ :: _, [] => (replacement, [])
  | bits, (low, high) :: ranges, b :: bytes =>
    if low ≤ b ∧ b ≤ high then finish (64 * bits + (b.toNat - 0x80)) ranges bytes
    else (replacement, b :: bytes)

theorem length_finish_le (bits : Nat) (ranges : List (UInt8 × UInt8)) (bytes : List UInt8) :
    (finish bits ranges bytes).2.length ≤ bytes.length := by
  fun_induction finish bits ranges bytes with
  | case1 => simp
  | case2 => simp
  | case3 bits low high ranges b bytes _ ih => simp; omega
  | case4 => simp

def next (b : UInt8) (bytes : List UInt8) : Char × List UInt8 :=
  match lead? b with
  | some lead => finish lead.bits lead.rest bytes
  | none => (replacement, bytes)

theorem length_next_le (b : UInt8) (bytes : List UInt8) :
    (next b bytes).2.length ≤ bytes.length := by
  unfold next
  split
  · exact length_finish_le ..
  · exact Nat.le_refl _

def decodeFrom (shown : String) : List UInt8 → String
  | [] => shown
  | b :: bytes =>
    have := length_next_le b bytes
    decodeFrom (shown.push (next b bytes).1) (next b bytes).2
termination_by bytes => bytes.length

/-- The text of bytes that need not be well formed. -/
def decode (bytes : Bytes) : String := decodeFrom "" bytes.toList

example : decode #[0x41, 0xC3, 0xBC] = "Aü" := by decide +kernel
example : decode #[0xE2, 0x82, 0x41, 0xFF] = "\uFFFDA\uFFFD" := by decide +kernel

end Utf8

end Chip8
