import Chip8.Address
import Chip8.Log
import Chip8.Text.Hex
import Chip8.Text.Utf8
import Chip8.Word

/-!
# Program images

The bytes of a program, taken two by two as words. A last byte without a partner
is kept beside the words and never decoded.
-/

namespace Chip8

structure Image where
  words : Array Word := #[]
  trailing : Option UInt8 := none
deriving DecidableEq, Repr, Inhabited

namespace Image

def wordAt (bytes : Bytes) (i : Fin (bytes.size / 2)) : Word :=
  have : 2 * i.val + 1 < bytes.size := by omega
  Word.ofBytes bytes[2 * i.val] bytes[2 * i.val + 1]

def ofBytes (bytes : Bytes) : Image where
  words := Array.ofFn (wordAt bytes)
  trailing := if bytes.size % 2 = 1 then bytes.back? else none

def ofWords (words : Array Word) : Image := { words }

def size (image : Image) : Nat := image.words.size

theorem size_ofBytes (bytes : Bytes) : (ofBytes bytes).size = bytes.size / 2 := by
  simp [ofBytes, size]

def byteCount (image : Image) : Nat :=
  Address.wordBytes * image.size + (if image.trailing.isSome then 1 else 0)

/-- An image has the length of the bytes it was made of. -/
theorem byteCount_ofBytes (bytes : Bytes) : (ofBytes bytes).byteCount = bytes.size := by
  rw [byteCount, size_ofBytes]
  by_cases h : bytes.size % 2 = 1
  · have : bytes.back?.isSome := by
      simp [Array.back?, Array.getElem?_eq_getElem (show bytes.size - 1 < bytes.size by omega)]
    simp only [ofBytes, if_pos h, this, if_true, Address.wordBytes]
    omega
  · simp only [ofBytes, if_neg h, Option.isSome_none, Address.wordBytes]
    simp
    omega

def oversizeWarning (count : Nat) : Log.Record :=
  ⟨.warn, .image, "image is " ++ toString count ++ " bytes, larger than the " ++
    toString Address.programBytes ++ " bytes of CHIP-8 program memory"⟩

def trailingWarning (b : UInt8) : Log.Record :=
  ⟨.warn, .image, "ignoring dangling trailing byte " ++ Hex.padded 2 b.toNat⟩

/-- What there is to say about bytes that were loaded as this image. -/
def warnings (image : Image) : List Log.Record :=
  (if Address.programBytes < image.byteCount then [oversizeWarning image.byteCount] else []) ++
    (image.trailing.map trailingWarning).toList

end Image

end Chip8
