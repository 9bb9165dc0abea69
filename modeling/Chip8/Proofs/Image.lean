import Chip8.Image
import Mathlib.Logic.Function.Basic
import Mathlib.Tactic.SplitIfs

/-!
# Bytes and words of an image

The words of an image, told from the bytes alone: two bytes make one word, the first of
them counts 256-fold, and of an odd number of bytes the last one stays behind. Nothing gets
lost on the way: the bytes of the words and the byte that stays behind are the bytes that
the image was made of.
-/

namespace Chip8

/-- The number that the two bytes of a word make. -/
def Word.valueOf (high low : UInt8) : Nat := 256 * high.toNat + low.toNat

theorem Word.toNat_ofBytes (high low : UInt8) :
    (Word.ofBytes high low).toNat = valueOf high low := by
  have hhigh : high.toNat < 256 := high.toNat_lt
  have hlow : low.toNat < 256 := low.toNat_lt
  simp only [ofBytes, valueOf, UInt16.toNat_add, UInt16.toNat_mul, UInt8.toNat_toUInt16]
  change (256 * high.toNat % 65536 + low.toNat) % 65536 = 256 * high.toNat + low.toNat
  omega

/-- The bytes that a word is stored as. -/
def Word.bytes (w : Word) : List UInt8 := [(w / 0x100).toUInt8, w.byte]

theorem Word.bytes_ofBytes (high low : UInt8) : (ofBytes high low).bytes = [high, low] := by
  have hvalue := toNat_ofBytes high low
  have hhigh : high.toNat < 256 := high.toNat_lt
  have hlow : low.toNat < 256 := low.toNat_lt
  rw [valueOf] at hvalue
  rw [bytes, byte]
  congr 2
  · rw [← UInt8.toNat_inj, UInt16.toNat_toUInt8, UInt16.toNat_div, hvalue]
    change (256 * high.toNat + low.toNat) / 256 % 256 = high.toNat
    omega
  · rw [← UInt8.toNat_inj, UInt16.toNat_toUInt8, UInt16.toNat_mod, hvalue]
    change (256 * high.toNat + low.toNat) % 256 % 256 = low.toNat
    omega

theorem Word.ofBytes_bytes (w : Word) : ofBytes (w / 0x100).toUInt8 w.byte = w := by
  have hw : w.toNat < 65536 := w.toNat_lt
  rw [← UInt16.toNat_inj, toNat_ofBytes, valueOf, byte, UInt16.toNat_toUInt8, UInt16.toNat_toUInt8,
    UInt16.toNat_div, UInt16.toNat_mod]
  change 256 * (w.toNat / 256 % 256) + w.toNat % 256 % 256 = w.toNat
  omega

theorem Word.bytes_inj {w w' : Word} (h : w.bytes = w'.bytes) : w = w' := by
  obtain ⟨hhigh, hrest⟩ := List.cons.inj h
  rw [← w.ofBytes_bytes, ← w'.ofBytes_bytes, hhigh, (List.cons.inj hrest).1]

namespace Image

/-- The word that stands at an index. -/
def wordIn (bytes : Bytes) (i : Nat) : Word :=
  UInt16.ofNat (Word.valueOf (bytes[2 * i]?.getD 0) (bytes[2 * i + 1]?.getD 0))

theorem wordAt_eq_wordIn (bytes : Bytes) (i : Fin (bytes.size / 2)) :
    wordAt bytes i = wordIn bytes i := by
  have hhigh : 2 * i.val < bytes.size := by omega
  have hlow : 2 * i.val + 1 < bytes.size := by omega
  rw [wordIn, Array.getElem?_eq_getElem hhigh, Array.getElem?_eq_getElem hlow, Option.getD_some,
    Option.getD_some, ← Word.toNat_ofBytes, UInt16.ofNat_toNat]
  rfl

theorem toList_words_ofBytes (bytes : Bytes) :
    (ofBytes bytes).words.toList = (List.range (bytes.size / 2)).map (wordIn bytes) := by
  apply List.ext_getElem
  · simp [ofBytes]
  · intro i hi _
    simp [ofBytes, wordAt_eq_wordIn]

/-- The last byte, if it has no partner. -/
def unpaired (bytes : Bytes) : List UInt8 :=
  if h : bytes.size % 2 = 1 then [bytes[bytes.size - 1]] else []

theorem toList_trailing_ofBytes (bytes : Bytes) :
    (ofBytes bytes).trailing.toList = unpaired bytes := by
  rw [ofBytes, unpaired]
  split_ifs with h
  · rw [Array.back?, Array.getElem?_eq_getElem (by omega)]
    rfl
  · rfl

theorem isSome_trailing_ofBytes (bytes : Bytes) :
    (ofBytes bytes).trailing.isSome = true ↔ bytes.size % 2 = 1 := by
  rw [ofBytes]
  split_ifs with h
  · rw [Array.back?, Array.getElem?_eq_getElem (by omega)]
    exact iff_of_true rfl h
  · exact iff_of_false Bool.false_ne_true h

/-! ## Back to the bytes -/

/-- The bytes of an image: those of its words, and the one that stays behind. -/
def bytes (image : Image) : List UInt8 :=
  image.words.toList.flatMap Word.bytes ++ image.trailing.toList

theorem bytes_wordIn {bytes : Bytes} {i : Nat} (h : 2 * i + 1 < bytes.size) :
    (wordIn bytes i).bytes = [bytes[2 * i], bytes[2 * i + 1]] := by
  have hhigh : 2 * i < bytes.size := by omega
  rw [wordIn, Array.getElem?_eq_getElem hhigh, Array.getElem?_eq_getElem h, Option.getD_some,
    Option.getD_some, ← Word.toNat_ofBytes, UInt16.ofNat_toNat, Word.bytes_ofBytes]

theorem flatMap_bytes_wordIn {bytes : Bytes} {n : Nat} (h : 2 * n ≤ bytes.size) :
    ((List.range n).map (wordIn bytes)).flatMap Word.bytes = bytes.toList.take (2 * n) := by
  induction n with
  | zero => rfl
  | succ n ih =>
      have hhigh : 2 * n < bytes.toList.length := by
        rw [Array.length_toList]
        omega
      have hlow : 2 * n + 1 < bytes.toList.length := by
        rw [Array.length_toList]
        omega
      rw [List.range_succ, List.map_append, List.flatMap_append, ih (by omega), List.map_singleton,
        List.flatMap_singleton, bytes_wordIn (by omega), Nat.mul_succ,
        List.take_add_one, List.take_add_one, List.getElem?_eq_getElem hhigh,
        List.getElem?_eq_getElem hlow]
      simp

theorem unpaired_eq_drop (bytes : Bytes) :
    unpaired bytes = bytes.toList.drop (2 * (bytes.size / 2)) := by
  rw [unpaired]
  split_ifs with h
  · have hlast : 2 * (bytes.size / 2) = bytes.size - 1 := by omega
    have hlt : bytes.size - 1 < bytes.toList.length := by
      rw [Array.length_toList]
      omega
    rw [hlast, List.drop_eq_getElem_cons hlt, List.drop_eq_nil_of_le, Array.getElem_toList]
    rw [Array.length_toList]
    omega
  · rw [List.drop_eq_nil_of_le]
    rw [Array.length_toList]
    omega

/-- Loading loses nothing. -/
theorem bytes_ofBytes (bytes : Bytes) : (ofBytes bytes).bytes = bytes.toList := by
  rw [Image.bytes, toList_words_ofBytes, toList_trailing_ofBytes, unpaired_eq_drop,
    flatMap_bytes_wordIn (by omega), List.take_append_drop]

/-- Two bytes for each word leave at most one behind them, so the words can be told off one by
one. -/
theorem eq_of_flatMap_bytes_append_eq {ws ws' : List Word} {t t' : Option UInt8}
    (h : ws.flatMap Word.bytes ++ t.toList = ws'.flatMap Word.bytes ++ t'.toList) :
    ws = ws' ∧ t = t' := by
  have hshort : ∀ (w : Word) (bytes : List UInt8) (t : Option UInt8),
      t.toList ≠ w.bytes ++ bytes := by
    intro w bytes t heq
    cases t with
    | none => cases heq
    | some b => cases heq
  induction ws generalizing ws' with
  | nil =>
      cases ws' with
      | nil =>
          refine ⟨rfl, ?_⟩
          rw [← Option.head?_toList (o := t), ← Option.head?_toList (o := t')]
          exact congrArg List.head? h
      | cons w' ws' =>
          rw [List.flatMap_cons, List.append_assoc] at h
          exact absurd h (hshort w' _ t)
  | cons w ws ih =>
      cases ws' with
      | nil =>
          rw [List.flatMap_cons, List.append_assoc] at h
          exact absurd h.symm (hshort w _ t')
      | cons w' ws' =>
          rw [List.flatMap_cons, List.flatMap_cons, List.append_assoc, List.append_assoc] at h
          obtain ⟨hword, hrest⟩ := List.append_inj h rfl
          obtain ⟨rfl, rfl⟩ := ih hrest
          exact ⟨by rw [Word.bytes_inj hword], rfl⟩

theorem eq_of_bytes_eq {image image' : Image} (h : image.bytes = image'.bytes) :
    image = image' := by
  obtain ⟨words, trailing⟩ := image
  obtain ⟨words', trailing'⟩ := image'
  obtain ⟨hwords, rfl⟩ := eq_of_flatMap_bytes_append_eq h
  cases Array.toList_inj.mp hwords
  rfl

/-- Every image is loaded from its own bytes. -/
theorem ofBytes_bytes (image : Image) : ofBytes image.bytes.toArray = image :=
  eq_of_bytes_eq (by rw [bytes_ofBytes, List.toList_toArray])

theorem oversizeWarning_eq (count : Nat) :
    oversizeWarning count = ⟨.warn, .image, "image is " ++ toString count ++
      " bytes, larger than the 3584 bytes of CHIP-8 program memory"⟩ := by
  have hsplit : " bytes, larger than the " ++ toString Address.programBytes ++
      " bytes of CHIP-8 program memory" =
        " bytes, larger than the 3584 bytes of CHIP-8 program memory" := by decide
  rw [← hsplit]
  simp only [oversizeWarning, String.append_assoc]

theorem warnings_ofBytes (bytes : Bytes) :
    (ofBytes bytes).warnings =
      (if 0xE00 < bytes.size then [oversizeWarning bytes.size] else []) ++
        (unpaired bytes).map trailingWarning := by
  have htrailing : ((ofBytes bytes).trailing.map trailingWarning).toList =
      (unpaired bytes).map trailingWarning := by
    rw [← toList_trailing_ofBytes, Option.toList_map]
  rw [warnings, byteCount_ofBytes, htrailing]
  rfl

theorem eq_of_words_eq {bytes bytes' : Bytes} (hsize : bytes.size / 2 = bytes'.size / 2)
    (hwords : ∀ i < bytes.size / 2, wordIn bytes i = wordIn bytes' i)
    (hunpaired : unpaired bytes = unpaired bytes') : bytes = bytes' := by
  have hlist : (ofBytes bytes).words.toList = (ofBytes bytes').words.toList := by
    rw [toList_words_ofBytes, toList_words_ofBytes, ← hsize]
    exact List.map_congr_left fun i hi => hwords i (List.mem_range.mp hi)
  rw [← Array.toList_inj, ← bytes_ofBytes, ← bytes_ofBytes, Image.bytes, Image.bytes, hlist,
    toList_trailing_ofBytes, toList_trailing_ofBytes, hunpaired]

/-- Loading is a bijection between byte strings and images, that is words with at most one byte
behind them. The bytes of the image made of a string are the string, the image made of the bytes
of an image is that image, and no other string makes it. There is a word for every two bytes, and
a byte is left over exactly if their number is odd. The records are a warning that the string is
too long, exactly if it is longer than the memory for programs, and behind it a warning of the
byte that is left over, exactly if there is one. -/
theorem ofBytes_bijective_and_warns :
    (∀ bytes : Bytes, (ofBytes bytes).words.toList.flatMap Word.bytes ++
      (ofBytes bytes).trailing.toList = bytes.toList) ∧
    (∀ (words : List Word) (trailing : Option UInt8),
      ofBytes (words.flatMap Word.bytes ++ trailing.toList).toArray =
        { words := words.toArray, trailing }) ∧
    Function.Bijective ofBytes ∧
    ∀ bytes : Bytes,
      (ofBytes bytes).size = bytes.size / 2 ∧
      ((ofBytes bytes).trailing.isSome = true ↔ bytes.size % 2 = 1) ∧
      (ofBytes bytes).warnings =
        (if 3584 < bytes.size then
          [⟨.warn, .image, "image is " ++ toString bytes.size ++
            " bytes, larger than the 3584 bytes of CHIP-8 program memory"⟩]
        else []) ++
        if h : bytes.size % 2 = 1 then
          [⟨.warn, .image, "ignoring dangling trailing byte " ++
            Hex.padded 2 bytes[bytes.size - 1].toNat⟩]
        else [] := by
  refine ⟨bytes_ofBytes, ?_, ⟨?_, ?_⟩, ?_⟩
  · intro words trailing
    have himage := ofBytes_bytes { words := words.toArray, trailing }
    rw [Image.bytes, List.toList_toArray] at himage
    exact himage
  · intro bytes bytes' h
    rw [← Array.toList_inj, ← bytes_ofBytes, ← bytes_ofBytes, h]
  · exact fun image => ⟨_, ofBytes_bytes image⟩
  · intro bytes
    refine ⟨size_ofBytes bytes, isSome_trailing_ofBytes bytes, ?_⟩
    rw [warnings_ofBytes, oversizeWarning_eq, unpaired]
    split_ifs <;> rfl

end Image

end Chip8
