import Chip8.Listing

/-!
# The lines of a listing

A listing has one line for each word, at the word's own index. The marks alone decide
between code and data, so a listing has as many lines of code as the analysis has marks.
-/

namespace Chip8

namespace Reachability

/-- The marks, asked for one by one. -/
theorem toList_reached (r : Reachability) :
    r.reached.toList = (List.range r.size).map r.isReached := by
  apply List.ext_getElem?
  intro i
  by_cases hi : i < r.reached.size
  · simp [size, isReached, hi]
  · simp [size, hi]

/-- Counting the indices that are reached is counting marks. -/
theorem countP_isReached (r : Reachability) :
    (List.range r.size).countP r.isReached = r.reached.count true := by
  rw [← Array.count_toList, toList_reached, List.count_eq_countP, List.countP_map]
  congr 1
  funext i
  simp

end Reachability

namespace Listing

variable {r : Reachability} {load : UInt16} {i : Nat} {w : Word}

/-- The line of a word that is not code. -/
def directive (load : UInt16) (index : Nat) (w : Word) : Line where
  address := Address.ofIndex load index
  word := w
  kind := .data

theorem display_directive (load : UInt16) (index : Nat) (w : Word) :
    (directive load index w).display =
      Hex.padded 3 (Address.ofIndex load index) ++ ": " ++ w.dataText := rfl

theorem lineOf_of_isReached (h : r.isReached i = true) :
    lineOf r load i w = ⟨Address.ofIndex load i, w, .code (Instruction.decode w)⟩ := by
  rw [lineOf, if_pos h]

theorem lineOf_of_not_isReached (h : r.isReached i = false) :
    lineOf r load i w = directive load i w := by
  rw [lineOf, if_neg (by simp [h]), directive]

theorem isCode_lineOf (r : Reachability) (load : UInt16) (i : Nat) (w : Word) :
    (lineOf r load i w).isCode = r.isReached i := by
  cases h : r.isReached i with
  | true => rw [lineOf_of_isReached h, Line.isCode]
  | false => rw [lineOf_of_not_isReached h, directive, Line.isCode]

theorem getElem?_lines_build (words : Array Word) (r : Reachability) (load : UInt16) (i : Nat) :
    (build words r load).lines[i]? = words[i]?.map (lineOf r load i) := by
  rw [build, Array.getElem?_mapIdx]

/-- The marks are the lines of code. -/
theorem map_isCode_lines_build (load : UInt16) {words : Array Word} (h : r.size = words.size) :
    (build words r load).lines.toList.map Line.isCode = r.reached.toList := by
  rw [Reachability.toList_reached, h]
  apply List.ext_getElem?
  intro i
  by_cases hi : i < words.size
  · simp [build, hi, isCode_lineOf]
  · simp [build, hi]

theorem countP_isCode_lines_build (load : UInt16) {words : Array Word} (h : r.size = words.size) :
    (build words r load).lines.countP Line.isCode = r.reached.count true := by
  rw [← Array.countP_toList, ← Array.count_toList, ← map_isCode_lines_build load h,
    List.count_eq_countP, List.countP_map]
  congr 1
  funext l
  simp

/-- The text of a listing is its lines, each with a line break behind it. -/
theorem toList_text (l : Listing) :
    l.text.toList = (l.lines.toList.map fun line => line.display.toList).flatMap (· ++ ['\n']) := by
  simp [text, printed, String.toList_join, List.flatMap_map]

end Listing

end Chip8
