import Chip8.Instruction.Text
import Chip8.Proofs.Text.Hex
import Mathlib.Algebra.Group.Nat.Defs
import Mathlib.Tactic.ByContra

/-!
# Forms of instructions

The table of the instruction set. A form fixes some of the four digits of its words, and it
has a template for their text: characters, and places for digits of the word. No two forms
have a text in common, since their templates differ where at least one of them has a
character that is no digit. What a text leaves open is therefore what neither its template
shows nor its form fixes: the last digit of a skip that compares two registers.
-/

namespace Chip8

/-! ## Templates -/

/-- The digit at a position of a word, counted from the last one. -/
def Word.digitAt (w : Word) (position : Nat) : Nat := w.toNat / 16 ^ position % 16

theorem Word.digitAt_lt (w : Word) (position : Nat) : w.digitAt position < 16 :=
  Nat.mod_lt _ (by decide)

theorem Word.eq_of_digitAt {w w' : Word}
    (h : ∀ position < 4, w.digitAt position = w'.digitAt position) : w = w' := by
  have hw : w.toNat < 65536 := w.toNat_lt
  have hw' : w'.toNat < 65536 := w'.toNat_lt
  have h0 := h 0 (by decide)
  have h1 := h 1 (by decide)
  have h2 := h 2 (by decide)
  have h3 := h 3 (by decide)
  simp only [digitAt, Nat.reducePow] at h0 h1 h2 h3
  rw [← UInt16.toNat_inj]
  omega

/-- A character of a text, or the place of a digit of the word. -/
inductive Piece where
  | char (c : Char)
  | digit (position : Nat)
deriving DecidableEq, Repr

abbrev Template := List Piece

namespace Piece

def render (w : Word) : Piece → Char
  | char c => c
  | digit position => Hex.digit (w.digitAt position)

/-- No word and no other word make the same character of these. -/
def clashes : Piece → Piece → Bool
  | char c, char c' => c != c'
  | char c, digit _ | digit _, char c => (List.range 16).all fun d => Hex.digit d != c
  | digit _, digit _ => false

theorem digit_ne_of_all {c : Char} (h : ((List.range 16).all fun d => Hex.digit d != c) = true)
    (w : Word) (position : Nat) : Hex.digit (w.digitAt position) ≠ c := by
  have hd := List.all_eq_true.mp h _ (List.mem_range.mpr (w.digitAt_lt position))
  simpa using hd

theorem render_ne_of_clashes {p q : Piece} (h : p.clashes q = true) (w w' : Word) :
    p.render w ≠ q.render w' := by
  cases p with
  | char c =>
      cases q with
      | char c' => simpa [clashes, render] using h
      | digit position => exact (digit_ne_of_all h w' position).symm
  | digit position =>
      cases q with
      | char c => exact digit_ne_of_all h w position
      | digit position' => cases h

end Piece

namespace Template

def text (s : String) : Template := s.toList.map .char

def digits (positions : List Nat) : Template := positions.map .digit

/-- The text of a word by a template. -/
def fill (t : Template) (w : Word) : List Char := t.map (Piece.render w)

@[simp]
theorem fill_append (s t : Template) (w : Word) : fill (s ++ t) w = s.fill w ++ t.fill w :=
  List.map_append

@[simp]
theorem fill_text (s : String) (w : Word) : (text s).fill w = s.toList := by
  rw [fill, text, List.map_map]
  exact List.map_id _

@[simp]
theorem fill_digits (positions : List Nat) (w : Word) :
    (digits positions).fill w = positions.map fun p => Hex.digit (w.digitAt p) := by
  rw [fill, digits, List.map_map]
  rfl

/-- One is longer, or they clash at some position. -/
def clashes : Template → Template → Bool
  | [], [] => false
  | [], _ :: _ | _ :: _, [] => true
  | p :: ps, q :: qs => p.clashes q || clashes ps qs

theorem fill_ne_of_clashes {s t : Template} (h : s.clashes t = true) (w w' : Word) :
    s.fill w ≠ t.fill w' := by
  fun_induction clashes s t with
  | case1 => cases h
  | case2 q qs => exact fun heq => by cases heq
  | case3 p ps => exact fun heq => by cases heq
  | case4 p ps q qs ih =>
      intro heq
      obtain ⟨hhead, htail⟩ := List.cons.inj heq
      rcases Bool.or_eq_true_iff.mp h with hclash | hrest
      · exact Piece.render_ne_of_clashes hclash w w' hhead
      · exact ih hrest htail

/-- Words with the same text agree in the digits that the template shows. -/
theorem digitAt_eq_of_fill_eq {t : Template} {w w' : Word} (h : t.fill w = t.fill w')
    {position : Nat} (hmem : Piece.digit position ∈ t) :
    w.digitAt position = w'.digitAt position := by
  have hrender := List.map_inj_left.mp h _ hmem
  exact Hex.digit_inj (w.digitAt_lt position) (w'.digitAt_lt position) hrender

end Template

/-! ## The table of forms -/

/-- Instructions without their operands, and the directive of a word that is none. -/
inductive Form where
  | clearScreen | subroutineReturn | machineCall | jump | call
  | skipEqualByte | skipUnequalByte | skipEqualRegister | loadByte | addByte
  | alu (op : AluOp)
  | skipUnequalRegister | loadIndex | jumpIndexed | random | draw | skipKeyDown | skipKeyUp
  | readDelay | waitKey | setDelay | setSound | addIndex | fontGlyph | decimalDigits
  | saveRegisters | loadRegisters
  | directive
deriving DecidableEq, Repr

namespace Form

open Template

def template : Form → Template
  | clearScreen => text "clr"
  | subroutineReturn => text "ret"
  | machineCall => text "njp " ++ digits [2, 1, 0] ++ text " ; db 0" ++ digits [2, 1, 0]
  | jump => text "jmp " ++ digits [2, 1, 0]
  | call => text "cll " ++ digits [2, 1, 0]
  | skipEqualByte => text "seq V" ++ digits [2] ++ text ", " ++ digits [1, 0]
  | skipUnequalByte => text "sne V" ++ digits [2] ++ text ", " ++ digits [1, 0]
  | skipEqualRegister => text "seq V" ++ digits [2] ++ text ", V" ++ digits [1]
  | loadByte => text "mov V" ++ digits [2] ++ text ", " ++ digits [1, 0]
  | addByte => text "add V" ++ digits [2] ++ text ", " ++ digits [1, 0]
  | alu op => text op.mnemonic ++ text " V" ++ digits [2] ++ text ", V" ++ digits [1]
  | skipUnequalRegister => text "sne V" ++ digits [2] ++ text ", V" ++ digits [1]
  | loadIndex => text "mov I, " ++ digits [2, 1, 0]
  | jumpIndexed => text "jmp [" ++ digits [2, 1, 0] ++ text " + V0]"
  | random => text "mov V" ++ digits [2] ++ text ", [random & " ++ digits [1, 0] ++ text "]"
  | draw => text "drw V" ++ digits [2] ++ text ", V" ++ digits [1] ++ text ", " ++ digits [0]
  | skipKeyDown => text "skd " ++ digits [2]
  | skipKeyUp => text "sku " ++ digits [2]
  | readDelay => text "mov V" ++ digits [2] ++ text ", DL"
  | waitKey => text "wky V" ++ digits [2]
  | setDelay => text "mov DL, V" ++ digits [2]
  | setSound => text "mov SN, V" ++ digits [2]
  | addIndex => text "mov I,  V" ++ digits [2]
  | fontGlyph => text "fnt I,  V" ++ digits [2]
  | decimalDigits => text "bcd V" ++ digits [2]
  | saveRegisters => text "dump V0..V" ++ digits [2]
  | loadRegisters => text "load V0..V" ++ digits [2]
  | directive => text "db  " ++ digits [3, 2, 1, 0]

/-- The digits that all words of a form have in common, each at its position. -/
def fixed : Form → List (Nat × Nat)
  | clearScreen => [(3, 0x0), (2, 0x0), (1, 0xE), (0, 0x0)]
  | subroutineReturn => [(3, 0x0), (2, 0x0), (1, 0xE), (0, 0xE)]
  | machineCall => [(3, 0x0)]
  | jump => [(3, 0x1)]
  | call => [(3, 0x2)]
  | skipEqualByte => [(3, 0x3)]
  | skipUnequalByte => [(3, 0x4)]
  | skipEqualRegister => [(3, 0x5)]
  | loadByte => [(3, 0x6)]
  | addByte => [(3, 0x7)]
  | alu op => [(3, 0x8), (0, op.nibble.toNat)]
  | skipUnequalRegister => [(3, 0x9)]
  | loadIndex => [(3, 0xA)]
  | jumpIndexed => [(3, 0xB)]
  | random => [(3, 0xC)]
  | draw => [(3, 0xD)]
  | skipKeyDown => [(3, 0xE), (1, 0x9), (0, 0xE)]
  | skipKeyUp => [(3, 0xE), (1, 0xA), (0, 0x1)]
  | readDelay => [(3, 0xF), (1, 0x0), (0, 0x7)]
  | waitKey => [(3, 0xF), (1, 0x0), (0, 0xA)]
  | setDelay => [(3, 0xF), (1, 0x1), (0, 0x5)]
  | setSound => [(3, 0xF), (1, 0x1), (0, 0x8)]
  | addIndex => [(3, 0xF), (1, 0x1), (0, 0xE)]
  | fontGlyph => [(3, 0xF), (1, 0x2), (0, 0x9)]
  | decimalDigits => [(3, 0xF), (1, 0x3), (0, 0x3)]
  | saveRegisters => [(3, 0xF), (1, 0x5), (0, 0x5)]
  | loadRegisters => [(3, 0xF), (1, 0x6), (0, 0x5)]
  | directive => []

/-- The skips that compare two registers. -/
def isRegisterSkip : Form → Bool
  | skipEqualRegister | skipUnequalRegister => true
  | _ => false

def all : List Form :=
  [clearScreen, subroutineReturn, machineCall, jump, call, skipEqualByte, skipUnequalByte,
    skipEqualRegister, loadByte, addByte, skipUnequalRegister, loadIndex, jumpIndexed, random,
    draw, skipKeyDown, skipKeyUp, readDelay, waitKey, setDelay, setSound, addIndex, fontGlyph,
    decimalDigits, saveRegisters, loadRegisters, directive] ++
  [AluOp.move, .or, .and, .xor, .add, .sub, .shiftRight, .reverseSub, .shiftLeft].map alu

theorem mem_all (f : Form) : f ∈ all := by
  cases f with
  | alu op => cases op <;> decide
  | _ => decide

theorem clashes_of_ne {f g : Form} (h : f ≠ g) : f.template.clashes g.template = true := by
  -- all pairs of templates; that they clash does not depend on any word
  have htable : ∀ f ∈ all, ∀ g ∈ all, f ≠ g → f.template.clashes g.template = true := by
    decide +kernel
  exact htable f f.mem_all g g.mem_all h

/-- Two words of which each has a text by some form have the same text only by one form. -/
theorem eq_of_fill_eq {f g : Form} {w w' : Word} (h : f.template.fill w = g.template.fill w') :
    f = g := by
  by_contra hne
  exact fill_ne_of_clashes (clashes_of_ne hne) w w' h

/-- What the table leaves open. -/
theorem digit_mem_template_or (f : Form) {position : Nat} (hposition : position < 4) :
    Piece.digit position ∈ f.template ∨ position ∈ f.fixed.map Prod.fst ∨
      position = 0 ∧ f.isRegisterSkip = true := by
  have htable : ∀ f ∈ all, ∀ position < 4, Piece.digit position ∈ f.template ∨
      position ∈ f.fixed.map Prod.fst ∨ position = 0 ∧ f.isRegisterSkip = true := by
    decide +kernel
  exact htable f f.mem_all position hposition

/-- The word has the digits that the form fixes. -/
def Fits (f : Form) (w : Word) : Prop := ∀ entry ∈ f.fixed, w.digitAt entry.1 = entry.2

/-- Words of one form with one text agree in every digit that the text does not leave open. -/
theorem digitAt_eq {f : Form} {w w' : Word} (hw : f.Fits w) (hw' : f.Fits w')
    (h : f.template.fill w = f.template.fill w') {position : Nat} (hposition : position < 4) :
    w.digitAt position = w'.digitAt position ∨ position = 0 ∧ f.isRegisterSkip = true := by
  rcases f.digit_mem_template_or hposition with hshown | hfixed | hopen
  · exact Or.inl (digitAt_eq_of_fill_eq h hshown)
  · obtain ⟨⟨p, d⟩, hentry, rfl⟩ := List.mem_map.mp hfixed
    exact Or.inl ((hw _ hentry).trans (hw' _ hentry).symm)
  · exact Or.inr hopen

end Form

end Chip8
