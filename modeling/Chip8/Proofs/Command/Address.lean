import Chip8.Command.Arguments
import Chip8.Proofs.Text.Numeral

/-!
# The grammar of addresses

An address is written as an optional radix, an optional plus and at least one digit, in this
order and each once. The text and the number that it is are related here without a reader. A
reader that takes the radix and then the plus away is left with the digits, as no digit looks
like a part of either. Any number may be written; one of more than sixteen bits is refused, not
cut.
-/

namespace Chip8.Command

/-! ## Numbers as they are written -/

def radixes : List (List Char) := [[], ['0', 'x'], ['0', 'X']]
def signs : List (List Char) := [[], ['+']]

/-- The characters that a number may have. -/
def alphabet : List Char := Hex.lowerDigits ++ Hex.upperDigits ++ ['x', 'X', '+']

/-- The characters are a number in base sixteen, most significant digit first. -/
inductive Numeral : List Char → Nat → Prop where
  | mk {radix sign digits : List Char} {values : List Nat} (hradix : radix ∈ radixes)
      (hsign : sign ∈ signs) (hne : digits ≠ []) (hdigits : List.Forall₂ Hex.IsDigit digits values) :
      Numeral (radix ++ sign ++ digits) (Nat.ofDigits 16 values.reverse)

/-- Some ways to write what is no address. -/
inductive Malformed : List Char → Prop where
  /-- Nothing at all, or nothing behind the radix or the plus. -/
  | noDigits {radix sign : List Char} (hradix : radix ∈ radixes) (hsign : sign ∈ signs) :
      Malformed (radix ++ sign)
  | secondRadix {radix sign second rest : List Char} (hradix : radix ∈ radixes) (hne : radix ≠ [])
      (hsign : sign ∈ signs) (hsecond : second ∈ radixes) (hne' : second ≠ []) :
      Malformed (radix ++ sign ++ second ++ rest)
  /-- A minus, say, or a character that stands for invalid bytes. -/
  | foreign {cs : List Char} {c : Char} (hc : c ∈ cs) (h : c ∉ alphabet) : Malformed cs
  | tooLarge {cs : List Char} {n : Nat} (h : Numeral cs n) (hn : 0x10000 ≤ n) : Malformed cs

/-! ## Radix and plus -/

theorem exists_radix (cs : List Char) : ∃ radix ∈ radixes, cs = radix ++ withoutRadix cs := by
  unfold withoutRadix
  split
  · exact ⟨['0', 'x'], by decide, rfl⟩
  · exact ⟨['0', 'X'], by decide, rfl⟩
  · exact ⟨[], by decide, rfl⟩

theorem exists_sign (cs : List Char) : ∃ sign ∈ signs, cs = sign ++ withoutPlus cs := by
  unfold withoutPlus
  split
  · exact ⟨['+'], by decide, rfl⟩
  · exact ⟨[], by decide, rfl⟩

theorem withoutRadix_of_not_mem {cs : List Char} (hlower : 'x' ∉ cs) (hupper : 'X' ∉ cs) :
    withoutRadix cs = cs := by
  unfold withoutRadix
  split
  · exact absurd (by simp) hlower
  · exact absurd (by simp) hupper
  · rfl

theorem withoutRadix_append {radix cs : List Char} (hradix : radix ∈ radixes) (hlower : 'x' ∉ cs)
    (hupper : 'X' ∉ cs) : withoutRadix (radix ++ cs) = cs := by
  simp only [radixes, List.mem_cons, List.not_mem_nil, or_false] at hradix
  rcases hradix with rfl | rfl | rfl
  · exact withoutRadix_of_not_mem hlower hupper
  · rfl
  · rfl

theorem withoutPlus_append {sign cs : List Char} (hsign : sign ∈ signs) (hplus : '+' ∉ cs) :
    withoutPlus (sign ++ cs) = cs := by
  simp only [signs, List.mem_cons, List.not_mem_nil, or_false] at hsign
  rcases hsign with rfl | rfl
  · rw [List.nil_append, withoutPlus]
    rintro digits rfl
    exact hplus List.mem_cons_self
  · rfl

theorem not_mem_of_digit?_eq_none {digits : List Char} {values : List Nat}
    (h : List.Forall₂ Hex.IsDigit digits values) {c : Char} (hc : Hex.digit? c = none) :
    c ∉ digits := by
  intro hmem
  obtain ⟨d, hd⟩ := Hex.exists_isDigit_of_mem h hmem
  rw [Hex.digit?_eq_some_iff.mpr hd] at hc
  cases hc

theorem withoutPlus_withoutRadix_append {radix sign digits : List Char} {values : List Nat}
    (hradix : radix ∈ radixes) (hsign : sign ∈ signs)
    (hdigits : List.Forall₂ Hex.IsDigit digits values) :
    withoutPlus (withoutRadix (radix ++ sign ++ digits)) = digits := by
  have hdigit : ∀ c, Hex.digit? c = none → c ∉ digits := fun c hc =>
    not_mem_of_digit?_eq_none hdigits hc
  have hbehind : ∀ c, Hex.digit? c = none → c ≠ '+' → c ∉ sign ++ digits := by
    intro c hc hplus hmem
    rcases List.mem_append.mp hmem with hmem | hmem
    · have hsigns : ∀ s ∈ signs, ∀ c ∈ s, c = '+' := by simp [signs]
      exact hplus (hsigns sign hsign c hmem)
    · exact hdigit c hc hmem
  have hlower : 'x' ∉ sign ++ digits := hbehind 'x' (by decide) (by decide)
  have hupper : 'X' ∉ sign ++ digits := hbehind 'X' (by decide) (by decide)
  rw [List.append_assoc, withoutRadix_append hradix hlower hupper,
    withoutPlus_append hsign (hdigit '+' (by decide))]

/-- The digits are what is left when radix and plus are taken away. -/
theorem numeral_iff {cs : List Char} {n : Nat} :
    Numeral cs n ↔
      withoutPlus (withoutRadix cs) ≠ [] ∧
        Hex.valueFrom 0 (withoutPlus (withoutRadix cs)) = some n := by
  constructor
  · rintro ⟨hradix, hsign, hne, hdigits⟩
    rw [withoutPlus_withoutRadix_append hradix hsign hdigits]
    exact ⟨hne, Hex.valueFrom_eq_some_iff.mpr ⟨_, hdigits, by simp⟩⟩
  · rintro ⟨hne, hvalue⟩
    -- what was taken away is put back in front, the plus first
    obtain ⟨radix, hradix, hcs⟩ := exists_radix cs
    obtain ⟨sign, hsign, hrest⟩ := exists_sign (withoutRadix cs)
    obtain ⟨values, hdigits, rfl⟩ := Hex.valueFrom_eq_some_iff.mp hvalue
    have hnumeral := Numeral.mk hradix hsign hne hdigits
    rw [List.append_assoc, ← hrest, ← hcs] at hnumeral
    simpa using hnumeral

theorem Numeral.unique {cs : List Char} {m n : Nat} (hm : Numeral cs m) (hn : Numeral cs n) :
    m = n := by
  have hvalue := (numeral_iff.mp hm).2
  rw [(numeral_iff.mp hn).2] at hvalue
  exact (Option.some.inj hvalue).symm

/-! ## Reading -/

theorem readAddress_eq_error {text : String} {e : UsageError} (h : readAddress text = .error e) :
    e = .invalidAddress text := by
  simp only [readAddress] at h
  split_ifs at h
  · cases h
    rfl
  · split at h
    · split_ifs at h
      cases h
      rfl
    · cases h
      rfl

theorem readAddress_eq_ok_iff {text : String} {load : UInt16} :
    readAddress text = .ok load ↔ Numeral text.toList load.toNat := by
  rw [numeral_iff]
  simp only [readAddress]
  split_ifs with hdigits
  · simp [hdigits]
  · cases hvalue : Hex.valueFrom 0 (withoutPlus (withoutRadix text.toList)) with
    | none => simp
    | some n =>
        have hload : load.toNat < UInt16.size := load.toNat_lt
        simp only [hdigits, ne_eq, not_false_eq_true, true_and, Option.some.injEq]
        split_ifs with hn
        · rw [Except.ok.injEq, ← UInt16.toNat_inj, UInt16.toNat_ofNat_of_lt' hn]
        · constructor
          · intro h
            cases h
          · rintro rfl
            exact absurd hload hn

/-! ## What is no address -/

theorem Numeral.mem_alphabet {cs : List Char} {n : Nat} (h : Numeral cs n) {c : Char}
    (hc : c ∈ cs) : c ∈ alphabet := by
  obtain ⟨hradix, hsign, -, hdigits⟩ := h
  rcases List.mem_append.mp hc with hc | hc
  · rcases List.mem_append.mp hc with hc | hc
    · have hradixes : ∀ r ∈ radixes, ∀ c ∈ r, c ∈ alphabet := by
        simp [radixes, alphabet, Hex.lowerDigits]
      exact hradixes _ hradix c hc
    · have hsigns : ∀ s ∈ signs, ∀ c ∈ s, c ∈ alphabet := by simp [signs, alphabet]
      exact hsigns _ hsign c hc
  · obtain ⟨d, hd⟩ := Hex.exists_isDigit_of_mem hdigits hc
    exact List.mem_append_left _ (List.mem_append.mpr
      (hd.imp List.mem_of_getElem? List.mem_of_getElem?))

theorem withoutPlus_eq_nil_of_noDigits : ∀ radix ∈ radixes, ∀ sign ∈ signs,
    withoutPlus (withoutRadix (radix ++ sign)) = [] := by decide

/-- The second radix is left among the digits, and its letter is none. -/
theorem valueFrom_secondRadix {radix sign second rest : List Char} (hradix : radix ∈ radixes)
    (hne : radix ≠ []) (hsign : sign ∈ signs) (hsecond : second ∈ radixes) (hne' : second ≠ []) :
    Hex.valueFrom 0 (withoutPlus (withoutRadix (radix ++ sign ++ second ++ rest))) = none := by
  simp only [radixes, signs, List.mem_cons, List.not_mem_nil, or_false] at hradix hsign hsecond
  rcases hradix.resolve_left hne with rfl | rfl <;> rcases hsign with rfl | rfl <;>
    rcases hsecond.resolve_left hne' with rfl | rfl <;> rfl

theorem Malformed.not_numeral {cs : List Char} (h : Malformed cs) {n : Nat} (hn : n ≤ 0xFFFF) :
    ¬Numeral cs n := by
  intro hnumeral
  cases h with
  | noDigits hradix hsign =>
      exact (numeral_iff.mp hnumeral).1 (withoutPlus_eq_nil_of_noDigits _ hradix _ hsign)
  | secondRadix hradix hne hsign hsecond hne' =>
      have hvalue := (numeral_iff.mp hnumeral).2
      rw [valueFrom_secondRadix hradix hne hsign hsecond hne'] at hvalue
      cases hvalue
  | foreign hc hforeign => exact hforeign (hnumeral.mem_alphabet hc)
  | tooLarge hlarge hbound =>
      have heq := hnumeral.unique hlarge
      omega

/-- An address is read from exactly the texts that are a number of at most sixteen bits, and it
is that number; no text is two numbers. Every other text is refused with a message that ends in
the text as it stands: one without digits, with a second radix, with a character that no number
has, or with a larger number. -/
theorem readAddress_follows_grammar (text : String) :
    (∀ load, readAddress text = .ok load ↔
      ∃ n ≤ 0xFFFF, Numeral text.toList n ∧ load.toNat = n) ∧
    (∀ m n, Numeral text.toList m → Numeral text.toList n → m = n) ∧
    ((¬∃ n ≤ 0xFFFF, Numeral text.toList n) →
      ∃ e, readAddress text = .error e ∧ e.message = "invalid hex address: " ++ text) ∧
    (Malformed text.toList → ¬∃ n ≤ 0xFFFF, Numeral text.toList n) := by
  have haccepted : ∀ load, readAddress text = .ok load ↔
      ∃ n ≤ 0xFFFF, Numeral text.toList n ∧ load.toNat = n := by
    intro load
    rw [readAddress_eq_ok_iff]
    constructor
    · intro hnumeral
      have hload : load.toNat < 65536 := load.toNat_lt
      exact ⟨load.toNat, by omega, hnumeral, rfl⟩
    · rintro ⟨n, -, hnumeral, rfl⟩
      exact hnumeral
  refine ⟨haccepted, fun m n hm hn => hm.unique hn, ?_, ?_⟩
  · intro hnone
    cases hread : readAddress text with
    | ok load =>
        obtain ⟨n, hn, hnumeral, -⟩ := (haccepted load).mp hread
        exact absurd ⟨n, hn, hnumeral⟩ hnone
    | error e =>
        rw [readAddress_eq_error hread]
        exact ⟨_, rfl, rfl⟩
  · rintro hmalformed ⟨n, hn, hnumeral⟩
    exact hmalformed.not_numeral hn hnumeral

/-- The largest address, and the number behind it, which is not taken for zero. -/
theorem readAddress_follows_grammar_around_largest :
    Numeral "0X+00fFfF".toList 0xFFFF ∧ readAddress "0X+00fFfF" = .ok 0xFFFF ∧
      Malformed "0x00010000".toList ∧
      ∃ e, readAddress "0x00010000" = .error e ∧ e.message = "invalid hex address: 0x00010000" := by
  have hlargest : Numeral "0X+00fFfF".toList 0xFFFF := by
    have hdigits : List.Forall₂ Hex.IsDigit ['0', '0', 'f', 'F', 'f', 'F']
        [0, 0, 15, 15, 15, 15] := by decide
    have hradix : ['0', 'X'] ∈ radixes := by decide
    have hsign : ['+'] ∈ signs := by decide
    exact .mk hradix hsign (by decide) hdigits
  have hnext : Numeral "0x00010000".toList 0x10000 := by
    have hdigits : List.Forall₂ Hex.IsDigit ['0', '0', '0', '1', '0', '0', '0', '0']
        [0, 0, 0, 1, 0, 0, 0, 0] := by decide
    have hradix : ['0', 'x'] ∈ radixes := by decide
    have hsign : [] ∈ signs := by decide
    exact .mk hradix hsign (by decide) hdigits
  obtain ⟨haccepted, -, -, -⟩ := readAddress_follows_grammar "0X+00fFfF"
  obtain ⟨-, -, hrefused, hmalformed⟩ := readAddress_follows_grammar "0x00010000"
  have hlarge : Malformed "0x00010000".toList := .tooLarge hnext (Nat.le_refl _)
  exact ⟨hlargest, (haccepted 0xFFFF).mpr ⟨0xFFFF, Nat.le_refl _, hlargest, rfl⟩, hlarge,
    hrefused (hmalformed hlarge)⟩

end Chip8.Command
