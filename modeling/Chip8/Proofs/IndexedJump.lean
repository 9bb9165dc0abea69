import Chip8.Config
import Chip8.Proofs.Reachability

/-!
# Indexed jumps

An indexed jump adds a byte to an address, and the analysis lets it land in any of
128 words, from the word that contains the address. From the first byte of a word,
256 bytes reach over exactly 128 words. From the second byte they reach into one word
more: 255 bytes behind an odd address lies the first byte of the word after the span.
So the span covers all run-time values of the register but the greatest, and covers
that one too where the address is even.
-/

namespace Chip8.Reachability

variable {load : UInt16} {w : Word} {v : UInt8}

/-- Where the jump lands, counted in words from the start of its span. -/
theorem landing_eq (hload : load.toNat % 2 = 0)
    (hinside : load.toNat ≤ w.address.toNat + v.toNat) :
    (((w.address.toNat + v.toNat - load.toNat) / 2 : Nat) : Int) =
      w.target load + ((w.address.toNat % 2 + v.toNat) / 2 : Nat) := by
  rw [Word.target, ← Word.toNat_address]
  omega

/-- A marked indexed jump has every word of its span marked that the image contains. -/
theorem isReached_landing {words : Array Word} {entry i : Nat} (hw : w.lead = 0xB)
    (hi : words[i]? = some w) (h : (analyze words entry load).isReached i = true) {j k : Nat}
    (hk : k < 128) (hj : (j : Int) = w.target load + k) (hlt : j < words.size) :
    (analyze words entry load).isReached j = true := by
  have hexit : (j : Int) ∈ w.exits load i := hj ▸ Word.mem_exits_of_indexed hw hk
  exact isReached_of_mem_successors h (mem_successors_iff.mpr ⟨w, hi, hexit⟩) hlt

/-- An image that consists of one indexed jump, over and over, has no mark outside the
span of that jump, but for its entry. -/
theorem mem_span_of_isReached_replicate (hw : w.lead = 0xB) {size entry i : Nat}
    (h : (analyze (Array.replicate size w) entry load).isReached i = true) :
    i = entry ∨ w.target load ≤ i ∧ (i : Int) < w.target load + 128 := by
  refine mem_of_isReached (s := {i | i = entry ∨ w.target load ≤ i ∧
    (i : Int) < w.target load + 128}) (fun _ _ => Or.inl rfl) ?_ h
  rintro i - j ⟨w', hw', hj, -⟩
  obtain ⟨hi, heq⟩ := Array.getElem?_eq_some_iff.mp hw'
  rw [Array.getElem_replicate] at heq
  rw [← heq, Word.exits_of_indexed hw] at hj
  obtain ⟨k, hk, hkj⟩ := List.mem_map.mp hj
  rw [List.mem_range] at hk
  refine Or.inr ⟨?_, ?_⟩
  · omega
  · omega

/-- The word that an odd address and the greatest byte lead to may be overlooked. -/
theorem exists_landing_not_isReached (hload : load.toNat % 2 = 0) (hw : w.lead = 0xB)
    (hodd : w.address.toNat % 2 = 1) (hinside : load.toNat ≤ w.address.toNat + 255) :
    ∃ (words : Array Word) (entry : Nat), words[entry]? = some w ∧
      (analyze words entry load).isReached entry = true ∧
      w.address.toNat + 255 < load.toNat + 2 * words.size ∧
      (analyze words entry load).isReached ((w.address.toNat + 255 - load.toNat) / 2) ≠ true := by
  obtain ⟨landing, hlanding⟩ : ∃ n, n = (w.address.toNat + 255 - load.toNat) / 2 := ⟨_, rfl⟩
  have htarget := landing_eq (v := 255) hload hinside
  have haddress : w.address.toNat < 65536 := w.address.toNat_lt
  rw [show (255 : UInt8).toNat = 255 from rfl, hodd, ← hlanding] at htarget
  rw [← hlanding]
  -- the entry stands behind the landing word, and all jumps of the image span the same words
  refine ⟨Array.replicate (landing + 2) w, landing + 1, ?_, ?_, ?_, ?_⟩
  · rw [Array.getElem?_replicate, if_pos (by omega)]
  · exact isReached_entry (by omega) (by simp)
  · rw [Array.size_replicate]
    omega
  · intro h
    rcases mem_span_of_isReached_replicate hw h with heq | ⟨-, hlt⟩
    · omega
    · omega

/-- Exactly when the analysis covers an indexed jump. For a valid load address and an
indexed jump whose address and added byte lead to `load` or behind it: in every image
in which the jump is marked and which contains the byte that it leads to, the word of
that byte is marked too, if and only if the address is even or the byte that is added
is not the greatest. -/
theorem indexedJump_covered_iff (config : Config) (hvalid : config.validate = .ok ())
    (w : Word) (hw : w.lead = 0xB) (v : UInt8)
    (hinside : config.load.toNat ≤ w.address.toNat + v.toNat) :
    (∀ (words : Array Word) (entry i : Nat), words[i]? = some w →
      (analyze words entry config.load).isReached i = true →
      w.address.toNat + v.toNat < config.load.toNat + 2 * words.size →
      (analyze words entry config.load).isReached
        ((w.address.toNat + v.toNat - config.load.toNat) / 2) = true) ↔
      w.address.toNat % 2 = 0 ∨ v ≠ 255 := by
  have hload : config.load.toNat % 2 = 0 := (config.validate_eq_ok_iff.mp hvalid).2
  constructor
  · intro hcovered
    by_contra hbad
    obtain ⟨hodd, hmax⟩ : w.address.toNat % 2 = 1 ∧ v = 255 := by
      rw [not_or, not_not] at hbad
      exact ⟨by omega, hbad.2⟩
    subst hmax
    obtain ⟨words, entry, hentry, hmark, hend, hmiss⟩ :=
      exists_landing_not_isReached hload hw hodd hinside
    exact hmiss (hcovered words entry entry hentry hmark hend)
  · intro hgood words entry i hi hmark hend
    have hv : v.toNat < 256 := v.toNat_lt
    have hmax : v ≠ 255 → v.toNat ≠ 255 := fun hne heq => hne (UInt8.toNat_inj.mp heq)
    have hk : (w.address.toNat % 2 + v.toNat) / 2 < 128 := by
      rcases hgood with heven | hne
      · omega
      · have := hmax hne
        omega
    exact isReached_landing hw hi hmark hk (landing_eq hload hinside) (by omega)

/-- From the address 201 the bytes up to 254 are covered, and 255 is not. -/
theorem indexedJump_covered_from_201 :
    ({} : Config).validate = .ok () ∧ Word.lead 0xB201 = 0xB ∧
      (∀ (words : Array Word) (entry i : Nat), words[i]? = some 0xB201 →
        (analyze words entry 0x200).isReached i = true →
        (0xB201 : Word).address.toNat + (254 : UInt8).toNat < 0x200 + 2 * words.size →
        (analyze words entry 0x200).isReached
          (((0xB201 : Word).address.toNat + (254 : UInt8).toNat - 0x200) / 2) = true) ∧
      ¬∀ (words : Array Word) (entry i : Nat), words[i]? = some 0xB201 →
        (analyze words entry 0x200).isReached i = true →
        (0xB201 : Word).address.toNat + (255 : UInt8).toNat < 0x200 + 2 * words.size →
        (analyze words entry 0x200).isReached
          (((0xB201 : Word).address.toNat + (255 : UInt8).toNat - 0x200) / 2) = true := by
  refine ⟨rfl, rfl, ?_, ?_⟩
  · exact (indexedJump_covered_iff {} rfl 0xB201 rfl 254 (by decide)).mpr (Or.inr (by decide))
  · intro hcovered
    have hcond := (indexedJump_covered_iff {} rfl 0xB201 rfl 255 (by decide)).mp hcovered
    revert hcond
    decide

/-- In an image of 129 words `B201` the jump of the first word reaches the last one,
201 + FF = 300, and the analysis does not mark it. -/
theorem indexedJump_overlooks_last_word :
    ({} : Config).validate = .ok () ∧
      (Array.replicate 129 (0xB201 : Word))[0]? = some 0xB201 ∧
      (analyze (Array.replicate 129 0xB201) 0 0x200).isReached 0 = true ∧
      0x200 ≤ 0x201 + 255 ∧ 0x201 + 255 < 0x200 + 2 * 129 ∧
      (analyze (Array.replicate 129 0xB201) 0 0x200).isReached ((0x201 + 255 - 0x200) / 2) =
        false := by
  refine ⟨rfl, by simp, isReached_entry (by decide) (by simp), by decide, by decide, ?_⟩
  rw [Bool.eq_false_iff]
  intro h
  have hspan := mem_span_of_isReached_replicate rfl h
  revert hspan
  decide

end Chip8.Reachability
