import Chip8.Proofs.Disassembly
import Chip8.Proofs.Form.Decode
import Chip8.Proofs.Listing.Writing

/-!
# What the text of a listing keeps

The text of a listing is split into its lines, a line into address and instruction, and the
instruction gives back its form and all digits of its word that the form leaves open, but
for one: the last digit of a skip that compares two registers. That digit has no part in
the control flow either. So the text determines what is code and what is data, although it
shows a word that is not assigned like one that is not reached.
-/

namespace Chip8

/-! ## Words with one text -/

/-- Words that are skips on two registers and compare the same two in the same way. -/
structure Word.SameSkip (w w' : Word) : Prop where
  isRegisterSkip : w.lead = 0x5 ∨ w.lead = 0x9
  lead : w.lead = w'.lead
  x : w.x = w'.x
  y : w.y = w'.y

theorem Word.SameSkip.exits_eq {w w' : Word} (h : w.SameSkip w') (load : UInt16) (i : Nat) :
    w.exits load i = w'.exits load i := by
  rcases h.isRegisterSkip with hlead | hlead
  · have hlead' : w'.lead = 0x5 := h.lead.symm.trans hlead
    simp [exits, IsSkip, hlead, hlead']
  · have hlead' : w'.lead = 0x9 := h.lead.symm.trans hlead
    simp [exits, IsSkip, hlead, hlead']

theorem Form.lead_of_isRegisterSkip {f : Form} {w : Word} (hf : f.Fits w)
    (h : f.isRegisterSkip = true) : w.lead = 0x5 ∨ w.lead = 0x9 := by
  rw [← w.digitAt_three]
  cases f with
  | skipEqualRegister => exact Or.inl (hf _ List.mem_cons_self)
  | skipUnequalRegister => exact Or.inr (hf _ List.mem_cons_self)
  | _ => cases h

theorem Form.eq_or_sameSkip {f : Form} {w w' : Word} (hw : f.Fits w) (hw' : f.Fits w')
    (h : f.template.fill w = f.template.fill w') :
    w = w' ∨ f.isRegisterSkip = true ∧ w.SameSkip w' := by
  by_cases hskip : f.isRegisterSkip = true
  · -- the text leaves no digit open but the last
    have hdigit : ∀ position < 4, position ≠ 0 → w.digitAt position = w'.digitAt position := by
      intro position hposition hpos
      rcases digitAt_eq hw hw' h hposition with heq | ⟨hzero, -⟩
      · exact heq
      · exact absurd hzero hpos
    refine Or.inr ⟨hskip, lead_of_isRegisterSkip hw hskip, ?_, ?_, ?_⟩
    · rw [← w.digitAt_three, ← w'.digitAt_three]
      exact hdigit 3 (by decide) (by decide)
    · rw [← UInt8.toNat_inj, w.toNat_x, w'.toNat_x]
      exact hdigit 2 (by decide) (by decide)
    · rw [← UInt8.toNat_inj, w.toNat_y, w'.toNat_y]
      exact hdigit 1 (by decide) (by decide)
  · refine Or.inl (Word.eq_of_digitAt fun position hposition => ?_)
    rcases digitAt_eq hw hw' h hposition with heq | ⟨-, hopen⟩
    · exact heq
    · exact absurd hopen hskip

/-! ## Lines -/

namespace Line

theorem toList_display (l : Line) :
    l.display.toList = (Hex.padded 3 l.address).toList ++ ':' :: ' ' :: l.text.toList := by
  simp [display_eq]

/-- A line is split at its colon. -/
theorem display_inj {l l' : Line} (h : l.display = l'.display) :
    l.address = l'.address ∧ l.text = l'.text := by
  have hcolon : ∀ n, ':' ∉ (Hex.padded 3 n).toList := Hex.not_mem_padded (by decide) 3
  rw [← String.toList_inj, toList_display, toList_display] at h
  obtain ⟨haddress, hrest⟩ := Lines.append_cons_inj (hcolon _) (hcolon _) h
  obtain ⟨-, htext⟩ := List.cons.inj hrest
  exact ⟨Hex.padded_inj (String.toList_inj.mp haddress), String.toList_inj.mp htext⟩

end Line

namespace Listing

variable {r r' : Reachability} {load load' : UInt16} {i i' : Nat} {w w' : Word}

/-- The form in which a word is shown. -/
def formOf (r : Reachability) (i : Nat) (w : Word) : Form :=
  if r.isReached i then (Instruction.decode w).form else .directive

theorem toList_text_lineOf (r : Reachability) (load : UInt16) (i : Nat) (w : Word) :
    (lineOf r load i w).text.toList = (formOf r i w).template.fill w := by
  cases h : r.isReached i with
  | true =>
      rw [lineOf_of_isReached h, formOf, if_pos h]
      exact Instruction.printsAs_decode w
  | false =>
      rw [lineOf_of_not_isReached h, formOf, if_neg (by simp [h])]
      exact w.toList_dataText

theorem fits_formOf (r : Reachability) (i : Nat) (w : Word) : (formOf r i w).Fits w := by
  unfold formOf
  split_ifs
  · exact Instruction.fits_decode w
  · exact Instruction.fits_unassigned w

theorem isReached_of_isRegisterSkip (h : (formOf r i w).isRegisterSkip = true) :
    r.isReached i = true := by
  by_contra hdata
  rw [formOf, if_neg hdata] at h
  cases h

/-- Lines with one text are lines of one word, or of two skips that are alike. -/
theorem eq_or_sameSkip_of_text_eq
    (h : (lineOf r load i w).text = (lineOf r' load' i' w').text) :
    w = w' ∨ r.isReached i = true ∧ r'.isReached i' = true ∧ w.SameSkip w' := by
  rw [← String.toList_inj, toList_text_lineOf, toList_text_lineOf] at h
  -- one text is of one form only, and then both words fit it
  have hform := Form.eq_of_fill_eq h
  have hfits := fits_formOf r' i' w'
  rw [← hform] at h hfits
  rcases Form.eq_or_sameSkip (fits_formOf r i w) hfits h with heq | ⟨hskip, hsame⟩
  · exact Or.inl heq
  · have hskip' : (formOf r' i' w').isRegisterSkip = true := by rw [← hform, hskip]
    exact Or.inr ⟨isReached_of_isRegisterSkip hskip, isReached_of_isRegisterSkip hskip', hsame⟩

/-- The text of a listing determines its lines as they are displayed. -/
theorem display_eq_of_text_eq {words words' : Array Word}
    (h : (build words r load).text = (build words' r' load').text) (i : Nat) :
    (words[i]?.map fun w => (lineOf r load i w).display) =
      words'[i]?.map fun w => (lineOf r' load' i w).display := by
  have hnewline : ∀ (words : Array Word) (r : Reachability) (load : UInt16),
      ∀ l ∈ (build words r load).lines.toList.map fun line => line.display.toList, '\n' ∉ l := by
    intro words r load l hl
    obtain ⟨line, hline, rfl⟩ := List.mem_map.mp hl
    obtain ⟨i, w, -, rfl⟩ := Array.mem_mapIdx.mp (Array.mem_toList_iff.mp hline)
    exact (lineOf r load i _).visible_display.newline_not_mem
  rw [← String.toList_inj, toList_text, toList_text] at h
  have hlines := Lines.eq_of_flatMap_eq (hnewline words r load) (hnewline words' r' load') h
  have hline := congrArg (fun lines => (lines[i]?).map String.ofList) hlines
  simpa [getElem?_lines_build, Function.comp_def] using hline

theorem size_eq_of_text_eq {words words' : Array Word}
    (h : (build words r load).text = (build words' r' load').text) : words.size = words'.size := by
  have hnone : ∀ i, words.size ≤ i ↔ words'.size ≤ i := by
    intro i
    rw [← Array.getElem?_eq_none_iff, ← Array.getElem?_eq_none_iff, ← Option.map_eq_none_iff,
      display_eq_of_text_eq h i, Option.map_eq_none_iff]
  exact Nat.le_antisymm ((hnone _).mpr le_rfl) ((hnone _).mp le_rfl)

variable {words words' : Array Word}

/-- The addresses at one place of two listings with one text, and what stands behind them. -/
theorem line_eq_of_text_eq (h : (build words r load).text = (build words' r' load').text)
    (hw : words[i]? = some w) (hw' : words'[i]? = some w') :
    load = load' ∧
      (w = w' ∨ r.isReached i = true ∧ r'.isReached i = true ∧ w.SameSkip w') := by
  have hdisplay := display_eq_of_text_eq h i
  rw [hw, hw', Option.map_some, Option.map_some] at hdisplay
  obtain ⟨haddress, htext⟩ := Line.display_inj (Option.some.inj hdisplay)
  refine ⟨UInt16.toNat_inj.mp ?_, eq_or_sameSkip_of_text_eq htext⟩
  simp only [lineOf, Address.ofIndex] at haddress
  omega

/-- A word that is not assigned is shown like data, reached or not. -/
theorem display_lineOf_of_unassigned (r : Reachability) (load : UInt16) (i : Nat)
    (h : Instruction.decode w = .unassigned w) :
    (lineOf r load i w).display = (directive load i w).display := by
  cases hr : r.isReached i with
  | true =>
      rw [lineOf_of_isReached hr, h]
      rfl
  | false => rw [lineOf_of_not_isReached hr]

end Listing

namespace Reachability

/-- The last digit of a skip on two registers has no part in the analysis, nor has the load
address of an image without words. -/
theorem analyze_eq_of_sameSkip {words words' : Array Word} {load load' : UInt16}
    (hsize : words.size = words'.size) (hload : 0 < words.size → load = load')
    (h : ∀ (i : Nat) (w w' : Word), words[i]? = some w → words'[i]? = some w' →
      w = w' ∨ w.SameSkip w') (entry : Nat) :
    analyze words entry load = analyze words' entry load' := by
  have hsuccessors : successors words load = successors words' load' := by
    funext i
    by_cases hi : i < words.size
    · -- there is a word, so the load addresses are one
      obtain ⟨w, hw⟩ : ∃ w, words[i]? = some w := ⟨_, Array.getElem?_eq_getElem hi⟩
      obtain ⟨w', hw'⟩ : ∃ w', words'[i]? = some w' :=
        ⟨_, Array.getElem?_eq_getElem (hsize ▸ hi)⟩
      rw [successors_eq_exits hw, successors_eq_exits hw', hload (Nat.zero_lt_of_lt hi)]
      rcases h i w w' hw hw' with heq | hskip
      · rw [heq]
      · exact hskip.exits_eq load' i
    · rw [successors, successors, Array.getElem?_eq_none (by omega),
        Array.getElem?_eq_none (by omega)]
  exact analyze_congr hsize hsuccessors entry

end Reachability

namespace Disassembly

theorem isCode_listing {d : Disassembly} {i : Nat} {w : Word} (hw : d.image.words[i]? = some w)
    (h : d.reachability.isReached i = true) :
    d.listing.lines[i]?.map Line.isCode = some true := by
  rw [listing, Listing.getElem?_lines_build, hw, Option.map_some, Option.map_some,
    Listing.isCode_lineOf, h]

/-- The text of a listing loses nothing but the last digit of a skip on two registers. Let
two disassemblies have listings with one text. Then their images have equally many words,
their load addresses are equal unless there are no words, and at each index stand equal
words, or skips in the code of both that compare the same two registers. If also their
entries are equal, so are the marks and their order, although a word that is not assigned
is shown like data. -/
theorem eq_or_sameSkip_of_listing_text_eq {config config' : Config} {bytes bytes' : Bytes}
    {d d' : Disassembly} (hd : disassemble config bytes = .ok d)
    (hd' : disassemble config' bytes' = .ok d') (htext : d.listing.text = d'.listing.text) :
    d.image.size = d'.image.size ∧
    (0 < d.image.size → config.load = config'.load) ∧
    (∀ (i : Nat) (w w' : Word), d.image.words[i]? = some w → d'.image.words[i]? = some w' →
      w = w' ∨
        d.listing.lines[i]?.map Line.isCode = some true ∧
        d'.listing.lines[i]?.map Line.isCode = some true ∧
        w.SameSkip w') ∧
    (config.entry = config'.entry →
      d.reachability.reached = d'.reachability.reached ∧
        d.reachability.order = d'.reachability.order) ∧
    ∀ (i : Nat) (w : Word), d.image.words[i]? = some w → Instruction.decode w = .unassigned w →
      d.listing.lines[i]?.map Line.display =
        some (Listing.directive config.load i w).display := by
  obtain ⟨-, rfl⟩ := eq_of_disassemble hd
  obtain ⟨-, rfl⟩ := eq_of_disassemble hd'
  have hsize : (Image.ofBytes bytes).words.size = (Image.ofBytes bytes').words.size :=
    Listing.size_eq_of_text_eq htext
  have hload : 0 < (Image.ofBytes bytes).words.size → config.load = config'.load := by
    intro hpos
    have hw := Array.getElem?_eq_getElem hpos
    have hw' := Array.getElem?_eq_getElem (hsize ▸ hpos)
    exact (Listing.line_eq_of_text_eq htext hw hw').1
  have hwords : ∀ (i : Nat) (w w' : Word), (Image.ofBytes bytes).words[i]? = some w →
      (Image.ofBytes bytes').words[i]? = some w' →
      w = w' ∨ (ofImage config (.ofBytes bytes)).reachability.isReached i = true ∧
        (ofImage config' (.ofBytes bytes')).reachability.isReached i = true ∧ w.SameSkip w' :=
    fun _ _ _ hw hw' => (Listing.line_eq_of_text_eq htext hw hw').2
  refine ⟨hsize, hload, ?_, ?_, ?_⟩
  · intro i w w' hw hw'
    refine (hwords i w w' hw hw').imp_right ?_
    rintro ⟨hcode, hcode', hskip⟩
    exact ⟨isCode_listing hw hcode, isCode_listing hw' hcode', hskip⟩
  · intro hentry
    have hsame : (ofImage config (.ofBytes bytes)).reachability =
        (ofImage config' (.ofBytes bytes')).reachability := by
      rw [ofImage, ofImage, ← hentry]
      exact Reachability.analyze_eq_of_sameSkip hsize hload
        (fun i w w' hw hw' => (hwords i w w' hw hw').imp_right fun h => h.2.2) config.entry
    rw [hsame]
    exact ⟨rfl, rfl⟩
  · intro i w hw hunassigned
    rw [listing, Listing.getElem?_lines_build, hw, Option.map_some, Option.map_some,
      Listing.display_lineOf_of_unassigned _ _ _ hunassigned]
    rfl

/-- Two skips that differ in their last digit, each before a word that is not assigned. -/
theorem sameSkip_of_two_listings :
    ∃ d d', disassemble {} #[0x5A, 0xB0, 0xFF, 0xFF] = .ok d ∧
      disassemble {} #[0x5A, 0xB7, 0xFF, 0xFF] = .ok d' ∧
      d.listing.text = "200: seq VA, VB\n202: db  FFFF\n" ∧
      d'.listing.text = "200: seq VA, VB\n202: db  FFFF\n" ∧
      Word.SameSkip 0x5AB0 0x5AB7 ∧ d.reachability.order = d'.reachability.order := by
  have hvalid : ({} : Config).validate = .ok () := by decide
  have hd := disassemble_of_ok hvalid #[0x5A, 0xB0, 0xFF, 0xFF]
  have hd' := disassemble_of_ok hvalid #[0x5A, 0xB7, 0xFF, 0xFF]
  have htext : (ofImage {} (.ofBytes #[0x5A, 0xB0, 0xFF, 0xFF])).listing.text =
      "200: seq VA, VB\n202: db  FFFF\n" := by decide +kernel
  have htext' : (ofImage {} (.ofBytes #[0x5A, 0xB7, 0xFF, 0xFF])).listing.text =
      "200: seq VA, VB\n202: db  FFFF\n" := by decide +kernel
  obtain ⟨-, -, hwords, hmarks, -⟩ :=
    eq_or_sameSkip_of_listing_text_eq hd hd' (htext.trans htext'.symm)
  refine ⟨_, _, hd, hd', htext, htext', ?_, (hmarks rfl).2⟩
  rcases hwords 0 0x5AB0 0x5AB7 (by decide) (by decide) with heq | ⟨-, -, hskip⟩
  · exact absurd heq (by decide)
  · exact hskip

end Disassembly

end Chip8
