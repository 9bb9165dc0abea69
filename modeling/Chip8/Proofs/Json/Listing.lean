import Chip8.Json.Listing
import Chip8.Proofs.Json.Instruction

/-!
# Listings read from JSON

A listing is spelled line by line, and a line by its address, its word and its kind. The address is
the only number that may not have room: all others are bytes and words, which fit their fields.
-/

namespace Chip8

open Json

namespace LineKind

def Spells (j : Json) : LineKind → Prop
  | code i => ∃ instruction, Alternative "Code" (some instruction) j ∧ i.Spells instruction
  | data => ∃ payload, Alternative "Data" payload j ∧ CarriesNothing payload

theorem ofJson?_eq_some_iff {j : Json} {kind : LineKind} : ofJson? j = some kind ↔ Spells j kind := by
  unfold ofJson?
  constructor
  · intro h
    split at h
    · rename_i instruction hvariant
      obtain ⟨i, hi, rfl⟩ := Option.map_eq_some_iff.mp h
      exact ⟨instruction, variant?_eq_some_iff.mp hvariant, Instruction.ofJson?_eq_some_iff.mp hi⟩
    · rename_i payload hvariant
      obtain ⟨hnothing, rfl⟩ := bare?_eq_some_iff.mp h
      exact ⟨payload, variant?_eq_some_iff.mp hvariant, hnothing⟩
    · cases h
  · intro h
    cases kind with
    | code i =>
        obtain ⟨instruction, halternative, hi⟩ := h
        rw [variant?_eq_some_iff.mpr halternative]
        exact Option.map_eq_some_iff.mpr ⟨i, Instruction.ofJson?_eq_some_iff.mpr hi, rfl⟩
    | data =>
        obtain ⟨payload, halternative, hnothing⟩ := h
        rw [variant?_eq_some_iff.mpr halternative]
        exact bare?_eq_some_iff.mpr ⟨hnothing, rfl⟩

theorem spells_toJson (kind : LineKind) : Spells kind.toJson kind := by
  cases kind with
  | code i => exact ⟨i.toJson, .member _, i.spells_toJson⟩
  | data => exact ⟨none, .alone, .missing⟩

theorem demandsOneMember : DemandsOneMember ofJson? :=
  demandsOneMember_of_variant? fun j h => by rw [ofJson?, h]

theorem ofJson?_code_eq_none {instruction : Json} (h : ¬ Readable Instruction.ofJson? instruction) :
    ofJson? (variant "Code" instruction) = none := by
  rw [Option.eq_none_iff_forall_ne_some]
  intro kind hread
  cases kind with
  | code i =>
      obtain ⟨_, halternative, hi⟩ := ofJson?_eq_some_iff.mp hread
      cases (alternative_variant_iff.mp halternative).2
      exact h ⟨i, Instruction.ofJson?_eq_some_iff.mpr hi⟩
  | data =>
      obtain ⟨_, halternative, -⟩ := ofJson?_eq_some_iff.mp hread
      exact absurd (alternative_variant_iff.mp halternative).1 (by decide)

end LineKind

namespace Line

/-- The address has room in a number of 64 bits. -/
def Exchangeable (l : Line) : Prop := l.address < UInt64.size

def Spells (j : Json) (l : Line) : Prop :=
  ∃ kind, RecordOf [("address", some (nat l.address)), ("word", some (nat l.word.toNat)),
    ("kind", some kind)] j ∧ LineKind.Spells kind l.kind ∧ l.Exchangeable

theorem ofJson?_eq_some_iff {j : Json} {l : Line} : ofJson? j = some l ↔ Spells j l := by
  constructor
  · intro h
    unfold ofJson? at h
    split at h
    · rename_i hfields
      simp only [Option.bind_eq_bind, Option.bind_eq_some_iff, Option.pure_def, Option.some.injEq,
        nat64?_eq_some_iff, uint16?_eq_some_iff, LineKind.ofJson?_eq_some_iff] at h
      obtain ⟨address, ⟨rfl, hfits⟩, word, rfl, kind, hkind, rfl⟩ := h
      exact ⟨_, fields?_eq_some_iff.mp hfields, hkind, hfits⟩
    · cases h
  · rintro ⟨kind, hrecord, hkind, hfits⟩
    have hfields : fields? ["address", "word", "kind"] j =
        some [some (nat l.address), some (nat l.word.toNat), some kind] :=
      fields?_eq_some_iff.mpr hrecord
    simp [ofJson?, hfields, nat64?_eq_some_iff.mpr ⟨rfl, hfits⟩, uint16?_nat,
      LineKind.ofJson?_eq_some_iff.mpr hkind]

theorem spells_toJson {l : Line} (h : l.Exchangeable) : Spells l.toJson l :=
  ⟨l.kind.toJson, recordOf_record (by simp) rfl, l.kind.spells_toJson, h⟩

theorem exact : Exact toJson ofJson? Exchangeable Spells :=
  .of_spelling (fun _ _ => ofJson?_eq_some_iff) (fun _ => spells_toJson)
    (fun _ _ ⟨_, _, _, hfits⟩ => hfits)

theorem demands : Demands ofJson? [("address", IsBelow UInt64.size), ("word", IsBelow UInt16.size),
    ("kind", Readable LineKind.ofJson?)] := by
  apply demands_of_read
  intro members l h
  obtain ⟨kind, hrecord, hkind, hfits⟩ := ofJson?_eq_some_iff.mp h
  have hfound := hrecord.found
  simp only [List.forall_mem_cons] at hfound ⊢
  obtain ⟨haddress, hword, hkind_found, -⟩ := hfound
  exact ⟨⟨_, haddress, _, hfits, rfl⟩, ⟨_, hword, isBelow_uint16 l.word⟩,
    ⟨_, hkind_found, _, LineKind.ofJson?_eq_some_iff.mpr hkind⟩, List.forall_mem_nil _⟩

end Line

namespace Listing

def Exchangeable (l : Listing) : Prop := ∀ line ∈ l.lines.toList, line.Exchangeable

def Spells (j : Json) (l : Listing) : Prop :=
  ∃ lines, RecordOf [("lines", some lines)] j ∧ ListOf Line.Spells lines l.lines.toList

theorem ofJson?_eq_some_iff {j : Json} {l : Listing} : ofJson? j = some l ↔ Spells j l := by
  constructor
  · intro h
    unfold ofJson? at h
    split at h
    · rename_i lines hfields
      obtain ⟨read, hread, rfl⟩ := Option.map_eq_some_iff.mp h
      exact ⟨lines, fields?_eq_some_iff.mp hfields, Line.exact.list.read_iff _ _ |>.mp hread⟩
    · cases h
  · rintro ⟨lines, hrecord, hlines⟩
    have hfields : fields? ["lines"] j = some [some lines] := fields?_eq_some_iff.mpr hrecord
    simp [ofJson?, hfields, (Line.exact.list.read_iff _ _).mpr hlines]

theorem spells_toJson {l : Listing} (h : l.Exchangeable) : Spells l.toJson l :=
  ⟨_, recordOf_record (by simp) rfl, listOf_map fun _ hline => Line.spells_toJson (h _ hline)⟩

theorem exact : Exact toJson ofJson? Exchangeable Spells :=
  .of_spelling (fun _ _ => ofJson?_eq_some_iff) (fun _ => spells_toJson)
    fun _ _ ⟨_, _, hlines⟩ => hlines.forall_of_spells fun _ _ ⟨_, _, _, hfits⟩ => hfits

theorem demands : Demands ofJson? [("lines", AllReadable Line.ofJson?)] := by
  apply demands_of_read
  intro members l h
  obtain ⟨lines, hrecord, hlines⟩ := ofJson?_eq_some_iff.mp h
  have hfound := hrecord.found
  simp only [List.forall_mem_cons] at hfound ⊢
  exact ⟨⟨lines, hfound.1, hlines.allReadable fun _ _ => Line.ofJson?_eq_some_iff⟩,
    List.forall_mem_nil _⟩

end Listing

end Chip8
