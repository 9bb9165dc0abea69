import Chip8.Json.Config
import Chip8.Proofs.Json.Session

/-!
# Exchange

Listings, events, session results, configurations and their errors can be exchanged as JSON: what
was written is read back as it was, nothing that is read was cut to fit, and what lacks a field or
has an ill one is refused, at whatever depth it stands.
-/

namespace Chip8

open Json

namespace Config

/-- The entry has room in a number of 64 bits. -/
def Exchangeable (c : Config) : Prop := c.entry < UInt64.size

def Spells (j : Json) (c : Config) : Prop :=
  RecordOf [("load_address", some (nat c.load.toNat)), ("entry_index", some (nat c.entry))] j ∧
    c.Exchangeable

theorem ofJson?_eq_some_iff {j : Json} {c : Config} : ofJson? j = some c ↔ Spells j c := by
  constructor
  · intro h
    unfold ofJson? at h
    split at h
    · rename_i hfields
      simp only [Option.bind_eq_bind, Option.bind_eq_some_iff, Option.pure_def, Option.some.injEq,
        uint16?_eq_some_iff, nat64?_eq_some_iff] at h
      obtain ⟨load, rfl, entry, ⟨rfl, hfits⟩, rfl⟩ := h
      exact ⟨fields?_eq_some_iff.mp hfields, hfits⟩
    · cases h
  · rintro ⟨hrecord, hfits⟩
    have hfields : fields? ["load_address", "entry_index"] j =
        some [some (nat c.load.toNat), some (nat c.entry)] := fields?_eq_some_iff.mpr hrecord
    simp [ofJson?, hfields, uint16?_nat, nat64?_eq_some_iff.mpr ⟨rfl, hfits⟩]

theorem exact : Exact toJson ofJson? Exchangeable Spells :=
  .of_spelling (fun _ _ => ofJson?_eq_some_iff) (fun _ h => ⟨recordOf_record (by simp) rfl, h⟩)
    (fun _ _ h => h.2)

theorem demands :
    Demands ofJson? [("load_address", IsBelow UInt16.size), ("entry_index", IsBelow UInt64.size)] := by
  apply demands_of_read
  intro members c h
  obtain ⟨hrecord, hfits⟩ := ofJson?_eq_some_iff.mp h
  have hfound := hrecord.found
  simp only [List.forall_mem_cons] at hfound ⊢
  obtain ⟨hload, hentry, -⟩ := hfound
  exact ⟨⟨_, hload, isBelow_uint16 c.load⟩, ⟨_, hentry, _, hfits, rfl⟩, List.forall_mem_nil _⟩

end Config

namespace ConfigError

def Spells (j : Json) : ConfigError → Prop
  | unaligned load => Alternative "UnalignedLoadAddress" (some (nat load.toNat)) j
  | outOfRange load => Alternative "LoadAddressOutOfRange" (some (nat load.toNat)) j

theorem ofJson?_eq_some_iff {j : Json} {e : ConfigError} : ofJson? j = some e ↔ Spells j e := by
  unfold ofJson?
  constructor
  · intro h
    split at h
    · rename_i hvariant
      obtain ⟨load, hload, rfl⟩ := Option.map_eq_some_iff.mp h
      cases uint16?_eq_some_iff.mp hload
      exact variant?_eq_some_iff.mp hvariant
    · rename_i hvariant
      obtain ⟨load, hload, rfl⟩ := Option.map_eq_some_iff.mp h
      cases uint16?_eq_some_iff.mp hload
      exact variant?_eq_some_iff.mp hvariant
    · cases h
  · intro h
    cases e with
    | unaligned load =>
        rw [variant?_eq_some_iff.mpr h]
        exact Option.map_eq_some_iff.mpr ⟨load, uint16?_nat load, rfl⟩
    | outOfRange load =>
        rw [variant?_eq_some_iff.mpr h]
        exact Option.map_eq_some_iff.mpr ⟨load, uint16?_nat load, rfl⟩

theorem spells_toJson (e : ConfigError) : Spells e.toJson e := by
  cases e with
  | unaligned load | outOfRange load => exact .member _

theorem exact : Exact toJson ofJson? (fun _ => True) Spells :=
  .of_spelling (fun _ _ => ofJson?_eq_some_iff) (fun e _ => e.spells_toJson) (fun _ _ _ => trivial)

theorem demandsOneMember : DemandsOneMember ofJson? :=
  demandsOneMember_of_variant? fun j h => by rw [ofJson?, h]

theorem ofJson?_variant_eq_none {name : String} {load : Json} (h : ¬ IsBelow UInt16.size load) :
    ofJson? (variant name load) = none := by
  rw [Option.eq_none_iff_forall_ne_some]
  intro e hread
  have hspells := ofJson?_eq_some_iff.mp hread
  cases e with
  | unaligned a | outOfRange a =>
      cases (alternative_variant_iff.mp hspells).2
      exact h (isBelow_uint16 a)

end ConfigError

namespace Json

/-- What is refused: an object without one of its fields, or with an ill value for it, and an
alternative with other than one member. As the parts of a value are read by readers of this list
as well, what is refused in a part is refused in the whole. -/
structure RefusesIllFormed : Prop where
  listing : Demands Listing.ofJson? [("lines", AllReadable Line.ofJson?)]
  line : Demands Line.ofJson? [("address", IsBelow UInt64.size), ("word", IsBelow UInt16.size),
    ("kind", Readable LineKind.ofJson?)]
  kind : DemandsOneMember LineKind.ofJson?
  code : ∀ instruction, ¬ Readable Instruction.ofJson? instruction →
    LineKind.ofJson? (variant "Code" instruction) = none
  instruction : DemandsOneMember Instruction.ofJson?
  operands : ∀ name, Demands (fun payload => Instruction.ofJson? (variant name payload))
    (Instruction.parts name)
  operation : DemandsOneMember AluOp.ofJson?
  events : ∀ j, ¬ AllReadable Report.Event.ofJson? j → list? Report.Event.ofJson? j = none
  event : DemandsOneMember Report.Event.ofJson?
  findings : ∀ name, Demands (fun payload => Report.Event.ofJson? (variant name payload))
    (Report.Event.parts name)
  result : Demands Session.Result.ofJson? [("rows", AllReadable Session.Row.ofJson?),
    ("reachable", IsBelow UInt64.size), ("report", AllReadable Report.Event.ofJson?)]
  trailing : ∀ (members : Members) byte, members.get? "trailing_byte" = some byte → byte ≠ null →
    ¬ IsBelow UInt8.size byte → Session.Result.ofJson? (object members.names members.value) = none
  row : Demands Session.Row.ofJson? [("address", IsBelow UInt64.size), ("word", IsBelow UInt16.size),
    ("reachable", Readable bool?), ("text", Readable string?)]
  config : Demands Config.ofJson? [("load_address", IsBelow UInt16.size),
    ("entry_index", IsBelow UInt64.size)]
  error : DemandsOneMember ConfigError.ofJson?
  address : ∀ name load, ¬ IsBelow UInt16.size load → ConfigError.ofJson? (variant name load) = none

theorem refusesIllFormed : RefusesIllFormed where
  listing := Listing.demands
  line := Line.demands
  kind := LineKind.demandsOneMember
  code := fun _ => LineKind.ofJson?_code_eq_none
  instruction := Instruction.demandsOneMember
  operands := Instruction.demands
  operation := AluOp.demandsOneMember
  events := fun _ => list?_eq_none Report.Event.exact
  event := Report.Event.demandsOneMember
  findings := Report.Event.demands
  result := Session.Result.demands
  trailing := fun _ _ => Session.Result.ofJson?_trailing_eq_none
  row := Session.Row.demands
  config := Config.demands
  error := ConfigError.demandsOneMember
  address := fun _ _ => ConfigError.ofJson?_variant_eq_none

/-- All that is exchanged is read back as it was written, and read as it is spelled or not at all. -/
theorem exchange_exact :
    Exact Listing.toJson Listing.ofJson? Listing.Exchangeable Listing.Spells ∧
      Exact (fun events => array (events.map Report.Event.toJson)) (list? Report.Event.ofJson?)
        (fun events => ∀ e ∈ events, e.Exchangeable) (ListOf Report.Event.Spells) ∧
      Exact Session.Result.toJson Session.Result.ofJson? Session.Result.Exchangeable
        Session.Result.Spells ∧
      Exact Config.toJson Config.ofJson? Config.Exchangeable Config.Spells ∧
      Exact ConfigError.toJson ConfigError.ofJson? (fun _ => True) ConfigError.Spells ∧
      RefusesIllFormed :=
  ⟨Listing.exact, Report.Event.exact.list, Session.Result.exact, Config.exact, ConfigError.exact,
    refusesIllFormed⟩

/-- A line whose numbers are the largest that its fields have room for. -/
def largest : Listing where
  lines := #[{ address := UInt64.size - 1, word := 0xFFFF, kind := .code (.addByte ⟨0xFF⟩ 0xFF) }]

theorem exchange_exact_largest :
    Listing.ofJson? largest.toJson = some largest ∧
      Instruction.ofJson? (variant "WaitKey" (record [("x", nat 256)])) = none := by
  obtain ⟨hlisting, -, -, -, -, hrefuses⟩ := exchange_exact
  constructor
  · apply hlisting.read_write
    intro line hline
    rw [largest, List.mem_singleton] at hline
    subst hline
    exact (by decide : UInt64.size - 1 < UInt64.size)
  · apply hrefuses.operands "WaitKey" _ ("x", IsBelow UInt8.size) (.head _)
    rintro j hj ⟨n, hn, rfl⟩
    have hnat : (n : Int) = 256 := by simpa [Members.get?_ofList, nat] using hj.symm
    have hbyte : n < 256 := hn
    omega

end Json

end Chip8
