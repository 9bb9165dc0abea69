import Chip8.Json.Instruction
import Chip8.Proofs.Json.Spelling

/-!
# Instructions read from JSON

The table of all instructions as they are spelled: a name, and the fields behind it with their
values. The reader of instructions is exact for this table, and each instruction is written in
one of its spellings.
-/

namespace Chip8

open Json

theorem Register.ofJson?_eq_some_iff {j : Json} {r : Register} :
    Register.ofJson? j = some r ↔ j = nat r.index.toNat := by
  rw [Register.ofJson?, Option.map_eq_some_iff]
  constructor
  · rintro ⟨b, hb, rfl⟩
    exact uint8?_eq_some_iff.mp hb
  · intro h
    exact ⟨r.index, uint8?_eq_some_iff.mpr h, rfl⟩

theorem Register.ofJson?_iff_form (j : Json) (r : Register) :
    Register.ofJson? j = some r ↔ j = nat r.index.toNat ∧ True :=
  Register.ofJson?_eq_some_iff.trans (and_iff_left trivial).symm

namespace AluOp

/-- An operation is spelled by its name. -/
def Spells (j : Json) (op : AluOp) : Prop :=
  ∃ payload, Alternative op.name payload j ∧ CarriesNothing payload

theorem ofName?_eq_some_iff {name : String} {op : AluOp} : ofName? name = some op ↔ op.name = name := by
  constructor
  · intro h
    unfold ofName? at h
    split at h
    all_goals cases h
    all_goals rfl
  · rintro rfl
    cases op <;> rfl

theorem ofJson?_eq_some_iff {j : Json} {op : AluOp} : ofJson? j = some op ↔ Spells j op := by
  unfold ofJson?
  constructor
  · intro h
    split at h
    · rename_i name payload hvariant
      obtain ⟨op', hname, hbare⟩ := Option.bind_eq_some_iff.mp h
      obtain ⟨hnothing, rfl⟩ := bare?_eq_some_iff.mp hbare
      rw [ofName?_eq_some_iff] at hname
      subst hname
      exact ⟨payload, variant?_eq_some_iff.mp hvariant, hnothing⟩
    · cases h
  · rintro ⟨payload, halternative, hnothing⟩
    rw [variant?_eq_some_iff.mpr halternative]
    exact Option.bind_eq_some_iff.mpr
      ⟨op, ofName?_eq_some_iff.mpr rfl, bare?_eq_some_iff.mpr ⟨hnothing, rfl⟩⟩

theorem spells_toJson (op : AluOp) : Spells op.toJson op := ⟨none, .alone, .missing⟩

theorem demandsOneMember : DemandsOneMember ofJson? :=
  demandsOneMember_of_variant? fun j h => by rw [ofJson?, h]

end AluOp

namespace Instruction

variable {payload : Option Json} {i : Instruction}

/-- The name of an instruction, and what it carries. -/
def spelling : Instruction → String × (Option Json → Prop)
  | clearScreen => ("ClearScreen", CarriesNothing)
  | subroutineReturn => ("Return", CarriesNothing)
  | machineCall a => ("MachineCall", Carries [("address", nat a.toNat)])
  | jump a => ("Jump", Carries [("address", nat a.toNat)])
  | call a => ("Call", Carries [("address", nat a.toNat)])
  | skipEqualByte x b =>
    ("SkipEqImmediate", Carries [("x", nat x.index.toNat), ("byte", nat b.toNat)])
  | skipUnequalByte x b =>
    ("SkipNeImmediate", Carries [("x", nat x.index.toNat), ("byte", nat b.toNat)])
  | skipEqualRegister x y =>
    ("SkipEqRegister", Carries [("x", nat x.index.toNat), ("y", nat y.index.toNat)])
  | loadByte x b => ("LoadImmediate", Carries [("x", nat x.index.toNat), ("byte", nat b.toNat)])
  | addByte x b => ("AddImmediate", Carries [("x", nat x.index.toNat), ("byte", nat b.toNat)])
  | alu op x y => ("Alu", fun payload => ∃ o, op.Spells o ∧
      Carries [("op", o), ("x", nat x.index.toNat), ("y", nat y.index.toNat)] payload)
  | skipUnequalRegister x y =>
    ("SkipNeRegister", Carries [("x", nat x.index.toNat), ("y", nat y.index.toNat)])
  | loadIndex a => ("LoadIndex", Carries [("address", nat a.toNat)])
  | jumpIndexed a => ("JumpIndexed", Carries [("address", nat a.toNat)])
  | random x mask => ("Random", Carries [("x", nat x.index.toNat), ("mask", nat mask.toNat)])
  | draw x y height => ("Draw",
      Carries [("x", nat x.index.toNat), ("y", nat y.index.toNat), ("height", nat height.toNat)])
  | skipKeyDown x => ("SkipKeyDown", Carries [("x", nat x.index.toNat)])
  | skipKeyUp x => ("SkipKeyUp", Carries [("x", nat x.index.toNat)])
  | readDelay x => ("GetDelay", Carries [("x", nat x.index.toNat)])
  | waitKey x => ("WaitKey", Carries [("x", nat x.index.toNat)])
  | setDelay x => ("SetDelay", Carries [("x", nat x.index.toNat)])
  | setSound x => ("SetSound", Carries [("x", nat x.index.toNat)])
  | addIndex x => ("AddIndex", Carries [("x", nat x.index.toNat)])
  | fontGlyph x => ("FontChar", Carries [("x", nat x.index.toNat)])
  | decimalDigits x => ("Bcd", Carries [("x", nat x.index.toNat)])
  | saveRegisters x => ("Dump", Carries [("x", nat x.index.toNat)])
  | loadRegisters x => ("Load", Carries [("x", nat x.index.toNat)])
  | unassigned w => ("Unknown", Carries [("word", nat w.toNat)])

/-- An instruction is spelled by its name and what it carries. -/
def Spells (j : Json) (i : Instruction) : Prop :=
  ∃ payload, Alternative i.spelling.1 payload j ∧ i.spelling.2 payload

/-! ## What is carried -/

theorem carriedAddress?_eq_some_iff {make : UInt16 → Instruction} :
    carriedAddress? make payload = some i ↔
      ∃ a, make a = i ∧ Carries [("address", nat a.toNat)] payload :=
  (carried_one_iff uint16?_iff_form).trans (by simp only [and_true])

theorem carriedRegisterByte?_eq_some_iff {byte : String} {make : Register → UInt8 → Instruction} :
    carriedRegisterByte? byte make payload = some i ↔
      ∃ x b, make x b = i ∧ Carries [("x", nat x.index.toNat), (byte, nat b.toNat)] payload :=
  (carried_two_iff Register.ofJson?_iff_form uint8?_iff_form).trans (by simp only [and_true])

theorem carriedRegisters?_eq_some_iff {make : Register → Register → Instruction} :
    carriedRegisters? make payload = some i ↔
      ∃ x y, make x y = i ∧
        Carries [("x", nat x.index.toNat), ("y", nat y.index.toNat)] payload :=
  (carried_two_iff Register.ofJson?_iff_form Register.ofJson?_iff_form).trans
    (by simp only [and_true])

theorem carriedRegister?_eq_some_iff {make : Register → Instruction} :
    carriedRegister? make payload = some i ↔
      ∃ x, make x = i ∧ Carries [("x", nat x.index.toNat)] payload :=
  (carried_one_iff Register.ofJson?_iff_form).trans (by simp only [and_true])

theorem carriedWord?_eq_some_iff :
    carriedWord? payload = some i ↔
      ∃ w, unassigned w = i ∧ Carries [("word", nat w.toNat)] payload :=
  (carried_one_iff uint16?_iff_form).trans (by simp only [and_true])

theorem carriedAlu?_eq_some_iff :
    carriedAlu? payload = some i ↔
      ∃ op x y, alu op x y = i ∧ ∃ o, op.Spells o ∧
        Carries [("op", o), ("x", nat x.index.toNat), ("y", nat y.index.toNat)] payload := by
  constructor
  · intro h
    unfold carriedAlu? at h
    split at h
    · rename_i hcarried
      simp only [Option.bind_eq_bind, Option.bind_eq_some_iff, Option.pure_def, Option.some.injEq,
        Register.ofJson?_eq_some_iff, AluOp.ofJson?_eq_some_iff] at h
      obtain ⟨op, hop, x, rfl, y, rfl, rfl⟩ := h
      exact ⟨op, x, y, rfl, _, hop, carried?_eq_some_iff.mp hcarried⟩
    · cases h
  · rintro ⟨op, x, y, rfl, o, hop, hcarries⟩
    have hcarried : carried? ["op", "x", "y"] payload =
        some [o, nat x.index.toNat, nat y.index.toNat] := carried?_eq_some_iff.mpr hcarries
    simp [carriedAlu?, hcarried, AluOp.ofJson?_eq_some_iff.mpr hop, Register.ofJson?, uint8?_nat]

theorem carriedDraw?_eq_some_iff :
    carriedDraw? payload = some i ↔
      ∃ x y height, draw x y height = i ∧
        Carries [("x", nat x.index.toNat), ("y", nat y.index.toNat),
          ("height", nat height.toNat)] payload := by
  constructor
  · intro h
    unfold carriedDraw? at h
    split at h
    · rename_i hcarried
      simp only [Option.bind_eq_bind, Option.bind_eq_some_iff, Option.pure_def, Option.some.injEq,
        Register.ofJson?_eq_some_iff, uint8?_eq_some_iff] at h
      obtain ⟨x, rfl, y, rfl, height, rfl, rfl⟩ := h
      exact ⟨x, y, height, rfl, carried?_eq_some_iff.mp hcarried⟩
    · cases h
  · rintro ⟨x, y, height, rfl, hcarries⟩
    have hcarried : carried? ["x", "y", "height"] payload =
        some [nat x.index.toNat, nat y.index.toNat, nat height.toNat] := carried?_eq_some_iff.mpr hcarries
    simp [carriedDraw?, hcarried, Register.ofJson?, uint8?_nat]

/-! ## The table is exact -/

theorem spelling_of_ofVariant? {name : String} (h : ofVariant? name payload = some i) :
    i.spelling.1 = name ∧ i.spelling.2 payload := by
  unfold ofVariant? at h
  -- The cases are the names in the order in which the reader knows them.
  split at h
  case h_1 | h_2 =>
    obtain ⟨hnothing, rfl⟩ := bare?_eq_some_iff.mp h
    exact ⟨rfl, hnothing⟩
  case h_3 | h_4 | h_5 | h_13 | h_14 =>
    obtain ⟨a, rfl, hcarries⟩ := carriedAddress?_eq_some_iff.mp h
    exact ⟨rfl, hcarries⟩
  case h_6 | h_7 | h_9 | h_10 | h_15 =>
    obtain ⟨x, b, rfl, hcarries⟩ := carriedRegisterByte?_eq_some_iff.mp h
    exact ⟨rfl, hcarries⟩
  case h_8 | h_12 =>
    obtain ⟨x, y, rfl, hcarries⟩ := carriedRegisters?_eq_some_iff.mp h
    exact ⟨rfl, hcarries⟩
  case h_11 =>
    obtain ⟨op, x, y, rfl, hcarries⟩ := carriedAlu?_eq_some_iff.mp h
    exact ⟨rfl, hcarries⟩
  case h_16 =>
    obtain ⟨x, y, height, rfl, hcarries⟩ := carriedDraw?_eq_some_iff.mp h
    exact ⟨rfl, hcarries⟩
  case h_28 =>
    obtain ⟨w, rfl, hcarries⟩ := carriedWord?_eq_some_iff.mp h
    exact ⟨rfl, hcarries⟩
  case h_29 => cases h
  all_goals
    obtain ⟨x, rfl, hcarries⟩ := carriedRegister?_eq_some_iff.mp h
    exact ⟨rfl, hcarries⟩

theorem ofVariant?_of_spelling (h : i.spelling.2 payload) :
    ofVariant? i.spelling.1 payload = some i := by
  cases i with
  | clearScreen | subroutineReturn => exact bare?_eq_some_iff.mpr ⟨h, rfl⟩
  | machineCall a | jump a | call a | loadIndex a | jumpIndexed a =>
      exact carriedAddress?_eq_some_iff.mpr ⟨a, rfl, h⟩
  | skipEqualByte x b | skipUnequalByte x b | loadByte x b | addByte x b | random x b =>
      exact carriedRegisterByte?_eq_some_iff.mpr ⟨x, b, rfl, h⟩
  | skipEqualRegister x y | skipUnequalRegister x y =>
      exact carriedRegisters?_eq_some_iff.mpr ⟨x, y, rfl, h⟩
  | alu op x y => exact carriedAlu?_eq_some_iff.mpr ⟨op, x, y, rfl, h⟩
  | draw x y height => exact carriedDraw?_eq_some_iff.mpr ⟨x, y, height, rfl, h⟩
  | skipKeyDown x | skipKeyUp x | readDelay x | waitKey x | setDelay x | setSound x | addIndex x
  | fontGlyph x | decimalDigits x | saveRegisters x | loadRegisters x =>
      exact carriedRegister?_eq_some_iff.mpr ⟨x, rfl, h⟩
  | unassigned w => exact carriedWord?_eq_some_iff.mpr ⟨w, rfl, h⟩

theorem ofJson?_eq_some_iff {j : Json} : ofJson? j = some i ↔ Spells j i := by
  unfold ofJson?
  constructor
  · intro h
    split at h
    · rename_i name payload hvariant
      obtain ⟨rfl, hcarries⟩ := spelling_of_ofVariant? h
      exact ⟨payload, variant?_eq_some_iff.mp hvariant, hcarries⟩
    · cases h
  · rintro ⟨payload, halternative, hcarries⟩
    rw [variant?_eq_some_iff.mpr halternative]
    exact ofVariant?_of_spelling hcarries

theorem spells_toJson (i : Instruction) : Spells i.toJson i := by
  cases i with
  | clearScreen | subroutineReturn => exact ⟨none, .alone, .missing⟩
  | alu op x y => exact ⟨_, .member _, op.toJson, op.spells_toJson, carries_record (by simp)⟩
  | _ => exact ⟨_, .member _, carries_record (by simp)⟩

theorem demandsOneMember : DemandsOneMember ofJson? :=
  demandsOneMember_of_variant? fun j h => by rw [ofJson?, h]

/-- What has to stand behind the name of an instruction. A name that is not here is that of an
instruction with one register, or of none. -/
def parts : String → List (String × (Json → Prop))
  | "ClearScreen" | "Return" => []
  | "MachineCall" | "Jump" | "Call" | "LoadIndex" | "JumpIndexed" => [("address", IsBelow UInt16.size)]
  | "SkipEqImmediate" | "SkipNeImmediate" | "LoadImmediate" | "AddImmediate" =>
    [("x", IsBelow UInt8.size), ("byte", IsBelow UInt8.size)]
  | "SkipEqRegister" | "SkipNeRegister" => [("x", IsBelow UInt8.size), ("y", IsBelow UInt8.size)]
  | "Alu" => [("op", Readable AluOp.ofJson?), ("x", IsBelow UInt8.size), ("y", IsBelow UInt8.size)]
  | "Random" => [("x", IsBelow UInt8.size), ("mask", IsBelow UInt8.size)]
  | "Draw" => [("x", IsBelow UInt8.size), ("y", IsBelow UInt8.size), ("height", IsBelow UInt8.size)]
  | "Unknown" => [("word", IsBelow UInt16.size)]
  | _ => [("x", IsBelow UInt8.size)]

theorem demands (name : String) :
    Demands (fun payload => ofJson? (variant name payload)) (parts name) := by
  apply demands_of_read
  intro members i h
  obtain ⟨payload, halternative, hcarries⟩ := ofJson?_eq_some_iff.mp h
  obtain ⟨rfl, rfl⟩ := alternative_variant_iff.mp halternative
  cases i with
  | clearScreen | subroutineReturn => exact List.forall_mem_nil _
  | machineCall a | jump a | call a | loadIndex a | jumpIndexed a =>
      obtain ⟨has⟩ := hcarries
      exact found_of_forall₂ (.cons ⟨rfl, isBelow_uint16 a⟩ .nil) has
  | skipEqualByte x b | skipUnequalByte x b | loadByte x b | addByte x b | random x b =>
      obtain ⟨has⟩ := hcarries
      exact found_of_forall₂
        (.cons ⟨rfl, isBelow_uint8 x.index⟩ (.cons ⟨rfl, isBelow_uint8 b⟩ .nil)) has
  | skipEqualRegister x y | skipUnequalRegister x y =>
      obtain ⟨has⟩ := hcarries
      exact found_of_forall₂
        (.cons ⟨rfl, isBelow_uint8 x.index⟩ (.cons ⟨rfl, isBelow_uint8 y.index⟩ .nil)) has
  | alu op x y =>
      obtain ⟨o, hop, ⟨has⟩⟩ := hcarries
      exact found_of_forall₂ (.cons ⟨rfl, op, AluOp.ofJson?_eq_some_iff.mpr hop⟩
        (.cons ⟨rfl, isBelow_uint8 x.index⟩ (.cons ⟨rfl, isBelow_uint8 y.index⟩ .nil))) has
  | draw x y height =>
      obtain ⟨has⟩ := hcarries
      exact found_of_forall₂ (.cons ⟨rfl, isBelow_uint8 x.index⟩
        (.cons ⟨rfl, isBelow_uint8 y.index⟩ (.cons ⟨rfl, isBelow_uint8 height⟩ .nil))) has
  | unassigned w =>
      obtain ⟨has⟩ := hcarries
      exact found_of_forall₂ (.cons ⟨rfl, isBelow_uint16 w⟩ .nil) has
  | skipKeyDown x | skipKeyUp x | readDelay x | waitKey x | setDelay x | setSound x | addIndex x
  | fontGlyph x | decimalDigits x | saveRegisters x | loadRegisters x =>
      obtain ⟨has⟩ := hcarries
      exact found_of_forall₂ (.cons ⟨rfl, isBelow_uint8 x.index⟩ .nil) has

end Instruction

end Chip8
