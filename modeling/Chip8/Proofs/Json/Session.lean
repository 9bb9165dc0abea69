import Chip8.Json.Session
import Chip8.Proofs.Json.Listing

/-!
# Session results read from JSON

An event is spelled by its name and its fields. Of the fields of a result only the byte without a
partner may be missing.
-/

namespace Chip8

open Json

namespace Report.Event

variable {payload : Option Json} {e : Event}

/-- The counts, indices and addresses have room in numbers of 64 bits. -/
def Exchangeable : Event → Prop
  | analysisStarted words => words < UInt64.size
  | analysisFinished reachable total => reachable < UInt64.size ∧ total < UInt64.size
  | classified index address _ _ => index < UInt64.size ∧ address < UInt64.size
  | trailingByte _ => True

/-- The name of an event, and its fields. -/
def spelling : Event → String × List (String × Json)
  | analysisStarted words => ("AnalysisStarted", [("words", nat words)])
  | analysisFinished reachable total =>
    ("AnalysisFinished", [("reachable", nat reachable), ("total", nat total)])
  | classified index address word reachable =>
    ("Classified", [("index", nat index), ("address", nat address), ("word", nat word.toNat),
      ("reachable", bool reachable)])
  | trailingByte byte => ("TrailingByte", [("byte", nat byte.toNat)])

def Spells (j : Json) (e : Event) : Prop :=
  ∃ payload, Alternative e.spelling.1 payload j ∧ Carries e.spelling.2 payload ∧ e.Exchangeable

theorem carriedStart?_eq_some_iff :
    carriedStart? payload = some e ↔
      ∃ words, analysisStarted words = e ∧ Carries [("words", nat words)] payload ∧
        words < UInt64.size :=
  carried_one_iff fun _ _ => nat64?_eq_some_iff

theorem carriedFinish?_eq_some_iff :
    carriedFinish? payload = some e ↔
      ∃ reachable total, analysisFinished reachable total = e ∧
        Carries [("reachable", nat reachable), ("total", nat total)] payload ∧
        reachable < UInt64.size ∧ total < UInt64.size :=
  carried_two_iff (fun _ _ => nat64?_eq_some_iff) (fun _ _ => nat64?_eq_some_iff)

theorem carriedByte?_eq_some_iff :
    carriedByte? payload = some e ↔
      ∃ byte, trailingByte byte = e ∧ Carries [("byte", nat byte.toNat)] payload :=
  (carried_one_iff uint8?_iff_form).trans (by simp only [and_true])

theorem carriedClass?_eq_some_iff :
    carriedClass? payload = some e ↔
      ∃ index address word reachable, classified index address word reachable = e ∧
        Carries [("index", nat index), ("address", nat address), ("word", nat word.toNat),
          ("reachable", bool reachable)] payload ∧
        index < UInt64.size ∧ address < UInt64.size := by
  constructor
  · intro h
    unfold carriedClass? at h
    split at h
    · rename_i hcarried
      simp only [Option.bind_eq_bind, Option.bind_eq_some_iff, Option.pure_def, Option.some.injEq,
        nat64?_eq_some_iff, uint16?_eq_some_iff, bool?_eq_some_iff] at h
      obtain ⟨index, ⟨rfl, hindex⟩, address, ⟨rfl, haddress⟩, word, rfl, reachable, rfl, rfl⟩ := h
      exact ⟨index, address, word, reachable, rfl, carried?_eq_some_iff.mp hcarried, hindex,
        haddress⟩
    · cases h
  · rintro ⟨index, address, word, reachable, rfl, hcarries, hindex, haddress⟩
    have hcarried : carried? ["index", "address", "word", "reachable"] payload =
        some [nat index, nat address, nat word.toNat, bool reachable] :=
      carried?_eq_some_iff.mpr hcarries
    simp [carriedClass?, hcarried, nat64?_eq_some_iff.mpr ⟨rfl, hindex⟩,
      nat64?_eq_some_iff.mpr ⟨rfl, haddress⟩, uint16?_nat, bool?]

theorem ofJson?_eq_some_iff {j : Json} : ofJson? j = some e ↔ Spells j e := by
  unfold ofJson?
  constructor
  · intro h
    split at h
    · rename_i payload hvariant
      obtain ⟨words, rfl, hcarries, hfits⟩ := carriedStart?_eq_some_iff.mp h
      exact ⟨payload, variant?_eq_some_iff.mp hvariant, hcarries, hfits⟩
    · rename_i payload hvariant
      obtain ⟨reachable, total, rfl, hcarries, hfits⟩ := carriedFinish?_eq_some_iff.mp h
      exact ⟨payload, variant?_eq_some_iff.mp hvariant, hcarries, hfits⟩
    · rename_i payload hvariant
      obtain ⟨index, address, word, reachable, rfl, hcarries, hfits⟩ :=
        carriedClass?_eq_some_iff.mp h
      exact ⟨payload, variant?_eq_some_iff.mp hvariant, hcarries, hfits⟩
    · rename_i payload hvariant
      obtain ⟨byte, rfl, hcarries⟩ := carriedByte?_eq_some_iff.mp h
      exact ⟨payload, variant?_eq_some_iff.mp hvariant, hcarries, trivial⟩
    · cases h
  · rintro ⟨payload, halternative, hcarries, hfits⟩
    rw [variant?_eq_some_iff.mpr halternative]
    cases e with
    | analysisStarted words => exact carriedStart?_eq_some_iff.mpr ⟨words, rfl, hcarries, hfits⟩
    | analysisFinished reachable total =>
        exact carriedFinish?_eq_some_iff.mpr ⟨reachable, total, rfl, hcarries, hfits⟩
    | classified index address word reachable =>
        exact carriedClass?_eq_some_iff.mpr
          ⟨index, address, word, reachable, rfl, hcarries, hfits⟩
    | trailingByte byte => exact carriedByte?_eq_some_iff.mpr ⟨byte, rfl, hcarries⟩

theorem spells_toJson (h : e.Exchangeable) : Spells e.toJson e := by
  cases e <;> exact ⟨_, .member _, carries_record (by simp [spelling]), h⟩

theorem exact : Exact toJson ofJson? Exchangeable Spells :=
  .of_spelling (fun _ _ => ofJson?_eq_some_iff) (fun _ => spells_toJson)
    (fun _ _ ⟨_, _, _, hfits⟩ => hfits)

/-- What has to stand behind the name of an event. -/
def parts : String → List (String × (Json → Prop))
  | "AnalysisStarted" => [("words", IsBelow UInt64.size)]
  | "AnalysisFinished" => [("reachable", IsBelow UInt64.size), ("total", IsBelow UInt64.size)]
  | "Classified" => [("index", IsBelow UInt64.size), ("address", IsBelow UInt64.size),
      ("word", IsBelow UInt16.size), ("reachable", Readable bool?)]
  | "TrailingByte" => [("byte", IsBelow UInt8.size)]
  | _ => []

theorem demands (name : String) :
    Demands (fun payload => ofJson? (variant name payload)) (parts name) := by
  apply demands_of_read
  intro members e h
  obtain ⟨payload, halternative, hcarries, hfits⟩ := ofJson?_eq_some_iff.mp h
  obtain ⟨rfl, rfl⟩ := alternative_variant_iff.mp halternative
  obtain ⟨has⟩ := hcarries
  refine found_of_forall₂ ?_ has
  cases e with
  | analysisStarted words => exact .cons ⟨rfl, words, hfits, rfl⟩ .nil
  | analysisFinished reachable total =>
      exact .cons ⟨rfl, reachable, hfits.1, rfl⟩ (.cons ⟨rfl, total, hfits.2, rfl⟩ .nil)
  | classified index address word reachable =>
      exact .cons ⟨rfl, index, hfits.1, rfl⟩ (.cons ⟨rfl, address, hfits.2, rfl⟩
        (.cons ⟨rfl, isBelow_uint16 word⟩ (.cons ⟨rfl, reachable, rfl⟩ .nil)))
  | trailingByte byte => exact .cons ⟨rfl, isBelow_uint8 byte⟩ .nil

theorem demandsOneMember : DemandsOneMember ofJson? :=
  demandsOneMember_of_variant? fun j h => by rw [ofJson?, h]

end Report.Event

namespace Session

namespace Row

def Exchangeable (r : Row) : Prop := r.address < UInt64.size

def Spells (j : Json) (r : Row) : Prop :=
  RecordOf [("address", some (nat r.address)), ("word", some (nat r.word.toNat)),
    ("reachable", some (bool r.reachable)), ("text", some (string r.text))] j ∧ r.Exchangeable

theorem ofJson?_eq_some_iff {j : Json} {r : Row} : ofJson? j = some r ↔ Spells j r := by
  constructor
  · intro h
    unfold ofJson? at h
    split at h
    · rename_i hfields
      simp only [Option.bind_eq_bind, Option.bind_eq_some_iff, Option.pure_def, Option.some.injEq,
        nat64?_eq_some_iff, uint16?_eq_some_iff, bool?_eq_some_iff, string?_eq_some_iff] at h
      obtain ⟨address, ⟨rfl, hfits⟩, word, rfl, reachable, rfl, text, rfl, rfl⟩ := h
      exact ⟨fields?_eq_some_iff.mp hfields, hfits⟩
    · cases h
  · rintro ⟨hrecord, hfits⟩
    have hfields : fields? ["address", "word", "reachable", "text"] j =
        some [some (nat r.address), some (nat r.word.toNat), some (bool r.reachable),
          some (string r.text)] := fields?_eq_some_iff.mpr hrecord
    simp [ofJson?, hfields, nat64?_eq_some_iff.mpr ⟨rfl, hfits⟩, uint16?_nat, bool?, string?]

theorem spells_toJson {r : Row} (h : r.Exchangeable) : Spells r.toJson r :=
  ⟨recordOf_record (by simp) rfl, h⟩

theorem exact : Exact toJson ofJson? Exchangeable Spells :=
  .of_spelling (fun _ _ => ofJson?_eq_some_iff) (fun _ => spells_toJson) (fun _ _ h => h.2)

theorem demands : Demands ofJson? [("address", IsBelow UInt64.size), ("word", IsBelow UInt16.size),
    ("reachable", Readable bool?), ("text", Readable string?)] := by
  apply demands_of_read
  intro members r h
  obtain ⟨hrecord, hfits⟩ := ofJson?_eq_some_iff.mp h
  have hfound := hrecord.found
  simp only [List.forall_mem_cons] at hfound ⊢
  obtain ⟨haddress, hword, hreachable, htext, -⟩ := hfound
  exact ⟨⟨_, haddress, _, hfits, rfl⟩, ⟨_, hword, isBelow_uint16 r.word⟩,
    ⟨_, hreachable, _, rfl⟩, ⟨_, htext, _, rfl⟩, List.forall_mem_nil _⟩

end Row

namespace Result

def Exchangeable (r : Result) : Prop :=
  (∀ row ∈ r.rows, row.Exchangeable) ∧ r.reachable < UInt64.size ∧ ∀ e ∈ r.report, e.Exchangeable

def Spells (j : Json) (r : Result) : Prop :=
  ∃ rows trailing report, RecordOf [("rows", some rows), ("reachable", some (nat r.reachable)),
      ("trailing_byte", trailing), ("report", some report)] j ∧
    ListOf Row.Spells rows r.rows ∧
    OptionOf (fun byte b => byte = nat b.toNat) trailing r.trailing ∧
    ListOf Report.Event.Spells report r.report ∧ r.reachable < UInt64.size

theorem optional_uint8?_eq_some_iff {trailing : Option Json} {b : Option UInt8} :
    optional? uint8? trailing = some b ↔
      OptionOf (fun byte b => byte = nat b.toNat) trailing b :=
  optional?_eq_some_iff (fun _ _ => uint8?_eq_some_iff) (by simp [nat])

theorem ofJson?_eq_some_iff {j : Json} {r : Result} : ofJson? j = some r ↔ Spells j r := by
  constructor
  · intro h
    unfold ofJson? at h
    split at h
    · rename_i hfields
      simp only [Option.bind_eq_bind, Option.bind_eq_some_iff, Option.pure_def, Option.some.injEq,
        nat64?_eq_some_iff, Row.exact.list.read_iff, Report.Event.exact.list.read_iff,
        optional_uint8?_eq_some_iff] at h
      obtain ⟨rows, hrows, reachable, ⟨rfl, hfits⟩, trailing, htrailing, report, hreport, rfl⟩ := h
      exact ⟨_, _, _, fields?_eq_some_iff.mp hfields, hrows, htrailing, hreport, hfits⟩
    · cases h
  · rintro ⟨rows, trailing, report, hrecord, hrows, htrailing, hreport, hfits⟩
    have hfields : fields? ["rows", "reachable", "trailing_byte", "report"] j =
        some [some rows, some (nat r.reachable), trailing, some report] :=
      fields?_eq_some_iff.mpr hrecord
    simp [ofJson?, hfields, (Row.exact.list.read_iff _ _).mpr hrows,
      nat64?_eq_some_iff.mpr ⟨rfl, hfits⟩, optional_uint8?_eq_some_iff.mpr htrailing,
      (Report.Event.exact.list.read_iff _ _).mpr hreport]

theorem optionOf_trailingJson (b : Option UInt8) :
    OptionOf (fun byte b => byte = nat b.toNat) (some (trailingJson b)) b := by
  cases b with
  | none => exact .none .null
  | some b => exact .some rfl

theorem spells_toJson {r : Result} (h : r.Exchangeable) : Spells r.toJson r :=
  ⟨_, _, _, recordOf_record (by simp) rfl, listOf_map fun _ hrow => Row.spells_toJson (h.1 _ hrow),
    optionOf_trailingJson r.trailing,
    listOf_map fun _ he => Report.Event.spells_toJson (h.2.2 _ he), h.2.1⟩

theorem Spells.fits {j : Json} {r : Result} (h : Spells j r) : r.Exchangeable := by
  obtain ⟨_, _, _, _, hrows, _, hreport, hfits⟩ := h
  exact ⟨hrows.forall_of_spells fun _ _ hrow => hrow.2, hfits,
    hreport.forall_of_spells fun _ _ ⟨_, _, _, he⟩ => he⟩

theorem exact : Exact toJson ofJson? Exchangeable Spells :=
  .of_spelling (fun _ _ => ofJson?_eq_some_iff) (fun _ => spells_toJson) (fun _ _ => Spells.fits)

theorem demands : Demands ofJson? [("rows", AllReadable Row.ofJson?), ("reachable", IsBelow UInt64.size),
    ("report", AllReadable Report.Event.ofJson?)] := by
  apply demands_of_read
  intro members r h
  obtain ⟨rows, trailing, report, hrecord, hrows, -, hreport, hfits⟩ := ofJson?_eq_some_iff.mp h
  have hfound := hrecord.found
  simp only [List.forall_mem_cons] at hfound ⊢
  obtain ⟨hrows_found, hreachable, -, hreport_found, -⟩ := hfound
  exact ⟨⟨_, hrows_found, hrows.allReadable Row.exact.read_iff⟩, ⟨_, hreachable, _, hfits, rfl⟩,
    ⟨_, hreport_found, hreport.allReadable Report.Event.exact.read_iff⟩, List.forall_mem_nil _⟩

/-- The byte without a partner may be missing, but what stands for it has to be a byte. -/
theorem ofJson?_trailing_eq_none {members : Members} {byte : Json}
    (hfound : members.get? "trailing_byte" = some byte) (hnull : byte ≠ null)
    (hbyte : ¬ IsBelow UInt8.size byte) : ofJson? (object members.names members.value) = none := by
  rw [Option.eq_none_iff_forall_ne_some]
  intro r h
  obtain ⟨rows, trailing, report, hrecord, -, htrailing, -, -⟩ := ofJson?_eq_some_iff.mp h
  have hread : trailing = some byte :=
    (hrecord.found ("trailing_byte", trailing) (by simp)).symm.trans hfound
  subst hread
  generalize r.trailing = b at htrailing
  cases htrailing with
  | none hnothing =>
      cases hnothing
      exact hnull rfl
  | @some _ b hspells => exact hbyte (hspells ▸ isBelow_uint8 b)

end Result

end Session

end Chip8
