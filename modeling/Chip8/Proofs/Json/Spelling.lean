import Chip8.Json.Basic
import Mathlib.Data.List.Forall2
import Mathlib.Data.Option.Basic
import Mathlib.Tactic.SplitIfs

/-!
# What is read from JSON

What a JSON value spells is said here without a reader: which members an object must have, and
that a number is the number itself. A reader is exact if it reads a value from all its spellings
and from nothing else. The form in which a value is written is one of its spellings, so an exact
reader undoes writing; and since a spelling names every part of what it spells, nothing can have
been cut to fit.
-/

namespace Chip8.Json

variable {α β γ : Type} {j : Json} {payload : Option Json}

/-! ## Spellings -/

/-- A record is an object that has its fields, beside other members, or an array of just them. A
field without a value is one that the object does not have. -/
inductive RecordOf (fields : List (String × Option Json)) : Json → Prop where
  | object {names : Names} {values : (name : String) → name ∈ names.list → Json}
      (has : ∀ field ∈ fields, Members.get? ⟨names, values⟩ field.1 = field.2) :
      RecordOf fields (object names values)
  | array {items : List Json} (items_eq : items.map some = fields.map Prod.snd) :
      RecordOf fields (array items)

/-- An alternative is its name alone, or an object with its name as the only member. -/
inductive Alternative (name : String) : Option Json → Json → Prop where
  | alone : Alternative name none (string name)
  | member (payload : Json) : Alternative name (some payload) (variant name payload)

/-- The fields of an alternative are in an object, beside other members. -/
inductive Carries (fields : List (String × Json)) : Option Json → Prop where
  | object {names : Names} {values : (name : String) → name ∈ names.list → Json}
      (has : ∀ field ∈ fields, Members.get? ⟨names, values⟩ field.1 = some field.2) :
      Carries fields (some (object names values))

inductive CarriesNothing : Option Json → Prop where
  | missing : CarriesNothing none
  | null : CarriesNothing (some null)

/-- A list is an array with one item for each of its values. -/
inductive ListOf (Spells : Json → α → Prop) : Json → List α → Prop where
  | array {items : List Json} {as : List α} (h : List.Forall₂ Spells items as) :
      ListOf Spells (array items) as

/-- For an optional value `null` may stand as well as nothing. -/
inductive OptionOf (Spells : Json → α → Prop) : Option Json → Option α → Prop where
  | none {payload : Option Json} (h : CarriesNothing payload) : OptionOf Spells payload none
  | some {j : Json} {a : α} (h : Spells j a) : OptionOf Spells (some j) (some a)

/-! ## Numbers and texts -/

theorem natBelow?_eq_some_iff {bound n : Nat} : natBelow? bound j = some n ↔ j = nat n ∧ n < bound := by
  constructor
  · intro h
    cases j with
    | integer m =>
        rw [natBelow?] at h
        split_ifs at h with hm
        cases h
        exact ⟨by rw [nat, Int.toNat_of_nonneg hm.1], hm.2⟩
    | _ => cases h
  · rintro ⟨rfl, hn⟩
    exact natBelow?_nat hn

theorem nat64?_eq_some_iff {n : Nat} : nat64? j = some n ↔ j = nat n ∧ n < UInt64.size :=
  natBelow?_eq_some_iff

theorem uint8?_eq_some_iff {b : UInt8} : uint8? j = some b ↔ j = nat b.toNat := by
  constructor
  · intro h
    obtain ⟨n, hn, rfl⟩ := Option.map_eq_some_iff.mp h
    obtain ⟨rfl, hlt⟩ := natBelow?_eq_some_iff.mp hn
    rw [UInt8.toNat_ofNat_of_lt' hlt]
  · rintro rfl
    exact uint8?_nat b

theorem uint16?_eq_some_iff {w : UInt16} : uint16? j = some w ↔ j = nat w.toNat := by
  constructor
  · intro h
    obtain ⟨n, hn, rfl⟩ := Option.map_eq_some_iff.mp h
    obtain ⟨rfl, hlt⟩ := natBelow?_eq_some_iff.mp hn
    rw [UInt16.toNat_ofNat_of_lt' hlt]
  · rintro rfl
    exact uint16?_nat w

/-- Every byte has a form, so there is nothing to be asked of it. -/
theorem uint8?_iff_form (j : Json) (b : UInt8) : uint8? j = some b ↔ j = nat b.toNat ∧ True :=
  uint8?_eq_some_iff.trans (and_iff_left trivial).symm

theorem uint16?_iff_form (j : Json) (w : UInt16) : uint16? j = some w ↔ j = nat w.toNat ∧ True :=
  uint16?_eq_some_iff.trans (and_iff_left trivial).symm

theorem bool?_eq_some_iff {b : Bool} : bool? j = some b ↔ j = bool b := by
  cases j <;> simp [bool?]

theorem string?_eq_some_iff {s : String} : string? j = some s ↔ j = string s := by
  cases j <;> simp [string?]

/-! ## Lists -/

theorem mapM_eq_some_iff {f : α → Option β} {as : List α} {bs : List β} :
    as.mapM f = some bs ↔ List.Forall₂ (fun a b => f a = some b) as bs := by
  induction as generalizing bs with
  | nil => simp [eq_comm]
  | cons a as ih =>
      simp only [List.mapM_cons, Option.bind_eq_bind, Option.bind_eq_some_iff, Option.pure_def,
        Option.some.injEq, ih, List.forall₂_cons_left_iff]
      constructor
      · rintro ⟨b, hb, bs', hbs, rfl⟩
        exact ⟨b, bs', hb, hbs, rfl⟩
      · rintro ⟨b, bs', hb, hbs, rfl⟩
        exact ⟨b, hb, bs', hbs, rfl⟩

theorem list?_eq_some_iff {item? : Json → Option α} {Spells : Json → α → Prop}
    (hread : ∀ j a, item? j = some a ↔ Spells j a) {as : List α} :
    list? item? j = some as ↔ ListOf Spells j as := by
  have hitems (items : List Json) : items.mapM item? = some as ↔ List.Forall₂ Spells items as := by
    simp only [mapM_eq_some_iff, hread]
  constructor
  · intro h
    cases j with
    | array items => exact .array ((hitems items).mp h)
    | _ => cases h
  · rintro ⟨h⟩
    exact (hitems _).mpr h

theorem listOf_map {write : α → Json} {Spells : Json → α → Prop} {as : List α}
    (h : ∀ a ∈ as, Spells (write a) a) : ListOf Spells (array (as.map write)) as :=
  .array (List.forall₂_map_left_iff.mpr (List.forall₂_same.mpr h))

theorem ListOf.forall_of_spells {Spells : Json → α → Prop} {Fits : α → Prop} {as : List α}
    (h : ListOf Spells j as) (hfits : ∀ j a, Spells j a → Fits a) : ∀ a ∈ as, Fits a := by
  obtain ⟨h⟩ := h
  induction h with
  | nil => exact fun _ ha => absurd ha List.not_mem_nil
  | cons hspells _ ih => exact List.forall_mem_cons.mpr ⟨hfits _ _ hspells, ih⟩

theorem optional?_eq_some_iff {value? : Json → Option α} {Spells : Json → α → Prop}
    (hread : ∀ j a, value? j = some a ↔ Spells j a) (hnull : ∀ a, ¬ Spells null a) {a : Option α} :
    optional? value? payload = some a ↔ OptionOf Spells payload a := by
  constructor
  · intro h
    unfold optional? at h
    split at h
    · cases h
      exact .none .missing
    · cases h
      exact .none .null
    · obtain ⟨b, hb, rfl⟩ := Option.map_eq_some_iff.mp h
      exact .some ((hread _ b).mp hb)
  · intro h
    cases h with
    | none hnothing => cases hnothing <;> rfl
    | @some j b hspells =>
        have hvalue : optional? value? (some j) = (value? j).map some := by
          cases j with
          | null => exact absurd hspells (hnull b)
          | _ => rfl
        rw [hvalue, (hread j b).mpr hspells, Option.map_some]

/-! ## Records and alternatives -/

/-- Fields with distinct names are found in the object that is made of them. -/
theorem get?_ofList_of_mem {fields : List (String × Json)} (h : (fields.map Prod.fst).Nodup) :
    ∀ field ∈ fields, (Members.ofList fields).get? field.1 = some field.2 := by
  intro field hfield
  rw [Members.get?_ofList]
  induction fields with
  | nil => exact absurd hfield List.not_mem_nil
  | cons first rest ih =>
      rw [List.map_cons, List.nodup_cons] at h
      rw [List.lookup_cons]
      rcases List.mem_cons.mp hfield with rfl | hrest
      · simp
      · have hne : field.1 ≠ first.1 := fun heq => h.1 (heq ▸ List.mem_map_of_mem hrest)
        rw [beq_eq_false_iff_ne.mpr hne]
        exact ih h.2 hrest

theorem recordOf_record {members : List (String × Json)} {fields : List (String × Option Json)}
    (h : (members.map Prod.fst).Nodup)
    (hfields : fields = members.map fun field => (field.1, some field.2)) :
    RecordOf fields (record members) := by
  subst hfields
  exact .object (List.forall_mem_map.mpr (get?_ofList_of_mem h))

theorem carries_record {fields : List (String × Json)} (h : (fields.map Prod.fst).Nodup) :
    Carries fields (some (record fields)) :=
  .object (get?_ofList_of_mem h)

theorem RecordOf.found {fields : List (String × Option Json)} {members : Members}
    (h : RecordOf fields (Json.object members.names members.value)) :
    ∀ field ∈ fields, members.get? field.1 = field.2 := by
  obtain ⟨has⟩ := h
  exact has

theorem fields?_eq_some_iff {fields : List (String × Option Json)} :
    fields? (fields.map Prod.fst) j = some (fields.map Prod.snd) ↔ RecordOf fields j := by
  constructor
  · intro h
    cases j with
    | object names values =>
        rw [fields?, List.map_map, Option.some.injEq, List.map_inj_left] at h
        exact .object h
    | array items =>
        rw [fields?] at h
        split_ifs at h
        exact .array (Option.some.inj h)
    | _ => cases h
  · intro h
    cases h with
    | object has =>
        rw [fields?, List.map_map]
        exact congrArg some (List.map_congr_left has)
    | @array items items_eq =>
        have hlength : items.length = (fields.map Prod.fst).length := by
          simpa using congrArg List.length items_eq
        rw [fields?, if_pos hlength, items_eq]

/-- An object with one name is an alternative of that name. -/
theorem object_eq_variant {name : String} (h : [name].Nodup)
    (values : (other : String) → other ∈ [name] → Json) :
    object ⟨[name], h⟩ values = variant name (values name (List.mem_singleton.mpr rfl)) := by
  rw [variant]
  congr 1
  funext other hother
  cases List.mem_singleton.mp hother
  rfl

theorem variant?_eq_some_iff {name : String} :
    variant? j = some (name, payload) ↔ Alternative name payload j := by
  constructor
  · intro h
    unfold variant? at h
    split at h
    · cases h
      exact .alone
    · cases h
      rw [object_eq_variant]
      exact .member _
    · cases h
  · rintro (_ | payload)
    · rfl
    · rfl

theorem alternative_variant_iff {name name' : String} {carried : Json} :
    Alternative name payload (variant name' carried) ↔ name = name' ∧ payload = some carried := by
  constructor
  · intro h
    have hread : some (name', some carried) = some (name, payload) := variant?_eq_some_iff.mpr h
    cases hread
    exact ⟨rfl, rfl⟩
  · rintro ⟨rfl, rfl⟩
    exact .member carried

theorem bare?_eq_some_iff {a b : α} : bare? a payload = some b ↔ CarriesNothing payload ∧ a = b := by
  constructor
  · intro h
    unfold bare? at h
    split at h
    · exact ⟨.missing, Option.some.inj h⟩
    · exact ⟨.null, Option.some.inj h⟩
    · cases h
  · rintro ⟨hnothing, rfl⟩
    cases hnothing <;> rfl

theorem carried?_eq_some_iff {fields : List (String × Json)} :
    carried? (fields.map Prod.fst) payload = some (fields.map Prod.snd) ↔
      Carries fields payload := by
  have hfound (members : Members) :
      (fields.map Prod.fst).mapM members.get? = some (fields.map Prod.snd) ↔
        ∀ field ∈ fields, members.get? field.1 = some field.2 := by
    rw [mapM_eq_some_iff, List.forall₂_map_left_iff, List.forall₂_map_right_iff, List.forall₂_same]
  constructor
  · intro h
    unfold carried? at h
    split at h
    · exact .object ((hfound _).mp h)
    · cases h
  · rintro ⟨has⟩
    exact (hfound _).mpr has

/-- An alternative of one field: the reader of the field decides. -/
theorem carried_one_iff {name : String} {read? : Json → Option α} {form : α → Json}
    {Fits : α → Prop} {make : α → γ} {c : γ} (hread : ∀ j a, read? j = some a ↔ j = form a ∧ Fits a) :
    (match carried? [name] payload with
      | some [j] => (read? j).map make
      | _ => none) = some c ↔
    ∃ a, make a = c ∧ Carries [(name, form a)] payload ∧ Fits a := by
  constructor
  · intro h
    split at h
    · rename_i hcarried
      obtain ⟨a, ha, rfl⟩ := Option.map_eq_some_iff.mp h
      obtain ⟨rfl, hfits⟩ := (hread _ a).mp ha
      exact ⟨a, rfl, carried?_eq_some_iff.mp hcarried, hfits⟩
    · cases h
  · rintro ⟨a, rfl, hcarries, hfits⟩
    have hcarried : carried? [name] payload = some [form a] := carried?_eq_some_iff.mpr hcarries
    simp [hcarried, (hread _ a).mpr ⟨rfl, hfits⟩]

/-- An alternative of two fields. -/
theorem carried_two_iff {name name' : String} {read? : Json → Option α} {read'? : Json → Option β}
    {form : α → Json} {form' : β → Json} {Fits : α → Prop} {Fits' : β → Prop} {make : α → β → γ}
    {c : γ} (hread : ∀ j a, read? j = some a ↔ j = form a ∧ Fits a)
    (hread' : ∀ j b, read'? j = some b ↔ j = form' b ∧ Fits' b) :
    (match carried? [name, name'] payload with
      | some [j, k] => do return make (← read? j) (← read'? k)
      | _ => none) = some c ↔
    ∃ a b, make a b = c ∧ Carries [(name, form a), (name', form' b)] payload ∧ Fits a ∧ Fits' b := by
  constructor
  · intro h
    split at h
    · rename_i hcarried
      simp only [Option.bind_eq_bind, Option.bind_eq_some_iff, Option.pure_def, Option.some.injEq,
        hread, hread'] at h
      obtain ⟨a, ⟨rfl, ha⟩, b, ⟨rfl, hb⟩, rfl⟩ := h
      exact ⟨a, b, rfl, carried?_eq_some_iff.mp hcarried, ha, hb⟩
    · cases h
  · rintro ⟨a, b, rfl, hcarries, ha, hb⟩
    have hcarried : carried? [name, name'] payload = some [form a, form' b] :=
      carried?_eq_some_iff.mpr hcarries
    simp [hcarried, (hread _ a).mpr ⟨rfl, ha⟩, (hread' _ b).mpr ⟨rfl, hb⟩]

/-! ## What is refused -/

/-- A number that the field has room for. -/
def IsBelow (bound : Nat) (j : Json) : Prop := ∃ n < bound, j = nat n

def Readable (read? : Json → Option α) (j : Json) : Prop := ∃ v, read? j = some v

/-- An array all of whose items can be read. -/
def AllReadable (item? : Json → Option α) (j : Json) : Prop :=
  ∃ items, j = array items ∧ ∀ item ∈ items, Readable item? item

/-- An object is refused if it lacks one of the parts, or has it other than is demanded. -/
def Demands (read? : Json → Option α) (parts : List (String × (Json → Prop))) : Prop :=
  ∀ members : Members, ∀ part ∈ parts, (∀ j, members.get? part.1 = some j → ¬ part.2 j) →
    read? (object members.names members.value) = none

/-- An object is refused if it has more than one member, or none. -/
def DemandsOneMember (read? : Json → Option α) : Prop :=
  ∀ members : Members, members.names.list.length ≠ 1 →
    read? (object members.names members.value) = none

variable {read? item? : Json → Option α}

theorem isBelow_uint8 (b : UInt8) : IsBelow UInt8.size (nat b.toNat) := ⟨b.toNat, b.toNat_lt, rfl⟩

theorem isBelow_uint16 (w : UInt16) : IsBelow UInt16.size (nat w.toNat) := ⟨w.toNat, w.toNat_lt, rfl⟩

theorem demands_of_read {parts : List (String × (Json → Prop))}
    (h : ∀ (members : Members) v, read? (object members.names members.value) = some v →
      ∀ part ∈ parts, ∃ j, members.get? part.1 = some j ∧ part.2 j) : Demands read? parts := by
  intro members part hpart hunfit
  rw [Option.eq_none_iff_forall_ne_some]
  intro v hread
  obtain ⟨j, hfound, hfit⟩ := h members v hread part hpart
  exact hunfit j hfound hfit

/-- The parts of an object are those of its fields, each with the value that its field has. -/
theorem found_of_forall₂ {members : Members} {parts : List (String × (Json → Prop))}
    {fields : List (String × Json)}
    (hparts : List.Forall₂ (fun part field => part.1 = field.1 ∧ part.2 field.2) parts fields)
    (has : ∀ field ∈ fields, members.get? field.1 = some field.2) :
    ∀ part ∈ parts, ∃ j, members.get? part.1 = some j ∧ part.2 j := by
  induction hparts with
  | nil => exact fun _ hpart => absurd hpart List.not_mem_nil
  | @cons part field _ _ hfirst _ ih =>
      rw [List.forall_mem_cons] at has ⊢
      refine ⟨⟨field.2, ?_, hfirst.2⟩, ih has.2⟩
      rw [hfirst.1]
      exact has.1

theorem demandsOneMember_of_variant? (h : ∀ j, variant? j = none → read? j = none) :
    DemandsOneMember read? := by
  intro members hlength
  obtain ⟨⟨names, distinct⟩, values⟩ := members
  apply h
  unfold variant?
  split
  · rename_i heq
    cases heq
  · rename_i heq
    cases heq
    exact absurd rfl hlength
  · rfl

theorem ListOf.allReadable {Spells : Json → α → Prop} {as : List α} (h : ListOf Spells j as)
    (hread : ∀ j a, item? j = some a ↔ Spells j a) : AllReadable item? j := by
  obtain ⟨h⟩ := h
  refine ⟨_, rfl, ?_⟩
  induction h with
  | nil => exact fun _ hitem => absurd hitem List.not_mem_nil
  | cons hspells _ ih => exact List.forall_mem_cons.mpr ⟨⟨_, (hread _ _).mpr hspells⟩, ih⟩

/-! ## Exact readers -/

/-- A reader undoes writing, reads just what spells a value, and reads nothing that could not be
written. -/
structure Exact (write : α → Json) (read? : Json → Option α) (Fits : α → Prop)
    (Spells : Json → α → Prop) : Prop where
  read_write : ∀ v, Fits v → read? (write v) = some v
  write_inj : ∀ v w, Fits v → Fits w → write v = write w → v = w
  read_iff : ∀ j v, read? j = some v ↔ Spells j v
  fits : ∀ j v, read? j = some v → Fits v
  read_again : ∀ j v, read? j = some v → read? (write v) = some v

/-- What makes a reader exact: it reads the spellings, and every value that fits is written in one. -/
theorem Exact.of_spelling {write : α → Json} {Fits : α → Prop} {Spells : Json → α → Prop}
    (hread : ∀ j v, read? j = some v ↔ Spells j v) (hwrite : ∀ v, Fits v → Spells (write v) v)
    (hfits : ∀ j v, Spells j v → Fits v) : Exact write read? Fits Spells := by
  have hread_write (v : α) (hv : Fits v) : read? (write v) = some v :=
    (hread _ v).mpr (hwrite v hv)
  have hread_fits (j : Json) (v : α) (h : read? j = some v) : Fits v := hfits j v ((hread j v).mp h)
  refine ⟨hread_write, ?_, hread, hread_fits, fun j v h => hread_write v (hread_fits j v h)⟩
  intro v w hv hw heq
  apply Option.some.inj
  rw [← hread_write v hv, heq, hread_write w hw]

theorem Exact.list {write : α → Json} {Fits : α → Prop} {Spells : Json → α → Prop}
    (h : Exact write read? Fits Spells) :
    Exact (fun as => array (as.map write)) (list? read?) (fun as => ∀ a ∈ as, Fits a)
      (ListOf Spells) :=
  .of_spelling (fun _ _ => list?_eq_some_iff h.read_iff)
    (fun _ has => listOf_map fun a ha => (h.read_iff _ a).mp (h.read_write a (has a ha)))
    (fun _ _ hspells => hspells.forall_of_spells fun j a hj => h.fits j a ((h.read_iff j a).mpr hj))

theorem list?_eq_none {write : α → Json} {Fits : α → Prop} {Spells : Json → α → Prop}
    (h : Exact write read? Fits Spells) (hitems : ¬ AllReadable read? j) : list? read? j = none := by
  rw [Option.eq_none_iff_forall_ne_some]
  intro as hread
  exact hitems (((h.list.read_iff j as).mp hread).allReadable h.read_iff)

end Chip8.Json
