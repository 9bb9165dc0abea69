/-!
# JSON values

The values in which disassemblies are exchanged, and the rules by which records
and alternatives are read from them.

An object has no two members of one name. A record is an object with a member for
each field; members it does not know are passed over. An array with exactly its
fields in their order is read as well. An alternative is an object with its name as
the only member, or the name alone if it carries nothing. Numbers are integers
within the range of their field: one that has a fraction, a sign or too many digits
is refused, never cut to fit.
-/

namespace Chip8

namespace Json

/-- The names of the members of an object, none of them twice. -/
structure Names where
  list : List String
  distinct : list.Nodup

end Json

inductive Json where
  | null
  | bool (b : Bool)
  | integer (n : Int)
  /-- A number written with a point, `digits / 10 ^ places`. -/
  | decimal (digits : Int) (places : Nat)
  | string (s : String)
  | array (items : List Json)
  /-- Each name has one value. -/
  | object (names : Json.Names) (values : (name : String) → name ∈ names.list → Json)
deriving Inhabited

namespace Json

/-! ### Objects -/

structure Members where
  names : Names
  value : (name : String) → name ∈ names.list → Json

namespace Members

def empty : Members := ⟨⟨[], .nil⟩, nofun⟩

def get? (m : Members) (name : String) : Option Json :=
  if h : name ∈ m.names.list then some (m.value name h) else none

/-- A member that is there already is given the new value. -/
def set (m : Members) (name : String) (j : Json) : Members where
  names :=
    if h : name ∈ m.names.list then m.names
    else ⟨name :: m.names.list, List.nodup_cons.mpr ⟨h, m.names.distinct⟩⟩
  value other _ := if other = name then j else (m.get? other).getD j

def ofList : List (String × Json) → Members
  | [] => empty
  | (name, j) :: rest => (ofList rest).set name j

def toList (m : Members) : List (String × Json) :=
  m.names.list.attach.map fun ⟨name, h⟩ => (name, m.value name h)

theorem get?_set (m : Members) (name other : String) (j : Json) :
    (m.set name j).get? other = if other = name then some j else m.get? other := by
  by_cases hname : other = name
  · subst hname
    by_cases h : other ∈ m.names.list <;> simp [set, get?, h]
  · by_cases h : other ∈ m.names.list <;> by_cases h' : name ∈ m.names.list <;>
      simp [set, get?, h, h', hname]

theorem get?_ofList (fields : List (String × Json)) (name : String) :
    (ofList fields).get? name = fields.lookup name := by
  induction fields with
  | nil => rfl
  | cons field rest ih =>
    obtain ⟨first, j⟩ := field
    rw [ofList, get?_set, List.lookup_cons, ih]
    by_cases h : name = first
    · simp [h]
    · simp [h, beq_eq_false_iff_ne.mpr h]

end Members

/-- An object with these members; of two with one name the first counts. -/
def record (fields : List (String × Json)) : Json :=
  object (Members.ofList fields).names (Members.ofList fields).value

/-! ### Reading -/

def nat (n : Nat) : Json := integer n

def natBelow? (bound : Nat) : Json → Option Nat
  | integer n => if 0 ≤ n ∧ n.toNat < bound then some n.toNat else none
  | _ => none

def uint8? (j : Json) : Option UInt8 := (natBelow? UInt8.size j).map UInt8.ofNat

def uint16? (j : Json) : Option UInt16 := (natBelow? UInt16.size j).map UInt16.ofNat

def nat64? (j : Json) : Option Nat := natBelow? UInt64.size j

def bool? : Json → Option Bool
  | bool b => some b
  | _ => none

def string? : Json → Option String
  | string s => some s
  | _ => none

def list? (item? : Json → Option α) : Json → Option (List α)
  | array items => items.mapM item?
  | _ => none

/-- An optional value: a missing member and `null` mean that there is none. -/
def optional? (value? : Json → Option α) : Option Json → Option (Option α)
  | none | some null => some none
  | some j => (value? j).map some

/-- The values of a record's fields, in the order of their names. -/
def fields? (names : List String) : Json → Option (List (Option Json))
  | object members values => some (names.map (Members.get? ⟨members, values⟩))
  | array items => if items.length = names.length then some (items.map some) else none
  | _ => none

/-- The name of an alternative and what it carries. -/
def variant? : Json → Option (String × Option Json)
  | string name => some (name, none)
  | object ⟨[name], _⟩ values => some (name, some (values name (List.mem_singleton.mpr rfl)))
  | _ => none

def variant (name : String) (payload : Json) : Json :=
  object ⟨[name], List.pairwise_singleton _ name⟩ fun _ _ => payload

/-- The alternative `a`, which carries nothing. -/
def bare? (a : α) : Option Json → Option α
  | none | some null => some a
  | _ => none

/-- The fields that an alternative carries. None of them may be missing. -/
def carried? (names : List String) : Option Json → Option (List Json)
  | some (object members values) => names.mapM (Members.get? ⟨members, values⟩)
  | _ => none

theorem natBelow?_nat {bound n : Nat} (h : n < bound) : natBelow? bound (nat n) = some n := by
  simp [natBelow?, nat, h]

theorem uint8?_nat (b : UInt8) : uint8? (nat b.toNat) = some b := by
  simp [uint8?, natBelow?_nat b.toNat_lt]

theorem uint16?_nat (w : UInt16) : uint16? (nat w.toNat) = some w := by
  simp [uint16?, natBelow?_nat w.toNat_lt]

end Json

end Chip8
