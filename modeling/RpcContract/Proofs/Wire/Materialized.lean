import RpcContract.Proofs.Induction
import RpcContract.Wire

/-!
# Materialized values

Materializing puts null in the place of undefined, at every depth outside tuples.  What a value is
otherwise made of stays: its kind, the number of its items, the names of its members, and whether it
is absent.
-/

namespace RpcContract

namespace Value

mutual

/-- Whether undefined occurs nowhere in the value outside tuples. -/
def isDefined : Value → Bool
  | .undefined => false
  | .list items => areDefined items
  | .record members => areMembersDefined members
  | _ => true

def areDefined : List Value → Bool
  | [] => true
  | item :: rest => isDefined item && areDefined rest

def areMembersDefined : List (Text × Value) → Bool
  | [] => true
  | (_, v) :: rest => isDefined v && areMembersDefined rest

end

theorem areDefined_iff {items : List Value} :
    areDefined items = true ↔ ∀ item ∈ items, item.isDefined = true := by
  induction items with
  | nil => simp [areDefined]
  | cons item rest ih => simp [areDefined, ih]

theorem areMembersDefined_iff {members : List (Text × Value)} :
    areMembersDefined members = true ↔ ∀ member ∈ members, member.2.isDefined = true := by
  induction members with
  | nil => simp [areMembersDefined]
  | cons member rest ih => simp [areMembersDefined, ih]

end Value

namespace Wire

theorem materializeMembers_eq_map (members : List (Text × Value)) :
    materializeMembers members = members.map fun member => (member.1, materialize member.2) := by
  induction members with
  | nil => rfl
  | cons member rest ih => simp [materializeMembers, ih]

/-! ## What goes -/

/-- No undefined is left, outside tuples. -/
theorem isDefined_materialize (v : Value) : (materialize v).isDefined = true := by
  -- Over the value; only lists and objects have parts that are materialized.
  induction v using Value.structural with
  | list items ih =>
    rw [materialize, materializeItems_eq_map, Value.isDefined, Value.areDefined_iff]
    intro item hitem
    obtain ⟨old, hold, rfl⟩ := List.mem_map.1 hitem
    exact ih old hold
  | record members ih =>
    rw [materialize, materializeMembers_eq_map, Value.isDefined, Value.areMembersDefined_iff]
    intro member hmember
    obtain ⟨old, hold, rfl⟩ := List.mem_map.1 hmember
    exact ih old hold
  | null | undefined | bool | int | float | text | tuple | host => rfl

/-- An absent value becomes null. -/
theorem materialize_of_isAbsent {v : Value} (h : v.isAbsent = true) : materialize v = .null := by
  cases v with
  | null => rfl
  | undefined => rfl
  | _ => exact Bool.noConfusion h

/-! ## What stays -/

/-- Undefined becomes null, which is absent as well. -/
@[simp] theorem isAbsent_materialize (v : Value) : (materialize v).isAbsent = v.isAbsent := by
  cases v <;> rfl

/-- A value that is not absent keeps its type tag. -/
theorem tag_materialize {v : Value} (h : ¬ v.isAbsent = true) : (materialize v).tag = v.tag := by
  cases v with
  | undefined => exact absurd rfl h
  | _ => rfl

/-- The items of a list are materialized, those of a tuple are not. -/
theorem items?_materialize (v : Value) :
    (materialize v).items? = v.items? ∨ (materialize v).items? = v.items?.map (·.map materialize) := by
  cases v with
  -- Of a tuple nothing is changed, so it is in the other case with all values that have no items.
  | list items =>
    right
    rw [materialize, materializeItems_eq_map]
    rfl
  | _ => exact .inl rfl

theorem members?_materialize (v : Value) :
    (materialize v).members? = v.members?.map materializeMembers := by
  cases v <;> rfl

/-- Every member stays, under its name. -/
theorem find?_materializeMembers (name : Text) (members : Assoc Value) :
    Assoc.find? name (materializeMembers members) = (Assoc.find? name members).map materialize := by
  induction members with
  | nil => rfl
  | cons member rest ih =>
    obtain ⟨key, v⟩ := member
    -- Names are not touched, so the same member is found.
    by_cases hkey : key = name
    · simp [materializeMembers, Assoc.find?, hkey]
    · simp [materializeMembers, Assoc.find?, hkey, ih]

end Wire

end RpcContract
