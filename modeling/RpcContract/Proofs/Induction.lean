import RpcContract.Schema.Basic

/-!
# Induction over values and schemas

Values stand in lists and objects of values, and schemas in the fields of schemas.  The principles
here give the hypothesis for everything that stands directly in a value or a schema, so that a proof
about the whole never has to speak of the lists in between.
-/

namespace RpcContract

/-- Induction over values whose lists, tuples and objects come with the hypothesis for everything
that stands directly in them. -/
@[elab_as_elim]
theorem Value.structural {P : Value → Prop} (null : P .null) (undefined : P .undefined)
    (bool : ∀ b, P (.bool b)) (int : ∀ n, P (.int n)) (float : ∀ x, P (.float x))
    (text : ∀ t, P (.text t))
    (list : ∀ items, (∀ item ∈ items, P item) → P (.list items))
    (tuple : ∀ items, (∀ item ∈ items, P item) → P (.tuple items))
    (record : ∀ members, (∀ member ∈ members, P member.2) → P (.record members))
    (host : ∀ object, P (.host object)) (v : Value) : P v := by
  -- The motives for lists say that every item, and the value of every member, has the property.
  refine @Value.rec P (fun items => ∀ item ∈ items, P item)
    (fun members => ∀ member ∈ members, P member.2) (fun member => P member.2)
    null undefined bool int float text list tuple record host ?_ ?_ ?_ ?_ ?_ v
  · intro item h
    exact absurd h List.not_mem_nil
  · intro head tail hhead htail item h
    rcases List.mem_cons.1 h with rfl | h
    · exact hhead
    · exact htail item h
  · intro member h
    exact absurd h List.not_mem_nil
  · intro head tail hhead htail member h
    rcases List.mem_cons.1 h with rfl | h
    · exact hhead
    · exact htail member h
  · intro _ _ h
    exact h

/-- Induction over schemas whose objects come with the hypothesis for the schemas of their
fields. -/
@[elab_as_elim]
theorem Schema.structural {P : Schema → Prop} (text : ∀ t, P (.text t))
    (object : ∀ form fields, (∀ field ∈ fields, P field.schema) → P (.object form fields))
    (raw : ∀ v, P (.raw v)) (schema : Schema) : P schema := by
  -- Here a field stands for its schema, and a list of fields for all of them.
  refine @Schema.rec P (fun fields => ∀ field ∈ fields, P field.schema)
    (fun field => P field.schema) text object raw ?_ ?_ ?_ schema
  · intro field h
    exact absurd h List.not_mem_nil
  · intro head tail hhead htail field h
    rcases List.mem_cons.1 h with rfl | h
    · exact hhead
    · exact htail field h
  · intro _ _ _ h
    exact h

/-- A value stands directly in another one. -/
def Value.IsPart (u v : Value) : Prop :=
  (∃ items, v.items? = some items ∧ u ∈ items) ∨
    ∃ members name, v.members? = some members ∧ Assoc.find? name members = some u

theorem Assoc.entry_mem_of_find? {α : Type} {name : Text} {table : Assoc α} {a : α}
    (h : find? name table = some a) : (name, a) ∈ table := by
  induction table with
  | nil => cases h
  | cons entry rest ih =>
    obtain ⟨key, old⟩ := entry
    rw [find?] at h
    split at h
    · rename_i hkey
      cases h
      exact hkey ▸ List.mem_cons_self
    · exact List.mem_cons_of_mem _ (ih h)

theorem Assoc.mem_of_find? {α : Type} {name : Text} {table : Assoc α} {a : α}
    (h : find? name table = some a) : ∃ entry ∈ table, entry.2 = a :=
  ⟨(name, a), entry_mem_of_find? h, rfl⟩

/-- What holds of a value whenever it holds of its parts holds of every value. -/
theorem Value.of_parts {P : Value → Prop} (h : ∀ v, (∀ u, u.IsPart v → P u) → P v) (v : Value) :
    P v := by
  -- What is no list and no object has no parts.
  have hnone {v : Value} (hitems : v.items? = none) (hmembers : v.members? = none) : P v := by
    refine h v ?_
    rintro u (⟨items, hsome, _⟩ | ⟨members, name, hsome, _⟩)
    · rw [hitems] at hsome
      cases hsome
    · rw [hmembers] at hsome
      cases hsome
  induction v using Value.structural with
  -- A list and a tuple have their items for parts.
  | list items ih | tuple items ih =>
    refine h _ ?_
    rintro u (⟨_, ⟨⟩, hu⟩ | ⟨_, _, ⟨⟩, _⟩)
    exact ih u hu
  | record members ih =>
    refine h _ ?_
    -- Only what is found under a name is a part; it is a member all the same.
    rintro u (⟨_, ⟨⟩, _⟩ | ⟨_, name, ⟨⟩, hu⟩)
    obtain ⟨member, hmember, rfl⟩ := Assoc.mem_of_find? hu
    exact ih member hmember
  | _ => exact hnone rfl rfl

end RpcContract
