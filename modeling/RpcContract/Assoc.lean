import RpcContract.Text.Basic

/-!
# Association lists in order of arrival

A table from names to values that remembers the order in which the names first arrived.  Writing to
a name that is present changes its value and keeps its place; a new name goes to the end.
-/

namespace RpcContract

/-- A table from names to values, in the order in which the names first arrived. -/
abbrev Assoc (α : Type) := List (Text × α)

namespace Assoc

variable {α : Type}

/-- The value at a name. -/
def find? (name : Text) : Assoc α → Option α
  | [] => none
  | (key, value) :: rest => if key = name then some value else find? name rest

/-- Whether a name is present. -/
def has (name : Text) (table : Assoc α) : Bool := (find? name table).isSome

/-- The names in order of arrival. -/
def names (table : Assoc α) : List Text := table.map (·.1)

/-- Writes a value at a name. -/
def put (name : Text) (value : α) : Assoc α → Assoc α
  | [] => [(name, value)]
  | (key, old) :: rest =>
    if key = name then (name, value) :: rest else (key, old) :: put name value rest

/-- The table that results from writing each entry in turn. -/
def ofEntries (entries : List (Text × α)) : Assoc α :=
  entries.foldl (fun table entry => put entry.1 entry.2 table) []

/-- What was written is found. -/
@[simp] theorem find?_put_self (name : Text) (value : α) (table : Assoc α) :
    find? name (put name value table) = some value := by
  induction table with
  | nil => simp [put, find?]
  | cons entry rest ih =>
    obtain ⟨key, old⟩ := entry
    by_cases h : key = name <;> simp [put, find?, h, ih]

/-- Other names keep their values. -/
theorem find?_put_of_ne {name other : Text} (h : other ≠ name) (value : α) (table : Assoc α) :
    find? other (put name value table) = find? other table := by
  induction table with
  | nil => simp [put, find?, Ne.symm h]
  | cons entry rest ih =>
    obtain ⟨key, old⟩ := entry
    by_cases hk : key = name
    · subst hk
      simp [put, find?, Ne.symm h]
    · simp only [put, if_neg hk, find?, ih]

/-- A name is found exactly when it is among the names. -/
theorem has_eq_true_iff {name : Text} {table : Assoc α} :
    has name table = true ↔ name ∈ names table := by
  induction table with
  | nil => simp [has, find?, names]
  | cons entry rest ih =>
    obtain ⟨key, old⟩ := entry
    simp only [has, names] at ih
    by_cases hk : key = name
    · subst hk
      simp [has, find?, names]
    · simp [has, find?, names, hk, ih, Ne.symm hk]

/-- A present name keeps its place, a new one goes to the end. -/
theorem names_put (name : Text) (value : α) (table : Assoc α) :
    names (put name value table) =
      if name ∈ names table then names table else names table ++ [name] := by
  induction table with
  | nil => simp [put, names]
  | cons entry rest ih =>
    obtain ⟨key, old⟩ := entry
    simp only [names] at ih
    by_cases hk : key = name
    · subst hk
      simp [put, names]
    · simp only [put, if_neg hk, names, List.map_cons, ih, List.mem_cons, Ne.symm hk, false_or]
      by_cases hm : name ∈ rest.map (·.1) <;> simp [hm]

/-- A new name goes to the end with its value. -/
theorem put_of_not_mem {name : Text} {table : Assoc α} (h : name ∉ names table) (value : α) :
    put name value table = table ++ [(name, value)] := by
  induction table with
  | nil => rfl
  | cons entry rest ih =>
    obtain ⟨key, old⟩ := entry
    obtain ⟨hkey, hrest⟩ : name ≠ key ∧ name ∉ names rest := by simpa [names] using h
    rw [put, if_neg (Ne.symm hkey), ih hrest, List.cons_append]

/-- Entries with names of their own, none of them in the table, are appended to it. -/
theorem foldl_put_of_nodup {table entries : Assoc α} (h : (names (table ++ entries)).Nodup) :
    entries.foldl (fun table entry => put entry.1 entry.2 table) table = table ++ entries := by
  induction entries generalizing table with
  | nil => simp
  | cons entry rest ih =>
    have hnew : entry.1 ∉ names table := by
      intro hmem
      rw [names, List.map_append, List.nodup_append] at h
      exact h.2.2 _ hmem _ List.mem_cons_self rfl
    have hassoc : table ++ entry :: rest = table ++ [(entry.1, entry.2)] ++ rest := by simp
    rw [List.foldl_cons, put_of_not_mem hnew, hassoc]
    rw [hassoc] at h
    exact ih h

/-- Entries with names of their own are a table already. -/
theorem ofEntries_of_nodup {entries : Assoc α} (h : (names entries).Nodup) :
    ofEntries entries = entries :=
  foldl_put_of_nodup (by simpa using h)

end Assoc

end RpcContract
