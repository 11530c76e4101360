import Mathlib.Data.List.Nodup
import RpcContract.Proofs.Schema.Printing
import RpcContract.Schema.Display

/-!
# Fields declared one after the other

Declaring fields in turn leaves each name once, where it was declared first, with the schema and the
mark that it was declared with last.  So fields can be declared in portions: what a later portion
comes to is declared over what an earlier one came to.
-/

namespace RpcContract.Schema

variable {fields others declared : List (Field Schema)} {field : Field Schema} {name : Text}

/-- What becomes of a field when others are declared over it: the one of its name, if there is
one. -/
def replaceField (others : List (Field Schema)) (field : Field Schema) : Field Schema :=
  (findField? field.name others).getD field

/-- The fields of two objects as one: those of the first in their order, each as the second declares
it where it does, and then the new fields of the second in theirs. -/
def override (fields others : List (Field Schema)) : List (Field Schema) :=
  fields.map (replaceField others) ++
    others.filter fun field => !(fields.map Field.name).contains field.name

/-! ## One field -/

theorem name_of_findField? (h : findField? name fields = some field) : field.name = name := by
  induction fields with
  | nil => exact absurd h (by simp [findField?])
  | cons first rest ih =>
    rw [findField?] at h
    split at h
    · rename_i hname
      rw [← Option.some.inj h]
      exact hname
    · exact ih h

theorem findField?_declare (name : Text) (field : Field Schema) (declared : List (Field Schema)) :
    findField? name (declare field declared) =
      if field.name = name then some field else findField? name declared := by
  induction declared with
  | nil => rfl
  -- If the old field gives way, both look-ups stop at the first place; if not, it still answers for
  -- its own name, which is another one.
  | cons old rest ih =>
    by_cases hold : old.name = field.name
    · rw [declare, if_pos hold, findField?, findField?, hold]
      split <;> rfl
    · rw [declare, if_neg hold, findField?, findField?, ih]
      by_cases hname : old.name = name
      · have hother : field.name ≠ name := fun h => hold (hname.trans h.symm)
        rw [if_pos hname, if_neg hother, if_pos hname]
      · rw [if_neg hname, if_neg hname]

/-- A name that is declared already keeps its place, a new one goes to the end. -/
theorem names_declare (field : Field Schema) (declared : List (Field Schema)) :
    (declare field declared).map Field.name =
      if field.name ∈ declared.map Field.name then declared.map Field.name
      else declared.map Field.name ++ [field.name] := by
  induction declared with
  | nil => rfl
  | cons old rest ih =>
    -- The old field of the name is replaced where it stands, so the names stay as they are.
    by_cases hold : old.name = field.name
    · simp [declare, hold]
    · rw [declare, if_neg hold, List.map_cons, ih, List.map_cons]
      by_cases hrest : field.name ∈ rest.map Field.name
      · rw [if_pos hrest, if_pos (List.mem_cons_of_mem _ hrest)]
      · have hnew : field.name ∉ old.name :: rest.map Field.name := by
          rw [List.mem_cons, not_or]
          exact ⟨Ne.symm hold, hrest⟩
        rw [if_neg hrest, if_neg hnew, List.cons_append]

theorem nodup_declare (h : (declared.map Field.name).Nodup) :
    ((declare field declared).map Field.name).Nodup := by
  rw [names_declare]
  split
  · exact h
  · -- The new name is not among the old ones and stands behind them.
    rename_i hnew
    rw [← List.concat_eq_append]
    exact List.Nodup.concat hnew h

theorem declareAll_concat (fields : List (Field Schema)) (field : Field Schema) :
    declareAll (fields ++ [field]) = declare field (declareAll fields) := List.foldl_concat ..

/-- A declared field is the new one or an old one. -/
theorem mem_declare {other : Field Schema} (h : other ∈ declare field declared) :
    other = field ∨ other ∈ declared := by
  induction declared with
  | nil => exact .inl (List.mem_singleton.1 h)
  | cons old rest ih =>
    rw [declare] at h
    split at h
    · rcases List.mem_cons.1 h with rfl | hrest
      · exact .inl rfl
      · exact .inr (List.mem_cons_of_mem old hrest)
    · rcases List.mem_cons.1 h with rfl | hrest
      · exact .inr List.mem_cons_self
      · rcases ih hrest with rfl | hold
        · exact .inl rfl
        · exact .inr (List.mem_cons_of_mem old hold)

/-- What is declared in the end was declared at some time. -/
theorem mem_declareAll (h : field ∈ declareAll fields) : field ∈ fields := by
  -- From the end of the list, since that is where the next field is declared.
  induction fields using List.reverseRecOn with
  | nil => exact absurd h List.not_mem_nil
  | append_singleton fields last ih =>
    rw [declareAll_concat] at h
    rcases mem_declare h with rfl | hbefore
    · exact List.mem_append_right fields List.mem_cons_self
    · exact List.mem_append_left [last] (ih hbefore)

/-- Each name is declared once, however often it was declared. -/
theorem nodup_declareAll (fields : List (Field Schema)) :
    ((declareAll fields).map Field.name).Nodup := by
  induction fields using List.reverseRecOn with
  | nil => exact List.nodup_nil
  | append_singleton fields field ih =>
    rw [declareAll_concat]
    exact nodup_declare ih

/-! ## Portions -/

theorem name_replaceField (others : List (Field Schema)) (field : Field Schema) :
    (replaceField others field).name = field.name := by
  unfold replaceField
  cases hfind : findField? field.name others with
  | none => rfl
  | some other => exact name_of_findField? hfind

theorem names_replaceField (fields others : List (Field Schema)) :
    (fields.map (replaceField others)).map Field.name = fields.map Field.name := by
  rw [List.map_map]
  exact List.map_congr_left fun field _ => name_replaceField others field

theorem replaceField_declare_of_ne (h : field.name ≠ name) (old : Field Schema)
    (hname : old.name = name) :
    replaceField (declare field others) old = replaceField others old := by
  rw [replaceField, replaceField, findField?_declare, hname, if_neg h]

/-- A field whose name is among the first fields is declared among them. -/
theorem declare_append_of_mem (h : field.name ∈ declared.map Field.name) :
    declare field (declared ++ others) = declare field declared ++ others := by
  induction declared with
  | nil => exact absurd h List.not_mem_nil
  | cons old rest ih =>
    -- The first field of the name takes the new one, and it is among these.
    by_cases hold : old.name = field.name
    · simp [declare, hold]
    · have hrest : field.name ∈ rest.map Field.name :=
        (List.mem_cons.1 h).resolve_left (Ne.symm hold)
      rw [List.cons_append, declare, if_neg hold, ih hrest, declare, if_neg hold, List.cons_append]

/-- A field whose name is not among the first fields is declared behind them. -/
theorem declare_append_of_not_mem (h : field.name ∉ declared.map Field.name) :
    declare field (declared ++ others) = declared ++ declare field others := by
  induction declared with
  | nil => rfl
  | cons old rest ih =>
    rw [List.map_cons, List.mem_cons, not_or] at h
    rw [List.cons_append, declare, if_neg (Ne.symm h.1), ih h.2, List.cons_append]

/-- Declaring a field over others declares it over what they replace. -/
theorem declare_map_replaceField (hnames : (fields.map Field.name).Nodup)
    (h : field.name ∈ fields.map Field.name) :
    declare field (fields.map (replaceField others)) =
      fields.map (replaceField (declare field others)) := by
  induction fields with
  | nil => exact absurd h List.not_mem_nil
  | cons first rest ih =>
    rw [List.map_cons, List.nodup_cons] at hnames
    rw [List.map_cons, List.map_cons, declare, name_replaceField]
    by_cases hfirst : first.name = field.name
    · -- The first field of the name is the new one itself, declared over whatever was there.
      have hhead : replaceField (declare field others) first = field := by
        rw [replaceField, findField?_declare, if_pos hfirst.symm]
        rfl
      -- The name does not occur a second time, so the other fields are replaced as before.
      have hrest : ∀ other ∈ rest, replaceField (declare field others) other =
          replaceField others other := by
        intro other hother
        refine replaceField_declare_of_ne ?_ other rfl
        intro heq
        exact hnames.1 (hfirst.trans heq ▸ List.mem_map_of_mem hother)
      rw [if_pos hfirst, hhead, List.map_congr_left hrest]
    · have hmem : field.name ∈ rest.map Field.name :=
        (List.mem_cons.1 h).resolve_left (Ne.symm hfirst)
      -- The field in front has another name and is replaced by what replaced it before.
      rw [if_neg hfirst, ih hnames.2 hmem, replaceField_declare_of_ne (Ne.symm hfirst) first rfl]

/-- Leaving fields out by their names and declaring another one change places. -/
theorem filter_declare (p : Text → Bool) (field : Field Schema) (declared : List (Field Schema)) :
    (declare field declared).filter (fun other => p other.name) =
      if p field.name then declare field (declared.filter fun other => p other.name)
      else declared.filter fun other => p other.name := by
  induction declared with
  | nil =>
    -- Nothing is declared yet: the new field is kept or left out by its own name.
    by_cases hp : p field.name = true <;> simp [declare, hp]
  | cons old rest ih =>
    by_cases hold : old.name = field.name
    · by_cases hp : p field.name = true <;> simp [declare, hold, hp]
    · rw [declare, if_neg hold, List.filter_cons, List.filter_cons, ih]
      by_cases hp : p field.name = true <;> by_cases hq : p old.name = true <;>
        simp [declare, hold, hp, hq]

/-- Declaring one more field over others declares it over both together. -/
theorem declare_override (hnames : (fields.map Field.name).Nodup) :
    declare field (override fields others) = override fields (declare field others) := by
  unfold override
  rw [filter_declare fun name => !(fields.map Field.name).contains name]
  -- A name of the first portion is declared in place; any other goes behind, and is no old name
  -- there.
  by_cases hmem : field.name ∈ fields.map Field.name
  · rw [declare_append_of_mem (by rwa [names_replaceField]), declare_map_replaceField hnames hmem,
      if_neg (by simpa using hmem)]
  · have hsame : ∀ old ∈ fields, replaceField (declare field others) old =
        replaceField others old := by
      intro old hold
      refine replaceField_declare_of_ne ?_ old rfl
      intro heq
      exact hmem (heq ▸ List.mem_map_of_mem hold)
    rw [declare_append_of_not_mem (by rwa [names_replaceField]), List.map_congr_left hsame,
      if_pos (by simpa using hmem)]

theorem override_nil (fields : List (Field Schema)) : override fields [] = fields := by
  have hsame : fields.map (replaceField []) = fields := List.map_id fields
  rw [override, hsame, List.filter_nil, List.append_nil]

theorem nil_override (fields : List (Field Schema)) : override [] fields = fields := by
  simp [override]

/-- **Fields can be declared in portions.**  What a second portion comes to is declared over what the
first came to. -/
theorem declareAll_append (fields others : List (Field Schema)) :
    declareAll (fields ++ others) = override (declareAll fields) (declareAll others) := by
  -- Over the second portion from its end: one more field declared over both is one more over it.
  induction others using List.reverseRecOn with
  | nil =>
    rw [List.append_nil]
    exact (override_nil _).symm
  | append_singleton others field ih =>
    rw [← List.append_assoc, declareAll_concat, declareAll_concat, ih,
      declare_override (nodup_declareAll fields)]

end RpcContract.Schema
