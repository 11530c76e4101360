import RpcContract.Wire

/-!
# Arguments that a call leaves out

A call gets the decoded arguments without the undefined ones at their end: what is left out was
undefined, the last argument that is left is not, and every argument that is left stays where it was.
-/

namespace RpcContract.Wire

/-! ## Trimming -/

/-- Leaving the undefined arguments at the end out leaves nothing else out. -/
theorem trimUndefined_append (args : List Value) :
    ∃ dropped, args = trimUndefined args ++ dropped ∧ ∀ v ∈ dropped, v = .undefined := by
  induction args with
  | nil => exact ⟨[], rfl, by simp⟩
  | cons v rest ih =>
    obtain ⟨dropped, hrest, hdropped⟩ := ih
    -- Whether something of the rest is left decides if this argument can be at the end.
    cases htrimmed : trimUndefined rest with
    | cons w trimmed =>
      rw [htrimmed] at hrest
      refine ⟨dropped, ?_, hdropped⟩
      rw [trimUndefined, htrimmed]
      exact congrArg (v :: ·) hrest
    | nil =>
      rw [htrimmed, List.nil_append] at hrest
      rw [trimUndefined, htrimmed]
      -- At the end only undefined is left out.
      cases v with
      | undefined =>
        refine ⟨.undefined :: dropped, by simp [Value.isUndefined, ← hrest], ?_⟩
        simpa using hdropped
      | _ => exact ⟨dropped, by simp [Value.isUndefined, hrest], hdropped⟩

/-- What is left are the first of the arguments. -/
theorem trimUndefined_eq_take (args : List Value) :
    trimUndefined args = args.take (trimUndefined args).length := by
  obtain ⟨dropped, hargs, _⟩ := trimUndefined_append args
  have hleft : (trimUndefined args ++ dropped).take (trimUndefined args).length =
      trimUndefined args := List.take_left
  rw [← hargs] at hleft
  exact hleft.symm

/-- One more undefined argument at the end is left out. -/
theorem trimUndefined_concat (args : List Value) :
    trimUndefined (args ++ [.undefined]) = trimUndefined args := by
  induction args with
  | nil => rfl
  | cons v rest ih => rw [List.cons_append, trimUndefined, trimUndefined, ih]

theorem trimUndefined_append_undefined (args : List Value) (k : Nat) :
    trimUndefined (args ++ List.replicate k .undefined) = trimUndefined args := by
  -- One at a time, from the end.
  induction k with
  | zero => rw [List.replicate_zero, List.append_nil]
  | succ k ih => rw [List.replicate_succ', ← List.append_assoc, trimUndefined_concat, ih]

/-- The last argument that is left is not undefined. -/
theorem isUndefined_of_getLast?_trimUndefined {args : List Value} {v : Value}
    (h : (trimUndefined args).getLast? = some v) : v.isUndefined = false := by
  induction args with
  | nil => cases h
  | cons first rest ih =>
    rw [trimUndefined] at h
    -- The last one is in the rest, unless nothing of the rest is left; then it is this one.
    cases htrimmed : trimUndefined rest with
    | cons w trimmed =>
      rw [htrimmed] at h ih
      apply ih
      simpa using h
    | nil =>
      rw [htrimmed] at h
      by_cases hfirst : first.isUndefined = true
      · simp [hfirst] at h
      · obtain rfl : first = v := by simpa [hfirst] using h
        exact Bool.eq_false_iff.2 hfirst

/-- Where nothing is undefined, nothing is left out. -/
theorem trimUndefined_of_defined {args : List Value} (h : ∀ v ∈ args, v.isUndefined = false) :
    trimUndefined args = args := by
  induction args with
  | nil => rfl
  | cons v rest ih =>
    have hv : v.isUndefined = false := h v List.mem_cons_self
    have hrest : trimUndefined rest = rest := ih fun w hw => h w (List.mem_cons_of_mem v hw)
    rw [trimUndefined, hrest]
    -- Nothing is behind it, or something that is left.
    cases rest with
    | nil => simp [hv]
    | cons w later => rfl

/-! ## Arguments of a call -/

theorem length_materializeArgs (args : List Value) :
    (materializeArgs args).length = (trimUndefined args).length := by
  rw [materializeArgs, materializeItems_eq_map, List.length_map]

theorem length_materializeArgs_le (args : List Value) :
    (materializeArgs args).length ≤ args.length := by
  obtain ⟨dropped, hargs, _⟩ := trimUndefined_append args
  have hlength := congrArg List.length hargs
  rw [List.length_append] at hlength
  rw [length_materializeArgs]
  omega

/-- What the call does not get was undefined. -/
theorem eq_undefined_of_length_le {args : List Value} {i : Nat} {v : Value}
    (hi : (materializeArgs args).length ≤ i) (hv : args[i]? = some v) : v = .undefined := by
  obtain ⟨dropped, hargs, hdropped⟩ := trimUndefined_append args
  rw [length_materializeArgs] at hi
  -- A position behind what is left is one among those that were dropped.
  rw [hargs, List.getElem?_append_right hi] at hv
  exact hdropped v (List.mem_of_getElem? hv)

/-- Each value that a call gets was made of the argument at its position. -/
theorem getElem?_materializeArgs {args : List Value} {i : Nat} {v : Value}
    (h : (materializeArgs args)[i]? = some v) :
    ∃ arg, args[i]? = some arg ∧ v = materialize arg := by
  obtain ⟨dropped, hargs, _⟩ := trimUndefined_append args
  rw [materializeArgs, materializeItems_eq_map, List.getElem?_map] at h
  obtain ⟨arg, harg, rfl⟩ := Option.map_eq_some_iff.1 h
  refine ⟨arg, ?_, rfl⟩
  obtain ⟨hlt, _⟩ := List.getElem?_eq_some_iff.1 harg
  rw [hargs, List.getElem?_append_left hlt]
  exact harg

/-! ## Decoded arguments -/

theorem decodeArgs_append_placeholder (args : List Value) (k : Nat) :
    decodeArgs (args ++ List.replicate k (.text placeholder)) =
      decodeArgs args ++ List.replicate k .undefined := by
  have hplaceholder : decode (.text placeholder) = .undefined := by simp [decode]
  rw [decodeArgs, decodeArgs, decodeItems_eq_map, decodeItems_eq_map, List.map_append,
    List.map_replicate, hplaceholder]

theorem length_decodeArgs (args : List Value) : (decodeArgs args).length = args.length := by
  rw [decodeArgs, decodeItems_eq_map, List.length_map]

end RpcContract.Wire
