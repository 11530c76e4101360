import RpcContract.Proofs.Validation.Acceptance

/-!
# Weakening a declaration

A declaration can be changed without breaking the calls that it accepts: a type may give way to a
weaker one, a required parameter may become optional, and optional parameters may be added behind
the others.  What a schema asks of a value, every weaker schema asks of it too or asks nothing; and
so it is with what is given for each parameter of a call.
-/

namespace RpcContract

namespace Schema

/-- One schema asks for no more than another. -/
inductive Weakens : Schema → Schema → Prop where
  | refl (schema : Schema) : Weakens schema schema
  | any (schema : Schema) : Weakens .any schema
  /-- An array type that ends in at least as many `[]`, with anything in the place of its base. -/
  | arrays (base : Text) (depth : Nat) :
      Weakens (.text (arrayText anyText depth)) (.text (arrayText base depth))
  /-- An object literal with fewer fields, in any order, each of a weaker type; what may be missing
  still may. -/
  | object {weaker fields : List (Field Schema)}
      (declared : ∀ field ∈ weaker, field.name ∈ fields.map Field.name)
      (types : ∀ field ∈ weaker, ∀ old ∈ fields, old.name = field.name →
        Weakens field.schema old.schema)
      (marks : ∀ field ∈ weaker, ∀ old ∈ fields, old.name = field.name →
        old.optional = true → field.optional = true) :
      Weakens (.object .literal weaker) (.object .literal fields)

end Schema

namespace Param

/-- One parameter asks for no more than another. -/
structure Weakens (weaker param : Param) : Prop where
  type : weaker.type.Weakens param.type
  optional : param.optional = true → weaker.optional = true

/-- One list of parameters asks for no more than another: position by position, with optional
parameters behind. -/
inductive WeakensAll : List Param → List Param → Prop where
  | added {extra : List Param} (h : ∀ param ∈ extra, param.optional = true) : WeakensAll extra []
  | kept {weaker param : Param} {others params : List Param} (h : weaker.Weakens param)
      (hothers : WeakensAll others params) : WeakensAll (weaker :: others) (param :: params)

end Param

/-! ## Types -/

namespace Schema

variable {allowNull : AllowNull} {v : Value}

/-- What is of an array type is of every array type that is no deeper and has `any` for its base. -/
theorem AdmitsArray.any {base : Text} {more depth : Nat}
    (h : AdmitsArray allowNull base (more + depth) v) : AdmitsArray allowNull anyText depth v := by
  -- Over the depth that is left, for every value; the items of an array are one level less deep.
  induction depth generalizing v with
  | zero => exact .inl rfl
  | succ depth ih =>
    rw [← Nat.add_assoc, AdmitsArray] at h
    rw [AdmitsArray]
    by_cases habsent : v.isAbsent = true
    · rw [if_pos habsent] at h ⊢
      exact h
    · rw [if_neg habsent] at h ⊢
      obtain ⟨items, hitems, hall⟩ := h
      exact ⟨items, hitems, fun item hitem => ih (hall item hitem)⟩

theorem arrayParts_anyText : arrayParts anyText = (anyText, 0) := by decide

/-- What is of a type is of every weaker type. -/
theorem Weakens.admits {weaker schema : Schema} (hweakens : weaker.Weakens schema)
    (h : schema.Admits allowNull v) : weaker.Admits allowNull v := by
  -- Over the derivation, for every value.
  induction hweakens generalizing v with
  | refl schema => exact h
  | any schema => exact admits_any allowNull v
  | arrays base depth =>
    -- Written out, both types end in `depth` pairs, and the base may bring more of its own.
    rw [admits_text_iff, arrayParts_arrayText] at h ⊢
    rw [arrayParts_anyText]
    have hdeeper : AdmitsArray allowNull (arrayParts base).1 ((arrayParts base).2 + depth) v := by
      simpa using h
    simpa using hdeeper.any
  | @object weaker fields declared types marks ih =>
    rw [Admits] at h ⊢
    by_cases habsent : v.isAbsent = true
    · rw [if_pos habsent] at h ⊢
      exact h
    · rw [if_neg habsent] at h ⊢
      obtain ⟨members, hmembers, hfields⟩ := h
      refine ⟨members, hmembers, admitsFields_iff.2 ?_⟩
      intro field hfield
      -- The field is declared on the other side, and asks for no more here than there.
      obtain ⟨old, hold, hname⟩ := List.mem_map.1 (declared field hfield)
      have hadmits := admitsFields_iff.1 hfields old hold
      exact hadmits.weaken hname (fun w hw => ih field hfield old hold hname hw)
        (marks field hfield old hold hname)

end Schema

/-! ## Parameters -/

namespace Param

variable {allowNull : AllowNull}

/-- What may be given for a parameter may be given for a weaker one. -/
theorem Weakens.admits {weaker param : Param} (hweakens : weaker.Weakens param)
    {given : Option Value} (h : param.Admits allowNull given) : weaker.Admits allowNull given := by
  -- Nothing given needs the mark, and a value that is given needs the mark or the type.
  cases given with
  | none => exact hweakens.optional h
  | some arg =>
    rcases h with ⟨hoptional, habsent⟩ | htype
    · exact .inl ⟨hweakens.optional hoptional, habsent⟩
    · exact .inr (hweakens.type.admits htype)

theorem WeakensAll.length_le {weaker params : List Param} (h : WeakensAll weaker params) :
    params.length ≤ weaker.length := by
  induction h with
  | added => exact Nat.zero_le _
  | kept _ _ ih => exact Nat.succ_le_succ ih

/-- At each position there was a parameter that asked for as much, or the parameter is one of those
that were added. -/
theorem WeakensAll.getElem? {weaker params : List Param} (h : WeakensAll weaker params) {i : Nat}
    {param : Param} (hparam : weaker[i]? = some param) :
    (∃ old, params[i]? = some old ∧ param.Weakens old) ∨
      (params.length ≤ i ∧ param.optional = true) := by
  -- Over the lists, for every position; `added` begins where the old parameters end.
  induction h generalizing i with
  | added hoptional => exact .inr ⟨Nat.zero_le _, hoptional param (List.mem_of_getElem? hparam)⟩
  | @kept first old others params hfirst _ ih =>
    cases i with
    | zero =>
      obtain rfl : first = param := by simpa using hparam
      exact .inl ⟨old, rfl, hfirst⟩
    | succ i =>
      rcases ih (by simpa using hparam) with hkept | ⟨hlength, hoptional⟩
      · exact .inl (by simpa using hkept)
      · exact .inr ⟨Nat.succ_le_succ hlength, hoptional⟩

/-- Arguments that are right for parameters are right for weaker ones. -/
theorem WeakensAll.admitsAll {weaker params : List Param} (hweakens : WeakensAll weaker params)
    {args : List Value} (h : AdmitsAll allowNull params args) : AdmitsAll allowNull weaker args := by
  obtain ⟨hmost, heach⟩ := h
  -- No more arguments than before, and not fewer parameters.
  refine ⟨Nat.le_trans hmost hweakens.length_le, ?_⟩
  intro i param hparam
  rcases hweakens.getElem? hparam with ⟨old, hold, hparam⟩ | ⟨hlength, hoptional⟩
  · exact hparam.admits (heach i old hold)
  · -- There were no more arguments than parameters, so nothing is given for one that was added.
    have hnothing : args[i]? = none := List.getElem?_eq_none (Nat.le_trans hmost hlength)
    rw [hnothing]
    exact hoptional

end Param

namespace Validation

/-- **Weakening a declaration never breaks a call.**  Whatever the null rule, arguments that pass the
check against parameters pass the check against weaker ones. -/
theorem checkArgs_weakened {weaker params : List Param} (hweakens : Param.WeakensAll weaker params)
    (allowNull : AllowNull) (args : List Value)
    (hpass : checkArgs allowNull params args = .ok ()) :
    checkArgs allowNull weaker args = .ok () := by
  have hargs : Param.AdmitsAll allowNull params args := checkArgs_eq_ok_iff.1 hpass
  exact checkArgs_eq_ok_iff.2 (hweakens.admitsAll hargs)

/-- Two fields that change places, one of which may be missing from now on, and one that is dropped;
an array of arrays of numbers that becomes an array of anything; a parameter that is added. -/
theorem checkArgs_weakened_record :
    let shape : Schema := .object .literal
      [⟨"a".text, false, .text "number[][]".text⟩, ⟨"b".text, true, .text "string".text⟩,
        ⟨"c".text, false, .text "boolean".text⟩]
    let weaker : Schema := .object .literal
      [⟨"b".text, true, .any⟩, ⟨"a".text, true, .text "any[]".text⟩]
    let args : List Value :=
      [.record [("c".text, .bool true), ("a".text, .list [.list [.int 1], .tuple []])]]
    checkArgs false [⟨.text "x".text, shape, .bool false⟩] args = .ok () ∧
      checkArgs false
        [⟨.text "x".text, weaker, .bool true⟩, ⟨.text "y".text, shape, .bool true⟩] args
          = .ok () := by
  intro shape weaker args
  have hb : Schema.any.Weakens (.text "string".text) := .any _
  have ha : (Schema.text "any[]".text).Weakens (.text "number[][]".text) :=
    .arrays "number[]".text 1
  have hshape : weaker.Weakens shape := by
    apply Schema.Weakens.object
    · decide
    · simp only [List.forall_mem_cons]
      refine ⟨⟨?_, fun _ => hb, ?_, ?_⟩, ⟨fun _ => ha, ?_, ?_, ?_⟩, ?_⟩ <;>
        simp +decide
    · decide
  have hparam : Param.Weakens ⟨.text "x".text, weaker, .bool true⟩
      ⟨.text "x".text, shape, .bool false⟩ := ⟨hshape, fun _ => rfl⟩
  have hpass : checkArgs false [⟨.text "x".text, shape, .bool false⟩] args = .ok () := rfl
  refine ⟨hpass, checkArgs_weakened (.kept hparam (.added ?_)) false args hpass⟩
  intro param hmem
  obtain rfl := List.mem_singleton.1 hmem
  rfl

end Validation

end RpcContract
