import RpcContract.Proofs.Validation.FirstViolation
import RpcContract.Proofs.Wire.Inverse

/-!
# The null rule

A check may let absent values pass wherever they stand, or only where the declaration says so: under
`any`, and for an optional parameter.  The strict rule refines the permissive one.  What is right
under the strict rule is right under the permissive one, so both checks go the same way up to the
first violation; and if they do not both find it, the strict one has come to an absent value.
-/

namespace RpcContract

namespace Value

/-- What is absent is null or undefined. -/
theorem isAbsent_iff {v : Value} : v.isAbsent = true ↔ v = .null ∨ v = .undefined := by
  cases v <;> simp [isAbsent]

/-- Whether nothing absent stands in the value, at any depth. -/
def isPresent : Value → Bool := throughout fun v => !v.isAbsent

theorem not_isAbsent_of_isPresent {v : Value} (h : v.isPresent = true) : ¬ v.isAbsent = true := by
  have htest := of_throughout h
  simpa using htest

/-- What a value passes throughout is passed throughout by its parts. -/
theorem throughout_of_isPart {p : Value → Bool} {u v : Value} (hpart : u.IsPart v)
    (h : v.throughout p = true) : u.throughout p = true := by
  -- A part is an item or the value of a member, and a value that has such parts is a list, a tuple
  -- or a record.
  rcases hpart with ⟨items, hitems, hu⟩ | ⟨members, name, hmembers, hfind⟩
  · cases v with
    | list =>
      cases hitems
      exact throughout_of_mem_list h u hu
    | tuple =>
      cases hitems
      exact throughout_of_mem_tuple h u hu
    | _ => cases hitems
  · cases v with
    | record =>
      cases hmembers
      obtain ⟨member, hmember, rfl⟩ := Assoc.mem_of_find? hfind
      exact throughout_of_mem_record h member hmember
    | _ => cases hmembers

end Value

namespace Schema

variable {allowNull : AllowNull} {schema inner last : Schema} {u v w : Value}

/-! ## From any rule to the permissive one -/

theorem AdmitsArray.permissive {base : Text} {depth : Nat}
    (h : AdmitsArray allowNull base depth v) : AdmitsArray true base depth v := by
  -- Over the depth: an absent value passes outright, and any other is asked the same.
  induction depth generalizing v with
  | zero =>
    rw [AdmitsArray] at h ⊢
    refine h.imp_right fun hbase => ?_
    by_cases habsent : v.isAbsent = true
    · rw [if_pos habsent]
    · rwa [if_neg habsent] at hbase ⊢
  | succ depth ih =>
    rw [AdmitsArray] at h ⊢
    by_cases habsent : v.isAbsent = true
    · rw [if_pos habsent]
    · rw [if_neg habsent] at h ⊢
      obtain ⟨items, hitems, hall⟩ := h
      exact ⟨items, hitems, fun item hitem => ih (hall item hitem)⟩

/-- What is of a type under some rule is of it under the permissive one. -/
theorem Admits.permissive (h : schema.Admits allowNull v) : schema.Admits true v := by
  -- Over the schema; the rule is used only where the value is absent.
  induction schema using Schema.structural generalizing v with
  | text t => exact admits_text_iff.2 (admits_text_iff.1 h).permissive
  | raw w =>
    rw [Admits] at h ⊢
    exact ⟨h.1, rfl⟩
  | object form fields ih =>
    rw [Admits] at h ⊢
    by_cases habsent : v.isAbsent = true
    · rw [if_pos habsent]
    · rw [if_neg habsent] at h ⊢
      obtain ⟨members, hmembers, hfields⟩ := h
      refine ⟨members, hmembers, admitsFields_iff.2 fun field hfield => ?_⟩
      have hadmits := admitsFields_iff.1 hfields field hfield
      exact hadmits.weaken rfl (fun u hu => ih field hfield hu) id

theorem AdmitsField.permissive {form : ObjectForm} {field : Field Schema} {members : Assoc Value}
    (h : AdmitsField allowNull form field members) : AdmitsField true form field members :=
  h.weaken rfl (fun _ => Admits.permissive) id

/-- An absent value is right unless the rule is strict and the schema is not `any`. -/
theorem violates_of_isAbsent (h : v.isAbsent = true) :
    Violates allowNull schema v ↔ allowNull = false ∧ schema ≠ .any := by
  unfold Violates
  rw [if_pos h]

/-- What is asked of a value that is not absent does not depend on the rule. -/
theorem violates_congr {other : AllowNull} (h : ¬ v.isAbsent = true) :
    Violates allowNull schema v ↔ Violates other schema v := by
  unfold Violates
  rw [if_neg h, if_neg h]

theorem StepsTo.permissive {accessor : Accessor} (h : StepsTo allowNull schema v accessor inner u) :
    StepsTo true schema v accessor inner u := by
  -- What is passed by is right under the permissive rule as well.
  cases h with
  | member hmembers hfield hfind hearlier =>
    refine .member hmembers hfield hfind ?_
    exact fun j hj other hother => (hearlier j hj other hother).permissive
  | item htext hitems hitem hearlier =>
    refine .item htext hitems hitem ?_
    exact fun j hj other hother => (hearlier j hj other hother).permissive

/-- A chain that passes by nothing but what is right still does under the permissive rule. -/
theorem LeadsTo.permissive {chain : List Accessor} (h : LeadsTo allowNull schema v chain last w) :
    LeadsTo true schema v chain last w := by
  induction h with
  | here schema v => exact .here schema v
  | step hstep _ ih => exact .step hstep.permissive ih

/-- What is reported of a value that is not absent does not depend on the rule. -/
theorem Reports.permissive {path : Path} {violation : Violation}
    (h : Reports allowNull path schema v violation) (hpresent : ¬ v.isAbsent = true) :
    Reports true path schema v violation := by
  cases h with
  | mismatch hviolates => exact .mismatch ((violates_congr hpresent).1 hviolates)
  | missing hlacks =>
    -- A lack is found by looking names up, which no rule has a part in.
    obtain ⟨hmembers, hfield, hfind, hrequired, hearlier⟩ := hlacks
    refine .missing ⟨hmembers, hfield, hfind, hrequired, fun j hj other hother => ?_⟩
    exact (hearlier j hj other hother).permissive

/-- A chain in a value in which nothing is absent leads to nothing absent. -/
theorem LeadsTo.isPresent {chain : List Accessor} (h : LeadsTo allowNull schema v chain last w)
    (hpresent : v.isPresent = true) : w.isPresent = true := by
  induction h with
  | here => exact hpresent
  | step hstep _ ih => exact ih (Value.throughout_of_isPart hstep.isPart hpresent)

/-! ## Violations that only the strict rule finds -/

/-- The strict check of a value comes to an absent value, for which something else than `any` is
declared, and reports null or undefined there as a mismatch. -/
inductive BlamesAbsent (path : Path) (schema : Schema) (v : Value) : Rejection → Prop where
  | null {chain : List Accessor} {last : Schema} (hleads : LeadsTo false schema v chain last .null)
      (hdeclared : last ≠ .any) :
      BlamesAbsent path schema v
        (.violation (.mismatch (path.extend chain) last "null".text))
  | undefined {chain : List Accessor} {last : Schema}
      (hleads : LeadsTo false schema v chain last .undefined) (hdeclared : last ≠ .any) :
      BlamesAbsent path schema v
        (.violation (.mismatch (path.extend chain) last "undefined".text))

/-- Of an absent value the strict rule reports nothing but that it is absent. -/
theorem Reports.blamesAbsent {path : Path} {chain : List Accessor} {violation : Violation}
    (h : Reports false (path.extend chain) last w violation)
    (hleads : LeadsTo false schema v chain last w) (habsent : w.isAbsent = true) :
    BlamesAbsent path schema v (.violation violation) := by
  -- What is absent has no members to lack, so it is a mismatch.
  cases h with
  | mismatch hviolates =>
    have hdeclared : last ≠ .any := ((violates_of_isAbsent habsent).1 hviolates).2
    rcases Value.isAbsent_iff.1 habsent with rfl | rfl
    · exact .null hleads hdeclared
    · exact .undefined hleads hdeclared
  | missing hlacks =>
    cases hlacks with
    | intro hmembers =>
      rw [Value.members?_of_isAbsent habsent] at hmembers
      cases hmembers

theorem BlamesAbsent.not_isPresent {path : Path} {rejection : Rejection}
    (h : BlamesAbsent path schema v rejection) : ¬ v.isPresent = true := by
  intro hpresent
  -- The chain would lead from a present value to an absent one.
  cases h with
  | null hleads => exact Value.not_isAbsent_of_isPresent (hleads.isPresent hpresent) rfl
  | undefined hleads => exact Value.not_isAbsent_of_isPresent (hleads.isPresent hpresent) rfl

end Schema

/-- The strict check of arguments comes to an absent value in an argument that counts: an optional
parameter takes an absent argument under either rule. -/
inductive Param.BlamesAbsent (params : List Param) (args : List Value) (rejection : Rejection) :
    Prop where
  | intro {i : Nat} {param : Param} {arg : Value} (hparam : params[i]? = some param)
      (harg : args[i]? = some arg) (hcounts : ¬ (param.optional = true ∧ arg.isAbsent = true))
      (hblames : param.type.BlamesAbsent (.root param.name) arg rejection)

namespace Param

variable {allowNull : AllowNull}

theorem Admits.permissive {param : Param} {given : Option Value}
    (h : param.Admits allowNull given) : param.Admits true given := by
  cases given with
  | none => exact h
  | some arg => exact h.imp_right Schema.Admits.permissive

theorem AdmitsAll.permissive {params : List Param} {args : List Value}
    (h : AdmitsAll allowNull params args) : AdmitsAll true params args :=
  ⟨h.1, fun i param hparam => (h.2 i param hparam).permissive⟩

end Param

namespace Validation

variable {schema : Schema} {v : Value} {path : Path} {params : List Param} {args : List Value}

/-! ## The two checks side by side -/

/-- The strict check of a value finds what the permissive one finds, or blames an absent value. -/
theorem check_strict (htextual : schema.isTextual = true) :
    check false schema v path = check true schema v path ∨
      ∃ rejection, check false schema v path = .error rejection ∧
        schema.BlamesAbsent path v rejection := by
  cases hstrict : check false schema v path with
  | ok =>
    have hadmits : schema.Admits false v := check_eq_ok_iff.1 hstrict
    exact .inl (check_eq_ok_iff.2 hadmits.permissive).symm
  | error rejection =>
    obtain ⟨chain, last, w, violation, hleads, hreports, rfl⟩ :=
      exists_chain_of_check_eq_error htextual hstrict
    -- At the end of the chain stands an absent value, or one for which the rules do not differ.
    by_cases habsent : w.isAbsent = true
    · exact .inr ⟨_, rfl, hreports.blamesAbsent hleads habsent⟩
    · -- The violation is there under the permissive rule too, and so is the way to it.
      have hpermissive : check true schema v path = .error (.violation violation) :=
        check_eq_error_of_leadsTo htextual hleads.permissive (hreports.permissive habsent)
      exact .inl hpermissive.symm

/-- The strict check of arguments one by one finds what the permissive one finds, or blames an
absent value. -/
theorem checkEachArg_strict (htextual : ∀ param ∈ params, param.type.isTextual = true) :
    checkEachArg false params args = checkEachArg true params args ∨
      ∃ rejection, checkEachArg false params args = .error rejection ∧
        Param.BlamesAbsent params args rejection := by
  cases hstrict : checkEachArg false params args with
  | ok =>
    have hadmits := checkEachArg_eq_ok_iff.1 hstrict
    refine .inl (checkEachArg_eq_ok_iff.2 ?_).symm
    exact fun i param hparam => (hadmits i param hparam).permissive
  | error rejection =>
    obtain ⟨violation, rfl, i, param, hparam, hreports, hearlier⟩ :=
      (checkEachArg_eq_error_first htextual).1 hstrict
    -- Where the same report is made under the permissive rule, the two checks fail alike.
    have hsame (h : param.Reports true args[i]? violation) :
        checkEachArg true params args = .error (.violation violation) := by
      refine (checkEachArg_eq_error_first htextual).2 ⟨violation, rfl, i, param, hparam, h, ?_⟩
      exact fun j hj other hother => (hearlier j hj other hother).permissive
    generalize hgiven : args[i]? = given at hreports hsame
    -- A missing argument is reported under either rule; a value is traced as above.
    cases hreports with
    | notProvided hrequired => exact .inl (hsame (.notProvided hrequired)).symm
    | @value arg w _ _ _ hcounts hleads hreports =>
      by_cases habsent : w.isAbsent = true
      · have hblames : param.type.BlamesAbsent (.root param.name) arg (.violation violation) :=
          Schema.Reports.blamesAbsent hreports hleads habsent
        exact .inr ⟨_, rfl, hparam, hgiven, hcounts, hblames⟩
      · have hpermissive := hreports.permissive habsent
        exact .inl (hsame (.value hcounts hleads.permissive hpermissive)).symm

/-- The number of arguments is checked alike, so the same holds of the whole check of a call. -/
theorem checkArgs_strict (htextual : ∀ param ∈ params, param.type.isTextual = true) :
    checkArgs false params args = checkArgs true params args ∨
      ∃ rejection, checkArgs false params args = .error rejection ∧
        Param.BlamesAbsent params args rejection := by
  unfold checkArgs
  cases checkCount params args.length with
  | error rejection => exact .inl rfl
  | ok => exact checkEachArg_strict htextual

/-- The outcome under the strict rule refines the one under the permissive rule: what passes under
the former passes under the latter, what passes only under the latter is blamed by the former, and
where nothing absent stands in what is checked they are the same. -/
structure Refines (strict permissive : Except Rejection Unit) (Blamed : Rejection → Prop)
    (present : Prop) : Prop where
  passes : strict = .ok () → permissive = .ok ()
  blames : ∀ rejection, permissive = .ok () → strict = .error rejection → Blamed rejection
  same : present → strict = permissive

/-- An outcome refines another when it is the same or blames what can only be blamed if something
absent is there. -/
theorem Refines.of_same_or_blames {strict permissive : Except Rejection Unit}
    {Blamed : Rejection → Prop} {present : Prop}
    (h : strict = permissive ∨ ∃ rejection, strict = .error rejection ∧ Blamed rejection)
    (hpresent : present → ∀ rejection, ¬ Blamed rejection) :
    Refines strict permissive Blamed present := by
  -- The same outcome satisfies all three; otherwise the strict one fails, and blames.
  rcases h with rfl | ⟨rejection, rfl, hblames⟩
  · refine ⟨id, ?_, fun _ => rfl⟩
    intro rejection hok herror
    rw [hok] at herror
    cases herror
  · refine ⟨nofun, ?_, fun h => absurd hblames (hpresent h rejection)⟩
    rintro _ _ ⟨⟩
    exact hblames

/-- **The strict null rule refines the permissive one**, for values and for the arguments of a call.
What passes only under the permissive rule fails under the strict one for an absent value, which the
report names by its place and its tag. -/
theorem check_strict_refines :
    (∀ schema v path, schema.isTextual = true →
      Refines (check false schema v path) (check true schema v path)
        (schema.BlamesAbsent path v) (v.isPresent = true)) ∧
    (∀ params args, (∀ param ∈ params, param.type.isTextual = true) →
      Refines (checkArgs false params args) (checkArgs true params args)
        (Param.BlamesAbsent params args) (∀ arg ∈ args, arg.isPresent = true)) := by
  constructor
  · intro schema v path htextual
    refine .of_same_or_blames (check_strict htextual) ?_
    intro hpresent rejection hblames
    exact hblames.not_isPresent hpresent
  · intro params args htextual
    refine .of_same_or_blames (checkArgs_strict htextual) ?_
    rintro hpresent rejection ⟨_, harg, _, hblames⟩
    exact hblames.not_isPresent (hpresent _ (List.mem_of_getElem? harg))

/-- A null among the numbers is blamed, three levels down, and the optional argument that is
undefined is not; a boolean among the numbers is reported under either rule. -/
theorem check_strict_refines_nested :
    let shape : Schema := .object .literal
      [⟨"c".text, true, .text "number[][]".text⟩, ⟨"d".text, false, .any⟩]
    let row (last : Value) : Value :=
      .record [("c".text, .list [.list [], .list [.int 1, last]]), ("d".text, .null)]
    let params : List Param :=
      [⟨.text "x".text, .text "string".text, .bool true⟩, ⟨.text "y".text, shape, .bool false⟩]
    (∃ violation, Param.BlamesAbsent params [.undefined, row .null] (.violation violation) ∧
      violation.reason = "Argument 'y.c[1][1]' expected type 'number' but got 'null'.".text) ∧
    checkArgs false params [.text [], .record [("c".text, .list [.list [.bool true]])]] =
      checkArgs true params [.text [], .record [("c".text, .list [.list [.bool true]])]] := by
  intro shape row params
  have hparams : ∀ param ∈ params, param.type.isTextual = true := by decide
  constructor
  · have hrefines := check_strict_refines.2 params [.undefined, row .null] hparams
    exact ⟨_, hrefines.blames _ rfl rfl, rfl⟩
  · exact (check_strict_refines.2 params _ hparams).same (by decide)

end Validation

end RpcContract
