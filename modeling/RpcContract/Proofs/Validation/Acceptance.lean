import RpcContract.Proofs.Validation.TypeText

/-!
# What passes a check

Whether a value passes depends on the schema, the value and the null rule alone, not on where the
value stands.  This holds of every schema, also of one that no present value can be checked against:
what passes is what is of the declared type.  So it is with the arguments of a call.
-/

namespace RpcContract

namespace Schema

/-- Whether an object has a member of a field's type, or may do without one and does. -/
def AdmitsField (allowNull : AllowNull) (form : ObjectForm) (field : Field Schema)
    (members : Assoc Value) : Prop :=
  match Assoc.find? field.name members with
  | some v => field.schema.Admits allowNull v
  | none => form = .literal ∧ field.optional = true

theorem admitsFields_iff {allowNull : AllowNull} {form : ObjectForm} {fields : List (Field Schema)}
    {members : Assoc Value} :
    AdmitsFields allowNull form fields members ↔
      ∀ field ∈ fields, AdmitsField allowNull form field members := by
  induction fields with
  | nil => simp [AdmitsFields]
  | cons field rest ih =>
    rw [AdmitsFields, List.forall_mem_cons, ih]
    rfl

/-- An object that has what a field asks for has what a field of the same name asks for that takes
every such value and may be missing where the other may. -/
theorem AdmitsField.weaken {allowNull other : AllowNull} {form : ObjectForm}
    {field old : Field Schema} {members : Assoc Value} (hname : old.name = field.name)
    (htype : ∀ v, old.schema.Admits allowNull v → field.schema.Admits other v)
    (hmark : old.optional = true → field.optional = true)
    (h : AdmitsField allowNull form old members) : AdmitsField other form field members := by
  unfold AdmitsField at h ⊢
  rw [hname] at h
  -- Both look the same name up, so either finds the same value or neither finds one.
  cases hfind : Assoc.find? field.name members with
  | none =>
    rw [hfind] at h
    exact ⟨h.1, hmark h.2⟩
  | some v =>
    rw [hfind] at h
    exact htype v h

/-- Everything is of the type `any`. -/
theorem admits_any (allowNull : AllowNull) (v : Value) : Schema.any.Admits allowNull v := by
  apply admits_text_iff.2
  exact .inl rfl

end Schema

namespace Validation

variable {allowNull : AllowNull}

/-! ## Values -/

theorem checkFields_eq_ok_iff {form : ObjectForm} {fields : List (Field Schema)}
    (h : ∀ field ∈ fields, ∀ v path,
      check allowNull field.schema v path = .ok () ↔ field.schema.Admits allowNull v)
    (members : Assoc Value) (path : Path) :
    checkFields allowNull form fields members path = .ok () ↔
      Schema.AdmitsFields allowNull form fields members := by
  induction fields with
  | nil => simp [checkFields, Schema.AdmitsFields]
  | cons field rest ih =>
    obtain ⟨name, optional, schema⟩ := field
    -- The first field passes or stops the check; the rest is checked as if it came first.
    have hrest := ih fun other hother => h other (List.mem_cons_of_mem _ hother)
    rw [checkFields, Schema.AdmitsFields, ← hrest]
    cases Assoc.find? name members with
    | none =>
      -- Without the member the check asks whether the form has marks and the field is marked.
      simp only [← ObjectForm.hasMarks_and_iff]
      split
      · rename_i hmay
        simp [hmay]
      · rename_i hmay
        simp [hmay]
    | some v =>
      have hv : check allowNull schema v (path.step (.member name)) = .ok () ↔
          schema.Admits allowNull v := h _ List.mem_cons_self v _
      simp only [← hv]
      cases check allowNull schema v (path.step (.member name)) with
      | error rejection => simp
      | ok => simp

/-- **What passes a check is what is of the declared type**, wherever it stands. -/
theorem check_eq_ok_iff {schema : Schema} {v : Value} {path : Path} :
    check allowNull schema v path = .ok () ↔ schema.Admits allowNull v := by
  -- Over the schema, for every value and path; only an object has parts.
  induction schema using Schema.structural generalizing v path with
  | text t => exact check_text_eq_ok_iff
  | raw w =>
    rw [check, Schema.Admits]
    by_cases habsent : v.isAbsent = true
    · cases allowNull <;> simp [habsent, mismatch]
    · simp [habsent]
  | object form fields ih =>
    rw [check, Schema.Admits]
    -- A value that is absent is decided by the null rule, whatever the fields are.
    by_cases habsent : v.isAbsent = true
    · cases allowNull <;> simp [habsent, mismatch]
    · rw [if_neg habsent, if_neg habsent]
      cases v.members? with
      | none => simp [mismatch]
      | some members =>
        have hfields : checkFields allowNull form fields members path = .ok () ↔
            Schema.AdmitsFields allowNull form fields members :=
          checkFields_eq_ok_iff (fun field hfield v path => ih field hfield) members path
        simpa using hfields

/-! ## Arguments -/

theorem checkEachArg_eq_ok_iff {params : List Param} {args : List Value} :
    checkEachArg allowNull params args = .ok () ↔
      ∀ (i : Nat) (param : Param), params[i]? = some param → param.Admits allowNull args[i]? := by
  -- Over the parameters, for every list of arguments; where it is used up nothing is given.
  induction params generalizing args with
  | nil => simp [checkEachArg]
  | cons param rest ih =>
    rw [forall_admits_cons, ← ih]
    cases args with
    | nil =>
      simp only [checkEachArg, List.head?_nil, List.tail_nil, Param.Admits]
      split
      · rename_i hoptional
        simp [hoptional]
      · rename_i hrequired
        simp [hrequired]
    | cons arg args =>
      simp only [checkEachArg, List.head?_cons, List.tail_cons, Param.Admits]
      have hcheck : check allowNull param.type arg (.root param.name) = .ok () ↔
          param.type.Admits allowNull arg := check_eq_ok_iff
      rw [← hcheck]
      -- An absent value for an optional parameter is passed over, and only that.
      by_cases hskip : param.optional = true ∧ arg.isAbsent = true
      · simp [hskip]
      · rw [if_neg (by simpa using hskip)]
        cases check allowNull param.type arg (.root param.name) with
        | error rejection => simp [hskip]
        | ok => simp

theorem checkCount_eq_ok_iff {params : List Param} {given : Nat} :
    checkCount params given = .ok () ↔ Param.least params ≤ given ∧ given ≤ Param.most params := by
  unfold checkCount
  split
  · rename_i hwithin
    simp [hwithin]
  · rename_i hbeyond
    simp [hbeyond]

/-- The arguments that pass are those that are right one by one; their least number follows. -/
theorem checkArgs_eq_ok_iff {params : List Param} {args : List Value} :
    checkArgs allowNull params args = .ok () ↔ Param.AdmitsAll allowNull params args := by
  constructor
  · intro hpass
    unfold checkArgs at hpass
    split at hpass
    · exact absurd hpass (by simp)
    · -- What is right one by one includes every required parameter, so there are enough arguments.
      rename_i hcount
      exact ⟨(checkCount_eq_ok_iff.1 hcount).2, checkEachArg_eq_ok_iff.1 hpass⟩
  · rintro ⟨hmost, heach⟩
    have hcount : checkCount params args.length = .ok () :=
      checkCount_eq_ok_iff.2 ⟨least_le_length heach, hmost⟩
    rw [checkArgs, hcount]
    exact checkEachArg_eq_ok_iff.2 heach

end Validation

end RpcContract
