import RpcContract.Proofs.Validation.Acceptance

/-!
# What fails a check

A check goes through the items of an array, the fields of an object and the parameters of a call in
their order.  It fails at the first of them at which something is wrong, with what is wrong there, and
everything in front of that is right.
-/

namespace RpcContract

/-! ## The first element of a list -/

/-- Something is found at an element of a list, and all that stands in front of it is fine. -/
def FirstAt {α : Type} (fine found : Nat → α → Prop) (l : List α) : Prop :=
  ∃ i x, l[i]? = some x ∧ found i x ∧ ∀ j < i, ∀ y, l[j]? = some y → fine j y

namespace FirstAt

variable {α : Type} {fine found : Nat → α → Prop} {a : α} {l : List α}

theorem not_nil : ¬ FirstAt fine found [] := by
  rintro ⟨i, x, hx, _⟩
  simp at hx

theorem cons_iff : FirstAt fine found (a :: l) ↔
    found 0 a ∨ (fine 0 a ∧ FirstAt (fun i => fine (i + 1)) (fun i => found (i + 1)) l) := by
  constructor
  · rintro ⟨i, x, hx, hfound, hfine⟩
    -- The place is the first one, or one behind it, counted from there.
    cases i with
    | zero =>
      obtain rfl : a = x := by simpa using hx
      exact .inl hfound
    | succ i =>
      right
      refine ⟨hfine 0 (Nat.succ_pos i) a rfl, i, x, by simpa using hx, hfound, ?_⟩
      intro j hj y hy
      exact hfine (j + 1) (Nat.succ_lt_succ hj) y (by simpa using hy)
  · rintro (hfound | ⟨hhead, i, x, hx, hfound, hfine⟩)
    · exact ⟨0, a, rfl, hfound, fun j hj => absurd hj (Nat.not_lt_zero j)⟩
    · refine ⟨i + 1, x, by simpa using hx, hfound, ?_⟩
      intro j hj y hy
      -- In front of it stands the head, and what was in front of it before.
      cases j with
      | zero =>
        obtain rfl : a = y := by simpa using hy
        exact hhead
      | succ j => exact hfine j (Nat.lt_of_succ_lt_succ hj) y (by simpa using hy)

end FirstAt

namespace Validation

open Schema (AdmitsField)

variable {allowNull : AllowNull} {rejection : Rejection} {path : Path}

/-! ## Items, fields and parameters -/

theorem checkEach_eq_error_iff {check : Value → Path → Except Rejection Unit} {P : Value → Prop}
    (hcheck : ∀ item path, check item path = .ok () ↔ P item) (index : Nat) {items : List Value} :
    checkEach check path index items = .error rejection ↔
      FirstAt (fun _ => P)
        (fun i item => check item (path.step (.item (index + i))) = .error rejection) items := by
  -- Over the items, for every index; the place of an item is its distance from that index.
  induction items generalizing index with
  | nil => simp [checkEach, FirstAt.not_nil]
  | cons item rest ih =>
    rw [FirstAt.cons_iff, checkEach, ← hcheck item (path.step (.item index)), Nat.add_zero]
    cases check item (path.step (.item index)) with
    | error found => simp
    | ok => simp only [ih, Nat.add_assoc, Nat.add_comm 1, reduceCtorEq, true_and, false_or]

/-- What is wrong at a field of an object: the member that it must have is missing, or the member
that it has is not of its type. -/
def FieldFails (allowNull : AllowNull) (form : ObjectForm) (members : Assoc Value) (path : Path)
    (rejection : Rejection) (field : Field Schema) : Prop :=
  (Assoc.find? field.name members = none ∧ ¬ (form = .literal ∧ field.optional = true) ∧
    rejection = .violation (.missing path field.name)) ∨
  ∃ u, Assoc.find? field.name members = some u ∧
    check allowNull field.schema u (path.step (.member field.name)) = .error rejection

theorem checkFields_eq_error_iff {form : ObjectForm} {fields : List (Field Schema)}
    {members : Assoc Value} :
    checkFields allowNull form fields members path = .error rejection ↔
      FirstAt (fun _ field => AdmitsField allowNull form field members)
        (fun _ => FieldFails allowNull form members path rejection) fields := by
  induction fields with
  | nil => simp [checkFields, FirstAt.not_nil]
  | cons field rest ih =>
    obtain ⟨name, optional, schema⟩ := field
    rw [FirstAt.cons_iff, checkFields, ← ih]
    unfold FieldFails AdmitsField
    -- The member is missing, or there is one; a field that may be missing is passed over.
    cases Assoc.find? name members with
    | none =>
      by_cases hmay : form = .literal ∧ optional = true
      · rw [if_pos (ObjectForm.hasMarks_and_iff.2 hmay)]
        simp [hmay]
      · rw [if_neg (mt ObjectForm.hasMarks_and_iff.1 hmay), Except.error.injEq, eq_comm]
        simp [hmay]
    | some u =>
      have hpass : check allowNull schema u (path.step (.member name)) = .ok () ↔
          schema.Admits allowNull u := check_eq_ok_iff
      simp only [← hpass]
      cases hcheck : check allowNull schema u (path.step (.member name)) with
      | error found => simp [hcheck]
      | ok => simp [hcheck]

/-- What is wrong with what is given for a parameter: nothing is given but must be, or a value that
counts is not of the type. -/
def ArgFails (allowNull : AllowNull) (rejection : Rejection) (param : Param) :
    Option Value → Prop
  | none => param.optional = false ∧ rejection = .violation (.notProvided param.name)
  | some arg => ¬ (param.optional = true ∧ arg.isAbsent = true) ∧
      check allowNull param.type arg (.root param.name) = .error rejection

theorem checkEachArg_eq_error_iff {params : List Param} {args : List Value} :
    checkEachArg allowNull params args = .error rejection ↔
      FirstAt (fun i param => param.Admits allowNull args[i]?)
        (fun i param => ArgFails allowNull rejection param args[i]?) params := by
  -- Over the parameters, for every list of arguments; behind its end nothing is given.
  induction params generalizing args with
  | nil => simp [checkEachArg, FirstAt.not_nil]
  | cons param rest ih =>
    rw [FirstAt.cons_iff]
    cases args with
    | nil =>
      have hrest := @ih []
      simp only [List.getElem?_nil] at hrest ⊢
      rw [checkEachArg, ← hrest, ArgFails, Param.Admits]
      -- Nothing is given: an optional parameter is passed over, a required one is what fails.
      cases param.optional with
      | true => simp only [if_true, reduceCtorEq, false_and, false_or, true_and]
      | false =>
        simp only [Bool.false_eq_true, if_false, Except.error.injEq, true_and, false_and, or_false]
        exact eq_comm
    | cons arg args =>
      have hrest := @ih args
      have hpass : check allowNull param.type arg (.root param.name) = .ok () ↔
          param.type.Admits allowNull arg := check_eq_ok_iff
      simp only [List.getElem?_cons_zero, List.getElem?_cons_succ]
      rw [checkEachArg, ← hrest, ArgFails, Param.Admits, ← hpass]
      -- An absent value for an optional parameter does not count.
      by_cases hskip : param.optional = true ∧ arg.isAbsent = true
      · simp [hskip]
      · rw [if_neg (by simpa using hskip)]
        cases check allowNull param.type arg (.root param.name) with
        | error found => simp [hskip]
        | ok => simp [hskip]

end Validation

end RpcContract
