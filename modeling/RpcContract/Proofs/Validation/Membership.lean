import RpcContract.Failure
import RpcContract.Proofs.Induction

/-!
# Checking decides membership

What it means for a value to be of a declared type, said without the check, and the proof that the
check decides it: a value of the type passes, and for every other value a violation is reported.
The same holds of the arguments of a call, where the number of arguments needs no word of its own:
it follows from what is said of each position.
-/

namespace RpcContract

/-- A field may be missing where marks count and it has one. -/
theorem ObjectForm.hasMarks_and_iff {form : ObjectForm} {optional : Bool} :
    (form.hasMarks && optional) = true ↔ form = .literal ∧ optional = true := by
  cases form <;> simp [ObjectForm.hasMarks]

namespace Schema

/-! ## Membership -/

/-- The type texts that name a primitive type. -/
def primitives : List Text := ["string".text, "number".text, "boolean".text]

/-- A type text read as a base with `[]` behind it as often as it can be. -/
structure ReadsAs (t base : Text) (depth : Nat) : Prop where
  text_eq : t = arrayText base depth
  greatest : ∀ other n, t = arrayText other n → n ≤ depth

/-- Whether a value is of a base type with `depth` times `[]` behind it. -/
def AdmitsArray (allowNull : AllowNull) (base : Text) : Nat → Value → Prop
  | 0, v =>
    base = anyText ∨
      if v.isAbsent then allowNull = true else base ∈ primitives → v.tag = base
  | depth + 1, v =>
    if v.isAbsent then allowNull = true
    else ∃ items, v.items? = some items ∧ ∀ item ∈ items, AdmitsArray allowNull base depth item

mutual

/-- Whether a value is of the type that a schema declares. -/
def Admits (allowNull : AllowNull) : Schema → Value → Prop
  | .text t, v => ∃ base depth, ReadsAs t base depth ∧ AdmitsArray allowNull base depth v
  | .object form fields, v =>
    if v.isAbsent then allowNull = true
    else ∃ members, v.members? = some members ∧ AdmitsFields allowNull form fields members
  | .raw _, v => v.isAbsent = true ∧ allowNull = true

/-- Whether every field has a member of its type, or may be missing and is. -/
def AdmitsFields (allowNull : AllowNull) (form : ObjectForm) :
    List (Field Schema) → Assoc Value → Prop
  | [], _ => True
  | ⟨name, optional, schema⟩ :: rest, members =>
    (match Assoc.find? name members with
      | some v => Admits allowNull schema v
      | none => form = .literal ∧ optional = true) ∧
    AdmitsFields allowNull form rest members

end

mutual

/-- Whether all the leaves of a schema are type texts. -/
def isTextual : Schema → Bool
  | .text _ => true
  | .object _ fields => areTextual fields
  | .raw _ => false

def areTextual : List (Field Schema) → Bool
  | [] => true
  | ⟨_, _, schema⟩ :: rest => isTextual schema && areTextual rest

end

theorem areTextual_iff {fields : List (Field Schema)} :
    areTextual fields = true ↔ ∀ field ∈ fields, field.schema.isTextual = true := by
  induction fields with
  | nil => simp [areTextual]
  | cons field rest ih => simp [areTextual, ih]

end Schema

namespace Param

/-- Whether what is given for a parameter is right: a value of its type, or nothing or an absent
value where the parameter is optional. -/
def Admits (allowNull : AllowNull) (param : Param) : Option Value → Prop
  | some arg => (param.optional = true ∧ arg.isAbsent = true) ∨ param.type.Admits allowNull arg
  | none => param.optional = true

/-- Whether the arguments of a call are right: there is a parameter for each, and what is given for
each parameter is right. -/
def AdmitsAll (allowNull : AllowNull) (params : List Param) (args : List Value) : Prop :=
  args.length ≤ params.length ∧
    ∀ (i : Nat) (param : Param), params[i]? = some param → param.Admits allowNull args[i]?

end Param

/-! ## Reading array types -/

theorem arrayText_arrayPartsReversed (r : Text) :
    arrayText (arrayPartsReversed r).1 (arrayPartsReversed r).2 = r.reverse := by
  -- Along the recursion of the check itself: two characters at a time, from the end.
  fun_induction arrayPartsReversed r with
  | case1 rest base depth hparts ih =>
    rw [hparts] at ih
    simp only [arrayText, ih, List.reverse_cons, List.append_assoc]
    rfl
  | case2 t => rfl

/-- A type text is its base with its `[]` behind it. -/
theorem arrayText_arrayParts (t : Text) : arrayText (arrayParts t).1 (arrayParts t).2 = t := by
  rw [arrayParts, arrayText_arrayPartsReversed, List.reverse_reverse]

/-- One more `[]` behind a type text leaves its base. -/
theorem arrayParts_append (t : Text) :
    arrayParts (t ++ "[]".text) = ((arrayParts t).1, (arrayParts t).2 + 1) := by
  have hreverse : (t ++ "[]".text).reverse = .char ']' :: .char '[' :: t.reverse := by
    rw [List.reverse_append]
    rfl
  simp only [arrayParts, hreverse, arrayPartsReversed]

theorem arrayParts_arrayText (base : Text) (n : Nat) :
    arrayParts (arrayText base n) = ((arrayParts base).1, (arrayParts base).2 + n) := by
  -- Over the pairs of brackets; each is taken off by the check.
  induction n with
  | zero => rfl
  | succ n ih => rw [arrayText, arrayParts_append, ih, Nat.add_assoc]

theorem arrayText_inj {base other : Text} {n : Nat} (h : arrayText base n = arrayText other n) :
    base = other := by
  induction n with
  | zero => exact h
  | succ n ih => exact ih (List.append_cancel_right h)

/-- Every type text reads in exactly one way, the one that the check uses. -/
theorem Schema.readsAs_iff {t base : Text} {depth : Nat} :
    ReadsAs t base depth ↔ arrayParts t = (base, depth) := by
  constructor
  · intro h
    have hparts := arrayParts_arrayText base depth
    rw [← h.text_eq] at hparts
    have hle := h.greatest _ _ (arrayText_arrayParts t).symm
    -- The check reads as many as there are, so no reading has more than another that is maximal.
    have hdepth : (arrayParts t).2 = depth := by
      rw [hparts] at hle ⊢
      have : (arrayParts base).2 + depth ≤ depth := hle
      show (arrayParts base).2 + depth = depth
      omega
    have htext := arrayText_arrayParts t
    rw [hdepth, h.text_eq] at htext
    rw [← hdepth, ← arrayText_inj htext, ← h.text_eq]
  · intro h
    refine ⟨?_, ?_⟩
    · have htext := arrayText_arrayParts t
      rw [h] at htext
      exact htext.symm
    · intro other n ht
      have hparts := arrayParts_arrayText other n
      rw [← ht, h] at hparts
      have : depth = (arrayParts other).2 + n := congrArg Prod.snd hparts
      omega

/-- A value is of a type text when it is of its base with its `[]`. -/
theorem Schema.admits_text_iff {allowNull : AllowNull} {t : Text} {v : Value} :
    (Schema.text t).Admits allowNull v ↔
      AdmitsArray allowNull (arrayParts t).1 (arrayParts t).2 v := by
  constructor
  · rintro ⟨base, depth, hreads, hv⟩
    rw [readsAs_iff.1 hreads]
    exact hv
  · intro hv
    exact ⟨_, _, readsAs_iff.2 rfl, hv⟩

namespace Validation

/-! ## What a check decides -/

/-- A result decides a property: where it holds nothing is wrong, and where it does not a violation
is reported and nothing else. -/
def Decides (result : Except Rejection Unit) (P : Prop) : Prop :=
  -- One of the two alternatives, each with what the check says.
  (P ∧ result = .ok ()) ∨ (¬ P ∧ ∃ violation, result = .error (.violation violation))

namespace Decides

variable {P Q : Prop} {result next : Except Rejection Unit}

theorem pass (h : P) : Decides (.ok ()) P := .inl ⟨h, rfl⟩

theorem refuse (h : ¬ P) (violation : Violation) : Decides (.error (.violation violation)) P :=
  .inr ⟨h, violation, rfl⟩

theorem congr (h : P ↔ Q) (hresult : Decides result P) : Decides result Q := by
  rwa [← propext h]

/-- A check that fails with the first of two results and otherwise goes on to the second decides
what both decide. -/
theorem andThen (hresult : Decides result P) (hnext : Decides next Q)
    {whole : Except Rejection Unit}
    (herror : ∀ rejection, result = .error rejection → whole = result)
    (hok : result = .ok () → whole = next) : Decides whole (P ∧ Q) := by
  -- By what the first result is; only if that passes is the second looked at.
  rcases hresult with ⟨hp, hresult⟩ | ⟨hp, violation, hresult⟩
  · rw [hok hresult]
    rcases hnext with ⟨hq, rfl⟩ | ⟨hq, violation, rfl⟩
    · exact pass ⟨hp, hq⟩
    · exact refuse (fun h => hq h.2) violation
  · rw [herror _ hresult, hresult]
    exact refuse (fun h => hp h.1) violation

/-- What passes is exactly what has the property. -/
theorem eq_ok_iff (h : Decides result P) : result = .ok () ↔ P := by
  rcases h with ⟨hp, rfl⟩ | ⟨hp, violation, rfl⟩
  · simp [hp]
  · simp [hp]

end Decides

/-! ## Values -/

theorem checkEach_decides {check : Value → Path → Except Rejection Unit} {P : Value → Prop}
    (items : List Value) (h : ∀ item ∈ items, ∀ path, Decides (check item path) (P item))
    (path : Path) (index : Nat) :
    Decides (checkEach check path index items) (∀ item ∈ items, P item) := by
  -- Over the items, for every index; the head and the rest decide together.
  induction items generalizing index with
  | nil => exact .pass fun item hitem => absurd hitem List.not_mem_nil
  | cons item rest ih =>
    have hitem := h item List.mem_cons_self (path.step (.item index))
    have hrest := ih (fun other hother => h other (List.mem_cons_of_mem _ hother)) (index + 1)
    have hboth : Decides (checkEach check path index (item :: rest))
        (P item ∧ ∀ other ∈ rest, P other) :=
      hitem.andThen hrest (fun _ h => by rw [checkEach, h]) (fun h => by rw [checkEach, h])
    exact hboth.congr List.forall_mem_cons.symm

theorem primitiveTag?_eq (base : Text) :
    primitiveTag? base = if base ∈ Schema.primitives then some base else none := by
  simp [primitiveTag?, Schema.primitives]

/-- The check against a base with `[]` behind it, by induction on how many there are. -/
theorem checkArray_decides (allowNull : AllowNull) (base : Text) (depth : Nat) (v : Value)
    (path : Path) :
    Decides (checkArray allowNull base depth v path)
      (Schema.AdmitsArray allowNull base depth v) := by
  -- Over the depth, for every value and place, since items stand elsewhere.
  induction depth generalizing v path with
  | zero =>
    simp only [checkArray, Schema.AdmitsArray]
    by_cases hany : base = Schema.anyText
    · rw [if_pos hany]
      exact .pass (.inl hany)
    rw [if_neg hany]
    -- Behind `any` the null rule comes before the question of a primitive type.
    by_cases habsent : v.isAbsent = true
    · rw [if_pos habsent, if_pos habsent]
      cases allowNull with
      | true => exact .pass (.inr rfl)
      | false => exact .refuse (by simp [hany]) _
    rw [if_neg habsent, if_neg habsent, primitiveTag?_eq]
    by_cases hprimitive : base ∈ Schema.primitives
    · simp only [if_pos hprimitive]
      by_cases htag : v.tag = base
      · rw [if_pos htag]
        exact .pass (.inr fun _ => htag)
      · rw [if_neg htag]
        exact .refuse (fun h => h.elim hany fun h => htag (h hprimitive)) _
    · -- Of other base types nothing is enforced.
      simp only [if_neg hprimitive]
      exact .pass (.inr fun h => absurd h hprimitive)
  | succ depth ih =>
    simp only [checkArray, Schema.AdmitsArray]
    by_cases habsent : v.isAbsent = true
    · rw [if_pos habsent, if_pos habsent]
      cases allowNull with
      | true => exact .pass rfl
      | false => exact .refuse (by simp) _
    rw [if_neg habsent, if_neg habsent]
    cases hitems : v.items? with
    | none => exact .refuse (by simp) _
    | some items =>
      refine (checkEach_decides items (fun item _ path => ih item path) path 0).congr ?_
      simp

/-- The check of the members of an object, given that of each field. -/
theorem checkFields_decides {allowNull : AllowNull} (form : ObjectForm)
    (fields : List (Field Schema)) (members : Assoc Value) (path : Path)
    (h : ∀ field ∈ fields, ∀ v path,
      Decides (check allowNull field.schema v path) (field.schema.Admits allowNull v)) :
    Decides (checkFields allowNull form fields members path)
      (Schema.AdmitsFields allowNull form fields members) := by
  induction fields with
  | nil => exact .pass trivial
  | cons field rest ih =>
    obtain ⟨name, optional, schema⟩ := field
    have hrest := ih fun other hother => h other (List.mem_cons_of_mem _ hother)
    simp only [checkFields, Schema.AdmitsFields]
    -- A member is checked; without one the field must be allowed to be missing.
    cases hfind : Assoc.find? name members with
    | some v =>
      have hv : Decides (check allowNull schema v (path.step (.member name)))
          (schema.Admits allowNull v) :=
        h ⟨name, optional, schema⟩ List.mem_cons_self v _
      exact hv.andThen hrest (fun _ h => by simp only [h]) (fun h => by simp only [h])
    | none =>
      by_cases hmay : form = .literal ∧ optional = true
      · simp only [if_pos (ObjectForm.hasMarks_and_iff.2 hmay)]
        exact hrest.congr (by simp [hmay])
      · simp only [if_neg (mt ObjectForm.hasMarks_and_iff.1 hmay)]
        exact .refuse (fun h => hmay h.1) _

/-- The check of a value, by induction on the schema. -/
theorem check_decides (allowNull : AllowNull) {schema : Schema} (htextual : schema.isTextual = true)
    (v : Value) (path : Path) :
    Decides (check allowNull schema v path) (schema.Admits allowNull v) := by
  -- Over the schema, for every value and place.
  induction schema using Schema.structural generalizing v path with
  | text t => exact (checkArray_decides allowNull _ _ v path).congr Schema.admits_text_iff.symm
  | raw w => exact absurd htextual (by simp [Schema.isTextual])
  | object form fields ih =>
    have hfields := Schema.areTextual_iff.1 htextual
    simp only [check, Schema.Admits]
    -- The null rule comes first, at this level as at every other.
    by_cases habsent : v.isAbsent = true
    · rw [if_pos habsent, if_pos habsent]
      cases allowNull with
      | true => exact .pass rfl
      | false => exact .refuse (by simp) _
    rw [if_neg habsent, if_neg habsent]
    cases hmembers : v.members? with
    | none => exact .refuse (by simp) _
    | some members =>
      refine (checkFields_decides form fields members path
        fun field hfield v path => ih field hfield (hfields field hfield) v path).congr ?_
      simp

/-! ## Arguments -/

/-- Where what is given for each parameter is right, no required parameter is without an argument:
the least number of arguments is met. -/
theorem least_le_length {allowNull : AllowNull} {params : List Param} {args : List Value}
    (h : ∀ (i : Nat) (param : Param), params[i]? = some param → param.Admits allowNull args[i]?) :
    Param.least params ≤ args.length := by
  induction params generalizing args with
  | nil => exact Nat.zero_le _
  | cons param rest ih =>
    -- Where the arguments are used up, no parameter that is left can be required.
    cases args with
    | nil =>
      have hoptional : param.optional = true := h 0 param rfl
      have hothers : ∀ (i : Nat) (other : Param), rest[i]? = some other →
          other.Admits allowNull ([] : List Value)[i]? := fun i other hother => by
        simpa using h (i + 1) other (by simpa using hother)
      simpa [Param.least, List.countP_cons, hoptional] using ih hothers
    | cons arg args =>
      have hrest : Param.least rest ≤ args.length := ih fun i other hother => by
        simpa using h (i + 1) other (by simpa using hother)
      simp only [Param.least, List.countP_cons, List.length_cons] at hrest ⊢
      split <;> omega

/-- What is given for each of several parameters is right when it is for the first and for the
others. -/
theorem forall_admits_cons {allowNull : AllowNull} {param : Param} {params : List Param}
    {args : List Value} :
    (∀ (i : Nat) (p : Param), (param :: params)[i]? = some p → p.Admits allowNull args[i]?) ↔
      param.Admits allowNull args.head? ∧
        ∀ (i : Nat) (p : Param), params[i]? = some p → p.Admits allowNull args.tail[i]? := by
  constructor
  · intro h
    refine ⟨?_, ?_⟩
    · simpa [List.head?_eq_getElem?] using h 0 param rfl
    · intro i p hp
      simpa using h (i + 1) p (by simpa using hp)
  · rintro ⟨hhead, htail⟩ i p hp
    -- The first position is the head, any later one is one of the tail.
    cases i with
    | zero =>
      simp only [List.getElem?_cons_zero, Option.some.injEq] at hp
      rw [← hp, ← List.head?_eq_getElem?]
      exact hhead
    | succ i => simpa using htail i p (by simpa using hp)

theorem checkEachArg_decides {allowNull : AllowNull} {params : List Param}
    (htextual : ∀ param ∈ params, param.type.isTextual = true) (args : List Value) :
    Decides (checkEachArg allowNull params args)
      (∀ (i : Nat) (param : Param), params[i]? = some param → param.Admits allowNull args[i]?) := by
  -- Over the parameters, for every list of arguments.
  induction params generalizing args with
  | nil => exact .pass (by simp)
  | cons param rest ih =>
    have hrest := ih fun other hother => htextual other (List.mem_cons_of_mem _ hother)
    refine .congr forall_admits_cons.symm ?_
    cases args with
    | nil =>
      simp only [checkEachArg, List.head?_nil, List.tail_nil]
      by_cases hoptional : param.optional = true
      · rw [if_pos hoptional]
        have hnothing : param.Admits allowNull none := hoptional
        exact (hrest []).congr (and_iff_right hnothing).symm
      · rw [if_neg hoptional]
        exact .refuse (fun h => hoptional h.1) _
    | cons arg args =>
      simp only [checkEachArg, List.head?_cons, List.tail_cons]
      by_cases hskip : param.optional = true ∧ arg.isAbsent = true
      · rw [if_pos (by simpa using hskip)]
        have habsent : param.Admits allowNull (some arg) := .inl hskip
        exact (hrest args).congr (and_iff_right habsent).symm
      · -- The argument counts, so only the check of its type is left.
        rw [if_neg (by simpa using hskip)]
        have hcheck := check_decides allowNull (htextual param List.mem_cons_self) arg
          (.root param.name)
        refine .congr (and_congr_left fun _ => (or_iff_right hskip).symm) ?_
        exact hcheck.andThen (hrest args) (fun _ h => by rw [h]) (fun h => by rw [h])

/-- The check of the arguments of a call.  The least number of arguments is checked first, but says
nothing that the check of the positions would not say. -/
theorem checkArgs_decides (allowNull : AllowNull) {params : List Param}
    (htextual : ∀ param ∈ params, param.type.isTextual = true) (args : List Value) :
    Decides (checkArgs allowNull params args) (Param.AdmitsAll allowNull params args) := by
  have hcount : Decides (checkCount params args.length)
      (Param.least params ≤ args.length ∧ args.length ≤ params.length) := by
    unfold checkCount
    -- The most that can be given is the number of parameters, by definition.
    by_cases hwithin : Param.least params ≤ args.length ∧ args.length ≤ Param.most params
    · rw [if_pos hwithin]
      exact .pass hwithin
    · rw [if_neg hwithin]
      exact .refuse hwithin _
  have heach : Decides (checkEachArg allowNull params args) _ := checkEachArg_decides htextual args
  -- The count and the positions together decide a conjunction with one part too many.
  have hboth : Decides (checkArgs allowNull params args) _ :=
    hcount.andThen heach (fun _ h => by rw [checkArgs, h]) (fun h => by rw [checkArgs, h])
  refine hboth.congr ?_
  constructor
  · rintro ⟨⟨_, hmost⟩, heach⟩
    exact ⟨hmost, heach⟩
  · rintro ⟨hmost, heach⟩
    exact ⟨⟨least_le_length heach, hmost⟩, heach⟩

/-! ## The two decisions -/

/-- **The check accepts exactly the declared type.**  It decides membership of a value in a schema
whose leaves are type texts, and of the arguments of a call in parameters with such schemas; what it
reports of the others is a violation, which fails the validation. -/
theorem check_decides_membership (allowNull : AllowNull) :
    (∀ schema v path, schema.isTextual = true →
      Decides (check allowNull schema v path) (schema.Admits allowNull v)) ∧
    (∀ params args, (∀ param ∈ params, param.type.isTextual = true) →
      Decides (checkArgs allowNull params args) (Param.AdmitsAll allowNull params args)) ∧
    (∀ ns function violation, ∃ report,
      Failure.ofRejection ns function (.violation violation) = .validation report) := by
  refine ⟨?_, ?_, ?_⟩
  · intro schema v path htextual
    exact check_decides allowNull htextual v path
  · intro params args htextual
    exact checkArgs_decides allowNull htextual args
  · intro ns function violation
    exact ⟨_, rfl⟩

/-- An optional member may be missing but not of another type, and a boolean is no number; an
optional argument in front of a required one may be absent but not left out. -/
theorem check_decides_membership_nested :
    let shape : Schema := .object .literal
      [⟨"a".text, false, .text "number[]".text⟩, ⟨"b".text, true, .text "string".text⟩]
    let params : List Param :=
      [⟨.text "x".text, shape, .bool true⟩, ⟨.text "y".text, .text "string".text, .bool false⟩]
    shape.Admits true (.record [("a".text, .list [.int 1, .null])]) ∧
    ¬ shape.Admits true (.record [("a".text, .list [.bool true])]) ∧
    Param.AdmitsAll false params [.undefined, .text "t".text] ∧
    ¬ Param.AdmitsAll false params [.undefined] := by
  intro shape params
  have hshape : shape.isTextual = true := by decide
  have hparams : ∀ param ∈ params, param.type.isTextual = true := by decide
  refine ⟨?_, ?_, ?_, ?_⟩
  · exact ((check_decides_membership true).1 shape _ (.root .null) hshape).eq_ok_iff.1 rfl
  · intro h
    -- If it were a member the check would pass, and it is seen to fail.
    have hpass : Except.error _ = Except.ok () :=
      ((check_decides_membership true).1 shape _ (.root .null) hshape).eq_ok_iff.2 h
    cases hpass
  · exact ((check_decides_membership false).2.1 params _ hparams).eq_ok_iff.1 rfl
  · intro h
    have hpass : Except.error _ = Except.ok () :=
      ((check_decides_membership false).2.1 params _ hparams).eq_ok_iff.2 h
    cases hpass

end Validation

end RpcContract
