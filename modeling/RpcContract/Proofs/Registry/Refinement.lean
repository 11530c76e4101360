import RpcContract.Proofs.Registry.Lookup

/-!
# A builder refines its history

Whatever is asked of a builder, in whichever order, each registration succeeds exactly when the
history so far grants it, and the builder holds what the history says.  One registration ends in
one of three ways, and each of the others is a sequence of such.
-/

namespace RpcContract

/-! ## Declarations -/

theorem bind_eq_ok_iff {ε α β : Type} {x : Except ε α} {f : α → Except ε β} {b : β} :
    x >>= f = .ok b ↔ ∃ a, x = .ok a ∧ f a = .ok b := by
  cases x <;> simp [bind, Except.bind]

theorem Value.toTrim_eq_ok_iff {v : Value} {t : Text} : v.toTrim = .ok t ↔ v = .text t := by
  cases v <;> simp [Value.toTrim]

namespace Declaration

theorem toParam_eq_ok_iff {d : Declaration} {p : Param} : d.toParam = .ok p ↔ d.Declares p := by
  constructor
  · -- The four forms that declare something, in the order in which they are told apart.
    intro h
    unfold toParam at h
    split at h
    · cases h
      exact .param _
    · cases h
      exact .name _
    · obtain ⟨label, hlabel, h⟩ := bind_eq_ok_iff.1 h
      obtain ⟨type, htype, h⟩ := bind_eq_ok_iff.1 h
      obtain rfl := Value.toTrim_eq_ok_iff.1 hlabel
      obtain rfl := Value.toTrim_eq_ok_iff.1 htype
      cases h
      exact .typed label type
    · obtain ⟨label, hlabel, h⟩ := bind_eq_ok_iff.1 h
      obtain ⟨type, htype, h⟩ := bind_eq_ok_iff.1 h
      obtain rfl := Value.toTrim_eq_ok_iff.1 hlabel
      obtain rfl := Value.toTrim_eq_ok_iff.1 htype
      cases h
      exact .marked label type _
    · cases h
    · cases h
  · rintro (_ | _ | _ | _) <;> rfl

theorem mapM_toParam_eq_ok_iff {declarations : List Declaration} {params : List Param} :
    declarations.mapM toParam = .ok params ↔ List.Forall₂ Declares declarations params := by
  induction declarations generalizing params with
  | nil =>
    rw [List.forall₂_nil_left_iff, List.mapM_nil]
    exact ⟨fun h => (Except.ok.inj h).symm, fun h => congrArg _ h.symm⟩
  -- Both read the first declaration and then the others; the reader stops where one of them fails.
  | cons d rest ih =>
    rw [List.mapM_cons, List.forall₂_cons_left_iff, bind_eq_ok_iff]
    constructor
    · rintro ⟨p, hp, h⟩
      obtain ⟨others, hothers, h⟩ := bind_eq_ok_iff.1 h
      cases h
      exact ⟨p, others, toParam_eq_ok_iff.1 hp, ih.1 hothers, rfl⟩
    · rintro ⟨p, others, hp, hothers, rfl⟩
      exact ⟨p, toParam_eq_ok_iff.2 hp, bind_eq_ok_iff.2 ⟨others, ih.2 hothers, rfl⟩⟩

end Declaration

namespace Builder

theorem isOk_map {α : Type} (result : Except Failure α) :
    (result.map fun _ => ()).isOk = result.isOk := by
  cases result <;> rfl

/-! ## One registration -/

/-- A name may be registered when it is free or may be taken over. -/
theorem taken_eq_none_iff {overwrite : Bool} {found : Option Registered} :
    (if overwrite then none else found) = none ↔ found = none ∨ overwrite = true := by
  cases overwrite <;> simp

section Register

variable (b : Builder) (ns name : Text) (declarations : List Declaration) (overwrite : Bool)

theorem register_of_frozen (hfrozen : b.isFrozen = true) (fn : Export) :
    b.register ns name fn declarations overwrite = (.error (.registry (.frozen ns name)), b) := by
  unfold register
  rw [if_pos hfrozen]

/-- A registration writes its entry, or fails behind its namespace, or fails at once. -/
theorem register_cases (fn : Export) :
    (∃ f params, fn = .function f ∧ b.isFrozen = false ∧
      (Assoc.find? name (functions b.table ns) = none ∨ overwrite = true) ∧
      List.Forall₂ Declaration.Declares declarations params ∧
      b.register ns name fn declarations overwrite =
        (.ok ⟨f, params⟩, { b with table := enter ns name ⟨f, params⟩ b.table })) ∨
    (∃ f failure, fn = .function f ∧ b.isFrozen = false ∧
      (∀ params, (Assoc.find? name (functions b.table ns) = none ∨ overwrite = true) →
        ¬ List.Forall₂ Declaration.Declares declarations params) ∧
      b.register ns name fn declarations overwrite =
        (.error failure, { b with table := addNamespace ns b.table })) ∨
    (∃ failure, (b.isFrozen = true ∨ ∃ v, fn = .value v) ∧
      b.register ns name fn declarations overwrite = (.error failure, b)) := by
  -- The cases are in the order of the checks: frozen, no function, name taken, declarations.
  by_cases hfrozen : b.isFrozen = true
  · have hregister := register_of_frozen b ns name declarations overwrite hfrozen fn
    exact .inr (.inr ⟨_, .inl hfrozen, hregister⟩)
  have hopen : b.isFrozen = false := Bool.eq_false_iff.2 hfrozen
  cases fn with
  | value v =>
    have hregister : b.register ns name (.value v) declarations overwrite =
        (.error (.registry (.notCallable ns name v.display)), b) := by
      unfold register
      rw [if_neg hfrozen]
    exact .inr (.inr ⟨_, .inr ⟨v, rfl⟩, hregister⟩)
  | function f =>
    cases htaken : (if overwrite then none else Assoc.find? name (functions b.table ns)) with
    -- The name is taken and may not be overwritten.
    | some old =>
      have hregister : b.register ns name (.function f) declarations overwrite =
          (.error (.registry (.alreadyRegistered ns name old.shown)),
            { b with table := addNamespace ns b.table }) := by
        simp only [register, hopen, Bool.false_eq_true, if_false, functions_addNamespace, htaken]
      have hnever : ¬ (Assoc.find? name (functions b.table ns) = none ∨ overwrite = true) := by
        intro hmay
        rw [taken_eq_none_iff.2 hmay] at htaken
        cases htaken
      exact .inr (.inl ⟨f, _, rfl, hopen, fun params hmay => absurd hmay hnever, hregister⟩)
    | none =>
      have hmay := taken_eq_none_iff.1 htaken
      cases hparams : declarations.mapM Declaration.toParam with
      -- A declaration declares nothing; by then the namespace is there.
      | error failure =>
        have hregister : b.register ns name (.function f) declarations overwrite =
            (.error failure, { b with table := addNamespace ns b.table }) := by
          simp only [register, hopen, Bool.false_eq_true, if_false, functions_addNamespace, htaken,
            hparams]
        refine .inr (.inl ⟨f, failure, rfl, hopen, fun params _ hdeclared => ?_, hregister⟩)
        rw [Declaration.mapM_toParam_eq_ok_iff.2 hdeclared] at hparams
        cases hparams
      -- Nothing stands in the way.
      | ok params =>
        have hregister : b.register ns name (.function f) declarations overwrite =
            (.ok ⟨f, params⟩, { b with table := enter ns name ⟨f, params⟩ b.table }) := by
          simp only [register, hopen, Bool.false_eq_true, if_false, functions_addNamespace, htaken,
            hparams, enter]
        have hdeclared := Declaration.mapM_toParam_eq_ok_iff.1 hparams
        exact .inl ⟨f, params, rfl, hopen, hmay, hdeclared, hregister⟩

end Register

/-! ## One step -/

/-- A builder agrees with a history. -/
structure Agrees (b : Builder) (h : History) : Prop where
  isFrozen : b.isFrozen = true ↔ .frozen ∈ h
  table : Matches b.table h.untilFreeze

namespace Agrees

variable {b : Builder} {h : History}

theorem start : Agrees .empty [] := ⟨by simp [empty], .nil⟩

theorem isOpen (ha : Agrees b h) (hopen : b.isFrozen = false) : .frozen ∉ h := by
  intro hfrozen
  rw [ha.isFrozen.2 hfrozen] at hopen
  cases hopen

theorem matches_of_open (ha : Agrees b h) (hopen : b.isFrozen = false) : Matches b.table h := by
  have htable := ha.table
  rwa [History.untilFreeze_of_open (ha.isOpen hopen)] at htable

/-- An open builder agrees with a longer history when its new table does. -/
theorem of_open (ha : Agrees b h) (hopen : b.isFrozen = false) {e : Event} (he : e ≠ .frozen)
    {table : Table} (hm : Matches table (h ++ [e])) : Agrees { b with table := table } (h ++ [e]) where
  isFrozen := by simp [hopen, ha.isOpen hopen, Ne.symm he]
  table := by
    -- The event is no freeze, so the history that counts is all of it.
    rw [History.untilFreeze_concat_of_open (ha.isOpen hopen) he]
    exact hm

/-- A builder that is frozen has no eye for what is refused, and neither has one without anything
to call. -/
theorem refused (ha : Agrees b h) {r : Registration}
    (hearly : b.isFrozen = true ∨ (Event.refused r).reached? = none) :
    Agrees b (h ++ [.refused r]) := by
  -- A frozen builder has passed its freeze, so the event does not count any more.
  by_cases hfrozen : b.isFrozen = true
  · have hmem := ha.isFrozen.1 hfrozen
    refine ⟨by simp [hfrozen, hmem], ?_⟩
    rw [History.untilFreeze_concat_of_frozen hmem]
    exact ha.table
  · have hopen : b.isFrozen = false := Bool.eq_false_iff.2 hfrozen
    have hreached := hearly.resolve_left hfrozen
    exact ha.of_open hopen (by simp) ((ha.matches_of_open hopen).unreached hreached)

theorem freeze (ha : Agrees b h) : Agrees b.freeze (h ++ [.frozen]) where
  isFrozen := by simp [Builder.freeze]
  table := by
    rw [History.untilFreeze_concat_frozen]
    exact ha.table

/-- Nothing is granted where there is nothing to call. -/
theorem refused_of_missing (ha : Agrees b h) {r : Registration}
    (hmissing : r.name = none ∨ r.fn = none ∨ ∃ v, r.fn = some (.value v)) :
    (∀ name entry, ¬ h.Grants r name entry) ∧ Agrees b (h ++ [.refused r]) := by
  obtain ⟨ns, label, fn, declarations, overwrite⟩ := r
  constructor
  · rintro name entry ⟨-, hname, hfn, -, -⟩
    simp only at hname hfn hmissing
    simp [hname, hfn] at hmissing
  · -- Without a name or a function the event does not say that a namespace was reached.
    refine ha.refused (.inr ?_)
    obtain hnone | hnone | ⟨v, hvalue⟩ := hmissing
    · cases hnone
      rfl
    · cases hnone
      cases label <;> rfl
    · cases hvalue
      cases label <;> rfl

/-- A registration succeeds exactly when the history grants it, and the builder goes on to agree. -/
theorem register (ha : Agrees b h) (ns name : Text) (fn : Export) (declarations : List Declaration)
    (overwrite : Bool) :
    (∃ entry, h.Grants ⟨ns, some name, some fn, declarations, overwrite⟩ name entry ∧
      (b.register ns name fn declarations overwrite).1 = .ok entry ∧
      Agrees (b.register ns name fn declarations overwrite).2 (h ++ [.granted ns name entry])) ∨
    ((∀ label entry, ¬ h.Grants ⟨ns, some name, some fn, declarations, overwrite⟩ label entry) ∧
      (∃ failure, (b.register ns name fn declarations overwrite).1 = .error failure) ∧
      Agrees (b.register ns name fn declarations overwrite).2
        (h ++ [.refused ⟨ns, some name, some fn, declarations, overwrite⟩])) := by
  obtain ⟨f, params, rfl, hopen, hmay, hdeclared, hregister⟩ |
    ⟨f, failure, rfl, hopen, hnever, hregister⟩ | ⟨failure, hearly, hregister⟩ :=
    register_cases b ns name declarations overwrite fn
  · -- It was granted: the name is free in the history as it is in the table.
    have hm := ha.matches_of_open hopen
    rw [hregister]
    refine .inl ⟨⟨f, params⟩, ⟨ha.isOpen hopen, rfl, rfl, ?_, hdeclared⟩, rfl, ?_⟩
    · simpa only [hm.found] using hmay
    · exact ha.of_open hopen (by simp) (hm.granted ns name ⟨f, params⟩)
  · -- The namespace stays behind, and nothing else shows that there was an attempt.
    have hm := ha.matches_of_open hopen
    rw [hregister]
    refine .inr ⟨?_, ⟨failure, rfl⟩, ha.of_open hopen (by simp) (hm.reached rfl)⟩
    rintro label entry ⟨-, hname, -, hfree, hdeclared⟩
    obtain rfl := Option.some.inj hname
    rw [← hm.found] at hfree
    exact hnever entry.params hfree hdeclared
  · -- Whichever of the two checks fails, the history rules a grant out for the same reason.
    rw [hregister]
    obtain hfrozen | ⟨v, rfl⟩ := hearly
    · refine .inr ⟨?_, ⟨failure, rfl⟩, ha.refused (.inl hfrozen)⟩
      intro label entry hgrants
      exact hgrants.unfrozen (ha.isFrozen.1 hfrozen)
    · obtain ⟨hnever, hrefused⟩ := ha.refused_of_missing
        (r := ⟨ns, some name, some (.value v), declarations, overwrite⟩) (.inr (.inr ⟨v, rfl⟩))
      exact .inr ⟨hnever, ⟨failure, rfl⟩, hrefused⟩

end Agrees

/-! ## Exporting, and registering what a module exports -/

theorem exportAs_eq (b : Builder) (ns : Text) (given : Option Text) (fn : Export)
    (declarations : List Declaration) (overwrite : Bool) :
    b.exportAs ns given fn declarations overwrite =
      match exportName given fn with
      | some name => b.register ns name fn declarations overwrite
      | none => (.error (.noAttribute fn.typeName "__name__".text), b) := by
  obtain _ | _ | ⟨c, rest⟩ := given <;> rfl

section FromSource

variable {b next : Builder} {ns name : Text} {source : Source} {declared : List Declaration}
  {rest : List (Text × List Declaration)} {overwrite : Bool}

theorem fromSource_cons :
    b.fromSource ns source ((name, declared) :: rest) overwrite =
      match source.export? name with
      | none => (.error (.registry (.missingFunction source.name name ns)), b)
      | some fn =>
        match b.register ns name fn declared overwrite with
        | (.error failure, b) => (.error failure, b)
        | (.ok _, b) => b.fromSource ns source rest overwrite := by
  rw [fromSource, Source.export?]
  cases Assoc.find? name source.attributes with
  | none => rfl
  | some fn =>
    -- A value that is missing or null counts as no attribute.
    cases fn with
    | function f => rfl
    | value v => cases v <;> rfl

theorem fromSource_of_missing (hfn : source.export? name = none) :
    b.fromSource ns source ((name, declared) :: rest) overwrite =
      (.error (.registry (.missingFunction source.name name ns)), b) := by
  rw [fromSource_cons, hfn]

theorem fromSource_of_refused {fn : Export} {failure : Failure}
    (hfn : source.export? name = some fn)
    (hregister : b.register ns name fn declared overwrite = (.error failure, next)) :
    b.fromSource ns source ((name, declared) :: rest) overwrite = (.error failure, next) := by
  rw [fromSource_cons, hfn]
  simp only [hregister]

theorem fromSource_of_granted {fn : Export} {entry : Registered}
    (hfn : source.export? name = some fn)
    (hregister : b.register ns name fn declared overwrite = (.ok entry, next)) :
    b.fromSource ns source ((name, declared) :: rest) overwrite =
      next.fromSource ns source rest overwrite := by
  rw [fromSource_cons, hfn]
  simp only [hregister]

end FromSource

namespace Agrees

variable {b : Builder} {h : History}

/-- One registration that is asked for by itself. -/
theorem attempt (ha : Agrees b h) (ns name : Text) (fn : Export) (declarations : List Declaration)
    (overwrite : Bool) :
    ∃ after, h.Attempts [⟨ns, some name, some fn, declarations, overwrite⟩]
        (b.register ns name fn declarations overwrite).1.isOk after ∧
      Agrees (b.register ns name fn declarations overwrite).2 after := by
  obtain ⟨entry, hgrants, hok, hafter⟩ | ⟨hnever, ⟨failure, herror⟩, hafter⟩ :=
    ha.register ns name fn declarations overwrite
  · -- One registration is granted or refused, and that is all there is.
    rw [hok]
    exact ⟨_, .granted hgrants (.done _), hafter⟩
  · rw [herror]
    exact ⟨_, .refused hnever, hafter⟩

theorem exportAs (ha : Agrees b h) (ns : Text) (given : Option Text) (fn : Export)
    (declarations : List Declaration) (overwrite : Bool) :
    ∃ after, h.Attempts [⟨ns, exportName given fn, some fn, declarations, overwrite⟩]
        (b.exportAs ns given fn declarations overwrite).1.isOk after ∧
      Agrees (b.exportAs ns given fn declarations overwrite).2 after := by
  rw [exportAs_eq]
  cases hname : exportName given fn with
  -- A function without a name of its own cannot be asked for without one.
  | none =>
    obtain ⟨hnever, hafter⟩ := ha.refused_of_missing
      (r := ⟨ns, none, some fn, declarations, overwrite⟩) (.inl rfl)
    exact ⟨_, .refused hnever, hafter⟩
  | some name => exact ha.attempt ns name fn declarations overwrite

/-- The functions of a module one after the other, up to the first that is refused. -/
theorem fromSource (ha : Agrees b h) (ns : Text) (source : Source)
    (declarations : List (Text × List Declaration)) (overwrite : Bool) :
    ∃ after, h.Attempts (declarations.map fun (name, declared) =>
          ⟨ns, some name, source.export? name, declared, overwrite⟩)
        (b.fromSource ns source declarations overwrite).1.isOk after ∧
      Agrees (b.fromSource ns source declarations overwrite).2 after := by
  -- On the declarations, for any builder that agrees: the next starts where the one before it
  -- ended.
  induction declarations generalizing b h with
  | nil => exact ⟨h, .done h, ha⟩
  | cons declaration rest ih =>
    obtain ⟨name, declared⟩ := declaration
    show ∃ after, h.Attempts (⟨ns, some name, source.export? name, declared, overwrite⟩ :: _) _ _ ∧ _
    cases hfn : source.export? name with
    | none =>
      obtain ⟨hnever, hafter⟩ := ha.refused_of_missing
        (r := ⟨ns, some name, none, declared, overwrite⟩) (.inr (.inl rfl))
      rw [fromSource_of_missing hfn]
      exact ⟨_, .refused hnever, hafter⟩
    | some fn =>
      cases hregister : b.register ns name fn declared overwrite with
      | mk result next =>
        have hstep := ha.register ns name fn declared overwrite
        rw [hregister] at hstep
        -- A grant goes on with the others, a refusal ends it.
        obtain ⟨entry, hgrants, rfl, hnext⟩ | ⟨hnever, ⟨failure, rfl⟩, hnext⟩ := hstep
        · rw [fromSource_of_granted hfn hregister]
          obtain ⟨after, hattempts, hafter⟩ := ih hnext
          exact ⟨after, .granted hgrants hattempts, hafter⟩
        · rw [fromSource_of_refused hfn hregister]
          exact ⟨_, .refused hnever, hnext⟩

/-- Each operation goes as the history says. -/
theorem apply (ha : Agrees b h) (operation : Operation) :
    ∃ after, h.Carries operation (b.apply operation).1.isOk after ∧
      Agrees (b.apply operation).2 after := by
  cases operation with
  -- The entry that an operation returns is forgotten; only whether there is one counts.
  | register ns name fn declarations overwrite =>
    obtain ⟨after, hattempts, hafter⟩ := ha.attempt ns name fn declarations overwrite
    rw [← isOk_map] at hattempts
    exact ⟨after, .ask rfl hattempts, hafter⟩
  | exportAs ns given fn declarations overwrite =>
    obtain ⟨after, hattempts, hafter⟩ := ha.exportAs ns given fn declarations overwrite
    rw [← isOk_map] at hattempts
    exact ⟨after, .ask rfl hattempts, hafter⟩
  | fromSource ns source declarations overwrite =>
    obtain ⟨after, hattempts, hafter⟩ := ha.fromSource ns source declarations overwrite
    exact ⟨after, .ask rfl hattempts, hafter⟩
  | freeze => exact ⟨_, .freeze h, ha.freeze⟩

/-- So do any operations. -/
theorem run (ha : Agrees b h) (operations : List Operation) :
    ∃ after, h.Tells (b.played operations) after ∧
      Agrees (operations.foldl (fun b operation => (b.apply operation).2) b) after := by
  -- The invariant is that builder and history agree; each operation keeps it.
  induction operations generalizing b h with
  | nil => exact ⟨h, .nil h, ha⟩
  | cons operation rest ih =>
    obtain ⟨next, hfirst, hnext⟩ := ha.apply operation
    obtain ⟨after, hrest, hafter⟩ := ih hnext
    exact ⟨after, .cons hfirst hrest, hafter⟩

end Agrees

/-! ## Failures and freezing -/

section Failures

variable {b : Builder}

end Failures

section Frozen

variable {b : Builder}

end Frozen

/-! ## The refinement -/

end Builder

end RpcContract
