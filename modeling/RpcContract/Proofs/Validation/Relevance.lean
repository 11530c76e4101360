import RpcContract.Proofs.Validation.FirstViolation

/-!
# What a check looks at

A check looks at a value only where something is declared of it.  Two values that agree there pass
or fail alike, and if they fail, then at the same place for the same reason.  So undeclared members
and the order of members never count, at any depth.

Values agree where they are the same, not where they are merely equal as numbers: `1` and `true` do
not have the same tag.
-/

namespace RpcContract

namespace Assoc

variable {α : Type} {table other : Assoc α}

/-- What is found under distinct names is what the table holds. -/
theorem find?_eq_some_iff (h : (names table).Nodup) {name : Text} {a : α} :
    find? name table = some a ↔ (name, a) ∈ table := by
  induction table with
  | nil => simp [find?]
  | cons entry rest ih =>
    obtain ⟨key, old⟩ := entry
    obtain ⟨hkey, hrest⟩ : key ∉ names rest ∧ (names rest).Nodup := List.nodup_cons.1 h
    rw [find?, List.mem_cons, Prod.mk.injEq]
    -- Under the first key only the first entry counts, as its name does not come again.
    by_cases hname : key = name
    · subst hname
      have hnot : (key, a) ∉ rest := fun hmem => hkey (List.mem_map_of_mem hmem)
      simp [hnot, eq_comm]
    · simp [hname, Ne.symm hname, ih hrest]

/-- The order of distinct names does not count for what is found. -/
theorem find?_perm (h : table.Perm other) (hnodup : (names table).Nodup) (name : Text) :
    find? name table = find? name other := by
  have hother : (names other).Nodup := (h.map Prod.fst).nodup_iff.1 hnodup
  -- Distinct names have at most one value, so what is found is a matter of membership.
  refine Option.ext fun a => ?_
  rw [find?_eq_some_iff hnodup, find?_eq_some_iff hother]
  exact h.mem_iff

end Assoc

/-! ## Agreeing values -/

/-- Two values are the same up to the order of the members of the objects in them.  Lists and tuples
are not told apart. -/
inductive Value.Reordered : Value → Value → Prop where
  | same (v : Value) : Reordered v v
  | items {v w : Value} {items others : List Value} (hitems : v.items? = some items)
      (hothers : w.items? = some others) (hlength : items.length = others.length)
      (heach : ∀ (i : Nat) (a b : Value), items[i]? = some a → others[i]? = some b →
        Reordered a b) : Reordered v w
  | members {members others : Assoc Value}
      (hnames : ∀ name, Assoc.find? name members = none ↔ Assoc.find? name others = none)
      (heach : ∀ (name : Text) (a b : Value), Assoc.find? name members = some a →
        Assoc.find? name others = some b → Reordered a b) :
      Reordered (.record members) (.record others)

/-- The members of an object may be put into any order. -/
theorem Value.Reordered.of_perm {members others : Assoc Value} (h : members.Perm others)
    (hnodup : (Assoc.names members).Nodup) : Reordered (.record members) (.record others) := by
  have hfind := Assoc.find?_perm h hnodup
  refine .members (fun name => by rw [hfind]) ?_
  -- Whatever is found under a name in both is the same member.
  intro name a b ha hb
  rw [hfind, hb] at ha
  cases ha
  exact .same a

namespace Schema

/-- Whether a schema says something of what stands in a value: of the items of a list, under a text
that ends in `[]`, or of the members of an object, under declared fields. -/
def LooksInto : Schema → Value → Prop
  | .text t, v => Text.endsWith t "[]".text = true ∧ v.items? ≠ none
  | .object _ _, v => v.members? ≠ none
  | .raw _, _ => False

/-- Two values agree on what a schema declares. -/
inductive AgreeOn : Schema → Value → Value → Prop where
  | same (schema : Schema) (v : Value) : AgreeOn schema v v
  /-- Two objects each declared field of which both lack, or both have with members that agree. -/
  | members {form : ObjectForm} {fields : List (Field Schema)} {v w : Value}
      {members others : Assoc Value} (hmembers : v.members? = some members)
      (hothers : w.members? = some others)
      (hlacks : ∀ field ∈ fields,
        Assoc.find? field.name members = none ↔ Assoc.find? field.name others = none)
      (hhold : ∀ field ∈ fields, ∀ (a b : Value), Assoc.find? field.name members = some a →
        Assoc.find? field.name others = some b → AgreeOn field.schema a b) :
      AgreeOn (.object form fields) v w
  /-- Two lists of the same length whose items agree pairwise. -/
  | items {t type : Text} {v w : Value} {items others : List Value}
      (htext : t = type ++ "[]".text) (hitems : v.items? = some items)
      (hothers : w.items? = some others) (hlength : items.length = others.length)
      (heach : ∀ (i : Nat) (a b : Value), items[i]? = some a → others[i]? = some b →
        AgreeOn (.text type) a b) : AgreeOn (.text t) v w
  /-- Two values of the same tag, whatever stands in them, where nothing is said of that. -/
  | outside {schema : Schema} {v w : Value} (htag : v.tag = w.tag)
      (habsent : v.isAbsent = w.isAbsent) (hv : ¬ schema.LooksInto v)
      (hw : ¬ schema.LooksInto w) : AgreeOn schema v w

end Schema

theorem Value.isAbsent_of_items? {v : Value} {items : List Value} (h : v.items? = some items) :
    v.isAbsent = false := by
  cases v with
  | list | tuple => rfl
  | _ => cases h

theorem Value.isAbsent_of_members? {v : Value} {members : Assoc Value}
    (h : v.members? = some members) : v.isAbsent = false := by
  cases v with
  | record => rfl
  | _ => cases h

theorem Value.tag_of_items? {v : Value} {items : List Value} (h : v.items? = some items) :
    v.tag = "array".text := by
  cases v with
  | list | tuple => rfl
  | _ => cases h

theorem Value.members?_of_items? {v : Value} {items : List Value} (h : v.items? = some items) :
    v.members? = none := by
  cases v with
  | record => cases h
  | _ => rfl

/-- The order of members is nothing that a schema declares. -/
theorem Value.Reordered.agreeOn {v w : Value} (h : v.Reordered w) (schema : Schema) :
    schema.AgreeOn v w := by
  -- On how the values are the same, for every schema that may be declared of them.
  induction h generalizing schema with
  | same v => exact .same schema v
  | @items v w items others hitems hothers hlength _ ih =>
    have htag : v.tag = w.tag := (tag_of_items? hitems).trans (tag_of_items? hothers).symm
    have habsent : v.isAbsent = w.isAbsent :=
      (isAbsent_of_items? hitems).trans (isAbsent_of_items? hothers).symm
    cases schema with
    | text t =>
      -- Only a text that ends in brackets looks at the items.
      by_cases hends : Text.endsWith t "[]".text = true
      · obtain ⟨type, rfl⟩ := Text.endsWith_iff.1 hends
        exact .items rfl hitems hothers hlength fun i a b ha hb => ih i a b ha hb (.text type)
      · exact .outside htag habsent (fun h => hends h.1) (fun h => hends h.1)
    -- A list has no members that fields could be declared of.
    | object form fields =>
      exact .outside htag habsent (fun h => h (members?_of_items? hitems))
        (fun h => h (members?_of_items? hothers))
    | raw u => exact .outside htag habsent id id
  | members hnames _ ih =>
    cases schema with
    -- A text looks at no members, so any two objects agree for it.
    | text t => exact .outside rfl rfl (fun h => h.2 rfl) (fun h => h.2 rfl)
    | object form fields =>
      exact .members rfl rfl (fun field _ => hnames field.name)
        fun field _ a b ha hb => ih field.name a b ha hb field.schema
    | raw u => exact .outside rfl rfl id id

namespace Validation

variable {allowNull : AllowNull} {schema : Schema} {v w : Value} {path : Path}

/-! ## Two checks of agreeing values -/

theorem checkEach_agreeing {check : Value → Path → Except Rejection Unit} {index : Nat}
    {items others : List Value} (hlength : items.length = others.length)
    (heach : ∀ (i : Nat) (a b : Value), items[i]? = some a → others[i]? = some b →
      ∀ path, check a path = check b path) :
    checkEach check path index items = checkEach check path index others := by
  -- On the items, side by side; the index is generalised as it is part of every path.
  induction items generalizing others index with
  | nil =>
    cases others with
    | nil => rfl
    | cons => cases hlength
  | cons item rest ih =>
    cases others with
    | nil => cases hlength
    | cons other more =>
      have hitem := heach 0 item other rfl rfl (path.step (.item index))
      have hrest := @ih (index + 1) more (Nat.succ.inj hlength)
        fun i a b ha hb => heach (i + 1) a b ha hb
      rw [checkEach, checkEach, hitem, hrest]

theorem checkFields_agreeing {form : ObjectForm} {fields : List (Field Schema)}
    {members others : Assoc Value}
    (hlacks : ∀ field ∈ fields,
      Assoc.find? field.name members = none ↔ Assoc.find? field.name others = none)
    (hhold : ∀ field ∈ fields, ∀ (a b : Value), Assoc.find? field.name members = some a →
      Assoc.find? field.name others = some b →
      ∀ path, check allowNull field.schema a path = check allowNull field.schema b path) :
    checkFields allowNull form fields members path =
      checkFields allowNull form fields others path := by
  -- On the fields, each of which is looked up in both objects.
  induction fields with
  | nil => rfl
  | cons field rest ih =>
    obtain ⟨name, optional, schema⟩ := field
    have hrest := ih (fun other hother => hlacks other (List.mem_cons_of_mem _ hother))
      (fun other hother => hhold other (List.mem_cons_of_mem _ hother))
    have hlack := hlacks _ List.mem_cons_self
    have hfound := hhold _ List.mem_cons_self
    rw [checkFields, checkFields, hrest]
    -- A field is missing in both or in neither, so the report of a missing field is the same.
    cases hmember : Assoc.find? name members with
    | none => rw [hlack.1 hmember]
    | some a =>
      cases hother : Assoc.find? name others with
      | none =>
        rw [hlack.2 hother] at hmember
        cases hmember
      | some b => simp only [hfound a b hmember hother]

/-- Where nothing is said of what stands in two values of the same tag, they are checked alike. -/
theorem check_outside (htag : v.tag = w.tag) (habsent : v.isAbsent = w.isAbsent)
    (hv : ¬ schema.LooksInto v) (hw : ¬ schema.LooksInto w) :
    check allowNull schema v path = check allowNull schema w path := by
  -- What is left to look at is the tag, and whether the value is there at all.
  cases schema with
  | raw u => simp only [check, mismatch, htag, habsent]
  | object form fields =>
    have hv : v.members? = none := not_not.1 hv
    have hw : w.members? = none := not_not.1 hw
    simp only [check, mismatch, htag, habsent, hv, hw]
  | text t =>
    by_cases hends : Text.endsWith t "[]".text = true
    · -- Neither is a list, so both are refused for not being one.
      obtain ⟨type, rfl⟩ := Text.endsWith_iff.1 hends
      have hv : v.items? = none := not_not.1 fun h => hv ⟨hends, h⟩
      have hw : w.items? = none := not_not.1 fun h => hw ⟨hends, h⟩
      simp only [check_items, mismatch, htag, habsent, hv, hw]
    · -- Without brackets at its end a text says nothing of items.
      have hparts := arrayParts_of_not_endsWith (by simpa using hends)
      simp only [check, hparts, checkArray, mismatch, htag, habsent]

/-- Two values that agree on what is declared are checked alike. -/
theorem check_of_agreeOn (h : schema.AgreeOn v w) (path : Path) :
    check allowNull schema v path = check allowNull schema w path := by
  -- On what the values agree on; the path grows on the way down, so it is generalised.
  induction h generalizing path with
  | same => rfl
  | members hmembers hothers hlacks _ ih =>
    simp only [check, Value.isAbsent_of_members? hmembers, Value.isAbsent_of_members? hothers,
      hmembers, hothers, checkFields_agreeing hlacks ih, Bool.false_eq_true, if_false]
  | items htext hitems hothers hlength _ ih =>
    subst htext
    simp only [check_items, Value.isAbsent_of_items? hitems, Value.isAbsent_of_items? hothers,
      hitems, hothers, checkEach_agreeing hlength ih, Bool.false_eq_true, if_false]
  | outside htag habsent hv hw => exact check_outside htag habsent hv hw

/-- **A check looks only at what is declared.**  Two values that agree on that have the same
outcome, down to the place and the reason; in particular two values that differ in the order of
members, and an object with and without a member that is not declared. -/
theorem check_looks_at_declared (allowNull : AllowNull) :
    (∀ schema v w path, schema.AgreeOn v w →
      check allowNull schema v path = check allowNull schema w path) ∧
    (∀ schema v w path, v.Reordered w →
      check allowNull schema v path = check allowNull schema w path) ∧
    (∀ form fields members name extra path, (∀ field ∈ fields, field.name ≠ name) →
      check allowNull (.object form fields) (.record (Assoc.put name extra members)) path =
        check allowNull (.object form fields) (.record members) path) := by
  refine ⟨?_, ?_, ?_⟩
  · intro schema v w path hagree
    exact check_of_agreeOn hagree path
  · intro schema v w path hreordered
    exact check_of_agreeOn (hreordered.agreeOn schema) path
  · intro form fields members name extra path hundeclared
    -- The extra member is looked up by no declared field.
    have hfind (field : Field Schema) (hfield : field ∈ fields) :
        Assoc.find? field.name (Assoc.put name extra members) =
          Assoc.find? field.name members :=
      Assoc.find?_put_of_ne (hundeclared field hfield) extra members
    refine check_of_agreeOn (.members rfl rfl ?_ ?_) path
    · intro field hfield
      rw [hfind field hfield]
    · intro field hfield a b ha hb
      rw [hfind field hfield, hb] at ha
      cases ha
      exact .same field.schema a

/-- With an undeclared member at each level, and in another order, the same member is reported; and
so is the same item of a list, whatever the order of its members. -/
theorem check_looks_at_declared_nested :
    let shape : Schema := .object .literal
      [⟨"a".text, false, .text "number[]".text⟩,
        ⟨"b".text, true, .object .mapping [⟨"c".text, false, .text "string".text⟩]⟩]
    let bare : Value := .record
      [("a".text, .list [.int 1]), ("b".text, .record [("c".text, .int 2)])]
    let full : Value := .record
      [("z".text, .undefined), ("b".text, .record [("y".text, .null), ("c".text, .int 2)]),
        ("a".text, .list [.int 1])]
    let members : Assoc Value := [("a".text, .int 1), ("b".text, .null)]
    let start : Path := .root (.text "x".text)
    (check true shape full start = check true shape bare start ∧
      ∃ violation, check true shape bare start = .error (.violation violation) ∧
        violation.reason = "Argument 'x.b.c' expected type 'string' but got 'number'.".text) ∧
    check true (.text "number[]".text) (.list [.int 1, .record members]) start =
      check true (.text "number[]".text) (.list [.int 1, .record members.reverse]) start := by
  intro shape bare full members start
  constructor
  · -- The inner objects agree on `c`, which is all that is declared of them.
    have hb : (Schema.object .mapping [⟨"c".text, false, .text "string".text⟩]).AgreeOn
        (.record [("y".text, .null), ("c".text, .int 2)]) (.record [("c".text, .int 2)]) := by
      refine .members rfl rfl (by decide) ?_
      rw [List.forall_mem_singleton]
      rintro _ _ ⟨⟩ ⟨⟩
      exact .same _ _
    have hagree : shape.AgreeOn full bare := by
      refine .members rfl rfl (by decide) ?_
      rw [List.forall_mem_cons, List.forall_mem_singleton]
      constructor
      · rintro _ _ ⟨⟩ ⟨⟩
        exact .same _ _
      · rintro _ _ ⟨⟩ ⟨⟩
        exact hb
    exact ⟨(check_looks_at_declared true).1 shape full bare start hagree, _, rfl, rfl⟩
  · -- Under an array type the items are compared as they are, up to the order of their members.
    have hmembers : (Value.record members).Reordered (.record members.reverse) :=
      .of_perm (List.reverse_perm members).symm (by decide)
    refine (check_looks_at_declared true).2.1 _ _ _ start (.items rfl rfl rfl ?_)
    rintro (_ | _ | i) a b ⟨⟩ ⟨⟩
    · exact .same _
    · exact hmembers

end Validation

end RpcContract
