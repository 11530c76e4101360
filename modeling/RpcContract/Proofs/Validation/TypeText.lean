import RpcContract.Proofs.Text.Edges
import RpcContract.Proofs.Validation.Membership

/-!
# What is enforced of a type text

A type text is read from its end: as many `[]` as stand there are enforced, level by level, and then
the base, when it names a primitive type.  The base is not compiled and not taken apart.

* The items of an array are checked against the text of the item type.  That is a check against the
  item type itself unless this is an object literal, of which nothing is enforced then.
* A union, an intersection or a function type accepts every value, unless its text ends in `[]`:
  then the last alternative or the return type lends its `[]` to the whole.
-/

namespace RpcContract

/-! ## The end of a text -/

theorem Text.endsWith_iff {t suffix : Text} :
    Text.endsWith t suffix = true ↔ ∃ before, t = before ++ suffix := by
  rw [Text.endsWith, List.isSuffixOf_iff_suffix]
  constructor
  · rintro ⟨before, rfl⟩
    exact ⟨before, rfl⟩
  · rintro ⟨before, rfl⟩
    exact ⟨before, rfl⟩

/-- A type text that does not end in `[]` is its own base. -/
theorem arrayParts_of_not_endsWith {t : Text} (h : Text.endsWith t "[]".text = false) :
    arrayParts t = (t, 0) := by
  have htext := arrayText_arrayParts t
  cases hdepth : (arrayParts t).2 with
  | zero =>
    rw [hdepth] at htext
    exact Prod.ext htext hdepth
  | succ depth =>
    -- The base with all of its `[]` but the last stands before `[]`.
    rw [hdepth, arrayText] at htext
    rw [Text.endsWith_iff.2 ⟨_, htext.symm⟩] at h
    exact Bool.noConfusion h

/-- A text that ends in `[]` is no object literal. -/
theorem literalBody?_array (t : Text) : literalBody? (t ++ "[]".text) = none := by
  have htight : Text.Tight "[]".text := Text.tight_between (by decide) (by decide) []
  have htrim : Text.trim (t ++ "[]".text) = Text.trimLeft t ++ "[]".text :=
    Text.trim_append_tight htight (by decide)
  unfold literalBody?
  -- Trimming leaves both brackets at the end.
  rw [htrim]
  split
  · rename_i rest heq
    rw [if_neg]
    rintro ⟨hlast, _⟩
    -- The last character would have to be both brackets.
    have hends := congrArg List.getLast? heq
    rw [List.getLast?_append_of_ne_nil _ (by decide), List.getLast?_cons, hlast] at hends
    exact absurd hends (by decide)
  · rfl

theorem mem_of_literalBody? {t body : Text} (h : literalBody? t = some body) :
    CodePoint.char '\x7b' ∈ t := by
  unfold literalBody? at h
  split at h
  · -- Trimming makes no new characters.
    rename_i rest heq
    refine Text.mem_of_mem_trim ?_
    rw [heq]
    exact List.mem_cons_self
  · exact absurd h (by simp)

namespace Schema

/-! ## Type texts of which nothing is enforced -/

/-- The type texts that mean something by themselves. -/
def named : List Text := anyText :: primitives

theorem isLower_of_mem_named : ∀ name ∈ named, ∀ c ∈ name, c.isIn Char.isLower = true := by
  decide

/-- A text that is no word in small letters means nothing by itself. -/
theorem not_mem_named {t : Text} {c : CodePoint} (hmem : c ∈ t)
    (hc : c.isIn Char.isLower = false) : t ∉ named := by
  intro hnamed
  rw [isLower_of_mem_named t hnamed c hmem] at hc
  exact Bool.noConfusion hc

end Schema

namespace Validation

open Schema (compile)

variable {allowNull : AllowNull} {t : Text} {v : Value} {items : List Value} {path place : Path}

/-- Whether a value passes a type text does not depend on where it stands. -/
theorem check_text_eq_ok_iff :
    check allowNull (.text t) v path = .ok () ↔ (Schema.text t).Admits allowNull v := by
  have hdecides : Decides (check allowNull (.text t) v path) ((Schema.text t).Admits allowNull v) :=
    check_decides allowNull rfl v path
  exact hdecides.eq_ok_iff

/-- A text that neither means anything nor ends in `[]` leaves only the null rule. -/
theorem check_unenforced (hnamed : t ∉ Schema.named) (hends : Text.endsWith t "[]".text = false) :
    check allowNull (.text t) v path = .ok () ↔ (v.isAbsent = true → allowNull = true) := by
  have hany : t ≠ Schema.anyText := fun h => hnamed (h ▸ List.mem_cons_self)
  have hprimitive : t ∉ Schema.primitives := fun h => hnamed (List.mem_cons_of_mem _ h)
  -- Its own base, of depth zero, and neither `any` nor primitive.
  rw [check_text_eq_ok_iff, Schema.admits_text_iff, arrayParts_of_not_endsWith hends]
  simp only [Schema.AdmitsArray, hany, hprimitive, false_or, false_imp_iff]
  split
  · rename_i habsent
    simp [habsent]
  · rename_i hpresent
    simp [hpresent]

/-! ## Arrays -/

theorem checkEach_eq_ok_iff {check : Value → Path → Except Rejection Unit} {P : Value → Prop}
    (hcheck : ∀ item path, check item path = .ok () ↔ P item) (index : Nat) :
    checkEach check path index items = .ok () ↔ ∀ item ∈ items, P item := by
  -- Over the items, for every index: the first fails or the rest decides.
  induction items generalizing index with
  | nil => simp [checkEach]
  | cons item rest ih =>
    rw [List.forall_mem_cons, ← hcheck item (path.step (.item index)), ← ih (index + 1), checkEach]
    cases check item (path.step (.item index)) <;> simp

/-- The items of an array are checked against the text of the item type. -/
theorem check_array_text :
    check allowNull (.text (t ++ "[]".text)) (.list items) path = .ok () ↔
      ∀ item ∈ items, check allowNull (.text t) item place = .ok () := by
  rw [check, arrayParts_append]
  simp only [checkArray, Value.isAbsent, Value.items?, Bool.false_eq_true, if_false]
  refine checkEach_eq_ok_iff (fun item path => ?_) 0
  -- An item passes here and there alike, since neither the place nor the list matters.
  exact check_text_eq_ok_iff.trans check_text_eq_ok_iff.symm

/-- An object literal, read as a mere text, accepts what the literal rejects. -/
theorem check_literal_text (allowNull : AllowNull) (path : Path) {body : Text}
    (h : literalBody? t = some body) :
    check allowNull (.text t) (.int 0) path = .ok () ∧
      check allowNull (compile t) (.int 0) path ≠ .ok () := by
  constructor
  · -- A literal does not end in `[]`, and no word in small letters has a brace.
    have hends : Text.endsWith t "[]".text = false := by
      by_contra hends
      obtain ⟨before, rfl⟩ := Text.endsWith_iff.1 (Bool.not_eq_false _ ▸ hends)
      exact absurd ((literalBody?_array before).symm.trans h) (by simp)
    refine (check_unenforced (Schema.not_mem_named (mem_of_literalBody? h) (by decide)) hends).2 ?_
    intro habsent
    exact Bool.noConfusion habsent
  · rw [Schema.compile_of_literalBody?_eq_some h]
    -- Zero is no object.
    intro hpass
    cases hpass

/-- **Arrays are checked item by item, against the text of the item type.**  This amounts to a check
of every item against the item type exactly where the item type is no object literal. -/
theorem check_array_elementwise (allowNull : AllowNull) (t : Text) (path place : Path) :
    (∀ items, check allowNull (compile (t ++ "[]".text)) (.list items) path = .ok () ↔
      ∀ item ∈ items, check allowNull (.text t) item place = .ok ()) ∧
    ((∀ items, check allowNull (compile (t ++ "[]".text)) (.list items) path = .ok () ↔
      ∀ item ∈ items, check allowNull (compile t) item place = .ok ()) ↔
        literalBody? t = none) := by
  rw [Schema.compile_of_literalBody?_eq_none (literalBody?_array t)]
  refine ⟨fun items => check_array_text, ?_, ?_⟩
  · -- If it were a literal, a list of zero would pass item by item as a text, and zero does not
    -- pass the literal.
    intro hitems
    cases hbody : literalBody? t with
    | none => rfl
    | some body =>
      obtain ⟨htext, hliteral⟩ := check_literal_text allowNull place hbody
      have hlist : check allowNull (.text (t ++ "[]".text)) (.list [.int 0]) path = .ok () :=
        check_array_text.2 (by simpa using htext)
      exact absurd ((hitems [.int 0]).1 hlist _ List.mem_cons_self) hliteral
  · intro hnone items
    rw [Schema.compile_of_literalBody?_eq_none hnone]
    exact check_array_text

/-- A list whose item is no object passes an array of objects. -/
theorem check_array_of_literals :
    check true (compile "\x7b id: number \x7d[]".text) (.list [.int 5]) (.root .null) = .ok () ∧
      check true (compile "\x7b id: number \x7d".text) (.int 5) (.root .null) ≠ .ok () := by
  constructor
  · rw [Schema.compile_of_literalBody?_eq_none (by decide)]
    rfl
  · have hbody : literalBody? "\x7b id: number \x7d".text = some " id: number ".text := by decide
    rw [Schema.compile_of_literalBody?_eq_some hbody]
    intro hpass
    cases hpass

/-! ## Unions, intersections and function types -/

/-- A text has a bar, an ampersand or an arrow outside its brackets and its literals, so that it is a
union, an intersection or a function type. -/
def Combines (t : Text) : Prop :=
  ∃ before c after, t = before ++ c :: after ∧ (Scan.start.run before).sees c = true ∧
    (c = .char '|' ∨ c = .char '&' ∨ (c = .char '=' ∧ after.head? = some (.char '>')))

theorem Combines.not_mem_named (h : Combines t) : t ∉ Schema.named := by
  obtain ⟨before, c, after, rfl, _, hc⟩ := h
  have hmem : c ∈ before ++ c :: after := List.mem_append_right _ List.mem_cons_self
  refine Schema.not_mem_named hmem ?_
  -- None of the three characters is a small letter.
  rcases hc with rfl | rfl | ⟨rfl, _⟩ <;> decide

/-- Something that is neither absent nor a list does not pass a text that ends in `[]`. -/
theorem check_int_of_endsWith (hends : Text.endsWith t "[]".text = true) (n : Int) :
    check allowNull (.text t) (.int n) path ≠ .ok () := by
  obtain ⟨before, rfl⟩ := Text.endsWith_iff.1 hends
  rw [check, arrayParts_append]
  intro hpass
  cases hpass

/-- Where a value passes two schemas alike, wherever it stands, so does the object in which it is
the value of a field. -/
theorem checkFields_congr {form : ObjectForm} {schema other : Schema}
    (h : ∀ v path, check allowNull schema v path = check allowNull other v path)
    (before after : List (Field Schema)) (name : Text) (optional : Bool) (members : Assoc Value)
    (path : Path) :
    checkFields allowNull form (before ++ ⟨name, optional, schema⟩ :: after) members path =
      checkFields allowNull form (before ++ ⟨name, optional, other⟩ :: after) members path := by
  -- The fields in front are checked alike, and so is this one.
  induction before with
  | nil => simp only [List.nil_append, checkFields, h]
  | cons field rest ih =>
    obtain ⟨first, mark, type⟩ := field
    simp only [List.cons_append, checkFields, ih]

/-- **Unions, intersections and function types are not enforced, unless they end in `[]`.**  Where
absent values may pass, such a type text accepts every value exactly when it does not end in `[]`;
and then an object in which it is the type of a field is checked as if the field could hold
anything. -/
theorem check_combined (h : Combines t) :
    (literalBody? t = none → ((∀ v path, check true (compile t) v path = .ok ()) ↔
      Text.endsWith t "[]".text = false)) ∧
    (Text.endsWith t "[]".text = false → ∀ form before name optional after members path,
      checkFields true form (before ++ ⟨name, optional, .text t⟩ :: after) members path =
        checkFields true form (before ++ ⟨name, optional, .any⟩ :: after) members path) := by
  have hpass (hends : Text.endsWith t "[]".text = false) (v : Value) (path : Path) :
      check true (.text t) v path = .ok () :=
    (check_unenforced h.not_mem_named hends).2 fun _ => rfl
  constructor
  · intro hnone
    rw [Schema.compile_of_literalBody?_eq_none hnone]
    constructor
    · -- With `[]` at its end a number does not pass, though every value should.
      intro hall
      rw [← Bool.not_eq_true]
      intro hends
      exact check_int_of_endsWith hends 0 (hall (.int 0) (.root .null))
    · exact hpass
  · intro hends form before name optional after members path
    refine checkFields_congr (fun v path => ?_) before after name optional members path
    rw [hpass hends]
    rfl

/-- An array among the alternatives of a union, but not in the last place, lets even a value pass
that fits none of them. -/
theorem check_combined_arrays :
    check true (compile "string[] | number".text) (.bool true) (.root .null) = .ok () := by
  have h : Combines "string[] | number".text :=
    ⟨"string[] ".text, .char '|', " number".text, rfl, by decide, .inl rfl⟩
  exact ((check_combined h).1 (by decide)).2 (by decide) (.bool true) (.root .null)

/-- A union whose last alternative is an array takes its first alternative for no match. -/
theorem check_union_of_array :
    Combines "string | string[]".text ∧ literalBody? "string | string[]".text = none ∧
      check true (compile "string | string[]".text) (.text "hello".text) (.root .null) ≠ .ok () := by
  refine ⟨⟨"string ".text, .char '|', " string[]".text, rfl, by decide, .inl rfl⟩, by decide, ?_⟩
  rw [Schema.compile_of_literalBody?_eq_none (by decide)]
  intro hpass
  cases hpass

end Validation

end RpcContract
