import RpcContract.Proofs.Schema.WellFormed

/-!
# How much compiling takes and yields

A member's name, its colon and its type stand beside one another in the body of a literal, and no two
members overlap.  So compiling goes into texts that are shorter each time, and what it yields is no
larger than what it was given: neither are more calls open at a time than a quarter of the text is
long, nor do the names and type texts of the result take more room than the text.
-/

namespace RpcContract

namespace Member

/-- The room that a member takes at least. -/
def extent (m : Member) : Nat := m.name.length + 1 + m.type.length

/-- The field that a member declares when its type is compiled by `compile?`, if that comes to
something. -/
def declaredBy? (compile? : Text → Option Schema) (m : Member) : Option (Field Schema) :=
  (compile? m.type).map fun schema => ⟨m.name, m.optional, schema⟩

end Member

namespace Schema

mutual

/-- The characters that are needed to write the schema: those of the type texts and of the names, one
for each colon and two for each pair of braces. -/
def size : Schema → Nat
  | .text t => t.length
  | .object _ fields => 2 + sizeFields fields
  | .raw _ => 0

def sizeFields : List (Field Schema) → Nat
  | [] => 0
  | ⟨name, _, schema⟩ :: rest => name.length + 1 + size schema + sizeFields rest

end

mutual

/-- How many objects stand inside one another. -/
def depth : Schema → Nat
  | .text _ | .raw _ => 0
  | .object _ fields => 1 + depthFields fields

def depthFields : List (Field Schema) → Nat
  | [] => 0
  | ⟨_, _, schema⟩ :: rest => max (depth schema) (depthFields rest)

end

/-- Compiles a text with so many calls open at a time at most; nothing comes of it when more are
needed. -/
def compileWithin : Nat → Text → Option Schema
  | 0, _ => none
  | calls + 1, t =>
    match literalBody? t with
    | none => some (.text t)
    | some body => do
      let fields ← (Member.ofBody body).mapM (Member.declaredBy? (compileWithin calls))
      some (.object .literal (declareAll fields))

end Schema

/-! ## Members side by side -/

namespace Member

/-- What is read off pieces of a text takes no more room than they do. -/
theorem sum_extent_filterMap_le (pieces : List Text) :
    ((pieces.filterMap ofText?).map extent).sum ≤ (pieces.map List.length).sum := by
  induction pieces with
  | nil => exact Nat.le_refl _
  | cons piece rest ih =>
    rw [List.map_cons, List.sum_cons]
    -- A piece that declares nothing leaves its room unused.
    cases hread : ofText? piece with
    | none =>
      rw [List.filterMap_cons_none hread]
      omega
    | some m =>
      have hlength : m.extent ≤ piece.length := (readOff_of_ofText? hread).length_le
      rw [List.filterMap_cons_some hread, List.map_cons, List.sum_cons]
      omega

/-- The members of a body take no more room than the body. -/
theorem sum_extent_ofBody_le (body : Text) : ((ofBody body).map extent).sum ≤ body.length :=
  Nat.le_trans (sum_extent_filterMap_le _) (cutInto_splitMembers body).sum_length_le

/-- Beside the type of a member there are at least a name, a colon and the braces of the literal. -/
theorem length_type_add_le {t body : Text} {m : Member} (hbody : literalBody? t = some body)
    (hm : m ∈ ofBody body) : m.type.length + 4 ≤ t.length := by
  obtain ⟨piece, hpiece, _, hread⟩ := exists_piece_of_mem_ofBody hm
  have hname : 0 < m.name.length := List.length_pos_iff.2 hread.named
  have hmember := hread.length_le
  have hwithin := hpiece.length_le
  have hbraces := length_of_literalBody? hbody
  omega

end Member

namespace Schema

variable {fields : List (Field Schema)} {n : Nat}

/-! ## Sizes -/

theorem sizeFields_cons (field : Field Schema) (rest : List (Field Schema)) :
    sizeFields (field :: rest) =
      field.name.length + 1 + field.schema.size + sizeFields rest := rfl

/-- A field that is declared again takes the room of the old one. -/
theorem sizeFields_declare_le (field : Field Schema) (declared : List (Field Schema)) :
    sizeFields (declare field declared) ≤ sizeFields (field :: declared) := by
  induction declared with
  | nil => exact Nat.le_refl _
  | cons old rest ih =>
    rw [declare]
    -- Either the old field goes and the new one is counted in its place, or the old one stays and
    -- the rest is counted.
    split
    · simp only [sizeFields_cons]
      omega
    · simp only [sizeFields_cons] at ih ⊢
      omega

theorem sizeFields_concat (fields : List (Field Schema)) (field : Field Schema) :
    sizeFields (fields ++ [field]) = sizeFields (field :: fields) := by
  induction fields with
  | nil => rfl
  | cons first rest ih =>
    rw [List.cons_append, sizeFields_cons, ih]
    simp only [sizeFields_cons]
    omega

theorem sizeFields_declareAll_le (fields : List (Field Schema)) :
    sizeFields (declareAll fields) ≤ sizeFields fields := by
  -- From the end of the list, as fields are declared.
  induction fields using List.reverseRecOn with
  | nil => exact Nat.le_refl _
  | append_singleton fields field ih =>
    have hdeclare := sizeFields_declare_le field (declareAll fields)
    rw [declareAll_concat, sizeFields_concat]
    simp only [sizeFields_cons] at hdeclare ⊢
    omega

/-- Fields whose types do not grow take no more room than their members. -/
theorem sizeFields_map_le {members : List Member}
    (h : ∀ m ∈ members, (compile m.type).size ≤ m.type.length) :
    sizeFields (members.map compileMember) ≤ (members.map Member.extent).sum := by
  induction members with
  | nil => exact Nat.le_refl _
  | cons m rest ih =>
    have hm := h m List.mem_cons_self
    have hrest := ih fun other hother => h other (List.mem_cons_of_mem m hother)
    rw [List.map_cons, List.map_cons, sizeFields_cons, List.sum_cons]
    simp only [compileMember, Member.extent] at hrest ⊢
    omega

/-- What a text compiles to is no larger than the text. -/
theorem size_compile_le (t : Text) : (compile t).size ≤ t.length := by
  refine compile_structural (P := fun t schema => schema.size ≤ t.length) ?_ ?_ t
  · intro t _
    exact Nat.le_refl _
  · -- What is declared is no larger than all members, these are no larger than the body, and the
    -- braces take two more.
    intro t body hbody ih
    have hdeclared := sizeFields_declareAll_le ((Member.ofBody body).map compileMember)
    have hmembers := sizeFields_map_le ih
    have hroom := Member.sum_extent_ofBody_le body
    have hbraces := length_of_literalBody? hbody
    show 2 + sizeFields (fieldsOf body) ≤ t.length
    rw [fieldsOf]
    omega

/-! ## Depths -/

theorem depthFields_le (h : ∀ field ∈ fields, 4 * field.schema.depth ≤ n) :
    4 * depthFields fields ≤ n := by
  induction fields with
  | nil => exact Nat.zero_le n
  -- The larger of two depths is within the bound if both are.
  | cons field rest ih =>
    have hfield := h field List.mem_cons_self
    have hrest := ih fun other hother => h other (List.mem_cons_of_mem field hother)
    show 4 * max field.schema.depth (depthFields rest) ≤ n
    omega

/-- Each object inside another one takes four characters more: its braces, a name and a colon. -/
theorem depth_compile_le (t : Text) : 4 * (compile t).depth ≤ t.length + 2 := by
  refine compile_structural (P := fun t schema => 4 * schema.depth ≤ t.length + 2) ?_ ?_ t
  · intro t _
    exact Nat.zero_le _
  · intro t body hbody ih
    have hbraces := length_of_literalBody? hbody
    -- Each type is four characters shorter than the literal, and its depth is bounded by its
    -- length.
    have hfields : 4 * depthFields (fieldsOf body) ≤ t.length - 2 := by
      refine depthFields_le fun field hfield => ?_
      obtain ⟨m, hm, rfl⟩ := exists_member_of_mem_fieldsOf hfield
      have hshorter := Member.length_type_add_le hbody hm
      have hdepth := ih m hm
      show 4 * (compile m.type).depth ≤ t.length - 2
      omega
    show 4 * (1 + depthFields (fieldsOf body)) ≤ t.length + 2
    omega

/-! ## Calls -/

theorem mapM_eq_some {α β : Type} {f : α → Option β} {g : α → β} {l : List α}
    (h : ∀ a ∈ l, f a = some (g a)) : l.mapM f = some (l.map g) := by
  induction l with
  | nil => rfl
  | cons a rest ih =>
    have hrest := ih fun b hb => h b (List.mem_cons_of_mem a hb)
    simp [List.mapM_cons, h a List.mem_cons_self, hrest]

/-- As many calls as the text has characters, by four, are enough. -/
theorem compileWithin_eq_some {calls : Nat} {t : Text} (h : t.length < 4 * calls) :
    compileWithin calls t = some (compile t) := by
  -- Over the calls, for every text that is short enough for them.
  induction calls generalizing t with
  | zero => exact absurd h (Nat.not_lt_zero _)
  | succ calls ih =>
    rw [compileWithin]
    cases hbody : literalBody? t with
    | none => rw [compile_of_literalBody?_eq_none hbody]
    | some body =>
      have hmember : ∀ m ∈ Member.ofBody body,
          m.declaredBy? (compileWithin calls) = some (compileMember m) := by
        intro m hm
        -- A type is four characters shorter than the literal, which is what one call fewer allows.
        have hshorter := Member.length_type_add_le hbody hm
        rw [Member.declaredBy?, ih (by omega)]
        rfl
      rw [compile_of_literalBody?_eq_some hbody]
      simp only [mapM_eq_some hmember]
      rfl

/-- **Compiling comes to an end and does not amplify.**  With one call open for every four characters
of a text, and one more, compiling comes to its result; that is no larger than the text, and with `d`
objects inside one another the text has at least `4 * d - 2` characters. -/
theorem compile_bounded (t : Text) :
    compileWithin (t.length / 4 + 1) t = some (compile t) ∧
      (compile t).size ≤ t.length ∧ 4 * (compile t).depth ≤ t.length + 2 :=
  ⟨compileWithin_eq_some (by omega), size_compile_le t, depth_compile_le t⟩

/-- Three objects inside one another, in ten characters and with three calls. -/
example : (compileWithin 3 "\x7ba:\x7ba:\x7b\x7d\x7d\x7d".text).map depth = some 3 := by
  decide +kernel

end Schema

end RpcContract
