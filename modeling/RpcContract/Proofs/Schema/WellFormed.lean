import RpcContract.Proofs.Schema.Rescan
import RpcContract.Proofs.Schema.Whole

/-!
# Compiled schemas are well formed

Whatever the source of a compiled object is, well formed or not, the object is: at every level its
fields have names, each its own, and the type texts that are kept are trimmed pieces of the source
that stand for themselves and have no separator outside their brackets and literals.
-/

namespace RpcContract.Schema

open Text (Tight)

/-- A type text that is kept in a schema, against the source of the schema. -/
structure KeptFrom (source t : Text) : Prop where
  nonempty : t ≠ []
  tight : Tight t
  isInfix : t <:+: source
  /-- It stands for itself. -/
  compiles : compile t = .text t
  /-- Scanned by itself, it has no separator at its top level. -/
  undivided : Undivided t

/-- The names of the fields that are marked as optional. -/
def optionalNames (fields : List (Field Schema)) : List Text :=
  (fields.filter (·.optional)).map (·.name)

/-- A schema that is well formed at every level, against its source. -/
inductive WellFormed (source : Text) : Schema → Prop where
  | text {t : Text} (ht : KeptFrom source t) : WellFormed source (.text t)
  | object {fields : List (Field Schema)} (hnamed : ∀ field ∈ fields, field.name ≠ [])
      (hdistinct : (fields.map Field.name).Nodup)
      (hoptional : optionalNames fields ⊆ fields.map Field.name)
      (hfields : ∀ field ∈ fields, WellFormed source field.schema) :
      WellFormed source (.object .literal fields)

/-! ## Induction over compiling -/

/-- Induction over the compiling of a text: an object literal comes with the hypothesis for the types
of its members. -/
theorem compile_structural {P : Text → Schema → Prop}
    (text : ∀ t, literalBody? t = none → P t (.text t))
    (object : ∀ t body, literalBody? t = some body →
      (∀ m ∈ Member.ofBody body, P m.type (compile m.type)) →
      P t (.object .literal (fieldsOf body)))
    (t : Text) : P t (compile t) := by
  -- On the length: the type of a member is shorter than the text, but no tail of it.
  induction hlength : t.length using Nat.strongRecOn generalizing t with
  | ind n ih =>
    cases hbody : literalBody? t with
    | none =>
      rw [compile_of_literalBody?_eq_none hbody]
      exact text t hbody
    | some body =>
      rw [compile_of_literalBody?_eq_some hbody]
      refine object t body hbody fun m hm => ih m.type.length ?_ m.type rfl
      rw [← hlength]
      exact length_type_lt_of_literalBody? hbody hm

/-- Each field of an object is declared by one of its members. -/
theorem exists_member_of_mem_fieldsOf {body : Text} {field : Field Schema}
    (h : field ∈ fieldsOf body) : ∃ m ∈ Member.ofBody body, compileMember m = field :=
  List.mem_map.1 (mem_declareAll h)

/-- The body of an object literal is a piece of the text. -/
theorem isInfix_of_literalBody? {t body : Text} (h : literalBody? t = some body) :
    body <:+: t := by
  obtain ⟨htrim, _⟩ := literalBody?_eq_some_iff.1 h
  obtain ⟨u, v, _, _, ht⟩ := Text.exists_blank_trim t
  -- The brace and the white space in front, and the same behind.
  refine ⟨u ++ [.char '\x7b'], .char '\x7d' :: v, ?_⟩
  conv => rhs; rw [ht, htrim, literalText]
  simp

/-! ## Every level is well formed -/

theorem optionalNames_subset (fields : List (Field Schema)) :
    optionalNames fields ⊆ fields.map Field.name := by
  intro name hname
  obtain ⟨field, hfield, rfl⟩ := List.mem_map.1 hname
  exact List.mem_map_of_mem (List.mem_of_mem_filter hfield)

/-- A piece of a source compiles to a well-formed schema, provided that it could be kept where it is no
object literal. -/
theorem wellFormed_of_isInfix {source t : Text} (hsource : t <:+: source)
    (hkeeps : literalBody? t = none → t ≠ [] ∧ Tight t ∧ Undivided t) :
    WellFormed source (compile t) := by
  -- The induction is over compiling, and the piece and the condition on it go along.
  revert hsource hkeeps
  refine compile_structural (P := fun t schema => t <:+: source →
    (literalBody? t = none → t ≠ [] ∧ Tight t ∧ Undivided t) → WellFormed source schema) ?_ ?_ t
  · intro t hnone hsource hkeeps
    obtain ⟨hne, htight, hundivided⟩ := hkeeps hnone
    exact .text ⟨hne, htight, hsource, compile_of_literalBody?_eq_none hnone, hundivided⟩
  · intro t body hbody ih hsource _
    -- Distinct names and optional ones among them hold of any declared fields.
    refine .object ?_ (nodup_declareAll _) (optionalNames_subset _) ?_
    · intro field hfield
      obtain ⟨m, hm, rfl⟩ := exists_member_of_mem_fieldsOf hfield
      obtain ⟨piece, _, _, hread⟩ := Member.exists_piece_of_mem_ofBody hm
      exact hread.named
    · intro field hfield
      obtain ⟨m, hm, rfl⟩ := exists_member_of_mem_fieldsOf hfield
      obtain ⟨piece, hpiece, hundivided, hread⟩ := Member.exists_piece_of_mem_ofBody hm
      -- A type is a piece of its member, that of the body, that of the text, and that of the
      -- source.
      have hwithin : m.type <:+: source :=
        hread.isInfix.trans (hpiece.trans ((isInfix_of_literalBody? hbody).trans hsource))
      exact ih m hm hwithin fun _ => ⟨hread.typed, hread.tight, hread.undivided hundivided⟩

/-- **Every compiled object is well formed.**  Whatever text is compiled to an object, at every level
of the result the fields have names, each its own, and the optional ones are among them; and every
type text that is kept is a piece of the source, not empty and without white space around it, which
compiles to itself and has no separator at its top level. -/
theorem compile_wellFormed {t : Text} {form : ObjectForm} {fields : List (Field Schema)}
    (h : compile t = .object form fields) : WellFormed t (.object form fields) := by
  rw [← h]
  -- A text that is kept is no object, so nothing is to be shown of the whole source.
  refine wellFormed_of_isInfix List.infix_rfl fun hnone => ?_
  rw [compile_of_literalBody?_eq_none hnone] at h
  cases h

/-- A bracket that closes nothing, separators in brackets and a member that is no field, on two
levels. -/
theorem compile_wellFormed_malformed :
    let t := "\x7b c: V>\n 'a b'?: \x7b x: T, y: (U; V) \x7d; (z: W) \x7d".text
    let inner : Schema := .object .literal
      [⟨"x".text, false, .text "T".text⟩, ⟨"y".text, false, .text "(U; V)".text⟩]
    let fields := [⟨"c".text, false, .text "V>".text⟩, ⟨"a b".text, true, inner⟩]
    compile t = .object .literal fields ∧ WellFormed t (.object .literal fields) := by
  intro t inner fields
  have hinner : compile "\x7b x: T, y: (U; V) \x7d".text = inner := by
    have hbody : literalBody? "\x7b x: T, y: (U; V) \x7d".text = some " x: T, y: (U; V) ".text := by
      decide +kernel
    have hmembers : Member.ofBody " x: T, y: (U; V) ".text =
        [⟨"x".text, false, "T".text⟩, ⟨"y".text, false, "(U; V)".text⟩] := by decide +kernel
    rw [compile_of_literalBody?_eq_some hbody]
    exact congrArg _ (fieldsOf_of_texts hmembers (by decide))
  have hbody : literalBody? t =
      some " c: V>\n 'a b'?: \x7b x: T, y: (U; V) \x7d; (z: W) ".text := by decide +kernel
  have hmembers : Member.ofBody " c: V>\n 'a b'?: \x7b x: T, y: (U; V) \x7d; (z: W) ".text =
      [⟨"c".text, false, "V>".text⟩, ⟨"a b".text, true, "\x7b x: T, y: (U; V) \x7d".text⟩] := by
    decide +kernel
  have hkept : compile "V>".text = .text "V>".text := compile_of_literalBody?_eq_none (by decide)
  have hcompile : compile t = .object .literal fields := by
    rw [compile_of_literalBody?_eq_some hbody, hmembers, List.map_cons, List.map_cons, compileMember,
      compileMember, hinner, hkept]
    rfl
  exact ⟨hcompile, compile_wellFormed hcompile⟩

end RpcContract.Schema
