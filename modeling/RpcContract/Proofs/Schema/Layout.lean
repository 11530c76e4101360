import RpcContract.Proofs.Schema.Balance
import RpcContract.Schema.Compile

/-!
# Layouts of object literals

The many ways in which a schema of objects can be written as an object literal, as a relation
between schemas and texts.  White space may stand around every part; members are separated by
semicolons, commas or line feeds; names are bare or quoted; and what stands for the type of a leaf
is any text whose brackets match and that no scan could take for the end of its member.
-/

namespace RpcContract

namespace Layout

open Text (Blank Tight)

/-! ## Leaves -/

/-- Whether the character stays within a member when it stands outside brackets. -/
def isInline (c : CodePoint) : Bool := !(c == ';' || c == ',' || c == '\n')

/-- Whether the character is no quote, no backslash and no bracket. -/
def isOrdinary (c : CodePoint) : Bool := isCalm c && c != '\\'

/-- A text without quotes and backslashes whose brackets match, each with one of its kind, and whose
characters outside brackets are all of a class.  A `>` right behind a `=` is no bracket. -/
inductive Matched : (CodePoint → Bool) → Text → Prop where
  | nil {p : CodePoint → Bool} : Matched p []
  | ordinary {p : CodePoint → Bool} {c : CodePoint} {t : Text} (hc : isOrdinary c = true)
      (hp : p c = true) (ht : Matched p t) : Matched p (c :: t)
  | arrow {p : CodePoint → Bool} {t : Text} (hp : p (.char '=') = true) (ht : Matched p t) :
      Matched p (.char '=' :: .char '>' :: t)
  | bracketed {p : CodePoint → Bool} {o c : CodePoint} {inside t : Text}
      (hbrackets : Brackets o c) (hinside : Matched (fun _ => true) inside)
      (harrow : ¬ (c = .char '>' ∧ inside.getLast? = some (.char '='))) (ht : Matched p t) :
      Matched p (o :: inside ++ [c] ++ t)

/-- The endings that ask for more: a type that has one of them goes on in the next line. -/
def unfinished : List Text := ["|".text, "&".text, ":".text, "=>".text]

/-- The texts that can stand for the type of a leaf. -/
structure IsLeaf (t : Text) : Prop where
  nonempty : t ≠ []
  tight : Tight t
  matched : Matched isInline t
  finished : ∀ ending ∈ unfinished, ¬ ending <:+ t
  /-- A leaf is no object literal itself. -/
  notLiteral : ∀ body, Matched (fun _ => true) body →
    t ≠ .char '\x7b' :: body ++ [.char '\x7d']

/-! ## Members -/

/-- A name as it is, or between quotes. -/
inductive NameText : Text → Text → Prop where
  | bare {name : Text} (h : Text.isName name = true) : NameText name name
  | quoted {name : Text} {quote : CodePoint} (hquote : quote = .char '"' ∨ quote = .char '\'')
      (hname : name ≠ []) (hfree : quote ∉ name) (hbackslash : .char '\\' ∉ name) :
      NameText name (quote :: name ++ [quote])

/-- The mark of an optional field. -/
def markText (optional : Bool) : Text := if optional then [.char '?'] else []

/-- What stands before the colon of a member. -/
inductive LabelText (name : Text) (optional : Bool) : Text → Prop where
  | mk {written u v : Text} (hname : NameText name written) (hu : Blank u) (hv : Blank v) :
      LabelText name optional (written ++ u ++ markText optional ++ v)

/-- What stands between two members. -/
inductive SeparatorText : Text → Prop where
  | mark {c : CodePoint} {u v : Text} (hc : c = .char ';' ∨ c = .char ',') (hu : Blank u)
      (hv : Blank v) : SeparatorText (u ++ c :: v)
  | line {u v : Text} (hu : Blank u) (hv : Blank v) : SeparatorText (u ++ .char '\n' :: v)

/-- What stands behind the last member. -/
inductive TrailingText : Text → Prop where
  | blank {u : Text} (hu : Blank u) : TrailingText u
  | mark {c : CodePoint} {u v : Text} (hc : c = .char ';' ∨ c = .char ',') (hu : Blank u)
      (hv : Blank v) : TrailingText (u ++ c :: v)

/-! ## Object literals

What is a text of a type is a parameter here, so that everything that can be said about the members
of a literal is said without an induction over types. -/

/-- A member that declares a field. -/
inductive MemberText (IsType : Schema → Text → Prop) : Field Schema → Text → Prop where
  | mk {name : Text} {optional : Bool} {schema : Schema} {label gap type : Text}
      (hlabel : LabelText name optional label) (hgap : Blank gap) (htype : IsType schema type) :
      MemberText IsType ⟨name, optional, schema⟩ (label ++ .char ':' :: gap ++ type)

/-- One or more members and what stands between and behind them. -/
inductive MembersText (IsType : Schema → Text → Prop) : List (Field Schema) → Text → Prop where
  | last {field : Field Schema} {member trailing : Text} (hmember : MemberText IsType field member)
      (htrailing : TrailingText trailing) : MembersText IsType [field] (member ++ trailing)
  | next {field : Field Schema} {fields : List (Field Schema)} {member separator rest : Text}
      (hmember : MemberText IsType field member) (hseparator : SeparatorText separator)
      (hrest : MembersText IsType fields rest) :
      MembersText IsType (field :: fields) (member ++ separator ++ rest)

/-- The body of an object literal. -/
inductive BodyText (IsType : Schema → Text → Prop) : List (Field Schema) → Text → Prop where
  | empty {trailing : Text} (htrailing : TrailingText trailing) : BodyText IsType [] trailing
  | members {fields : List (Field Schema)} {leading members : Text} (hleading : Blank leading)
      (hmembers : MembersText IsType fields members) : BodyText IsType fields (leading ++ members)

section Mono

variable {P Q : Schema → Text → Prop} (h : ∀ schema t, P schema t → Q schema t)

include h

theorem MemberText.mono {field : Field Schema} {t : Text} (ht : MemberText P field t) :
    MemberText Q field t := by
  obtain ⟨hlabel, hgap, htype⟩ := ht
  exact .mk hlabel hgap (h _ _ htype)

theorem MembersText.mono {fields : List (Field Schema)} {t : Text} (ht : MembersText P fields t) :
    MembersText Q fields t := by
  induction ht with
  | last hmember htrailing => exact .last (hmember.mono h) htrailing
  | next hmember hseparator _ ih => exact .next (hmember.mono h) hseparator ih

theorem BodyText.mono {fields : List (Field Schema)} {t : Text} (ht : BodyText P fields t) :
    BodyText Q fields t := by
  cases ht with
  | empty htrailing => exact .empty htrailing
  | members hleading hmembers => exact .members hleading (hmembers.mono h)

end Mono

end Layout

namespace Schema

open Layout

/-- A text is one of the ways to write a schema. -/
inductive Prints : Schema → Text → Prop where
  | leaf {t : Text} (h : IsLeaf t) : Prints (.text t) t
  | object {fields : List (Field Schema)} {body : Text} (hnames : (fields.map Field.name).Nodup)
      (hbody : BodyText Prints fields body) :
      Prints (.object .literal fields) (.char '\x7b' :: body ++ [.char '\x7d'])

/-- Induction over the ways to write a schema: what holds of leaves, and of literals whose types it
holds of, holds of all. -/
theorem Prints.structural {P : Schema → Text → Prop} (leaf : ∀ t, IsLeaf t → P (.text t) t)
    (object : ∀ fields body, (fields.map Field.name).Nodup → BodyText P fields body →
      P (.object .literal fields) (.char '\x7b' :: body ++ [.char '\x7d']))
    {schema : Schema} {t : Text} (h : Prints schema t) : P schema t := by
  -- The predicates of the other three relations say that they hold with `P` in place of the texts
  -- of types, so each of their cases puts the parts together again.
  refine @Prints.rec (fun schema t _ => P schema t) (fun fields t _ => BodyText P fields t)
    (fun fields t _ => MembersText P fields t) (fun field t _ => MemberText P field t)
    ?_ ?_ ?_ ?_ ?_ ?_ ?_ schema t h
  · intro t h
    exact leaf t h
  · intro fields body hnames _ hbody
    exact object fields body hnames hbody
  · intro trailing htrailing
    exact .empty htrailing
  · intro fields leading members hleading _ hmembers
    exact .members hleading hmembers
  · intro field member trailing _ htrailing hmember
    exact .last hmember htrailing
  · intro field fields member separator rest _ hseparator _ hmember hrest
    exact .next hmember hseparator hrest
  · intro name optional schema label gap type hlabel hgap _ htype
    exact .mk hlabel hgap htype

end Schema

end RpcContract
