import RpcContract.Schema.Scan
import RpcContract.Text.Word

/-!
# Members of object literals

The body of an object literal is split into members at its top-level semicolons and commas, and at
those top-level line feeds where a new member plainly begins.  A member that declares a field has a
name, perhaps a `?`, a colon and a type; every other member is passed over.
-/

namespace RpcContract

/-! ## Splitting -/

/-- What is left behind a closing quote, if there is one. -/
def behindQuote? (quote : CodePoint) (t : Text) : Option Text :=
  match t.dropWhile (· != quote) with
  | _ :: rest => some rest
  | [] => none

/-- What is left behind a name or a quoted name at the start of a text. -/
def behindName? : Text → Option Text
  | [] => none
  | c :: rest =>
    if c == '"' || c == '\'' then behindQuote? c rest
    else if Text.startsName c then some (rest.dropWhile Text.continuesName)
    else none

/-- The text without a question mark at its start and the white space behind that. -/
def skipMark : Text → Text
  | .char '?' :: rest => Text.trimLeft rest
  | t => t

/-- Whether a text begins with a name, perhaps marked as optional, and a colon. -/
def startsMember (t : Text) : Bool :=
  match behindName? (Text.trimLeft t) with
  | none => false
  | some rest => (skipMark (Text.trimLeft rest)).head? == some ':'

/-- The endings after which a type goes on in the next line. -/
def continuations : List Text := ["|".text, "&".text, ":".text, "=>".text, ",".text, ";".text]

/-- Whether a line feed behind `pending` and before `rest` ends a member. -/
def endsLine (pending rest : Text) : Bool :=
  let pending := Text.trim pending
  !pending.isEmpty && !continuations.any (Text.endsWith pending) && startsMember rest

/-- Whether a top-level character ends a member, given what it has of the member before it and the
text behind it. -/
def endsMember (pending : Text) (c : CodePoint) (rest : Text) : Bool :=
  c == ';' || c == ',' || (c == '\n' && endsLine pending rest)

/-- Splits the rest of a body into members, where `taken` is what the current member has already,
last character first. -/
def splitFrom (s : Scan) (taken : Text) : Text → List Text
  | [] => [taken.reverse]
  | c :: rest =>
    if s.sees c && endsMember taken.reverse c rest then
      taken.reverse :: splitFrom (s.next c) [] rest
    else splitFrom (s.next c) (c :: taken) rest

/-- Splits the body of an object literal into its members. -/
def splitMembers (body : Text) : List Text := splitFrom .start [] body

/-! ## Single members -/

/-- A member that declares a field. -/
structure Member where
  name : Text
  optional : Bool
  type : Text
  deriving Repr, DecidableEq

/-- The text between a single or double quote at its start and the same quote at its end. -/
def unquote? : Text → Option Text
  | [] => none
  | quote :: rest =>
    if (quote == '"' || quote == '\'') && rest.getLast? == some quote then some rest.dropLast
    else none

/-- The text without a question mark at its end and the white space before it, and whether there
was one. -/
def splitMark (t : Text) : Text × Bool :=
  if t.getLast? = some '?' then (Text.trimRight t.dropLast, true) else (t, false)

/-- The name that stands before the colon of a member and whether it is marked as optional.  Index
and call signatures name no field. -/
def fieldName? (label : Text) : Option (Text × Bool) :=
  let (name, optional) := splitMark (Text.trim label)
  match unquote? name with
  | some inner => if inner.isEmpty then none else some (inner, optional)
  | none => if Text.isName name then some (name, optional) else none

/-- The field that a member declares, if it declares one. -/
def Member.ofText? (t : Text) : Option Member := do
  let (label, rest) ← Scan.splitColon? .start t
  let (name, optional) ← fieldName? label
  let type := Text.trim rest
  if type.isEmpty then none else some ⟨name, optional, type⟩

/-- The members of a body that declare fields, in order. -/
def Member.ofBody (body : Text) : List Member := (splitMembers body).filterMap Member.ofText?

/-! ## Members are shorter than what holds them -/

theorem Text.length_trim_le (t : Text) : (Text.trim t).length ≤ t.length := by
  simp only [Text.trim, Text.trimRight, Text.trimLeft, List.length_reverse]
  have h := (List.dropWhile_sublist (l := (t.dropWhile Text.isBlank).reverse)
    Text.isBlank).length_le
  have h' := (List.dropWhile_sublist (l := t) Text.isBlank).length_le
  simp only [List.length_reverse] at h
  omega

theorem length_le_of_mem_splitFrom {s : Scan} {taken body m : Text}
    (h : m ∈ splitFrom s taken body) : m.length ≤ taken.length + body.length := by
  induction body generalizing s taken with
  | nil =>
    simp only [splitFrom, List.mem_singleton] at h
    simp [h]
  | cons c rest ih =>
    simp only [splitFrom] at h
    split at h
    · simp only [List.mem_cons] at h
      rcases h with rfl | h
      · simp only [List.length_reverse, List.length_cons]
        omega
      · have := ih h
        simp only [List.length_nil, List.length_cons] at this ⊢
        omega
    · have := ih h
      simp only [List.length_cons] at this ⊢
      omega

/-- The type of a member is shorter than the body. -/
theorem Member.length_type_lt {body : Text} {m : Member} (h : m ∈ Member.ofBody body) :
    m.type.length < body.length := by
  obtain ⟨t, ht, hm⟩ := List.mem_filterMap.1 h
  have hlen := length_le_of_mem_splitFrom ht
  simp only [Member.ofText?, Option.bind_eq_bind, Option.bind_eq_some_iff] at hm
  obtain ⟨⟨label, rest⟩, hc, ⟨name, optional⟩, _, hm⟩ := hm
  have hsplit := Scan.length_of_splitColon? hc
  have htrim := Text.length_trim_le rest
  split at hm
  · exact absurd hm (by simp)
  · simp only [Option.some.injEq] at hm
    rw [← hm]
    simp only [List.length_nil] at hlen
    show (Text.trim rest).length < body.length
    omega

end RpcContract
