import RpcContract.Schema.Basic
import RpcContract.Schema.Member

/-!
# Compiling type text

A type text that is an object literal as a whole becomes an object schema, its members' types
compiled in turn; every other text is kept as it is, white space included.  Compiling never fails.
-/

namespace RpcContract

/-- The body of the object literal that a text is, when it is one as a whole: behind the opening
brace and before the closing one, with matching braces in between. -/
def literalBody? (t : Text) : Option Text :=
  match Text.trim t with
  | .char '\x7b' :: rest =>
    if rest.getLast? = some '\x7d' ∧ bracesMatch rest.dropLast then some rest.dropLast else none
  | _ => none

theorem length_of_literalBody? {t body : Text} (h : literalBody? t = some body) :
    body.length + 2 ≤ t.length := by
  have htrim := Text.length_trim_le t
  unfold literalBody? at h
  split at h
  · rename_i rest heq
    split at h
    · rename_i hlast
      simp only [Option.some.injEq] at h
      rw [heq, List.length_cons] at htrim
      have hne : rest ≠ [] := by
        intro hnil
        rw [hnil] at hlast
        exact absurd hlast.1 (by simp)
      have : 0 < rest.length := List.length_pos_iff.2 hne
      rw [← h, List.length_dropLast]
      omega
    · exact absurd h (by simp)
  · exact absurd h (by simp)

/-- The type of a member is shorter than the literal that it stands in. -/
theorem length_type_lt_of_literalBody? {t body : Text} {m : Member}
    (h : literalBody? t = some body) (hm : m ∈ Member.ofBody body) :
    m.type.length < t.length := by
  have hbody := length_of_literalBody? h
  have htype := Member.length_type_lt hm
  omega

namespace Schema

/-- Compiles a type text. -/
def compile (t : Text) : Schema :=
  match h : literalBody? t with
  | none => .text t
  | some body =>
    .object .literal (declareAll ((Member.ofBody body).attach.map fun ⟨m, hm⟩ =>
      have : m.type.length < t.length := length_type_lt_of_literalBody? h hm
      ⟨m.name, m.optional, compile m.type⟩))
  termination_by t.length

/-- The field that a member declares. -/
def compileMember (m : Member) : Field Schema := ⟨m.name, m.optional, compile m.type⟩

/-- What is no object literal is kept. -/
theorem compile_of_literalBody?_eq_none {t : Text} (h : literalBody? t = none) :
    compile t = .text t := by
  unfold compile
  split
  · rfl
  · rename_i heq
    rw [h] at heq
    exact absurd heq (by simp)

/-- An object literal declares the fields of its members in order. -/
theorem compile_of_literalBody?_eq_some {t body : Text} (h : literalBody? t = some body) :
    compile t = .object .literal (declareAll ((Member.ofBody body).map compileMember)) := by
  conv => lhs; unfold compile
  split
  · rename_i heq
    rw [h] at heq
    exact absurd heq (by simp)
  · rename_i body' heq
    rw [h, Option.some.injEq] at heq
    subst heq
    congr 2
    rw [List.map_attach_eq_pmap]
    exact List.pmap_eq_map ..

end Schema

end RpcContract
