import Mathlib.Data.List.Forall2
import RpcContract.Registry.Builder

/-!
# Histories of a registry

What became of everything that was asked of a builder, from its start, is its history.  The history
alone says which registration is granted next and what the registry holds: under each name what was
granted last before the first freeze, the namespaces in the order in which a registration reached
them, and the functions of each in the order in which they were entered.
-/

namespace RpcContract

/-- A declaration that is well formed declares a parameter. -/
inductive Declaration.Declares : Declaration → Param → Prop
  | param (p : Param) : Declares (.param p) p
  | name (t : Text) : Declares (.name t) (.ofText t "any".text (.bool false))
  | typed (label type : Text) :
      Declares (.tuple [.text label, .text type]) (.ofText label type (.bool false))
  | marked (label type : Text) (mark : Value) :
      Declares (.tuple [.text label, .text type, mark]) (.ofText label type (.bool mark.isTrue))

theorem Declaration.declares_rightUnique : Relator.RightUnique Declares := by
  intro d p q hp hq
  cases hp <;> cases hq <;> rfl

/-- What a module exports under a name; null is no export. -/
def Source.export? (source : Source) (name : Text) : Option Export :=
  match Assoc.find? name source.attributes with
  | some (.value .null) => none
  | found => found

namespace Builder

/-! ## What is asked for -/

/-- A registration that is asked for.  There is no name where neither one is given nor the function
has its own, and nothing to call where a module exports nothing under the name. -/
structure Registration where
  ns : Text
  name : Option Text
  fn : Option Export
  declarations : List Declaration
  overwrite : Bool

/-- The name under which something is exported: the given one unless that is empty, else its own. -/
def exportName : Option Text → Export → Option Text
  | some (c :: rest), _ => some (c :: rest)
  | _, fn => fn.ownName?

/-- The registrations that an operation asks for, one after the other, if it does not freeze. -/
def Operation.registrations? : Operation → Option (List Registration)
  | .register ns name fn declarations overwrite =>
    some [⟨ns, some name, some fn, declarations, overwrite⟩]
  | .exportAs ns given fn declarations overwrite =>
    some [⟨ns, exportName given fn, some fn, declarations, overwrite⟩]
  | .fromSource ns source declarations overwrite =>
    some (declarations.map fun (name, declared) =>
      ⟨ns, some name, source.export? name, declared, overwrite⟩)
  | .freeze => none

/-! ## What became of it -/

/-- What can become of a builder. -/
inductive Event where
  | frozen
  | granted (ns name : Text) (entry : Registered)
  | refused (r : Registration)

namespace Event

/-- Whether the event is no freeze. -/
def leavesOpen : Event → Bool
  | .frozen => false
  | _ => true

/-- The namespace of a registration for which there was something to call. -/
def reached? : Event → Option Text
  | .granted ns _ _ => some ns
  | .refused ⟨ns, some _, some (.function _), _, _⟩ => some ns
  | _ => none

/-- The name that was granted in a namespace. -/
def entered? (ns : Text) : Event → Option Text
  | .granted other name _ => if other = ns then some name else none
  | _ => none

/-- The entry that was granted under a name of a namespace. -/
def entryAt (ns name : Text) : Event → Option Registered
  | .granted other label entry => if other = ns ∧ label = name then some entry else none
  | _ => none

end Event

/-- What became of a builder since its start, the latest last. -/
abbrev History := List Event

namespace History

/-- What happened before the first freeze. -/
def untilFreeze (h : History) : History := h.takeWhile Event.leavesOpen

/-- The namespaces, in the order in which a registration first reached them. -/
def namespaces (h : History) : List Text := (h.filterMap Event.reached?).eraseDups

/-- The names of a namespace, in the order in which they were first granted. -/
def functionNames (h : History) (ns : Text) : List Text :=
  (h.filterMap (Event.entered? ns)).eraseDups

/-- The entry that was granted last under a name of a namespace. -/
def lastEntry (h : History) (ns name : Text) : Option Registered :=
  (h.filterMap (Event.entryAt ns name)).getLast?

/-- The table of what was granted last under each name. -/
def table (h : History) : Table :=
  h.namespaces.map fun ns =>
    (ns, (h.functionNames ns).filterMap fun name => (h.lastEntry ns name).map (name, ·))

/-- A registration must be granted: nothing is frozen, there is a name and a function to call, the
name is free or may be taken over, and every declaration declares a parameter. -/
structure Grants (h : History) (r : Registration) (name : Text) (entry : Registered) : Prop where
  unfrozen : .frozen ∉ h
  named : r.name = some name
  callable : r.fn = some (.function entry.fn)
  free : h.lastEntry r.ns name = none ∨ r.overwrite = true
  declared : List.Forall₂ Declaration.Declares r.declarations entry.params

/-- What becomes of registrations that are asked for one after the other, and whether they succeed:
each that must be granted is, and the first other is refused and ends it. -/
inductive Attempts : History → List Registration → Bool → History → Prop
  | done (h : History) : Attempts h [] true h
  | refused {h : History} {r : Registration} {rest : List Registration}
      (hrefused : ∀ name entry, ¬ h.Grants r name entry) :
      Attempts h (r :: rest) false (h ++ [.refused r])
  | granted {h after : History} {r : Registration} {rest : List Registration} {name : Text}
      {entry : Registered} {succeeds : Bool} (hgranted : h.Grants r name entry)
      (hrest : Attempts (h ++ [.granted r.ns name entry]) rest succeeds after) :
      Attempts h (r :: rest) succeeds after

/-- What becomes of an operation, and whether it succeeds.  A builder may be frozen again. -/
inductive Carries : History → Operation → Bool → History → Prop
  | freeze (h : History) : Carries h .freeze true (h ++ [.frozen])
  | ask {h after : History} {operation : Operation} {registrations : List Registration}
      {succeeds : Bool} (hasked : operation.registrations? = some registrations)
      (hattempts : h.Attempts registrations succeeds after) : Carries h operation succeeds after

/-- What becomes of operations, each with whether it succeeds. -/
inductive Tells : History → List (Operation × Bool) → History → Prop
  | nil (h : History) : Tells h [] h
  | cons {h next after : History} {operation : Operation} {succeeds : Bool}
      {rest : List (Operation × Bool)} (hfirst : h.Carries operation succeeds next)
      (hrest : next.Tells rest after) : Tells h ((operation, succeeds) :: rest) after

/-! ### Only one history -/

section Unique

variable {h after other : History} {r : Registration}

theorem Grants.unique {name label : Text} {entry old : Registered} (hgrants : h.Grants r name entry)
    (hother : h.Grants r label old) : name = label ∧ entry = old := by
  obtain ⟨f, params⟩ := entry
  obtain ⟨g, others⟩ := old
  -- The name is part of what was asked, and so is the function.
  obtain rfl := Option.some.inj (hgrants.named.symm.trans hother.named)
  have hfn : some (Export.function f) = some (.function g) :=
    hgrants.callable.symm.trans hother.callable
  obtain rfl : f = g := by simpa using hfn
  -- Each declaration declares one parameter at most, so the lists of parameters are the same.
  obtain rfl : params = others :=
    Declaration.declares_rightUnique.forall₂ hgrants.declared hother.declared
  exact ⟨rfl, rfl⟩

theorem Attempts.unique {registrations : List Registration} {succeeds passes : Bool}
    (hattempts : h.Attempts registrations succeeds after)
    (hother : h.Attempts registrations passes other) : succeeds = passes ∧ after = other := by
  -- On the first history: a registration that must be granted is refused in neither.
  induction hattempts generalizing passes other with
  | done h =>
    cases hother
    exact ⟨rfl, rfl⟩
  | refused hrefused =>
    cases hother with
    | refused => exact ⟨rfl, rfl⟩
    | granted hgranted => exact absurd hgranted (hrefused _ _)
  | granted hgranted _ ih =>
    -- Granted alike, both go on from the same history.
    cases hother with
    | refused hrefused => exact absurd hgranted (hrefused _ _)
    | granted hgranted' hrest =>
      obtain ⟨rfl, rfl⟩ := hgranted.unique hgranted'
      exact ih hrest

theorem Carries.unique {operation : Operation} {succeeds passes : Bool}
    (hcarries : h.Carries operation succeeds after) (hother : h.Carries operation passes other) :
    succeeds = passes ∧ after = other := by
  -- A freeze asks for no registration, so both took the same way.
  cases hcarries with
  | freeze =>
    cases hother with
    | freeze => exact ⟨rfl, rfl⟩
    | ask hasked => cases hasked
  | ask hasked hattempts =>
    cases hother with
    | freeze => cases hasked
    | ask hasked' hattempts' =>
      obtain rfl := Option.some.inj (hasked.symm.trans hasked')
      exact hattempts.unique hattempts'

/-- What is asked decides what becomes of it. -/
theorem Tells.unique {told retold : List (Operation × Bool)} (htells : h.Tells told after)
    (hother : h.Tells retold other) (hasked : told.map Prod.fst = retold.map Prod.fst) :
    told = retold ∧ after = other := by
  -- On the first telling; what was asked next is the same in the other.
  induction htells generalizing retold other with
  | nil h =>
    cases hother with
    | nil => exact ⟨rfl, rfl⟩
    | cons => cases hasked
  | cons hfirst _ ih =>
    cases hother with
    | nil => cases hasked
    | cons hfirst' hrest' =>
      obtain ⟨hoperation, hrest⟩ := List.cons.inj hasked
      obtain rfl := hoperation
      obtain ⟨rfl, rfl⟩ := hfirst.unique hfirst'
      obtain ⟨rfl, rfl⟩ := ih hrest' hrest
      exact ⟨rfl, rfl⟩

end Unique

end History

/-! ## What a builder makes of it -/

/-- Operations with whether each succeeds when a builder carries them out. -/
def played (b : Builder) : List Operation → List (Operation × Bool)
  | [] => []
  | operation :: rest =>
    (operation, (b.apply operation).1.isOk) :: (b.apply operation).2.played rest

/-- A builder holds what a history says. -/
structure Holds (b : Builder) (h : History) : Prop where
  isFrozen : b.isFrozen = true ↔ .frozen ∈ h
  table : b.table = h.untilFreeze.table

end Builder

end RpcContract
