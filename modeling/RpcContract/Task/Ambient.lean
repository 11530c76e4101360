import RpcContract.Failure

/-!
# What surrounds a task

Two values surround the code of a task without being passed to it: the context of the request that
it serves and the id of the call that it belongs to.  Both are set for the extent of a scope.
-/

namespace RpcContract

/-- The id of a call. -/
inductive CallId where
  /-- Outside every call. -/
  | outside
  /-- An id that was chosen by whoever made the call. -/
  | given (id : Value)
  /-- The `n`-th id that was made up. -/
  | generated (n : Nat)
  deriving Repr

/-- Whether the id is that of no call. -/
def CallId.isOutside : CallId → Bool
  | .outside => true
  | .given _ | .generated _ => false

/-- The values that surround a task. -/
structure Ambient where
  /-- The request context; none outside every context scope. -/
  context : Option Value
  callId : CallId
  deriving Repr

/-- What a scope sets for its extent. -/
inductive Setting where
  | context (v : Value)
  | callId (id : CallId)
  deriving Repr

/-- What the variable that a scope sets held before. -/
inductive Saved where
  | context (v : Option Value)
  | callId (id : CallId)
  deriving Repr

/-- How a computation ends. -/
inductive Outcome where
  | returned (v : Value)
  | raised (f : Failure)
  deriving Repr

namespace Ambient

/-- Outside every scope. -/
def outside : Ambient := ⟨none, .outside⟩

/-- The surroundings inside a scope. -/
def set (a : Ambient) : Setting → Ambient
  | .context v => { a with context := some v }
  | .callId id => { a with callId := id }

/-- What has to be put back when a scope ends. -/
def save (a : Ambient) : Setting → Saved
  | .context _ => .context a.context
  | .callId _ => .callId a.callId

/-- Puts back what a scope found. -/
def restore (a : Ambient) : Saved → Ambient
  | .context v => { a with context := v }
  | .callId id => { a with callId := id }

/-- Whether the surroundings are those of a context scope. -/
def inContext (a : Ambient) : Bool := a.context.isSome

/-- The request context, where there must be one. -/
def requireContext (a : Ambient) : Except Failure Value :=
  match a.context with
  | some v => .ok v
  | none => .error .noContext

/-- The request context, or null outside every context scope. -/
def contextOrNull (a : Ambient) : Value := a.context.getD .null

/-- Leaving a scope right after entering it changes nothing. -/
theorem restore_set_save (a : Ambient) (s : Setting) : (a.set s).restore (a.save s) = a := by
  cases s <;> rfl

end Ambient

/-- The outcome of a computation that either has a value or fails. -/
def Outcome.ofExcept : Except Failure Value → Outcome
  | .ok v => .returned v
  | .error f => .raised f

end RpcContract
