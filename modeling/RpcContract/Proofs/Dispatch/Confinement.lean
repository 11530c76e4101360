import RpcContract.Proofs.Dispatch.Arity

/-!
# What a wire body decides

A wire body names a function and gives it arguments, and it decides nothing else.  Two bodies that
spell the same call are handled alike, whatever else they hold and in whatever order: the context of
the host is written over one that a body brings, and the second spelling of a name counts only where
the first is missing.  A function that is called finds the context of the host around it.
-/

namespace RpcContract

namespace Form

variable {α : Type} {name second : Text} {entries others : Assoc Value}

/-- Two objects agree on a field that has two names: on what stands under the first and, where
neither has that, on what stands under the second. -/
structure AgreeOn (name second : Text) (entries others : Assoc Value) : Prop where
  first : Assoc.find? name entries = Assoc.find? name others
  second : Assoc.find? name entries = none → Assoc.find? second entries = Assoc.find? second others

/-- What is read from a field depends on what stands there alone. -/
theorem field_congr (h : Assoc.find? name entries = Assoc.find? name others)
    (read : Location → Value → Reading α) (default : Option α) (place : Location) :
    field read default name place entries = field read default name place others := by
  simp only [field, h]

theorem aliasedField_congr (h : AgreeOn name second entries others)
    (read : Location → Value → Reading α) (place : Location) :
    aliasedField read name second place entries = aliasedField read name second place others := by
  -- Where the first name is there it is read in both, otherwise the second is, if it is there.
  cases hfirst : Assoc.find? name others with
  | some v =>
    have hentries := h.first.trans hfirst
    simp only [aliasedField, Assoc.has, hentries, hfirst, Option.isSome_some, Bool.true_or, if_true]
    exact field_congr h.first read none place
  | none =>
    have hentries := h.first.trans hfirst
    have hsecond := h.second hentries
    simp only [aliasedField, Assoc.has, hentries, hfirst, hsecond]
    -- Both are read under the same name, whichever it is.
    split
    · exact field_congr h.first read none place
    · exact field_congr hsecond read none place

end Form

namespace Request

variable {entries others : Assoc Value} {context : Value}

/-- Two wire bodies spell the same call: they agree on its two names and on its arguments. -/
structure SameCall (entries others : Assoc Value) : Prop where
  ns : Form.AgreeOn nsAlias nsField entries others
  function : Form.AgreeOn functionAlias functionField entries others
  args : Assoc.find? argsField entries = Assoc.find? argsField others

/-- Names on which two bodies agree are left alone by the context of the host. -/
theorem agreeOn_put_context {name second : Text} (hname : name ≠ contextField)
    (hsecond : second ≠ contextField) (h : Form.AgreeOn name second entries others)
    (context : Value) :
    Form.AgreeOn name second (Assoc.put contextField context entries)
      (Assoc.put contextField context others) := by
  constructor
  -- The context is written under a name of its own, so it hides neither spelling.
  · rw [find?_put_context hname, find?_put_context hname]
    exact h.first
  · rw [find?_put_context hname, find?_put_context hsecond, find?_put_context hsecond]
    exact h.second

/-- Bodies that spell the same call are read as the same request, or have the same faults. -/
theorem ofMembers_congr (h : SameCall entries others) (context : Value) :
    ofMembers context entries = ofMembers context others := by
  have hns := Form.aliasedField_congr
    (agreeOn_put_context (by decide) (by decide) h.ns context) Form.text []
  have hfunction := Form.aliasedField_congr
    (agreeOn_put_context (by decide) (by decide) h.function context) Form.text []
  have hargs : Assoc.find? argsField (Assoc.put contextField context entries) =
      Assoc.find? argsField (Assoc.put contextField context others) := by
    rw [find?_put_context (by decide), find?_put_context (by decide)]
    exact h.args
  simp only [ofMembers, ofFields, context_put, hns, hfunction,
    Form.field_congr hargs Form.anyList (some []) []]

end Request

namespace Dispatch

variable {registry : Registry} {config : Config} {id : CallId} {context : Value}
  {entries : Assoc Value} {a : Ambient}

/-- A run calls no function, or it serves the request that a body spells out, whose function is
called with the context of the host around it. -/
def CallsInContext (config : Config) (id : CallId) (context : Value) (entries : Assoc Value)
    (a : Ambient) (run : Run Activity) : Prop :=
  Activity.invocations run.trace = [] ∨
    ∃ r target, r.SpelledBy entries context ∧ Serves config id a r target run ∧
      (inside a id r).context = some context

theorem callsInContext (registry : Registry) (config : Config) (id : CallId) (context : Value)
    (entries : Assoc Value) (a : Ambient) :
    CallsInContext config id context entries a
      ((handle registry config id context (.body (.record entries))).evaluate a) := by
  -- A body that spells no request is refused, and one that is not accepted calls nothing.
  by_cases hasks : ∃ r, (Incoming.body (.record entries)).Asks context r
  · obtain ⟨r, hasks⟩ := hasks
    cases haccept : accept registry config r with
    | error failure => exact .inl (invocations_of_accept_eq_error hasks haccept)
    | ok accepted =>
      right
      obtain ⟨target, args⟩ := accepted
      obtain rfl : args = Wire.decodeArgs r.args := (accepted_of_accept_eq_ok haccept).2.1
      have hserves : Serves config id a r target
          ((handle registry config id context (.body (.record entries))).evaluate a) :=
        serves_of_accept_eq_ok hasks haccept
      cases hasks with
      | body hspelled => exact ⟨r, target, hspelled, hserves, congrArg some hspelled.context⟩
  · left
    obtain ⟨report, hrefused⟩ := refuses_of_malformed registry hasks
    exact hrefused.invocations

/-- **A wire body decides nothing but the call that it spells.**  Two bodies that agree on the names
and the arguments of a call are handled by the same program, whatever the registry, so that every
run ends alike, with the same records and the same calls; and a function that is called finds the
context of the host around it, whatever the bodies hold. -/
theorem handle_eq_of_sameCall (registry : Registry) (config : Config) (id : CallId)
    (context : Value) {entries others : Assoc Value} (h : Request.SameCall entries others) :
    handle registry config id context (.body (.record entries)) =
      handle registry config id context (.body (.record others)) ∧
    ∀ a, CallsInContext config id context entries a
      ((handle registry config id context (.body (.record entries))).evaluate a) := by
  refine ⟨?_, callsInContext registry config id context entries⟩
  -- The body is read once, at the start; nothing looks at it afterwards.
  simp only [handle, Incoming.toRequest, Request.ofMembers_congr h]

/-- A forged context and a second name for the namespace change nothing: the function finds the
context of the host. -/
theorem handle_eq_of_sameCall_forged :
    let table := (Builder.run [.register "m".text "ctx".text (.function Sample.contextProbe)
      [] false]).table
    let plain : Assoc Value :=
      [("filePath".text, .text "m".text), ("functionName".text, .text "ctx".text)]
    let forged : Assoc Value :=
      [("context".text, .text "forged".text), ("namespace".text, .text "other".text),
        ("function_name".text, .int 0), ("functionName".text, .text "ctx".text),
        ("filePath".text, .text "m".text)]
    let run (entries : Assoc Value) : Run Activity :=
      (handle (.built table) .default .outside (.text "host".text)
        (.body (.record entries))).evaluate .outside
    Request.SameCall plain forged ∧
    (run plain).outcome = .returned (envelope (.text "host".text)) ∧ run forged = run plain := by
  intro table plain forged run
  have hsame : Request.SameCall plain forged :=
    ⟨⟨rfl, fun h => by cases h⟩, ⟨rfl, fun h => by cases h⟩, rfl⟩
  refine ⟨hsame, rfl, ?_⟩
  have heq := (handle_eq_of_sameCall (.built table) .default .outside (.text "host".text) hsame).1
  exact (congrArg (fun program => program.evaluate .outside) heq).symm

end Dispatch

end RpcContract
