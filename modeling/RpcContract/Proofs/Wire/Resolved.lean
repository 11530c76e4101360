import RpcContract.Proofs.Wire.Inverse
import RpcContract.Proofs.Wire.Materialized
import RpcContract.Proofs.Wire.Trimming

/-!
# The arguments of a call against those of its request

Between a request and its call the arguments are decoded and then materialized, and together the two
resolve the placeholder wherever it stands: at the end of the arguments it goes, in front of others
and as an item of a list it becomes null, and as a member of an object it disappears.  Nothing else
changes, and there is nothing left for either to do.
-/

namespace RpcContract

namespace Value

/-! ## What resolving comes to -/

mutual

/-- The value with null in the place of the placeholder, at any depth. -/
def nulled : Value → Value
  | .text t => if t = Wire.placeholder then .null else .text t
  | .list items => .list (nulledItems items)
  | .tuple items => .tuple (nulledItems items)
  | .record members => .record (nulledMembers members)
  | v => v

def nulledItems : List Value → List Value
  | [] => []
  | item :: rest => nulled item :: nulledItems rest

def nulledMembers : List (Text × Value) → List (Text × Value)
  | [] => []
  | (name, v) :: rest => (name, nulled v) :: nulledMembers rest

end

/-- What an argument comes to: the members that hold the placeholder are gone from its objects, and
wherever else the placeholder stands there is null instead. -/
def resolved (v : Value) : Value := (v.without isPlaceholder).nulled

/-- Whether neither the placeholder nor undefined is in the value, at any depth. -/
def isResolved : Value → Bool := throughout fun v => !v.isPlaceholder && !v.isUndefined

theorem isUndefined_of_isResolved {v : Value} (h : v.isResolved = true) : v.isUndefined = false := by
  have hself := of_throughout h
  simp only [Bool.and_eq_true, Bool.not_eq_true'] at hself
  exact hself.2

end Value

namespace Wire

open Value

/-! ## Resolving -/

theorem materializeItems_decodeItems {items : List Value}
    (h : ∀ item ∈ items, materialize (decode item) = item.resolved) :
    materializeItems (decodeItems items) = nulledItems (withoutItems isPlaceholder items) := by
  induction items with
  | nil => rfl
  | cons item rest ih =>
    have hitem : materialize (decode item) = (item.without isPlaceholder).nulled :=
      h item List.mem_cons_self
    have hrest := ih fun other hother => h other (List.mem_cons_of_mem _ hother)
    simp only [decodeItems, materializeItems, withoutItems, nulledItems, hitem, hrest]

/-- What decoding drops is what holds the placeholder, so materializing finds nothing undefined among
the members. -/
theorem materializeMembers_decodeMembers {members : List (Text × Value)}
    (hjson : ∀ member ∈ members, member.2.isJson = true)
    (h : ∀ member ∈ members, materialize (decode member.2) = member.2.resolved) :
    materializeMembers (decodeMembers members) =
      nulledMembers (withoutMembers isPlaceholder members) := by
  induction members with
  | nil => rfl
  | cons member rest ih =>
    obtain ⟨name, v⟩ := member
    have hv : materialize (decode v) = (v.without isPlaceholder).nulled :=
      h (name, v) List.mem_cons_self
    have hundefined : (decode v).isUndefined = v.isPlaceholder :=
      isUndefined_decode (hjson (name, v) List.mem_cons_self)
    have hrest := ih (fun other hother => hjson other (List.mem_cons_of_mem _ hother))
      fun other hother => h other (List.mem_cons_of_mem _ hother)
    simp only [decodeMembers, withoutMembers, hundefined]
    -- The member goes with its placeholder.
    by_cases hdrop : v.isPlaceholder = true
    · rw [if_pos hdrop, if_pos hdrop]
      exact hrest
    · rw [if_neg hdrop, if_neg hdrop]
      simp only [materializeMembers, nulledMembers, hv, hrest]

/-- Decoding and materializing together resolve the placeholder. -/
theorem materialize_decode {v : Value} (h : v.isJson = true) :
    materialize (decode v) = v.resolved := by
  -- Over the value; the kinds that JSON has no word for cannot occur.
  induction v using Value.structural with
  | undefined => exact absurd (of_throughout h) (by simp)
  | tuple items _ => exact absurd (of_throughout h) (by simp)
  | text t =>
    by_cases ht : t = placeholder <;> simp [decode, materialize, resolved, without, nulled, ht]
  | list items ih =>
    have hitems := throughout_of_mem_list h
    have hlist := materializeItems_decodeItems fun item hitem => ih item hitem (hitems item hitem)
    simp only [decode, materialize, resolved, without, nulled, hlist]
  | record members ih =>
    have hmembers := throughout_of_mem_record h
    have hrecord := materializeMembers_decodeMembers hmembers
      fun member hmember => ih member hmember (hmembers member hmember)
    simp only [decode, materialize, resolved, without, nulled, hrecord]
  | _ => rfl

/-- Each member that decoding leaves is one of the members, decoded and not undefined. -/
theorem mem_decodeMembers {members : List (Text × Value)} {member : Text × Value}
    (h : member ∈ decodeMembers members) :
    ∃ old ∈ members, member = (old.1, decode old.2) ∧ (decode old.2).isUndefined = false := by
  induction members with
  | nil => exact absurd h List.not_mem_nil
  | cons first rest ih =>
    obtain ⟨name, v⟩ := first
    have hrest (hlater : member ∈ decodeMembers rest) : ∃ old ∈ (name, v) :: rest,
        member = (old.1, decode old.2) ∧ (decode old.2).isUndefined = false := by
      obtain ⟨old, hold, hleft⟩ := ih hlater
      exact ⟨old, List.mem_cons_of_mem _ hold, hleft⟩
    simp only [decodeMembers] at h
    -- It is dropped, or it is the first that is left.
    split at h
    · exact hrest h
    · rename_i hkept
      rcases List.mem_cons.1 h with rfl | hlater
      · exact ⟨(name, v), List.mem_cons_self, rfl, Bool.eq_false_iff.2 hkept⟩
      · exact hrest hlater

/-- Of a JSON value nothing is left to resolve. -/
theorem isResolved_materialize_decode {v : Value} (h : v.isJson = true) :
    (materialize (decode v)).isResolved = true := by
  induction v using Value.structural with
  | undefined => exact absurd (of_throughout h) (by simp)
  | tuple items _ => exact absurd (of_throughout h) (by simp)
  | host => exact absurd (of_throughout h) (by simp)
  | text t =>
    by_cases ht : t = placeholder <;>
      simp [decode, materialize, ht, isResolved, throughout, isPlaceholder, isUndefined]
  | list items ih =>
    have hitems := throughout_of_mem_list h
    refine Bool.and_eq_true_iff.2 ⟨rfl, throughoutItems_iff.2 ?_⟩
    intro item hitem
    rw [materializeItems_eq_map, decodeItems_eq_map, List.map_map] at hitem
    obtain ⟨old, hold, rfl⟩ := List.mem_map.1 hitem
    exact ih old hold (hitems old hold)
  | record members ih =>
    have hmembers := throughout_of_mem_record h
    refine Bool.and_eq_true_iff.2 ⟨rfl, throughoutMembers_iff.2 ?_⟩
    intro member hmember
    -- Each value of a member that is left is an old one, decoded and materialized.
    rw [materializeMembers_eq_map] at hmember
    obtain ⟨decoded, hdecoded, rfl⟩ := List.mem_map.1 hmember
    obtain ⟨old, hold, rfl, _⟩ := mem_decodeMembers hdecoded
    exact ih old hold (hmembers old hold)
  | null | bool | int | float => rfl

/-! ## Nothing left to do -/

theorem decodeItems_of_fixed {items : List Value} (h : ∀ item ∈ items, decode item = item) :
    decodeItems items = items := by
  have hsame : ∀ item ∈ items, decode item = id item := h
  rw [decodeItems_eq_map, List.map_congr_left hsame, List.map_id]

theorem materializeItems_of_fixed {items : List Value}
    (h : ∀ item ∈ items, materialize item = item) : materializeItems items = items := by
  -- A list that is mapped to itself member by member is itself.
  have hsame : ∀ item ∈ items, materialize item = id item := h
  rw [materializeItems_eq_map, List.map_congr_left hsame, List.map_id]

theorem materializeMembers_of_fixed {members : List (Text × Value)}
    (h : ∀ member ∈ members, materialize member.2 = member.2) :
    materializeMembers members = members := by
  have hsame : ∀ member ∈ members, (member.1, materialize member.2) = id member :=
    fun member hmember => Prod.ext rfl (h member hmember)
  rw [materializeMembers_eq_map, List.map_congr_left hsame, List.map_id]

/-- A member that decodes to itself stays, unless it is undefined. -/
theorem decodeMembers_of_fixed {members : List (Text × Value)}
    (h : ∀ member ∈ members, decode member.2 = member.2)
    (hdefined : ∀ member ∈ members, member.2.isUndefined = false) :
    decodeMembers members = members := by
  induction members with
  | nil => rfl
  | cons member rest ih =>
    obtain ⟨name, v⟩ := member
    have hv : decode v = v := h (name, v) List.mem_cons_self
    have hkept : v.isUndefined = false := hdefined (name, v) List.mem_cons_self
    have hrest := ih (fun other hother => h other (List.mem_cons_of_mem _ hother))
      fun other hother => hdefined other (List.mem_cons_of_mem _ hother)
    simp only [decodeMembers, hv, hkept, Bool.false_eq_true, if_false, hrest]

/-- What has been decoded is not changed by decoding. -/
theorem decode_decode (v : Value) : decode (decode v) = decode v := by
  induction v using Value.structural with
  | text t => by_cases ht : t = placeholder <;> simp [decode, ht]
  | list items ih =>
    rw [decode, decodeItems_eq_map, decode, decodeItems_eq_map, List.map_map]
    exact congrArg Value.list (List.map_congr_left ih)
  | record members ih =>
    -- Nothing that decoding left is undefined, so the second time nothing is dropped.
    have hfixed : ∀ member ∈ decodeMembers members, decode member.2 = member.2 := by
      intro member hmember
      obtain ⟨old, hold, rfl, _⟩ := mem_decodeMembers hmember
      exact ih old hold
    have hdefined : ∀ member ∈ decodeMembers members, member.2.isUndefined = false := by
      intro member hmember
      obtain ⟨old, _, rfl, hkept⟩ := mem_decodeMembers hmember
      exact hkept
    rw [decode, decode, decodeMembers_of_fixed hfixed hdefined]
  | _ => rfl

/-- Where there is nothing to resolve, decoding changes nothing. -/
theorem decode_of_isResolved {v : Value} (h : v.isResolved = true) : decode v = v := by
  induction v using Value.structural with
  | text t =>
    -- A resolved text is not the placeholder.
    have ht : t ≠ placeholder := by
      simpa [isPlaceholder, isUndefined] using of_throughout h
    rw [decode, if_neg ht]
  | list items ih =>
    have hitems := throughout_of_mem_list h
    rw [decode, decodeItems_of_fixed fun item hitem => ih item hitem (hitems item hitem)]
  | record members ih =>
    have hmembers := throughout_of_mem_record h
    have hfixed : ∀ member ∈ members, decode member.2 = member.2 := fun member hmember =>
      ih member hmember (hmembers member hmember)
    have hdefined : ∀ member ∈ members, member.2.isUndefined = false := fun member hmember =>
      isUndefined_of_isResolved (hmembers member hmember)
    rw [decode, decodeMembers_of_fixed hfixed hdefined]
  | _ => rfl

/-- Where there is nothing to resolve, materializing changes nothing. -/
theorem materialize_of_isResolved {v : Value} (h : v.isResolved = true) : materialize v = v := by
  induction v using Value.structural with
  | undefined => exact absurd (of_throughout h) (by simp [isUndefined])
  | list items ih =>
    have hitems := throughout_of_mem_list h
    rw [materialize, materializeItems_of_fixed fun item hitem => ih item hitem (hitems item hitem)]
  | record members ih =>
    have hmembers := throughout_of_mem_record h
    rw [materialize, materializeMembers_of_fixed fun member hmember =>
      ih member hmember (hmembers member hmember)]
  | _ => rfl

/-! ## All arguments -/

/-- There are as many as up to the last argument that is given; the others at the end are
placeholders. -/
structure EndsAt (args : List Value) (n : Nat) : Prop where
  /-- The last of them is given. -/
  last : ∀ i, n = i + 1 → ∃ arg, args[i]? = some arg ∧ arg.isPlaceholder = false
  /-- Behind them nothing is given. -/
  behind : ∀ i arg, n ≤ i → args[i]? = some arg → arg.isPlaceholder = true

/-- What a call gets, against the arguments of its request. -/
structure Resolves (args call : List Value) : Prop where
  clean : ∀ v ∈ call, v.isResolved = true
  length : EndsAt args call.length
  /-- Null is an argument like any other. -/
  nulls : ∀ i : Nat, args[i]? = some Value.null → call[i]? = some Value.null
  /-- Each argument stays at its position. -/
  items : call = (args.take call.length).map resolved

variable {args : List Value}

/-- The arguments of a call are the first of those of its request, each decoded and materialized. -/
theorem materializeArgs_decodeArgs (args : List Value) :
    materializeArgs (decodeArgs args) =
      (args.take (materializeArgs (decodeArgs args)).length).map fun arg => materialize (decode arg) := by
  have hfirst := trimUndefined_eq_take (decodeArgs args)
  rw [length_materializeArgs]
  -- How many are left is kept as a number, since the list stands on both sides.
  generalize (trimUndefined (decodeArgs args)).length = n at hfirst
  rw [materializeArgs, hfirst, materializeItems_eq_map, decodeArgs, decodeItems_eq_map,
    ← List.map_take, List.map_map]
  rfl

/-- A call leaves out the placeholders at the end and nothing else. -/
theorem endsAt_materializeArgs (h : ∀ arg ∈ args, arg.isJson = true) :
    EndsAt args (materializeArgs (decodeArgs args)).length := by
  have hdecoded (i : Nat) : (decodeArgs args)[i]? = args[i]?.map decode := by
    rw [decodeArgs, decodeItems_eq_map, List.getElem?_map]
  constructor
  · intro i hi
    rw [length_materializeArgs] at hi
    -- The last that is left is the last argument that does not decode to undefined.
    obtain ⟨dropped, hargs, _⟩ := trimUndefined_append (decodeArgs args)
    obtain ⟨v, hv⟩ : ∃ v, (trimUndefined (decodeArgs args))[i]? = some v :=
      ⟨_, List.getElem?_eq_getElem (by omega)⟩
    have hlast : (trimUndefined (decodeArgs args)).getLast? = some v := by
      rw [List.getLast?_eq_getElem?, hi]
      exact hv
    have hdefined := isUndefined_of_getLast?_trimUndefined hlast
    have hat : (decodeArgs args)[i]? = some v := by
      rw [hargs, List.getElem?_append_left (by omega)]
      exact hv
    rw [hdecoded] at hat
    obtain ⟨arg, harg, rfl⟩ := Option.map_eq_some_iff.1 hat
    refine ⟨arg, harg, ?_⟩
    rw [← isUndefined_decode (h arg (List.mem_of_getElem? harg))]
    exact hdefined
  · intro i arg hi harg
    -- Whatever stands behind what is left was dropped, so it decodes to undefined.
    have hundefined : decode arg = .undefined := by
      refine eq_undefined_of_length_le hi ?_
      rw [hdecoded, harg]
      rfl
    rw [← isUndefined_decode (h arg (List.mem_of_getElem? harg)), hundefined]
    rfl

/-- What a call gets is resolved. -/
theorem isResolved_of_mem_materializeArgs (h : ∀ arg ∈ args, arg.isJson = true) :
    ∀ v ∈ materializeArgs (decodeArgs args), v.isResolved = true := by
  intro v hv
  rw [materializeArgs_decodeArgs] at hv
  obtain ⟨arg, harg, rfl⟩ := List.mem_map.1 hv
  exact isResolved_materialize_decode (h arg (List.mem_of_mem_take harg))

theorem resolves_materializeArgs (h : ∀ arg ∈ args, arg.isJson = true) :
    Resolves args (materializeArgs (decodeArgs args)) := by
  have hends := endsAt_materializeArgs h
  have hitems : materializeArgs (decodeArgs args) =
      (args.take (materializeArgs (decodeArgs args)).length).map resolved := by
    conv => lhs; rw [materializeArgs_decodeArgs]
    exact List.map_congr_left fun arg harg => materialize_decode (h arg (List.mem_of_mem_take harg))
  refine ⟨isResolved_of_mem_materializeArgs h, hends, ?_, hitems⟩
  intro i hi
  -- Null is no placeholder, so it does not stand behind the arguments of the call.
  have hlt : i < (materializeArgs (decodeArgs args)).length := by
    refine Nat.lt_of_not_le fun hle => ?_
    have hplaceholder := hends.behind i .null hle hi
    exact Bool.noConfusion hplaceholder
  rw [hitems, List.getElem?_map, List.getElem?_take_of_lt hlt, hi]
  rfl

/-- Arguments that are resolved are decoded already. -/
theorem decodeArgs_of_isResolved (h : ∀ arg ∈ args, arg.isResolved = true) :
    decodeArgs args = args :=
  decodeItems_of_fixed fun arg harg => decode_of_isResolved (h arg harg)

/-- Arguments that are resolved are materialized already. -/
theorem materializeArgs_of_isResolved (h : ∀ arg ∈ args, arg.isResolved = true) :
    materializeArgs args = args := by
  rw [materializeArgs, trimUndefined_of_defined fun arg harg => isUndefined_of_isResolved (h arg harg)]
  exact materializeItems_of_fixed fun arg harg => materialize_of_isResolved (h arg harg)

/-- **A call resolves every trace of the placeholder.**  Neither the placeholder nor undefined is left
in the arguments of a call; there are as many as the request has up to the last that is no
placeholder; each is the argument at its position without the members that held the placeholder and
with null in its other places.  Decoding once is enough, and of what a call gets neither decoding
nor materializing changes anything. -/
theorem call_resolves (h : ∀ arg ∈ args, arg.isJson = true) :
    Resolves args (materializeArgs (decodeArgs args)) ∧
    decodeArgs (decodeArgs args) = decodeArgs args ∧
    decodeArgs (materializeArgs (decodeArgs args)) = materializeArgs (decodeArgs args) ∧
    materializeArgs (materializeArgs (decodeArgs args)) = materializeArgs (decodeArgs args) := by
  have hresolved := isResolved_of_mem_materializeArgs h
  refine ⟨resolves_materializeArgs h, ?_, ?_, ?_⟩
  · -- Decoding twice is decoding once, argument by argument.
    rw [decodeArgs, decodeArgs, decodeItems_eq_map, decodeItems_eq_map, List.map_map]
    exact List.map_congr_left fun arg _ => decode_decode arg
  · exact decodeArgs_of_isResolved hresolved
  · exact materializeArgs_of_isResolved hresolved

/-- The placeholder in a list, in an object, between arguments and at the end, where a null stays. -/
theorem call_resolves_mixed :
    let args : List Value :=
      [.list [.text placeholder, .record [("a".text, .text placeholder), ("b".text, .int 1)]],
        .text placeholder, .null, .text placeholder]
    (∀ arg ∈ args, arg.isJson = true) ∧ Resolves args
      [.list [.null, .record [("b".text, .int 1)]], .null, .null] := by
  intro args
  have hjson : ∀ arg ∈ args, arg.isJson = true := by decide
  have hcall : materializeArgs (decodeArgs args) =
      [.list [.null, .record [("b".text, .int 1)]], .null, .null] := rfl
  exact ⟨hjson, hcall ▸ (call_resolves hjson).1⟩

end Wire

end RpcContract
