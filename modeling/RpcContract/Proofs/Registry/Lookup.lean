import Mathlib.Data.List.Induction
import Mathlib.Data.List.Nodup
import Mathlib.Data.List.TakeWhile
import RpcContract.Proofs.Registry.History

/-!
# Tables that agree with a history

A table agrees with a history when the same is found under each name, and the namespaces and the
names in each stand in the same order.  A table with distinct names is no more than that, so there
is only one.  What follows is how agreement goes on when the history does: by a registration that
is refused before or after it reached its namespace, and by one that is granted.
-/

namespace RpcContract

/-! ## Orders of arrival -/

section Arrival

variable {α : Type} [BEq α] [LawfulBEq α]

theorem eraseDups_concat (l : List α) (a : α) :
    (l ++ [a]).eraseDups = if a ∈ l then l.eraseDups else l.eraseDups ++ [a] := by
  -- A name that has come before adds nothing, a new one comes last.
  rw [List.eraseDups_append]
  by_cases h : a ∈ l <;> simp [h, List.removeAll, List.eraseDups_cons]

end Arrival

namespace Assoc

variable {α : Type}

end Assoc

namespace Builder

/-! ## Histories that go on -/

namespace History

variable {h : History} {e : Event}

theorem untilFreeze_of_open (hopen : .frozen ∉ h) : h.untilFreeze = h := by
  refine List.takeWhile_eq_self_iff.2 fun e he => ?_
  cases e with
  | frozen => exact absurd he hopen
  | granted => rfl
  | refused => rfl

/-- Behind a freeze nothing counts. -/
theorem untilFreeze_concat_of_frozen (hfrozen : .frozen ∈ h) (e : Event) :
    untilFreeze (h ++ [e]) = h.untilFreeze := by
  -- Something was cut off, so `e` behind the whole history is cut off with it.
  have hshort : (h.takeWhile Event.leavesOpen).length ≠ h.length := by
    intro hlength
    have hall : h.takeWhile Event.leavesOpen = h :=
      (List.takeWhile_prefix _).eq_of_length hlength
    exact Bool.noConfusion (List.takeWhile_eq_self_iff.1 hall _ hfrozen)
  rw [untilFreeze, List.takeWhile_append, if_neg hshort, untilFreeze]

theorem untilFreeze_concat_of_open (hopen : .frozen ∉ h) (he : e ≠ .frozen) :
    untilFreeze (h ++ [e]) = h ++ [e] := by
  refine untilFreeze_of_open fun hmem => ?_
  rcases List.mem_append.1 hmem with hmem | hmem
  · exact hopen hmem
  · exact he (List.mem_singleton.1 hmem).symm

theorem untilFreeze_concat_frozen (h : History) :
    untilFreeze (h ++ [.frozen]) = h.untilFreeze := by
  -- With a freeze before, the new one is cut off with all behind it; else it is the first.
  by_cases hfrozen : .frozen ∈ h
  · exact untilFreeze_concat_of_frozen hfrozen _
  · have hall : ∀ e ∈ h, e.leavesOpen = true :=
      List.takeWhile_eq_self_iff.1 (untilFreeze_of_open hfrozen)
    rw [untilFreeze, List.takeWhile_append_of_pos hall, untilFreeze_of_open hfrozen]
    exact List.append_nil h

theorem namespaces_concat (h : History) (e : Event) :
    namespaces (h ++ [e]) = match e.reached? with
      | none => h.namespaces
      | some ns => if ns ∈ h.namespaces then h.namespaces else h.namespaces ++ [ns] := by
  rw [namespaces, List.filterMap_append]
  cases hreached : e.reached? with
  | none => simp [hreached, namespaces]
  | some ns => simp [hreached, namespaces, eraseDups_concat]

theorem functionNames_concat (h : History) (e : Event) (ns : Text) :
    functionNames (h ++ [e]) ns = match e.entered? ns with
      | none => h.functionNames ns
      | some name =>
        if name ∈ h.functionNames ns then h.functionNames ns else h.functionNames ns ++ [name] := by
  rw [functionNames, List.filterMap_append]
  cases hentered : e.entered? ns with
  | none => simp [hentered, functionNames]
  | some name => simp [hentered, functionNames, eraseDups_concat]

theorem lastEntry_concat (h : History) (e : Event) (ns name : Text) :
    lastEntry (h ++ [e]) ns name = (e.entryAt ns name).or (h.lastEntry ns name) := by
  rw [lastEntry, List.filterMap_append, List.getLast?_append]
  cases hentry : e.entryAt ns name <;> simp [hentry, lastEntry]

end History

/-! ## What can be found -/

theorem functions_addNamespace (table : Table) (ns other : Text) :
    functions (addNamespace ns table) other = functions table other := by
  unfold addNamespace
  -- A namespace that is added holds nothing, which is what a missing one holds as well.
  split
  · rfl
  · rename_i hnew
    by_cases hother : other = ns
    · subst hother
      have hnone : Assoc.find? other table = none := by simpa [Assoc.has] using hnew
      simp [functions, hnone]
    · simp [functions, Assoc.find?_put_of_ne hother]

theorem names_addNamespace (table : Table) (ns : Text) :
    Assoc.names (addNamespace ns table) =
      if ns ∈ Assoc.names table then Assoc.names table else Assoc.names table ++ [ns] := by
  unfold addNamespace
  by_cases hns : ns ∈ Assoc.names table
  · rw [if_pos (Assoc.has_eq_true_iff.2 hns), if_pos hns]
  · rw [if_neg (Assoc.has_eq_true_iff.not.2 hns), Assoc.names_put]

theorem functions_put (table : Table) (ns other : Text) (entries : Assoc Registered) :
    functions (Assoc.put ns entries table) other =
      if other = ns then entries else functions table other := by
  by_cases hother : other = ns
  · subst hother
    simp [functions]
  · simp [functions, hother, Assoc.find?_put_of_ne hother]

/-- The table with an entry written under a name of a namespace. -/
def enter (ns name : Text) (entry : Registered) (table : Table) : Table :=
  Assoc.put ns (Assoc.put name entry (functions (addNamespace ns table) ns))
    (addNamespace ns table)

/-- A table agrees with a history, look-up by look-up. -/
structure Matches (table : Table) (h : History) : Prop where
  found : ∀ ns name, Assoc.find? name (functions table ns) = h.lastEntry ns name
  namespaces : Assoc.names table = h.namespaces
  functionNames : ∀ ns, Assoc.names (functions table ns) = h.functionNames ns

namespace Matches

variable {table : Table} {h : History}

theorem nil : Matches [] [] := ⟨fun _ _ => rfl, rfl, fun _ => rfl⟩

/-- A registration that is refused before it reaches its namespace leaves no trace. -/
theorem unreached (hm : Matches table h) {r : Registration}
    (hreached : (Event.refused r).reached? = none) : Matches table (h ++ [.refused r]) where
  found ns name := by rw [History.lastEntry_concat, hm.found]; rfl
  namespaces := by rw [History.namespaces_concat, hreached, hm.namespaces]
  functionNames ns := by rw [History.functionNames_concat, hm.functionNames]; rfl

/-- One that is refused later leaves its namespace. -/
theorem reached (hm : Matches table h) {r : Registration} {ns : Text}
    (hreached : (Event.refused r).reached? = some ns) :
    Matches (addNamespace ns table) (h ++ [.refused r]) where
  found other name := by
    rw [functions_addNamespace, History.lastEntry_concat, hm.found]
    rfl
  namespaces := by rw [names_addNamespace, History.namespaces_concat, hreached, hm.namespaces]
  functionNames other := by
    rw [functions_addNamespace, History.functionNames_concat, hm.functionNames]
    rfl

/-- One that is granted writes its entry. -/
theorem granted (hm : Matches table h) (ns name : Text) (entry : Registered) :
    Matches (enter ns name entry table) (h ++ [.granted ns name entry]) where
  found other label := by
    rw [enter, functions_put, functions_addNamespace, functions_addNamespace, History.lastEntry_concat]
    -- The entry is found under its own name in its own namespace, and every other look-up is as
    -- before.
    by_cases hns : other = ns
    · subst hns
      by_cases hname : label = name
      · subst hname
        simp [Event.entryAt]
      · simp [Event.entryAt, Ne.symm hname, Assoc.find?_put_of_ne hname, hm.found]
    · simp [Event.entryAt, hns, Ne.symm hns, hm.found]
  namespaces := by
    -- The namespace is there before the entry is written, so writing moves nothing.
    have hmem : ns ∈ Assoc.names (addNamespace ns table) := by
      rw [names_addNamespace]
      split
      · assumption
      · simp
    rw [enter, Assoc.names_put, if_pos hmem, names_addNamespace, History.namespaces_concat,
      hm.namespaces]
    rfl
  functionNames other := by
    rw [enter, functions_put, functions_addNamespace, functions_addNamespace,
      History.functionNames_concat]
    -- Only in its own namespace the order of names can change, and that as the history says.
    by_cases hns : other = ns
    · subst hns
      simp [Event.entered?, Assoc.names_put, hm.functionNames]
    · simp [Event.entered?, hns, Ne.symm hns, hm.functionNames]

end Matches

end Builder

end RpcContract
