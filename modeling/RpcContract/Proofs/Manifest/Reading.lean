import Mathlib.Data.List.Forall2
import RpcContract.Manifest.Basic
import RpcContract.Proofs.Dispatch.Outcome
import RpcContract.Proofs.Wire.Inverse

/-!
# What reading a manifest settles

A manifest that was read from data without a repeated name declares no namespace and no function
twice, and every parameter that it declares has a name with more than white space in it.
-/

namespace RpcContract

/-- What every manifest keeps to that was read: the names that it declares are distinct, and those of
parameters are more than white space. -/
structure Manifest.IsValid (m : Manifest) : Prop where
  namespaces : (Assoc.names m.namespaces).Nodup
  functions : ∀ entry ∈ m.namespaces, (Assoc.names entry.2.functions).Nodup
  params : ∀ entry ∈ m.namespaces, ∀ declared ∈ entry.2.functions, ∀ spec ∈ declared.2,
    Text.trim spec.name ≠ []

/-- Whether no object in the value has a name twice. -/
def Value.hasDistinctNames : Value → Bool :=
  throughout fun
    | .record members => decide (Assoc.names members).Nodup
    | _ => true

theorem Value.nodup_of_hasDistinctNames {members : Assoc Value}
    (h : (Value.record members).hasDistinctNames = true) : (Assoc.names members).Nodup := by
  simpa using of_throughout h

theorem exists_left_of_forall₂ {α β : Type} {R : α → β → Prop} {l : List α} {others : List β}
    (h : List.Forall₂ R l others) {b : β} (hb : b ∈ others) : ∃ a ∈ l, R a b := by
  induction h with
  | nil => cases hb
  | cons hfirst _ ih =>
    rcases List.mem_cons.1 hb with rfl | hb
    · exact ⟨_, List.mem_cons_self, hfirst⟩
    · obtain ⟨a, ha, hab⟩ := ih hb
      exact ⟨a, List.mem_cons_of_mem _ ha, hab⟩

/-! ## What was read, part by part -/

namespace Form

variable {α : Type} {read : Location → Value → Reading α} {place : Location}

/-- A field was read from the member of its name, or has its default. -/
theorem of_field_eq_ok {default : Option α} {name : Text} {entries : Assoc Value} {a : α}
    (h : field read default name place entries = .ok a) :
    (∃ v, Assoc.find? name entries = some v ∧ read (inMember place name) v = .ok a) ∨
      default = some a := by
  -- What is there has to be read; only what is missing may have the default.
  unfold field at h
  cases hfound : Assoc.find? name entries with
  | some v =>
    rw [hfound] at h
    exact .inl ⟨v, rfl, h⟩
  | none =>
    rw [hfound] at h
    cases default with
    | some b =>
      cases h
      exact .inr rfl
    | none => cases h

theorem of_itemsFrom_eq_ok {index : Nat} {items : List Value} {as : List α}
    (h : itemsFrom read place index items = .ok as) :
    ∀ a ∈ as, ∃ place item, read place item = .ok a := by
  -- On the items, for any index, as it is only part of the place that is reported.
  induction items generalizing index as with
  | nil =>
    cases h
    exact fun a ha => absurd ha List.not_mem_nil
  | cons item rest ih =>
    obtain ⟨first, others, hfirst, hothers, rfl⟩ := Reading.zipWith_eq_ok_iff.1 h
    intro a ha
    rcases List.mem_cons.1 ha with rfl | ha
    · exact ⟨_, item, hfirst⟩
    · exact ih hothers a ha

theorem of_list_eq_ok {v : Value} {as : List α} (h : list read place v = .ok as) :
    ∀ a ∈ as, ∃ place item, read place item = .ok a := by
  cases v with
  | list items => exact of_itemsFrom_eq_ok h
  | _ => cases h

/-- A mapping was read member by member. -/
theorem of_members_eq_ok {entries : Assoc Value} {table : Assoc α}
    (h : members read place entries = .ok table) :
    List.Forall₂ (fun entry found => found.1 = entry.1 ∧
      read (inMember place entry.1) entry.2 = .ok found.2) entries table := by
  induction entries generalizing table with
  | nil =>
    cases h
    exact .nil
  | cons entry rest ih =>
    obtain ⟨name, v⟩ := entry
    obtain ⟨a, others, ha, hothers, rfl⟩ := Reading.zipWith_eq_ok_iff.1 h
    exact .cons ⟨rfl, ha⟩ (ih hothers)

theorem names_of_members_eq_ok {entries : Assoc Value} {table : Assoc α}
    (h : members read place entries = .ok table) : Assoc.names table = Assoc.names entries := by
  -- Only the reading member by member is used from here on.
  have heach := of_members_eq_ok h
  clear h
  induction heach with
  | nil => rfl
  | cons hfirst _ ih => exact congrArg₂ List.cons hfirst.1 ih

/-- A mapping that was read from data with distinct names has these names, and each of its values was
read from data with distinct names. -/
theorem of_mapping_eq_ok {v : Value} {table : Assoc α} (hdistinct : v.hasDistinctNames = true)
    (h : mapping read place v = .ok table) :
    (Assoc.names table).Nodup ∧ ∀ entry ∈ table, ∃ place w, w.hasDistinctNames = true ∧
      read place w = .ok entry.2 := by
  cases v with
  | record entries =>
    refine ⟨names_of_members_eq_ok h ▸ Value.nodup_of_hasDistinctNames hdistinct, ?_⟩
    intro entry hentry
    -- Every value that was read has a member of the data for its source.
    obtain ⟨source, hsource, -, hread⟩ := exists_left_of_forall₂ (of_members_eq_ok h) hentry
    exact ⟨_, _, Value.throughout_of_mem_record hdistinct _ hsource, hread⟩
  | _ => cases h

end Form

/-! ## Manifests -/

theorem ParamSpec.trim_name_ne_nil {place : Location} {v : Value} {spec : ParamSpec}
    (h : ParamSpec.read place v = .ok spec) : Text.trim spec.name ≠ [] := by
  cases v with
  | record entries =>
    obtain ⟨⟨name, type⟩, optional, hlabel, -, rfl⟩ := Reading.zipWith_eq_ok_iff.1 h
    obtain ⟨_, _, hname, -, ⟨⟩⟩ := Reading.zipWith_eq_ok_iff.1 hlabel
    rcases Form.of_field_eq_ok hname with ⟨w, -, hread⟩ | hnone
    · -- The name was read by the rule that refuses blank ones.
      unfold readName at hread
      split at hread
      · split at hread
        · cases hread
        · rename_i hblank
          cases hread
          simpa using hblank
      · cases hread
    · -- A name has no default, so it was read.
      cases hnone
  | _ => cases h

theorem NamespaceSpec.of_read {place : Location} {v : Value} {spec : NamespaceSpec}
    (hdistinct : v.hasDistinctNames = true) (h : NamespaceSpec.read place v = .ok spec) :
    (Assoc.names spec.functions).Nodup ∧
      ∀ declared ∈ spec.functions, ∀ p ∈ declared.2, Text.trim p.name ≠ [] := by
  cases v with
  | record entries =>
    obtain ⟨source, functions, -, hfunctions, rfl⟩ := Reading.zipWith_eq_ok_iff.1 h
    -- The functions may be left out, and then there are none.
    rcases Form.of_field_eq_ok hfunctions with ⟨w, hfound, hread⟩ | hdefault
    · obtain ⟨member, hmember, rfl⟩ := Assoc.mem_of_find? hfound
      have hw := Value.throughout_of_mem_record hdistinct member hmember
      obtain ⟨hnodup, heach⟩ := Form.of_mapping_eq_ok hw hread
      refine ⟨hnodup, fun declared hdeclared p hp => ?_⟩
      obtain ⟨_, _, -, hlist⟩ := heach declared hdeclared
      obtain ⟨_, _, hspec⟩ := Form.of_list_eq_ok hlist p hp
      exact ParamSpec.trim_name_ne_nil hspec
    · cases hdefault
      exact ⟨.nil, fun declared hdeclared => absurd hdeclared List.not_mem_nil⟩
  | _ => cases h

/-- A manifest that was read from data with distinct names is valid. -/
theorem Manifest.isValid_of_read {data : Value} {m : Manifest}
    (hdistinct : data.hasDistinctNames = true) (h : Manifest.read data = .ok m) : m.IsValid := by
  -- A manifest is an object, and of its fields only the namespaces count.
  cases data with
  | record entries =>
    have hread : Reading.orFail "RegistryManifest".text ((Form.field (Form.mapping
        NamespaceSpec.read) (some []) "namespaces".text [] entries).map Manifest.mk) = .ok m := h
    cases hfield : Form.field (Form.mapping NamespaceSpec.read) (some []) "namespaces".text []
        entries with
    | error errors =>
      rw [hfield] at hread
      cases hread
    | ok namespaces =>
      rw [hfield] at hread
      cases hread
      rcases Form.of_field_eq_ok hfield with ⟨w, hfound, hmapping⟩ | hdefault
      · obtain ⟨member, hmember, rfl⟩ := Assoc.mem_of_find? hfound
        have hw := Value.throughout_of_mem_record hdistinct member hmember
        obtain ⟨hnodup, heach⟩ := Form.of_mapping_eq_ok hw hmapping
        have hspec : ∀ entry ∈ namespaces, (Assoc.names entry.2.functions).Nodup ∧
            ∀ declared ∈ entry.2.functions, ∀ p ∈ declared.2, Text.trim p.name ≠ [] := by
          intro entry hentry
          obtain ⟨_, _, hv, hspec⟩ := heach entry hentry
          exact NamespaceSpec.of_read hv hspec
        exact ⟨hnodup, fun entry hentry => (hspec entry hentry).1,
          fun entry hentry => (hspec entry hentry).2⟩
      · cases hdefault
        exact ⟨.nil, fun _ h => absurd h List.not_mem_nil, fun _ h => absurd h List.not_mem_nil⟩
  | _ => cases h

end RpcContract
