import RpcContract.Proofs.Manifest.Loading
import RpcContract.Proofs.Schema.Pieces

/-!
# The names of loaded parameters

A parameter is loaded under its declared name without the white space around it and without the mark
at its end.  The name of a member of an object literal also loses the white space in front of the
mark; that of a parameter keeps it, so not every name that passes the check can be used as it is
loaded.
-/

namespace RpcContract

open Text (Blank Tight)

/-! ## Declared and loaded names -/

/-- A name that a parameter can go by. -/
structure Param.IsUsable (name : Text) : Prop where
  nonempty : name ≠ []
  tight : Tight name
  unmarked : name.getLast? ≠ some (.char '?')

namespace ParamSpec

/-- The name has the mark of an optional parameter at its end. -/
def IsMarked (spec : ParamSpec) : Prop := (Text.trim spec.name).getLast? = some (.char '?')

/-- The name has a mark that does not stand right behind a name: there is nothing, white space or
another mark in front of it. -/
def IsLoose (spec : ParamSpec) : Prop :=
  ∃ front, Text.trim spec.name = front ++ [.char '?'] ∧
    ∀ c, front.getLast? = some c → Text.isBlank c = true ∨ c = .char '?'

/-- A parameter goes by a name as it was declared, but for the white space around it and the mark. -/
structure Names (spec : ParamSpec) (name : Text) : Prop where
  marked : spec.IsMarked → Text.trim spec.name = name ++ [.char '?']
  unmarked : ¬ spec.IsMarked → Text.trim spec.name = name
  head : ∀ c, name.head? = some c → Text.isBlank c = false
  isUsable_iff : Param.IsUsable name ↔ ¬ spec.IsLoose

/-- What is loaded of a declared parameter.  Where an identifier and a mark are declared, with white
space around each, the same text in front of a type is a member of an object literal, which has the
same mark, and the same name unless there is white space in front of the mark. -/
structure LoadedAs (spec : ParamSpec) (p : Param) : Prop where
  optional_iff : p.optional = true ↔ spec.optional = true ∨ spec.IsMarked
  name : ∃ name, p.name = .text name ∧ spec.Names name
  member : ∀ x u v w type : Text, Text.isName x = true → Blank u → Blank v → Blank w →
    Text.trim type ≠ [] → spec.name = u ++ x ++ v ++ .char '?' :: w →
      Member.ofText? (spec.name ++ .char ':' :: type) = some ⟨x, true, Text.trim type⟩ ∧
      p.optional = true ∧ p.name = .text (x ++ v) ∧ (p.name = .text x ↔ v = [])

end ParamSpec

/-! ## Taking the mark off -/

section Marks

variable {name front x u v w type : Text}

theorem Param.splitName_of_marked (h : Text.trim name = front ++ [.char '?']) :
    splitName name = (front, true) := by
  simp [splitName, h]

theorem Param.splitName_of_unmarked (h : (Text.trim name).getLast? ≠ some (.char '?')) :
    splitName name = (Text.trim name, false) :=
  if_neg h

/-- A name with a mark loses the white space around them both, but not that between them. -/
theorem Text.trim_marked (hx : isName x = true) (hu : Blank u) (hw : Blank w) :
    trim (u ++ x ++ v ++ .char '?' :: w) = x ++ v ++ [.char '?'] := by
  -- An identifier is not empty, so the text up to the mark ends and begins with no white space.
  have hne : x ≠ [] := by
    rintro rfl
    cases hx
  have htight : Tight (x ++ v ++ [.char '?']) :=
    (tight_of_isName hx).append (tight_singleton (by decide)) hne (List.cons_ne_nil _ _) v
  have hassoc : u ++ x ++ v ++ .char '?' :: w = u ++ (x ++ v ++ [.char '?']) ++ w := by simp
  rw [hassoc, trim_between hu htight hw]

/-- In an object literal the white space between them goes too. -/
theorem Member.ofText?_marked (hx : Text.isName x = true) (hu : Blank u) (hv : Blank v)
    (hw : Blank w) (htype : Text.trim type ≠ []) :
    Member.ofText? (u ++ x ++ v ++ .char '?' :: w ++ .char ':' :: type) =
      some ⟨x, true, Text.trim type⟩ := by
  obtain ⟨gap, trailing, hgap, htrailing, hwritten⟩ := Text.exists_blank_trim type
  have hlabel : Layout.LabelText x true (x ++ v ++ Layout.markText true ++ w) :=
    .mk (.bare hx) hv hw
  have hmember := Layout.ofText?_member hlabel hgap (Text.tight_trim type) htype hu htrailing
  -- The member is the layout of a label with a mark; in that layout the gap in front of it is
  -- dropped.
  rw [← hmember]
  nth_rewrite 1 [hwritten]
  simp [Layout.markText]

end Marks

namespace ParamSpec

variable {spec : ParamSpec} {front : Text}

theorem isMarked_iff : spec.IsMarked ↔ ∃ front, Text.trim spec.name = front ++ [.char '?'] :=
  List.getLast?_eq_some_iff

/-- What stands in front of the mark of a name has no white space in front. -/
theorem head_of_marked (h : Text.trim spec.name = front ++ [.char '?']) :
    ∀ c, front.head? = some c → Text.isBlank c = false := by
  intro c hc
  -- The first character of a trimmed text is also that of what stands in front of the mark.
  refine (Text.tight_trim spec.name).head c ?_
  rw [h, List.head?_append, hc]
  rfl

theorem names_of_marked (h : Text.trim spec.name = front ++ [.char '?']) : spec.Names front where
  marked _ := h
  unmarked hnot := absurd (isMarked_iff.2 ⟨front, h⟩) hnot
  head := head_of_marked h
  isUsable_iff := by
    constructor
    · -- A usable name ends in something that is neither white space nor a mark, so the mark is not
      -- loose.
      rintro ⟨hne, htight, hunmarked⟩ ⟨others, hothers, hloose⟩
      obtain ⟨rfl, -⟩ := List.append_inj' (h.symm.trans hothers) rfl
      obtain ⟨c, hc⟩ := Option.ne_none_iff_exists'.1 (mt List.getLast?_eq_none_iff.1 hne)
      rcases hloose c hc with hblank | rfl
      · rw [htight.last c hc] at hblank
        exact Bool.noConfusion hblank
      · exact hunmarked hc
    · intro hfirm
      -- If the mark is not loose, something that is neither stands right in front of it.
      have hfront : ∃ c, front.getLast? = some c ∧ ¬ (Text.isBlank c = true ∨ c = .char '?') := by
        by_contra hnone
        exact hfirm ⟨front, h, fun c hc => by_contra fun hnot => hnone ⟨c, hc, hnot⟩⟩
      obtain ⟨c, hc, hnot⟩ := hfront
      obtain ⟨hblank, hmark⟩ := not_or.1 hnot
      have hlast (d : CodePoint) (hd : front.getLast? = some d) : d = c :=
        Option.some.inj (hd.symm.trans hc)
      refine ⟨?_, ⟨head_of_marked h, fun d hd => ?_⟩, fun hd => hmark (hlast _ hd).symm⟩
      · rintro rfl
        cases hc
      · rw [hlast d hd]
        exact Bool.eq_false_iff.2 hblank

theorem names_of_unmarked (hname : Text.trim spec.name ≠ []) (h : ¬ spec.IsMarked) :
    spec.Names (Text.trim spec.name) where
  marked hmarked := absurd hmarked h
  unmarked _ := rfl
  head := (Text.tight_trim spec.name).head
  isUsable_iff := by
    -- Without a mark the name is only trimmed, and there is nothing that could be loose.
    refine iff_of_true ⟨hname, Text.tight_trim spec.name, h⟩ ?_
    rintro ⟨front, hfront, -⟩
    exact h (isMarked_iff.2 ⟨front, hfront⟩)

/-- A parameter is loaded as it was declared. -/
theorem loadedAs_toParam (hname : Text.trim spec.name ≠ []) : spec.LoadedAs spec.toParam := by
  -- Either the name is split at its mark, or the whole of it is the name.
  have hmarked {front : Text} (h : Text.trim spec.name = front ++ [.char '?']) :
      spec.toParam = ⟨.text front, Schema.compile spec.type, .bool true⟩ := by
    rw [toParam, Param.ofText, Param.splitName_of_marked h]
    rfl
  have hunmarked (h : ¬ spec.IsMarked) : spec.toParam =
      ⟨.text (Text.trim spec.name), Schema.compile spec.type, .bool spec.optional⟩ := by
    rw [toParam, Param.ofText, Param.splitName_of_unmarked h]
    rfl
  constructor
  · by_cases h : spec.IsMarked
    · obtain ⟨front, hfront⟩ := isMarked_iff.1 h
      rw [hmarked hfront]
      exact iff_of_true rfl (.inr h)
    · rw [hunmarked h, or_iff_left h]
      rfl
  · by_cases h : spec.IsMarked
    · obtain ⟨front, hfront⟩ := isMarked_iff.1 h
      exact ⟨front, by rw [hmarked hfront], names_of_marked hfront⟩
    · exact ⟨_, by rw [hunmarked h], names_of_unmarked hname h⟩
  · intro x u v w type hx hu hv hw htype hspec
    -- The white space between the identifier and the mark is inside what is trimmed, so it stays.
    have htrim : Text.trim spec.name = x ++ v ++ [.char '?'] := hspec ▸ Text.trim_marked hx hu hw
    rw [hmarked htrim, hspec]
    exact ⟨Member.ofText?_marked hx hu hv hw htype, rfl, rfl, by simp⟩

end ParamSpec

/-! ## Loaded tables -/

namespace Manifest

variable {sources : List Source} {m : Manifest} {table : Table} {ns name : Text}
  {entry : Registered}

/-- A function that a loaded table holds was declared in the manifest. -/
theorem exists_declared (hloaded : m.IsLoadedAs sources table) (hholds : table.Holds ns name entry) :
    ∃ spec declared, (ns, spec) ∈ m.namespaces ∧ (name, declared) ∈ spec.functions ∧
      entry.params = declared.map ParamSpec.toParam := by
  obtain ⟨full, hfull, rfl⟩ := hloaded
  obtain ⟨functions, hns, hname⟩ := hholds
  -- From the table back to the manifest: the namespace first, then the function in it.
  have hfunctions := List.mem_of_mem_filter (Assoc.entry_mem_of_find? hns)
  obtain ⟨⟨label, spec⟩, hspec, hlabel, source, -, hexports⟩ := exists_left_of_forall₂ hfull hfunctions
  obtain rfl : ns = label := hlabel
  have hentry := Assoc.entry_mem_of_find? hname
  obtain ⟨⟨key, declared⟩, hdeclared, hexported⟩ := exists_left_of_forall₂ hexports hentry
  obtain rfl : name = key := hexported.name
  exact ⟨spec, declared, hspec, hdeclared, hexported.params⟩

/-- **Every loaded parameter goes by its declared name.**  The parameters of a function in a loaded
table are those that the manifest declares of it, in order.  Each goes by its declared name without
the white space around it and without its mark, and may be left out exactly where that was declared or
the name was marked.  The name can be used as it is unless the mark is loose; beside it, white space
in front of the mark is all that sets a declaration apart from the member of an object literal. -/
theorem loaded_param_names (hvalid : m.IsValid) (hload : (m.load sources).result = .ok table)
    (hholds : table.Holds ns name entry) :
    ∃ spec declared, (ns, spec) ∈ m.namespaces ∧ (name, declared) ∈ spec.functions ∧
      List.Forall₂ ParamSpec.LoadedAs declared entry.params := by
  obtain ⟨spec, declared, hspec, hdeclared, hparams⟩ :=
    exists_declared (isLoadedAs_of_load hvalid hload) hholds
  -- Each parameter was made of its own declaration, so they are compared one by one.
  refine ⟨spec, declared, hspec, hdeclared, ?_⟩
  rw [hparams, List.forall₂_map_right_iff, List.forall₂_same]
  exact fun p hp => ParamSpec.loadedAs_toParam (hvalid.params _ hspec _ hdeclared p hp)

/-- A mark right behind the name and white space around them. -/
theorem loaded_param_names_hello :
    let m : Manifest := ⟨[("m".text, ⟨"rpc_fixtures".text,
      [("hello".text, [⟨" name? ".text, "string".text, false⟩])]⟩)]⟩
    m.IsValid ∧ ∃ table entry, (m.load Sample.sources).result = .ok table ∧
      table.Holds "m".text "hello".text entry ∧
      (∃ spec declared, ("m".text, spec) ∈ m.namespaces ∧
        ("hello".text, declared) ∈ spec.functions ∧
        List.Forall₂ ParamSpec.LoadedAs declared entry.params) ∧
      entry.params.map Param.name = [.text "name".text] := by
  intro m
  have hvalid : m.IsValid := ⟨by decide, by decide, by decide⟩
  have hload : (m.load Sample.sources).result = .ok _ := rfl
  exact ⟨hvalid, _, _, hload, ⟨_, rfl, rfl⟩, loaded_param_names hvalid hload ⟨_, rfl, rfl⟩, rfl⟩

/-- White space in front of the mark stays at the end of the name, where the member of an object
literal loses it. -/
theorem loaded_name_ends_in_space :
    let spec : ParamSpec := ⟨"name ?".text, "string".text, false⟩
    let m : Manifest := ⟨[("m".text, ⟨"rpc_fixtures".text, [("hello".text, [spec])]⟩)]⟩
    m.IsValid ∧ ∃ table entry, (m.load Sample.sources).result = .ok table ∧
      table.Holds "m".text "hello".text entry ∧
      entry.params.map Param.name = [.text "name ".text] ∧ ¬ Param.IsUsable "name ".text ∧
      Member.ofText? (spec.name ++ ": string".text) = some ⟨"name".text, true, "string".text⟩ := by
  refine ⟨⟨by decide, by decide, by decide⟩, _, _, rfl, ⟨_, rfl, rfl⟩, rfl, ?_, by decide⟩
  -- It ends in a space, which no usable name does.
  intro husable
  exact absurd (husable.tight.last (.char ' ') rfl) (by decide)

end Manifest

end RpcContract
