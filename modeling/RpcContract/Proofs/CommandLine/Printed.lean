import RpcContract.CommandLine.Run
import RpcContract.Proofs.Json.RoundTrip
import RpcContract.Proofs.Schema.WellFormed

/-!
# Printed schemas

The JSON that is printed for a type text is ASCII, and a reader of JSON finds in it what the text
compiles to but for the marks: the same type texts, and objects with the same fields in the same
order at every depth.  So two texts print alike exactly when they compile to schemas that differ in
marks at most.
-/

namespace RpcContract

namespace Schema

mutual

/-- A value is a schema without its marks: type texts are texts, and objects have the fields as
their members. -/
inductive Outlines : Schema → Value → Prop where
  | text (t : Text) : Outlines (.text t) (.text t)
  | object {form : ObjectForm} {fields : List (Field Schema)} {members : List (Text × Value)}
      (h : OutlinesAll fields members) : Outlines (.object form fields) (.record members)

/-- The members are the fields, one by one, with the same names. -/
inductive OutlinesAll : List (Field Schema) → List (Text × Value) → Prop where
  | nil : OutlinesAll [] []
  | cons {name : Text} {optional : Bool} {schema : Schema} {value : Value}
      {fields : List (Field Schema)} {members : List (Text × Value)} (h : Outlines schema value)
      (hrest : OutlinesAll fields members) :
      OutlinesAll (⟨name, optional, schema⟩ :: fields) ((name, value) :: members)

end

mutual

/-- Two schemas have the same type texts and the same fields in the same order at every depth. -/
inductive Alike : Schema → Schema → Prop where
  | text (t : Text) : Alike (.text t) (.text t)
  | object {form form' : ObjectForm} {fields others : List (Field Schema)}
      (h : AlikeAll fields others) : Alike (.object form fields) (.object form' others)

/-- The fields have the same names and alike schemas, one by one. -/
inductive AlikeAll : List (Field Schema) → List (Field Schema) → Prop where
  | nil : AlikeAll [] []
  | cons {name : Text} {optional optional' : Bool} {schema schema' : Schema}
      {fields others : List (Field Schema)} (h : Alike schema schema')
      (hrest : AlikeAll fields others) :
      AlikeAll (⟨name, optional, schema⟩ :: fields) (⟨name, optional', schema'⟩ :: others)

end

mutual

/-- A schema has one outline at most. -/
theorem Outlines.unique {s : Schema} {v w : Value} : Outlines s v → Outlines s w → v = w
  | .text _, .text _ => rfl
  | .object h, .object h' => congrArg Value.record (h.unique h')

theorem OutlinesAll.unique {fields : List (Field Schema)} {members others : List (Text × Value)} :
    OutlinesAll fields members → OutlinesAll fields others → members = others
  | .nil, .nil => rfl
  | .cons h hs, .cons h' hs' => by rw [h.unique h', hs.unique hs']

end

mutual

/-- Schemas with the same outline are alike. -/
theorem Outlines.alike {s s' : Schema} {v : Value} : Outlines s v → Outlines s' v → Alike s s'
  | .text t, .text _ => .text t
  | .object h, .object h' => .object (h.alike h')

theorem OutlinesAll.alike {fields others : List (Field Schema)} {members : List (Text × Value)} :
    OutlinesAll fields members → OutlinesAll others members → AlikeAll fields others
  | .nil, .nil => .nil
  | .cons h hs, .cons h' hs' => .cons (h.alike h') (hs.alike hs')

end

mutual

/-- Alike schemas are the same value. -/
theorem Alike.toValue_eq {s s' : Schema} : Alike s s' → s.toValue = s'.toValue
  | .text _ => rfl
  | .object h => congrArg Value.record h.toMembers_eq

theorem AlikeAll.toMembers_eq {fields others : List (Field Schema)} :
    AlikeAll fields others → toMembers fields = toMembers others
  | .nil => rfl
  | .cons h hs => by rw [toMembers, toMembers, h.toValue_eq, hs.toMembers_eq]

end

/-! ## What a text compiles to, as a value -/

theorem toMembers_eq_map (fields : List (Field Schema)) :
    toMembers fields = fields.map fun field => (field.name, field.schema.toValue) := by
  induction fields with
  | nil => rfl
  | cons field rest ih => rw [toMembers, ih, List.map_cons]

theorem names_toMembers (fields : List (Field Schema)) :
    Assoc.names (toMembers fields) = fields.map Field.name := by
  rw [toMembers_eq_map, Assoc.names, List.map_map]
  rfl

theorem outlinesAll_toMembers {fields : List (Field Schema)}
    (h : ∀ field ∈ fields, Outlines field.schema field.schema.toValue) :
    OutlinesAll fields (toMembers fields) := by
  induction fields with
  | nil => exact .nil
  | cons field rest ih =>
    obtain ⟨hfield, hrest⟩ := List.forall_mem_cons.1 h
    exact .cons hfield (ih hrest)

theorem outlines_compile (t : Text) : Outlines (compile t) (compile t).toValue := by
  -- Over the compiling of the text; a field is outlined because its type is.
  apply compile_structural (P := fun _ schema => Outlines schema schema.toValue)
  · intro t _
    exact .text t
  · intro t body _ ih
    apply Outlines.object
    apply outlinesAll_toMembers
    intro field hfield
    obtain ⟨m, hm, rfl⟩ := exists_member_of_mem_fieldsOf hfield
    exact ih m hm

/-- What a text of a class compiles to is made of texts of the class, if their pieces are in it. -/
theorem madeOf_compile {p : Text → Prop} (hpiece : ∀ {t u : Text}, u <:+: t → p t → p u) {t : Text}
    (ht : p t) : Json.MadeOf p (compile t).toValue := by
  revert ht
  apply compile_structural (P := fun t schema => p t → Json.MadeOf p schema.toValue)
  · intro t _ ht
    exact .text ht
  · intro t body hbody ih ht
    have hbody' : p body := hpiece (isInfix_of_literalBody? hbody) ht
    have hnames := names_toMembers (fieldsOf body)
    -- Every field is declared by a member, whose name and type are pieces of the body.
    have hfields (member : Text × Value) (hmember : member ∈ toMembers (fieldsOf body)) :
        p member.1 ∧ Json.MadeOf p member.2 := by
      rw [toMembers_eq_map] at hmember
      obtain ⟨field, hfield, rfl⟩ := List.mem_map.1 hmember
      obtain ⟨m, hm, rfl⟩ := exists_member_of_mem_fieldsOf hfield
      obtain ⟨hname, htype⟩ := Member.isInfix_of_mem_ofBody hm
      exact ⟨hpiece hname hbody', ih m hm (hpiece htype hbody')⟩
    apply Json.MadeOf.record
    · exact fun member hmember => (hfields member hmember).1
    · -- A record needs distinct names, which declared fields have.
      rw [hnames]
      exact nodup_declareAll _
    · exact fun member hmember => (hfields member hmember).2

end Schema

namespace CommandLine

open Schema (compile Outlines Alike)

/-- **The printed schema is ASCII and read back as what the text compiles to.**  Whatever the text,
what is printed for it is ASCII.  Whatever characters it has, and even with surrogates as long as no
first half of a pair stands right in front of a second half, a reader of JSON finds in it the schema
without its marks.  Hence two such texts print alike exactly when their schemas have the same fields
in the same order with the same type texts. -/
theorem printSchema_reads_back (t : Text) :
    Text.IsAscii (printSchema t) ∧
      ((∀ c ∈ t, c.isSurrogate = false) → Json.Unpaired t) ∧
      (Json.Unpaired t →
        (∃ v, Json.read (printSchema t) = .ok v ∧ Outlines (compile t) v) ∧
        ∀ u, Json.Unpaired u →
          (printSchema t = printSchema u ↔ Alike (compile t) (compile u))) := by
  have hreads (t : Text) (ht : Json.Unpaired t) :
      Json.read (printSchema t) = .ok (compile t).toValue :=
    Json.read_print (Schema.madeOf_compile Json.Unpaired.of_isInfix ht) .indented
  refine ⟨?_, Json.unpaired_of_characters, ?_⟩
  · -- That it is ASCII holds of any value, so the class of texts does not matter.
    have hmade : Json.MadeOf (fun _ => True) (compile t).toValue :=
      Schema.madeOf_compile (fun _ _ => trivial) trivial
    exact hmade.isAscii_printAt .indented 0
  · intro ht
    refine ⟨⟨_, hreads t ht, Schema.outlines_compile t⟩, ?_⟩
    intro u hu
    constructor
    · intro hsame
      have hvalue : (compile t).toValue = (compile u).toValue := by
        have h := hreads t ht
        -- What is printed alike is read alike.
        rw [hsame, hreads u hu] at h
        exact (Except.ok.inj h).symm
      exact (Schema.outlines_compile t).alike (hvalue ▸ Schema.outlines_compile u)
    · intro halike
      rw [printSchema, printSchema, halike.toValue_eq]

/-- Quote and backslash in a name, a control character and one beyond the first plane in a type, an
empty object; in another layout and with other marks the same is printed. -/
theorem printSchema_reads_back_escaped :
    let t := "\x7b 'q\\\"r'?: \x7b y: é\x01😀 \x7d; b: \x7b\x7d \x7d".text
    let u := "\x7b'q\\\"r':\x7b y: é\x01😀 \x7d\n b?: \x7b\x7d,\x7d".text
    Json.Unpaired t ∧ Json.Unpaired u ∧ Text.IsAscii (printSchema t) ∧
      Json.read (printSchema t) = .ok (.record
        [("q\\\"r".text, .record [("y".text, .text "é\x01😀".text)]), ("b".text, .record [])]) ∧
      printSchema t = printSchema u := by
  intro t u
  have ht : Json.Unpaired t := Json.unpaired_of_characters (by decide)
  have hu : Json.Unpaired u := Json.unpaired_of_characters (by decide)
  -- The two types, each compiled by itself.
  have hempty : compile "\x7b\x7d".text = .object .literal [] := by
    have hbody : literalBody? "\x7b\x7d".text = some [] := by decide +kernel
    exact Schema.compile_of_literalBody?_eq_some hbody
  have hinner : compile "\x7b y: é\x01😀 \x7d".text =
      .object .literal [⟨"y".text, false, .text "é\x01😀".text⟩] := by
    have hbody : literalBody? "\x7b y: é\x01😀 \x7d".text = some " y: é\x01😀 ".text := by
      decide +kernel
    have hmembers : Member.ofBody " y: é\x01😀 ".text = [⟨"y".text, false, "é\x01😀".text⟩] := by
      decide +kernel
    rw [Schema.compile_of_literalBody?_eq_some hbody]
    exact congrArg _ (Schema.fieldsOf_of_texts hmembers (by decide))
  -- Both texts have these two members, with marks of their own.
  have houter (written body : Text) (mark mark' : Bool) (hbody : literalBody? written = some body)
      (hmembers : Member.ofBody body = [⟨"q\\\"r".text, mark, "\x7b y: é\x01😀 \x7d".text⟩,
        ⟨"b".text, mark', "\x7b\x7d".text⟩]) :
      compile written = .object .literal
        [⟨"q\\\"r".text, mark, .object .literal [⟨"y".text, false, .text "é\x01😀".text⟩]⟩,
          ⟨"b".text, mark', .object .literal []⟩] := by
    rw [Schema.compile_of_literalBody?_eq_some hbody, hmembers, List.map_cons, List.map_cons,
      Schema.compileMember, Schema.compileMember, hinner, hempty]
    rfl
  have hcompile := houter t " 'q\\\"r'?: \x7b y: é\x01😀 \x7d; b: \x7b\x7d ".text true false
    (by decide +kernel) (by decide +kernel)
  have hcompile' := houter u "'q\\\"r':\x7b y: é\x01😀 \x7d\n b?: \x7b\x7d,".text false true
    (by decide +kernel) (by decide +kernel)
  obtain ⟨hascii, _, hreads⟩ := printSchema_reads_back t
  obtain ⟨⟨v, hread, houtlines⟩, halike⟩ := hreads ht
  rw [hcompile] at houtlines
  obtain rfl := houtlines.unique
    (.object (.cons (.object (.cons (.text _) .nil)) (.cons (.object .nil) .nil)))
  refine ⟨ht, hu, hascii, hread, (halike u hu).2 ?_⟩
  rw [hcompile, hcompile']
  exact .object (.cons (.object (.cons (.text _) .nil)) (.cons (.object .nil) .nil))

end CommandLine

end RpcContract
