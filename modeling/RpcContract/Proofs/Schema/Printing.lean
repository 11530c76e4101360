import RpcContract.Proofs.Schema.Splitting

/-!
# Compiling undoes printing

However a schema of objects is written as an object literal, compiling the literal gives the schema
back: its fields in order, their names and their marks, and the types of its leaves to the letter.
The proof is an induction over the layout; what it carries through is that a printed type reads back
wherever it stands as the type of a member.
-/

namespace RpcContract

open Text (Blank Tight isBlank)

namespace Layout

variable {t u v : Text}

/-! ## Literals are balanced -/

theorem balanced_blank (hu : Blank u) : Balanced (fun _ => true) u :=
  balanced_of_blank hu fun _ _ => rfl

/-- A character between white space, where members are separated. -/
theorem balanced_between {c : CodePoint} (hc : isCalm c = true) (hu : Blank u) (hv : Blank v) :
    Balanced (fun _ => true) (u ++ c :: v) :=
  (balanced_blank hu).append ((Balanced.calm hc rfl).append (balanced_blank hv))

theorem isCalm_of_mark {c : CodePoint} (hc : c = .char ';' ∨ c = .char ',') : isCalm c = true := by
  rcases hc with rfl | rfl <;> decide

theorem SeparatorText.balanced (h : SeparatorText t) : Balanced (fun _ => true) t := by
  cases h with
  | mark hc hu hv => exact balanced_between (isCalm_of_mark hc) hu hv
  | line hu hv => exact balanced_between (by decide) hu hv

theorem TrailingText.balanced (h : TrailingText t) : Balanced (fun _ => true) t := by
  cases h with
  | blank hu => exact balanced_blank hu
  | mark hc hu hv => exact balanced_between (isCalm_of_mark hc) hu hv

theorem MemberText.balanced {field : Field Schema} (h : MemberText ReadsBack field t) :
    Balanced (fun _ => true) t := by
  obtain ⟨hlabel, hgap, htype⟩ := h
  have hcolon : Balanced (fun _ => true) [.char ':'] := .calm (by decide) rfl
  have hbefore := (hlabel.balanced.mono fun _ _ => rfl).append (hcolon.append (balanced_blank hgap))
  exact hbefore.append (htype.balanced.mono fun _ _ => rfl)

theorem MembersText.balanced {fields : List (Field Schema)} (h : MembersText ReadsBack fields t) :
    Balanced (fun _ => true) t := by
  -- Over the members: each is balanced, and so is what stands between two of them.
  induction h with
  | last hmember htrailing => exact hmember.balanced.append htrailing.balanced
  | next hmember hseparator _ ih => exact (hmember.balanced.append hseparator.balanced).append ih

theorem BodyText.balanced {fields : List (Field Schema)} (h : BodyText ReadsBack fields t) :
    Balanced (fun _ => true) t := by
  cases h with
  | empty htrailing => exact htrailing.balanced
  | members hleading hmembers => exact (balanced_blank hleading).append hmembers.balanced

/-! ## Literals are found -/

theorem tight_braces (body : Text) : Tight (.char '\x7b' :: body ++ [.char '\x7d']) :=
  Text.tight_between (by decide) (by decide) body

/-- Between braces stands the body, where the braces of the body match. -/
theorem literalBody?_braces {body : Text} (hbody : bracesMatch body = true) (hu : Blank u)
    (hv : Blank v) :
    literalBody? (u ++ (.char '\x7b' :: body ++ [.char '\x7d']) ++ v) = some body := by
  -- White space around the braces is no part of the literal.
  have htrim := Text.trim_between hu (tight_braces body) hv
  unfold literalBody?
  rw [htrim]
  simp [hbody]

/-- A leaf is no literal: where it begins with a brace, that is closed before the end. -/
theorem IsLeaf.literalBody? (h : IsLeaf t) : literalBody? t = none := by
  unfold RpcContract.literalBody?
  rw [Text.trim_of_tight h.tight]
  split
  · rename_i rest
    rw [if_neg]
    rintro ⟨hlast, hmatch⟩
    obtain ⟨body, rfl⟩ := List.getLast?_eq_some_iff.1 hlast
    -- A matched text that begins with a brace begins with a matched text in braces.
    have hmatched := h.matched
    generalize hwhole : CodePoint.char '\x7b' :: (body ++ [.char '\x7d']) = whole at hmatched
    cases hmatched with
    | nil => simp at hwhole
    | ordinary hc _ _ =>
      obtain ⟨rfl, -⟩ := List.cons.inj hwhole
      exact absurd hc (by decide)
    | arrow _ _ => simp at hwhole
    | @bracketed _ o c inside later hbrackets hinside _ _ =>
      obtain ⟨rfl, hrest⟩ := List.cons.inj hwhole
      obtain rfl : c = .char '\x7d' := by cases hbrackets; rfl
      rcases List.eq_nil_or_concat later with rfl | ⟨more, d, rfl⟩
      · -- They hold the whole text: then it is a literal.
        have hbody : body = inside := by simpa using hrest
        exact h.notLiteral inside hinside (by rw [hbody]; rfl)
      · -- There is more behind them: then the first brace closes too early.
        have hbody : body = inside ++ .char '\x7d' :: more := by
          have hend : body ++ [.char '\x7d'] = inside ++ .char '\x7d' :: more ++ [d] := by
            simpa using hrest
          exact (List.append_inj' hend rfl).1
        rw [List.dropLast_concat, hbody, hinside.balanced.bracesMatch_closed] at hmatch
        exact Bool.noConfusion hmatch
  · rfl

/-! ## Types read back -/

/-- The last character of a leaf stands outside brackets or closes one. -/
theorem Matched.getLast? {p : CodePoint → Bool} (h : Matched p t) :
    ∀ c, t.getLast? = some c → p c = true ∨ isCloser c = true := by
  -- Over the way the text is matched; in each case the last character is that of the part behind,
  -- unless there is none.
  induction h with
  | nil =>
    intro c hc
    exact absurd hc (by simp)
  | @ordinary p c later hc hp ht ih =>
    intro d hd
    cases later with
    | nil =>
      obtain rfl : c = d := by simpa using hd
      exact .inl hp
    | cons => exact ih d (by simpa using hd)
  | @arrow p later hp ht ih =>
    intro d hd
    cases later with
    | nil =>
      obtain rfl : .char '>' = d := by simpa using hd
      exact .inr (by decide)
    | cons => exact ih d (by simpa using hd)
  | @bracketed p o c inside later hbrackets hinside harrow ht _ ih =>
    intro d hd
    cases later with
    | nil =>
      rw [List.append_nil, List.getLast?_concat] at hd
      obtain rfl := Option.some.inj hd
      exact .inr (by cases hbrackets <;> decide)
    | cons =>
      rw [List.getLast?_append_of_ne_nil _ (List.cons_ne_nil _ _)] at hd
      exact ih d hd

/-- A text that ends in one of the endings that ask for more does not end in a class of characters
without them. -/
theorem not_suffix_of_getLast? {ending : Text} {c : CodePoint} (hending : ending.getLast? = some c)
    (ht : t.getLast? ≠ some c) : ¬ ending <:+ t := by
  rintro ⟨before, rfl⟩
  have hne : ending ≠ [] := by
    rintro rfl
    exact absurd hending (by simp)
  rw [List.getLast?_append_of_ne_nil before hne] at ht
  exact ht hending

/-- A leaf is read back to the letter. -/
theorem IsLeaf.readsBack (h : IsLeaf t) : ReadsBack (.text t) t where
  compiles := Schema.compile_of_literalBody?_eq_none h.literalBody?
  nonempty := h.nonempty
  tight := h.tight
  balanced := h.matched.balanced
  finished := by
    intro ending hending
    have hlast := h.matched.getLast?
    -- Separators are excluded outside brackets, and a closing bracket is no separator.
    have hmark : ∀ c, c = .char ';' ∨ c = .char ',' → t.getLast? ≠ some c := by
      intro c hc hend
      rcases hlast c hend with hinline | hcloser
      · rcases hc with rfl | rfl <;> exact absurd hinline (by decide)
      · rcases hc with rfl | rfl <;> exact absurd hcloser (by decide)
    by_cases hunfinished : ending ∈ unfinished
    · exact h.finished ending hunfinished
    · -- The other endings are those that no leaf has outside brackets.
      simp only [continuations, List.mem_cons, List.not_mem_nil, or_false] at hending
      simp only [unfinished, List.mem_cons, List.not_mem_nil, or_false, not_or] at hunfinished
      rcases hending with rfl | rfl | rfl | rfl | rfl | rfl
      · exact absurd rfl hunfinished.1
      · exact absurd rfl hunfinished.2.1
      · exact absurd rfl hunfinished.2.2.1
      · exact absurd rfl hunfinished.2.2.2
      · exact not_suffix_of_getLast? rfl (hmark _ (.inr rfl))
      · exact not_suffix_of_getLast? rfl (hmark _ (.inl rfl))

/-- A field with a name of its own goes to the end. -/
theorem declare_of_not_mem {field : Field Schema} {declared : List (Field Schema)}
    (h : field.name ∉ declared.map Field.name) :
    Schema.declare field declared = declared ++ [field] := by
  induction declared with
  | nil => rfl
  | cons old rest ih =>
    rw [List.map_cons, List.mem_cons, not_or] at h
    rw [Schema.declare, if_neg (Ne.symm h.1), ih h.2, List.cons_append]

/-- Fields with names of their own are all declared, in order. -/
theorem declareAll_of_nodup {fields : List (Field Schema)}
    (hnames : (fields.map Field.name).Nodup) : Schema.declareAll fields = fields := by
  -- Generalised over what is declared already, which has none of the names to come.
  have hfold : ∀ declared : List (Field Schema), ((declared ++ fields).map Field.name).Nodup →
      fields.foldl (fun declared field => Schema.declare field declared) declared =
        declared ++ fields := by
    clear hnames
    induction fields with
    | nil => simp
    -- The field to come has none of the names declared so far, so it goes behind them.
    | cons field rest ih =>
      intro declared hnodup
      have hassoc : declared ++ field :: rest = declared ++ [field] ++ rest := by simp
      have hnew : field.name ∉ declared.map Field.name := by
        intro hmem
        rw [List.map_append, List.map_cons] at hnodup
        exact (List.nodup_append.1 hnodup).2.2 _ hmem _ List.mem_cons_self rfl
      rw [List.foldl_cons, declare_of_not_mem hnew, hassoc]
      rw [hassoc] at hnodup
      exact ih _ hnodup
  exact hfold [] hnames

/-- A literal whose types read back compiles to its fields, with or without white space around
it. -/
theorem compile_braces {fields : List (Field Schema)} {body : Text}
    (hnames : (fields.map Field.name).Nodup) (hbody : BodyText ReadsBack fields body) (hu : Blank u)
    (hv : Blank v) :
    Schema.compile (u ++ (.char '\x7b' :: body ++ [.char '\x7d']) ++ v) =
      .object .literal fields := by
  have hliteral := literalBody?_braces hbody.balanced.bracesMatch hu hv
  rw [Schema.compile_of_literalBody?_eq_some hliteral, hbody.read, declareAll_of_nodup hnames]

/-- A literal whose types read back reads back. -/
theorem BodyText.readsBack {fields : List (Field Schema)} {body : Text}
    (hnames : (fields.map Field.name).Nodup) (hbody : BodyText ReadsBack fields body) :
    ReadsBack (.object .literal fields) (.char '\x7b' :: body ++ [.char '\x7d']) where
  compiles := by simpa using compile_braces hnames hbody Blank.nil Blank.nil
  nonempty := List.cons_ne_nil _ _
  tight := tight_braces body
  balanced := .bracketed .brace hbody.balanced (by simp)
  finished := by
    intro ending hending
    have hlast : (CodePoint.char '\x7b' :: body ++ [CodePoint.char '\x7d']).getLast? =
        some (.char '\x7d') := List.getLast?_concat
    -- The last character is a brace, and no ending that asks for more has one.
    simp only [continuations, List.mem_cons, List.not_mem_nil, or_false] at hending
    rcases hending with rfl | rfl | rfl | rfl | rfl | rfl <;>
      exact not_suffix_of_getLast? rfl (by rw [hlast]; decide)

end Layout

namespace Schema

open Layout

/-- A printed schema reads back wherever it stands as the type of a member. -/
theorem Prints.readsBack {schema : Schema} {t : Text} (h : Prints schema t) :
    ReadsBack schema t := by
  -- What has to be shown of a literal is shown of any types that read back, which is what the
  -- induction gives.
  refine Prints.structural ?_ ?_ h
  · intro t hleaf
    exact hleaf.readsBack
  · intro fields body hnames hbody
    exact hbody.readsBack hnames

/-- **Compiling undoes printing.**  Whatever the white space, the separators, the quotes around
names and the brackets in leaves, and with white space around the literal, a printed schema of
objects compiles to itself. -/
theorem compile_printed {fields : List (Field Schema)} {t u v : Text}
    (hprinted : Prints (.object .literal fields) t) (hu : Blank u) (hv : Blank v) :
    compile (u ++ t ++ v) = .object .literal fields := by
  cases hprinted with
  | object hnames hbody =>
    exact compile_braces hnames (hbody.mono fun _ _ h => h.readsBack) hu hv

/-- A quoted name, a function type with a comma and an arrow, line feeds between members, a mark
with space before it, an empty literal and a comma at the end. -/
theorem compile_printed_lines :
    compile " \x7b\n'x-y' :(a,b)=>T<c>\n\na ?:\x7b \x7d,\x7d\n".text = .object .literal
      [⟨"x-y".text, false, .text "(a,b)=>T<c>".text⟩, ⟨"a".text, true, .object .literal []⟩] := by
  have hinside : Matched (fun _ => true) "a,b".text :=
    .ordinary rfl rfl (.ordinary rfl rfl (.ordinary rfl rfl .nil))
  have hangle : Matched isInline "<c>".text :=
    .bracketed .angle (.ordinary rfl rfl .nil) (by decide) .nil
  have hmatched : Matched isInline "(a,b)=>T<c>".text :=
    .bracketed .round hinside (by decide) (.arrow rfl (.ordinary rfl rfl hangle))
  have hleaf : IsLeaf "(a,b)=>T<c>".text := by
    refine ⟨by decide, ?_, hmatched, by decide, ?_⟩
    · exact Text.tight_between (by decide) (by decide) "a,b)=>T<c".text
    · intro body _ heq
      exact absurd (List.cons.inj heq).1 (by decide)
  have hspace : Blank " ".text := by
    intro c hc
    obtain rfl := List.mem_singleton.1 hc
    rfl
  have hline : Blank "\n".text := by
    intro c hc
    obtain rfl := List.mem_singleton.1 hc
    rfl
  have hquoted : NameText "x-y".text "'x-y'".text :=
    .quoted (.inr rfl) (by decide) (by decide) (by decide)
  have hbare : NameText "a".text "a".text := .bare rfl
  have hfirst : MemberText Prints ⟨"x-y".text, false, .text "(a,b)=>T<c>".text⟩ _ :=
    .mk (.mk hquoted hspace .nil) .nil (.leaf hleaf)
  have hsecond : MemberText Prints ⟨"a".text, true, .object .literal []⟩ _ :=
    .mk (.mk hbare hspace .nil) .nil (.object .nil (.empty (.blank hspace)))
  have hmembers : MembersText Prints _ _ :=
    .next hfirst (.line .nil hline) (.last hsecond (.mark (.inr rfl) .nil .nil))
  exact compile_printed (.object (by decide) (.members hline hmembers)) hspace hline

end Schema

end RpcContract
