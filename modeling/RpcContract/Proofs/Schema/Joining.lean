import RpcContract.Proofs.Schema.Fields

/-!
# Joining object literals

The bodies of two object literals can be put together with a semicolon or a comma in between, and
what the whole declares is what the second declares over what the first does, whether their members
are well formed or not.  Splitting has no memory across a separator: the scan of the top level is
back where it started, and what a line feed looks for behind it ends at the separator at the latest.
-/

namespace RpcContract

open Text (Blank isBlank)

/-- A semicolon or a comma. -/
def IsSeparator (c : CodePoint) : Prop := c = .char ';' ∨ c = .char ','

/-- A body whose braces match and whose scan ends at the top level; its members may be anything. -/
structure IsBody (body : Text) : Prop where
  braces : bracesMatch body = true
  top : (Scan.start.run body).AtTop

/-- The object literal with a body. -/
def literalText (body : Text) : Text := .char '\x7b' :: body ++ [.char '\x7d']

/-! ## Looking ahead -/

section LookAhead

variable {c : CodePoint} {t more : Text} {s : LiteralScan}

theorem Text.trimLeft_append_cons (hc : isBlank c = false) (t more : Text) :
    Text.trimLeft (t ++ c :: more) = Text.trimLeft t ++ c :: more := by
  unfold Text.trimLeft
  rw [List.dropWhile_append]
  -- The separator is not blank, so white space is dropped inside the text in front, at most all of
  -- it.
  split
  · rename_i hempty
    have ht : t.dropWhile isBlank = [] := by simpa using hempty
    rw [ht, List.nil_append]
    exact Text.trimLeft_cons hc
  · rfl

/-- White space opens no literal. -/
theorem LiteralScan.quote_run_blank {u : Text} (hs : s.quote = none) (hu : Blank u) :
    (s.run u).quote = none := by
  induction u generalizing s with
  | nil => exact hs
  | cons d rest ih =>
    have hcalm := Layout.isCalm_of_isBlank (hu d List.mem_cons_self)
    have hnext : (s.next d).quote = none := by simp [next, hs, (isCalm_iff.1 hcalm).1]
    exact ih hnext fun e he => hu e (List.mem_cons_of_mem d he)

/-- A scan that ends outside literals does so behind the white space at the start, too. -/
theorem LiteralScan.quote_run_trimLeft (hs : s.quote = none) (hend : (s.run t).quote = none) :
    ∃ s' : LiteralScan, s'.quote = none ∧ (s'.run (Text.trimLeft t)).quote = none := by
  have hblank : Blank (t.takeWhile isBlank) := fun d hd => List.mem_takeWhile_imp hd
  -- The scan goes through the white space and then through the rest; the state in between is the
  -- one that is asked for.
  refine ⟨s.run (t.takeWhile isBlank), quote_run_blank hs hblank, ?_⟩
  rw [Text.trimLeft, ← run_append, List.takeWhile_append_dropWhile]
  exact hend

/-- A quoted name ends where its literal does at the latest, so nothing behind counts. -/
theorem behindQuote?_append {quote : CodePoint} (hmem : quote ∈ t) (more : Text) :
    behindQuote? quote (t ++ more) = (behindQuote? quote t).map (· ++ more) := by
  induction t with
  | nil => exact absurd hmem List.not_mem_nil
  | cons d rest ih =>
    by_cases hd : d = quote
    · simp [behindQuote?, hd]
    · -- The quote is still to come behind `d`.
      have hrest : quote ∈ rest := (List.mem_cons.1 hmem).resolve_left (Ne.symm hd)
      simpa [behindQuote?, hd] using ih hrest

/-- A name at the start of a text ends before a separator. -/
theorem behindName?_append (hc : IsSeparator c) (hs : s.quote = none)
    (hend : (s.run t).quote = none) (more : Text) :
    behindName? (t ++ c :: more) = (behindName? t).map (· ++ c :: more) := by
  cases t with
  | nil => rcases hc with rfl | rfl <;> rfl
  | cons d rest =>
    rw [List.cons_append, behindName?, behindName?]
    by_cases hquote : (d == .char '"' || d == .char '\'') = true
    · rw [if_pos hquote, if_pos hquote]
      -- The scan opens a literal here, and it ends outside literals, so the quote comes again.
      have hopens : isQuote d = true := by
        rw [isQuote, hquote, Bool.true_or]
      have hmem : d ∈ rest := by
        by_contra hfree
        have hopen := LiteralScan.quote_run (LiteralScan.quote_next_open hs hopens)
          (.of_not_mem hfree _)
        -- A bare name consists of characters that go on with a name, and a separator is none of
        -- them.
        have hend' : ((s.next d).run rest).quote = none := hend
        rw [hend'] at hopen
        exact absurd hopen (by simp)
      exact behindQuote?_append hmem _
    · rw [if_neg hquote, if_neg hquote]
      have hstop : Text.continuesName c = false := by rcases hc with rfl | rfl <;> decide
      split
      · rw [List.dropWhile_append]
        split
        · rename_i hempty
          have hrest : rest.dropWhile Text.continuesName = [] := by simpa using hempty
          simp [hrest, hstop]
        · rfl
      · rfl

/-- Behind a mark, too, what is in front of a separator decides. -/
theorem head?_skipMark_append (hc : IsSeparator c) (t more : Text) :
    ((skipMark (t ++ c :: more)).head? == some (.char ':')) =
      ((skipMark t).head? == some (.char ':')) := by
  -- A separator is neither white space nor a colon, so it does not change what comes first.
  have hblank : isBlank c = false := by rcases hc with rfl | rfl <;> decide
  have hcolon : ((c :: more).head? == some (.char ':')) = false := by
    rcases hc with rfl | rfl <;> rfl
  have hhead (u : Text) : ((u ++ c :: more).head? == some (.char ':')) =
      (u.head? == some (.char ':')) := by
    cases u with
    | nil => exact hcolon
    | cons d rest => rfl
  cases t with
  | nil =>
    -- Nor is it a mark.
    have hmark : skipMark (c :: more) = c :: more := by rcases hc with rfl | rfl <;> rfl
    rw [List.nil_append, hmark, hcolon]
    rfl
  | cons d rest =>
    by_cases hd : d = .char '?'
    · subst hd
      show ((Text.trimLeft (rest ++ c :: more)).head? == some (.char ':')) = _
      rw [Text.trimLeft_append_cons hblank, hhead]
      rfl
    · rw [List.cons_append, Layout.skipMark_cons hd, Layout.skipMark_cons hd]
      rfl

/-- Whether a member begins is decided in front of the next separator. -/
theorem startsMember_append (hc : IsSeparator c) (hs : s.quote = none)
    (hend : (s.run t).quote = none) (more : Text) :
    startsMember (t ++ c :: more) = startsMember t := by
  have hblank : isBlank c = false := by rcases hc with rfl | rfl <;> decide
  -- Behind the white space the scan is in another state, but still outside literals.
  obtain ⟨s', hs', hend'⟩ := LiteralScan.quote_run_trimLeft hs hend
  rw [startsMember, startsMember, Text.trimLeft_append_cons hblank,
    behindName?_append hc hs' hend' more]
  cases behindName? (Text.trimLeft t) with
  | none => rfl
  -- Behind the name the same again: white space, a mark and a colon, all in front of the separator.
  | some rest =>
    show ((skipMark (Text.trimLeft (rest ++ c :: more))).head? == some (.char ':')) =
      ((skipMark (Text.trimLeft rest)).head? == some (.char ':'))
    rw [Text.trimLeft_append_cons hblank, head?_skipMark_append hc]

end LookAhead

/-! ## Beginning anew -/

namespace Scan.AtTop

variable {s : Scan}

theorem sees_eq (hs : s.AtTop) (c : CodePoint) : s.sees c = Scan.start.sees c := by
  obtain ⟨⟨quote, previous⟩, depth⟩ := s
  obtain ⟨rfl, rfl⟩ : quote = none ∧ depth = 0 := ⟨hs.quote, hs.depth⟩
  rfl

/-- Of what is in front only an equals sign counts, which makes an arrow of a `>`. -/
theorem next_eq (hs : s.AtTop) (hprevious : s.literal.previous ≠ some (.char '=')) (c : CodePoint) :
    s.next c = Scan.start.next c := by
  obtain ⟨⟨quote, previous⟩, depth⟩ := s
  obtain ⟨rfl, rfl⟩ : quote = none ∧ depth = 0 := ⟨hs.quote, hs.depth⟩
  have hcloses : Scan.closes ⟨⟨none, previous⟩, 0⟩ c = Scan.start.closes c := by
    -- Closing depends on the character in front only where that is an equals sign.
    have hprevious' : (previous == some (.char '=')) = false := by simpa using hprevious
    simp [Scan.closes, Scan.start, LiteralScan.start, hprevious']
  rw [Scan.next, Scan.next, hcloses]
  rfl

/-- At the top level a scan sees of a text what it would see of it at the start. -/
theorem seen_eq (hs : s.AtTop) (hprevious : s.literal.previous ≠ some (.char '=')) (t : Text) :
    s.seen t = Scan.start.seen t := by
  cases t with
  | nil => rfl
  | cons c rest => rw [Scan.seen, Scan.seen, hs.sees_eq, hs.next_eq hprevious]

end Scan.AtTop

theorem IsSeparator.previous_ne {c : CodePoint} (hc : IsSeparator c) (s : Scan) :
    (s.next c).literal.previous ≠ some (.char '=') := by
  rcases hc with rfl | rfl <;> simp [Scan.next, LiteralScan.next]

/-! ## Splitting -/

section Splitting

variable {s : Scan} {c : CodePoint} {taken t more : Text}

theorem endsMember_append (hc : IsSeparator c) {d : CodePoint} (hs : s.literal.quote = none)
    (hend : (s.run t).literal.quote = none) (taken more : Text) :
    endsMember taken d (t ++ c :: more) = endsMember taken d t := by
  rw [Scan.literal_run] at hend
  rw [endsMember, endsMember, endsLine, endsLine, startsMember_append hc hs hend more]

/-- At the top level a scan begins anew, unless it could make an arrow of what comes. -/
theorem splitFrom_of_atTop (hs : s.AtTop) (hprevious : s.literal.previous ≠ some (.char '=')) :
    splitFrom s taken t = splitFrom .start taken t := by
  cases t with
  | nil => rfl
  | cons d rest => rw [splitFrom, splitFrom, hs.next_eq hprevious, hs.sees_eq]

/-- A text whose scan ends at the top level is split in front of a separator as it is by itself. -/
theorem splitFrom_append_separator (hc : IsSeparator c) (hend : (s.run t).AtTop) :
    splitFrom s taken (t ++ c :: more) =
      splitFrom s taken t ++ splitFrom ((s.run t).next c) [] more := by
  -- Over the text in front, for every state and everything taken so far, since both go on along the
  -- text.
  induction t generalizing s taken with
  | nil =>
    -- At the top level a separator ends the member by itself, so nothing is looked up behind it.
    have hends : endsMember taken.reverse c more = true := by rcases hc with rfl | rfl <;> rfl
    exact Layout.splitFrom_end hend (Layout.isCalm_of_mark hc) hends
  | cons d rest ih =>
    have hrest : ((s.next d).run rest).AtTop := hend
    -- A line feed that is seen stands outside literals, and so does what is behind it.
    have hsame : (s.sees d && endsMember taken.reverse d (rest ++ c :: more)) =
        (s.sees d && endsMember taken.reverse d rest) := by
      by_cases hsees : s.sees d = true
      · have hquote : (s.next d).literal.quote = none := by
          simp only [Scan.sees, LiteralScan.plain, Bool.and_eq_true, Bool.not_eq_true',
            Option.isNone_iff_eq_none] at hsees
          simp [Scan.next, LiteralScan.next, hsees.1.1.1.1, hsees.1.1.1.2]
        rw [endsMember_append hc hquote hrest.quote]
      · simp [hsees]
    rw [List.cons_append, splitFrom, splitFrom, hsame]
    split
    · rw [ih hrest, List.cons_append]
      rfl
    · rw [ih hrest]
      rfl

/-- Splitting has no memory across a separator. -/
theorem splitMembers_append (hc : IsSeparator c) (ht : (Scan.start.run t).AtTop) (more : Text) :
    splitMembers (t ++ c :: more) = splitMembers t ++ splitMembers more := by
  have htop : ((Scan.start.run t).next c).AtTop := ht.next (Layout.isCalm_of_mark hc)
  rw [splitMembers, splitFrom_append_separator hc ht, splitFrom_of_atTop htop (hc.previous_ne _)]
  rfl

end Splitting

/-! ## Braces -/

section Braces

variable {t u : Text} {c : CodePoint}

theorem bracesMatch_iff : bracesMatch t = true ↔
    ∃ previous, BraceScan.start.run? t = some ⟨⟨none, previous⟩, 0⟩ := by
  unfold bracesMatch
  constructor
  · intro h
    split at h
    · rename_i s hrun
      obtain ⟨⟨quote, previous⟩, depth⟩ := s
      simp only [Bool.and_eq_true, beq_iff_eq, Option.isNone_iff_eq_none] at h
      obtain ⟨rfl, rfl⟩ := h
      exact ⟨previous, hrun⟩
    · exact Bool.noConfusion h
  · rintro ⟨previous, hrun⟩
    rw [hrun]
    rfl

/-- Outside literals the scan of braces does not look back. -/
theorem BraceScan.run?_of_quote_eq_none (previous : Option CodePoint) (h : bracesMatch t = true) :
    ∃ last, BraceScan.run? ⟨⟨none, previous⟩, 0⟩ t = some ⟨⟨none, last⟩, 0⟩ := by
  -- The first character is read outside literals, where the one in front of it is of no use.
  cases t with
  | nil => exact ⟨previous, rfl⟩
  | cons c rest => exact bracesMatch_iff.1 h

theorem bracesMatch_append (hc : isCalm c = true) (ht : bracesMatch t = true)
    (hu : bracesMatch u = true) : bracesMatch (t ++ c :: u) = true := by
  obtain ⟨previous, hfirst⟩ := bracesMatch_iff.1 ht
  obtain ⟨last, hsecond⟩ := BraceScan.run?_of_quote_eq_none (some c) hu
  have hnext : BraceScan.next? ⟨⟨none, previous⟩, 0⟩ c = some ⟨⟨none, some c⟩, 0⟩ :=
    BraceScan.next?_unbraced rfl (isUnbraced_of_isCalm hc)
  refine bracesMatch_iff.2 ⟨last, ?_⟩
  rw [BraceScan.run?_append, hfirst, Option.bind_some, BraceScan.run?, hnext, Option.bind_some,
    hsecond]

end Braces

/-! ## Bodies -/

namespace IsBody

variable {first second : Text} {c : CodePoint}

theorem nil : IsBody [] := ⟨rfl, .start⟩

/-- Two bodies with a character in between that is no quote, no bracket and no beginning of an arrow
make a body. -/
theorem append_between (hfirst : IsBody first) (hsecond : IsBody second) (hc : isCalm c = true)
    (harrow : c ≠ .char '=') : IsBody (first ++ c :: second) where
  braces := bracesMatch_append hc hfirst.braces hsecond.braces
  top := by
    have htop : ((Scan.start.run first).next c).AtTop := hfirst.top.next hc
    have hprevious : ((Scan.start.run first).next c).literal.previous ≠ some (.char '=') :=
      fun h => harrow (Option.some.inj h)
    rw [Scan.run_append]
    -- Behind the character in between, the first step of the second body is as at the start, and so
    -- are all that follow.
    cases second with
    | nil => exact htop
    | cons d rest =>
      show (Scan.run (((Scan.start.run first).next c).next d) rest).AtTop
      rw [htop.next_eq hprevious]
      exact hsecond.top

/-- Two bodies and a separator make a body. -/
theorem append (hfirst : IsBody first) (hsecond : IsBody second) (hc : IsSeparator c) :
    IsBody (first ++ c :: second) := by
  refine hfirst.append_between hsecond (Layout.isCalm_of_mark hc) ?_
  rcases hc with rfl | rfl <;> decide

end IsBody

namespace Schema

/-- The fields that the members of a body declare. -/
def fieldsOf (body : Text) : List (Field Schema) :=
  declareAll ((Member.ofBody body).map compileMember)

theorem compile_literalText {body : Text} (h : IsBody body) :
    compile (literalText body) = .object .literal (fieldsOf body) := by
  have hbody := Layout.literalBody?_braces h.braces Blank.nil Blank.nil
  rw [List.nil_append, List.append_nil] at hbody
  exact compile_of_literalBody?_eq_some hbody

/-- Members whose types are no object literals declare fields with these types. -/
theorem fieldsOf_of_texts {body : Text} {members : List Member}
    (hmembers : Member.ofBody body = members)
    (htexts : ∀ m ∈ members, literalBody? m.type = none) :
    fieldsOf body = declareAll (members.map fun m => ⟨m.name, m.optional, .text m.type⟩) := by
  have hfields : members.map compileMember =
      members.map fun m => ⟨m.name, m.optional, .text m.type⟩ := by
    -- None of these types is compiled any further.
    refine List.map_congr_left fun m hm => ?_
    rw [compileMember, compile_of_literalBody?_eq_none (htexts m hm)]
  rw [fieldsOf, hmembers, hfields]

/-- What is behind a separator is declared over what is in front of it. -/
theorem fieldsOf_append {first second : Text} {c : CodePoint} (hfirst : IsBody first)
    (hc : IsSeparator c) :
    fieldsOf (first ++ c :: second) = override (fieldsOf first) (fieldsOf second) := by
  have hmembers : Member.ofBody (first ++ c :: second) =
      Member.ofBody first ++ Member.ofBody second := by
    -- Members are read one by one, so those of the first portion are the first.
    rw [Member.ofBody, splitMembers_append hc hfirst.top, List.filterMap_append]
    rfl
  rw [fieldsOf, hmembers, List.map_append, declareAll_append]
  rfl

/-- **Object bodies compile one by one.**  Two bodies with a separator in between compile to the
fields of the second declared over those of the first, whichever the separator is; a separator at
either end changes nothing, and neither does a body between two separators that declares nothing,
be it empty or malformed. -/
theorem compile_joined {first second : Text} (hfirst : IsBody first) (hsecond : IsBody second) :
    ∃ fields others : List (Field Schema),
      compile (literalText first) = .object .literal fields ∧
      compile (literalText second) = .object .literal others ∧
      ∀ c, IsSeparator c →
        compile (literalText (first ++ c :: second)) = .object .literal (override fields others) ∧
        compile (literalText (c :: second)) = .object .literal others ∧
        compile (literalText (first ++ [c])) = .object .literal fields ∧
        ∀ idle d, IsBody idle → compile (literalText idle) = .object .literal [] →
          IsSeparator d → compile (literalText (first ++ c :: idle ++ d :: second)) =
            .object .literal (override fields others) := by
  refine ⟨fieldsOf first, fieldsOf second, compile_literalText hfirst,
    compile_literalText hsecond, ?_⟩
  intro c hc
  refine ⟨?_, ?_, ?_, ?_⟩
  · rw [compile_literalText (hfirst.append hsecond hc), fieldsOf_append hfirst hc]
  · -- An empty body in front of the separator declares nothing, and so does one behind it.
    have hleading : IsBody (c :: second) := IsBody.nil.append hsecond hc
    have hfields : fieldsOf (c :: second) = override [] (fieldsOf second) :=
      fieldsOf_append IsBody.nil hc
    rw [compile_literalText hleading, hfields, nil_override]
  · have hfields : fieldsOf (first ++ [c]) = override (fieldsOf first) [] :=
      fieldsOf_append hfirst hc
    rw [compile_literalText (hfirst.append IsBody.nil hc), hfields, override_nil]
  · intro idle d hidle hnothing hd
    -- What declares nothing is read off its compiled form, whatever its members are.
    have hnone : fieldsOf idle = [] := by
      rw [compile_literalText hidle] at hnothing
      simpa using hnothing
    have hboth : IsBody (first ++ c :: idle) := hfirst.append hidle hc
    rw [compile_literalText (hboth.append hsecond hd), fieldsOf_append hboth hd,
      fieldsOf_append hfirst hc, hnone, override_nil]

/-- A bracket too many, a line feed in front of what would begin a member but for the separator, a
member without a name, and a field that is declared again with another type and a mark. -/
theorem compile_joined_malformed :
    let first := "z: U>; a: T\n'b'?".text
    let second := ": x, a?: W, k: V".text
    IsBody first ∧ IsBody second ∧
      compile (literalText (first ++ .char ';' :: second)) = .object .literal
        [⟨"z".text, false, .text "U>".text⟩, ⟨"a".text, true, .text "W".text⟩,
          ⟨"k".text, false, .text "V".text⟩] := by
  intro first second
  have hfirst : IsBody first := ⟨by decide, by decide, by decide⟩
  have hsecond : IsBody second := ⟨by decide, by decide, by decide⟩
  obtain ⟨fields, others, hfields, hothers, hjoined⟩ := compile_joined hfirst hsecond
  have hmembers : Member.ofBody first =
      [⟨"z".text, false, "U>".text⟩, ⟨"a".text, false, "T\n'b'?".text⟩] := by decide +kernel
  have hmembers' : Member.ofBody second =
      [⟨"a".text, true, "W".text⟩, ⟨"k".text, false, "V".text⟩] := by decide +kernel
  rw [compile_literalText hfirst, fieldsOf_of_texts hmembers (by decide)] at hfields
  rw [compile_literalText hsecond, fieldsOf_of_texts hmembers' (by decide)] at hothers
  obtain rfl := (Schema.object.inj hfields).2
  obtain rfl := (Schema.object.inj hothers).2
  exact ⟨hfirst, hsecond, (hjoined _ (.inl rfl)).1⟩

end Schema

end RpcContract
