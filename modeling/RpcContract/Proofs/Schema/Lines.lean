import RpcContract.Proofs.Schema.Joining

/-!
# Members on lines of their own

When the members of an object literal stand on lines of their own, a line feed separates two of them
as a semicolon does, provided that the second is a field.  A signature is not where a member begins
for the scan that looks ahead, so it is taken for the end of the member in front of it: the lines
compile like the members that are so put together, with semicolons in between.
-/

namespace RpcContract

open Text (Blank Tight)

namespace Layout

/-- What a member on a line of its own is. -/
inductive LineKind where
  /-- A name, perhaps marked, and a type. -/
  | field
  /-- An index signature or a method signature. -/
  | signature
  deriving Repr, DecidableEq

/-- A line feed. -/
def newline : CodePoint := .char '\n'

/-- A line begins as a member of its kind does: a field with its label and a colon, an index signature
with a bracket, and a method signature with its label and a bracket. -/
inductive BeginsAs : LineKind → Text → Prop where
  | field {name leading label rest : Text} {optional : Bool} (hleading : Blank leading)
      (hlabel : LabelText name optional label) :
      BeginsAs .field (leading ++ (label ++ .char ':' :: rest))
  | index {o c : CodePoint} {leading rest : Text} (hleading : Blank leading)
      (hbrackets : Brackets o c) : BeginsAs .signature (leading ++ o :: rest)
  | method {o c : CodePoint} {name leading label rest : Text} {optional : Bool}
      (hleading : Blank leading) (hlabel : LabelText name optional label)
      (hbrackets : Brackets o c) : BeginsAs .signature (leading ++ (label ++ o :: rest))

/-- A member on a line of its own: its literals and brackets match, no separator stands outside of
them, and it does not ask for more. -/
structure IsLine (line : LineKind × Text) : Prop where
  begins : BeginsAs line.1 line.2
  single : newline ∉ line.2
  body : IsBody line.2
  whole : ∀ c ∈ Scan.start.seen line.2, isInline c = true
  finished : ∀ ending ∈ unfinished, ¬ ending <:+ Text.trim line.2

/-- The members that lines come to behind one that has begun: a field is the next member, and a
signature goes on with the one that has begun. -/
def gathered (begun : Text) : List (LineKind × Text) → List Text
  | [] => [begun]
  | (.field, m) :: rest => begun :: gathered m rest
  | (.signature, m) :: rest => gathered (begun ++ newline :: m) rest

/-- The members that lines come to. -/
def membersOf : List (LineKind × Text) → List Text
  | [] => []
  | line :: rest => gathered line.2 rest

variable {m t u : Text} {kind : LineKind} {s : Scan}

/-! ## Looking ahead -/

/-- Whether a member begins is decided by the kind of the line. -/
theorem BeginsAs.startsMember (h : BeginsAs kind m) (more : Text) :
    startsMember (m ++ more) = decide (kind = .field) := by
  cases h with
  | @field name leading label rest optional hleading hlabel =>
    -- Only what stands in front of the colon is looked at, so the lines behind go with the type.
    have hassoc : leading ++ (label ++ .char ':' :: rest) ++ more =
        leading ++ (label ++ .char ':' :: (rest ++ more)) := by simp
    rw [hassoc, startsMember_blank_append hleading, hlabel.startsMember]
    rfl
  | @index o c leading rest hleading hbrackets =>
    have hassoc : leading ++ o :: rest ++ more = leading ++ o :: (rest ++ more) := by simp
    rw [hassoc, startsMember_blank_append hleading]
    cases hbrackets <;> exact startsMember_cons (by decide) rfl
  -- The label of a method is that of a field; what follows it is a bracket where the colon would
  -- be.
  | @method o c name leading label rest optional hleading hlabel hbrackets =>
    have hassoc : leading ++ (label ++ o :: rest) ++ more =
        leading ++ (label ++ o :: (rest ++ more)) := by simp
    have hends : endsLabel o = true := by cases hbrackets <;> decide
    rw [hassoc, startsMember_blank_append hleading, hlabel.startsMember_append hends]
    cases hbrackets <;> rfl

/-- The first character of a line is no white space and closes no bracket. -/
theorem BeginsAs.exists_first (h : BeginsAs kind m) :
    ∃ leading c rest, m = leading ++ c :: rest ∧ Blank leading ∧ Text.isBlank c = false ∧
      c ≠ .char '>' := by
  -- A label is never empty, and it begins neither with white space nor with `>`.
  have hlabelled {name leading label rest : Text} {optional : Bool} (hleading : Blank leading)
      (hlabel : LabelText name optional label) : ∃ leading' c rest',
        leading ++ (label ++ rest) = leading' ++ c :: rest' ∧ Blank leading' ∧
          Text.isBlank c = false ∧ c ≠ .char '>' := by
    obtain ⟨c, later, rfl⟩ := List.exists_cons_of_ne_nil hlabel.ne_nil
    refine ⟨leading, c, later ++ rest, rfl, hleading, hlabel.head?_isBlank c rfl, ?_⟩
    rintro rfl
    exact hlabel.balanced.head rfl
  cases h with
  | field hleading hlabel => exact hlabelled hleading hlabel
  | method hleading hlabel _ => exact hlabelled hleading hlabel
  | index hleading hbrackets =>
    refine ⟨_, _, _, rfl, hleading, ?_, ?_⟩
    · cases hbrackets <;> decide
    · cases hbrackets <;> decide

/-- Trimmed, a line still begins as it did. -/
theorem BeginsAs.head?_trim (h : BeginsAs kind m) :
    ∃ c, (Text.trim m).head? = some c ∧ c ≠ .char '>' := by
  obtain ⟨leading, c, rest, rfl, hleading, hblank, hne⟩ := h.exists_first
  refine ⟨c, ?_, hne⟩
  rw [Text.trim_blank_append hleading, Text.head?_trim_cons hblank]

end Layout

/-! ## The end of a line -/

namespace LiteralScan

/-- What opens a literal is a quote. -/
theorem isQuote_of_run {s : LiteralScan} (hs : ∀ q, s.quote = some q → isQuote q = true)
    (t : Text) : ∀ q, (s.run t).quote = some q → isQuote q = true := by
  induction t generalizing s with
  | nil => exact hs
  | cons c rest ih =>
    -- Step by step: a literal that goes on was open before, and one that begins does so with a
    -- quote.
    refine ih fun q hq => ?_
    cases hquote : s.quote with
    | some opened =>
      simp only [next, hquote] at hq
      split at hq
      · cases hq
      · exact hs q (hquote.trans hq)
    | none =>
      simp only [next, hquote] at hq
      split at hq
      · rename_i hc
        exact Option.some.inj hq ▸ hc
      · cases hq

end LiteralScan

namespace Scan

/-- Characters that are no quotes and no brackets do not bring a scan to the top level. -/
theorem AtTop.of_run {s : Scan} (hs : ∀ q, s.literal.quote = some q → isQuote q = true) {t : Text}
    (ht : ∀ c ∈ t, isCalm c = true) (h : (s.run t).AtTop) : s.AtTop := by
  induction t generalizing s with
  | nil => exact h
  | cons c rest ih =>
    have hc := ht c List.mem_cons_self
    have hrest := fun d hd => ht d (List.mem_cons_of_mem c hd)
    -- The state behind `c` is at the top level by induction, and `c` changes neither the depth nor
    -- whether a literal is open.
    have hnext : (s.next c).AtTop := ih (LiteralScan.isQuote_of_run hs [c]) hrest h
    cases hquote : s.literal.quote with
    | none =>
      rw [Scan.next_calm hquote hc] at hnext
      exact ⟨hquote, hnext.depth⟩
    | some q =>
      -- The literal that is open would have to end here.
      have hne : c ≠ q := fun heq => by
        rw [heq, isCalm, hs q hquote] at hc
        cases hc
      have hopen := hnext.quote
      simp [Scan.next, LiteralScan.next, hquote, hne] at hopen

/-- Where a scan comes to the top level, a last character that is no quote and no bracket is at the
top level, with or without white space behind it. -/
theorem mem_seen_of_last {t v : Text} {c : CodePoint} (hc : isCalm c = true) (hv : Text.Blank v)
    (h : (start.run (t ++ c :: v)).AtTop) : c ∈ start.seen (t ++ c :: v) := by
  -- The top level is reached behind `c`, so it was reached in front of it.
  rw [run_append] at h
  have hcalm : ∀ d ∈ c :: v, isCalm d = true := by
    rw [List.forall_mem_cons]
    exact ⟨hc, fun d hd => Layout.isCalm_of_isBlank (hv d hd)⟩
  have hbefore : (start.run t).AtTop := by
    refine AtTop.of_run ?_ hcalm h
    rw [literal_run]
    exact LiteralScan.isQuote_of_run (by simp [start, LiteralScan.start]) t
  rw [seen_append]
  exact List.mem_append_right _ (mem_seen_cons v (hbefore.sees hc))

end Scan

namespace Layout

variable {m t u : Text} {kind : LineKind} {line : LineKind × Text} {s : Scan}

/-- A line does not end in any of the endings that ask for more: with a separator at its end that
would stand outside of brackets and literals. -/
theorem IsLine.not_suffix (h : IsLine line) :
    ∀ ending ∈ continuations, ¬ ending <:+ Text.trim line.2 := by
  intro ending hending
  -- Two of the endings are separators; the others are excluded by the line being finished.
  by_cases hunfinished : ending ∈ unfinished
  · exact h.finished ending hunfinished
  obtain ⟨c, hc, rfl⟩ : ∃ c, isInline c = false ∧ ending = [c] := by
    simp only [continuations, List.mem_cons, List.not_mem_nil, or_false] at hending
    simp only [unfinished, List.mem_cons, List.not_mem_nil, or_false, not_or] at hunfinished
    rcases hending with rfl | rfl | rfl | rfl | rfl | rfl
    · exact absurd rfl hunfinished.1
    · exact absurd rfl hunfinished.2.1
    · exact absurd rfl hunfinished.2.2.1
    · exact absurd rfl hunfinished.2.2.2
    · exact ⟨.char ',', by decide, rfl⟩
    · exact ⟨.char ';', by decide, rfl⟩
  -- A separator at the end would be one that the scan sees, and it sees none in a line.
  rintro ⟨before, hbefore⟩
  obtain ⟨u, v, _, hv, hm⟩ := Text.exists_blank_trim line.2
  have hsplit : line.2 = (u ++ before) ++ c :: v := by
    rw [hm, ← hbefore]
    simp
  have hcalm : isCalm c = true := by
    simp only [isInline, Bool.not_eq_false', Bool.or_eq_true, beq_iff_eq] at hc
    rcases hc with (rfl | rfl) | rfl <;> decide
  have htop := h.body.top
  have hwhole := h.whole
  rw [hsplit] at htop hwhole
  have hinline := hwhole c (Scan.mem_seen_of_last hcalm hv htop)
  rw [hc] at hinline
  exact Bool.noConfusion hinline

/-- Behind a line, whatever stands in front of it, a line feed is the end of a member when another
begins. -/
theorem IsLine.endsLine (h : IsLine line) (before rest : Text) :
    endsLine (before ++ line.2) rest = startsMember rest := by
  -- White space around the line is dropped or stays inside, so the line decides about the end.
  obtain ⟨u, v, hu, hv, hm⟩ := Text.exists_blank_trim line.2
  obtain ⟨c, hhead, hne⟩ := h.begins.head?_trim
  have hnil : Text.trim line.2 ≠ [] := by
    intro heq
    rw [heq] at hhead
    cases hhead
  have htrim : Text.trim (before ++ line.2) = Text.trimLeft (before ++ u) ++ Text.trim line.2 := by
    have hassoc : before ++ (u ++ Text.trim line.2 ++ v) = before ++ u ++ Text.trim line.2 ++ v := by
      simp
    conv => lhs; rw [hm, hassoc]
    rw [Text.trim_append_blank hv, Text.trim_append_tight (Text.tight_trim _) hnil]
  -- No `=` in front of the line makes an ending `=>` out of it.
  have hfirst : (Text.trim line.2).head? ≠ some (.char '>') := by
    rw [hhead]
    exact fun heq => hne (Option.some.inj heq)
  apply endsLine_of_trim
  · rw [htrim]
    simp [hnil]
  · rw [htrim]
    exact finished_append hnil hfirst h.not_suffix _

end Layout

namespace Layout

variable {t rest : Text} {line : LineKind × Text} {lines : List (LineKind × Text)} {s : Scan}

/-! ## Lines as members -/

/-- A line is taken as a whole. -/
theorem IsLine.splits (h : IsLine line) (hs : s.AtTop)
    (hprevious : s.literal.previous ≠ some (.char '=')) (taken rest : Text) :
    splitFrom s taken (line.2 ++ rest) = splitFrom (s.run line.2) (line.2.reverse ++ taken) rest := by
  refine splitFrom_append ?_
  rw [hs.seen_eq hprevious]
  exact h.whole

/-- A text that is one member, whatever stands behind it. -/
structure IsMember (t : Text) : Prop where
  body : IsBody t
  ends : ∀ rest, endsLine t rest = startsMember rest
  splits : ∀ rest, splitFrom .start [] (t ++ rest) = splitFrom (Scan.start.run t) t.reverse rest

theorem IsLine.isMember (h : IsLine line) : IsMember line.2 where
  body := h.body
  ends := h.endsLine []
  splits := by
    intro rest
    -- Nothing is in front of a line that stands alone.
    have hstart : Scan.start.literal.previous ≠ some (.char '=') := by decide
    rw [h.splits .start hstart, List.append_nil]

namespace IsMember

/-- By itself a member is not split. -/
theorem splitMembers_self (ht : IsMember t) : splitMembers t = [t] := by
  have hsplits := ht.splits []
  rw [List.append_nil] at hsplits
  rw [splitMembers, hsplits, splitFrom, List.reverse_reverse]

theorem sees_newline (ht : IsMember t) : (Scan.start.run t).sees newline = true :=
  ht.body.top.sees (by decide)

theorem atTop_newline (ht : IsMember t) : ((Scan.start.run t).next newline).AtTop :=
  ht.body.top.next (by decide)

/-- A line feed ends a member when another begins behind it. -/
theorem splitMembers_newline (ht : IsMember t) (hrest : startsMember rest = true) :
    splitMembers (t ++ newline :: rest) = t :: splitMembers rest := by
  -- Behind a member a line feed ends it exactly where another begins.
  have hends : endsMember t newline rest = true := by
    rw [endsMember, ht.ends, hrest]
    rfl
  have hprevious : ((Scan.start.run t).next newline).literal.previous ≠ some (.char '=') := by
    simp [Scan.next, LiteralScan.next, newline]
  rw [splitMembers, ht.splits, splitFrom, ht.sees_newline, List.reverse_reverse, hends,
    Bool.and_true, if_pos rfl, splitFrom_of_atTop ht.atTop_newline hprevious]
  rfl

/-- A member that goes on with a signature is one member. -/
theorem append_signature (ht : IsMember t) (h : IsLine line) (hkind : line.1 = .signature) :
    IsMember (t ++ newline :: line.2) where
  body := ht.body.append_between h.body (by decide) (by decide)
  ends := by
    intro rest
    have hassoc : t ++ newline :: line.2 = (t ++ [newline]) ++ line.2 := by simp
    rw [hassoc]
    exact h.endsLine _ rest
  splits := by
    intro rest
    -- A signature is no beginning for the scan that looks ahead, so the line feed is taken as a
    -- part of the member.
    have hends : endsMember t newline (line.2 ++ rest) = false := by
      rw [endsMember, ht.ends, h.begins.startsMember, hkind]
      rfl
    have hprevious : ((Scan.start.run t).next newline).literal.previous ≠ some (.char '=') := by
      simp [Scan.next, LiteralScan.next, newline]
    rw [List.append_assoc, ht.splits, List.cons_append, splitFrom, ht.sees_newline,
      List.reverse_reverse, hends, Bool.and_false, if_neg Bool.false_ne_true,
      h.splits ht.atTop_newline hprevious]
    simp [Scan.run_append]
    rfl

end IsMember

/-! ## All lines -/

/-- The lines behind a member are split into the members that they come to. -/
theorem splitMembers_lines (ht : IsMember t) (hlines : ∀ line ∈ lines, IsLine line) :
    splitMembers (t ++ lines.flatMap fun line => newline :: line.2) = gathered t lines := by
  -- Over the lines, for every member that has begun: a field ends it, a signature makes it longer.
  induction lines generalizing t with
  | nil =>
    rw [List.flatMap_nil, List.append_nil, ht.splitMembers_self]
    rfl
  | cons line rest ih =>
    obtain ⟨kind, m⟩ := line
    have hline : IsLine (kind, m) := hlines _ List.mem_cons_self
    have hrest := fun other hother => hlines other (List.mem_cons_of_mem _ hother)
    rw [List.flatMap_cons]
    cases kind with
    | field =>
      rw [List.cons_append, ht.splitMembers_newline (hline.begins.startsMember _),
        ih hline.isMember hrest]
      rfl
    | signature =>
      rw [← List.append_assoc, ih (ht.append_signature hline rfl) hrest]
      rfl

/-- What lines come to behind a member are members. -/
theorem isMember_gathered (ht : IsMember t) (hlines : ∀ line ∈ lines, IsLine line) :
    ∀ m ∈ gathered t lines, IsMember m := by
  induction lines generalizing t with
  | nil =>
    intro m hm
    obtain rfl := List.mem_singleton.1 hm
    exact ht
  | cons line rest ih =>
    obtain ⟨kind, m⟩ := line
    have hline : IsLine (kind, m) := hlines _ List.mem_cons_self
    have hrest := fun other hother => hlines other (List.mem_cons_of_mem _ hother)
    cases kind with
    | field =>
      rw [gathered, List.forall_mem_cons]
      exact ⟨ht, ih hline.isMember hrest⟩
    | signature => exact ih (ht.append_signature hline rfl) hrest

theorem gathered_of_fields (hfields : ∀ line ∈ lines, line.1 = .field) :
    gathered t lines = t :: lines.map Prod.snd := by
  induction lines generalizing t with
  | nil => rfl
  | cons line rest ih =>
    obtain ⟨kind, m⟩ := line
    obtain rfl : kind = .field := hfields _ List.mem_cons_self
    rw [gathered, ih fun other hother => hfields other (List.mem_cons_of_mem _ hother)]
    rfl

theorem gathered_ne_nil (t : Text) (lines : List (LineKind × Text)) : gathered t lines ≠ [] := by
  induction lines generalizing t with
  | nil => exact List.cons_ne_nil _ _
  | cons line rest ih =>
    obtain ⟨kind, m⟩ := line
    cases kind with
    | field => exact List.cons_ne_nil _ _
    | signature => exact ih _

end Layout

theorem Text.join_cons (separator t : Text) (ts : List Text) :
    Text.join separator (t :: ts) = t ++ ts.flatMap (separator ++ ·) := by
  induction ts generalizing t with
  | nil => simp [Text.join]
  | cons u rest ih => rw [Text.join, ih, List.flatMap_cons, List.append_assoc, List.append_assoc]

/-- Bodies that are joined by a character that is no quote, no bracket and no beginning of an arrow
make a body. -/
theorem IsBody.join {c : CodePoint} (hc : isCalm c = true) (harrow : c ≠ .char '=') {ts : List Text}
    (hts : ∀ t ∈ ts, IsBody t) : IsBody (Text.join [c] ts) := by
  induction ts with
  | nil => exact .nil
  | cons t rest ih =>
    rw [List.forall_mem_cons] at hts
    -- The last text has nothing behind it; between two others stands the character that joins them.
    cases rest with
    | nil => exact hts.1
    | cons u rest =>
      rw [Text.join, List.append_assoc]
      exact hts.1.append_between (ih hts.2) hc harrow

namespace Layout

variable {lines : List (LineKind × Text)}

/-- Members that are joined by semicolons are split back. -/
theorem splitMembers_join {ts : List Text} (hts : ∀ t ∈ ts, IsMember t) (hne : ts ≠ []) :
    splitMembers (Text.join ";".text ts) = ts := by
  induction ts with
  | nil => exact absurd rfl hne
  | cons t rest ih =>
    rw [List.forall_mem_cons] at hts
    cases rest with
    | nil => exact hts.1.splitMembers_self
    | cons u rest =>
      -- The first member is split off at its semicolon, whatever the others are.
      have hsplit := splitMembers_append (.inl rfl) hts.1.body.top (Text.join ";".text (u :: rest))
      rw [hts.1.splitMembers_self, ih hts.2 (List.cons_ne_nil _ _)] at hsplit
      rw [Text.join, List.append_assoc]
      exact hsplit

/-- Lines are split into the members that they come to. -/
theorem splitMembers_membersOf (hlines : ∀ line ∈ lines, IsLine line) (hne : lines ≠ []) :
    splitMembers (Text.join "\n".text (lines.map Prod.snd)) = membersOf lines := by
  obtain ⟨line, rest, rfl⟩ := List.exists_cons_of_ne_nil hne
  rw [List.forall_mem_cons] at hlines
  rw [List.map_cons, Text.join_cons, List.flatMap_map]
  exact splitMembers_lines hlines.1.isMember hlines.2

theorem isMember_membersOf (hlines : ∀ line ∈ lines, IsLine line) :
    ∀ m ∈ membersOf lines, IsMember m := by
  cases lines with
  | nil => exact fun m hm => absurd hm List.not_mem_nil
  | cons line rest =>
    rw [List.forall_mem_cons] at hlines
    exact isMember_gathered hlines.1.isMember hlines.2

theorem membersOf_ne_nil (hne : lines ≠ []) : membersOf lines ≠ [] := by
  obtain ⟨line, rest, rfl⟩ := List.exists_cons_of_ne_nil hne
  exact gathered_ne_nil _ _

theorem membersOf_of_fields (hfields : ∀ line ∈ lines.tail, line.1 = .field) :
    membersOf lines = lines.map Prod.snd := by
  cases lines with
  | nil => rfl
  | cons line rest => exact gathered_of_fields hfields

end Layout

namespace Schema

open Layout

/-- Bodies with the same members compile alike. -/
theorem compile_literalText_congr {body other : Text} (hbody : IsBody body) (hother : IsBody other)
    (h : splitMembers body = splitMembers other) :
    compile (literalText body) = compile (literalText other) := by
  rw [compile_literalText hbody, compile_literalText hother, fieldsOf, fieldsOf, Member.ofBody,
    Member.ofBody, h]

/-- **A line feed separates members as a semicolon does, except in front of a signature.**  Members on
lines of their own compile like the members that the lines come to with semicolons in between; where
every line but the first is a field, these are the lines. -/
theorem compile_lines {lines : List (LineKind × Text)} (hlines : ∀ line ∈ lines, IsLine line) :
    compile (literalText (Text.join "\n".text (lines.map Prod.snd))) =
        compile (literalText (Text.join ";".text (membersOf lines))) ∧
      ((∀ line ∈ lines.tail, line.1 = .field) →
        compile (literalText (Text.join "\n".text (lines.map Prod.snd))) =
          compile (literalText (Text.join ";".text (lines.map Prod.snd)))) := by
  have hall : compile (literalText (Text.join "\n".text (lines.map Prod.snd))) =
      compile (literalText (Text.join ";".text (membersOf lines))) := by
    -- Without lines both texts are empty.
    by_cases hne : lines = []
    · simp only [hne, membersOf, List.map_nil, Text.join]
    have hmembers := isMember_membersOf hlines
    have hsome : membersOf lines ≠ [] := membersOf_ne_nil hne
    have hbody : IsBody (Text.join "\n".text (lines.map Prod.snd)) := by
      refine .join (by decide) (by decide) ?_
      rw [List.forall_mem_map]
      exact fun line hline => (hlines line hline).body
    have hother : IsBody (Text.join ";".text (membersOf lines)) :=
      .join (by decide) (by decide) fun m hm => (hmembers m hm).body
    -- The bodies differ, their members do not.
    apply compile_literalText_congr hbody hother
    rw [splitMembers_membersOf hlines hne, splitMembers_join hmembers hsome]
  refine ⟨hall, ?_⟩
  intro hfields
  rw [hall, membersOf_of_fields hfields]

/-- A field, an index signature and a method signature, which go on with it, and a quoted field with a
mark; without the signatures the lines are the members. -/
theorem compile_lines_signatures :
    compile "\x7ba: T\n [k: string]: U\nf(x): V\n'b' ?: W\x7d".text =
        compile "\x7ba: T\n [k: string]: U\nf(x): V;'b' ?: W\x7d".text ∧
      compile "\x7ba: T\n'b' ?: W\x7d".text = compile "\x7ba: T;'b' ?: W\x7d".text := by
  have hquoted : NameText "b".text "'b'".text :=
    .quoted (.inr rfl) (by decide) (by decide) (by decide)
  have hbeginsA : BeginsAs .field ([] ++ ("a".text ++ [] ++ markText false ++ [] ++ ": T".text)) :=
    .field .nil (.mk (.bare rfl) .nil .nil)
  have hbeginsIndex : BeginsAs .signature (" ".text ++ "[k: string]: U".text) :=
    .index .space .square
  have hbeginsMethod :
      BeginsAs .signature ([] ++ ("f".text ++ [] ++ markText false ++ [] ++ "(x): V".text)) :=
    .method .nil (.mk (.bare rfl) .nil .nil) .round
  have hbeginsB :
      BeginsAs .field ([] ++ ("'b'".text ++ " ".text ++ markText true ++ [] ++ ": W".text)) :=
    .field .nil (.mk hquoted .space .nil)
  have ha : IsLine (.field, "a: T".text) :=
    ⟨hbeginsA, by decide, ⟨by decide, by decide, by decide⟩, by decide, by decide⟩
  have hindex : IsLine (.signature, " [k: string]: U".text) :=
    ⟨hbeginsIndex, by decide, ⟨by decide, by decide, by decide⟩, by decide, by decide⟩
  have hmethod : IsLine (.signature, "f(x): V".text) :=
    ⟨hbeginsMethod, by decide, ⟨by decide, by decide, by decide⟩, by decide, by decide⟩
  have hb : IsLine (.field, "'b' ?: W".text) :=
    ⟨hbeginsB, by decide, ⟨by decide, by decide, by decide⟩, by decide, by decide⟩
  have hall : ∀ line ∈ [(.field, "a: T".text), (.signature, " [k: string]: U".text),
      (.signature, "f(x): V".text), (.field, "'b' ?: W".text)], IsLine line := by
    simp [ha, hindex, hmethod, hb]
  have hfields : ∀ line ∈ [(.field, "a: T".text), (.field, "'b' ?: W".text)], IsLine line := by
    simp [ha, hb]
  exact ⟨(compile_lines hall).1, (compile_lines hfields).2 (by decide)⟩

/-- A field whose type is to be enforced and an index signature on the next line, which takes the type
away. -/
theorem compile_line_of_signature :
    IsLine (.field, "a: string".text) ∧ IsLine (.signature, "[k: string]: T".text) ∧
      compile "\x7ba: string;[k: string]: T\x7d".text =
        .object .literal [⟨"a".text, false, .text "string".text⟩] ∧
      compile "\x7ba: string\n[k: string]: T\x7d".text =
        .object .literal [⟨"a".text, false, .text "string\n[k: string]: T".text⟩] := by
  have ha : BeginsAs .field ([] ++ ("a".text ++ [] ++ markText false ++ [] ++ ": string".text)) :=
    .field .nil (.mk (.bare rfl) .nil .nil)
  have hindex : BeginsAs .signature ([] ++ "[k: string]: T".text) := .index .nil .square
  have hsemicolon : IsBody "a: string;[k: string]: T".text := ⟨by decide, by decide, by decide⟩
  have hnewline : IsBody "a: string\n[k: string]: T".text := ⟨by decide, by decide, by decide⟩
  have hfields : Member.ofBody "a: string;[k: string]: T".text =
      [⟨"a".text, false, "string".text⟩] := by decide +kernel
  have hfields' : Member.ofBody "a: string\n[k: string]: T".text =
      [⟨"a".text, false, "string\n[k: string]: T".text⟩] := by decide +kernel
  refine ⟨?_, ?_, ?_, ?_⟩
  · exact ⟨ha, by decide, ⟨by decide, by decide, by decide⟩, by decide, by decide⟩
  · exact ⟨hindex, by decide, ⟨by decide, by decide, by decide⟩, by decide, by decide⟩
  · exact (compile_literalText hsemicolon).trans
      (congrArg _ (fieldsOf_of_texts hfields (by decide)))
  · exact (compile_literalText hnewline).trans
      (congrArg _ (fieldsOf_of_texts hfields' (by decide)))

end Schema

end RpcContract
