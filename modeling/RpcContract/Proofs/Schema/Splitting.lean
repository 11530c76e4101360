import Mathlib.Data.List.Infix
import RpcContract.Proofs.Schema.Pieces

/-!
# Splitting printed bodies back

The body of a printed literal is split exactly between its members: a line feed inside a member
never ends it, since what is behind it begins no member or what is before it is not finished, and
one that separates two members always does.
-/

namespace RpcContract

open Text (Blank Tight isBlank)

/-- A scan that stands outside literals and brackets. -/
structure Scan.AtTop (s : Scan) : Prop where
  quote : s.literal.quote = none
  depth : s.depth = 0

namespace Scan.AtTop

variable {s : Scan} {p : CodePoint → Bool} {t : Text} {c : CodePoint}

theorem start : Scan.start.AtTop := ⟨rfl, rfl⟩

theorem run (hs : s.AtTop) (ht : Balanced p t) : (s.run t).AtTop := by
  obtain ⟨hquote, hdepth⟩ := ht.closed s hs.quote
  exact ⟨hquote, hdepth.trans hs.depth⟩

theorem sees (hs : s.AtTop) (hc : isCalm c = true) : s.sees c = true := by
  rw [Scan.sees_calm hs.quote hc, hs.depth]
  rfl

theorem next (hs : s.AtTop) (hc : isCalm c = true) : (s.next c).AtTop := by
  rw [Scan.next_calm hs.quote hc]
  exact ⟨rfl, hs.depth⟩

end Scan.AtTop

namespace Layout

variable {s : Scan} {taken t u v rest : Text}

/-! ## Line feeds -/

theorem startsMember_blank_append (hu : Blank u) : startsMember (u ++ t) = startsMember t := by
  rw [startsMember, Text.trimLeft_blank_append hu, startsMember]

/-- No member begins with a character that begins no name. -/
theorem startsMember_cons {c : CodePoint} (hblank : isBlank c = false)
    (hname : behindName? (c :: t) = none) : startsMember (c :: t) = false := by
  rw [startsMember, Text.trimLeft_cons hblank, hname]

theorem endsLine_append_blank (hu : Blank u) : endsLine (t ++ u) rest = endsLine t rest := by
  rw [endsLine, Text.trim_append_blank hu, endsLine]

theorem endsLine_blank_append (hu : Blank u) : endsLine t (u ++ rest) = endsLine t rest := by
  rw [endsLine, startsMember_blank_append hu, endsLine]

/-- No member has begun yet. -/
theorem endsLine_of_blank (hu : Blank u) : endsLine u rest = false := by
  rw [endsLine, Text.trim_of_blank hu]
  rfl

/-- No other member begins. -/
theorem endsLine_of_startsMember (h : startsMember rest = false) : endsLine t rest = false := by
  rw [endsLine, h, Bool.and_false]

/-- The type is still to come. -/
theorem endsLine_colon : endsLine (t ++ [.char ':']) rest = false := by
  -- A colon is not blank, so trimming on the left stops there at the latest.
  have hleft : Text.trimLeft (t ++ [.char ':']) = Text.trimLeft t ++ [.char ':'] := by
    unfold Text.trimLeft
    rw [List.dropWhile_append]
    split
    · rename_i hempty
      rw [List.isEmpty_iff.1 hempty]
      rfl
    · rfl
  have htrim : Text.trim (t ++ [.char ':']) = Text.trimLeft t ++ [.char ':'] := by
    rw [Text.trim, hleft]
    -- And trimming on the right does not begin.
    refine Text.trimRight_of_last fun c hc => ?_
    rw [List.getLast?_concat] at hc
    obtain rfl := Option.some.inj hc
    decide
  have hends : continuations.any (Text.endsWith (Text.trimLeft t ++ [.char ':'])) = true := by
    refine List.any_eq_true.2 ⟨":".text, by simp [continuations], ?_⟩
    exact List.isSuffixOf_iff_suffix.2 (List.suffix_append _ _)
  rw [endsLine, htrim, hends]
  simp

/-- Behind a text that does not ask for more a line feed is the end of a member when another begins. -/
theorem endsLine_of_trim (hne : Text.trim t ≠ [])
    (hfinished : ∀ ending ∈ continuations, ¬ ending <:+ Text.trim t) :
    endsLine t rest = startsMember rest := by
  have hends : continuations.any (Text.endsWith (Text.trim t)) = false := by
    rw [List.any_eq_false]
    intro ending hending hsuffix
    exact hfinished ending hending (List.isSuffixOf_iff_suffix.1 hsuffix)
  rw [endsLine, hends]
  simp [hne]

/-- Behind a finished member a line feed is the end of it when another member begins. -/
theorem endsLine_of_finished (hu : Blank u) (ht : Tight t) (hne : t ≠ [])
    (hfinished : ∀ ending ∈ continuations, ¬ ending <:+ t) :
    endsLine (u ++ t) rest = startsMember rest := by
  have htrim : Text.trim (u ++ t) = t := by
    rw [Text.trim_blank_append hu, Text.trim_of_tight ht]
  apply endsLine_of_trim
  · rw [htrim]
    exact hne
  · rw [htrim]
    exact hfinished

/-! ## Splitting step by step -/

/-- What stays within a member is taken. -/
theorem splitFrom_append (ht : ∀ c ∈ s.seen t, isInline c = true) :
    splitFrom s taken (t ++ rest) = splitFrom (s.run t) (t.reverse ++ taken) rest := by
  induction t generalizing s taken with
  | nil => rfl
  -- Over the text, for every state and everything taken so far; a character inside a member is
  -- taken.
  | cons c later ih =>
    have hends : (s.sees c && endsMember taken.reverse c (later ++ rest)) = false := by
      by_cases hsees : s.sees c = true
      · have hinline := ht c (Scan.mem_seen_cons later hsees)
        simp only [isInline, Bool.not_eq_true', Bool.or_eq_false_iff] at hinline
        simp [endsMember, hinline]
      · simp [hsees]
    have hlater : ∀ d ∈ (s.next c).seen later, isInline d = true := fun d hd =>
      ht d (Scan.mem_seen_of_next hd)
    rw [List.cons_append, splitFrom, hends, if_neg Bool.false_ne_true, ih hlater,
      List.reverse_cons, List.append_assoc]
    rfl

/-- White space is taken as long as a line feed in it would not be the end of the member. -/
theorem splitFrom_blank (hu : Blank u) (hends : endsLine taken.reverse rest = false) :
    splitFrom s taken (u ++ rest) = splitFrom (s.run u) (u.reverse ++ taken) rest := by
  induction u generalizing s taken with
  | nil => rfl
  -- White space changes nothing about where the member would end, so the condition goes along with
  -- it.
  | cons c later ih =>
    have hc := hu c List.mem_cons_self
    have hlater : Blank later := fun d hd => hu d (List.mem_cons_of_mem c hd)
    have hstays : endsMember taken.reverse c (later ++ rest) = false := by
      -- A blank character is no semicolon and no comma; a line feed is asked about in front of the
      -- rest.
      have hsemicolon : c ≠ ';' := Text.ne_of_class hc (by decide)
      have hcomma : c ≠ ',' := Text.ne_of_class hc (by decide)
      rw [endsMember, endsLine_blank_append hlater, hends]
      simp [hsemicolon, hcomma]
    have hnext : endsLine (c :: taken).reverse rest = false := by
      rw [List.reverse_cons, endsLine_append_blank fun d hd => by
        obtain rfl := List.mem_singleton.1 hd
        exact hc]
      exact hends
    rw [List.cons_append, splitFrom, hstays, Bool.and_false, if_neg Bool.false_ne_true,
      ih hlater hnext, List.reverse_cons, List.append_assoc]
    rfl

/-- The end of a member. -/
theorem splitFrom_end {c : CodePoint} (hs : s.AtTop) (hc : isCalm c = true)
    (hends : endsMember taken.reverse c rest = true) :
    splitFrom s taken (c :: rest) = taken.reverse :: splitFrom (s.next c) [] rest := by
  rw [splitFrom, hs.sees hc, hends]
  rfl

/-- What has been taken of a member while the scan stands at the top level. -/
structure Stays (s : Scan) (taken t rest : Text) : Prop where
  top : (s.run t).AtTop
  splits : splitFrom s taken (t ++ rest) = splitFrom (s.run t) (t.reverse ++ taken) rest

namespace Stays

theorem nil (hs : s.AtTop) : Stays s taken [] rest := ⟨hs, rfl⟩

theorem inline (h : Stays s taken t (u ++ rest)) (hu : Balanced isInline u) :
    Stays s taken (t ++ u) rest := by
  constructor
  · rw [Scan.run_append]
    exact h.top.run hu
  · -- What is taken of the whole comes in reverse, the later part first.
    rw [List.append_assoc, h.splits, splitFrom_append (hu.shown _ h.top.quote), Scan.run_append,
      List.reverse_append, List.append_assoc]

theorem blank (h : Stays s taken t (u ++ rest)) (hu : Blank u)
    (hends : endsLine (taken.reverse ++ t) rest = false) : Stays s taken (t ++ u) rest := by
  constructor
  · rw [Scan.run_append]
    exact h.top.run (balanced_of_blank (p := fun _ => true) hu fun _ _ => rfl)
  · -- The same, with white space for the part inside the member.
    rw [List.append_assoc, h.splits, splitFrom_blank hu (by simpa using hends), Scan.run_append,
      List.reverse_append, List.append_assoc]

/-- Where the member ends, what has been taken is the member. -/
theorem ends {c : CodePoint} (h : Stays s taken t (c :: rest)) (hc : isCalm c = true)
    (hends : endsMember (taken.reverse ++ t) c rest = true) :
    ∃ s' : Scan, s'.AtTop ∧
      splitFrom s taken (t ++ c :: rest) = (taken.reverse ++ t) :: splitFrom s' [] rest := by
  refine ⟨(s.run t).next c, h.top.next hc, ?_⟩
  rw [h.splits, splitFrom_end h.top hc (by simpa using hends), List.reverse_append,
    List.reverse_reverse]

end Stays

/-! ## Members -/

/-- A text that is read back as a schema wherever it stands as the type of a member. -/
structure ReadsBack (schema : Schema) (t : Text) : Prop where
  compiles : Schema.compile t = schema
  nonempty : t ≠ []
  tight : Tight t
  balanced : Balanced isInline t
  finished : ∀ ending ∈ continuations, ¬ ending <:+ t

/-- Of the ends of an ending that asks for more, only a `>` alone does not ask for more itself. -/
theorem tails_continuations : ∀ ending ∈ continuations, ∀ t ∈ ending.tails,
    t = [] ∨ t ∈ continuations ∨ t = [.char '>'] := by
  decide

/-- Whatever stands before what does not ask for more, it still does not. -/
theorem finished_append (hne : t ≠ []) (hhead : t.head? ≠ some (.char '>'))
    (h : ∀ ending ∈ continuations, ¬ ending <:+ t) (u : Text) :
    ∀ ending ∈ continuations, ¬ ending <:+ u ++ t := by
  intro ending hending hsuffix
  rcases List.suffix_or_suffix_of_suffix hsuffix (List.suffix_append u t) with hends | hwithin
  · exact h ending hending hends
  · -- The text is no longer than the ending, and it is no `>` alone.
    rcases tails_continuations ending hending t ((List.mem_tails _ _).2 hwithin) with
      rfl | hmem | rfl
    · exact hne rfl
    · exact h t hmem List.suffix_rfl
    · exact hhead rfl

/-- Whatever stands before a finished type, it is still finished. -/
theorem ReadsBack.finished_append {schema : Schema} (h : ReadsBack schema t) (u : Text) :
    ∀ ending ∈ continuations, ¬ ending <:+ u ++ t :=
  Layout.finished_append h.nonempty h.balanced.head h.finished u

section Members

variable {name label : Text} {optional : Bool}

theorem isInline_of_continuesName {c : CodePoint} (hc : Text.continuesName c = true) :
    isInline c = true := by
  have hsemicolon : c ≠ .char ';' := Text.ne_of_class hc (by decide)
  have hcomma : c ≠ .char ',' := Text.ne_of_class hc (by decide)
  have hline : c ≠ .char '\n' := Text.ne_of_class hc (by decide)
  simp [isInline, hsemicolon, hcomma, hline]

/-- A label and the colon behind it do not end a member. -/
theorem stays_label (hs : s.AtTop) (hlabel : LabelText name optional label) :
    Stays s taken (label ++ [.char ':']) rest := by
  obtain @⟨written, u, v, hname, hu, hv⟩ := hlabel
  have hcolon : startsMember (.char ':' :: rest) = false := startsMember_cons (by decide) rfl
  -- Neither a mark nor a colon begins a name, so a line feed in front of either ends nothing.
  have hmark : startsMember (markText optional ++ (v ++ .char ':' :: rest)) = false := by
    cases optional with
    | true => exact startsMember_cons (by decide) rfl
    | false =>
      show startsMember (v ++ .char ':' :: rest) = false
      rw [startsMember_blank_append hv, hcolon]
  have hmarked : Balanced isInline (markText optional) := by
    cases optional with
    | true => exact .calm (by decide) (by decide)
    | false => exact .nil
  -- From the colon back to the name, part by part.
  refine Stays.inline ?_ (.calm (by decide) (by decide))
  refine Stays.blank ?_ hv (endsLine_of_startsMember hcolon)
  refine Stays.inline ?_ hmarked
  refine Stays.blank ?_ hu (endsLine_of_startsMember hmark)
  exact (Stays.nil hs).inline (hname.balanced fun _ => isInline_of_continuesName)

variable {field : Field Schema} {member separator trailing : Text}

/-- Nothing inside a member ends it. -/
theorem stays_member (hs : s.AtTop) (hmember : MemberText ReadsBack field member) :
    Stays s taken member rest := by
  obtain @⟨name, optional, schema, label, gap, type, hlabel, hgap, htype⟩ := hmember
  have hassoc : label ++ .char ':' :: gap ++ type = label ++ [.char ':'] ++ gap ++ type := by
    simp
  rw [hassoc]
  refine Stays.inline ?_ htype.balanced
  refine Stays.blank (stays_label hs hlabel) hgap ?_
  -- In the white space before the type a line feed ends nothing: the colon asks for more.
  rw [← List.append_assoc]
  exact endsLine_colon

/-- A member is tight, whatever it holds. -/
theorem MemberText.tight (hmember : MemberText ReadsBack field member) : Tight member := by
  obtain @⟨name, optional, schema, label, gap, type, hlabel, _, htype⟩ := hmember
  constructor
  · -- The first character is that of the label, the last that of the type.
    intro c hc
    obtain ⟨d, later, rfl⟩ := List.exists_cons_of_ne_nil hlabel.ne_nil
    exact hlabel.head?_isBlank c (by simpa using hc)
  · intro c hc
    rw [List.getLast?_append_of_ne_nil _ htype.nonempty] at hc
    exact htype.tight.last c hc

theorem MemberText.ne_nil (hmember : MemberText ReadsBack field member) : member ≠ [] := by
  obtain ⟨hlabel, _, _⟩ := hmember
  simp

/-- A member is where a member begins. -/
theorem MemberText.startsMember (hmember : MemberText ReadsBack field member) (t : Text) :
    startsMember (member ++ t) = true := by
  obtain @⟨name, optional, schema, label, gap, type, hlabel, _, _⟩ := hmember
  have hassoc : label ++ .char ':' :: gap ++ type ++ t =
      label ++ .char ':' :: (gap ++ type ++ t) := by simp
  rw [hassoc]
  exact hlabel.startsMember _

/-- Behind a member a line feed ends it when another begins. -/
theorem MemberText.endsLine (hmember : MemberText ReadsBack field member) (hu : Blank u) :
    endsLine (u ++ member) rest = RpcContract.startsMember rest := by
  refine endsLine_of_finished hu hmember.tight hmember.ne_nil ?_
  obtain @⟨name, optional, schema, label, gap, type, _, _, htype⟩ := hmember
  exact htype.finished_append _

/-- A member with white space around it is read back as its field. -/
theorem MemberText.read (hmember : MemberText ReadsBack field member) (hu : Blank u)
    (hv : Blank v) :
    (Member.ofText? (u ++ member ++ v)).map Schema.compileMember = some field := by
  obtain @⟨name, optional, schema, label, gap, type, hlabel, hgap, htype⟩ := hmember
  rw [ofText?_member hlabel hgap htype.tight htype.nonempty hu hv]
  simp [Schema.compileMember, htype.compiles]

/-! ## Between members and behind them -/

/-- Where a member ends with a character and white space behind it, what is left is read with that
white space taken. -/
theorem Stays.ends_blank {c : CodePoint} (h : Stays s taken t (c :: (v ++ rest)))
    (hc : isCalm c = true) (hv : Blank v)
    (hends : endsMember (taken.reverse ++ t) c (v ++ rest) = true) :
    ∃ s' : Scan, s'.AtTop ∧
      splitFrom s taken (t ++ c :: (v ++ rest)) =
        (taken.reverse ++ t) :: splitFrom s' v.reverse rest := by
  obtain ⟨s', htop, hsplit⟩ := h.ends hc hends
  -- Behind the cut nothing has been taken, and white space alone is never a member.
  have hblank : Stays s' [] v rest := (Stays.nil htop).blank hv (endsLine_of_blank Blank.nil)
  refine ⟨s'.run v, hblank.top, ?_⟩
  rw [hsplit, hblank.splits, List.append_nil]

/-- A semicolon or a comma ends a member, with white space on either side. -/
theorem Stays.ends_mark {c : CodePoint} (h : Stays s taken t (u ++ c :: v ++ rest))
    (hc : c = .char ';' ∨ c = .char ',') (hu : Blank u) (hv : Blank v) :
    ∃ s' : Scan, s'.AtTop ∧
      splitFrom s taken (t ++ (u ++ c :: v ++ rest)) =
        (taken.reverse ++ t ++ u) :: splitFrom s' v.reverse rest := by
  have hcalm : isCalm c = true := by rcases hc with rfl | rfl <;> decide
  have hstarts : startsMember (c :: (v ++ rest)) = false := by
    rcases hc with rfl | rfl
    · exact startsMember_cons (by decide) rfl
    · exact startsMember_cons (by decide) rfl
  -- These two end a member by themselves, whatever comes.
  have hends : endsMember (taken.reverse ++ (t ++ u)) c (v ++ rest) = true := by
    rcases hc with rfl | rfl <;> rfl
  have hassoc : u ++ c :: v ++ rest = u ++ c :: (v ++ rest) := by simp
  rw [hassoc] at h ⊢
  obtain ⟨s', htop, hsplit⟩ :=
    (h.blank hu (endsLine_of_startsMember hstarts)).ends_blank hcalm hv hends
  refine ⟨s', htop, ?_⟩
  rw [← List.append_assoc, hsplit, List.append_assoc]

/-- The first line feed of white space that has one. -/
theorem exists_first_line (hu : Blank u) (hv : Blank v) :
    ∃ before behind : Text, u ++ .char '\n' :: v = before ++ .char '\n' :: behind ∧
      .char '\n' ∉ before ∧ Blank before ∧ Blank behind := by
  have hmem : CodePoint.char '\n' ∈ u ++ .char '\n' :: v := by simp
  have hblank : Blank (u ++ .char '\n' :: v) := by
    -- All of it is white space, the line feed in the middle included.
    refine hu.append fun c hc => ?_
    rcases List.mem_cons.1 hc with rfl | hc
    · decide
    · exact hv c hc
  obtain ⟨before, behind, hfirst, hnone⟩ := List.eq_append_cons_of_mem hmem
  rw [hfirst] at hblank
  exact ⟨before, behind, hfirst, hnone, hblank.left,
    fun c hc => hblank.right c (List.mem_cons_of_mem _ hc)⟩

/-- A separator ends the member before it, given that a line feed there does. -/
theorem splitFrom_separator (h : Stays s taken t (separator ++ rest))
    (hseparator : SeparatorText separator) (hline : endsLine (taken.reverse ++ t) rest = true) :
    ∃ (u v : Text) (s' : Scan), Blank u ∧ Blank v ∧ s'.AtTop ∧
      splitFrom s taken (t ++ (separator ++ rest)) =
        (taken.reverse ++ t ++ u) :: splitFrom s' v rest := by
  cases hseparator with
  | @mark c u v hc hu hv =>
    obtain ⟨s', htop, hsplit⟩ := h.ends_mark hc hu hv
    exact ⟨u, v.reverse, s', hu, hv.reverse, htop, hsplit⟩
  | line hu hv =>
    -- The first line feed is the one that counts: behind it nothing has been taken yet.
    obtain ⟨before, behind, hfirst, hnone, hbefore, hbehind⟩ := exists_first_line hu hv
    have hassoc : before ++ .char '\n' :: behind ++ rest =
        before ++ .char '\n' :: (behind ++ rest) := by simp
    rw [hfirst, hassoc] at h ⊢
    have hinline : Balanced isInline before := by
      refine balanced_of_blank hbefore fun c hc => ?_
      have hsemicolon : c ≠ .char ';' := Text.ne_of_class (hbefore c hc) (by decide)
      have hcomma : c ≠ .char ',' := Text.ne_of_class (hbefore c hc) (by decide)
      have hother : c ≠ .char '\n' := fun heq => hnone (heq ▸ hc)
      simp [isInline, hsemicolon, hcomma, hother]
    have hends :
        endsMember (taken.reverse ++ (t ++ before)) (.char '\n') (behind ++ rest) = true := by
      -- White space on either side does not change what a line feed is asked for.
      rw [← List.append_assoc, endsMember, endsLine_append_blank hbefore,
        endsLine_blank_append hbehind, hline]
      rfl
    obtain ⟨s', htop, hsplit⟩ := (h.inline hinline).ends_blank (by decide) hbehind hends
    refine ⟨before, behind.reverse, s', hbefore, hbehind.reverse, htop, ?_⟩
    rw [← List.append_assoc, hsplit, List.append_assoc]

/-- Behind the last member there is nothing but white space. -/
theorem splitFrom_trailing (h : Stays s taken t trailing) (htrailing : TrailingText trailing) :
    ∃ (u : Text) (more : List Text), Blank u ∧ (∀ w ∈ more, Blank w) ∧
      splitFrom s taken (t ++ trailing) = (taken.reverse ++ t ++ u) :: more := by
  cases htrailing with
  | blank hu =>
    -- A body ends with nothing behind it, where no member begins.
    rw [← List.append_nil trailing] at h
    have hstays := h.blank hu (endsLine_of_startsMember rfl)
    refine ⟨trailing, [], hu, fun w hw => absurd hw List.not_mem_nil, ?_⟩
    have hsplit := hstays.splits
    rw [List.append_nil] at hsplit
    rw [hsplit, splitFrom, List.reverse_append, List.reverse_reverse, List.append_assoc]
  | @mark c u v hc hu hv =>
    rw [← List.append_nil (u ++ c :: v)] at h ⊢
    obtain ⟨s', htop, hsplit⟩ := h.ends_mark hc hu hv
    refine ⟨u, [v], hu, ?_, ?_⟩
    · intro w hw
      rw [List.mem_singleton.1 hw]
      exact hv
    · -- Behind the mark only the white space is left over, which is a piece by itself.
      rw [hsplit, splitFrom, List.reverse_reverse]

end Members

/-! ## Whole bodies -/

/-- Members begin where the first of them does. -/
theorem MembersText.startsMember {fields : List (Field Schema)} {text : Text}
    (h : MembersText ReadsBack fields text) : startsMember text = true := by
  cases h with
  | last hmember _ => exact hmember.startsMember _
  | next hmember _ _ =>
    rw [List.append_assoc]
    exact hmember.startsMember _

/-- Members, with white space in front of them, are split and read back as their fields. -/
theorem MembersText.read {fields : List (Field Schema)} {text : Text}
    (h : MembersText ReadsBack fields text) (hs : s.AtTop) (htaken : Blank taken) :
    ((splitFrom s taken text).filterMap Member.ofText?).map Schema.compileMember = fields := by
  -- What has been taken of the next member is white space, at the start and behind each separator.
  induction h generalizing s taken with
  | last hmember htrailing =>
    obtain ⟨u, more, hu, hmore, hsplit⟩ := splitFrom_trailing (stays_member hs hmember) htrailing
    -- What is left over declares nothing.
    have hnone : more.filterMap Member.ofText? = [] := by
      rw [List.filterMap_eq_nil_iff]
      exact fun w hw => ofText?_blank (hmore w hw)
    obtain ⟨m, hm, hfield⟩ := Option.map_eq_some_iff.1 (hmember.read htaken.reverse hu)
    rw [hsplit, List.filterMap_cons_some hm, hnone, List.map_singleton, hfield]
  | @next field fields member separator rest hmember hseparator hrest ih =>
    -- The next member begins behind the separator, so a line feed in it would end this one.
    have hline : endsLine (taken.reverse ++ member) rest = true := by
      rw [hmember.endsLine htaken.reverse]
      exact hrest.startsMember
    obtain ⟨u, v, s', hu, hv, htop, hsplit⟩ :=
      splitFrom_separator (stays_member hs hmember) hseparator hline
    obtain ⟨m, hm, hfield⟩ := Option.map_eq_some_iff.1 (hmember.read htaken.reverse hu)
    rw [List.append_assoc, hsplit, List.filterMap_cons_some hm, List.map_cons, hfield, ih htop hv]

/-- The body of a literal is read back as its fields. -/
theorem BodyText.read {fields : List (Field Schema)} {body : Text}
    (h : BodyText ReadsBack fields body) :
    (Member.ofBody body).map Schema.compileMember = fields := by
  unfold Member.ofBody splitMembers
  cases h with
  | empty htrailing =>
    obtain ⟨u, more, hu, hmore, hsplit⟩ := splitFrom_trailing (Stays.nil .start) htrailing
    have hnone : ∀ w ∈ u :: more, Member.ofText? w = none := by
      intro w hw
      rcases List.mem_cons.1 hw with rfl | hw
      · exact ofText?_blank hu
      · exact ofText?_blank (hmore w hw)
    have hsplit' : splitFrom .start [] body = u :: more := hsplit
    rw [hsplit', List.filterMap_eq_nil_iff.2 hnone]
    rfl
  | @members _ leading members hleading hmembers =>
    -- A line feed before the first member ends nothing: no member has begun.
    have hstays : Stays .start [] leading members :=
      (Stays.nil .start).blank hleading (endsLine_of_blank Blank.nil)
    rw [hstays.splits, List.append_nil]
    exact hmembers.read hstays.top hleading.reverse

end Layout

end RpcContract
