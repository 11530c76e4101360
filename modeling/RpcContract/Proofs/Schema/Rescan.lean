import Mathlib.Algebra.GroupWithZero.Nat
import RpcContract.Proofs.Schema.Joining

/-!
# Members scanned by themselves

The body of an object literal is cut where its scan is at the top level, and there the scan is where
it starts.  So what is cut out, scanned by itself, looks as it did within the body: a member has no
separator at its own top level, and neither has the type behind its colon.
-/

namespace RpcContract

open Text (Blank Tight)

/-- No separator stands at the top level of the text, scanned by itself. -/
def Undivided (t : Text) : Prop := ∀ p ∈ Scan.topLevel t, ¬ IsSeparator p.2

/-- A body and the members that it is cut into.  Each of them but the last ends where its own scan is
at the top level, in front of a separator or a line feed. -/
inductive CutInto : Text → List Text → Prop where
  | last {m : Text} (hm : Undivided m) : CutInto m [m]
  | next {m rest : Text} {c : CodePoint} {members : List Text} (hm : Undivided m)
      (htop : (Scan.start.run m).AtTop) (hc : IsSeparator c ∨ c = .char '\n')
      (hrest : CutInto rest members) : CutInto (m ++ c :: rest) (m :: members)

/-! ## What a scan sees -/

namespace Scan

/-- What is seen stands at the top level and is no quote and no bracket. -/
theorem of_sees {s : Scan} {c : CodePoint} (h : s.sees c = true) : s.AtTop ∧ isCalm c = true := by
  simp only [sees, LiteralScan.plain, Bool.and_eq_true, Bool.not_eq_true', beq_iff_eq,
    Option.isNone_iff_eq_none] at h
  -- Five conditions make a character seen; the first and the last say where the scan is, the others
  -- what the character is.
  obtain ⟨⟨⟨⟨hquote, hnoquote⟩, hopener⟩, hcloser⟩, hdepth⟩ := h
  exact ⟨⟨hquote, hdepth⟩, isCalm_iff.2 ⟨hnoquote, hopener, hcloser⟩⟩

theorem map_snd_topLevelFrom (s : Scan) (offset : Nat) (t : Text) :
    (s.topLevelFrom offset t).map Prod.snd = s.seen t := by
  induction t generalizing s offset with
  | nil => rfl
  | cons c rest ih =>
    -- `topLevelFrom` and `seen` ask the same question of every character; only the offset moves on.
    rw [topLevelFrom, seen]
    split
    · rw [List.map_cons, ih]
    · exact ih ..

end Scan

theorem undivided_iff {t : Text} : Undivided t ↔ ∀ c ∈ Scan.start.seen t, ¬ IsSeparator c := by
  rw [← Scan.map_snd_topLevelFrom .start 0, List.forall_mem_map]
  rfl

theorem Undivided.nil : Undivided [] := fun _ hp => absurd hp List.not_mem_nil

/-- A text that stays undivided with one more character. -/
theorem Undivided.concat {t : Text} {c : CodePoint} (ht : Undivided t)
    (hc : (Scan.start.run t).sees c = true → ¬ IsSeparator c) : Undivided (t ++ [c]) := by
  rw [undivided_iff] at ht ⊢
  intro d hd
  rw [Scan.seen_append, List.mem_append] at hd
  -- What is new is the one character, and that only where the scan sees it.
  rcases hd with hd | hd
  · exact ht d hd
  · rw [Scan.seen] at hd
    split at hd
    · rename_i hsees
      obtain rfl := List.mem_singleton.1 hd
      exact hc hsees
    · exact absurd hd List.not_mem_nil

/-! ## Cutting a body -/

/-- What is cut off behind `taken`, when the scan of it has been going on since it began. -/
theorem cutInto_splitFrom {taken : Text} (htaken : Undivided taken.reverse) (t : Text) :
    CutInto (taken.reverse ++ t) (splitFrom (Scan.start.run taken.reverse) taken t) := by
  -- Over what is still to be cut, for everything taken so far; a cut begins with nothing taken.
  induction t generalizing taken with
  | nil =>
    rw [List.append_nil]
    exact .last htaken
  | cons c rest ih =>
    rw [splitFrom]
    split
    · -- The scan goes on behind the cut as one that starts there.
      rename_i hcut
      obtain ⟨hsees, hends⟩ := Bool.and_eq_true_iff.1 hcut
      obtain ⟨htop, hcalm⟩ := Scan.of_sees hsees
      have hc : IsSeparator c ∨ c = .char '\n' := by
        simp only [endsMember, Bool.or_eq_true, Bool.and_eq_true, beq_iff_eq] at hends
        rcases hends with hseparator | ⟨hline, _⟩
        · exact .inl hseparator
        · exact .inr hline
      -- What is cut at is no equals sign, so nothing behind can be made an arrow of.
      have hprevious : ((Scan.start.run taken.reverse).next c).literal.previous ≠
          some (.char '=') := by
        rcases hc with (rfl | rfl) | rfl <;> simp [Scan.next, LiteralScan.next]
      rw [splitFrom_of_atTop (htop.next hcalm) hprevious]
      exact .next htaken htop hc (ih (show Undivided ([] : Text).reverse from .nil))
    · -- A character that ends no member is no separator, or the scan does not see it.
      rename_i hstays
      have hmore : Undivided (c :: taken).reverse := by
        rw [List.reverse_cons]
        refine htaken.concat fun hsees hseparator => hstays ?_
        rw [hsees]
        rcases hseparator with rfl | rfl <;> rfl
      -- The state behind the longer text is the one that the scan went on with.
      have hrest := ih hmore
      rw [List.reverse_cons, Scan.run_append, List.append_assoc] at hrest
      exact hrest

/-- A body is cut into its members. -/
theorem cutInto_splitMembers (body : Text) : CutInto body (splitMembers body) :=
  cutInto_splitFrom (show Undivided ([] : Text).reverse from .nil) body

namespace CutInto

variable {body : Text} {members : List Text}

theorem undivided (h : CutInto body members) : ∀ m ∈ members, Undivided m := by
  induction h with
  | last hm => exact List.forall_mem_singleton.2 hm
  | next hm _ _ _ ih => exact List.forall_mem_cons.2 ⟨hm, ih⟩

/-- Each member is a piece of the body. -/
theorem isInfix (h : CutInto body members) : ∀ m ∈ members, m <:+: body := by
  induction h with
  | last => exact List.forall_mem_singleton.2 List.infix_rfl
  | @next m rest c members _ _ _ _ ih =>
    -- A member is at the front of what is left, and what is left is an end of the body.
    refine List.forall_mem_cons.2 ⟨(List.prefix_append m (c :: rest)).isInfix, ?_⟩
    intro other hother
    have hbehind : rest <:+ m ++ c :: rest :=
      (List.suffix_cons c rest).trans (List.suffix_append m (c :: rest))
    exact (ih other hother).trans hbehind.isInfix

/-- The members do not overlap. -/
theorem sum_length_le (h : CutInto body members) :
    (members.map List.length).sum ≤ body.length := by
  induction h with
  | last => simp
  | next _ _ _ _ ih =>
    simp only [List.map_cons, List.sum_cons, List.length_append, List.length_cons]
    omega

end CutInto

/-! ## Reading a member -/

namespace Scan

/-- The first colon at the top level stands between the two parts. -/
theorem of_splitColon? {s : Scan} {t before behind : Text}
    (h : s.splitColon? t = some (before, behind)) :
    t = before ++ .char ':' :: behind ∧ (s.run before).sees (.char ':') = true := by
  induction t generalizing s before with
  | nil => cases h
  | cons c rest ih =>
    -- The colon is here, or it is found in the rest and this character goes in front of it.
    rw [splitColon?] at h
    split at h
    · rename_i hcolon
      simp only [Bool.and_eq_true, beq_iff_eq] at hcolon
      obtain ⟨hsees, rfl⟩ := hcolon
      cases h
      exact ⟨rfl, hsees⟩
    · obtain ⟨⟨later, behind'⟩, hlater, hparts⟩ := Option.map_eq_some_iff.1 h
      cases hparts
      obtain ⟨rfl, hsees⟩ := ih hlater
      exact ⟨rfl, hsees⟩

/-- White space at the start leaves a scan where it starts. -/
theorem seen_blank {u : Text} (hu : Blank u) (t : Text) :
    (start.run u).seen t = start.seen t := by
  have htop : (start.run u).AtTop :=
    .run .start (Layout.balanced_of_blank (p := fun _ => true) hu fun _ _ => rfl)
  refine htop.seen_eq ?_ t
  -- The last character of white space is no equals sign.
  rw [literal_run, LiteralScan.previous_run]
  intro hlast
  cases hu' : u.getLast? with
  | none => simp [hu', start, LiteralScan.start] at hlast
  | some c =>
    obtain rfl : c = .char '=' := by simpa [hu'] using hlast
    exact absurd (hu _ (List.mem_of_getLast? hu')) (by decide)

end Scan

/-- What stands behind the colon of a member, trimmed, is undivided when the member is. -/
theorem Undivided.trim_behind {t before behind : Text} (ht : Undivided t)
    (h : Scan.splitColon? .start t = some (before, behind)) : Undivided (Text.trim behind) := by
  obtain ⟨rfl, hsees⟩ := Scan.of_splitColon? h
  obtain ⟨htop, hcalm⟩ := Scan.of_sees hsees
  have hprevious : ((Scan.start.run before).next (.char ':')).literal.previous ≠
      some (.char '=') := by
    simp [Scan.next, LiteralScan.next]
  obtain ⟨u, v, hu, _, hbehind⟩ := Text.exists_blank_trim behind
  -- What the scan of the type sees, the scan of the member sees behind the colon.
  rw [undivided_iff] at ht ⊢
  intro c hc
  apply ht c
  rw [Scan.seen_append]
  refine List.mem_append_right _ (Scan.mem_seen_of_next ?_)
  rw [(htop.next hcalm).seen_eq hprevious, hbehind, List.append_assoc, Scan.seen_append,
    Scan.seen_blank hu, Scan.seen_append]
  exact List.mem_append_right _ (List.mem_append_left _ hc)

theorem Text.isPrefix_trimRight (t : Text) : Text.trimRight t <+: t := by
  rw [Text.trimRight, ← List.reverse_suffix, List.reverse_reverse]
  exact List.dropWhile_suffix _

theorem Text.isInfix_trim (t : Text) : Text.trim t <:+: t := by
  obtain ⟨u, v, _, _, ht⟩ := Text.exists_blank_trim t
  exact ⟨u, v, ht.symm⟩

theorem isPrefix_splitMark (t : Text) : (splitMark t).1 <+: t := by
  unfold splitMark
  split
  · exact (Text.isPrefix_trimRight t.dropLast).trans (List.dropLast_prefix t)
  · exact List.prefix_rfl

theorem isInfix_of_unquote? {t inner : Text} (h : unquote? t = some inner) : inner <:+: t := by
  cases t with
  | nil => cases h
  | cons quote rest =>
    -- A quoted text has both quotes taken off: the first by `suffix_cons`, the last by `dropLast`.
    rw [unquote?] at h
    split at h
    · obtain rfl := Option.some.inj h
      exact (List.dropLast_prefix rest).isInfix.trans (List.suffix_cons quote rest).isInfix
    · cases h

/-- The name of a field is not empty, and it is a piece of what stands before the colon. -/
theorem of_fieldName? {label name : Text} {optional : Bool}
    (h : fieldName? label = some (name, optional)) : name ≠ [] ∧ name <:+: label := by
  have hwritten : (splitMark (Text.trim label)).1 <:+: label :=
    (isPrefix_splitMark _).isInfix.trans (Text.isInfix_trim label)
  cases hmark : splitMark (Text.trim label) with
  | mk written mark =>
    rw [hmark] at hwritten
    simp only [fieldName?, hmark] at h
    -- Quoted and not empty, or bare and a name; everything else is refused.
    split at h
    · rename_i inner hinner
      split at h
      · cases h
      · rename_i hne
        cases h
        exact ⟨by simpa using hne, (isInfix_of_unquote? hinner).trans hwritten⟩
    · split at h
      · rename_i hname
        cases h
        refine ⟨?_, hwritten⟩
        rintro rfl
        exact Bool.noConfusion hname
      · cases h

namespace Member

/-- What can be said of a member by the text that it was read off. -/
structure ReadOff (t : Text) (m : Member) : Prop where
  named : m.name ≠ []
  typed : m.type ≠ []
  tight : Tight m.type
  isInfix : m.type <:+: t
  /-- Its name, the colon and its type do not overlap. -/
  length_le : m.name.length + 1 + m.type.length ≤ t.length
  undivided : Undivided t → Undivided m.type

/-- A member is read off the two sides of the first colon at the top level. -/
theorem exists_parts_of_ofText? {t : Text} {m : Member} (h : ofText? t = some m) :
    ∃ label rest, Scan.splitColon? .start t = some (label, rest) ∧
      fieldName? label = some (m.name, m.optional) ∧ Text.trim rest = m.type ∧ m.type ≠ [] := by
  simp only [ofText?, Option.bind_eq_bind, Option.bind_eq_some_iff] at h
  obtain ⟨⟨label, rest⟩, hcolon, ⟨name, optional⟩, hname, hm⟩ := h
  split at hm
  · cases hm
  · rename_i htyped
    obtain rfl := Option.some.inj hm
    exact ⟨label, rest, hcolon, hname, rfl, by simpa using htyped⟩

theorem readOff_of_ofText? {t : Text} {m : Member} (h : ofText? t = some m) : m.ReadOff t := by
  obtain ⟨label, rest, hcolon, hname, htype, htyped⟩ := exists_parts_of_ofText? h
  have hlabel : m.name.length ≤ label.length := (of_fieldName? hname).2.length_le
  obtain ⟨rfl, _⟩ := Scan.of_splitColon? hcolon
  constructor
  · exact (of_fieldName? hname).1
  · exact htyped
  · exact htype ▸ Text.tight_trim rest
  · -- The type is what is left of the right side between its white space.
    obtain ⟨u, v, _, _, hrest⟩ := Text.exists_blank_trim rest
    rw [htype] at hrest
    refine ⟨label ++ .char ':' :: u, v, ?_⟩
    rw [hrest]
    simp
  · -- Trimming does not make it longer, and the label and the colon stand beside it.
    have htrim := Text.length_trim_le rest
    rw [htype] at htrim
    rw [List.length_append, List.length_cons]
    omega
  · intro hundivided
    exact htype ▸ hundivided.trim_behind hcolon

/-- The name of a member is a piece of the text that it was read off. -/
theorem isInfix_name {t : Text} {m : Member} (h : ofText? t = some m) : m.name <:+: t := by
  obtain ⟨label, rest, hcolon, hname, _⟩ := exists_parts_of_ofText? h
  obtain ⟨rfl, _⟩ := Scan.of_splitColon? hcolon
  exact (of_fieldName? hname).2.trans (List.prefix_append label _).isInfix

/-- Each member of a body was read off an undivided piece of it. -/
theorem exists_piece_of_mem_ofBody {body : Text} {m : Member} (h : m ∈ ofBody body) :
    ∃ piece, piece <:+: body ∧ Undivided piece ∧ m.ReadOff piece := by
  obtain ⟨piece, hpiece, hm⟩ := List.mem_filterMap.1 h
  have hcut := cutInto_splitMembers body
  exact ⟨piece, hcut.isInfix piece hpiece, hcut.undivided piece hpiece, readOff_of_ofText? hm⟩

/-- Name and type of a member are pieces of the body. -/
theorem isInfix_of_mem_ofBody {body : Text} {m : Member} (h : m ∈ ofBody body) :
    m.name <:+: body ∧ m.type <:+: body := by
  obtain ⟨piece, hpiece, hm⟩ := List.mem_filterMap.1 h
  have hbody := (cutInto_splitMembers body).isInfix piece hpiece
  exact ⟨(isInfix_name hm).trans hbody, (readOff_of_ofText? hm).isInfix.trans hbody⟩

end Member

end RpcContract
