import RpcContract.Proofs.Schema.Layout

/-!
# Reading single members back

The parts of a printed member one by one: each is balanced, a name is found where one begins, and a
member with white space around it is read as the field that it declares.
-/

namespace RpcContract

open Text (Blank Tight isBlank continuesName)

namespace Layout

variable {p : CodePoint → Bool} {t u v : Text}

/-! ## Balanced parts -/

/-- The quotes and the brackets. -/
def loud : List CodePoint :=
  [.char '"', .char '\'', .char '`', .char '\x7b', .char '[', .char '(', .char '<', .char '\x7d',
   .char ']', .char ')', .char '>']

/-- A class without quotes and brackets. -/
theorem isCalm_of_class {p : CodePoint → Bool} (hp : ∀ d ∈ loud, p d = false) {c : CodePoint}
    (hc : p c = true) : isCalm c = true := by
  -- A character of the class is none of the quotes and brackets, since these are outside it.
  have hne : ∀ d ∈ loud, (c == d) = false := fun d hd =>
    beq_eq_false_iff_ne.2 (Text.ne_of_class hc (hp d hd))
  simp only [loud, List.forall_mem_cons] at hne
  simp [isCalm, isQuote, isOpener, isCloser, hne]

theorem isCalm_of_isBlank {c : CodePoint} (h : isBlank c = true) : isCalm c = true :=
  isCalm_of_class (by decide) h

theorem isCalm_of_continuesName {c : CodePoint} (h : continuesName c = true) : isCalm c = true :=
  isCalm_of_class (by decide) h

theorem balanced_of_blank (hu : Blank u) (hp : ∀ c ∈ u, p c = true) : Balanced p u :=
  .of_calm fun c hc => ⟨isCalm_of_isBlank (hu c hc), hp c hc⟩

theorem Matched.balanced (h : Matched p t) : Balanced p t := by
  -- Each way to match is a way to be balanced; inside brackets any characters may stand.
  induction h with
  | nil => exact .nil
  | ordinary hc hp _ ih =>
    have hcalm := (Bool.and_eq_true _ _ ▸ hc).1
    exact (Balanced.calm hcalm hp).append ih
  | arrow hp _ ih => exact (Balanced.arrow hp).append ih
  | bracketed hbrackets _ harrow _ ihinside ih =>
    exact (Balanced.bracketed hbrackets ihinside harrow).append ih

theorem isQuote_of_name {quote : CodePoint} (h : quote = .char '"' ∨ quote = .char '\'') :
    isQuote quote = true := by
  rcases h with rfl | rfl <;> decide

namespace NameText

variable {name written : Text}

theorem balanced (h : NameText name written) (hp : ∀ c, continuesName c = true → p c = true) :
    Balanced p written := by
  cases h with
  | bare hname =>
    refine .of_calm fun c hc => ?_
    have hword := Text.continuesName_of_isName hname c hc
    exact ⟨isCalm_of_continuesName hword, hp c hword⟩
  | quoted hquote _ hfree hbackslash =>
    -- Nothing inside needs a backslash, and there is none to stand in front of the last quote.
    exact .quoted (isQuote_of_name hquote) (.of_not_mem hfree _)
      fun hlast => hbackslash (List.mem_of_getLast? hlast)

theorem tight (h : NameText name written) : Tight written := by
  cases h with
  | bare hname => exact Text.tight_of_isName hname
  | quoted hquote _ _ _ =>
    rcases hquote with rfl | rfl
    · exact Text.tight_between (by decide) (by decide) _
    · exact Text.tight_between (by decide) (by decide) _

theorem ne_nil (h : NameText name written) : written ≠ [] := by
  cases h with
  | bare hname =>
    rintro rfl
    exact Bool.noConfusion hname
  | quoted => exact List.cons_ne_nil _ _

theorem getLast?_ne_mark (h : NameText name written) : written.getLast? ≠ some (.char '?') := by
  intro hlast
  cases h with
  | bare hname =>
    -- The last character of a bare name goes on with a name, and a mark does not.
    have hword := Text.continuesName_of_isName hname _ (List.mem_of_getLast? hlast)
    exact absurd hword (by decide)
  | quoted hquote _ _ _ =>
    rw [List.getLast?_concat] at hlast
    rcases hquote with rfl | rfl <;> simp at hlast

/-- A name is found where one begins. -/
theorem behindName? (h : NameText name written)
    (ht : ∀ c, t.head? = some c → continuesName c = false) :
    RpcContract.behindName? (written ++ t) = some t := by
  cases h with
  | bare hname =>
    cases name with
    | nil => exact Bool.noConfusion hname
    | cons c rest =>
      have hwords := Text.continuesName_of_isName hname
      have hcalm := (isCalm_iff.1 (isCalm_of_continuesName (hwords c List.mem_cons_self))).1
      simp only [Text.isName, Bool.and_eq_true] at hname
      have hquote : (c == .char '"' || c == .char '\'') = false := by
        simp only [isQuote, Bool.or_eq_false_iff] at hcalm
        simp [hcalm.1]
      -- The name is taken to its end and stops there, since what follows does not go on with it.
      have hrest : (rest ++ t).dropWhile continuesName = t := by
        rw [List.dropWhile_append_of_pos fun d hd => hwords d (List.mem_cons_of_mem c hd)]
        cases t with
        | nil => rfl
        | cons d later => simp [ht d rfl]
      simp [RpcContract.behindName?, hquote, hname.1, hrest]
  | @quoted quote hquote _ hfree _ =>
    have hopen : (quote == .char '"' || quote == .char '\'') = true := by
      rcases hquote with rfl | rfl <;> decide
    -- Between the quotes there is none, so the first one found is the one at the end.
    have hdrop : (name ++ quote :: t).dropWhile (· != quote) = quote :: t := by
      rw [List.dropWhile_append_of_pos]
      · simp
      · intro d hd
        have hne : d ≠ quote := fun h => hfree (h ▸ hd)
        simpa using hne
    simp [RpcContract.behindName?, hopen, behindQuote?, hdrop]

end NameText

/-! ## Labels -/

/-- Whether a label goes no further than to the character: it is neither white space nor a mark, and
continues no name. -/
def endsLabel (c : CodePoint) : Bool := !isBlank c && !continuesName c && c != .char '?'

theorem endsLabel_iff {c : CodePoint} : endsLabel c = true ↔
    isBlank c = false ∧ continuesName c = false ∧ c ≠ .char '?' := by
  simp [endsLabel, and_assoc]

theorem skipMark_cons {c : CodePoint} (hc : c ≠ .char '?') : skipMark (c :: t) = c :: t := by
  unfold skipMark
  split
  · rename_i heq
    exact absurd (List.cons.inj heq).1 hc
  · rfl

variable {e : CodePoint}

/-- Nothing of the mark and the white space around it continues a name. -/
theorem continuesName_of_head?_mark {optional : Bool} (hu : Blank u) (hv : Blank v)
    (he : endsLabel e = true) {c : CodePoint}
    (hc : (u ++ markText optional ++ v ++ e :: t).head? = some c) : continuesName c = false := by
  -- The first character is one of `u`, the mark, one of `v`, or `e`, depending on which of them are
  -- empty.
  cases u with
  | cons d rest =>
    obtain rfl : d = c := by simpa using hc
    exact Text.continuesName_of_isBlank (hu d List.mem_cons_self)
  | nil =>
    cases optional with
    | true =>
      obtain rfl : .char '?' = c := by simpa [markText] using hc
      decide
    | false =>
      cases v with
      | cons d rest =>
        obtain rfl : d = c := by simpa [markText] using hc
        exact Text.continuesName_of_isBlank (hv d List.mem_cons_self)
      | nil =>
        obtain rfl : e = c := by simpa [markText] using hc
        exact (endsLabel_iff.1 he).2.1

/-- Behind the mark and the white space around it stands what stands there. -/
theorem skipMark_mark {optional : Bool} (hu : Blank u) (hv : Blank v) (he : endsLabel e = true) :
    skipMark (Text.trimLeft (u ++ markText optional ++ v ++ e :: t)) = e :: t := by
  obtain ⟨hblank, _, hmark⟩ := endsLabel_iff.1 he
  have hend : Text.trimLeft (v ++ e :: t) = e :: t := by
    rw [Text.trimLeft_blank_append hv, Text.trimLeft_cons hblank]
  -- White space in front, then the mark if there is one, then white space behind it.
  rw [List.append_assoc, List.append_assoc, Text.trimLeft_blank_append hu]
  cases optional with
  | true =>
    have hmark : Text.trimLeft (.char '?' :: (v ++ e :: t)) = .char '?' :: (v ++ e :: t) :=
      Text.trimLeft_cons (by decide)
    simp only [markText, if_true, List.cons_append, List.nil_append, hmark, skipMark, hend]
  | false => simp [markText, hend, skipMark_cons hmark]

namespace LabelText

variable {name label : Text} {optional : Bool}

theorem balanced (h : LabelText name optional label) :
    Balanced (fun c => c != .char ':') label := by
  obtain ⟨hname, hu, hv⟩ := h
  -- A colon neither goes on with a name nor is it white space, so no part shows one.
  have hword : ∀ c, continuesName c = true → (c != .char ':') = true := fun c hc => by
    simpa using Text.ne_of_class hc (by decide)
  have hblank : ∀ {w : Text}, Blank w → Balanced (fun c => c != .char ':') w := fun hw =>
    balanced_of_blank hw fun c hc => by simpa using Text.ne_of_class (hw c hc) (by decide)
  have hmark : Balanced (fun c => c != .char ':') (markText optional) := by
    cases optional with
    | true => exact .calm (by decide) (by decide)
    | false => exact .nil
  exact (((hname.balanced hword).append (hblank hu)).append hmark).append (hblank hv)

theorem head?_isBlank (h : LabelText name optional label) :
    ∀ c, label.head? = some c → isBlank c = false := by
  obtain ⟨hname, _, _⟩ := h
  intro c hc
  obtain ⟨d, rest, rfl⟩ := List.exists_cons_of_ne_nil hname.ne_nil
  exact hname.tight.head c (by simpa using hc)

theorem ne_nil (h : LabelText name optional label) : label ≠ [] := by
  obtain ⟨hname, _, _⟩ := h
  simp [hname.ne_nil]

/-- A label is where a member begins when a colon ends it. -/
theorem startsMember_append (h : LabelText name optional label) (he : endsLabel e = true)
    (t : Text) : RpcContract.startsMember (label ++ e :: t) = (e == .char ':') := by
  have hhead := h.head?_isBlank
  have hne := h.ne_nil
  -- A label begins with its name, so there is no white space to be dropped.
  have htrim : Text.trimLeft (label ++ e :: t) = label ++ e :: t :=
    Text.trimLeft_of_head fun c hc => by
      obtain ⟨d, rest, rfl⟩ := List.exists_cons_of_ne_nil hne
      exact hhead c (by simpa using hc)
  obtain @⟨written, u, v, hname, hu, hv⟩ := h
  have hassoc : written ++ u ++ markText optional ++ v ++ e :: t =
      written ++ (u ++ markText optional ++ v ++ e :: t) := by
    simp only [List.append_assoc]
  have hbehind : RpcContract.behindName?
      (written ++ (u ++ markText optional ++ v ++ e :: t)) =
        some (u ++ markText optional ++ v ++ e :: t) :=
    hname.behindName? fun _ hc => continuesName_of_head?_mark hu hv he hc
  rw [RpcContract.startsMember, htrim, hassoc, hbehind]
  show ((skipMark (Text.trimLeft (u ++ markText optional ++ v ++ e :: t))).head?
    == some (.char ':')) = _
  rw [skipMark_mark hu hv he]
  rfl

theorem startsMember (h : LabelText name optional label) (t : Text) :
    startsMember (label ++ .char ':' :: t) = true := h.startsMember_append (by decide) t

end LabelText

/-! ## Names of fields -/

/-- A written name is read as the name. -/
theorem NameText.read {name written : Text} (h : NameText name written) (optional : Bool) :
    (match unquote? written with
      | some inner => if inner.isEmpty then none else some (inner, optional)
      | none => if Text.isName written then some (written, optional) else none)
      = some (name, optional) := by
  cases h with
  | bare hname =>
    -- A bare name does not begin with a quote.
    have hunquote : unquote? name = none := by
      cases name with
      | nil => rfl
      | cons c rest =>
        have hword := Text.continuesName_of_isName hname c List.mem_cons_self
        have hdouble : c ≠ .char '"' := Text.ne_of_class hword (by decide)
        have hsingle : c ≠ .char '\'' := Text.ne_of_class hword (by decide)
        simp [unquote?, hdouble, hsingle]
    simp [hunquote, hname]
  | @quoted quote hquote hne _ _ =>
    have hunquote : unquote? (quote :: name ++ [quote]) = some name := by
      rcases hquote with rfl | rfl <;> simp [unquote?]
    rw [hunquote]
    simp [hne]

theorem splitMark_concat (t : Text) :
    splitMark (t ++ [.char '?']) = (Text.trimRight t, true) := by
  have hlast : (t ++ [CodePoint.char '?']).getLast? = some (.char '?') := List.getLast?_concat
  refine (if_pos hlast).trans ?_
  rw [List.dropLast_concat]

theorem splitMark_of_getLast? (h : t.getLast? ≠ some (.char '?')) : splitMark t = (t, false) :=
  if_neg h

/-- A label with white space in front of it is read as the name of its field and its mark. -/
theorem LabelText.fieldName? {name label leading : Text} {optional : Bool}
    (h : LabelText name optional label) (hleading : Blank leading) :
    fieldName? (leading ++ label) = some (name, optional) := by
  obtain @⟨written, u, v, hname, hu, hv⟩ := h
  have hsplit : splitMark (Text.trim (leading ++ (written ++ u ++ markText optional ++ v))) =
      (written, optional) := by
    -- The mark decides which white space is at the end.
    cases optional with
    | true =>
      -- The mark is the last character, and the white space before it goes with it.
      have htight : Tight (written ++ u ++ [.char '?']) :=
        hname.tight.append (Text.tight_singleton (by decide)) hname.ne_nil (List.cons_ne_nil _ _) u
      have htrim := Text.trim_between hleading htight hv
      rw [List.append_assoc] at htrim
      have hright : Text.trimRight (written ++ u) = written := by
        rw [Text.trimRight_append_blank hu, Text.trimRight_of_last hname.tight.last]
      rw [markText, if_pos rfl, htrim, splitMark_concat, hright]
    | false =>
      -- There is no mark, so all of the white space is at the end.
      have htrim := Text.trim_between hleading hname.tight (hu.append hv)
      have hassoc : leading ++ (written ++ u ++ markText false ++ v) =
          leading ++ written ++ (u ++ v) := by
        simp [markText]
      rw [hassoc, htrim, splitMark_of_getLast? hname.getLast?_ne_mark]
  rw [RpcContract.fieldName?, hsplit]
  exact hname.read optional

/-! ## Whole members -/

/-- Without a colon at the top level the scan for one passes on. -/
theorem splitColon?_append {s : Scan} (ht : ∀ c ∈ s.seen t, c ≠ .char ':') :
    s.splitColon? (t ++ u) =
      ((s.run t).splitColon? u).map fun (before, behind) => (t ++ before, behind) := by
  induction t generalizing s with
  | nil =>
    show s.splitColon? u = (s.splitColon? u).map fun (before, behind) => (before, behind)
    cases s.splitColon? u <;> rfl
  | cons c rest ih =>
    -- The character is no colon or is not seen; either way the search goes on.
    have hcolon : (s.sees c && c == .char ':') = false := by
      by_cases hsees : s.sees c = true
      · have hne := ht c (Scan.mem_seen_cons rest hsees)
        simp [hne]
      · simp [hsees]
    have hrest : ∀ d ∈ (s.next c).seen rest, d ≠ .char ':' := fun d hd =>
      ht d (Scan.mem_seen_of_next hd)
    rw [List.cons_append, Scan.splitColon?, hcolon, if_neg Bool.false_ne_true, ih hrest]
    show _ = (((s.next c).run rest).splitColon? u).map _
    cases ((s.next c).run rest).splitColon? u <;> rfl

/-- White space without a colon declares no field. -/
theorem ofText?_blank (hu : Blank u) : Member.ofText? u = none := by
  -- Nothing that white space shows is a colon, and behind it there is nothing to search.
  have hsplit : Scan.splitColon? .start (u ++ []) = none := by
    have hblank : Balanced (fun c => c != .char ':') u := balanced_of_blank hu fun c hc => by
      simpa using Text.ne_of_class (hu c hc) (by decide)
    rw [splitColon?_append fun c hc => by simpa using hblank.shown .start rfl c hc]
    rfl
  rw [List.append_nil] at hsplit
  simp [Member.ofText?, hsplit]

/-- A member with white space around it is read as the field that it declares. -/
theorem ofText?_member {name label gap type leading trailing : Text} {optional : Bool}
    (hlabel : LabelText name optional label) (hgap : Blank gap) (htight : Tight type)
    (hne : type ≠ []) (hleading : Blank leading) (htrailing : Blank trailing) :
    Member.ofText? (leading ++ (label ++ .char ':' :: gap ++ type) ++ trailing) =
      some ⟨name, optional, type⟩ := by
  have hbalanced : Balanced (fun c => c != .char ':') (leading ++ label) :=
    (balanced_of_blank hleading fun c hc => by
      simpa using Text.ne_of_class (hleading c hc) (by decide)).append hlabel.balanced
  -- The first colon at the top level is the one behind the label.
  obtain ⟨hquote, hdepth⟩ := hbalanced.closed .start rfl
  have hsees : (Scan.start.run (leading ++ label)).sees (.char ':') = true := by
    rw [Scan.sees_calm hquote (by decide), hdepth]
    rfl
  have hsplit : Scan.splitColon? .start
      (leading ++ label ++ .char ':' :: (gap ++ type ++ trailing)) =
        some (leading ++ label, gap ++ type ++ trailing) := by
    rw [splitColon?_append fun c hc => by simpa using hbalanced.shown .start rfl c hc]
    simp [Scan.splitColon?, hsees]
  have hassoc : leading ++ (label ++ .char ':' :: gap ++ type) ++ trailing =
      leading ++ label ++ .char ':' :: (gap ++ type ++ trailing) := by
    simp only [List.append_assoc, List.cons_append]
  have htype : Text.trim (gap ++ type ++ trailing) = type :=
    Text.trim_between hgap htight htrailing
  -- A member is split at that colon, its label is read as a name, and its type is trimmed.
  rw [hassoc, Member.ofText?, hsplit]
  simp only [Option.bind_eq_bind, Option.bind_some, hlabel.fieldName? hleading, htype]
  simp [hne]

end Layout

end RpcContract
