import RpcContract.Proofs.Json.Escapes

/-!
# Printed JSON read back

Values that are made of texts and objects alone are written in ASCII, on one line or with a member a
line, and the reader finds the very value that was written: the same texts, and objects with the
same members in the same order at every depth.  Names within an object have to be distinct, since of
one that stands twice the reader keeps the last value only.
-/

namespace RpcContract.Json

open Text (IsAscii)

/-- A value made of objects with distinct names and of texts, all of these of a class. -/
inductive MadeOf (p : Text → Prop) : Value → Prop where
  | text {t : Text} (ht : p t) : MadeOf p (.text t)
  | record {members : List (Text × Value)} (hnames : ∀ member ∈ members, p member.1)
      (hdistinct : (Assoc.names members).Nodup) (hmembers : ∀ member ∈ members, MadeOf p member.2) :
      MadeOf p (.record members)

/-! ## What is written -/

section Writing

variable {spacing : Spacing} {depth : Nat} {p : Text → Prop} {t u : Text} {v : Value}
  {members : List (Text × Value)}

theorem printAt_record (h : members ≠ []) : printAt spacing depth (.record members) =
    "\x7b".text ++ spacing.lineBreak (depth + 1) ++ printMembers spacing (depth + 1) members
      ++ spacing.lineBreak depth ++ "\x7d".text := by
  cases members with
  | nil => exact absurd rfl h
  | cons member rest =>
    rw [printAt]
    exact h

theorem isAscii_lineBreak (spacing : Spacing) (depth : Nat) :
    IsAscii (spacing.lineBreak depth) := by
  cases spacing with
  | oneLine => exact .nil
  | indented =>
    apply IsAscii.append
    · decide
    · intro c hc
      obtain rfl := List.eq_of_mem_replicate hc
      decide

theorem isAscii_comma (spacing : Spacing) (depth : Nat) : IsAscii (spacing.comma depth) := by
  cases spacing with
  | oneLine => exact (by decide : IsAscii ", ".text)
  | indented => exact .append (by decide) (isAscii_lineBreak .indented depth)

theorem isAscii_printText (t : Text) : IsAscii (printText t) := by
  refine .append (.append (by decide) ?_) (by decide)
  intro c hc
  obtain ⟨d, _, hd⟩ := List.mem_flatMap.1 hc
  exact (writes_printChar d).isAscii c hd

theorem isAscii_printMembers
    (h : ∀ member ∈ members, IsAscii (printAt spacing depth member.2)) :
    IsAscii (printMembers spacing depth members) := by
  induction members with
  | nil => exact .nil
  | cons member rest ih =>
    obtain ⟨name, value⟩ := member
    obtain ⟨hvalue, hrest⟩ := List.forall_mem_cons.1 h
    have hmember : IsAscii (printText name ++ ": ".text ++ printAt spacing depth value) :=
      ((isAscii_printText name).append (by decide)).append hvalue
    -- No comma is written behind the last one.
    cases rest with
    | nil => exact hmember
    | cons next rest => exact (hmember.append (isAscii_comma spacing depth)).append (ih hrest)

/-- A value made of texts and objects is written in ASCII, whatever the texts. -/
theorem MadeOf.isAscii_printAt (h : MadeOf p v) (spacing : Spacing) (depth : Nat) :
    IsAscii (printAt spacing depth v) := by
  -- Over the value, for every depth, which grows by one in each object.
  induction h generalizing depth with
  | text => exact isAscii_printText _
  | @record members _ _ _ ih =>
    by_cases hmembers : members = []
    · subst hmembers
      rw [printAt]
      decide
    · rw [printAt_record hmembers]
      have hinside := isAscii_printMembers fun member hmember => ih member hmember (depth + 1)
      have hopen : IsAscii ("\x7b".text ++ spacing.lineBreak (depth + 1)) :=
        .append (by decide) (isAscii_lineBreak spacing _)
      have hclose : IsAscii (spacing.lineBreak depth ++ "\x7d".text) :=
        (isAscii_lineBreak spacing _).append (by decide)
      -- The line break at the end goes with the brace behind it.
      rw [List.append_assoc _ (spacing.lineBreak depth)]
      exact (hopen.append hinside).append hclose

end Writing

/-! ## White space -/

/-- Nothing but white space between tokens. -/
def IsGap (t : Text) : Prop := ∀ c ∈ t, isSpace c = true

theorem skipSpace_append {gap : Text} (h : IsGap gap) (t : Text) :
    skipSpace (gap ++ t) = skipSpace t := by
  induction gap with
  | nil => rfl
  | cons c rest ih =>
    obtain ⟨hc, hrest⟩ := List.forall_mem_cons.1 h
    rw [List.cons_append, skipSpace, List.dropWhile_cons, if_pos hc]
    exact ih hrest

theorem skipSpace_cons {c : CodePoint} (h : isSpace c = false) (t : Text) :
    skipSpace (c :: t) = c :: t := by
  simp [skipSpace, h]

theorem isGap_lineBreak (spacing : Spacing) (depth : Nat) : IsGap (spacing.lineBreak depth) := by
  cases spacing with
  | oneLine => exact fun _ hc => absurd hc List.not_mem_nil
  | indented =>
    intro c hc
    rcases List.mem_cons.1 hc with rfl | hc
    · rfl
    · obtain rfl := List.eq_of_mem_replicate hc
      rfl

/-- A comma is written with a gap behind it. -/
theorem exists_comma (spacing : Spacing) (depth : Nat) :
    ∃ gap, IsGap gap ∧ spacing.comma depth = .char ',' :: gap := by
  cases spacing with
  | oneLine => exact ⟨[.char ' '], by simp [IsGap, isSpace], rfl⟩
  | indented => exact ⟨_, isGap_lineBreak .indented depth, rfl⟩

/-! ## What is read -/

/-- A reader finds a value and leaves the rest. -/
def Finds {α : Type} {source : Text} (result : Except Fault (Read α source)) (value : α)
    (rest : Text) : Prop :=
  ∃ shorter, result = .ok ⟨value, rest, shorter⟩

section Reading

variable {t source rest left afterName afterColon : Text} {value : Value} {name : Text}
  {members : List (Text × Value)}

theorem finds_text (h : readText (source.length + 1) source = .ok (t, rest)) :
    Finds (readValue (.char '"' :: source)) (.text t) rest := by
  -- Each `split` follows one question of the reader; the branches that were not taken contradict
  -- what is given.
  rw [readValue]
  split
  · rename_i fault heq
    rw [h] at heq
    cases heq
  · rename_i found left heq
    rw [h] at heq
    cases heq
    exact ⟨_, rfl⟩

theorem finds_empty (h : skipSpace source = .char '\x7d' :: rest) :
    Finds (readValue (.char '\x7b' :: source)) (.record []) rest := by
  rw [readValue]
  split
  · rename_i left heq
    rw [h] at heq
    cases heq
    exact ⟨_, rfl⟩
  · rename_i hno
    exact absurd h (hno _)

theorem finds_record {inside : Text} (hskip : skipSpace source = inside)
    (hopen : inside.head? ≠ some (.char '\x7d'))
    (hmembers : Finds (readMembers inside) members rest) :
    Finds (readValue (.char '\x7b' :: source)) (.record (Assoc.ofEntries members)) rest := by
  subst hskip
  obtain ⟨shorter, hread⟩ := hmembers
  rw [readValue]
  split
  · rename_i left heq
    rw [heq] at hopen
    exact absurd rfl hopen
  · rw [hread]
    exact ⟨_, rfl⟩

/-- A member is read and then the members behind it, if there is a comma. -/
theorem finds_members (hname : readText (source.length + 1) source = .ok (name, afterName))
    (hcolon : skipSpace afterName = .char ':' :: afterColon)
    (hvalue : Finds (readValue (skipSpace afterColon)) value left)
    (hrest : skipSpace left = .char '\x7d' :: rest ∧ members = [] ∨
      ∃ more, skipSpace left = .char ',' :: more ∧
        Finds (readMembers (skipSpace more)) members rest) :
    Finds (readMembers (.char '"' :: source)) ((name, value) :: members) rest := by
  obtain ⟨shorter, hread⟩ := hvalue
  rw [readMembers]
  split
  · rename_i fault heq
    rw [hname] at heq
    cases heq
  · rename_i found after heq
    rw [hname] at heq
    cases heq
    dsimp only
    split
    · rename_i behind heq
      rw [hcolon] at heq
      cases heq
      rw [hread]
      dsimp only
      -- The object is closed, or another member follows; in each case the other two branches drop
      -- out.
      rcases hrest with ⟨hclose, rfl⟩ | ⟨more, hcomma, shorter', hread'⟩
      · split
        · rename_i close heq
          rw [hclose] at heq
          cases heq
          exact ⟨_, rfl⟩
        · rename_i more heq
          rw [hclose] at heq
          cases heq
        · rename_i hno _
          exact absurd hclose (hno _)
      · split
        · rename_i close heq
          rw [hcomma] at heq
          cases heq
        · rename_i more heq
          rw [hcomma] at heq
          cases heq
          rw [hread']
          exact ⟨_, rfl⟩
        · rename_i hno
          exact absurd hcomma (hno _)
    · rename_i hno
      exact absurd hcolon (hno _)

end Reading

/-! ## Reading what was written -/

section RoundTrip

variable {spacing : Spacing} {depth : Nat} {t : Text} {v : Value} {members : List (Text × Value)}

theorem printText_append (t rest : Text) :
    printText t ++ rest = .char '"' :: (t.flatMap printChar ++ .char '"' :: rest) := by
  simp [printText, String.text]

/-- A value begins with a quote or a brace. -/
theorem MadeOf.exists_head {p : Text → Prop} (h : MadeOf p v) (spacing : Spacing) (depth : Nat) :
    ∃ c t, printAt spacing depth v = c :: t ∧ (c = .char '"' ∨ c = .char '\x7b') := by
  cases h with
  | text => exact ⟨_, _, rfl, .inl rfl⟩
  | @record members =>
    -- Braces stand around the members, whether there are any or not.
    by_cases hmembers : members = []
    · subst hmembers
      exact ⟨_, _, rfl, .inr rfl⟩
    · exact ⟨_, _, printAt_record hmembers, .inr rfl⟩

/-- The reader skips nothing in front of a value. -/
theorem MadeOf.skipSpace_printAt {p : Text → Prop} (h : MadeOf p v) (spacing : Spacing)
    (depth : Nat) (rest : Text) :
    skipSpace (printAt spacing depth v ++ rest) = printAt spacing depth v ++ rest := by
  obtain ⟨c, t, ht, hc⟩ := h.exists_head spacing depth
  rw [ht]
  rcases hc with rfl | rfl
  · exact skipSpace_cons rfl _
  · exact skipSpace_cons rfl _

/-- Members are written from the quote of the first name on. -/
theorem exists_printMembers (h : members ≠ []) :
    ∃ t, printMembers spacing depth members = .char '"' :: t := by
  cases members with
  | nil => exact absurd rfl h
  | cons member rest =>
    cases rest with
    | nil => exact ⟨_, rfl⟩
    | cons next rest => exact ⟨_, rfl⟩

theorem head?_printMembers (h : members ≠ []) (rest : Text) :
    (printMembers spacing depth members ++ rest).head? ≠ some (.char '\x7d') := by
  obtain ⟨t, ht⟩ := exists_printMembers h
  rw [ht]
  simp

/-- The reader skips the gap in front of members and nothing else. -/
theorem skipSpace_printMembers {gap : Text} (hgap : IsGap gap) (h : members ≠ []) (rest : Text) :
    skipSpace (gap ++ (printMembers spacing depth members ++ rest)) =
      printMembers spacing depth members ++ rest := by
  obtain ⟨t, ht⟩ := exists_printMembers h
  rw [skipSpace_append hgap, ht]
  exact skipSpace_cons rfl _

/-- The members that were written are found, up to the closing brace. -/
theorem finds_printMembers (hmembers : members ≠ [])
    (hnames : ∀ member ∈ members, Unpaired member.1)
    (hvalues : ∀ member ∈ members, MadeOf Unpaired member.2 ∧ ∀ rest,
      Finds (readValue (printAt spacing depth member.2 ++ rest)) member.2 rest)
    {behind rest : Text} (hclose : skipSpace behind = .char '\x7d' :: rest) :
    Finds (readMembers (printMembers spacing depth members ++ behind)) members rest := by
  -- On the members: the last one is written without a comma, and only it has `behind` next to it.
  induction members with
  | nil => exact absurd rfl hmembers
  | cons member others ih =>
    obtain ⟨name, value⟩ := member
    obtain ⟨hname, hnames'⟩ := List.forall_mem_cons.1 hnames
    obtain ⟨⟨hmade, hvalue⟩, hvalues'⟩ := List.forall_mem_cons.1 hvalues
    -- Behind the colon a blank is written, which the reader skips, and then the value.
    have hone (tail : Text) : Finds (readValue (skipSpace
        (.char ' ' :: (printAt spacing depth value ++ tail)))) value tail := by
      have hskip : skipSpace (.char ' ' :: (printAt spacing depth value ++ tail)) =
          printAt spacing depth value ++ tail := hmade.skipSpace_printAt spacing depth tail
      rw [hskip]
      exact hvalue tail
    cases others with
    | nil =>
      have hwritten : printMembers spacing depth [(name, value)] ++ behind =
          .char '"' :: (name.flatMap printChar ++ .char '"' :: .char ':' :: .char ' ' ::
            (printAt spacing depth value ++ behind)) := by
        simp [printMembers, printText, String.text]
      rw [hwritten]
      exact finds_members (readText_flatMap_printChar hname _) (skipSpace_cons rfl _) (hone behind)
        (.inl ⟨hclose, rfl⟩)
    | cons next others =>
      obtain ⟨gap, hgap, hcomma⟩ := exists_comma spacing depth
      have hwritten : printMembers spacing depth ((name, value) :: next :: others) ++ behind =
          .char '"' :: (name.flatMap printChar ++ .char '"' :: .char ':' :: .char ' ' ::
            (printAt spacing depth value ++ .char ',' ::
              (gap ++ (printMembers spacing depth (next :: others) ++ behind)))) := by
        simp [printMembers, printText, String.text, hcomma]
      rw [hwritten]
      refine finds_members (readText_flatMap_printChar hname _) (skipSpace_cons rfl _) (hone _)
        -- Behind the comma the reader skips the gap and is in front of the next member.
        (.inr ⟨_, skipSpace_cons rfl _, ?_⟩)
      rw [skipSpace_printMembers hgap (List.cons_ne_nil next others)]
      exact ih (List.cons_ne_nil next others) hnames' hvalues'

/-- A value that was written is found, whatever is behind it. -/
theorem MadeOf.finds (h : MadeOf Unpaired v) (spacing : Spacing) (depth : Nat) (rest : Text) :
    Finds (readValue (printAt spacing depth v ++ rest)) v rest := by
  -- Over the value, for every depth and whatever is behind; the members are found by the hypothesis
  -- for each of them.
  induction h generalizing depth rest with
  | text ht =>
    rw [printAt, printText_append]
    exact finds_text (readText_flatMap_printChar ht rest)
  | @record members hnames hdistinct hmade ih =>
    by_cases hmembers : members = []
    · subst hmembers
      rw [printAt]
      exact finds_empty rfl
    · -- Behind the members only a line break stands in front of the brace.
      have hclose : skipSpace (spacing.lineBreak depth ++ .char '\x7d' :: rest) =
          .char '\x7d' :: rest := by
        rw [skipSpace_append (isGap_lineBreak spacing depth)]
        exact skipSpace_cons rfl _
      have hinside : Finds _ members rest := finds_printMembers hmembers hnames
        (fun member hmember => ⟨hmade member hmember, ih member hmember (depth + 1)⟩) hclose
      have hwritten : printAt spacing depth (.record members) ++ rest =
          .char '\x7b' :: (spacing.lineBreak (depth + 1) ++
            (printMembers spacing (depth + 1) members ++
              (spacing.lineBreak depth ++ .char '\x7d' :: rest))) := by
        simp [printAt_record hmembers, String.text]
      have hgap := isGap_lineBreak spacing (depth + 1)
      have hrecord := finds_record (skipSpace_printMembers hgap hmembers _)
        (head?_printMembers hmembers _) hinside
      -- Distinct names are kept as they are.
      rw [Assoc.ofEntries_of_nodup hdistinct] at hrecord
      rw [hwritten]
      exact hrecord

/-- What is written for a value made of texts and of objects with distinct names is read back as the
value. -/
theorem read_print (h : MadeOf Unpaired v) (spacing : Spacing) :
    read (print spacing v) = .ok v := by
  have hskip : skipSpace (print spacing v) = print spacing v := by
    simpa [print] using h.skipSpace_printAt spacing 0 []
  have hfinds : Finds (readValue (skipSpace (print spacing v))) v [] := by
    rw [hskip, ← List.append_nil (print spacing v)]
    exact h.finds spacing 0 []
  -- The reader refuses a mark in front, and what was written begins with a quote or a brace.
  have hmark : (print spacing v).head? ≠ some (.char '\uFEFF') := by
    obtain ⟨c, t, ht, hc⟩ := h.exists_head spacing 0
    rw [print, ht]
    rcases hc with rfl | rfl <;> simp
  obtain ⟨shorter, hread⟩ := hfinds
  rw [read]
  split
  · rename_i heq
    exact absurd heq hmark
  · rw [hread]
    rfl

end RoundTrip

end RpcContract.Json
