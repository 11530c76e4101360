import RpcContract.Proofs.Text.Edges
import RpcContract.Schema.Scan

/-!
# Balanced texts

A text is balanced when its literals and its brackets are closed.  The scan of the top level and
the scan of braces pass over such a text and stand where they stood before, whatever came in front
of it; and from inside brackets nothing of it is at the top level.  Balanced texts can be put one
after the other, between brackets and, whatever they hold, between quotes.
-/

namespace RpcContract

/-- Whether the character is neither a quote nor a bracket. -/
def isCalm (c : CodePoint) : Bool := !isQuote c && !isOpener c && !isCloser c

/-- An opening bracket and the closing one that goes with it. -/
inductive Brackets : CodePoint → CodePoint → Prop where
  | brace : Brackets '\x7b' '\x7d'
  | square : Brackets '[' ']'
  | round : Brackets '(' ')'
  | angle : Brackets '<' '>'

/-! ## Guarded quotes -/

/-- Each of the quotes in a text stands right behind a backslash, given the character in front of the
text. -/
def Guarded (quote : CodePoint) : Option CodePoint → Text → Prop
  | _, [] => True
  | previous, c :: rest =>
    (c = quote → previous = some (.char '\\')) ∧ Guarded quote (some c) rest

namespace Guarded

variable {quote : CodePoint} {t u : Text}

/-- Where there is no quote, none needs a backslash. -/
theorem of_not_mem (hfree : quote ∉ t) (previous : Option CodePoint) : Guarded quote previous t := by
  induction t generalizing previous with
  | nil => trivial
  | cons c rest ih =>
    rw [List.mem_cons, not_or] at hfree
    exact ⟨fun h => absurd h.symm hfree.1, ih hfree.2 _⟩

theorem append {previous : Option CodePoint} (ht : Guarded quote previous t)
    (hu : Guarded quote (t.getLast?.or previous) u) : Guarded quote previous (t ++ u) := by
  -- Over the text, for every character in front: it moves on with the text, and behind the text it
  -- is the last one, or still the one in front.
  induction t generalizing previous with
  | nil => exact hu
  | cons c rest ih =>
    refine ⟨ht.1, ih ht.2 ?_⟩
    rw [List.getLast?_cons] at hu
    cases hlast : rest.getLast? <;> simpa [hlast] using hu

end Guarded

/-! ## The three scans over whole texts -/

namespace LiteralScan

/-- After a whole text. -/
def run (s : LiteralScan) (t : Text) : LiteralScan := t.foldl next s

theorem run_append (s : LiteralScan) (t u : Text) : s.run (t ++ u) = (s.run t).run u :=
  List.foldl_append

theorem previous_run (s : LiteralScan) (t : Text) :
    (s.run t).previous = t.getLast?.or s.previous := by
  induction t generalizing s with
  | nil => rfl
  | cons c rest ih =>
    show ((s.next c).run rest).previous = _
    rw [ih, List.getLast?_cons]
    cases rest.getLast? <;> rfl

/-- A quote behind a backslash does not end its literal, and no other character does. -/
theorem quote_next_guarded {s : LiteralScan} {quote c : CodePoint} (hs : s.quote = some quote)
    (hc : c = quote → s.previous = some (.char '\\')) : (s.next c).quote = some quote := by
  by_cases hquote : c = quote
  · simp [next, hs, hc hquote]
  · simp [next, hs, hquote]

/-- A literal goes on up to the first quote of its own that is not behind a backslash. -/
theorem quote_run {s : LiteralScan} {quote : CodePoint} {t : Text} (hs : s.quote = some quote)
    (ht : Guarded quote s.previous t) : (s.run t).quote = some quote := by
  -- The scan moves on, so it is generalised; behind `c` it looks back at `c`, as `Guarded` does for
  -- the rest.
  induction t generalizing s with
  | nil => exact hs
  | cons c rest ih => exact ih (quote_next_guarded hs ht.1) ht.2

theorem quote_next_open {s : LiteralScan} {c : CodePoint} (hs : s.quote = none)
    (hc : isQuote c = true) : (s.next c).quote = some c := by
  simp [next, hs, hc]

theorem quote_next_close {s : LiteralScan} {c : CodePoint} (hs : s.quote = some c)
    (hprevious : s.previous ≠ some (.char '\\')) : (s.next c).quote = none := by
  simp [next, hs, hprevious]

/-- A text with a backslash in front of each of the quotes, but with none at its end, makes a literal
between two of the quotes. -/
theorem quote_run_quoted {s : LiteralScan} {quote : CodePoint} {t : Text} (hs : s.quote = none)
    (hquote : isQuote quote = true) (ht : Guarded quote (some quote) t)
    (hlast : t.getLast? ≠ some (.char '\\')) : (s.run (quote :: t ++ [quote])).quote = none := by
  have hopen : (s.next quote).quote = some quote := quote_next_open hs hquote
  have hinside : ((s.next quote).run t).quote = some quote := quote_run hopen ht
  -- No backslash stands before the second quote.
  have hprevious : ((s.next quote).run t).previous ≠ some (.char '\\') := by
    rw [previous_run]
    cases hend : t.getLast? with
    | none =>
      have hne : quote ≠ '\\' := by
        rintro rfl
        exact absurd hquote (by decide)
      simpa [next] using hne
    | some c =>
      rw [hend] at hlast
      simpa using hlast
  rw [List.cons_append]
  show ((s.next quote).run (t ++ [quote])).quote = none
  rw [run_append]
  exact quote_next_close hinside hprevious

end LiteralScan

namespace Scan

theorem run_append (s : Scan) (t u : Text) : s.run (t ++ u) = (s.run t).run u :=
  List.foldl_append

theorem literal_run (s : Scan) (t : Text) : (s.run t).literal = s.literal.run t := by
  induction t generalizing s with
  | nil => rfl
  | cons c rest ih => exact ih (s.next c)

/-- The characters of a text at the top level, from where a scan stands. -/
def seen (s : Scan) : Text → Text
  | [] => []
  | c :: rest => if s.sees c then c :: seen (s.next c) rest else seen (s.next c) rest

theorem mem_seen_cons {s : Scan} {c : CodePoint} (t : Text) (h : s.sees c = true) :
    c ∈ s.seen (c :: t) := by
  rw [seen, if_pos h]
  exact List.mem_cons_self

theorem mem_seen_of_next {s : Scan} {c d : CodePoint} {t : Text} (h : d ∈ (s.next c).seen t) :
    d ∈ s.seen (c :: t) := by
  rw [seen]
  split
  · exact List.mem_cons_of_mem c h
  · exact h

theorem seen_append (s : Scan) (t u : Text) : s.seen (t ++ u) = s.seen t ++ (s.run t).seen u := by
  induction t generalizing s with
  | nil => rfl
  | cons c rest ih =>
    simp only [List.cons_append, seen, ih]
    split <;> rfl

/-- Inside a literal the depth stays, and nothing is at the top level. -/
theorem run_literal {s : Scan} {quote : CodePoint} {t : Text} (hs : s.literal.quote = some quote)
    (ht : Guarded quote s.literal.previous t) : (s.run t).depth = s.depth ∧ s.seen t = [] := by
  -- The next state is inside the same literal again, so the hypothesis for the rest applies to it.
  induction t generalizing s with
  | nil => exact ⟨rfl, rfl⟩
  | cons c rest ih =>
    have hplain : s.literal.plain c = false := by simp [LiteralScan.plain, hs]
    have hnext : (s.next c).literal.quote = some quote := LiteralScan.quote_next_guarded hs ht.1
    obtain ⟨hdepth, hseen⟩ := ih hnext ht.2
    constructor
    · show ((s.next c).run rest).depth = s.depth
      rw [hdepth]
      simp [next, hplain]
    · simp only [seen, sees, hplain, Bool.false_and, Bool.false_eq_true, if_false]
      exact hseen

end Scan

namespace BraceScan

theorem run?_append (s : BraceScan) (t u : Text) :
    s.run? (t ++ u) = (s.run? t).bind fun s' => s'.run? u := by
  -- A scan that fails in the first text fails in both, so only the state that goes on is left.
  induction t generalizing s with
  | nil => rfl
  | cons c rest ih =>
    simp only [List.cons_append, run?]
    cases s.next? c with
    | none => rfl
    | some s' => exact ih s'

/-- Inside a literal the depth stays. -/
theorem run?_literal {s : BraceScan} {quote : CodePoint} {t : Text}
    (hs : s.literal.quote = some quote) (ht : Guarded quote s.literal.previous t) :
    s.run? t = some ⟨s.literal.run t, s.depth⟩ := by
  induction t generalizing s with
  | nil => rfl
  | cons c rest ih =>
    have hplain : s.literal.plain c = false := by simp [LiteralScan.plain, hs]
    have hnext : s.next? c = some ⟨s.literal.next c, s.depth⟩ := by simp [next?, hplain]
    rw [run?, hnext, Option.bind_some, ih (LiteralScan.quote_next_guarded hs ht.1) ht.2]
    rfl

end BraceScan

/-! ## Single characters -/

section Characters

variable {c : CodePoint}

theorem isCalm_iff : isCalm c = true ↔
    isQuote c = false ∧ isOpener c = false ∧ isCloser c = false := by
  simp [isCalm, and_assoc]

theorem Scan.next_calm {s : Scan} (hs : s.literal.quote = none) (hc : isCalm c = true) :
    s.next c = ⟨⟨none, some c⟩, s.depth⟩ := by
  obtain ⟨hquote, hopener, hcloser⟩ := isCalm_iff.1 hc
  simp [next, LiteralScan.next, LiteralScan.plain, closes, hs, hquote, hopener, hcloser]

theorem Scan.sees_calm {s : Scan} (hs : s.literal.quote = none) (hc : isCalm c = true) :
    s.sees c = (s.depth == 0) := by
  obtain ⟨hquote, hopener, hcloser⟩ := isCalm_iff.1 hc
  simp [sees, LiteralScan.plain, hs, hquote, hopener, hcloser]

/-- Whether the character is neither a quote nor a brace. -/
def isUnbraced (c : CodePoint) : Bool := !isQuote c && c != '\x7b' && c != '\x7d'

theorem isUnbraced_of_isCalm (hc : isCalm c = true) : isUnbraced c = true := by
  have hopen : c ≠ '\x7b' := Text.ne_of_class hc (by decide)
  have hclose : c ≠ '\x7d' := Text.ne_of_class hc (by decide)
  simp [isUnbraced, (isCalm_iff.1 hc).1, hopen, hclose]

/-- Only braces change the depth of the scan of braces. -/
theorem BraceScan.next?_unbraced {b : BraceScan} (hb : b.literal.quote = none)
    (hc : isUnbraced c = true) : b.next? c = some ⟨⟨none, some c⟩, b.depth⟩ := by
  simp only [isUnbraced, Bool.and_eq_true, Bool.not_eq_true', bne_iff_ne, ne_eq] at hc
  simp [next?, LiteralScan.next, hb, hc]

end Characters

section Brackets

variable {o c : CodePoint} {s : Scan}

theorem Scan.next_opener (h : Brackets o c) (hs : s.literal.quote = none) :
    s.next o = ⟨⟨none, some o⟩, s.depth + 1⟩ ∧ s.sees o = false := by
  cases h <;>
    simp [next, sees, LiteralScan.next, LiteralScan.plain, hs, isQuote, isOpener]

/-- A closing bracket closes a level, unless it ends an arrow. -/
theorem Scan.next_closer (h : Brackets o c) (hs : s.literal.quote = none)
    (harrow : ¬ (c = .char '>' ∧ s.literal.previous = some (.char '='))) :
    s.next c = ⟨⟨none, some c⟩, s.depth - 1⟩ ∧ s.sees c = false := by
  -- Only `>` has a second reading; for the other three the arrow case is excluded by the character.
  cases h <;>
    simp_all [next, sees, closes, LiteralScan.next, LiteralScan.plain, isQuote, isOpener, isCloser]

end Brackets

/-! ## Balanced texts -/

/-- A text whose literals and brackets are closed, and whose characters at the top level are all of
a class. -/
structure Balanced (p : CodePoint → Bool) (t : Text) : Prop where
  /-- No character in front can make an arrow of it. -/
  head : t.head? ≠ some (.char '>')
  closed : ∀ s : Scan, s.literal.quote = none →
    (s.run t).literal.quote = none ∧ (s.run t).depth = s.depth
  hidden : ∀ s : Scan, s.literal.quote = none → 0 < s.depth → s.seen t = []
  shown : ∀ s : Scan, s.literal.quote = none → ∀ c ∈ s.seen t, p c = true
  braces : ∀ b : BraceScan, b.literal.quote = none →
    ∃ previous, b.run? t = some ⟨⟨none, previous⟩, b.depth⟩

namespace Balanced

variable {p q : CodePoint → Bool} {t u : Text}

theorem mono (h : Balanced p t) (hpq : ∀ c, p c = true → q c = true) : Balanced q t where
  head := h.head
  closed := h.closed
  hidden := h.hidden
  shown := fun s hs c hc => hpq c (h.shown s hs c hc)
  braces := h.braces

theorem nil : Balanced p [] where
  head := by simp
  closed := fun s hs => ⟨hs, rfl⟩
  hidden := fun _ _ _ => rfl
  shown := fun _ _ c hc => absurd hc List.not_mem_nil
  braces := by
    rintro ⟨⟨quote, previous⟩, depth⟩ hb
    obtain rfl : quote = none := hb
    exact ⟨previous, rfl⟩

/-- Two balanced texts, one after the other. -/
theorem append (ht : Balanced p t) (hu : Balanced p u) : Balanced p (t ++ u) where
  head := by
    cases t with
    | nil => exact hu.head
    | cons c rest => exact ht.head
  -- The first text hands on a state that is open nowhere and as deep as before, which is all that
  -- each field asks of the state in front of the second.
  closed := by
    intro s hs
    obtain ⟨hquote, hdepth⟩ := ht.closed s hs
    rw [Scan.run_append, ← hdepth]
    exact hu.closed _ hquote
  hidden := by
    intro s hs hinside
    obtain ⟨hquote, hdepth⟩ := ht.closed s hs
    rw [Scan.seen_append, ht.hidden s hs hinside, hu.hidden _ hquote (hdepth ▸ hinside)]
    rfl
  shown := by
    intro s hs c hc
    rw [Scan.seen_append, List.mem_append] at hc
    rcases hc with hc | hc
    · exact ht.shown s hs c hc
    · exact hu.shown _ (ht.closed s hs).1 c hc
  braces := by
    intro b hb
    obtain ⟨previous, hrun⟩ := ht.braces b hb
    rw [BraceScan.run?_append, hrun, Option.bind_some]
    exact hu.braces _ rfl

/-- A single character that is neither a quote nor a bracket. -/
theorem calm {c : CodePoint} (hc : isCalm c = true) (hp : p c = true) : Balanced p [c] where
  head := by
    intro h
    obtain rfl : c = .char '>' := by simpa using h
    exact absurd hc (by decide)
  closed := by
    intro s hs
    show (s.next c).literal.quote = none ∧ (s.next c).depth = s.depth
    rw [Scan.next_calm hs hc]
    exact ⟨rfl, rfl⟩
  hidden := by
    intro s hs hinside
    -- Inside brackets the depth is not zero, and a calm character is seen at depth zero only.
    have hsees : s.sees c = false := by
      rw [Scan.sees_calm hs hc, beq_eq_false_iff_ne]
      omega
    simp [Scan.seen, hsees]
  shown := by
    intro s hs d hd
    have hmem : d = c := by
      simp only [Scan.seen] at hd
      split at hd
      · simpa using hd
      · exact absurd hd List.not_mem_nil
    rw [hmem, hp]
  braces := by
    intro b hb
    refine ⟨some c, ?_⟩
    rw [BraceScan.run?, BraceScan.next?_unbraced hb (isUnbraced_of_isCalm hc)]
    rfl

/-- A text without quotes and brackets. -/
theorem of_calm (h : ∀ c ∈ t, isCalm c = true ∧ p c = true) : Balanced p t := by
  induction t with
  | nil => exact nil
  | cons c rest ih =>
    have hhead := h c List.mem_cons_self
    exact append (calm hhead.1 hhead.2) (ih fun d hd => h d (List.mem_cons_of_mem c hd))

/-- The arrow of a function type, whose `>` is no bracket. -/
theorem arrow (hp : p (.char '=') = true) : Balanced p [.char '=', .char '>'] where
  head := by simp
  -- Both characters by computation: behind `=` the scan does not take `>` for a closing bracket.
  closed := by
    intro s hs
    simp [Scan.run, Scan.next, Scan.closes, LiteralScan.next, LiteralScan.plain, hs, isQuote,
      isOpener, isCloser]
  hidden := by
    intro s hs hinside
    have hdepth : s.depth ≠ 0 := by omega
    simp [Scan.seen, Scan.sees, Scan.next, LiteralScan.next, LiteralScan.plain, hs, hdepth, isQuote,
      isOpener, isCloser]
  shown := by
    intro s hs c hc
    have hmem : c = .char '=' := by
      revert hc
      simp only [Scan.seen, Scan.sees, Scan.next, LiteralScan.next, LiteralScan.plain, hs, isQuote,
        isOpener, isCloser]
      split <;> simp
    rw [hmem, hp]
  braces := by
    intro b hb
    exact ⟨some (.char '>'), by
      simp [BraceScan.run?, BraceScan.next?, LiteralScan.next, hb, isQuote]⟩

/-- A scan that passes a text and, whatever the depth, sees nothing of it at the top level. -/
theorem of_seen_eq_nil (head : t.head? ≠ some (.char '>'))
    (closed : ∀ s : Scan, s.literal.quote = none →
      (s.run t).literal.quote = none ∧ (s.run t).depth = s.depth ∧ s.seen t = [])
    (braces : ∀ b : BraceScan, b.literal.quote = none →
      ∃ previous, b.run? t = some ⟨⟨none, previous⟩, b.depth⟩) : Balanced p t where
  head := head
  closed := fun s hs => ⟨(closed s hs).1, (closed s hs).2.1⟩
  hidden := fun s hs _ => (closed s hs).2.2
  shown := by
    intro s hs c hc
    rw [(closed s hs).2.2] at hc
    exact absurd hc List.not_mem_nil
  braces := braces

/-- A balanced text between brackets, unless its end makes an arrow of the closing one. -/
theorem bracketed {o c : CodePoint} (hbrackets : Brackets o c) (ht : Balanced q t)
    (harrow : ¬ (c = .char '>' ∧ t.getLast? = some (.char '='))) :
    Balanced p (o :: t ++ [c]) := by
  -- Seen from the top level, the opening bracket hides the text and the closing one ends that:
  -- nothing is shown at any depth, and `shown` is true of nothing.
  refine of_seen_eq_nil ?_ ?_ ?_
  · cases hbrackets <;> simp
  · intro s hs
    obtain ⟨hopen, hsees⟩ := Scan.next_opener hbrackets hs
    have hinside : (s.next o).literal.quote = none := by rw [hopen]
    obtain ⟨hquote, hdepth⟩ := ht.closed _ hinside
    -- What stands before the closing bracket is the end of the text, or the opening bracket.
    have hnoarrow : ¬ (c = .char '>' ∧
        ((s.next o).run t).literal.previous = some (.char '=')) := by
      rintro ⟨hc, hprevious⟩
      rw [Scan.literal_run, LiteralScan.previous_run, hopen] at hprevious
      cases hlast : t.getLast? with
      | none =>
        rw [hlast] at hprevious
        cases hbrackets <;> simp at hprevious
      | some d =>
        rw [hlast] at hprevious
        exact harrow ⟨hc, by simpa [hlast] using hprevious⟩
    obtain ⟨hclose, hsees'⟩ := Scan.next_closer hbrackets hquote hnoarrow
    have hrun : s.run (o :: t ++ [c]) = ((s.next o).run t).next c := by
      rw [List.cons_append]
      exact Scan.run_append (s.next o) t [c]
    refine ⟨?_, ?_, ?_⟩
    · rw [hrun, hclose]
    · rw [hrun, hclose, hdepth, hopen]
      rfl
    · -- Everything between the brackets is one level deeper.
      have hdeeper : 0 < (s.next o).depth := by
        rw [hopen]
        exact Nat.succ_pos _
      rw [List.cons_append, Scan.seen, hsees, if_neg Bool.false_ne_true, Scan.seen_append,
        ht.hidden _ hinside hdeeper, Scan.seen, hsees', if_neg Bool.false_ne_true]
      rfl
  · intro b hb
    -- This scan passes over the other brackets.
    have hother (ho : isUnbraced o = true) (hc : isUnbraced c = true) :
        ∃ previous, b.run? (o :: t ++ [c]) = some ⟨⟨none, previous⟩, b.depth⟩ := by
      obtain ⟨previous, hrun⟩ := ht.braces ⟨⟨none, some o⟩, b.depth⟩ rfl
      refine ⟨some c, ?_⟩
      rw [List.cons_append, BraceScan.run?, BraceScan.next?_unbraced hb ho, Option.bind_some,
        BraceScan.run?_append, hrun, Option.bind_some, BraceScan.run?,
        BraceScan.next?_unbraced rfl hc]
      rfl
    cases hbrackets with
    | brace =>
      -- Braces are the one pair that this scan counts: the text is passed one level deeper.
      obtain ⟨previous, hrun⟩ := ht.braces ⟨⟨none, some (.char '\x7b')⟩, b.depth + 1⟩ rfl
      refine ⟨some (.char '\x7d'), ?_⟩
      simp [BraceScan.next?, LiteralScan.next, LiteralScan.plain, hb, isQuote,
        BraceScan.run?_append, hrun, BraceScan.run?]
    | square => exact hother (by decide) (by decide)
    | round => exact hother (by decide) (by decide)
    | angle => exact hother (by decide) (by decide)

/-- A literal: a text with a backslash in front of each of the quotes, but with none at its end,
between two of the quotes. -/
theorem quoted {quote : CodePoint} (hquote : isQuote quote = true)
    (ht : Guarded quote (some quote) t) (hlast : t.getLast? ≠ some (.char '\\')) :
    Balanced p (quote :: t ++ [quote]) := by
  -- Both scans hand each character to the scan of literals, and quotes change nothing else in them.
  have hopens : ∀ l : LiteralScan, l.quote = none → (l.next quote).quote = some quote :=
    fun l hl => LiteralScan.quote_next_open hl hquote
  have hcloses : ∀ l : LiteralScan, l.plain quote = false := by
    intro l
    simp [LiteralScan.plain, hquote]
  refine of_seen_eq_nil ?_ ?_ ?_
  · intro h
    obtain rfl : quote = .char '>' := by simpa using h
    exact absurd hquote (by decide)
  · -- The quotes are not plain, so the depth stays through all three parts, and the literal hides
    -- the text.
    intro s hs
    have hinside : (s.next quote).literal.quote = some quote := hopens s.literal hs
    obtain ⟨hdepth, hseen⟩ := Scan.run_literal hinside ht
    have hkeeps : ∀ s' : Scan, (s'.next quote).depth = s'.depth := by
      intro s'
      simp [Scan.next, hcloses]
    have hrun : s.run (quote :: t ++ [quote]) = ((s.next quote).run t).next quote := by
      rw [List.cons_append]
      exact Scan.run_append (s.next quote) t [quote]
    refine ⟨?_, ?_, ?_⟩
    · rw [Scan.literal_run]
      exact LiteralScan.quote_run_quoted hs hquote ht hlast
    · rw [hrun, hkeeps, hdepth, hkeeps]
    · simp [Scan.seen, Scan.sees, hcloses, Scan.seen_append, hseen]
  · intro b hb
    have hnext : ∀ b' : BraceScan, b'.next? quote = some ⟨b'.literal.next quote, b'.depth⟩ := by
      intro b'
      simp [BraceScan.next?, hcloses]
    have hrun : b.run? (quote :: t ++ [quote]) =
        some ⟨b.literal.run (quote :: t ++ [quote]), b.depth⟩ := by
      rw [List.cons_append, BraceScan.run?, hnext, Option.bind_some, BraceScan.run?_append,
        BraceScan.run?_literal (hopens b.literal hb) ht, Option.bind_some, BraceScan.run?, hnext]
      show some (⟨((b.literal.next quote).run t).next quote, b.depth⟩ : BraceScan) =
        some ⟨(b.literal.next quote).run (t ++ [quote]), b.depth⟩
      rw [LiteralScan.run_append]
      rfl
    -- The literal is closed again by the fact about the scan of literals; only the character looked
    -- back at is left to be named.
    have hend := LiteralScan.quote_run_quoted hb hquote ht hlast
    refine ⟨(b.literal.run (quote :: t ++ [quote])).previous, ?_⟩
    rw [hrun, ← hend]

/-! ## What the scans of whole texts say -/

/-- Braces match in a balanced text. -/
theorem bracesMatch (ht : Balanced p t) : bracesMatch t = true := by
  obtain ⟨previous, hrun⟩ := ht.braces .start rfl
  rw [RpcContract.bracesMatch, hrun]
  rfl

/-- Braces do not match in a text with a closing brace behind a balanced text. -/
theorem bracesMatch_closed (ht : Balanced p t) (u : Text) :
    RpcContract.bracesMatch (t ++ .char '\x7d' :: u) = false := by
  obtain ⟨previous, hrun⟩ := ht.braces .start rfl
  have hnext : BraceScan.next? ⟨⟨none, previous⟩, BraceScan.start.depth⟩ (.char '\x7d') = none := by
    simp [BraceScan.next?, BraceScan.start, LiteralScan.plain, isQuote]
  simp [RpcContract.bracesMatch, BraceScan.run?_append, hrun, BraceScan.run?, hnext]

/-- Braces do not match in a text with a literal behind a balanced text that is not closed. -/
theorem bracesMatch_open {quote : CodePoint} {inside : Text} (ht : Balanced p t)
    (hquote : isQuote quote = true) (hinside : Guarded quote (some quote) inside) :
    RpcContract.bracesMatch (t ++ quote :: inside) = false := by
  obtain ⟨previous, hrun⟩ := ht.braces .start rfl
  -- The state behind the quote that opens the literal; it stays open to the end, and a scan that
  -- ends inside a literal does not match.
  let opened : BraceScan := ⟨⟨some quote, some quote⟩, 0⟩
  have hnext : BraceScan.next? ⟨⟨none, previous⟩, BraceScan.start.depth⟩ quote = some opened := by
    simp [BraceScan.next?, BraceScan.start, LiteralScan.plain, LiteralScan.next, hquote, opened]
  have hrest : opened.run? inside = some ⟨opened.literal.run inside, 0⟩ :=
    BraceScan.run?_literal rfl hinside
  have hquoted : (opened.literal.run inside).quote = some quote :=
    LiteralScan.quote_run rfl hinside
  simp [RpcContract.bracesMatch, BraceScan.run?_append, hrun, BraceScan.run?, hnext, hrest, hquoted]

end Balanced

end RpcContract
