import Mathlib.Data.List.Infix
import RpcContract.Proofs.Schema.Joining

/-!
# Texts that are object literals as a whole

A type text is compiled to an object exactly when, trimmed, it is one object literal from its first
character to its last.  That is said here by counting braces: the depth of a text is the number of
its opening braces outside string literals minus that of its closing ones, and a text is whole when
it opens with a brace and its depth comes back to zero at the end and not before.  A string literal
goes from a quote to the next quote of its kind that has no backslash in front of it.
-/

namespace RpcContract

/-! ## Counting braces -/

namespace LiteralScan

/-- The characters of a text that neither stand in a string literal nor delimit one. -/
def outside (s : LiteralScan) : Text → Text
  | [] => []
  | c :: rest => if s.plain c then c :: outside (s.next c) rest else outside (s.next c) rest

/-- The opening braces outside string literals minus the closing ones. -/
def braceDepth (s : LiteralScan) (t : Text) : Int :=
  (s.outside t).count (.char '\x7b') - (s.outside t).count (.char '\x7d')

end LiteralScan

/-- The depth of braces that a text opens and does not close. -/
def braceDepth (t : Text) : Int := LiteralScan.start.braceDepth t

/-- The text opens with a brace, and the brace that brings the depth back to zero for the first time
is its last character. -/
structure IsWhole (t : Text) : Prop where
  opens : t.head? = some (.char '\x7b')
  /-- Before the end the depth has not come back. -/
  inside : ∀ u, u <+: t → u ≠ [] → u ≠ t → braceDepth u ≠ 0
  back : braceDepth t = 0
  /-- No string literal is open at the end. -/
  closed : (LiteralScan.start.run t).quote = none

instance (t : Text) : Decidable (IsWhole t) :=
  decidable_of_iff
    (t.head? = some (.char '\x7b') ∧ (∀ u ∈ t.inits, u ≠ [] → u ≠ t → braceDepth u ≠ 0) ∧
      braceDepth t = 0 ∧ (LiteralScan.start.run t).quote = none)
    ⟨fun ⟨opens, inside, back, closed⟩ =>
      ⟨opens, fun u hu => inside u ((List.mem_inits u t).2 hu), back, closed⟩,
    fun h => ⟨h.opens, fun u hu => h.inside u ((List.mem_inits u t).1 hu), h.back, h.closed⟩⟩

namespace LiteralScan

variable {s : LiteralScan} {t u : Text} {c : CodePoint}

theorem outside_append (s : LiteralScan) (t u : Text) :
    s.outside (t ++ u) = s.outside t ++ (s.run t).outside u := by
  induction t generalizing s with
  | nil => rfl
  | cons c rest ih =>
    -- Both sides ask the same of each character, and the state moves on.
    rw [List.cons_append, outside, outside, ih]
    split <;> rfl

@[simp] theorem braceDepth_nil (s : LiteralScan) : s.braceDepth [] = 0 := rfl

theorem braceDepth_append (s : LiteralScan) (t u : Text) :
    s.braceDepth (t ++ u) = s.braceDepth t + (s.run t).braceDepth u := by
  simp only [braceDepth, outside_append, List.count_append]
  omega

theorem braceDepth_cons (s : LiteralScan) (c : CodePoint) (t : Text) :
    s.braceDepth (c :: t) = s.braceDepth [c] + (s.next c).braceDepth t :=
  braceDepth_append s [c] t

/-- A single character counts as a brace outside string literals alone. -/
theorem braceDepth_singleton (s : LiteralScan) (c : CodePoint) :
    s.braceDepth [c] =
      if s.plain c && c == .char '\x7b' then 1
      else if s.plain c && c == .char '\x7d' then -1
      else 0 := by
  -- Of one character at most one brace is counted, and none inside a literal.
  unfold braceDepth outside outside
  cases hplain : s.plain c with
  | false => simp
  | true =>
    by_cases hopen : c = .char '\x7b'
    · simp [hopen]
    · by_cases hclose : c = .char '\x7d'
      · simp [hclose]
      · simp [hopen, hclose]

/-- One character closes one level at most. -/
theorem le_braceDepth_singleton (s : LiteralScan) (c : CodePoint) : -1 ≤ s.braceDepth [c] := by
  rw [braceDepth_singleton]
  split
  · omega
  · split <;> omega

/-- Only a closing brace outside string literals closes a level. -/
theorem of_braceDepth_singleton_neg (h : s.braceDepth [c] < 0) :
    s.quote = none ∧ c = .char '\x7d' := by
  rw [braceDepth_singleton] at h
  split at h
  · omega
  · split at h
    · rename_i hclose
      simp only [plain, Bool.and_eq_true, Option.isNone_iff_eq_none, beq_iff_eq] at hclose
      exact ⟨hclose.1.1, hclose.2⟩
    · omega

/-- Outside string literals it does not matter what stood before. -/
theorem next_of_quote_eq_none (hs : s.quote = none) (c : CodePoint) : s.next c = start.next c := by
  simp [next, hs, start]

theorem braceDepth_of_quote_eq_none (hs : s.quote = none) (t : Text) :
    s.braceDepth t = start.braceDepth t := by
  cases t with
  | nil => rfl
  | cons c rest =>
    -- The first character is counted alike, and behind it the two states are the same.
    have hplain : s.plain c = start.plain c := by simp [plain, hs, start]
    rw [braceDepth_cons, braceDepth_cons start, next_of_quote_eq_none hs, braceDepth_singleton,
      braceDepth_singleton, hplain]

theorem quote_run_of_quote_eq_none (hs : s.quote = none) (t : Text) :
    (s.run t).quote = (start.run t).quote := by
  cases t with
  | nil => exact hs
  | cons c rest =>
    show ((s.next c).run rest).quote = ((start.next c).run rest).quote
    rw [next_of_quote_eq_none hs]

end LiteralScan

/-! ## The scan of braces counts them -/

namespace BraceScan

/-- A step adds what the character counts, and there is none where that would lead below zero. -/
theorem next?_eq_some_iff {b b' : BraceScan} {c : CodePoint} :
    b.next? c = some b' ↔
      b'.literal = b.literal.next c ∧ (b'.depth : Int) = b.depth + b.literal.braceDepth [c] := by
  obtain ⟨literal', depth'⟩ := b'
  -- The three steps that there are add a weight, which is what differs between them.
  have hstep {n : Nat} {w : Int} (hn : (n : Int) = b.depth + w) :
      some (⟨b.literal.next c, n⟩ : BraceScan) = some ⟨literal', depth'⟩ ↔
        literal' = b.literal.next c ∧ (depth' : Int) = b.depth + w := by
    simp only [Option.some.injEq, mk.injEq]
    constructor
    · rintro ⟨rfl, rfl⟩
      exact ⟨rfl, hn⟩
    · rintro ⟨rfl, hdepth⟩
      exact ⟨rfl, by omega⟩
  rw [LiteralScan.braceDepth_singleton, next?]
  split
  · exact hstep (by omega)
  · split
    · split
      · -- A closing brace at depth zero is the one case without a step; there the sum is no natural
        -- number.
        rename_i hzero
        simp only [reduceCtorEq, false_iff, not_and]
        intro _
        omega
      · exact hstep (by omega)
    · exact hstep (by omega)

/-- A run counts the braces of a text, and there is one where no prefix leads below zero. -/
theorem run?_eq_some_iff {b b' : BraceScan} {t : Text} :
    b.run? t = some b' ↔
      b'.literal = b.literal.run t ∧ (b'.depth : Int) = b.depth + b.literal.braceDepth t ∧
        ∀ u, u <+: t → 0 ≤ b.depth + b.literal.braceDepth u := by
  -- Over the text, for every state: what holds behind the first character is counted from there.
  induction t generalizing b with
  | nil =>
    obtain ⟨literal', depth'⟩ := b'
    simp only [run?, List.prefix_nil, forall_eq, LiteralScan.braceDepth_nil]
    constructor
    · intro h
      obtain rfl := Option.some.inj h
      exact ⟨rfl, by simp, by omega⟩
    · rintro ⟨rfl, hdepth, _⟩
      obtain rfl : depth' = b.depth := by omega
      rfl
  | cons c rest ih =>
    rw [run?, Option.bind_eq_some_iff]
    constructor
    · rintro ⟨b₁, hstep, hrun⟩
      obtain ⟨hliteral, hdepth⟩ := next?_eq_some_iff.1 hstep
      obtain ⟨hliteral', hdepth', hprefix⟩ := ih.1 hrun
      rw [hliteral] at hliteral' hdepth' hprefix
      refine ⟨hliteral', ?_, ?_⟩
      · rw [LiteralScan.braceDepth_cons]
        omega
      · -- The empty prefix counts nothing; any other begins with the first character.
        intro u hu
        rcases List.prefix_cons_iff.1 hu with rfl | ⟨v, rfl, hv⟩
        · rw [LiteralScan.braceDepth_nil]
          omega
        · have hlater := hprefix v hv
          rw [LiteralScan.braceDepth_cons]
          omega
    · rintro ⟨hliteral, hdepth, hprefix⟩
      -- The first character is a prefix, so there is a step over it.
      have hfirst := hprefix [c] (List.prefix_append [c] rest)
      obtain ⟨n, hn⟩ := Int.eq_ofNat_of_zero_le hfirst
      refine ⟨⟨b.literal.next c, n⟩, next?_eq_some_iff.2 ⟨rfl, hn.symm⟩, ih.2 ⟨hliteral, ?_, ?_⟩⟩
      · rw [LiteralScan.braceDepth_cons] at hdepth
        show (b'.depth : Int) = n + (b.literal.next c).braceDepth rest
        omega
      · intro u hu
        have hlater := hprefix (c :: u) (List.cons_prefix_cons.2 ⟨rfl, hu⟩)
        rw [LiteralScan.braceDepth_cons] at hlater
        show 0 ≤ (n : Int) + (b.literal.next c).braceDepth u
        omega

end BraceScan

/-- Braces match when no literal is open at the end, nothing is left open and no prefix closes more
than it opens. -/
theorem bracesMatch_iff_braceDepth {t : Text} : bracesMatch t = true ↔
    (LiteralScan.start.run t).quote = none ∧ braceDepth t = 0 ∧ ∀ u, u <+: t → 0 ≤ braceDepth u := by
  have hstart (u : Text) :
      (BraceScan.start.depth : Int) + BraceScan.start.literal.braceDepth u = braceDepth u := by
    rw [braceDepth]
    exact Int.zero_add _
  rw [bracesMatch_iff]
  -- The two directions read the run from the start, where the depth is zero.
  constructor
  · rintro ⟨previous, hrun⟩
    obtain ⟨hliteral, hdepth, hprefix⟩ := BraceScan.run?_eq_some_iff.1 hrun
    rw [hstart] at hdepth
    refine ⟨(congrArg LiteralScan.quote hliteral).symm, hdepth.symm, ?_⟩
    intro u hu
    rw [← hstart]
    exact hprefix u hu
  · rintro ⟨hquote, hdepth, hprefix⟩
    refine ⟨(LiteralScan.start.run t).previous, BraceScan.run?_eq_some_iff.2 ⟨?_, ?_, ?_⟩⟩
    · rw [← hquote]
      rfl
    · rw [hstart, hdepth]
      rfl
    · intro u hu
      rw [hstart]
      exact hprefix u hu

/-! ## One literal from end to end -/

section Whole

variable {t u body : Text}

/-- Behind an opening brace the depth is one more. -/
theorem braceDepth_opened (t : Text) : braceDepth (.char '\x7b' :: t) = 1 + braceDepth t := by
  have hopen : LiteralScan.start.braceDepth [.char '\x7b'] = 1 := rfl
  rw [braceDepth, LiteralScan.braceDepth_cons, hopen, LiteralScan.braceDepth_of_quote_eq_none rfl]
  rfl

theorem quote_run_opened (t : Text) :
    (LiteralScan.start.run (.char '\x7b' :: t)).quote = (LiteralScan.start.run t).quote :=
  LiteralScan.quote_run_of_quote_eq_none (s := LiteralScan.start.next (.char '\x7b')) rfl t

/-- A depth that never comes back to zero stays above it. -/
theorem braceDepth_pos (h : ∀ v, v <+: t → braceDepth (.char '\x7b' :: v) ≠ 0) :
    0 < braceDepth (.char '\x7b' :: t) := by
  -- By the last character: the depth falls by one at most, so it cannot pass zero by.
  induction t using List.reverseRecOn with
  | nil => decide
  | append_singleton t c ih =>
    have hbefore := ih fun v hv => h v (hv.trans (List.prefix_append t [c]))
    have hne := h (t ++ [c]) List.prefix_rfl
    have hstep := LiteralScan.le_braceDepth_singleton (LiteralScan.start.run (.char '\x7b' :: t)) c
    have hsum : braceDepth (.char '\x7b' :: (t ++ [c])) = braceDepth (.char '\x7b' :: t) +
        (LiteralScan.start.run (.char '\x7b' :: t)).braceDepth [c] :=
      LiteralScan.braceDepth_append _ (.char '\x7b' :: t) [c]
    omega

/-- Between its braces a whole text has a body whose braces match. -/
theorem IsWhole.exists_body (h : IsWhole t) : ∃ body, t = literalText body ∧ bracesMatch body = true := by
  cases t with
  | nil => exact absurd h.opens (by simp)
  | cons first rest =>
    obtain rfl : first = .char '\x7b' := Option.some.inj h.opens
    rcases List.eq_nil_or_concat rest with rfl | ⟨body, c, rfl⟩
    · exact absurd h.back (by decide)
    · rw [List.concat_eq_append] at h ⊢
      -- A prefix of the body is not all of the text, since it lacks the last character.
      have hinside : ∀ v, v <+: body → braceDepth (.char '\x7b' :: v) ≠ 0 := by
        intro v hv
        refine h.inside _ ?_ (List.cons_ne_nil _ _) ?_
        · exact List.cons_prefix_cons.2 ⟨rfl, hv.trans (List.prefix_append body [c])⟩
        · intro heq
          have hlength := hv.length_le
          have hsame := congrArg List.length (List.cons.inj heq).2
          rw [List.length_append, List.length_singleton] at hsame
          omega
      -- The last character brings the depth from one to zero.
      have hpos := braceDepth_pos hinside
      have hone := braceDepth_opened body
      have hback := h.back
      have hsum : braceDepth (.char '\x7b' :: (body ++ [c])) = braceDepth (.char '\x7b' :: body) +
          (LiteralScan.start.run (.char '\x7b' :: body)).braceDepth [c] :=
        LiteralScan.braceDepth_append _ (.char '\x7b' :: body) [c]
      obtain ⟨hquote, rfl⟩ := LiteralScan.of_braceDepth_singleton_neg
        (s := LiteralScan.start.run (.char '\x7b' :: body)) (c := c) (by omega)
      refine ⟨body, rfl, bracesMatch_iff_braceDepth.2 ⟨?_, ?_, ?_⟩⟩
      · rw [← quote_run_opened]
        exact hquote
      · have hlast := LiteralScan.le_braceDepth_singleton
          (LiteralScan.start.run (.char '\x7b' :: body)) (.char '\x7d')
        omega
      · -- The depth inside is above zero, and one of it is due to the brace at the front.
        intro v hv
        have hprefix := braceDepth_pos fun w hw => hinside w (hw.trans hv)
        rw [braceDepth_opened] at hprefix
        omega

/-- A body whose braces match makes a whole text between braces. -/
theorem isWhole_literalText (h : bracesMatch body = true) : IsWhole (literalText body) := by
  obtain ⟨hquote, hdepth, hprefix⟩ := bracesMatch_iff_braceDepth.1 h
  have hbody : (LiteralScan.start.run (.char '\x7b' :: body)).quote = none := by
    rw [quote_run_opened]
    exact hquote
  have hclose : (LiteralScan.start.run (.char '\x7b' :: body)).braceDepth [.char '\x7d'] = -1 := by
    rw [LiteralScan.braceDepth_of_quote_eq_none hbody]
    rfl
  constructor
  · rfl
  · -- Behind the brace at the front the depth is one and never falls below that within the body.
    intro u hu hne hother
    cases u with
    | nil => exact absurd rfl hne
    | cons first v =>
      obtain ⟨rfl, hv⟩ := List.cons_prefix_cons.1 hu
      -- A prefix that is not all of the text ends within the body.
      have hwithin : v <+: body := by
        replace hv : v <+: body ++ [.char '\x7d'] := hv
        rcases List.prefix_concat_iff.1 hv with rfl | hwithin
        · exact absurd rfl hother
        · exact hwithin
      have hnonneg := hprefix v hwithin
      rw [braceDepth_opened]
      omega
  · have hsum : braceDepth (literalText body) = braceDepth (.char '\x7b' :: body) +
        (LiteralScan.start.run (.char '\x7b' :: body)).braceDepth [.char '\x7d'] :=
      LiteralScan.braceDepth_append _ (.char '\x7b' :: body) [.char '\x7d']
    rw [hsum, hclose, braceDepth_opened, hdepth]
    rfl
  · have hrun : LiteralScan.start.run (literalText body) =
        (LiteralScan.start.run (.char '\x7b' :: body)).next (.char '\x7d') :=
      LiteralScan.run_append _ (.char '\x7b' :: body) [.char '\x7d']
    rw [hrun, LiteralScan.next_of_quote_eq_none hbody]
    rfl

/-- A text is whole exactly when it is a body between braces that match in it. -/
theorem isWhole_iff : IsWhole t ↔ ∃ body, t = literalText body ∧ bracesMatch body = true := by
  constructor
  · exact IsWhole.exists_body
  · rintro ⟨body, rfl, hbraces⟩
    exact isWhole_literalText hbraces

/-- What is taken for the body of an object literal stands between the braces at its ends. -/
theorem literalBody?_eq_some_iff :
    literalBody? t = some body ↔ Text.trim t = literalText body ∧ bracesMatch body = true := by
  unfold literalBody?
  constructor
  · intro h
    -- Trimmed, the text begins with a brace, ends with one, and braces match in between.
    split at h
    · rename_i rest htrim
      split at h
      · rename_i hends
        obtain rfl := Option.some.inj h
        have hrest : rest.dropLast ++ [.char '\x7d'] = rest :=
          List.dropLast_append_getLast? _ hends.1
        refine ⟨?_, hends.2⟩
        rw [htrim, literalText, List.cons_append, hrest]
      · cases h
    · cases h
  · rintro ⟨htrim, hbraces⟩
    rw [htrim]
    simp [literalText, hbraces]

/-- A text has the body of an object literal exactly when, trimmed, it is whole. -/
theorem literalBody?_isSome_iff : (∃ body, literalBody? t = some body) ↔ IsWhole (Text.trim t) := by
  rw [isWhole_iff]
  exact exists_congr fun body => literalBody?_eq_some_iff

end Whole

namespace Schema

/-- **Whole object literals compile to objects, and nothing else does.**  A text is compiled to an
object exactly when, trimmed, it opens with a brace and the brace that brings the depth back to zero
for the first time is its last character; every other text is kept to the letter, the white space
around it included. -/
theorem compile_whole (t : Text) :
    ((∃ fields, compile t = .object .literal fields) ↔ IsWhole (Text.trim t)) ∧
      (compile t = .text t ↔ ¬ IsWhole (Text.trim t)) := by
  rw [← literalBody?_isSome_iff]
  cases hbody : literalBody? t with
  | none =>
    rw [compile_of_literalBody?_eq_none hbody]
    simp
  | some body =>
    rw [compile_of_literalBody?_eq_some hbody]
    simp

/-- A brace in a string literal does not count, and the first of two literals ends too early. -/
example : IsWhole "\x7ba: '\x7d'\x7d".text ∧ ¬ IsWhole "\x7ba\x7d & \x7b\x7d".text := by decide

end Schema

end RpcContract
