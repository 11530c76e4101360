import RpcContract.Proofs.Schema.Rescan

/-!
# Where a body is cut

Cutting a body into members drops the characters that it is cut at and nothing else.  Behind each of
these the scan of the body is where a scan starts, so a member scanned by itself shows what the scan
of the body shows inside it, at the same distances from its start; and the colon that a member is
split at is the first one that the body has inside the member at the top level.
-/

namespace RpcContract

/-! ## Characters with their places -/

/-- Characters with their places, each so much further on. -/
def movedBy (start : Nat) (seen : List (Nat × CodePoint)) : List (Nat × CodePoint) :=
  seen.map fun p => (start + p.1, p.2)

/-- The characters that stand from `start` on and before `stop`. -/
def within (start stop : Nat) (seen : List (Nat × CodePoint)) : List (Nat × CodePoint) :=
  seen.filter fun p => start ≤ p.1 && p.1 < stop

/-- The place of the first colon. -/
def firstColon? (seen : List (Nat × CodePoint)) : Option Nat :=
  (seen.find? fun p => p.2 == .char ':').map Prod.fst

section Places

variable {start stop : Nat} {seen : List (Nat × CodePoint)}

theorem movedBy_zero (seen : List (Nat × CodePoint)) : movedBy 0 seen = seen := by
  simp [movedBy]

theorem movedBy_movedBy (m n : Nat) (seen : List (Nat × CodePoint)) :
    movedBy m (movedBy n seen) = movedBy (m + n) seen := by
  simp [movedBy, Nat.add_assoc]

theorem within_eq_self (h : ∀ p ∈ seen, start ≤ p.1 ∧ p.1 < stop) :
    within start stop seen = seen := by
  apply List.filter_eq_self.2
  intro p hp
  simpa using h p hp

theorem within_eq_nil (h : ∀ p ∈ seen, p.1 < start ∨ stop ≤ p.1) : within start stop seen = [] := by
  apply List.filter_eq_nil_iff.2
  intro p hp hinside
  have hbounds : start ≤ p.1 ∧ p.1 < stop := by simpa using hinside
  have houtside := h p hp
  omega

theorem within_append (start stop : Nat) (seen more : List (Nat × CodePoint)) :
    within start stop (seen ++ more) = within start stop seen ++ within start stop more :=
  List.filter_append ..

theorem within_movedBy (n start stop : Nat) (seen : List (Nat × CodePoint)) :
    within (n + start) (n + stop) (movedBy n seen) = movedBy n (within start stop seen) := by
  simp [within, movedBy, List.filter_map, Function.comp_def]

end Places

/-! ## What a scan shows -/

namespace Scan

/-- Counting from further on moves every place. -/
theorem topLevelFrom_eq_movedBy (s : Scan) (offset : Nat) (t : Text) :
    s.topLevelFrom offset t = movedBy offset (s.topLevelFrom 0 t) := by
  -- For every state and every offset, since both have moved on behind the first character.
  induction t generalizing s offset with
  | nil => rfl
  | cons c rest ih =>
    -- Both sides are the rest moved by `offset + 1`, on the right in two moves.
    have hlater : (s.next c).topLevelFrom (offset + 1) rest =
        movedBy offset ((s.next c).topLevelFrom (0 + 1) rest) := by
      rw [ih (s.next c) (offset + 1), ih (s.next c) (0 + 1), movedBy_movedBy]
    rw [topLevelFrom, topLevelFrom, hlater]
    split <;> rfl

theorem topLevelFrom_append (s : Scan) (offset : Nat) (t u : Text) :
    s.topLevelFrom offset (t ++ u) =
      s.topLevelFrom offset t ++ (s.run t).topLevelFrom (offset + t.length) u := by
  induction t generalizing s offset with
  | nil => rfl
  | cons c rest ih =>
    have hlater : (s.next c).topLevelFrom (offset + 1) (rest ++ u) =
        (s.next c).topLevelFrom (offset + 1) rest ++
          (s.run (c :: rest)).topLevelFrom (offset + (c :: rest).length) u := by
      rw [ih, List.length_cons, Nat.add_right_comm, Nat.add_assoc]
      rfl
    rw [List.cons_append, topLevelFrom, topLevelFrom, hlater]
    split <;> rfl

/-- What a scan shows of a text stands inside it. -/
theorem lt_of_mem_topLevel {t : Text} {p : Nat × CodePoint} (h : p ∈ topLevel t) :
    p.1 < t.length := by
  -- The bound counts from the offset, so it is proved for every one.
  have hbound (s : Scan) (offset : Nat) (u : Text) (h : p ∈ s.topLevelFrom offset u) :
      p.1 < offset + u.length := by
    induction u generalizing s offset with
    | nil => exact absurd h List.not_mem_nil
    | cons c rest ih =>
      have hlater (hp : p ∈ (s.next c).topLevelFrom (offset + 1) rest) :
          p.1 < offset + (c :: rest).length := by
        have := ih _ _ hp
        rw [List.length_cons]
        omega
      rw [topLevelFrom] at h
      split at h
      · rcases List.mem_cons.1 h with rfl | hp
        · rw [List.length_cons]
          omega
        · exact hlater hp
      · exact hlater h
  have := hbound start 0 t h
  omega

/-- At the top level a scan shows of a text what it would show of it at the start. -/
theorem AtTop.topLevelFrom_eq {s : Scan} (hs : s.AtTop)
    (hprevious : s.literal.previous ≠ some (.char '=')) (offset : Nat) (t : Text) :
    s.topLevelFrom offset t = Scan.start.topLevelFrom offset t := by
  -- Only the first character can tell the two states apart, by closing an arrow; behind it they are
  -- one.
  cases t with
  | nil => rfl
  | cons c rest => rw [topLevelFrom, topLevelFrom, hs.sees_eq, hs.next_eq hprevious]

/-- A text is split at its first colon at the top level. -/
theorem splitColon?_eq_firstColon? (s : Scan) (offset : Nat) (t : Text) :
    (s.splitColon? t).map (fun parts => offset + parts.1.length) =
      firstColon? (s.topLevelFrom offset t) := by
  induction t generalizing s offset with
  | nil => rfl
  | cons c rest ih =>
    -- A label that is longer by `c` ends where the rest of it does, counted from the next place.
    have hlater : ((s.next c).splitColon? rest).map (fun parts => offset + (c :: parts.1).length) =
        firstColon? ((s.next c).topLevelFrom (offset + 1) rest) := by
      rw [← ih (s.next c) (offset + 1)]
      congr 1
      funext parts
      rw [List.length_cons]
      omega
    rw [splitColon?, topLevelFrom]
    -- A colon ends the search on both sides only where the scan sees it.
    by_cases hsees : s.sees c = true
    · by_cases hcolon : c = .char ':'
      · subst hcolon
        simp [hsees, firstColon?]
      · simpa [hsees, hcolon, firstColon?, Function.comp_def] using hlater
    · simpa [hsees, Function.comp_def] using hlater

end Scan

/-! ## One cut -/

/-- The characters that a body is cut at. -/
def IsCut (c : CodePoint) : Prop := IsSeparator c ∨ c = .char '\n'

section Cut

variable {m rest : Text} {c : CodePoint}

theorem IsCut.isCalm (hc : IsCut c) : isCalm c = true := by
  rcases hc with (rfl | rfl) | rfl <;> rfl

theorem IsCut.ne_equals (hc : IsCut c) : c ≠ .char '=' := by
  rcases hc with (rfl | rfl) | rfl <;> decide

/-- What a scan shows of a text that is cut in two: of each part what it shows of it by itself, and
in between the character that the text is cut at. -/
theorem Scan.topLevel_cut (htop : (Scan.start.run m).AtTop) (hc : IsCut c) (rest : Text) :
    Scan.topLevel (m ++ c :: rest) =
      Scan.topLevel m ++ (m.length, c) :: movedBy (m.length + 1) (Scan.topLevel rest) := by
  -- Behind `c` nothing is open, and `c` is not the start of an arrow: the scan is as at the start.
  have hsees : (Scan.start.run m).sees c = true := htop.sees hc.isCalm
  have hnext : ((Scan.start.run m).next c).AtTop := htop.next hc.isCalm
  have hprevious : ((Scan.start.run m).next c).literal.previous ≠ some (.char '=') :=
    fun h => hc.ne_equals (Option.some.inj h)
  rw [Scan.topLevel, Scan.topLevelFrom_append, Nat.zero_add, Scan.topLevelFrom, if_pos hsees,
    hnext.topLevelFrom_eq hprevious, Scan.topLevelFrom_eq_movedBy _ (m.length + 1)]
  rfl

/-- Inside the first part the text shows what the part does. -/
theorem within_topLevel_first (htop : (Scan.start.run m).AtTop) (hc : IsCut c) (rest : Text) :
    within 0 m.length (Scan.topLevel (m ++ c :: rest)) = Scan.topLevel m := by
  have hfirst : within 0 m.length (Scan.topLevel m) = Scan.topLevel m := by
    apply within_eq_self
    intro p hp
    exact ⟨Nat.zero_le _, Scan.lt_of_mem_topLevel hp⟩
  -- The separator stands at `m.length` and all behind it further on, so nothing of it is inside.
  have hbehind : within 0 m.length
      ((m.length, c) :: movedBy (m.length + 1) (Scan.topLevel rest)) = [] := by
    apply within_eq_nil
    intro p hp
    right
    rcases List.mem_cons.1 hp with rfl | hp
    · exact Nat.le_refl _
    · obtain ⟨q, _, rfl⟩ := List.mem_map.1 hp
      show m.length ≤ m.length + 1 + q.1
      omega
  rw [Scan.topLevel_cut htop hc, within_append, hfirst, hbehind, List.append_nil]

/-- Inside the second part the text shows what the part does there. -/
theorem within_topLevel_second (htop : (Scan.start.run m).AtTop) (hc : IsCut c) (rest : Text)
    (start stop : Nat) :
    within (m.length + 1 + start) (m.length + 1 + stop) (Scan.topLevel (m ++ c :: rest)) =
      movedBy (m.length + 1) (within start stop (Scan.topLevel rest)) := by
  -- What stands in front of the second part is before `m.length + 1`.
  have hfront : within (m.length + 1 + start) (m.length + 1 + stop)
      (Scan.topLevel m ++ [(m.length, c)]) = [] := by
    apply within_eq_nil
    intro p hp
    left
    rcases List.mem_append.1 hp with hp | hp
    · have := Scan.lt_of_mem_topLevel hp
      omega
    · obtain rfl := List.mem_singleton.1 hp
      show m.length < m.length + 1 + start
      omega
  rw [Scan.topLevel_cut htop hc, ← List.singleton_append, ← List.append_assoc, within_append,
    hfront, List.nil_append, within_movedBy]

end Cut

/-! ## All cuts -/

/-- Where the member behind some others begins: each of them takes its length and the character that
is dropped behind it. -/
def startBehind (members : List Text) : Nat := (members.map fun m => m.length + 1).sum

theorem startBehind_cons (m : Text) (members : List Text) :
    startBehind (m :: members) = m.length + 1 + startBehind members := by
  simp [startBehind]

/-- A part of a body that begins at a place and shows, scanned by itself, what the body shows
there. -/
structure RescannedAt (body : Text) (start : Nat) (m : Text) : Prop where
  occurs : ∃ before after, before.length = start ∧ body = before ++ m ++ after
  topLevel : movedBy start (Scan.topLevel m) =
    within start (start + m.length) (Scan.topLevel body)

namespace RescannedAt

variable {body m rest : Text} {c : CodePoint} {start : Nat}

/-- The colon that a part is split at is its first one in the body. -/
theorem firstColon? (h : RescannedAt body start m) :
    (Scan.splitColon? .start m).map (fun parts => start + parts.1.length) =
      RpcContract.firstColon? (within start (start + m.length) (Scan.topLevel body)) := by
  rw [← h.topLevel, Scan.splitColon?_eq_firstColon?, Scan.topLevelFrom_eq_movedBy]
  rfl

theorem whole (m : Text) : RescannedAt m 0 m where
  -- All that a scan shows of a text is inside it, so the window takes nothing away.
  occurs := ⟨[], [], rfl, by simp⟩
  topLevel := by
    rw [movedBy_zero, within_eq_self]
    intro p hp
    have := Scan.lt_of_mem_topLevel hp
    omega

theorem first (htop : (Scan.start.run m).AtTop) (hc : IsCut c) (rest : Text) :
    RescannedAt (m ++ c :: rest) 0 m where
  occurs := ⟨[], c :: rest, rfl, by simp⟩
  topLevel := by rw [movedBy_zero, Nat.zero_add, within_topLevel_first htop hc]

/-- A part of what is behind a cut is a part of the whole. -/
theorem behind {front : Text} (htop : (Scan.start.run front).AtTop) (hc : IsCut c)
    (h : RescannedAt rest start m) :
    RescannedAt (front ++ c :: rest) (front.length + 1 + start) m where
  occurs := by
    obtain ⟨before, after, hbefore, rfl⟩ := h.occurs
    refine ⟨front ++ c :: before, after, ?_, by simp⟩
    rw [List.length_append, List.length_cons, hbefore]
    omega
  topLevel := by
    -- The window moves with the part: both moves together are one from the start of the whole.
    rw [Nat.add_assoc (front.length + 1), within_topLevel_second htop hc, ← h.topLevel,
      movedBy_movedBy]

end RescannedAt

namespace CutInto

variable {body : Text} {members : List Text}

/-- Every member of a cut shows by itself what the body shows inside it. -/
theorem rescannedAt (h : CutInto body members) {before after : List Text} {m : Text}
    (hm : members = before ++ m :: after) : RescannedAt body (startBehind before) m := by
  -- Over the cut, for every list in front: either the member is the first one, or it is a member of
  -- the rest and lies that much further on.
  induction h generalizing before with
  | @last only _ =>
    obtain ⟨rfl, rfl, rfl⟩ : before = [] ∧ only = m ∧ after = [] := by
      cases before <;> simp_all
    exact .whole only
  | @next first rest c members _ htop hc _ ih =>
    cases before with
    | nil =>
      obtain ⟨rfl, rfl⟩ := List.cons.inj hm
      exact .first htop hc rest
    | cons other before =>
      obtain ⟨rfl, hmembers⟩ := List.cons.inj hm
      rw [startBehind_cons]
      exact (ih hmembers).behind htop hc

/-- The members of a cut with the characters that are dropped behind them make up the body, and the
scan of the body shows each of these characters where the member in front of it ends. -/
theorem exists_pieces (h : CutInto body members) :
    ∃ (pieces : List (Text × CodePoint)) (last : Text),
      members = pieces.map Prod.fst ++ [last] ∧
      body = (pieces.flatMap fun piece => piece.1 ++ [piece.2]) ++ last ∧
      ∀ before m c after, pieces = before ++ (m, c) :: after →
        IsCut c ∧ (startBehind (before.map Prod.fst) + m.length, c) ∈ Scan.topLevel body := by
  induction h with
  | @last only _ =>
    refine ⟨[], only, rfl, rfl, ?_⟩
    intro before m c after hpieces
    cases before <;> cases hpieces
  | @next first rest d members _ htop hd _ ih =>
    obtain ⟨pieces, last, rfl, rfl, hcuts⟩ := ih
    refine ⟨(first, d) :: pieces, last, rfl, by simp, ?_⟩
    intro before m c after hpieces
    rw [Scan.topLevel_cut htop hd]
    cases before with
    | nil =>
      obtain ⟨hpiece, _⟩ := List.cons.inj hpieces
      obtain ⟨rfl, rfl⟩ := Prod.mk.inj hpiece
      refine ⟨hd, List.mem_append_right _ ?_⟩
      simp [startBehind]
    | cons other before =>
      obtain ⟨rfl, hrest⟩ := List.cons.inj hpieces
      -- What is seen behind the first cut is seen in the body that much further on.
      obtain ⟨hc, hmem⟩ := hcuts before m c after hrest
      refine ⟨hc, List.mem_append_right _ (List.mem_cons_of_mem _ ?_)⟩
      rw [List.map_cons, startBehind_cons, Nat.add_assoc]
      exact List.mem_map_of_mem hmem

end CutInto

/-- **Splitting loses nothing, and a member scanned by itself shows what the body shows inside it.**
Whatever the body, balanced or not, its members with the characters dropped between them make it up;
each of these is a semicolon, a comma or a line feed at the top level of the body.  Every member, from
where it begins in the body, has the characters at its own top level that the body has at its top
level inside it, and so no semicolon or comma; and the colon that a member is split at is the first
one at the top level of the body inside it. -/
theorem splitMembers_rescanned (body : Text) :
    (∃ (pieces : List (Text × CodePoint)) (last : Text),
      splitMembers body = pieces.map Prod.fst ++ [last] ∧
      body = (pieces.flatMap fun piece => piece.1 ++ [piece.2]) ++ last ∧
      ∀ before m c after, pieces = before ++ (m, c) :: after →
        (c = .char ';' ∨ c = .char ',' ∨ c = .char '\n') ∧
        (startBehind (before.map Prod.fst) + m.length, c) ∈ Scan.topLevel body) ∧
    ∀ before m after, splitMembers body = before ++ m :: after →
      RescannedAt body (startBehind before) m ∧
      (∀ p ∈ Scan.topLevel m, p.2 ≠ .char ';' ∧ p.2 ≠ .char ',') ∧
      (∀ label type, Scan.splitColon? .start m = some (label, type) →
        m = label ++ .char ':' :: type) ∧
      (Scan.splitColon? .start m).map (fun parts => startBehind before + parts.1.length) =
        firstColon? (within (startBehind before) (startBehind before + m.length)
          (Scan.topLevel body)) := by
  have hcut : CutInto body (splitMembers body) := cutInto_splitMembers body
  constructor
  · obtain ⟨pieces, last, hmembers, hbody, hcuts⟩ := hcut.exists_pieces
    refine ⟨pieces, last, hmembers, hbody, ?_⟩
    intro before m c after hpieces
    obtain ⟨hc, hseen⟩ := hcuts before m c after hpieces
    exact ⟨or_assoc.1 hc, hseen⟩
  · intro before m after hm
    have hmem : m ∈ splitMembers body := by simp [hm]
    have hrescanned := hcut.rescannedAt hm
    refine ⟨hrescanned, ?_, ?_, hrescanned.firstColon?⟩
    · intro p hp
      exact not_or.1 (hcut.undivided m hmem p hp)
    · intro label type hcolon
      exact (Scan.of_splitColon? hcolon).1

/-- A body that closes what is not open and leaves open what is not closed. -/
example :
    let body := "a: x\x7d\nb: f<;".text
    splitMembers body = ["a: x\x7d".text, "b: f<;".text] ∧
      movedBy 6 (Scan.topLevel "b: f<;".text) = within 6 12 (Scan.topLevel body) ∧
      firstColon? (within 6 12 (Scan.topLevel body)) = some 7 := by
  decide +kernel

end RpcContract
