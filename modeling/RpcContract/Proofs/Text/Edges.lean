import Mathlib.Data.List.Basic
import Mathlib.Data.List.TakeWhile
import RpcContract.Text.Word

/-!
# Texts and the white space around them

A text is blank when it is white space throughout, and tight when it neither begins nor ends with
white space.  Trimming takes the blank texts around a text away and leaves a tight one.
-/

namespace RpcContract

namespace Text

/-- White space throughout. -/
def Blank (t : Text) : Prop := ∀ c ∈ t, isBlank c = true

/-- No white space at either end. -/
structure Tight (t : Text) : Prop where
  head : ∀ c, t.head? = some c → isBlank c = false
  last : ∀ c, t.getLast? = some c → isBlank c = false

variable {t u v : Text}

/-! ## Blank texts -/

theorem Blank.nil : Blank [] := fun _ h => absurd h List.not_mem_nil

theorem Blank.space : Blank " ".text := by
  intro c hc
  obtain rfl := List.mem_singleton.1 hc
  rfl

theorem Blank.append (hu : Blank u) (hv : Blank v) : Blank (u ++ v) := by
  intro c hc
  rcases List.mem_append.1 hc with hc | hc
  · exact hu c hc
  · exact hv c hc

theorem Blank.left (h : Blank (u ++ v)) : Blank u := fun c hc => h c (List.mem_append_left v hc)

theorem Blank.right (h : Blank (u ++ v)) : Blank v := fun c hc => h c (List.mem_append_right u hc)

theorem Blank.reverse (hu : Blank u) : Blank u.reverse := fun c hc => hu c (List.mem_reverse.1 hc)

/-! ## Trimming -/

theorem trimLeft_blank_append (hu : Blank u) : trimLeft (u ++ t) = trimLeft t :=
  List.dropWhile_append_of_pos hu

theorem trimLeft_of_head (h : ∀ c, t.head? = some c → isBlank c = false) : trimLeft t = t := by
  -- The first character stays, so all does.
  cases t with
  | nil => rfl
  | cons c rest => simp [trimLeft, h c rfl]

theorem trimLeft_cons {c : CodePoint} (hc : isBlank c = false) : trimLeft (c :: t) = c :: t :=
  trimLeft_of_head fun _ hd => Option.some.inj hd ▸ hc

theorem trimRight_append_blank (hu : Blank u) : trimRight (t ++ u) = trimRight t := by
  unfold trimRight
  rw [List.reverse_append, List.dropWhile_append_of_pos hu.reverse]

theorem trimRight_of_last (h : ∀ c, t.getLast? = some c → isBlank c = false) : trimRight t = t := by
  -- From behind it is the same as from the front.
  have hreverse : t.reverse.dropWhile isBlank = t.reverse :=
    trimLeft_of_head fun c hc => h c (by rwa [List.head?_reverse] at hc)
  rw [trimRight, hreverse, List.reverse_reverse]

theorem trim_blank_append (hu : Blank u) : trim (u ++ t) = trim t := by
  rw [trim, trimLeft_blank_append hu, trim]

theorem trim_append_blank (hu : Blank u) : trim (t ++ u) = trim t := by
  unfold trim trimLeft
  -- Either `t` is all blank, or something of it is left in front of `u`.
  rw [List.dropWhile_append]
  split
  · -- There is nothing but white space, on either side.
    rename_i hempty
    have ht : t.dropWhile isBlank = [] := by simpa using hempty
    have hu' : u.dropWhile isBlank = [] := List.dropWhile_eq_nil_iff.2 hu
    rw [ht, hu']
  · exact trimRight_append_blank hu

theorem trim_of_blank (hu : Blank u) : trim u = [] := by
  have h := trim_append_blank (t := []) hu
  rw [List.nil_append] at h
  exact h

theorem trim_of_tight (ht : Tight t) : trim t = t := by
  rw [trim, trimLeft_of_head ht.head, trimRight_of_last ht.last]

/-- Trimming takes white space on both sides away and nothing else. -/
theorem trim_between (hu : Blank u) (ht : Tight t) (hv : Blank v) : trim (u ++ t ++ v) = t := by
  rw [trim_append_blank hv, trim_blank_append hu, trim_of_tight ht]

/-- In front of a tight text only white space on the left is taken away. -/
theorem trim_append_tight (hu : Tight u) (hune : u ≠ []) : trim (t ++ u) = trimLeft t ++ u := by
  have hleft : trimLeft (t ++ u) = trimLeft t ++ u := by
    unfold trimLeft
    rw [List.dropWhile_append]
    -- White space on the left ends within `t`, or at the first character of `u`, which has none.
    split
    · rename_i hempty
      have ht : t.dropWhile isBlank = [] := by simpa using hempty
      rw [ht, List.nil_append]
      exact trimLeft_of_head hu.head
    · rfl
  rw [trim, hleft]
  refine trimRight_of_last fun c hc => hu.last c ?_
  rwa [List.getLast?_append_of_ne_nil _ hune] at hc

/-- Trimming takes nothing but white space away. -/
theorem exists_blank_trim (t : Text) : ∃ u v, Blank u ∧ Blank v ∧ t = u ++ trim t ++ v := by
  -- What is dropped is what `takeWhile` takes, in front and, read backwards, behind.
  have htake (w : Text) : Blank (w.takeWhile isBlank) := fun c hc => List.mem_takeWhile_imp hc
  refine ⟨t.takeWhile isBlank, ((trimLeft t).reverse.takeWhile isBlank).reverse, htake _,
    (htake _).reverse, ?_⟩
  have hright : trim t ++ ((trimLeft t).reverse.takeWhile isBlank).reverse = trimLeft t := by
    rw [trim, trimRight, ← List.reverse_append, List.takeWhile_append_dropWhile, List.reverse_reverse]
  rw [List.append_assoc, hright, trimLeft, List.takeWhile_append_dropWhile]

theorem head?_dropWhile_isBlank {c : CodePoint} (hc : (t.dropWhile isBlank).head? = some c) :
    isBlank c = false := by
  have hnot := List.head?_dropWhile_not isBlank t
  rw [hc] at hnot
  exact hnot

/-- What is left by trimming is tight. -/
theorem tight_trim (t : Text) : Tight (trim t) := by
  constructor
  · intro c hc
    -- Trimming on the right leaves the first character, if it leaves any.
    have hsuffix := List.dropWhile_suffix (l := (trimLeft t).reverse) isBlank
    obtain ⟨v, hv⟩ := List.reverse_prefix.2 hsuffix
    rw [List.reverse_reverse] at hv
    have hfirst : ((trimLeft t).reverse.dropWhile isBlank).reverse.head? = some c := hc
    have hhead : (trimLeft t).head? = some c := by
      rw [← hv, List.head?_append, hfirst]
      rfl
    exact head?_dropWhile_isBlank hhead
  · intro c hc
    rw [trim, trimRight, List.getLast?_reverse] at hc
    exact head?_dropWhile_isBlank hc

/-- Where there is no white space in front, trimming leaves the first character. -/
theorem head?_trim_cons {c : CodePoint} (hc : isBlank c = false) : (trim (c :: t)).head? = some c := by
  obtain ⟨u, v, hu, hv, ht⟩ := exists_blank_trim (c :: t)
  have hnot {w : Text} (hw : Blank w) (hmem : c ∈ w) : False := by
    rw [hw c hmem] at hc
    exact Bool.noConfusion hc
  -- White space in front would begin with `c`.
  have hnil : u = [] := by
    cases u with
    | nil => rfl
    | cons d rest =>
      obtain ⟨rfl, -⟩ := List.cons.inj ht
      exact (hnot hu List.mem_cons_self).elim
  rw [hnil, List.nil_append] at ht
  -- Nothing would be left only if all were white space, `c` among it.
  cases htrim : trim (c :: t) with
  | nil =>
    rw [htrim, List.nil_append] at ht
    exact (hnot hv (ht ▸ List.mem_cons_self)).elim
  | cons d rest =>
    rw [htrim, List.cons_append] at ht
    rw [(List.cons.inj ht).1]
    rfl

theorem mem_of_mem_trim {c : CodePoint} (hc : c ∈ trim t) : c ∈ t := by
  have hright : c ∈ (trimLeft t).reverse :=
    (List.dropWhile_sublist isBlank).subset (List.mem_reverse.1 hc)
  exact (List.dropWhile_sublist isBlank).subset (List.mem_reverse.1 hright)

/-! ## Tight texts -/

theorem tight_singleton {c : CodePoint} (hc : isBlank c = false) : Tight [c] := by
  constructor
  · intro d hd
    exact Option.some.inj hd ▸ hc
  · intro d hd
    exact Option.some.inj hd ▸ hc

/-- Two tight texts with anything in between. -/
theorem Tight.append (ht : Tight t) (hv : Tight v) (htne : t ≠ []) (hvne : v ≠ []) (u : Text) :
    Tight (t ++ u ++ v) := by
  constructor
  · intro c hc
    obtain ⟨d, rest, rfl⟩ := List.exists_cons_of_ne_nil htne
    exact ht.head c (by simpa using hc)
  · intro c hc
    rw [List.getLast?_append_of_ne_nil (t ++ u) hvne] at hc
    exact hv.last c hc

theorem tight_between {c d : CodePoint} (hc : isBlank c = false) (hd : isBlank d = false)
    (t : Text) : Tight (c :: t ++ [d]) :=
  (tight_singleton hc).append (tight_singleton hd) (List.cons_ne_nil _ _) (List.cons_ne_nil _ _) t

/-! ## White space and names -/

theorem ne_of_class {p : CodePoint → Bool} {c d : CodePoint} (hc : p c = true)
    (hd : p d = false) : c ≠ d := by
  rintro rfl
  rw [hc] at hd
  exact Bool.noConfusion hd

/-- No code point of white space above ASCII is in the table of word characters. -/
theorem inRanges_letterRanges_of_blank :
    ∀ code ∈ [0x85, 0xA0, 0x1680, 0x2000, 0x2001, 0x2002, 0x2003, 0x2004, 0x2005, 0x2006, 0x2007,
      0x2008, 0x2009, 0x200A, 0x2028, 0x2029, 0x202F, 0x205F, 0x3000],
      (letterRanges.any fun ranges => inRanges ranges code) = false := by
  decide +kernel

theorem le_toNat_of_isAlphanum {c : Char} (h : c.isAlphanum = true) : 48 ≤ c.toNat := by
  replace h : (c.isAlpha || (decide (c.val ≥ '0'.val) && decide (c.val ≤ '9'.val))) = true := h
  simp only [Bool.or_eq_true, Bool.and_eq_true, decide_eq_true_eq, ge_iff_le,
    UInt32.le_iff_toNat_le] at h
  rcases h with h | h
  · exact Nat.le_trans (by decide) (toNat_of_isAlpha h).1
  · exact h.1

theorem isWord_of_isBlank {c : CodePoint} (h : isBlank c = true) : isWord c = false := by
  simp only [isBlank, inRanges, blankRanges, List.any_cons, List.any_nil, Bool.or_false,
    Bool.or_eq_true, Bool.and_eq_true, decide_eq_true_eq] at h
  -- The tables differ by range: below 0x80 the classes are spelled out, above it the blanks are
  -- few.
  unfold isWord
  by_cases hascii : c.toNat < 0x80
  · rw [if_pos hascii]
    cases c with
    | surrogate index => simp [CodePoint.isIn]
    | char c =>
      -- The letters, the digits and the underscore lie above the white space of ASCII.
      by_contra hword
      simp only [CodePoint.isIn, Bool.not_eq_false, Bool.or_eq_true, beq_iff_eq,
        CodePoint.char.injEq] at hword
      simp only [CodePoint.toNat] at h hascii
      rcases hword with hword | rfl
      · have habove := le_toNat_of_isAlphanum hword
        omega
      · revert h
        decide
  · -- Above ASCII there are nineteen blanks, and each was looked up.
    rw [if_neg hascii]
    refine inRanges_letterRanges_of_blank _ ?_
    simp only [List.mem_cons, List.not_mem_nil, or_false]
    omega

theorem continuesName_of_isBlank {c : CodePoint} (h : isBlank c = true) :
    continuesName c = false := by
  have hdollar : c ≠ '$' := ne_of_class h (by decide)
  simp [continuesName, isWord_of_isBlank h, hdollar]

theorem isBlank_of_continuesName {c : CodePoint} (h : continuesName c = true) :
    isBlank c = false := by
  by_contra hblank
  rw [continuesName_of_isBlank (Bool.not_eq_false _ ▸ hblank)] at h
  exact Bool.noConfusion h

/-- What a name consists of. -/
theorem continuesName_of_isName {name : Text} (h : isName name = true) :
    ∀ c ∈ name, continuesName c = true := by
  cases name with
  | nil => exact fun c hc => absurd hc List.not_mem_nil
  -- The first character of a name starts one, which is more than to go on with it.
  | cons first rest =>
    simp only [isName, Bool.and_eq_true, List.all_eq_true] at h
    intro c hc
    rcases List.mem_cons.1 hc with rfl | hc
    · exact continuesName_of_startsName h.1
    · exact h.2 c hc

/-- A name is tight. -/
theorem tight_of_isName {name : Text} (h : isName name = true) : Tight name := by
  have hblank : ∀ c ∈ name, isBlank c = false := fun c hc =>
    isBlank_of_continuesName (continuesName_of_isName h c hc)
  constructor
  · intro c hc
    exact hblank c (List.mem_of_head? hc)
  · intro c hc
    exact hblank c (List.mem_of_getLast? hc)

end Text

end RpcContract
