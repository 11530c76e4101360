import Mathlib.Data.List.Chain
import RpcContract.Json.Printer
import RpcContract.Json.Reader

/-!
# Escapes undone

The printer of JSON writes every code point in ASCII, and the reader finds it again: a letter behind
a backslash, an escape of one 16-bit unit, or two of them for a character beyond the first plane.
Two escapes that are the halves of a pair are always read as one character.  So of all that a text
may hold only a first half right in front of a second half, neither of which is a character, is not
found again.
-/

namespace RpcContract

namespace CodePoint

/-- A character is no surrogate. -/
theorem toNat_char (c : Char) : (char c).toNat < 0xD800 ∨
    0xDFFF < (char c).toNat ∧ (char c).toNat < 0x110000 := c.valid

theorem toNat_lt (c : CodePoint) : c.toNat < 0x110000 := by
  cases c with
  | char c =>
    have hvalid := toNat_char c
    omega
  | surrogate index =>
    have hindex := index.isLt
    show 0xD800 + index.val < 0x110000
    omega

/-- A code point is the one with its number. -/
theorem ofNat_toNat (c : CodePoint) : ofNat c.toNat = c := by
  cases c with
  | char c =>
    have hvalid := toNat_char c
    have hout : ¬ (0xD800 ≤ (char c).toNat ∧ (char c).toNat < 0xE000) := by omega
    rw [ofNat, dif_neg hout]
    exact congrArg char (Char.ofNat_toNat c)
  | surrogate index =>
    have hindex := index.isLt
    -- The reader of numbers takes 0xD800 off again, by truncated subtraction.
    have hin : 0xD800 ≤ 0xD800 + index.val ∧ 0xD800 + index.val < 0xE000 := by omega
    have hback : 0xD800 + index.val - 0xD800 = index.val := by omega
    show ofNat (0xD800 + index.val) = .surrogate index
    rw [ofNat, dif_pos hin]
    simp only [hback]

end CodePoint

/-- All code points are ASCII. -/
def Text.IsAscii (t : Text) : Prop := ∀ c ∈ t, c.toNat < 0x80

instance (t : Text) : Decidable t.IsAscii := inferInstanceAs (Decidable (∀ c ∈ t, c.toNat < 0x80))

namespace Text.IsAscii

theorem nil : IsAscii [] := fun _ hc => absurd hc List.not_mem_nil

theorem append {t u : Text} (ht : IsAscii t) (hu : IsAscii u) : IsAscii (t ++ u) :=
  List.forall_mem_append.2 ⟨ht, hu⟩

end Text.IsAscii

namespace Json

theorem isHighUnit_iff {n : Nat} : isHighUnit n = true ↔ 0xD800 ≤ n ∧ n < 0xDC00 := by
  simp [isHighUnit]

theorem isLowUnit_iff {n : Nat} : isLowUnit n = true ↔ 0xDC00 ≤ n ∧ n < 0xE000 := by
  simp [isLowUnit]

/-- No first half of a pair of 16-bit units stands right in front of a second half. -/
def Unpaired (t : Text) : Prop :=
  t.IsChain fun c d => ¬ (isHighUnit c.toNat = true ∧ isLowUnit d.toNat = true)

instance (t : Text) : Decidable (Unpaired t) := inferInstanceAs (Decidable (List.IsChain ..))

/-- A text of characters has no halves at all. -/
theorem unpaired_of_characters {t : Text} (h : ∀ c ∈ t, c.isSurrogate = false) : Unpaired t := by
  -- Two neighbours at a time: the first half would be a surrogate.
  apply List.isChain_iff_forall_rel_of_append_cons_cons.2
  rintro c d front behind rfl ⟨hhigh, _⟩
  have hc : c.isSurrogate = false := h c (by simp)
  cases c with
  | surrogate index => cases hc
  | char c =>
    have hvalid := CodePoint.toNat_char c
    have hrange := isHighUnit_iff.1 hhigh
    omega

theorem Unpaired.of_isInfix {t u : Text} (h : u <:+: t) (ht : Unpaired t) : Unpaired u :=
  List.IsChain.infix ht h

/-! ## Digits -/

theorem hexValue?_hexDigit {n : Nat} (h : n < 16) : hexValue? (Text.hexDigit n) = some n := by
  -- There are sixteen digits, so each is looked at.
  have hall : ∀ d < 16, hexValue? (Text.hexDigit d) = some d := by decide
  exact hall n h

theorem toNat_hexDigit_lt {n : Nat} (h : n < 16) : (Text.hexDigit n).toNat < 0x80 := by
  have hall : ∀ d < 16, (Text.hexDigit d).toNat < 0x80 := by decide
  exact hall n h

/-- The four digits of a unit. -/
theorem hexDigits_four (n : Nat) : Text.hexDigits 4 n =
    [Text.hexDigit (n / 16 / 16 / 16 % 16), Text.hexDigit (n / 16 / 16 % 16),
      Text.hexDigit (n / 16 % 16), Text.hexDigit (n % 16)] := rfl

theorem unitEscape_eq (n : Nat) :
    unitEscape n = .char '\\' :: .char 'u' :: Text.hexDigits 4 n := rfl

/-- Four digits stand for the unit that they were written for. -/
theorem unit?_hexDigits {n : Nat} (h : n < 0x10000) :
    unit? (Text.hexDigit (n / 16 / 16 / 16 % 16)) (Text.hexDigit (n / 16 / 16 % 16))
      (Text.hexDigit (n / 16 % 16)) (Text.hexDigit (n % 16)) = some n := by
  have hdigit (m : Nat) : hexValue? (Text.hexDigit (m % 16)) = some (m % 16) :=
    hexValue?_hexDigit (Nat.mod_lt m (by decide))
  -- The digits in base sixteen.
  have hvalue :
      ((n / 16 / 16 / 16 % 16 * 16 + n / 16 / 16 % 16) * 16 + n / 16 % 16) * 16 + n % 16 = n := by
    omega
  simp only [unit?, hdigit, Option.bind_eq_bind, Option.bind_some, hvalue]

section Units

variable {n : Nat} {rest : Text}

theorem unitEscape?_hexDigits (h : n < 0x10000) (hrest : rest ≠ []) :
    unitEscape? (Text.hexDigits 4 n ++ rest) = some (n, rest) := by
  have hmore : rest.isEmpty = false := by simpa using hrest
  rw [hexDigits_four]
  simp only [List.cons_append, List.nil_append, unitEscape?, hmore, unit?_hexDigits h]
  rfl

theorem pairEscape?_unitEscape (h : n < 0x10000) (hrest : rest ≠ []) :
    pairEscape? (unitEscape n ++ rest) = some (.ok (n, rest)) := by
  have hmore : rest.isEmpty = false := by simpa using hrest
  rw [unitEscape_eq, hexDigits_four]
  simp only [List.cons_append, List.nil_append, pairEscape?, hmore, unit?_hexDigits h]
  rfl

theorem isAscii_unitEscape (n : Nat) : Text.IsAscii (unitEscape n) := by
  have hdigit (m : Nat) : (Text.hexDigit (m % 16)).toNat < 0x80 :=
    toNat_hexDigit_lt (Nat.mod_lt m (by decide))
  intro c hc
  simp only [unitEscape_eq, hexDigits_four, List.mem_cons, List.not_mem_nil, or_false] at hc
  -- Two marks and four digits.
  rcases hc with rfl | rfl | rfl | rfl | rfl | rfl
  · decide
  · decide
  · exact hdigit _
  · exact hdigit _
  · exact hdigit _
  · exact hdigit _

end Units

/-! ## One code point -/

/-- How a code point can be written inside a JSON text. -/
inductive Writes : CodePoint → Text → Prop where
  /-- A backslash and a letter. -/
  | letter {c letter : CodePoint} (h : escape? letter = some c) : Writes c [.char '\\', letter]
  /-- The character itself. -/
  | plain {c : CodePoint} (hshown : 0x20 ≤ c.toNat ∧ c.toNat ≤ 0x7E) (hquote : c ≠ .char '"')
      (hbackslash : c ≠ .char '\\') : Writes c [c]
  /-- The escape of the one unit that it is. -/
  | unit {c : CodePoint} (h : c.toNat < 0x10000) : Writes c (unitEscape c.toNat)
  /-- The escapes of the two units that stand for it. -/
  | pair {c : CodePoint} (h : 0x10000 ≤ c.toNat) :
      Writes c (unitEscape (0xD800 + (c.toNat - 0x10000) / 0x400) ++
        unitEscape (0xDC00 + (c.toNat - 0x10000) % 0x400))

/-- The code points that are written by a letter of their own. -/
def lettered : List CodePoint :=
  [.char '"', .char '\\', .char '\n', .char '\r', .char '\t', .char '\x0c', .char '\x08']

theorem printChar_of_mem_lettered {c : CodePoint} (h : c ∈ lettered) :
    ∃ letter, escape? letter = some c ∧ printChar c = [.char '\\', letter] := by
  simp only [lettered, List.mem_cons, List.not_mem_nil, or_false] at h
  rcases h with rfl | rfl | rfl | rfl | rfl | rfl | rfl <;> exact ⟨_, rfl, rfl⟩

theorem printChar_of_not_mem_lettered {c : CodePoint} (h : c ∉ lettered) :
    printChar c =
      if 0x20 ≤ c.toNat && c.toNat ≤ 0x7E then [c]
      else if c.toNat < 0x10000 then unitEscape c.toNat
      else unitEscape (0xD800 + (c.toNat - 0x10000) / 0x400) ++
        unitEscape (0xDC00 + (c.toNat - 0x10000) % 0x400) := by
  -- No code point with a letter is `c`, so the printer passes by all of these cases.
  have hne (d : CodePoint) (hd : d ∈ lettered) : (c == d) = false := by
    rw [beq_eq_false_iff_ne]
    rintro rfl
    exact h hd
  rw [printChar, hne _ (by decide), hne _ (by decide), hne _ (by decide), hne _ (by decide),
    hne _ (by decide), hne _ (by decide), hne _ (by decide)]
  rfl

/-- The printer writes every code point in one of the ways. -/
theorem writes_printChar (c : CodePoint) : Writes c (printChar c) := by
  by_cases hletter : c ∈ lettered
  · obtain ⟨letter, hescape, hprint⟩ := printChar_of_mem_lettered hletter
    rw [hprint]
    exact .letter hescape
  · rw [printChar_of_not_mem_lettered hletter]
    split
    · rename_i hshown
      refine .plain (by simpa using hshown) ?_ ?_
      · rintro rfl
        exact hletter (by decide)
      · rintro rfl
        exact hletter (by decide)
    · split
      · rename_i hunit
        exact .unit hunit
      · rename_i hunit
        exact .pair (Nat.le_of_not_lt hunit)

theorem of_escape? {c letter : CodePoint} (h : escape? letter = some c) :
    letter ≠ .char 'u' ∧ letter.toNat < 0x80 := by
  unfold escape? at h
  -- The last case is that of letters that escape nothing.
  split at h
  case h_9 => cases h
  all_goals decide

namespace Writes

variable {c : CodePoint} {w : Text}

theorem isAscii (h : Writes c w) : Text.IsAscii w := by
  intro d hd
  -- By the way the code point is written.
  cases h with
  | letter h =>
    simp only [List.mem_cons, List.not_mem_nil, or_false] at hd
    rcases hd with rfl | rfl
    · decide
    · exact (of_escape? h).2
  | plain hshown =>
    obtain rfl := List.mem_singleton.1 hd
    omega
  | unit => exact isAscii_unitEscape _ d hd
  | pair => exact (isAscii_unitEscape _).append (isAscii_unitEscape _) d hd

end Writes

/-! ## Texts -/

/-- No escape of a second half stands at the start of a text. -/
def BeginsWhole (t : Text) : Prop :=
  pairEscape? t = none ∨ ∃ n rest, pairEscape? t = some (.ok (n, rest)) ∧ isLowUnit n = false

section Reading

variable {start : Nat} {c : CodePoint} {w t more : Text}

/-- What is written for a code point that is no second half does not begin with one. -/
theorem Writes.beginsWhole (h : Writes c w) (hc : isLowUnit c.toNat = false) (hmore : more ≠ []) :
    BeginsWhole (w ++ more) := by
  cases h with
  | @letter letter h =>
    -- A backslash and another letter begin no escape of a unit.
    left
    have hletter : letter ≠ .char 'u' := (of_escape? h).1
    rw [List.cons_append, List.cons_append, pairEscape?]
    intro _ _ _ _ _ heq
    exact hletter (List.cons.inj (List.cons.inj heq).2).1
  | plain _ _ hbackslash =>
    left
    rw [List.cons_append, pairEscape?]
    intro _ _ _ _ _ heq
    exact hbackslash (List.cons.inj heq).1
  | unit h => exact .inr ⟨_, _, pairEscape?_unitEscape h hmore, hc⟩
  | pair h =>
    have hlt := c.toNat_lt
    rw [List.append_assoc]
    -- The first of the two is a first half, so it is no second half.
    refine .inr ⟨_, _, pairEscape?_unitEscape (by omega) (by simp [hmore]), ?_⟩
    by_contra hlow
    have := isLowUnit_iff.1 (Bool.of_not_eq_false hlow)
    omega

/-- The reader puts a code point in front of what it reads behind. -/
def ReadsBefore (start : Nat) (c : CodePoint) (source more : Text) : Prop :=
  readText start source = (readText start more).map fun p => (c :: p.1, p.2)

theorem readText_letter {letter : CodePoint} (h : escape? letter = some c) :
    ReadsBefore start c (.char '\\' :: letter :: more) more := by
  rw [ReadsBefore, readText, h]
  exact (of_escape? h).1

theorem readText_plain (hshown : 0x20 ≤ c.toNat) (hquote : c ≠ .char '"')
    (hbackslash : c ≠ .char '\\') : ReadsBefore start c (c :: more) more := by
  have hvisible : ¬ c.toNat ≤ 0x1F := by omega
  rw [ReadsBefore, readText, if_neg hvisible]
  · exact hquote
  · exact fun _ h _ => hbackslash h
  · exact fun _ _ h _ => hbackslash h
  · exact fun h _ => hbackslash h

/-- An escape that is not the first of a pair is one code point. -/
theorem readText_unit {n : Nat} {digits : Text} (h : unitEscape? digits = some (n, more))
    (hwhole : isHighUnit n = true → BeginsWhole more) :
    ReadsBefore start (.ofNat n) (.char '\\' :: .char 'u' :: digits) more := by
  rw [ReadsBefore, readText]
  -- The reader looks for an escape and finds the one that is there; the other branch does not
  -- occur.
  split
  · rename_i heq
    rw [h] at heq
    cases heq
  · rename_i unit rest heq
    rw [h] at heq
    cases heq
    dsimp only
    split
    · -- A first half is one code point, as no second half follows.
      rename_i hhigh
      split
      · rename_i fault hpair
        rcases hwhole hhigh with hnone | ⟨second, behind, hsome, _⟩
        · rw [hnone] at hpair
          cases hpair
        · rw [hsome] at hpair
          cases hpair
      · rename_i low behind hpair
        rcases hwhole hhigh with hnone | ⟨second, behind, hsome, hlow⟩
        · rw [hnone] at hpair
          cases hpair
        · rw [hsome] at hpair
          cases hpair
          rw [hlow]
          rfl
      · rfl
    · rfl

/-- Two escapes that make a pair are one code point. -/
theorem readText_pair {high low : Nat} {digits behind : Text}
    (h : unitEscape? digits = some (high, behind)) (hhigh : isHighUnit high = true)
    (hpair : pairEscape? behind = some (.ok (low, more))) (hlow : isLowUnit low = true) :
    ReadsBefore start (ofPair high low) (.char '\\' :: .char 'u' :: digits) more := by
  rw [ReadsBefore, readText]
  -- As before, with the second half found behind the first.
  split
  · rename_i heq
    rw [h] at heq
    cases heq
  · rename_i unit rest heq
    rw [h] at heq
    cases heq
    dsimp only
    rw [if_pos hhigh]
    split
    · rename_i fault heq
      rw [hpair] at heq
      cases heq
    · rename_i second behind heq
      rw [hpair] at heq
      cases heq
      rw [if_pos hlow]
    · rename_i heq
      rw [hpair] at heq
      cases heq

/-- One code point is read as it was written. -/
theorem Writes.readsBefore (h : Writes c w) (hmore : more ≠ [])
    (hwhole : isHighUnit c.toNat = true → BeginsWhole more) :
    ReadsBefore start c (w ++ more) more := by
  cases h with
  | letter h => exact readText_letter h
  | plain hshown hquote hbackslash => exact readText_plain hshown.1 hquote hbackslash
  -- The unit is the number of the code point, which it is read back to.
  | unit h =>
    have hread : ReadsBefore start (.ofNat c.toNat) _ more :=
      readText_unit (unitEscape?_hexDigits h hmore) hwhole
    rw [CodePoint.ofNat_toNat] at hread
    exact hread
  | pair h =>
    have hlt := c.toNat_lt
    have hhigh : isHighUnit (0xD800 + (c.toNat - 0x10000) / 0x400) = true :=
      isHighUnit_iff.2 (by omega)
    have hlow : isLowUnit (0xDC00 + (c.toNat - 0x10000) % 0x400) = true :=
      isLowUnit_iff.2 (by omega)
    -- What was split into a quotient and a remainder is put together again.
    have hnumber : 0x10000 + (0xD800 + (c.toNat - 0x10000) / 0x400 - 0xD800) * 0x400 +
        (0xDC00 + (c.toNat - 0x10000) % 0x400 - 0xDC00) = c.toNat := by omega
    have hboth : ofPair (0xD800 + (c.toNat - 0x10000) / 0x400)
        (0xDC00 + (c.toNat - 0x10000) % 0x400) = c := by
      rw [ofPair, hnumber, CodePoint.ofNat_toNat]
    have hread : ReadsBefore start _ _ more :=
      readText_pair (unitEscape?_hexDigits (by omega) (by simp [unitEscape, String.text])) hhigh
        (pairEscape?_unitEscape (by omega) hmore) hlow
    rw [hboth] at hread
    rw [List.append_assoc]
    exact hread

/-- The reader finds a text that was written, whatever is behind its closing quote. -/
theorem readText_flatMap_printChar (ht : Unpaired t) (rest : Text) :
    readText start (t.flatMap printChar ++ .char '"' :: rest) = .ok (t, rest) := by
  -- Over the text; what decides about a first half is the code point next to it.
  induction t with
  | nil =>
    rw [List.flatMap_nil, List.nil_append, readText]
  | cons c t ih =>
    obtain ⟨hnext, ht'⟩ := List.isChain_cons.1 ht
    have hwhole : isHighUnit c.toNat = true →
        BeginsWhole (t.flatMap printChar ++ .char '"' :: rest) := by
      intro hhigh
      cases t with
      -- Behind the last one stands the closing quote.
      | nil => exact .inl rfl
      | cons d t =>
        -- Behind a first half there is no second one, and nothing else begins as one.
        have hlow : isLowUnit d.toNat = false := by
          by_contra hlow
          exact hnext d rfl ⟨hhigh, Bool.of_not_eq_false hlow⟩
        rw [List.flatMap_cons, List.append_assoc]
        exact (writes_printChar d).beginsWhole hlow (by simp)
    have hread : ReadsBefore start c
        (printChar c ++ (t.flatMap printChar ++ .char '"' :: rest)) _ :=
      (writes_printChar c).readsBefore (by simp) hwhole
    rw [List.flatMap_cons, List.append_assoc, hread, ih ht']
    rfl

end Reading

end Json

end RpcContract
