import RpcContract.Json.Fault
import RpcContract.Value.Basic

/-!
# Reading JSON

A reader for JSON texts that keeps the order of members, tells integers of any size from floating
point numbers, and also takes `NaN`, `Infinity` and `-Infinity`.  A name that occurs twice in an
object keeps its first place and its last value.  Every step returns what is left of the text with
a proof that it is shorter than what the step began with, which is what makes the reader total.
-/

namespace RpcContract.Json

/-- A value that was read and what is left of the text. -/
structure Read (α : Type) (source : Text) where
  value : α
  rest : Text
  shorter : rest.length < source.length

/-- White space between the tokens of a JSON text. -/
def isSpace (c : CodePoint) : Bool := c == ' ' || c == '\t' || c == '\n' || c == '\r'

/-- The text from its next token on. -/
def skipSpace (t : Text) : Text := t.dropWhile isSpace

theorem length_skipSpace_le (t : Text) : (skipSpace t).length ≤ t.length :=
  (List.dropWhile_sublist isSpace).length_le

/-! ## Texts -/

/-- The number that a hexadecimal digit stands for. -/
def hexValue? (c : CodePoint) : Option Nat :=
  let n := c.toNat
  if 0x30 ≤ n ∧ n ≤ 0x39 then some (n - 0x30)
  else if 0x61 ≤ n ∧ n ≤ 0x66 then some (n - 0x57)
  else if 0x41 ≤ n ∧ n ≤ 0x46 then some (n - 0x37)
  else none

/-- The number that four hexadecimal digits stand for. -/
def unit? (a b c d : CodePoint) : Option Nat := do
  let a ← hexValue? a
  let b ← hexValue? b
  let c ← hexValue? c
  let d ← hexValue? d
  some (((a * 16 + b) * 16 + c) * 16 + d)

def isHighUnit (n : Nat) : Bool := 0xD800 ≤ n && n < 0xDC00

def isLowUnit (n : Nat) : Bool := 0xDC00 ≤ n && n < 0xE000

/-- The character of a pair of 16-bit units. -/
def ofPair (high low : Nat) : CodePoint :=
  .ofNat (0x10000 + (high - 0xD800) * 0x400 + (low - 0xDC00))

/-- The character that a letter stands for behind a backslash. -/
def escape? : CodePoint → Option CodePoint
  | .char '"' => some '"'
  | .char '\\' => some '\\'
  | .char '/' => some '/'
  | .char 'b' => some '\x08'
  | .char 'f' => some '\x0c'
  | .char 'n' => some '\n'
  | .char 'r' => some '\r'
  | .char 't' => some '\t'
  | _ => none

/-- The unit of an escape whose four digits and at least one more character follow, and what is
left behind the digits. -/
def unitEscape? : Text → Option (Nat × Text)
  | a :: b :: c :: d :: rest =>
    if rest.isEmpty then none else (unit? a b c d).map (·, rest)
  | _ => none

theorem unitEscape?_shorter {t rest : Text} {n : Nat} (h : unitEscape? t = some (n, rest)) :
    rest.length < t.length := by
  match t with
  | a :: b :: c :: d :: more =>
    simp only [unitEscape?] at h
    split at h
    · exact absurd h (by simp)
    · cases hu : unit? a b c d with
      | none => simp [hu] at h
      | some m =>
        simp only [hu, Option.map_some, Option.some.injEq, Prod.mk.injEq] at h
        rw [← h.2]
        simp only [List.length_cons]
        omega
  | [] | [_] | [_, _] | [_, _, _] => simp [unitEscape?] at h

/-- The second unit of a pair, when an escape for it follows. -/
def pairEscape? : Text → Option (Except Fault (Nat × Text))
  | .char '\\' :: .char 'u' :: a :: b :: c :: d :: rest =>
    if rest.isEmpty then none
    else match unit? a b c d with
      | some n => some (.ok (n, rest))
      | none => some (.error ⟨.invalidUnicodeEscape, rest.length + 5⟩)
  | _ => none

theorem pairEscape?_shorter {t rest : Text} {n : Nat}
    (h : pairEscape? t = some (.ok (n, rest))) : rest.length < t.length := by
  unfold pairEscape? at h
  split at h
  · split at h
    · exact absurd h (by simp)
    · split at h
      · simp only [Option.some.injEq, Except.ok.injEq, Prod.mk.injEq] at h
        rw [← h.2]
        simp only [List.length_cons]
        omega
      · exact absurd h (by simp)
  · exact absurd h (by simp)

/-- Reads a text behind its opening quote, which stands `start` code points before the end. -/
def readText (start : Nat) (source : Text) : Except Fault (Text × Text) :=
  match source with
  | [] => .error ⟨.unterminatedText, start⟩
  | .char '"' :: rest => .ok ([], rest)
  | .char '\\' :: .char 'u' :: digits =>
    match h : unitEscape? digits with
    | none => .error ⟨.invalidUnicodeEscape, digits.length + 1⟩
    | some (unit, rest) =>
      have := unitEscape?_shorter h
      if isHighUnit unit then
        match hp : pairEscape? rest with
        | some (.error fault) => .error fault
        | some (.ok (low, rest')) =>
          have := pairEscape?_shorter hp
          if isLowUnit low then
            (readText start rest').map fun (t, left) => (ofPair unit low :: t, left)
          else (readText start rest).map fun (t, left) => (CodePoint.ofNat unit :: t, left)
        | none => (readText start rest).map fun (t, left) => (CodePoint.ofNat unit :: t, left)
      else (readText start rest).map fun (t, left) => (CodePoint.ofNat unit :: t, left)
  | .char '\\' :: letter :: rest =>
    match escape? letter with
    | none => .error ⟨.invalidEscape, rest.length + 2⟩
    | some c => (readText start rest).map fun (t, left) => (c :: t, left)
  | [.char '\\'] => .error ⟨.unterminatedText, start⟩
  | c :: rest =>
    if c.toNat ≤ 0x1F then .error ⟨.invalidControl, rest.length + 1⟩
    else (readText start rest).map fun (t, left) => (c :: t, left)
  termination_by source.length
  decreasing_by all_goals simp only [List.length_cons]; omega

/-- What is left behind a text is shorter than what it began with. -/
theorem readText_shorter {start : Nat} {source t rest : Text}
    (h : readText start source = .ok (t, rest)) : rest.length < source.length := by
  have step : ∀ {source' : Text} {c : CodePoint} {t rest : Text},
      ((readText start source').map fun (p : Text × Text) => (c :: p.1, p.2)) = .ok (t, rest) →
      ∃ t', readText start source' = .ok (t', rest) := by
    intro source' c t rest h
    cases hr : readText start source' with
    | error fault => rw [hr] at h; exact absurd h (by simp [Except.map])
    | ok p =>
      rw [hr] at h
      simp only [Except.map, Except.ok.injEq, Prod.mk.injEq] at h
      exact ⟨p.1, by rw [← h.2]⟩
  fun_induction readText start source generalizing t rest with
  | case1 => exact absurd h (by simp)
  | case2 more =>
    simp only [Except.ok.injEq, Prod.mk.injEq] at h
    rw [← h.2]
    simp
  | case3 => exact absurd h (by simp)
  | case4 => exact absurd h (by simp)
  | case5 digits unit more hu hlt _ low more' _ hlt' _ ih =>
    obtain ⟨t', h'⟩ := step h
    have := ih h'
    simp only [List.length_cons]
    omega
  | case6 digits unit more hu hlt _ low more' _ hlt' _ ih =>
    obtain ⟨t', h'⟩ := step h
    have := ih h'
    simp only [List.length_cons]
    omega
  | case7 digits unit more hu hlt _ _ ih =>
    obtain ⟨t', h'⟩ := step h
    have := ih h'
    simp only [List.length_cons]
    omega
  | case8 digits unit more hu hlt _ ih =>
    obtain ⟨t', h'⟩ := step h
    have := ih h'
    simp only [List.length_cons]
    omega
  | case9 => exact absurd h (by simp)
  | case10 letter more _ c _ ih =>
    obtain ⟨t', h'⟩ := step h
    have := ih h'
    simp only [List.length_cons]
    omega
  | case11 => exact absurd h (by simp)
  | case12 => exact absurd h (by simp)
  | case13 c more _ _ _ _ _ ih =>
    obtain ⟨t', h'⟩ := step h
    have := ih h'
    simp only [List.length_cons]
    omega

/-! ## Numbers -/

/-- The number that a run of decimal digits stands for. -/
def digitsValue (digits : Text) : Nat :=
  digits.foldl (fun n c => n * 10 + (c.toNat - 0x30)) 0

/-- The digits at the start of a text and what is left behind them. -/
def spanDigits (t : Text) : Text × Text :=
  (t.takeWhile CodePoint.isDigit, t.dropWhile CodePoint.isDigit)

/-- The digits behind a point, if there are any. -/
def spanFraction (t : Text) : Text × Text :=
  match t with
  | .char '.' :: rest => if (spanDigits rest).1.isEmpty then ([], t) else spanDigits rest
  | _ => ([], t)

/-- The exponent behind its mark, if it has digits. -/
def spanExponent (t : Text) : Option Int × Text :=
  match t with
  | mark :: rest =>
    if mark == 'e' || mark == 'E' then
      match rest with
      | .char '-' :: more => finish (-1) more
      | .char '+' :: more => finish 1 more
      | _ => finish 1 rest
    else (none, t)
  | [] => (none, t)
where
  /-- The exponent whose digits begin here. -/
  finish (sign : Int) (digits : Text) : Option Int × Text :=
    let (ds, rest) := spanDigits digits
    if ds.isEmpty then (none, t) else (some (sign * (digitsValue ds : Int)), rest)

/-- The whole digits of a number: a zero alone, or digits that do not begin with zero. -/
def spanWhole (t : Text) : Option (Text × Text) :=
  match t with
  | .char '0' :: rest => some ("0".text, rest)
  | c :: _ => if c.isDigit then some (spanDigits t) else none
  | [] => none

theorem length_spanDigits_le (t : Text) : (spanDigits t).2.length ≤ t.length :=
  (List.dropWhile_sublist CodePoint.isDigit).length_le

theorem length_spanFraction_le (t : Text) : (spanFraction t).2.length ≤ t.length := by
  unfold spanFraction
  split
  · split
    · exact Nat.le_refl _
    · exact Nat.le_trans (length_spanDigits_le _) (by simp)
  · exact Nat.le_refl _

theorem length_spanExponent_le (t : Text) : (spanExponent t).2.length ≤ t.length := by
  have finish : ∀ (sign : Int) (digits : Text), digits.length ≤ t.length →
      (spanExponent.finish t sign digits).2.length ≤ t.length := by
    intro sign digits h
    simp only [spanExponent.finish]
    split
    · exact Nat.le_refl _
    · exact Nat.le_trans (length_spanDigits_le _) h
  unfold spanExponent
  split
  · split
    · split <;> exact finish _ _ (by simp only [List.length_cons]; omega)
    · exact Nat.le_refl _
  · exact Nat.le_refl _

theorem spanWhole_shorter {t ds rest : Text} (h : spanWhole t = some (ds, rest)) :
    rest.length < t.length := by
  unfold spanWhole at h
  split at h
  · simp only [Option.some.injEq, Prod.mk.injEq] at h
    rw [← h.2]
    simp
  · rename_i c more _
    split at h
    · rename_i hc
      simp only [spanDigits, Option.some.injEq, Prod.mk.injEq, List.dropWhile_cons, hc,
        if_true] at h
      rw [← h.2]
      have := (List.dropWhile_sublist (l := more) CodePoint.isDigit).length_le
      simp only [List.length_cons]
      omega
    · exact absurd h (by simp)
  · exact absurd h (by simp)

/-- The number with the given parts.  It is an integer when it has neither fraction nor exponent,
and then its digits are limited. -/
def number (negative : Bool) (whole fraction : Text) (exponent : Option Int) :
    Except Complaint Value :=
  if fraction.isEmpty && exponent.isNone then
    if DigitLimit.digits < whole.length then .error (.longInteger whole.length)
    else
      let n : Int := digitsValue whole
      .ok (.int (if negative then -n else n))
  else
    let x := Binary64.ofDecimal (digitsValue (whole ++ fraction))
      (exponent.getD 0 - fraction.length)
    .ok (.float (if negative then x.negate else x))

/-- Reads a number without its sign. -/
def readUnsigned (negative : Bool) (source : Text) : Except Complaint (Read Value source) :=
  match h : spanWhole source with
  | none => .error .expectingValue
  | some (whole, rest) =>
    (number negative whole (spanFraction rest).1 (spanExponent (spanFraction rest).2).1).map
      fun value => {
        value := value
        rest := (spanExponent (spanFraction rest).2).2
        shorter := by
          have := spanWhole_shorter h
          have := length_spanFraction_le rest
          have := length_spanExponent_le (spanFraction rest).2
          omega }

/-! ## Values -/

/-- What is left behind a fixed word. -/
def afterWord? (word source : Text) : Option Text :=
  if word.isPrefixOf source then some (source.drop word.length) else none

/-- The words that are values. -/
def words : List (Text × Value) :=
  [("null".text, .null), ("true".text, .bool true), ("false".text, .bool false),
   ("NaN".text, .float .nan), ("Infinity".text, .float .infinity),
   ("-Infinity".text, .float .negativeInfinity)]

/-- Reads a word that is a value. -/
def readWord (source : Text) : Option (Read Value source) :=
  words.findSome? fun (word, value) =>
    match h : afterWord? word source with
    | none => none
    | some rest =>
      if hw : word.length = 0 ∨ source.length = 0 then none
      else some {
        value := value
        rest := rest
        shorter := by
          unfold afterWord? at h
          split at h
          · simp only [Option.some.injEq] at h
            rw [← h, List.length_drop]
            omega
          · exact absurd h (by simp) }

/-- Reads a value that is neither a text nor holds other values. -/
def readScalar (source : Text) : Except Fault (Read Value source) :=
  match readWord source with
  | some read => .ok read
  | none =>
    match source with
    | .char '-' :: digits =>
      match readUnsigned true digits with
      | .ok read => .ok ⟨read.value, read.rest, Nat.lt_succ_of_lt read.shorter⟩
      | .error complaint => .error ⟨complaint, digits.length + 1⟩
    | other =>
      match readUnsigned false other with
      | .ok read => .ok read
      | .error complaint => .error ⟨complaint, other.length⟩

mutual

/-- Reads the value at the start of a text. -/
def readValue (source : Text) : Except Fault (Read Value source) :=
  match source with
  | .char '"' :: rest =>
    match h : readText (rest.length + 1) rest with
    | .error fault => .error fault
    | .ok (t, left) => .ok ⟨.text t, left, Nat.lt_succ_of_lt (readText_shorter h)⟩
  | .char '[' :: rest =>
    have hs := length_skipSpace_le rest
    match h : skipSpace rest with
    | .char ']' :: left =>
      .ok ⟨.list [], left, by rw [h] at hs; simp only [List.length_cons] at hs ⊢; omega⟩
    | _ =>
      match readItems (skipSpace rest) with
      | .error fault => .error fault
      | .ok read => .ok ⟨.list read.value, read.rest, by
          have := read.shorter
          simp only [List.length_cons]
          omega⟩
  | .char '{' :: rest =>
    have hs := length_skipSpace_le rest
    match h : skipSpace rest with
    | .char '}' :: left =>
      .ok ⟨.record [], left, by rw [h] at hs; simp only [List.length_cons] at hs ⊢; omega⟩
    | _ =>
      match readMembers (skipSpace rest) with
      | .error fault => .error fault
      | .ok read => .ok ⟨.record (Assoc.ofEntries read.value), read.rest, by
          have := read.shorter
          simp only [List.length_cons]
          omega⟩
  | other => readScalar other
  termination_by (source.length, 0)

/-- Reads the items of a list from its first item to the closing bracket. -/
def readItems (source : Text) : Except Fault (Read (List Value) source) :=
  match readValue source with
  | .error fault => .error fault
  | .ok item =>
    have hs := length_skipSpace_le item.rest
    have := item.shorter
    match h : skipSpace item.rest with
    | .char ']' :: left =>
      .ok ⟨[item.value], left, by rw [h] at hs; simp only [List.length_cons] at hs; omega⟩
    | .char ',' :: more =>
      have := length_skipSpace_le more
      have : more.length < source.length := by
        rw [h] at hs
        simp only [List.length_cons] at hs
        omega
      match readItems (skipSpace more) with
      | .error fault => .error fault
      | .ok read => .ok ⟨item.value :: read.value, read.rest, by have := read.shorter; omega⟩
    | left => .error ⟨.expectingComma, left.length⟩
  termination_by (source.length, 1)

/-- Reads the members of an object from its first name to the closing brace. -/
def readMembers (source : Text) : Except Fault (Read (List (Text × Value)) source) :=
  match source with
  | .char '"' :: rest =>
    match ht : readText (rest.length + 1) rest with
    | .error fault => .error fault
    | .ok (name, afterName) =>
      have hn := readText_shorter ht
      have hc := length_skipSpace_le afterName
      match h : skipSpace afterName with
      | .char ':' :: afterColon =>
        have hv := length_skipSpace_le afterColon
        have : (skipSpace afterColon).length < rest.length := by
          rw [h] at hc
          simp only [List.length_cons] at hc
          omega
        match readValue (skipSpace afterColon) with
        | .error fault => .error fault
        | .ok member =>
          have hs := length_skipSpace_le member.rest
          have := member.shorter
          match h : skipSpace member.rest with
          | .char '}' :: left =>
            .ok ⟨[(name, member.value)], left, by
              rw [h] at hs
              simp only [List.length_cons] at hs ⊢
              omega⟩
          | .char ',' :: more =>
            have := length_skipSpace_le more
            have : more.length < rest.length := by
              rw [h] at hs
              simp only [List.length_cons] at hs
              omega
            match readMembers (skipSpace more) with
            | .error fault => .error fault
            | .ok read => .ok ⟨(name, member.value) :: read.value, read.rest, by
                have := read.shorter
                simp only [List.length_cons]
                omega⟩
          | left => .error ⟨.expectingComma, left.length⟩
      | left => .error ⟨.expectingColon, left.length⟩
  | left => .error ⟨.expectingName, left.length⟩
  termination_by (source.length, 1)

end

/-- Reads a whole text: one value with white space around it and nothing else. -/
def read (source : Text) : Except Fault Value :=
  if source.head? = some '\uFEFF' then .error ⟨.byteOrderMark, source.length⟩
  else
    match readValue (skipSpace source) with
    | .error fault => .error fault
    | .ok value =>
      match skipSpace value.rest with
      | [] => .ok value.value
      | left => .error ⟨.extraData, left.length⟩

end RpcContract.Json
