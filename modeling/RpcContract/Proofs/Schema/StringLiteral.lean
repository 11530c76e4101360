import RpcContract.Proofs.Schema.Joining

/-!
# String literals as types

A string literal may be the type of a member, whatever it holds: brackets, separators, colons and
escaped quotes inside it are passed over.  The scans tell whether a quote is escaped by the one
character in front of it.  So they take the quote behind an escaped backslash for an escaped one: a
literal whose content ends in a backslash is not closed for them, and what holds it is no object
literal any more.
-/

namespace RpcContract

open Text (Blank Tight)

namespace Layout

/-- The text with a backslash in front of each backslash and of each of the quotes. -/
def escape (quote : CodePoint) (t : Text) : Text :=
  t.flatMap fun c => if c = .char '\\' ∨ c = quote then [.char '\\', c] else [c]

/-- The string literal with a content. -/
def stringLiteral (quote : CodePoint) (t : Text) : Text := quote :: escape quote t ++ [quote]

variable {p : CodePoint → Bool} {quote : CodePoint} {t : Text}

/-! ## Escaped texts -/

/-- In an escaped text no quote is without a backslash. -/
theorem guarded_escape (hquote : isQuote quote = true) (t : Text) (previous : Option CodePoint) :
    Guarded quote previous (escape quote t) := by
  have hbackslash : CodePoint.char '\\' ≠ quote := (Text.ne_of_class hquote (by decide)).symm
  -- Over the content, for every character in front: an escaped character is guarded by its
  -- backslash, any other is not the quote.
  induction t generalizing previous with
  | nil => trivial
  | cons c rest ih =>
    rw [escape, List.flatMap_cons]
    by_cases hc : c = .char '\\' ∨ c = quote
    · rw [if_pos hc]
      exact ⟨fun h => absurd h hbackslash, fun _ => rfl, ih _⟩
    · rw [if_neg hc]
      exact ⟨fun h => absurd (.inr h) hc, ih _⟩

/-- An escaped text ends as the text does. -/
theorem getLast?_escape (quote : CodePoint) (t : Text) :
    (escape quote t).getLast? = t.getLast? := by
  -- Only the last character counts: escaped or not, it is the last of its group.
  rcases List.eq_nil_or_concat t with rfl | ⟨rest, c, rfl⟩
  · rfl
  · rw [escape, List.concat_eq_append, List.flatMap_append, List.getLast?_concat]
    by_cases hc : c = .char '\\' ∨ c = quote
    · simp [hc]
    · simp [hc]

/-! ## Types that stand for themselves -/

/-- What does not begin with a brace is no object literal. -/
theorem literalBody?_of_head (htight : Tight t) (hhead : t.head? ≠ some (.char '\x7b')) :
    literalBody? t = none := by
  unfold literalBody?
  rw [Text.trim_of_tight htight]
  split
  · exact absurd rfl hhead
  · rfl

/-- What ends as none of the endings that ask for more does, does not ask for more. -/
theorem finished_of_getLast? (h : ∀ ending ∈ continuations, t.getLast? ≠ ending.getLast?) :
    ∀ ending ∈ continuations, ¬ ending <:+ t := by
  intro ending hending
  cases hlast : ending.getLast? with
  | none =>
    obtain rfl := List.getLast?_eq_none_iff.1 hlast
    exact absurd hending (by decide)
  | some c => exact not_suffix_of_getLast? hlast (hlast ▸ h ending hending)

/-- A name is read back as the type that it names. -/
theorem readsBack_of_isName (h : Text.isName t = true) : ReadsBack (.text t) t where
  compiles := by
    refine Schema.compile_of_literalBody?_eq_none ?_
    -- A brace does not go on with a name.
    refine literalBody?_of_head (Text.tight_of_isName h) fun hhead => ?_
    have hword := Text.continuesName_of_isName h _ (List.mem_of_head? hhead)
    exact absurd hword (by decide)
  nonempty := (NameText.bare h).ne_nil
  tight := Text.tight_of_isName h
  balanced := (NameText.bare h).balanced fun _ => isInline_of_continuesName
  finished := by
    refine finished_of_getLast? fun ending hending heq => ?_
    have hends : ∀ other ∈ continuations, other.getLast?.any Text.continuesName = false := by decide
    -- The last character of a name goes on with a name, and that of no ending does.
    obtain ⟨rest, c, rfl⟩ := (List.eq_nil_or_concat t).resolve_left (NameText.bare h).ne_nil
    rw [List.concat_eq_append] at h heq
    have hword := Text.continuesName_of_isName h c (by simp)
    have hnone := hends ending hending
    rw [← heq, List.getLast?_concat, Option.any_some, hword] at hnone
    exact Bool.noConfusion hnone

/-- A string literal whose content does not end in a backslash is read back to the letter. -/
theorem readsBack_stringLiteral (hquote : quote = .char '"' ∨ quote = .char '\'')
    (hlast : t.getLast? ≠ some (.char '\\')) :
    ReadsBack (.text (stringLiteral quote t)) (stringLiteral quote t) := by
  have hopens := isQuote_of_name hquote
  have hblank : Text.isBlank quote = false := by rcases hquote with rfl | rfl <;> decide
  have htight : Tight (stringLiteral quote t) := Text.tight_between hblank hblank _
  refine ⟨?_, List.cons_ne_nil _ _, htight, ?_, ?_⟩
  · -- It begins with a quote.
    refine Schema.compile_of_literalBody?_eq_none (literalBody?_of_head htight ?_)
    rcases hquote with rfl | rfl <;> simp [stringLiteral]
  · -- It ends as its content does, which is not in a backslash.
    exact .quoted hopens (guarded_escape hopens t _) (by rwa [getLast?_escape])
  · -- And it ends in a quote, which no ending does.
    refine finished_of_getLast? ?_
    have hend : (stringLiteral quote t).getLast? = some quote := List.getLast?_concat
    rw [hend]
    rcases hquote with rfl | rfl <;> decide

end Layout

namespace Schema

open Layout

/-- The body of an object literal in which a string literal is the type of the first member. -/
def bodyBeside (quote : CodePoint) (t : Text) : Text :=
  " a: ".text ++ stringLiteral quote t ++ "; b: number ".text

variable {quote : CodePoint} {t : Text}

/-- A closed literal leaves the members around it as they are. -/
theorem bodyText_bodyBeside (hquote : quote = .char '"' ∨ quote = .char '\'')
    (hlast : t.getLast? ≠ some (.char '\\')) :
    BodyText ReadsBack
      [⟨"a".text, false, .text (stringLiteral quote t)⟩, ⟨"b".text, false, .text "number".text⟩]
      (bodyBeside quote t) := by
  have hfirst : MemberText ReadsBack ⟨"a".text, false, .text (stringLiteral quote t)⟩ _ :=
    .mk (.mk (.bare rfl) .nil .nil) .space (readsBack_stringLiteral hquote hlast)
  have hsecond : MemberText ReadsBack ⟨"b".text, false, .text "number".text⟩ _ :=
    .mk (.mk (.bare rfl) .nil .nil) .space (readsBack_of_isName rfl)
  have hmembers : MembersText ReadsBack _ _ :=
    .next hfirst (.mark (.inl rfl) .nil .space) (.last hsecond (.blank .space))
  have hbody : BodyText ReadsBack _ _ := .members .space hmembers
  simpa [bodyBeside, markText, String.text] using hbody

/-- A literal that is not closed takes everything behind it with it. -/
theorem bracesMatch_bodyBeside (hquote : quote = .char '"' ∨ quote = .char '\'')
    (hlast : t.getLast? = some (.char '\\')) : bracesMatch (bodyBeside quote t) = false := by
  have hopens := isQuote_of_name hquote
  have hbefore : Balanced (fun _ => true) " a: ".text := .of_calm (by decide)
  -- The backslash at the end of the content guards the quote that was to close the literal.
  have hbehind : Guarded quote ((escape quote t).getLast?.or (some quote))
      (quote :: "; b: number ".text) := by
    rw [getLast?_escape, hlast]
    refine ⟨fun _ => rfl, .of_not_mem ?_ _⟩
    rcases hquote with rfl | rfl <;> decide
  -- So the literal is open to the end of the body, over both members.
  have hopen := hbefore.bracesMatch_open hopens ((guarded_escape hopens t _).append hbehind)
  simpa [bodyBeside, stringLiteral] using hopen

/-- **String literals are passed over, unless they end in a backslash.**  Whatever the content of a
string literal, an object literal in which it is the type of a member is compiled to the letter
exactly when that content does not end in a backslash; otherwise it is no object literal but a type
text. -/
theorem compile_bodyBeside (hquote : quote = .char '"' ∨ quote = .char '\'') (t : Text) :
    compile (literalText (bodyBeside quote t)) =
      if t.getLast? = some (.char '\\') then .text (literalText (bodyBeside quote t))
      else .object .literal
        [⟨"a".text, false, .text (stringLiteral quote t)⟩, ⟨"b".text, false, .text "number".text⟩] := by
  split
  · rename_i hlast
    refine compile_of_literalBody?_eq_none ?_
    have hbody := bracesMatch_bodyBeside hquote hlast
    unfold literalBody?
    -- The braces are there, but they do not match in what stands between them.
    rw [literalText, Text.trim_of_tight (tight_braces _)]
    simp [hbody]
  · rename_i hlast
    have hlayout := bodyText_bodyBeside hquote hlast
    have hcompile := compile_braces (by simp +decide) hlayout .nil .nil
    simpa [literalText] using hcompile

/-- Brackets, separators, an escaped quote and an escaped backslash inside the literal are passed
over. -/
theorem compile_bodyBeside_loud :
    compile "\x7b a: 'it\\'s; \x7b\\\\,)'; b: number \x7d".text = .object .literal
      [⟨"a".text, false, .text "'it\\'s; \x7b\\\\,)'".text⟩, ⟨"b".text, false, .text "number".text⟩] := by
  have hquote : CodePoint.char '\'' = .char '"' ∨ CodePoint.char '\'' = .char '\'' := .inr rfl
  exact compile_bodyBeside hquote "it's; \x7b\\,)".text

/-- A literal whose content is a backslash leaves no object literal. -/
theorem compile_backslash :
    stringLiteral (.char '"') "\\".text = "\"\\\\\"".text ∧
      compile "\x7b a: \"\\\\\"; b: number \x7d".text ≠ .object .literal
        [⟨"a".text, false, .text "\"\\\\\"".text⟩, ⟨"b".text, false, .text "number".text⟩] := by
  refine ⟨rfl, ?_⟩
  rw [compile_of_literalBody?_eq_none (by decide)]
  intro h
  cases h

end Schema

end RpcContract
