import TypedScheme.Proofs.Number.Grammar
import TypedScheme.Proofs.Token.Strings

/-! Words among the lexemes.
A word is a longest run of characters between delimiters, outside string literals and comments and
not begun by a hash sign. Main statement: a word is one token of the text, a number if all of it is
a numeral and a symbol otherwise, but for one exception: behind a literal with a line break behind a
backslash, all words are lost.
-/

namespace TypedScheme

/-- Every string literal and every comment of the text is ended in it, so that what follows the text
stands outside of them. The characters listed are those behind backslashes in its literals.
-/
inductive Text.Finished : List Char → List Char → Prop
  | nil : Finished [] []
  | other {c : Char} {cs escaped : List Char} (noString : c ≠ '"') (noComment : c ≠ ';')
    (others : Finished cs escaped)
    : Finished (c :: cs) escaped
  | string {rest body cs here later : List Char} (closed : ClosedAs rest body here cs)
    (others : Finished cs later)
    : Finished ('"' :: rest) (here ++ later)
  | comment {line cs escaped : List Char} (oneLine : '\n' ∉ line) (others : Finished cs escaped)
    : Finished (';' :: (line ++ '\n' :: cs)) escaped

namespace Lexer

open Text

-----------------------------------------------------------------------------------------
-- The mode after a text
-----------------------------------------------------------------------------------------

/-- The mode that a text leads to. -/
def Mode.after (mode : Mode) (offset : Nat) : List Char → Mode
  | [] => mode
  | c :: cs => (mode.next offset c).2.after (offset + c.utf8Size) cs

/-- Outside string literals and comments. -/
def Mode.isCode : Mode → Bool
  | .gap | .hash _ | .word _ _ => true
  | .comment | .string _ _ | .escape _ _ | .unclosed _ => false

/-- The mode behind two texts is the one behind the second, started behind the first; by induction
on the first.
-/
theorem Mode.after_append (mode : Mode) (offset : Nat) (cs ds : List Char)
    : mode.after offset (cs ++ ds) = (mode.after offset cs).after (offset + size cs) ds := by
  induction cs generalizing mode offset with
  | nil => rfl
  | cons c cs ih =>
      rw [List.cons_append, after, ih, after, size_cons, Nat.add_assoc]

/-- Lexing can be interrupted between tokens, by induction on the first part of the text. -/
theorem lexFrom_append {cs : List Char} {mode : Mode} {offset : Nat}
    (between : mode.after offset cs = .gap) (ds : List Char)
    : lexFrom mode offset (cs ++ ds)
      = lexFrom mode offset cs ++ lexFrom .gap (offset + size cs) ds := by
  induction cs generalizing mode offset with
  | nil =>
      cases between
      rfl
  | cons c cs ih =>
      rw [List.cons_append, lexFrom_cons, lexFrom_cons, ih between, size_cons, Nat.add_assoc,
        List.append_assoc]

/-- A comment goes on to the end of its line, by induction on the line. -/
theorem after_comment {line : List Char} (oneLine : '\n' ∉ line) (offset : Nat)
    : Mode.comment.after offset line = .comment := by
  induction line generalizing offset with
  | nil => rfl
  | cons c line ih =>
      have inside : c ≠ '\n' := fun same => oneLine (by simp [same])
      rw [Mode.after, Mode.next, if_neg inside]
      exact ih (fun member => oneLine (by simp [member])) _

/-- A comment is left at the end of its line. -/
theorem after_commentLine {line : List Char} (oneLine : '\n' ∉ line) (offset : Nat)
    (cs : List Char)
    : ∃ offset',
        offset' + size cs = offset + size (line ++ '\n' :: cs)
        ∧ Mode.comment.after offset (line ++ '\n' :: cs) = Mode.gap.after offset' cs := by
  refine ⟨offset + size line + '\n'.utf8Size, ?_, ?_⟩
  · rw [size_append, size_cons]
    omega
  · rw [Mode.after_append, after_comment oneLine, Mode.after, Mode.next, if_pos rfl]

/-- Inside a literal all characters of its body are collected, by induction on the body. -/
theorem after_string_body {body : List Char} (isBody : IsStringBody body) (start offset : Nat)
    (chars : List Char)
    : (Mode.string start chars).after offset body = .string start (body.reverse ++ chars) := by
  induction isBody generalizing offset chars with
  | nil => rfl
  | plain noQuote noBackslash _ ih =>
      rw [Mode.after, Mode.next, if_neg noQuote, if_neg noBackslash, ih]
      simp
  | escaped sameLine _ ih =>
      rw [Mode.after, Mode.next, if_neg (by decide), if_pos rfl, Mode.after, Mode.next,
        if_neg sameLine, ih]
      simp

/-- What a character does to a mode of code, whichever it is. -/
theorem next_of_isCode {mode : Mode} (code : mode.isCode = true) (offset : Nat) (c : Char)
    : (c = '"' → (mode.next offset c).2 = .string offset [])
      ∧ (c = ';' → (mode.next offset c).2 = .comment)
      ∧ (c ≠ '"' → c ≠ ';' → (mode.next offset c).2.isCode = true) := by
  cases mode with
  | comment | string | escape | unclosed => cases code
  | gap | hash | word => grind [Mode.next, enter, isBlank, isDelimiter, Mode.isCode]

/-- A literal without a line break in its pairs is left at its closing quote. -/
theorem after_closed {rest body escaped cs : List Char} (closed : ClosedAs rest body escaped cs)
    (sameLine : '\n' ∉ escaped) (start offset : Nat)
    : ∃ offset',
        offset' + size cs = offset + size rest
        ∧ (Mode.string start []).after offset rest = Mode.gap.after offset' cs := by
  obtain ⟨paired, rfl⟩ := closed
  have isBody := isStringBody_iff.mpr ⟨escaped, paired, sameLine⟩
  refine ⟨offset + size body + '"'.utf8Size, ?_, ?_⟩
  · rw [size_append, size_cons]
    omega
  · rw [Mode.after_append, after_string_body isBody, Mode.after, Mode.next, if_pos rfl]

/-- Once nothing can close a literal it stays open, by induction on the text. -/
theorem after_unclosed (start offset : Nat) (cs : List Char)
    : (Mode.unclosed start).after offset cs = .unclosed start := by
  induction cs generalizing offset with
  | nil => rfl
  | cons c cs ih => exact ih _

/-- A line break behind a backslash leaves a literal open for good, by induction on the pairs. -/
theorem after_broken {body escaped : List Char} (paired : Paired body escaped)
    (broken : '\n' ∈ escaped) (start offset : Nat) (chars : List Char)
    : (Mode.string start chars).after offset body = .unclosed start := by
  induction paired generalizing offset chars with
  | nil => cases broken
  | plain noQuote noBackslash _ ih =>
      rw [Mode.after, Mode.next, if_neg noQuote, if_neg noBackslash]
      exact ih broken _ _
  | pair c _ ih =>
      rw [Mode.after, Mode.next, if_neg (by decide), if_pos rfl, Mode.after, Mode.next]
      split
      · exact after_unclosed start _ _
      · next sameLine =>
          have later := (List.mem_cons.mp broken).resolve_left (Ne.symm sameLine)
          exact ih later _ _

/-- A text without line breaks in the pairs of its literals leads from code to code, by induction on
the literals, the comments and the other characters.
-/
theorem isCode_after {cs escaped : List Char} (finished : Finished cs escaped)
    (sameLine : '\n' ∉ escaped) {mode : Mode} (code : mode.isCode = true) (offset : Nat)
    : (mode.after offset cs).isCode = true := by
  induction finished generalizing mode offset with
  | nil => exact code
  | other noString noComment _ ih =>
      exact ih sameLine ((next_of_isCode code offset _).2.2 noString noComment) _
  | string closed _ ih =>
      obtain ⟨here, later⟩ := not_or.mp (List.mem_append.not.mp sameLine)
      obtain ⟨offset', _, left⟩ := after_closed closed here offset (offset + '"'.utf8Size)
      rw [Mode.after, (next_of_isCode code offset '"').1 rfl, left]
      exact ih later rfl _
  | @comment line cs _ oneLine _ ih =>
      obtain ⟨offset', _, left⟩ := after_commentLine oneLine (offset + ';'.utf8Size) cs
      rw [Mode.after, (next_of_isCode code offset ';').2.1 rfl, left]
      exact ih sameLine rfl _

/-- A line break in a pair leaves a literal of the text open for good: the first such literal is met
in code, by the same induction.
-/
theorem exists_unclosed_after {cs escaped : List Char} (finished : Finished cs escaped)
    (broken : '\n' ∈ escaped) {mode : Mode} (code : mode.isCode = true) (offset : Nat)
    : ∃ start, start < offset + size cs ∧ mode.after offset cs = .unclosed start := by
  induction finished generalizing mode offset with
  | nil => cases broken
  | other noString noComment _ ih =>
      rw [size_cons, ← Nat.add_assoc]
      exact ih broken ((next_of_isCode code offset _).2.2 noString noComment) _
  | @string rest body cs here _ closed _ ih =>
      rw [Mode.after, (next_of_isCode code offset '"').1 rfl, size_cons, ← Nat.add_assoc]
      by_cases atOnce : '\n' ∈ here
      · have opening : 0 < '"'.utf8Size := Char.utf8Size_pos _
        obtain ⟨paired, rfl⟩ := closed
        refine ⟨offset, by omega, ?_⟩
        rw [Mode.after_append, after_broken paired atOnce, after_unclosed]
      · have later := (List.mem_append.mp broken).resolve_left atOnce
        obtain ⟨offset', sizes, left⟩ := after_closed closed atOnce offset (offset + '"'.utf8Size)
        rw [left, ← sizes]
        exact ih later rfl _
  | @comment line cs _ oneLine _ ih =>
      obtain ⟨offset', sizes, left⟩ := after_commentLine oneLine (offset + ';'.utf8Size) cs
      rw [Mode.after, (next_of_isCode code offset ';').2.1 rfl, left, size_cons, ← Nat.add_assoc,
        ← sizes]
      exact ih broken rfl _

/-- A literal that is left open becomes the last lexeme, by induction on the text that led to it. -/
theorem lexFrom_append_unclosed {cs : List Char} {mode : Mode} {offset start : Nat}
    (unclosed : mode.after offset cs = .unclosed start) (ds : List Char)
    : ∃ front,
        lexFrom mode offset (cs ++ ds)
          = front ++ [⟨start, offset + size (cs ++ ds), .error .unterminatedString⟩] := by
  induction cs generalizing mode offset with
  | nil =>
      cases unclosed
      exact ⟨[], lexFrom_unclosed start offset ds⟩
  | cons c cs ih =>
      obtain ⟨front, lexed⟩ := ih unclosed
      refine ⟨(mode.next offset c).1.reverse ++ front, ?_⟩
      rw [List.cons_append, lexFrom_cons, lexed, size_cons, List.append_assoc, Nat.add_assoc]

/-- Between tokens, a delimiter begins a comment or a string literal, or nothing. -/
theorem enter_delimiter {c : Char} (delimiter : isDelimiter c = true) (offset : Nat)
    : (enter offset c).2 = .gap ∨ (enter offset c).2.isCode = false := by
  rw [enter]
  split_ifs with blank semicolon opens closes quotes string hash
  · exact .inl rfl
  · exact .inr rfl
  · exact .inl rfl
  · exact .inl rfl
  · exact .inl rfl
  · exact .inr rfl
  · simp [hash, isDelimiter, isBlank] at delimiter
  · simp [isDelimiter, blank, semicolon, opens, closes, quotes, string] at delimiter

/-- No token is left open by a delimiter. -/
theorem eq_gap_of_delimiter {c : Char} (delimiter : isDelimiter c = true) {mode : Mode}
    {offset : Nat} (code : (mode.next offset c).2.isCode = true)
    : (mode.next offset c).2 = .gap := by
  have entered := enter_delimiter delimiter offset
  cases mode with
  | gap | comment | hash | word | string | escape | unclosed =>
      grind [Mode.next, Mode.isCode]

/-- A text that ends with a delimiter leaves no token open. -/
theorem after_eq_gap {cs escaped : List Char} (finished : Finished cs escaped)
    (sameLine : '\n' ∉ escaped) (ends : ∀ c ∈ cs.getLast?, isDelimiter c = true) (offset : Nat)
    : Mode.gap.after offset cs = .gap := by
  have code : (Mode.gap.after offset cs).isCode = true := isCode_after finished sameLine rfl offset
  rcases List.eq_nil_or_concat cs with rfl | ⟨front, c, rfl⟩
  · rfl
  · rw [List.concat_eq_append] at code ends ⊢
    rw [Mode.after_append] at code ⊢
    exact eq_gap_of_delimiter (ends c (by simp)) code

-----------------------------------------------------------------------------------------
-- Words
-----------------------------------------------------------------------------------------

/-- A written numeral is the token of its value. -/
theorem ofWord_of_written {word : List Char} {k : Numeral} (written : Numeral.Written word k)
    : Token.ofWord word = .number k.value := by
  rw [Token.ofWord, Numeral.ofChars?_of_written written]

/-- A word that is no written numeral is a symbol. -/
theorem ofWord_of_not_written {word : List Char} (noNumeral : ∀ k, ¬ Numeral.Written word k)
    : Token.ofWord word = .symbol (String.ofList word) := by
  have unread : Numeral.ofChars? word = none := by
    rw [Option.eq_none_iff_forall_ne_some]
    exact fun k read => noNumeral k (Numeral.ofChars?_eq_some_iff.mp read)
  rw [Token.ofWord, unread]

/-- Lexemes before a lexeme stop before it, and lexemes behind it start behind it. -/
theorem lexemes_apart {text : String} {front back : List Lexeme} {lexeme : Lexeme}
    (lexed : lex text.toList = front ++ lexeme :: back)
    : (∀ earlier ∈ front, earlier.stop ≤ lexeme.start)
      ∧ ∀ later ∈ back, lexeme.stop ≤ later.start := by
  have inOrder := lex_inOrder text
  rw [lexed] at inOrder
  obtain ⟨middle, inFront, inRest⟩ := inOrder.of_append
  obtain _ | ⟨le_start, _, here, inBack⟩ := inRest
  rw [here.start_eq, here.stop_eq]
  constructor
  · intro earlier member
    obtain ⟨_, _, _, _, le, there⟩ := inFront.exists_extent member
    rw [there.stop_eq]
    exact Nat.le_trans le le_start
  · intro later member
    obtain ⟨_, _, le, _, _, there⟩ := inBack.exists_extent member
    rw [there.start_eq]
    exact le

/-- The token of a word is a number exactly if all of the word is a numeral. -/
theorem ofWord_isNumber_iff {word : List Char}
    : (∃ value, Token.ofWord word = .number value) ↔ ∃ k, Numeral.Written word k := by
  constructor
  · rintro ⟨value, isNumber⟩
    by_contra noNumeral
    rw [ofWord_of_not_written (not_exists.mp noNumeral)] at isNumber
    cases isNumber
  · rintro ⟨k, written⟩
    exact ⟨k.value, ofWord_of_written written⟩

/-- Take a longest run of characters other than delimiters that stands outside string literals and
comments and does not begin with a hash sign. If no literal before it has a line break behind a
backslash, it is one token of the text and all other lexemes lie before or behind it; the token is
the number that a numeral stands for if the whole run is one, and the symbol named by the run
otherwise. If a literal before it has such a line break, the run is lost: the last lexeme begins
before it and reaches to the end of the text, as an unterminated literal.
-/
theorem word_lexed {text : String} {before word after escaped : List Char}
    (splits : text.toList = before ++ (word ++ after)) (outside : Finished before escaped)
    (isWord : IsWord word) (begins : ∀ c ∈ before.getLast?, isDelimiter c = true)
    (ends : ∀ c ∈ after.head?, isDelimiter c = true)
    : ('\n' ∉ escaped
        → ∃ front token back,
            lex text.toList = front ++ ⟨size before, size before + size word, .ok token⟩ :: back
            ∧ (∀ lexeme ∈ front, lexeme.stop ≤ size before)
            ∧ (∀ lexeme ∈ back, size before + size word ≤ lexeme.start)
            ∧ ((∃ value, token = .number value) ↔ ∃ k, Numeral.Written word k)
            ∧ (∀ k, Numeral.Written word k → token = .number k.value)
            ∧ ((∀ k, ¬ Numeral.Written word k) → token = .symbol (String.ofList word)))
      ∧ ('\n' ∈ escaped
          → ∃ front start,
              lex text.toList
                = front ++ [⟨start, size text.toList, .error .unterminatedString⟩]
              ∧ start < size before
              ∧ ∀ lexeme ∈ front, lexeme.stop ≤ start) := by
  constructor
  · intro sameLine
    have between := after_eq_gap outside sameLine begins 0
    have lexed : lex text.toList = lex before
        ++ ⟨size before, size before + size word, .ok (Token.ofWord word)⟩
          :: lexFrom .gap (size before + size word) after := by
      rw [splits, lex_eq_lexFrom, lexFrom_append between, Nat.zero_add,
        lexFrom_gap_word isWord ends, lex_eq_lexFrom]
    obtain ⟨inFront, inBack⟩ := lexemes_apart lexed
    exact ⟨_, _, _, lexed, inFront, inBack, ofWord_isNumber_iff, fun k => ofWord_of_written,
      ofWord_of_not_written⟩
  · intro broken
    have code : Mode.gap.isCode = true := rfl
    obtain ⟨start, earlier, unclosed⟩ := exists_unclosed_after outside broken code 0
    obtain ⟨front, lexed⟩ := lexFrom_append_unclosed unclosed (word ++ after)
    rw [← splits, Nat.zero_add, ← lex_eq_lexFrom] at lexed
    rw [Nat.zero_add] at earlier
    exact ⟨front, start, lexed, earlier, (lexemes_apart lexed).1⟩

/-- Behind a string literal that holds a semicolon, `1e+` is a symbol although a numeral begins it;
behind a quote mark, `-.5e1` is a number.
-/
theorem word_lexed_signs
    : (∃ front back,
        lex "(\"a;\"1e+)".toList = front ++ ⟨5, 8, .ok (.symbol "1e+")⟩ :: back
        ∧ (∀ lexeme ∈ front, lexeme.stop ≤ 5)
        ∧ ∀ lexeme ∈ back, 8 ≤ lexeme.start)
      ∧ ∃ front value back,
          lex "'-.5e1".toList = front ++ ⟨1, 6, .ok (.number value)⟩ :: back
          ∧ (∀ lexeme ∈ front, lexeme.stop ≤ 1)
          ∧ ∀ lexeme ∈ back, 6 ≤ lexeme.start := by
  constructor
  · have splits
        : "(\"a;\"1e+)".toList = ['(', '"', 'a', ';', '"'] ++ (['1', 'e', '+'] ++ [')']) := by
      rfl
    have closed : ClosedAs ['a', ';', '"'] ['a', ';'] [] [] :=
      ⟨.plain (by decide) (by decide) (.plain (by decide) (by decide) .nil), rfl⟩
    have outside : Finished ['(', '"', 'a', ';', '"'] [] :=
      .other (by decide) (by decide) (.string closed .nil)
    have isWord : IsWord ['1', 'e', '+'] := ⟨by simp, by simp, by simp [isDelimiter, isBlank]⟩
    have noNumeral k : ¬ Numeral.Written ['1', 'e', '+'] k := by
      intro written
      cases Numeral.ofChars?_of_written written
    obtain ⟨kept, _⟩ :=
      word_lexed splits outside isWord (by simp [isDelimiter]) (by simp [isDelimiter])
    obtain ⟨front, token, back, lexed, before, behind, _, _, symbol⟩ := kept (by simp)
    rw [symbol noNumeral] at lexed
    exact ⟨front, back, lexed, before, behind⟩
  · have splits : "'-.5e1".toList = ['\''] ++ (['-', '.', '5', 'e', '1'] ++ []) := by rfl
    have outside : Finished ['\''] [] := .other (by decide) (by decide) .nil
    have isWord : IsWord ['-', '.', '5', 'e', '1'] :=
      ⟨by simp, by simp, by simp [isDelimiter, isBlank]⟩
    have digit (c : Char) (isDigit : c.isDigit = true) : Numeral.IsDigits [c] :=
      ⟨by simp, by simpa using isDigit⟩
    have numeral : Numeral.Written ['-', '.', '5', 'e', '1'] ⟨true, ['5'], 1, 1⟩ :=
      .mk .minus (.fraction (digit '5' rfl)) (.some (.inl rfl) .none (digit '1' rfl))
    obtain ⟨kept, _⟩ := word_lexed splits outside isWord (by simp [isDelimiter]) (by simp)
    obtain ⟨front, token, back, lexed, before, behind, _, number, _⟩ := kept (by simp)
    rw [number _ numeral] at lexed
    exact ⟨front, _, back, lexed, before, behind⟩

/-- The word `c` stands outside of the literal, which is closed, and between delimiters. The line
break behind the backslash makes the literal an unterminated one, and the word is not lexed.
-/
theorem word_lost_lineBreak
    : Finished ['"', 'a', '\\', '\n', 'b', '"', ' '] ['\n']
      ∧ IsWord ['c']
      ∧ isDelimiter ' ' = true
      ∧ "\"a\\\nb\" c".toList = ['"', 'a', '\\', '\n', 'b', '"', ' '] ++ (['c'] ++ [])
      ∧ lex "\"a\\\nb\" c".toList = [⟨0, 8, .error .unterminatedString⟩] := by
  have closed : ClosedAs ['a', '\\', '\n', 'b', '"', ' '] ['a', '\\', '\n', 'b'] ['\n'] [' '] :=
    ⟨.plain (by decide) (by decide) (.pair '\n' (.plain (by decide) (by decide) .nil)), rfl⟩
  refine ⟨.string closed (.other (by decide) (by decide) .nil), ?_, rfl, rfl, rfl⟩
  exact ⟨by simp, by simp, by simp [isDelimiter, isBlank]⟩

end Lexer

end TypedScheme
