import TypedScheme.Proofs.Token.Tiling

/-! String literals among the lexemes.
A backslash in a string literal makes a pair with the character behind it, whichever it is, and the
first double quote outside such pairs closes the literal. Main statement: at a double quote that
begins a lexeme the literal is read up to the quote that closes it, but for one exception: a literal
with a line break behind a backslash counts as unterminated, wherever it is closed.
-/

namespace TypedScheme

namespace Text

-----------------------------------------------------------------------------------------
-- The inside of string literals
-----------------------------------------------------------------------------------------

/-- The text has no double quote outside of pairs, and these are the characters that stand behind
the backslashes of its pairs.
-/
inductive Paired : List Char → List Char → Prop
  | nil : Paired [] []
  | plain {c : Char} {cs escaped : List Char} (noQuote : c ≠ '"') (noBackslash : c ≠ '\\')
    (others : Paired cs escaped)
    : Paired (c :: cs) escaped
  | pair (c : Char) {cs escaped : List Char} (others : Paired cs escaped)
    : Paired ('\\' :: c :: cs) (c :: escaped)

/-- Behind its opening quote a literal has this inside, with these characters in its pairs, and the
text goes on behind the closing quote.
-/
structure ClosedAs (cs body escaped after : List Char) : Prop where
  paired : Paired body escaped
  splits : cs = body ++ '"' :: after

/-- The characters that a backslash may stand before. -/
def escapable : List Char := ['"', '\\', 'n', 'r', 't']

/-- The inside of a literal stands for the text: a pair for one character, any other character for
itself.
-/
inductive Decodes : List Char → List Char → Prop
  | nil : Decodes [] []
  | plain {c : Char} {cs decoded : List Char} (noBackslash : c ≠ '\\') (others : Decodes cs decoded)
    : Decodes (c :: cs) (c :: decoded)
  | pair {c d : Char} {cs decoded : List Char} (stands : unescapeChar? c = some d)
    (others : Decodes cs decoded)
    : Decodes ('\\' :: c :: cs) (d :: decoded)

/-- A character has no meaning behind a backslash exactly if it is not escapable. -/
theorem unescapeChar?_eq_none_iff {c : Char} : unescapeChar? c = none ↔ c ∉ escapable := by
  fun_cases unescapeChar? c with
  | case1 | case2 | case3 | case4 | case5 => simp [escapable]
  | case6 => simp_all [escapable]

/-- What may stand between the quotes of a literal. -/
theorem isStringBody_iff {body : List Char}
    : IsStringBody body ↔ ∃ escaped, Paired body escaped ∧ '\n' ∉ escaped := by
  constructor
  · intro isBody
    induction isBody with
    | nil => exact ⟨[], .nil, by simp⟩
    | plain noQuote noBackslash _ ih =>
        obtain ⟨escaped, paired, sameLine⟩ := ih
        exact ⟨escaped, .plain noQuote noBackslash paired, sameLine⟩
    | @escaped c _ here _ ih =>
        obtain ⟨escaped, paired, sameLine⟩ := ih
        exact ⟨c :: escaped, .pair c paired, by simp [Ne.symm here, sameLine]⟩
  · rintro ⟨escaped, paired, sameLine⟩
    induction paired with
    | nil => exact .nil
    | plain noQuote noBackslash _ ih => exact .plain noQuote noBackslash (ih sameLine)
    | pair c _ ih =>
        obtain ⟨here, others⟩ := not_or.mp (List.mem_cons.not.mp sameLine)
        exact .escaped (Ne.symm here) (ih others)

/-- What a body decodes to is what the lexer makes of it, by induction on the decoding. -/
theorem unescape?_of_decodes {body decoded : List Char} (decodes : Decodes body decoded)
    : unescape? body = some decoded := by
  induction decodes with
  | nil => rfl
  | plain noBackslash _ ih => rw [unescape?_cons noBackslash, ih, Option.map_some]
  | pair stands _ ih => simp only [unescape?, stands, ih, Option.map_some]

/-- A body whose escaped characters all have a meaning decodes to something, by induction on its
pairs.
-/
theorem exists_decodes {body escaped : List Char} (paired : Paired body escaped)
    (each : ∀ c ∈ escaped, c ∈ escapable)
    : ∃ decoded, Decodes body decoded := by
  induction paired with
  | nil => exact ⟨[], .nil⟩
  | plain _ noBackslash _ ih =>
      obtain ⟨decoded, decodes⟩ := ih each
      exact ⟨_ :: decoded, .plain noBackslash decodes⟩
  | pair c _ ih =>
      obtain ⟨here, others⟩ := List.forall_mem_cons.mp each
      obtain ⟨decoded, decodes⟩ := ih others
      have some : unescapeChar? c ≠ none := fun none => unescapeChar?_eq_none_iff.mp none here
      obtain ⟨d, stands⟩ := Option.ne_none_iff_exists'.mp some
      exact ⟨d :: decoded, .pair stands decodes⟩

/-- One character that cannot be escaped spoils the literal. -/
theorem unescape?_eq_none {body escaped : List Char} (paired : Paired body escaped)
    (wrong : ∃ c ∈ escaped, c ∉ escapable)
    : unescape? body = none := by
  induction paired with
  | nil => simp at wrong
  | plain _ noBackslash _ ih => rw [unescape?_cons noBackslash, ih wrong, Option.map_none]
  | pair c _ ih =>
      rw [unescape?]
      split
      · next d stands =>
          have here : c ∈ escapable := by
            by_contra outside
            simp [unescapeChar?_eq_none_iff.mpr outside] at stands
          obtain ⟨c', member, outside⟩ := wrong
          rcases List.mem_cons.mp member with rfl | later
          · exact absurd here outside
          · rw [ih ⟨c', later, outside⟩, Option.map_none]
      · rfl

/-- A literal that the lexer can read to its end is closed without a line break in its pairs. -/
theorem closes_iff {cs : List Char}
    : Closes cs ↔ ∃ body escaped after, ClosedAs cs body escaped after ∧ '\n' ∉ escaped := by
  constructor
  · rintro ⟨body, after, isBody, splits⟩
    obtain ⟨escaped, paired, sameLine⟩ := isStringBody_iff.mp isBody
    exact ⟨body, escaped, after, ⟨paired, splits⟩, sameLine⟩
  · rintro ⟨body, escaped, after, ⟨paired, splits⟩, sameLine⟩
    exact ⟨body, after, isStringBody_iff.mpr ⟨escaped, paired, sameLine⟩, splits⟩

end Text

namespace Lexer

open Text

-----------------------------------------------------------------------------------------
-- Lexemes that begin with a double quote
-----------------------------------------------------------------------------------------

/-- What can be taken where a lexeme begins is the lexeme, and the lexer goes on behind it. -/
theorem lexeme_eq_of_takes {cs before piece rest : List Char}
    (splits : cs = before ++ (piece ++ rest))
    {front back : List Lexeme} {lexeme : Lexeme} (lexed : lex cs = front ++ lexeme :: back)
    (starts : lexeme.start = size before) {content : Except LexicalError Token}
    (takes : Takes piece rest content)
    : lexeme = ⟨size before, size before + size piece, content⟩
      ∧ back = lexFrom .gap lexeme.stop rest := by
  obtain ⟨before', piece', rest', splits', start_eq, stop_eq, takes', goesOn⟩ :=
    exists_piece_of_lexeme lexed
  obtain ⟨rfl, same⟩ := append_inj_of_size (splits.symm.trans splits') (starts.symm.trans start_eq)
  have here := lexFrom_takes takes (size before)
  rw [same, lexFrom_takes takes', ← start_eq, ← stop_eq, ← goesOn] at here
  obtain ⟨first, others⟩ := List.cons.inj here
  have isLexeme : lexeme = ⟨lexeme.start, lexeme.start + size piece, content⟩ := first
  rw [start_eq] at isLexeme others
  exact ⟨isLexeme, isLexeme ▸ others⟩

/-- The lexeme is all of a closed literal, and the lexer goes on right behind the closing quote. It
is the text that the literal stands for if all its pairs stand for something, and otherwise an
error.
-/
structure ReadsLiteral (before body escaped after : List Char) (lexeme : Lexeme)
    (back : List Lexeme) : Prop where
  start_eq : lexeme.start = size before
  stop_eq : lexeme.stop = size (before ++ '"' :: (body ++ ['"']))
  goesOn : back = lexFrom .gap lexeme.stop after
  decoded
    : (∀ c ∈ escaped, c ∈ escapable)
      → ∃ decoded, Decodes body decoded ∧ lexeme.content = .ok (.string (String.ofList decoded))
  invalid : (∃ c ∈ escaped, c ∉ escapable) → lexeme.content = .error .invalidEscape

/-- A closed literal without an escaped line break is read, up to its closing quote. -/
theorem readsLiteral_of_closed {cs before rest : List Char} (splits : cs = before ++ '"' :: rest)
    {front back : List Lexeme} {lexeme : Lexeme} (lexed : lex cs = front ++ lexeme :: back)
    (starts : lexeme.start = size before) {body escaped after : List Char}
    (closed : ClosedAs rest body escaped after) (sameLine : '\n' ∉ escaped)
    : ReadsLiteral before body escaped after lexeme back := by
  obtain ⟨paired, rfl⟩ := closed
  have isBody := isStringBody_iff.mpr ⟨escaped, paired, sameLine⟩
  have splits' : cs = before ++ ('"' :: (body ++ ['"']) ++ after) := by simpa using splits
  have total
      : size before + size ('"' :: (body ++ ['"'])) = size (before ++ '"' :: (body ++ ['"'])) :=
    (size_append _ _).symm
  by_cases each : ∀ c ∈ escaped, c ∈ escapable
  · obtain ⟨decoded, decodes⟩ := exists_decodes paired each
    obtain ⟨rfl, goesOn⟩ :=
      lexeme_eq_of_takes splits' lexed starts (.string isBody (unescape?_of_decodes decodes) after)
    refine ⟨rfl, total, goesOn, fun _ => ⟨decoded, decodes, rfl⟩, ?_⟩
    rintro ⟨c, member, outside⟩
    exact absurd (each c member) outside
  · have wrong : ∃ c ∈ escaped, c ∉ escapable := by simpa using each
    obtain ⟨rfl, goesOn⟩ :=
      lexeme_eq_of_takes splits' lexed starts
        (.invalidEscape isBody (unescape?_eq_none paired wrong) after)
    exact ⟨rfl, total, goesOn, fun right => absurd right each, fun _ => rfl⟩

/-- A literal that is read is not unterminated. -/
theorem ReadsLiteral.not_unterminated {before body escaped after : List Char} {lexeme : Lexeme}
    {back : List Lexeme} (reads : ReadsLiteral before body escaped after lexeme back)
    : lexeme.content ≠ .error .unterminatedString := by
  by_cases each : ∀ c ∈ escaped, c ∈ escapable
  · obtain ⟨_, _, content⟩ := reads.decoded each
    simp [content]
  · simp [reads.invalid (by simpa using each)]

/-- At a double quote where a lexeme begins, a literal that is closed without a line break in its
pairs is read to its closing quote. Any other counts as unterminated: one that is never closed, and
one that is closed but has a line break behind a backslash.
-/
theorem string_lexed {text : String} {before rest : List Char}
    (splits : text.toList = before ++ '"' :: rest) {front back : List Lexeme} {lexeme : Lexeme}
    (lexed : lex text.toList = front ++ lexeme :: back) (starts : lexeme.start = size before)
    : (lexeme.content = .error .unterminatedString
        ↔ ∀ body escaped after, ClosedAs rest body escaped after → '\n' ∈ escaped)
      ∧ ∀ body escaped after,
          ClosedAs rest body escaped after
          → '\n' ∉ escaped
          → ReadsLiteral before body escaped after lexeme back := by
  refine ⟨⟨?_, ?_⟩, fun _ _ _ => readsLiteral_of_closed splits lexed starts⟩
  · intro unterminated body escaped after closed
    by_contra sameLine
    have reads := readsLiteral_of_closed splits lexed starts closed sameLine
    exact reads.not_unterminated unterminated
  · intro broken
    have unclosed : ¬ Closes rest := by
      rw [closes_iff]
      rintro ⟨body, escaped, after, closed, sameLine⟩
      exact sameLine (broken body escaped after closed)
    have splits' : text.toList = before ++ ('"' :: rest ++ []) := by simpa using splits
    obtain ⟨rfl, _⟩ := lexeme_eq_of_takes splits' lexed starts (.unterminated unclosed)
    rfl

/-- A literal with an escaped quote, one with a wrong pair and a symbol right behind it, and one
that is not closed.
-/
def threeLiterals : String := "\"é\\\"\" \"\\q\"x \"b"

/-- A valid literal, one with an invalid escape and one that is not closed. -/
theorem string_lexed_threeLiterals
    : lex threeLiterals.toList
        = [⟨0, 6, .ok (.string "é\"")⟩, ⟨7, 11, .error .invalidEscape⟩, ⟨11, 12, .ok (.symbol "x")⟩,
          ⟨13, 15, .error .unterminatedString⟩]
      ∧ ReadsLiteral [] ['é', '\\', '"'] ['"'] " \"\\q\"x \"b".toList
          ⟨0, 6, .ok (.string "é\"")⟩
          [⟨7, 11, .error .invalidEscape⟩, ⟨11, 12, .ok (.symbol "x")⟩,
            ⟨13, 15, .error .unterminatedString⟩]
      ∧ ReadsLiteral "\"é\\\"\" ".toList ['\\', 'q'] ['q'] "x \"b".toList
          ⟨7, 11, .error .invalidEscape⟩
          [⟨11, 12, .ok (.symbol "x")⟩, ⟨13, 15, .error .unterminatedString⟩]
      ∧ ∀ body escaped after, ClosedAs ['b'] body escaped after → '\n' ∈ escaped := by
  have lexed
      : lex threeLiterals.toList
        = [⟨0, 6, .ok (.string "é\"")⟩, ⟨7, 11, .error .invalidEscape⟩, ⟨11, 12, .ok (.symbol "x")⟩,
          ⟨13, 15, .error .unterminatedString⟩] := by
    rfl
  have first := @string_lexed threeLiterals [] _ rfl [] _ _ lexed rfl
  have second := @string_lexed threeLiterals "\"é\\\"\" ".toList _ rfl [_] _ _ lexed rfl
  have third :=
    @string_lexed threeLiterals "\"é\\\"\" \"\\q\"x ".toList ['b'] rfl [_, _, _] _ _ lexed rfl
  refine ⟨lexed, ?_, ?_, third.1.mp rfl⟩
  · exact first.2 _ _ _ ⟨.plain (by decide) (by decide) (.pair _ .nil), rfl⟩ (by decide)
  · exact second.2 _ _ _ ⟨.pair _ .nil, rfl⟩ (by decide)

/-- A literal is closed and still counts as unterminated, because of the line break behind its
backslash. The symbol behind the closing quote is lost.
-/
theorem string_unterminated_lineBreak
    : ClosedAs "a\\\nb\" c".toList ['a', '\\', '\n', 'b'] ['\n'] [' ', 'c']
      ∧ lex "\"a\\\nb\" c".toList = [⟨0, 8, .error .unterminatedString⟩] :=
  ⟨⟨.plain (by decide) (by decide) (.pair '\n' (.plain (by decide) (by decide) .nil)), rfl⟩, rfl⟩

end Lexer

end TypedScheme
