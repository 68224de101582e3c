import Mathlib.Data.List.Induction
import TypedScheme.Proofs.Token.Lexing
import TypedScheme.Proofs.Token.Spans

/-! Lexemes and gaps make up a text.
A text is cut into pieces that are lexemes by the rules of the language, with blanks and comments
between them. There is exactly one way to do so, and it is what the lexer finds. Main statement:
nothing but blanks and comments stands outside the lexemes of a text.
-/

namespace TypedScheme

namespace Text

-----------------------------------------------------------------------------------------
-- Gaps and string literals
-----------------------------------------------------------------------------------------

/-- The text between two lexemes: blanks, and comments up to the end of their lines. -/
inductive IsGap : List Char → Prop
  | nil : IsGap []
  | blank {c : Char} {rest : List Char} (isBlank : isBlank c = true) (others : IsGap rest)
    : IsGap (c :: rest)
  | comment {line rest : List Char} (oneLine : '\n' ∉ line) (others : IsGap rest)
    : IsGap (';' :: (line ++ '\n' :: rest))

/-- The text after the last lexeme, where the end of the text may end a comment. -/
inductive IsLastGap : List Char → Prop
  | gap {cs : List Char} (isGap : IsGap cs) : IsLastGap cs
  | comment {cs line : List Char} (isGap : IsGap cs) (oneLine : '\n' ∉ line)
    : IsLastGap (cs ++ ';' :: line)

/-- What may stand between the quotes of a string literal. A backslash takes the next character with
it, which must not be a line break.
-/
inductive IsStringBody : List Char → Prop
  | nil : IsStringBody []
  | plain {c : Char} {cs : List Char} (noQuote : c ≠ '"') (noBackslash : c ≠ '\\')
    (others : IsStringBody cs)
    : IsStringBody (c :: cs)
  | escaped {c : Char} {cs : List Char} (sameLine : c ≠ '\n') (others : IsStringBody cs)
    : IsStringBody ('\\' :: c :: cs)

/-- The text behind an opening quote begins with the rest of a string literal. -/
def Closes (cs : List Char) : Prop := ∃ body rest, IsStringBody body ∧ cs = body ++ '"' :: rest

/-- Gaps put one after the other are a gap, by induction on the first one. -/
theorem IsGap.append {cs ds : List Char} (front : IsGap cs) (back : IsGap ds)
    : IsGap (cs ++ ds) := by
  induction front with
  | nil => exact back
  | blank isBlank _ ih => exact .blank isBlank ih
  | comment oneLine _ ih =>
      rw [List.cons_append, List.append_assoc, List.cons_append]
      exact .comment oneLine ih

/-- A gap before the last one belongs to it. -/
theorem IsLastGap.after {cs ds : List Char} (back : IsLastGap ds) (front : IsGap cs)
    : IsLastGap (cs ++ ds) := by
  cases back with
  | gap isGap => exact .gap (front.append isGap)
  | comment isGap oneLine =>
      rw [← List.append_assoc]
      exact .comment (front.append isGap) oneLine

end Text

namespace Lexer

open Text

-----------------------------------------------------------------------------------------
-- Pieces of a text
-----------------------------------------------------------------------------------------

/-- The piece is one lexeme of this content, where the rest of the text follows it. -/
inductive Takes : List Char → List Char → Except LexicalError Token → Prop
  | openParen (rest : List Char) : Takes ['('] rest (.ok .openParen)
  | closeParen (rest : List Char) : Takes [')'] rest (.ok .closeParen)
  | quote (rest : List Char) : Takes ['\''] rest (.ok .quote)
  | yes (rest : List Char) : Takes ['#', 't'] rest (.ok (.boolean true))
  | no (rest : List Char) : Takes ['#', 'f'] rest (.ok (.boolean false))
  | word {word rest : List Char} (isWord : IsWord word) (bounded : Bounded rest)
    : Takes word rest (.ok (Token.ofWord word))
  | string {body decoded : List Char} (isBody : IsStringBody body)
    (decodes : unescape? body = some decoded) (rest : List Char)
    : Takes ('"' :: (body ++ ['"'])) rest (.ok (.string (String.ofList decoded)))
  | invalidEscape {body : List Char} (isBody : IsStringBody body) (wrong : unescape? body = none)
    (rest : List Char)
    : Takes ('"' :: (body ++ ['"'])) rest (.error .invalidEscape)
  | hash {rest : List Char} (noTrue : rest.head? ≠ some 't') (noFalse : rest.head? ≠ some 'f')
    : Takes ['#'] rest (.error .unexpectedChar)
  | unterminated {cs : List Char} (unclosed : ¬ Closes cs)
    : Takes ('"' :: cs) [] (.error .unterminatedString)

/-- The text from byte `offset` on is made up of the lexemes and the gaps around them. -/
inductive Tiles : Nat → List Char → List Lexeme → Prop
  | last {offset : Nat} {cs : List Char} (isLastGap : IsLastGap cs) : Tiles offset cs []
  | lexeme {offset : Nat} {gap piece rest : List Char} {lexeme : Lexeme} {lexemes : List Lexeme}
    (isGap : IsGap gap) (takes : Takes piece rest lexeme.content)
    (start_eq : lexeme.start = offset + size gap) (stop_eq : lexeme.stop = lexeme.start + size piece)
    (others : Tiles lexeme.stop rest lexemes)
    : Tiles offset (gap ++ (piece ++ rest)) (lexeme :: lexemes)

/-- A lexeme takes at least one character. -/
theorem Takes.ne_nil {piece rest : List Char} {content : Except LexicalError Token}
    (takes : Takes piece rest content)
    : piece ≠ [] := by
  cases takes with
  | word isWord => exact isWord.nonempty
  | openParen | closeParen | quote | yes | no | string | invalidEscape | hash | unterminated =>
      nofun

/-- A number is taken from a numeral. -/
theorem Takes.exists_numeral {piece rest : List Char} {n : Number}
    (takes : Takes piece rest (.ok (.number n)))
    : ∃ k, Numeral.ofChars? piece = some k ∧ k.value = n := by
  generalize isNumber : (.ok (.number n) : Except LexicalError Token) = content at takes
  cases takes with
  | word =>
      rw [Token.ofWord] at isNumber
      split at isNumber
      · next k numeral =>
          cases isNumber
          exact ⟨k, numeral, rfl⟩
      · cases isNumber
  | openParen | closeParen | quote | yes | no | string | invalidEscape | hash | unterminated =>
      cases isNumber

-----------------------------------------------------------------------------------------
-- The lexer follows the rules
-----------------------------------------------------------------------------------------

/-- Inside a comment the lexer goes on to the end of the line, by induction on the line. -/
theorem lexFrom_comment {line : List Char} (oneLine : '\n' ∉ line) (offset : Nat)
    (rest : List Char)
    : lexFrom .comment offset (line ++ rest) = lexFrom .comment (offset + size line) rest := by
  induction line generalizing offset with
  | nil => rfl
  | cons c line ih =>
      have inside : c ≠ '\n' := fun same => oneLine (by simp [same])
      rw [List.cons_append, lexFrom_cons]
      simp only [Mode.next, inside, if_false, List.reverse_nil, List.nil_append]
      rw [ih fun member => oneLine (by simp [member])]
      simp [Nat.add_assoc]

/-- A semicolon begins a comment. -/
theorem lexFrom_semicolon (offset : Nat) (rest : List Char)
    : lexFrom .gap offset (';' :: rest) = lexFrom .comment (offset + 1) rest := by
  rw [lexFrom_cons]
  rfl

/-- Nothing is found in a gap, by induction on the gap. -/
theorem lexFrom_isGap {gap : List Char} (isGap : IsGap gap) (offset : Nat) (rest : List Char)
    : lexFrom .gap offset (gap ++ rest) = lexFrom .gap (offset + size gap) rest := by
  induction isGap generalizing offset with
  | nil => rfl
  | blank isBlank _ ih =>
      rw [List.cons_append, lexFrom_cons]
      simp only [Mode.next, enter, isBlank, if_true, List.reverse_nil, List.nil_append]
      rw [ih, size_cons, Nat.add_assoc]
  | @comment line others oneLine _ ih =>
      rw [List.cons_append, List.append_assoc, List.cons_append, lexFrom_semicolon,
        lexFrom_comment oneLine, lexFrom_cons]
      simp only [Mode.next, if_true, List.reverse_nil, List.nil_append]
      rw [ih]
      simp only [size_cons, size_append, Nat.add_assoc]
      rfl

/-- Nothing is found in the last gap. -/
theorem lexFrom_isLastGap {cs : List Char} (isLastGap : IsLastGap cs) (offset : Nat)
    : lexFrom .gap offset cs = [] := by
  cases isLastGap with
  | gap isGap =>
      have read := lexFrom_isGap isGap offset []
      rwa [List.append_nil] at read
  | @comment gap line isGap oneLine =>
      have read := lexFrom_comment oneLine (offset + size gap + 1) []
      rw [List.append_nil] at read
      rw [lexFrom_isGap isGap, lexFrom_semicolon, read]
      rfl

/-- What may stand in a string literal goes on with it. -/
theorem lexFrom_string_body {body : List Char} (isBody : IsStringBody body) (start offset : Nat)
    (chars rest : List Char)
    : lexFrom (.string start chars) offset (body ++ rest)
      = lexFrom (.string start (body.reverse ++ chars)) (offset + size body) rest := by
  induction isBody generalizing offset chars with
  | nil => rfl
  | plain noQuote noBackslash _ ih =>
      rw [List.cons_append, lexFrom_cons]
      simp only [Mode.next, noQuote, noBackslash, if_false, List.reverse_nil, List.nil_append]
      rw [ih]
      simp [Nat.add_assoc]
  | @escaped c others sameLine _ ih =>
      rw [List.cons_append, List.cons_append, lexFrom_cons, Mode.next, if_neg (by decide),
        if_pos rfl, lexFrom_cons, Mode.next, if_neg sameLine]
      simp only [List.reverse_nil, List.nil_append]
      rw [ih]
      simp [Nat.add_assoc]

/-- A closed string literal is one lexeme. -/
theorem lexFrom_string {body : List Char} (isBody : IsStringBody body) (offset : Nat)
    (rest : List Char)
    : lexFrom .gap offset ('"' :: (body ++ ['"']) ++ rest)
      = stringLexeme offset (offset + size ('"' :: (body ++ ['"']))) body.reverse
        :: lexFrom .gap (offset + size ('"' :: (body ++ ['"']))) rest := by
  have opened
      : lexFrom .gap offset ('"' :: (body ++ ['"']) ++ rest)
        = lexFrom (.string offset []) (offset + 1) (body ++ '"' :: rest) := by
    rw [List.cons_append, List.append_assoc, lexFrom_cons]
    rfl
  have total : offset + size ('"' :: (body ++ ['"'])) = offset + 1 + size body + 1 := by
    simp only [size_cons, size_append, size_nil, Nat.add_assoc]
    rfl
  rw [opened, total, lexFrom_string_body isBody, lexFrom_cons]
  simp only [Mode.next, if_true, List.append_nil]
  rfl

/-- A character that is neither a quote nor a backslash leaves a closing quote where it is. -/
theorem closes_plain {c : Char} {cs : List Char} (noQuote : c ≠ '"') (noBackslash : c ≠ '\\')
    (closes : Closes cs)
    : Closes (c :: cs) := by
  obtain ⟨body, rest, isBody, rfl⟩ := closes
  exact ⟨c :: body, rest, .plain noQuote noBackslash isBody, rfl⟩

/-- So does an escaped character of the same line. -/
theorem closes_escaped {c : Char} {cs : List Char} (sameLine : c ≠ '\n') (closes : Closes cs)
    : Closes ('\\' :: c :: cs) := by
  obtain ⟨body, rest, isBody, rfl⟩ := closes
  exact ⟨'\\' :: c :: body, rest, .escaped sameLine isBody, rfl⟩

/-- A literal that is not closed takes the rest of the text, by induction on the rest. -/
theorem lexFrom_unclosed (start offset : Nat) (cs : List Char)
    : lexFrom (.unclosed start) offset cs
      = [⟨start, offset + size cs, .error .unterminatedString⟩] := by
  induction cs generalizing offset with
  | nil => rfl
  | cons c cs ih =>
      rw [lexFrom_cons, Mode.next, ih]
      simp [Nat.add_assoc]

/-- A string literal that is never closed reaches to the end of the text, by induction on one or two
characters at a time.
-/
theorem lexFrom_unterminated {cs : List Char} (unclosed : ¬ Closes cs) (start offset : Nat)
    (chars : List Char)
    : lexFrom (.string start chars) offset cs
      = [⟨start, offset + size cs, .error .unterminatedString⟩] := by
  have noQuote {rest : List Char} : ¬ Closes ('"' :: rest) → False :=
    fun unclosed => unclosed ⟨[], rest, .nil, rfl⟩
  induction cs using List.twoStepInduction generalizing offset chars with
  | nil => rfl
  | singleton c =>
      by_cases quote : c = '"'
      · subst quote
        exact absurd unclosed noQuote
      · rw [lexFrom_cons, Mode.next, if_neg quote]
        split
        · simp [lexFrom_nil, Mode.finish]
        · simp [lexFrom_nil, Mode.finish]
  | cons_cons c d rest ih ihNext =>
      by_cases quote : c = '"'
      · subst quote
        exact absurd unclosed noQuote
      · rw [lexFrom_cons, Mode.next, if_neg quote]
        by_cases backslash : c = '\\'
        · subst backslash
          rw [if_pos rfl, lexFrom_cons, Mode.next]
          by_cases newline : d = '\n'
          · subst newline
            rw [if_pos rfl, lexFrom_unclosed]
            simp [Nat.add_assoc]
          · rw [if_neg newline, ih fun closes => unclosed (closes_escaped newline closes)]
            simp [Nat.add_assoc]
        · rw [if_neg backslash,
            ihNext d fun closes => unclosed (closes_plain quote backslash closes)]
          simp [Nat.add_assoc]

/-- A hash sign that begins neither truth value is one lexeme. -/
theorem lexFrom_hash {rest : List Char} (noTrue : rest.head? ≠ some 't')
    (noFalse : rest.head? ≠ some 'f') (offset : Nat)
    : lexFrom .gap offset ('#' :: rest)
      = hashLexeme offset :: lexFrom .gap (offset + 1) rest := by
  have opened : lexFrom .gap offset ('#' :: rest) = lexFrom (.hash offset) (offset + 1) rest := by
    rw [lexFrom_cons]
    rfl
  rw [opened]
  cases rest with
  | nil => rfl
  | cons c rest =>
      have isNotTrue : c ≠ 't' := fun same => noTrue (by simp [same])
      have isNotFalse : c ≠ 'f' := fun same => noFalse (by simp [same])
      rw [lexFrom_cons, lexFrom_cons]
      simp [Mode.next, isNotTrue, isNotFalse]

/-- What is a lexeme by the rules is one for the lexer. -/
theorem lexFrom_takes {piece rest : List Char} {content : Except LexicalError Token}
    (takes : Takes piece rest content) (offset : Nat)
    : lexFrom .gap offset (piece ++ rest)
      = ⟨offset, offset + size piece, content⟩ :: lexFrom .gap (offset + size piece) rest := by
  cases takes with
  | openParen | closeParen | quote =>
      rw [List.singleton_append, lexFrom_cons]
      rfl
  | yes | no =>
      rw [List.cons_append, List.singleton_append, lexFrom_cons, lexFrom_cons]
      rfl
  | word isWord bounded => exact lexFrom_gap_word isWord bounded offset
  | string isBody decodes =>
      rw [lexFrom_string isBody, stringLexeme, List.reverse_reverse, decodes]
  | invalidEscape isBody wrong =>
      rw [lexFrom_string isBody, stringLexeme, List.reverse_reverse, wrong]
  | hash noTrue noFalse => exact lexFrom_hash noTrue noFalse offset
  | @unterminated cs unclosed =>
      have opened
          : lexFrom .gap offset ('"' :: cs ++ [])
            = lexFrom (.string offset []) (offset + 1) cs := by
        rw [List.append_nil, lexFrom_cons]
        rfl
      rw [opened, lexFrom_unterminated unclosed, size_cons, Nat.add_assoc]
      rfl

/-- There is one tiling of a text, that of the lexer, by induction on the tiles. -/
theorem eq_lexFrom_of_tiles {offset : Nat} {cs : List Char} {lexemes : List Lexeme}
    (tiles : Tiles offset cs lexemes)
    : lexemes = lexFrom .gap offset cs := by
  induction tiles with
  | last isLastGap => exact (lexFrom_isLastGap isLastGap _).symm
  | lexeme isGap takes start_eq stop_eq _ ih =>
      rw [lexFrom_isGap isGap, lexFrom_takes takes, ih, ← start_eq, ← stop_eq]

-----------------------------------------------------------------------------------------
-- Every text is made up of lexemes and gaps
-----------------------------------------------------------------------------------------

/-- A gap may stand before a tiling. -/
theorem Tiles.after_gap {offset : Nat} {gap rest : List Char} {lexemes : List Lexeme}
    (tiles : Tiles (offset + size gap) rest lexemes) (isGap : IsGap gap)
    : Tiles offset (gap ++ rest) lexemes := by
  cases tiles with
  | last isLastGap => exact .last (isLastGap.after isGap)
  | lexeme isGap' takes start_eq stop_eq others =>
      rw [← List.append_assoc]
      refine .lexeme (isGap.append isGap') takes ?_ stop_eq others
      rw [start_eq, size_append, Nat.add_assoc]

/-- A character that may stand in a word begins a lexeme. -/
theorem exists_takes_word {c : Char} (inside : isDelimiter c = false) (noHash : c ≠ '#')
    (cs : List Char)
    : ∃ piece rest content, Takes piece rest content ∧ c :: cs = piece ++ rest := by
  let isInside (d : Char) : Bool := !isDelimiter d
  have isWord : IsWord (c :: cs.takeWhile isInside) := by
    refine ⟨by simp, by simpa using noHash, ?_⟩
    intro d member
    rcases List.mem_cons.mp member with rfl | later
    · exact inside
    · simpa [isInside] using List.all_eq_true.mp List.all_takeWhile d later
  have bounded : Bounded (cs.dropWhile isInside) := by
    intro d first
    have stops := List.head?_dropWhile_not isInside cs
    rw [Option.mem_def.mp first] at stops
    simpa [isInside] using stops
  refine ⟨_, _, _, .word isWord bounded, ?_⟩
  rw [List.cons_append, List.takeWhile_append_dropWhile]

/-- A hash begins a lexeme, whatever follows. -/
theorem exists_takes_hash (cs : List Char)
    : ∃ piece rest content, Takes piece rest content ∧ '#' :: cs = piece ++ rest := by
  by_cases yes : cs.head? = some 't'
  · obtain ⟨rest, rfl⟩ := List.head?_eq_some_iff.mp yes
    exact ⟨_, rest, _, .yes rest, rfl⟩
  · by_cases no : cs.head? = some 'f'
    · obtain ⟨rest, rfl⟩ := List.head?_eq_some_iff.mp no
      exact ⟨_, rest, _, .no rest, rfl⟩
    · exact ⟨_, cs, _, .hash yes no, rfl⟩

/-- A quote begins a lexeme, whatever follows. -/
theorem exists_takes_string (cs : List Char)
    : ∃ piece rest content, Takes piece rest content ∧ '"' :: cs = piece ++ rest := by
  by_cases closes : Closes cs
  · obtain ⟨body, rest, isBody, rfl⟩ := closes
    have splits : '"' :: (body ++ '"' :: rest) = '"' :: (body ++ ['"']) ++ rest := by simp
    cases decoded : unescape? body with
    | some text => exact ⟨_, rest, _, .string isBody decoded rest, splits⟩
    | none => exact ⟨_, rest, _, .invalidEscape isBody decoded rest, splits⟩
  · exact ⟨'"' :: cs, [], _, .unterminated closes, by simp⟩

/-- Any character but a blank or a semicolon begins a lexeme. -/
theorem exists_takes {c : Char} (noBlank : isBlank c = false) (noComment : c ≠ ';') (cs : List Char)
    : ∃ piece rest content, Takes piece rest content ∧ c :: cs = piece ++ rest := by
  by_cases opens : c = '('
  · exact ⟨_, cs, _, .openParen cs, by rw [opens]; rfl⟩
  by_cases closes : c = ')'
  · exact ⟨_, cs, _, .closeParen cs, by rw [closes]; rfl⟩
  by_cases quotes : c = '\''
  · exact ⟨_, cs, _, .quote cs, by rw [quotes]; rfl⟩
  by_cases string : c = '"'
  · subst string
    exact exists_takes_string cs
  by_cases hash : c = '#'
  · subst hash
    exact exists_takes_hash cs
  · refine exists_takes_word ?_ hash cs
    simp [isDelimiter, noBlank, noComment, opens, closes, quotes, string]

/-- A text that is not empty begins with a gap or with a lexeme, or it is a comment. -/
theorem exists_gap_or_takes (c : Char) (cs : List Char)
    : IsLastGap (c :: cs)
      ∨ (∃ gap rest, IsGap gap ∧ gap ≠ [] ∧ c :: cs = gap ++ rest)
      ∨ ∃ piece rest content, Takes piece rest content ∧ c :: cs = piece ++ rest := by
  by_cases blank : isBlank c = true
  · exact .inr (.inl ⟨[c], cs, .blank blank .nil, by simp, rfl⟩)
  by_cases comment : c = ';'
  · subst comment
    by_cases broken : '\n' ∈ cs
    · obtain ⟨line, rest, rfl, oneLine⟩ := List.eq_append_cons_of_mem broken
      exact .inr (.inl ⟨';' :: (line ++ ['\n']), rest, .comment oneLine .nil, by simp, by simp⟩)
    · exact .inl (.comment .nil broken)
  · exact .inr (.inr (exists_takes (by simpa using blank) comment cs))

/-- Every text is tiled by lexemes, by induction on its length. -/
theorem exists_tiles (offset : Nat) (cs : List Char) : ∃ lexemes, Tiles offset cs lexemes := by
  induction length : cs.length using Nat.strongRecOn generalizing offset cs with
  | ind n ih =>
      have behind {piece rest : List Char} (nonempty : piece ≠ []) (splits : cs = piece ++ rest)
          : ∃ lexemes, Tiles (offset + size piece) rest lexemes := by
        have positive := List.length_pos_iff.mpr nonempty
        have total := congrArg List.length splits
        rw [List.length_append] at total
        exact ih rest.length (by omega) _ rest rfl
      cases cs with
      | nil => exact ⟨[], .last (.gap .nil)⟩
      | cons c cs =>
          rcases exists_gap_or_takes c cs
            with isLastGap | ⟨gap, rest, isGap, nonempty, splits⟩
              | ⟨piece, rest, content, takes, splits⟩
          · exact ⟨[], .last isLastGap⟩
          · obtain ⟨lexemes, tiles⟩ := behind nonempty splits
            exact ⟨lexemes, splits ▸ tiles.after_gap isGap⟩
          · obtain ⟨lexemes, tiles⟩ := behind takes.ne_nil splits
            let lexeme : Lexeme := ⟨offset, offset + size piece, content⟩
            exact ⟨lexeme :: lexemes, splits ▸ .lexeme .nil takes rfl rfl tiles⟩

/-- The lexer finds the one way to cut a text into lexemes and gaps. -/
theorem tiles_iff {offset : Nat} {cs : List Char} {lexemes : List Lexeme}
    : Tiles offset cs lexemes ↔ lexemes = lexFrom .gap offset cs := by
  constructor
  · exact eq_lexFrom_of_tiles
  · rintro rfl
    obtain ⟨lexemes, tiles⟩ := exists_tiles offset cs
    exact eq_lexFrom_of_tiles tiles ▸ tiles

/-- Behind some lexemes of a tiling the rest is tiled by the others, by induction on the first ones.
-/
theorem Tiles.drop {offset : Nat} {cs : List Char} {front more : List Lexeme}
    (tiles : Tiles offset cs (front ++ more))
    : ∃ before rest, cs = before ++ rest ∧ Tiles (offset + size before) rest more := by
  induction front generalizing offset cs with
  | nil => exact ⟨[], cs, rfl, tiles⟩
  | cons lexeme front ih =>
      cases tiles with
      | @lexeme _ gap piece rest _ _ isGap takes start_eq stop_eq others =>
          obtain ⟨before, rest', rfl, tiles'⟩ := ih others
          refine ⟨gap ++ (piece ++ before), rest', by simp, ?_⟩
          have reached : lexeme.stop + size before = offset + size (gap ++ (piece ++ before)) := by
            rw [stop_eq, start_eq, size_append, size_append]
            omega
          exact reached ▸ tiles'

/-- A lexeme is taken from the piece of the text between its ends, and the lexer goes on behind it
as at the start of a text.
-/
theorem exists_piece_of_lexeme {cs : List Char} {front back : List Lexeme} {lexeme : Lexeme}
    (splits : lex cs = front ++ lexeme :: back)
    : ∃ before piece rest,
        cs = before ++ (piece ++ rest)
        ∧ lexeme.start = size before
        ∧ lexeme.stop = lexeme.start + size piece
        ∧ Takes piece rest lexeme.content
        ∧ back = lexFrom .gap lexeme.stop rest := by
  have tiles : Tiles 0 cs (front ++ lexeme :: back) := tiles_iff.mpr splits.symm
  obtain ⟨before, rest, rfl, later⟩ := tiles.drop
  cases later with
  | @lexeme _ gap piece rest _ _ isGap takes start_eq stop_eq others =>
      refine ⟨before ++ gap, piece, rest, by simp, ?_, stop_eq, takes, tiles_iff.mp others⟩
      rw [start_eq, size_append, Nat.zero_add]

-----------------------------------------------------------------------------------------
-- Nothing is lost
-----------------------------------------------------------------------------------------

/-- An unterminated string is the last lexeme and reaches to the end of the text. -/
theorem Tiles.unterminated_last {offset : Nat} {cs : List Char} {lexemes : List Lexeme}
    (tiles : Tiles offset cs lexemes) {front back : List Lexeme} {lexeme : Lexeme}
    (splits : lexemes = front ++ lexeme :: back)
    (unterminated : lexeme.content = .error .unterminatedString)
    : back = [] ∧ lexeme.stop = offset + size cs := by
  induction tiles generalizing front with
  | last => simp at splits
  | @lexeme offset gap piece rest first lexemes isGap takes start_eq stop_eq others ih =>
      have total : first.stop + size rest = offset + size (gap ++ (piece ++ rest)) := by
        rw [stop_eq, start_eq, size_append, size_append]
        omega
      cases front with
      | cons _ front =>
          obtain ⟨rfl, later⟩ := List.cons.inj splits
          exact total ▸ ih later
      | nil =>
          obtain ⟨rfl, rfl⟩ := List.cons.inj splits
          rw [unterminated] at takes
          cases takes
          exact ⟨eq_lexFrom_of_tiles others, total⟩

/-- The lexemes of a text, whether tokens or errors, follow one another between character
boundaries, and none of them is empty; each is a piece of the text that the rules of the language
take for it. What stands before, between and after them is blanks and comments, each comment up to
the end of its line. Only the last one can be an unterminated string, which then reaches to the end
of the text.
-/
theorem lexemes_cover (text : String)
    : InOrder (Lexeme.At (Boundary text)) 0 (lex text.toList) text.utf8ByteSize
      ∧ Tiles 0 text.toList (lex text.toList)
      ∧ ∀ front lexeme back,
          lex text.toList = front ++ lexeme :: back
          → lexeme.content = .error .unterminatedString
          → back = [] ∧ lexeme.stop = text.utf8ByteSize := by
  have tiles : Tiles 0 text.toList (lex text.toList) := tiles_iff.mpr rfl
  refine ⟨lex_inOrder text, tiles, ?_⟩
  intro front lexeme back splits unterminated
  obtain ⟨nothing, stop⟩ := tiles.unterminated_last splits unterminated
  rw [Nat.zero_add, size_toList] at stop
  exact ⟨nothing, stop⟩

/-- A comment that holds a character of two bytes, and a string literal that is not closed. -/
theorem lexemes_cover_unterminated
    : lex "(;é\n\"a".toList
        = [⟨0, 1, .ok .openParen⟩, ⟨5, 7, .error .unterminatedString⟩]
      ∧ Tiles 0 "(;é\n\"a".toList
          [⟨0, 1, .ok .openParen⟩, ⟨5, 7, .error .unterminatedString⟩]
      ∧ 7 = "(;é\n\"a".utf8ByteSize := by
  have lexed
      : lex "(;é\n\"a".toList
        = [⟨0, 1, .ok .openParen⟩, ⟨5, 7, .error .unterminatedString⟩] := by
    rfl
  obtain ⟨_, tiles, unterminated⟩ := lexemes_cover "(;é\n\"a"
  rw [lexed] at tiles
  exact ⟨lexed, tiles, (unterminated [_] _ [] lexed rfl).2⟩

end Lexer

end TypedScheme
