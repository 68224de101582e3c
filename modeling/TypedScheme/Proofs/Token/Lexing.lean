import TypedScheme.Token.Lexer

/-! Lexing as a matter of the text ahead.
Lexing is described by equations: how blanks, parentheses, words and so on begin a text, and what
the rest of it gives. But for their places, the lexemes do not depend on the offset at which a text
stands, so that there are such equations for tokens without places as well.
-/

namespace TypedScheme

namespace Text

/-- A text that is one word for the lexer: without delimiters, and not begun by a hash sign. -/
structure IsWord (word : List Char) : Prop where
  nonempty : word ≠ []
  start : word.head? ≠ some '#'
  inside : ∀ c ∈ word, isDelimiter c = false

/-- A word is not longer than it seems where such a text follows it. -/
def Bounded (rest : List Char) : Prop := ∀ c ∈ rest.head?, isDelimiter c = true

/-- The name of a symbol: a word that is no numeral. -/
structure IsSymbol (name : String) : Prop where
  word : IsWord name.toList
  noNumeral : Numeral.ofChars? name.toList = none

/-- The number of bytes of a text. -/
def size (cs : List Char) : Nat := (String.ofList cs).utf8ByteSize

/-- No characters take no bytes. -/
@[simp]
theorem size_nil : size [] = 0 := rfl

/-- The bytes of a text are those of its first character and of the others. -/
@[simp]
theorem size_cons (c : Char) (cs : List Char) : size (c :: cs) = c.utf8Size + size cs := by
  rw [size, String.ofList_cons, String.utf8ByteSize_append, String.utf8ByteSize_singleton, size]

/-- The bytes of two texts add up. -/
@[simp]
theorem size_append (cs ds : List Char) : size (cs ++ ds) = size cs + size ds := by
  rw [size, String.ofList_append, String.utf8ByteSize_append, size, size]

/-- The bytes of the characters of a string are its bytes. -/
theorem size_toList (text : String) : size text.toList = text.utf8ByteSize := by
  rw [size, String.ofList_toList]

/-- A text is cut at a byte in one way only, by induction on the first part. -/
theorem append_inj_of_size {before rest before' rest' : List Char}
    (same : before ++ rest = before' ++ rest') (sizes : size before = size before')
    : before = before' ∧ rest = rest' := by
  induction before generalizing before' with
  | nil =>
      cases before' with
      | nil => exact ⟨rfl, same⟩
      | cons c before' =>
          have positive := c.utf8Size_pos
          simp only [size_nil, size_cons] at sizes
          omega
  | cons c before ih =>
      cases before' with
      | nil =>
          have positive := c.utf8Size_pos
          simp only [size_nil, size_cons] at sizes
          omega
      | cons c' before' =>
          obtain ⟨rfl, others⟩ := List.cons.inj same
          simp only [size_cons, Nat.add_left_cancel_iff] at sizes
          obtain ⟨rfl, rfl⟩ := ih others sizes
          exact ⟨rfl, rfl⟩

/-- At the end no word goes on. -/
theorem bounded_nil : Bounded [] := nofun

/-- A word does not go on with a delimiter. -/
theorem bounded_cons {c : Char} {rest : List Char} (delimiter : isDelimiter c = true)
    : Bounded (c :: rest) := by
  intro head member
  cases member
  exact delimiter

/-- A character that is no backslash stands for itself. -/
theorem unescape?_cons {c : Char} (noBackslash : c ≠ '\\') (rest : List Char)
    : unescape? (c :: rest) = (unescape? rest).map (c :: ·) := by
  rw [unescape?]
  · exact fun _ _ same _ => noBackslash same
  · exact fun same _ => noBackslash same

end Text

/-- A symbol is the token of its own word. -/
theorem Token.ofWord_symbol {name : String} (isSymbol : Text.IsSymbol name)
    : Token.ofWord name.toList = .symbol name := by
  rw [Token.ofWord, isSymbol.noNumeral, String.ofList_toList]

namespace Lexer

open Text

/-- The lexemes of a text that is read in a mode from byte `offset` on. -/
def lexFrom (mode : Mode) (offset : Nat) (cs : List Char) : List Lexeme :=
  (cs.foldl State.step ⟨[], mode, offset⟩).finish

/-- Lexing starts between words at the beginning. -/
theorem lex_eq_lexFrom (cs : List Char) : lex cs = lexFrom .gap 0 cs := rfl

/-- The lexemes found before make no difference to those that follow, by induction on the text. -/
theorem finish_foldl (cs : List Char) (s : State)
    : (cs.foldl State.step s).finish = s.found.reverse ++ lexFrom s.mode s.offset cs := by
  induction cs generalizing s with
  | nil => simp [lexFrom, State.finish]
  | cons c cs ih =>
      rw [lexFrom, List.foldl_cons, List.foldl_cons, ih, ih (State.step _ c)]
      simp [State.step]

/-- At the end the unfinished lexeme is finished. -/
theorem lexFrom_nil (mode : Mode) (offset : Nat)
    : lexFrom mode offset [] = (mode.finish offset).reverse := by
  simp [lexFrom, State.finish]

/-- Lexing goes on behind a character with the mode that it leads to. -/
theorem lexFrom_cons (mode : Mode) (offset : Nat) (c : Char) (cs : List Char)
    : lexFrom mode offset (c :: cs)
      = (mode.next offset c).1.reverse
        ++ lexFrom (mode.next offset c).2 (offset + c.utf8Size) cs := by
  rw [lexFrom, List.foldl_cons, finish_foldl]
  simp [State.step]

/-- The contents of the lexemes of a text, read in a mode. All offsets are taken to be zero. -/
def scan (mode : Mode) : List Char → List (Except LexicalError Token)
  | [] => (mode.finish 0).map Lexeme.content
  | c :: cs => (mode.next 0 c).1.reverse.map Lexeme.content ++ scan (mode.next 0 c).2 cs

-----------------------------------------------------------------------------------------
-- Lexing does not depend on offsets
-----------------------------------------------------------------------------------------

/-- The mode without the place where it began. -/
def Mode.unplaced : Mode → Mode
  | .gap => .gap
  | .comment => .comment
  | .hash _ => .hash 0
  | .word _ chars => .word 0 chars
  | .string _ chars => .string 0 chars
  | .escape _ chars => .escape 0 chars
  | .unclosed _ => .unclosed 0

/-- Where a lexeme starts does not change what it is. -/
theorem enter_unplaced (offset : Nat) (c : Char)
    : (enter offset c).1.map Lexeme.content = (enter 0 c).1.map Lexeme.content
      ∧ (enter offset c).2.unplaced = (enter 0 c).2 := by
  grind [enter, Mode.unplaced]

/-- What a string literal holds does not depend on its place. -/
theorem content_stringLexeme (start stop : Nat) (chars : List Char)
    : (stringLexeme start stop chars).content = (stringLexeme 0 1 chars).content := by
  rw [stringLexeme, stringLexeme]
  cases unescape? chars.reverse with
  | none => rfl
  | some decoded => rfl

/-- A character gives rise to the same contents and, but for its place, to the same mode. -/
theorem next_unplaced (mode : Mode) (offset : Nat) (c : Char)
    : (mode.next offset c).1.map Lexeme.content = (mode.unplaced.next 0 c).1.map Lexeme.content
      ∧ (mode.next offset c).2.unplaced = (mode.unplaced.next 0 c).2 := by
  obtain ⟨sameLexemes, sameMode⟩ := enter_unplaced offset c
  cases mode with
  | gap => exact ⟨sameLexemes, sameMode⟩
  | comment => grind [Mode.next, Mode.unplaced]
  | hash start => grind [Mode.next, Mode.unplaced, hashLexeme]
  | word start chars => grind [Mode.next, Mode.unplaced, wordLexeme]
  | string start chars => grind [Mode.next, Mode.unplaced, content_stringLexeme]
  | escape start chars => grind [Mode.next, Mode.unplaced]
  | unclosed start => exact ⟨rfl, rfl⟩

/-- What an unfinished lexeme is finished as does not depend on its place. -/
theorem finish_unplaced (mode : Mode) (offset : Nat)
    : (mode.finish offset).reverse.map Lexeme.content
      = (mode.unplaced.finish 0).map Lexeme.content := by
  cases mode with
  | gap | comment | hash | word | string | escape | unclosed => rfl

/-- The contents of the lexemes do not depend on where the text starts, by induction on the text. -/
theorem contents_lexFrom (mode : Mode) (offset : Nat) (cs : List Char)
    : (lexFrom mode offset cs).map Lexeme.content = scan mode.unplaced cs := by
  induction cs generalizing mode offset with
  | nil =>
      have last := finish_unplaced mode offset
      rwa [lexFrom_nil, scan]
  | cons c cs ih =>
      obtain ⟨sameLexemes, sameMode⟩ := next_unplaced mode offset c
      rw [lexFrom_cons, List.map_append, ih, sameMode, scan, List.map_reverse, sameLexemes,
        List.map_reverse]

/-- The contents of the lexemes are what is scanned without places. -/
theorem contents_lex (cs : List Char) : (lex cs).map Lexeme.content = scan .gap cs :=
  contents_lexFrom .gap 0 cs

-----------------------------------------------------------------------------------------
-- How a text begins
-----------------------------------------------------------------------------------------

/-- There is nothing to scan at the end. -/
@[simp]
theorem scan_gap_nil : scan .gap [] = [] := rfl

/-- A blank between words is skipped. -/
theorem scan_gap_blank {c : Char} (blank : isBlank c = true) (rest : List Char)
    : scan .gap (c :: rest) = scan .gap rest := by
  simp [scan, Mode.next, enter, blank]

/-- Blanks between words are skipped, by induction on the blanks. -/
theorem scan_gap_blanks {blanks : List Char} (blank : ∀ c ∈ blanks, isBlank c = true)
    (rest : List Char)
    : scan .gap (blanks ++ rest) = scan .gap rest := by
  induction blanks with
  | nil => rfl
  | cons c blanks ih =>
      rw [List.cons_append, scan_gap_blank (blank c (by simp))]
      exact ih fun c member => blank c (by simp [member])

/-- Characters other than delimiters go on with a word, by induction on them. -/
theorem lexFrom_word_append {more : List Char} (inside : ∀ c ∈ more, isDelimiter c = false)
    (start offset : Nat) (chars rest : List Char)
    : lexFrom (.word start chars) offset (more ++ rest)
      = lexFrom (.word start (more.reverse ++ chars)) (offset + size more) rest := by
  induction more generalizing offset chars with
  | nil => rfl
  | cons c more ih =>
      have here : isDelimiter c = false := inside c (by simp)
      rw [List.cons_append, lexFrom_cons]
      simp only [Mode.next, here, Bool.false_eq_true, if_false, List.reverse_nil, List.nil_append]
      rw [ih fun c member => inside c (by simp [member])]
      simp [Nat.add_assoc]

/-- A delimiter or the end of the text ends a word. -/
theorem lexFrom_word_bounded {rest : List Char} (bounded : Bounded rest) (start offset : Nat)
    (chars : List Char)
    : lexFrom (.word start chars) offset rest
      = wordLexeme start offset chars :: lexFrom .gap offset rest := by
  cases rest with
  | nil => rfl
  | cons c rest =>
      have delimiter : isDelimiter c = true := bounded c (by simp)
      rw [lexFrom_cons, lexFrom_cons]
      simp [Mode.next, delimiter]

/-- A character that is neither a delimiter nor a hash begins a word. -/
theorem enter_word {c : Char} (inside : isDelimiter c = false) (noHash : c ≠ '#') (offset : Nat)
    : enter offset c = ([], .word offset [c]) := by
  simp only [isDelimiter, Bool.or_eq_false_iff, decide_eq_false_iff_not] at inside
  obtain ⟨⟨⟨⟨⟨blank, opening⟩, closing⟩, quote⟩, double⟩, comment⟩ := inside
  simp [enter, blank, opening, closing, quote, double, comment, noHash]

/-- A word is one token, if what follows it is no part of it. -/
theorem lexFrom_gap_word {word rest : List Char} (isWord : IsWord word) (bounded : Bounded rest)
    (offset : Nat)
    : lexFrom .gap offset (word ++ rest)
      = ⟨offset, offset + size word, .ok (Token.ofWord word)⟩
        :: lexFrom .gap (offset + size word) rest := by
  cases word with
  | nil => exact absurd rfl isWord.nonempty
  | cons c word =>
      have noHash : c ≠ '#' := fun same => isWord.start (by simp [same])
      have first := enter_word (isWord.inside c (by simp)) noHash offset
      have others : ∀ c ∈ word, isDelimiter c = false :=
        fun c member => isWord.inside c (by simp [member])
      rw [List.cons_append, lexFrom_cons, Mode.next, first]
      simp only [List.reverse_nil, List.nil_append]
      rw [lexFrom_word_append others, lexFrom_word_bounded bounded]
      simp [wordLexeme, Nat.add_assoc]

/-- A word behind which none goes on is scanned as its token. -/
theorem scan_gap_word {word rest : List Char} (isWord : IsWord word) (bounded : Bounded rest)
    : scan .gap (word ++ rest) = .ok (Token.ofWord word) :: scan .gap rest := by
  have lexed := congrArg (List.map Lexeme.content) (lexFrom_gap_word isWord bounded 0)
  rwa [List.map_cons, contents_lexFrom, contents_lexFrom] at lexed

-----------------------------------------------------------------------------------------
-- Symbols among the tokens
-----------------------------------------------------------------------------------------

/-- The characters of an unfinished word are those of a word. -/
def Mode.Sound : Mode → Prop
  | .word _ chars => IsWord chars.reverse
  | .gap | .comment | .hash _ | .string _ _ | .escape _ _ | .unclosed _ => True

/-- A word that is read as a symbol is the name of one. -/
theorem isSymbol_of_ofWord {word : List Char} (isWord : IsWord word) {name : String}
    (symbol : Token.ofWord word = .symbol name)
    : IsSymbol name := by
  rw [Token.ofWord] at symbol
  split at symbol
  · cases symbol
  · next noNumeral =>
      cases symbol
      refine ⟨?_, ?_⟩
      · rw [String.toList_ofList]
        exact isWord
      · rw [String.toList_ofList]
        exact noNumeral

/-- A first character begins at most one word and finishes no symbol. -/
theorem enter_sound (c : Char)
    : (enter 0 c).2.Sound ∧ ∀ name, .ok (.symbol name) ∉ (enter 0 c).1.map Lexeme.content := by
  by_cases inside : isDelimiter c = true ∨ c = '#'
  · grind [enter, Mode.Sound, isDelimiter]
  · have word : isDelimiter c = false := by simpa using fun delimiter => inside (.inl delimiter)
    have noHash : c ≠ '#' := fun same => inside (.inr same)
    rw [enter_word word noHash 0]
    refine ⟨⟨by simp, by simpa using noHash, ?_⟩, by simp⟩
    intro d member
    rw [List.mem_singleton.mp member]
    exact word

/-- One step of the lexer keeps an unfinished word one, and the symbols that it finishes are words.
-/
theorem next_sound {mode : Mode} (sound : mode.Sound) (c : Char)
    : (mode.next 0 c).2.Sound
      ∧ ∀ name, .ok (.symbol name) ∈ (mode.next 0 c).1.map Lexeme.content → IsSymbol name := by
  obtain ⟨entered, none⟩ := enter_sound c
  cases mode with
  | gap => exact ⟨entered, fun name member => absurd member (none name)⟩
  | comment => grind [Mode.next, Mode.Sound]
  | hash start => grind [Mode.next, Mode.Sound, hashLexeme]
  | word start chars =>
      by_cases delimiter : isDelimiter c = true
      · simp only [Mode.next, delimiter, if_true, List.map_append, List.mem_append, List.map_cons,
          List.map_nil, List.mem_singleton]
        refine ⟨entered, ?_⟩
        intro name member
        rcases member with before | here
        · exact absurd before (none name)
        · exact isSymbol_of_ofWord sound (Except.ok.inj here).symm
      · have isWord : IsWord (c :: chars).reverse := by
          refine ⟨by simp, ?_, ?_⟩
          · obtain ⟨first, others, same⟩ := List.exists_cons_of_ne_nil sound.nonempty
            have start := sound.start
            rw [same] at start
            rw [List.reverse_cons, same]
            exact start
          · intro d member
            rcases List.mem_cons.mp (List.mem_reverse.mp member) with rfl | earlier
            · simpa using delimiter
            · exact sound.inside d (List.mem_reverse.mpr earlier)
        simp only [Mode.next, delimiter, Bool.false_eq_true, if_false]
        exact ⟨isWord, by simp⟩
  | string start chars => grind [Mode.next, Mode.Sound, stringLexeme]
  | escape start chars => grind [Mode.next, Mode.Sound]
  | unclosed start => exact ⟨trivial, by simp [Mode.next]⟩

/-- Every symbol that a text is lexed to has the name of one, by induction on the text. -/
theorem isSymbol_of_mem_scan {cs : List Char} {mode : Mode} (sound : mode.Sound) {name : String}
    (member : .ok (.symbol name) ∈ scan mode cs)
    : IsSymbol name := by
  induction cs generalizing mode with
  | nil =>
      cases mode with
      | word start chars =>
          simp only [scan, Mode.finish, wordLexeme, List.map_cons, List.map_nil,
            List.mem_singleton] at member
          exact isSymbol_of_ofWord sound (Except.ok.inj member).symm
      | gap | comment | hash | string | escape | unclosed =>
          simp [scan, Mode.finish, hashLexeme] at member
  | cons c cs ih =>
      obtain ⟨soundNext, symbols⟩ := next_sound sound c
      rw [scan, List.map_reverse] at member
      rcases List.mem_append.mp member with here | later
      · exact symbols name (List.mem_reverse.mp here)
      · exact ih soundNext later

end Lexer

end TypedScheme
