import TypedScheme.Proofs.Datum.Spans
import TypedScheme.Proofs.Datum.Spelling
import TypedScheme.Proofs.Number.Rounding
import TypedScheme.Proofs.Token.Tiling

/-! The pieces of a text that its data are read from.
Main statement: the span of a datum in what is read from a text cuts out a piece of the text, and the
same datum is read from that piece alone.
-/

namespace TypedScheme

-----------------------------------------------------------------------------------------
-- Pieces between lexemes
-----------------------------------------------------------------------------------------

namespace Lexer

open Text

/-- What bounds a word still bounds it with its end cut off. -/
theorem bounded_of_append {rest more : List Char} (bounded : Bounded (rest ++ more))
    : Bounded rest := by
  cases rest with
  | nil => exact bounded_nil
  | cons c rest => exact bounded

/-- A token needs none of the text behind it. -/
theorem Takes.of_append {piece rest more : List Char} {t : Token}
    (takes : Takes piece (rest ++ more) (.ok t))
    : Takes piece rest (.ok t) := by
  generalize whole : rest ++ more = behind at takes
  cases takes with
  | openParen => exact .openParen rest
  | closeParen => exact .closeParen rest
  | quote => exact .quote rest
  | yes => exact .yes rest
  | no => exact .no rest
  | word isWord bounded =>
      rw [← whole] at bounded
      exact .word isWord (bounded_of_append bounded)
  | string isBody decodes => exact .string isBody decodes rest

/-- A text that begins with a lexeme. -/
theorem Tiles.cons {piece rest : List Char} {lexeme : Lexeme} {lexemes : List Lexeme}
    (others : Tiles lexeme.stop rest lexemes) (takes : Takes piece rest lexeme.content)
    (stop_eq : lexeme.stop = lexeme.start + size piece)
    : Tiles lexeme.start (piece ++ rest) (lexeme :: lexemes) := by
  have tiles : Tiles lexeme.start ([] ++ (piece ++ rest)) (lexeme :: lexemes) :=
    .lexeme .nil takes rfl stop_eq others
  exact tiles

/-- Some tokens in a row make up a piece of the text by themselves, by induction on the tokens. -/
theorem Tiles.take {offset : Nat} {cs : List Char} {lexemes more : List Lexeme}
    (tiles : Tiles offset cs (lexemes ++ more)) (tokens : ∀ l ∈ lexemes, ∃ t, l.content = .ok t)
    {first last : Lexeme} (head : lexemes.head? = some first) (final : lexemes.getLast? = some last)
    : ∃ gap piece after,
        cs = gap ++ (piece ++ after)
        ∧ IsGap gap
        ∧ first.start = offset + size gap
        ∧ last.stop = first.start + size piece
        ∧ Tiles first.start piece lexemes := by
  induction lexemes generalizing offset cs first with
  | nil => cases head
  | cons lexeme lexemes ih =>
      cases head
      cases tiles with
      | @lexeme _ gap piece rest _ _ isGap takes start_eq stop_eq others =>
          obtain ⟨t, content⟩ := tokens lexeme (by simp)
          rw [content] at takes
          cases lexemes with
          | nil =>
              cases final
              have alone : Takes piece [] (.ok t) := takes.of_append
              refine ⟨gap, piece, rest, rfl, isGap, start_eq, stop_eq, ?_⟩
              have nothing : Tiles lexeme.stop [] [] := .last (.gap .nil)
              simpa using nothing.cons (content ▸ alone) stop_eq
          | cons next lexemes =>
              rw [List.getLast?_cons_cons] at final
              obtain ⟨gap', piece', after, rfl, isGap', start_eq', stop_eq', tiles'⟩ :=
                ih others (fun l member => tokens l (by simp [member])) rfl final
              rw [← List.append_assoc] at takes
              have here : Takes piece (gap' ++ piece') lexeme.content := content ▸ takes.of_append
              refine ⟨gap, piece ++ (gap' ++ piece'), after, by simp, isGap, start_eq, ?_, ?_⟩
              · rw [stop_eq', start_eq', stop_eq, size_append, size_append]
                omega
              · rw [start_eq'] at tiles'
                exact (tiles'.after_gap isGap').cons here stop_eq

/-- Every lexeme of a tiled text takes a piece of it, by induction on the tiles. -/
theorem Tiles.exists_takes {offset : Nat} {cs : List Char} {lexemes : List Lexeme}
    (tiles : Tiles offset cs lexemes) {lexeme : Lexeme} (member : lexeme ∈ lexemes)
    : ∃ piece rest, Takes piece rest lexeme.content := by
  induction tiles with
  | last => cases member
  | lexeme isGap takes _ _ _ ih =>
      rcases List.mem_cons.mp member with rfl | later
      · exact ⟨_, _, takes⟩
      · exact ih later

/-- Tokens in a row are those of the piece of the text that they cover. -/
theorem exists_piece {cs : List Char} {front lexemes back : List Lexeme}
    (splits : lex cs = front ++ (lexemes ++ back))
    (tokens : ∀ l ∈ lexemes, ∃ t, l.content = .ok t) {first last : Lexeme}
    (head : lexemes.head? = some first) (final : lexemes.getLast? = some last)
    : ∃ before piece after,
        cs = before ++ piece ++ after
        ∧ first.start = size before
        ∧ last.stop = size (before ++ piece)
        ∧ (lex piece).map Lexeme.content = lexemes.map Lexeme.content := by
  have tiles : Tiles 0 cs (front ++ (lexemes ++ back)) := tiles_iff.mpr splits.symm
  obtain ⟨before, rest, rfl, later⟩ := tiles.drop
  obtain ⟨gap, piece, after, rfl, _, start_eq, stop_eq, covers⟩ := later.take tokens head final
  refine ⟨before ++ gap, piece, after, by simp, ?_, ?_, ?_⟩
  · rw [start_eq, size_append, Nat.zero_add]
  · rw [stop_eq, start_eq, size_append, size_append, Nat.zero_add]
  · rw [contents_lex, tiles_iff.mp covers, contents_lexFrom]
    rfl

/-- A number that is read from a text is not NaN. -/
theorem Takes.isNaN {piece rest : List Char} {n : Number}
    (takes : Takes piece rest (.ok (.number n)))
    : n.isNaN = false := by
  obtain ⟨k, _, rfl⟩ := takes.exists_numeral
  exact Number.isNaN_ofDecimal _ _ _ _

/-- A quotation mark is taken from the one character that it is. -/
theorem Takes.eq_mark {piece rest : List Char} (takes : Takes piece rest (.ok .quote))
    : piece = ['\''] := by
  generalize isQuote : (.ok .quote : Except LexicalError Token) = content at takes
  cases takes with
  | quote => rfl
  | word =>
      rw [Token.ofWord] at isQuote
      split at isQuote
      · cases isQuote
      · cases isQuote
  | openParen | closeParen | yes | no | string | invalidEscape | hash | unterminated =>
      cases isQuote

/-- A quotation mark among the lexemes stands in the text at its offsets. -/
theorem exists_mark {cs : List Char} {front back : List Lexeme} {mark : Lexeme}
    (splits : lex cs = front ++ mark :: back) (quotes : mark.content = .ok .quote)
    : ∃ before after,
        cs = before ++ ['\''] ++ after
        ∧ mark.start = size before
        ∧ mark.stop = size (before ++ ['\'']) := by
  obtain ⟨before, piece, after, rfl, start_eq, stop_eq, takes, _⟩ := exists_piece_of_lexeme splits
  rw [quotes] at takes
  cases takes.eq_mark
  refine ⟨before, after, by simp, start_eq, ?_⟩
  rw [stop_eq, start_eq, size_append]

end Lexer

-----------------------------------------------------------------------------------------
-- Data and their lexemes
-----------------------------------------------------------------------------------------

namespace Datum

variable {file : FileId} {text : String}

mutual
/-- The lexemes that spell a datum hold tokens that do. -/
theorem SpeltAt.speltBy {d : Datum} {lexemes : List Lexeme}
    : SpeltAt file d lexemes → ∃ ts, lexemes.map Lexeme.content = ts.map .ok ∧ d.SpeltBy ts
  | .number content => ⟨[_], by simp [content], .number _ _⟩
  | .boolean content => ⟨[_], by simp [content], .boolean _ _⟩
  | .string content => ⟨[_], by simp [content], .string _ _⟩
  | .symbol content => ⟨[_], by simp [content], .symbol _ _⟩
  | .list opens closes inside => by
      obtain ⟨ts, contents, spelt⟩ := inside.speltBy
      exact ⟨.openParen :: (ts ++ [.closeParen]), by simp [opens, closes, contents], .list _ spelt⟩
  | .quotation quotes inside => by
      obtain ⟨ts, contents, spelt⟩ := inside.speltBy
      exact ⟨.quote :: ts, by simp [quotes, contents], .quotation _ _ spelt⟩

/-- The lexemes that spell data hold tokens that do. -/
theorem AllSpeltAt.speltBy {ds : List Datum} {lexemes : List Lexeme}
    : AllSpeltAt file ds lexemes → ∃ ts, lexemes.map Lexeme.content = ts.map .ok ∧ AllSpeltBy ds ts
  | .nil => ⟨[], rfl, .nil⟩
  | .cons first others => by
      obtain ⟨ts, contents, spelt⟩ := first.speltBy
      obtain ⟨us, contents', spelt'⟩ := others.speltBy
      exact ⟨ts ++ us, by simp [contents, contents'], .cons spelt spelt'⟩
end

/-- The first and the last of lexemes that follow one another. -/
theorem ends_of_inOrder {B : Nat → Prop} {low high : Nat} {lexemes : List Lexeme}
    (inOrder : InOrder (Lexeme.At B) low lexemes high) {first last : Lexeme}
    (head : lexemes.head? = some first) (final : lexemes.getLast? = some last)
    : low ≤ first.start ∧ first.start < last.stop ∧ last.stop ≤ high := by
  induction inOrder generalizing first with
  | nil => cases head
  | @cons low start stop high lexeme lexemes after nonempty here rest ih =>
      cases head
      obtain ⟨rfl, rfl, _, _⟩ := here
      cases lexemes with
      | nil =>
          cases final
          exact ⟨after, nonempty, rest.le⟩
      | cons next lexemes =>
          rw [List.getLast?_cons_cons] at final
          obtain ⟨later, lt, le⟩ := ih rfl final
          exact ⟨after, by omega, le⟩

/-- A datum that reaches from its first lexeme to its last stands where these stand: no offset is
cut off.
-/
theorem at_of_ends {B : Nat → Prop} {low high : Nat} {lexemes : List Lexeme}
    (inOrder : InOrder (Lexeme.At B) low lexemes high) (fits : high ≤ Span.maxOffset)
    {first last : Lexeme} (head : lexemes.head? = some first) (final : lexemes.getLast? = some last)
    {d : Datum} (known : d.pos = some (Span.ofRange file first.start last.stop))
    : d.At file first.start last.stop := by
  obtain ⟨_, lt, le⟩ := ends_of_inOrder inOrder head final
  rw [At, known, Span.ofRange_eq (Nat.le_of_lt lt) (Nat.le_trans le fits)]

/-- A datum reaches from the start of its first lexeme to the end of its last one. Only a quotation
takes its extent from what is inside.
-/
theorem SpeltAt.extent {B : Nat → Prop} {low high : Nat} {d : Datum} {lexemes : List Lexeme}
    (inOrder : InOrder (Lexeme.At B) low lexemes high) (fits : high ≤ Span.maxOffset)
    : SpeltAt file d lexemes
      → ∃ first last,
          lexemes.head? = some first
          ∧ lexemes.getLast? = some last
          ∧ d.At file first.start last.stop
  | @SpeltAt.number _ lexeme _ _ | @SpeltAt.boolean _ lexeme _ _ | @SpeltAt.string _ lexeme _ _
  | @SpeltAt.symbol _ lexeme _ _ =>
      ⟨lexeme, lexeme, rfl, rfl, at_of_ends inOrder fits rfl rfl rfl⟩
  | @SpeltAt.list _ opening closing _ lexemes _ _ _ => by
      have final : (opening :: (lexemes ++ [closing])).getLast? = some closing := by
        rw [← List.cons_append, List.getLast?_concat]
      exact ⟨opening, closing, rfl, final, at_of_ends inOrder fits rfl final rfl⟩
  | @SpeltAt.quotation _ mark d lexemes _ inside => by
      cases inOrder with
      | cons after nonempty here rest =>
          obtain ⟨rfl, rfl, _, _⟩ := here
          obtain ⟨first, last, head, final, isAt⟩ := inside.extent rest fits
          obtain ⟨later, lt, le⟩ := ends_of_inOrder rest head final
          refine ⟨mark, last, rfl, ?_, ?_⟩
          · rw [List.getLast?_cons, final]
            rfl
          · rw [Span.ofRange_eq (Nat.le_of_lt nonempty) (by omega)]
            exact Reader.quotation_at nonempty later lt isAt

mutual
/-- The numbers of a datum are among the tokens. -/
theorem SpeltAt.defined {d : Datum} {lexemes : List Lexeme}
    (tokens : ∀ l ∈ lexemes, ∀ n, l.content = .ok (.number n) → n.isNaN = false)
    : SpeltAt file d lexemes → d.Defined
  | .number content => by
      intro n member
      rw [mem_numbers_number.mp member]
      exact tokens _ (by simp) _ content
  | .boolean _ | .string _ | .symbol _ => by simp [Defined, numbers]
  | .list _ _ inside => by
      intro n member
      obtain ⟨item, inItems, inItem⟩ := mem_numbers_list.mp member
      exact inside.defined (fun l inside => tokens l (by simp [inside])) item inItems n inItem
  | .quotation _ inside => by
      intro n member
      have inDatum := inside.defined (fun l inside => tokens l (by simp [inside])) n
      simp [Reader.quotation, numbers, numbersOfAll] at member
      exact inDatum member

/-- Data spelt by lexemes without a NaN have none. -/
theorem AllSpeltAt.defined {ds : List Datum} {lexemes : List Lexeme}
    (tokens : ∀ l ∈ lexemes, ∀ n, l.content = .ok (.number n) → n.isNaN = false)
    : AllSpeltAt file ds lexemes → ∀ d ∈ ds, d.Defined
  | .nil => by simp
  | .cons first others => by
      refine List.forall_mem_cons.mpr ⟨?_, ?_⟩
      · exact first.defined fun l inside => tokens l (by simp [inside])
      · exact others.defined fun l inside => tokens l (by simp [inside])
end

-----------------------------------------------------------------------------------------
-- Data in a text
-----------------------------------------------------------------------------------------

end Datum

/-- The position is that of the piece in the text. -/
def Position.CutsOut (file : FileId) (text piece : String) (pos : Position) : Prop :=
  ∃ before after,
    text = before ++ piece ++ after
    ∧ pos = some ⟨file, before.utf8ByteSize, (before ++ piece).utf8ByteSize⟩

/-- A piece of the text is what its two offsets cut out. -/
theorem Position.cutsOut_of_chars {text : String} {before piece after : List Char}
    (whole : text.toList = before ++ piece ++ after) (file : FileId)
    : CutsOut file text (.ofList piece)
        (some ⟨file, Text.size before, Text.size (before ++ piece)⟩) := by
  refine ⟨.ofList before, .ofList after, ?_, ?_⟩
  · rw [← String.toList_inj]
    simp [whole]
  · rw [← String.ofList_append]
    rfl

namespace Datum

variable {file : FileId} {text : String}

/-- Some of the lexemes of the text spell the datum. -/
def Spelt (file : FileId) (text : String) (d : Datum) : Prop :=
  ∃ front lexemes back,
    Lexer.lex text.toList = front ++ (lexemes ++ back) ∧ d.SpeltAt file lexemes

/-- The datum is spelt in the text, or it is the symbol for which a quote mark stands there. -/
def Legible (file : FileId) (text : String) (d : Datum) : Prop :=
  d.Spelt file text ∨ ∃ pos, d = .symbol pos "quote" ∧ Position.CutsOut file text "'" pos

/-- A datum that was read is spelt by lexemes of the text. -/
theorem spelt_of_read {d : Datum} (read : Datum.read file text = .ok d) : d.Spelt file text :=
  ⟨[], Lexer.lex text.toList, [], by simp, speltAt_of_ofLexemes read⟩

/-- Each of several data is spelt by lexemes of its own among those of all, by induction on the
data.
-/
theorem AllSpeltAt.exists_lexemes {ds : List Datum} {lexemes : List Lexeme}
    (spelt : AllSpeltAt file ds lexemes) {d : Datum} (member : d ∈ ds)
    : ∃ front inner back, lexemes = front ++ (inner ++ back) ∧ d.SpeltAt file inner := by
  induction ds generalizing lexemes with
  | nil => cases member
  | cons first others ih =>
      cases spelt with
      | @cons _ _ here later speltFirst speltOthers =>
          rcases List.mem_cons.mp member with rfl | inOthers
          · exact ⟨[], here, later, rfl, speltFirst⟩
          · obtain ⟨front, inner, back, rfl, inside⟩ := ih speltOthers inOthers
            exact ⟨here ++ front, inner, back, by simp, inside⟩

/-- A run of the lexemes of a text lies in order between two offsets of it. -/
theorem inOrder_of_splits {front lexemes back : List Lexeme}
    (splits : Lexer.lex text.toList = front ++ (lexemes ++ back))
    : ∃ low high,
        InOrder (Lexeme.At (Text.Boundary text)) low lexemes high ∧ high ≤ text.utf8ByteSize := by
  have inOrder := Lexer.lex_inOrder text
  rw [splits] at inOrder
  obtain ⟨low, _, later⟩ := inOrder.of_append
  obtain ⟨high, here, rest⟩ := later.of_append
  exact ⟨low, high, here, rest.le⟩

/-- The datum is read again from its piece of the text. -/
theorem Spelt.cutsOut {d : Datum} (spelt : d.Spelt file text)
    (fits : text.utf8ByteSize ≤ Span.maxOffset)
    : ∃ piece,
        Position.CutsOut file text piece d.pos
        ∧ ∀ file', ∃ d', Datum.read file' piece = .ok d' ∧ Alike d d' := by
  obtain ⟨front, lexemes, back, splits, speltAt⟩ := spelt
  obtain ⟨low, high, inOrder, le⟩ := inOrder_of_splits splits
  obtain ⟨first, last, head, final, isAt⟩ := speltAt.extent inOrder (Nat.le_trans le fits)
  obtain ⟨ts, contents, speltBy⟩ := speltAt.speltBy
  have tokens l (member : l ∈ lexemes) : ∃ t, l.content = .ok t := by
    have inContents := List.mem_map_of_mem (f := Lexeme.content) member
    rw [contents] at inContents
    obtain ⟨t, _, same⟩ := List.mem_map.mp inContents
    exact ⟨t, same.symm⟩
  obtain ⟨before, piece, after, whole, start_eq, stop_eq, sameContents⟩ :=
    Lexer.exists_piece splits tokens head final
  refine ⟨.ofList piece, ?_, ?_⟩
  · rw [At, start_eq, stop_eq] at isAt
    rw [isAt]
    exact Position.cutsOut_of_chars whole file
  · rw [← String.toList_ofList (l := piece)] at sameContents
    exact ofLexemes_of_speltBy speltBy (sameContents.trans contents)

/-- A datum spelt by a text has no NaN. -/
theorem Spelt.defined {d : Datum} (spelt : d.Spelt file text) : d.Defined := by
  obtain ⟨front, lexemes, back, splits, speltAt⟩ := spelt
  refine speltAt.defined ?_
  intro l member n content
  have tiles : Lexer.Tiles 0 text.toList (Lexer.lex text.toList) := Lexer.tiles_iff.mpr rfl
  have inText : l ∈ Lexer.lex text.toList := by simp [splits, member]
  obtain ⟨piece, rest, takes⟩ := tiles.exists_takes inText
  rw [content] at takes
  exact takes.isNaN

/-- What is inside a list that is spelt. A quotation holds a quote mark. -/
theorem Spelt.items {pos : Position} {items : List Datum}
    (spelt : (Datum.list pos items).Spelt file text) (fits : text.utf8ByteSize ≤ Span.maxOffset)
    : (∀ item ∈ items, item.Spelt file text)
      ∨ ∃ markPos d,
          items = [.symbol markPos "quote", d]
          ∧ Position.CutsOut file text "'" markPos
          ∧ d.Spelt file text := by
  obtain ⟨front, lexemes, back, splits, speltAt⟩ := spelt
  cases speltAt with
  | @list opening closing _ inner _ _ inside =>
      refine .inl fun item member => ?_
      obtain ⟨before, lexemes, after, rfl, spelt⟩ := inside.exists_lexemes member
      refine ⟨front ++ opening :: before, lexemes, after ++ closing :: back, ?_, spelt⟩
      simp [splits]
  | @quotation mark d lexemes quotes inside =>
      refine .inr ⟨_, d, rfl, ?_, front ++ [mark], lexemes, back, by simp [splits], inside⟩
      have markFirst : Lexer.lex text.toList = front ++ mark :: (lexemes ++ back) := by
        simp [splits]
      obtain ⟨before, after, whole, start_eq, stop_eq⟩ := Lexer.exists_mark markFirst quotes
      obtain ⟨low, high, inOrder, le⟩ := inOrder_of_splits splits
      cases inOrder with
      | cons _ nonempty here rest =>
          obtain ⟨rfl, rfl, _, _⟩ := here
          have le := rest.le
          rw [Span.ofRange_eq (Nat.le_of_lt nonempty) (by omega), start_eq, stop_eq]
          exact Position.cutsOut_of_chars whole file

/-- The items of a list that a text spells can be read from their own slices of it. -/
theorem Spelt.items_legible {pos : Position} {items : List Datum}
    (spelt : (Datum.list pos items).Spelt file text) (fits : text.utf8ByteSize ≤ Span.maxOffset)
    : ∀ item ∈ items, item.Legible file text := by
  intro item member
  rcases spelt.items fits with each | ⟨markPos, d, rfl, cutsOut, inside⟩
  · exact .inl (each item member)
  · rcases List.mem_cons.mp member with rfl | isDatum
    · exact .inr ⟨markPos, rfl, cutsOut⟩
    · cases List.mem_singleton.mp isDatum
      exact .inl inside

/-- A list that is no quotation holds no quote mark. -/
theorem Spelt.items_spelt {pos : Position} {items : List Datum}
    (spelt : (Datum.list pos items).Spelt file text) (fits : text.utf8ByteSize ≤ Span.maxOffset)
    (noQuotation : ∀ markPos d, items ≠ [.symbol markPos "quote", d])
    : ∀ item ∈ items, item.Spelt file text := by
  rcases spelt.items fits with each | ⟨markPos, d, quotation, _⟩
  · exact each
  · exact absurd quotation (noQuotation markPos d)

/-- A quote mark may stand for the first of two items. -/
theorem Spelt.pair {pos : Position} {first second : Datum}
    (spelt : (Datum.list pos [first, second]).Spelt file text)
    (fits : text.utf8ByteSize ≤ Span.maxOffset)
    : first.Legible file text ∧ second.Spelt file text := by
  refine ⟨spelt.items_legible fits first (by simp), ?_⟩
  rcases spelt.items fits with each | ⟨markPos, d, same, _, inside⟩
  · exact each second (by simp)
  · cases same
    exact inside

/-- A list that can be read from its slice is spelt by the text. -/
theorem Legible.spelt {pos : Position} {items : List Datum}
    (legible : (Datum.list pos items).Legible file text)
    : (Datum.list pos items).Spelt file text := by
  rcases legible with spelt | ⟨_, same, _⟩
  · exact spelt
  · cases same

end Datum

end TypedScheme
