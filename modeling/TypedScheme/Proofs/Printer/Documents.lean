import TypedScheme.Expr.Printer
import TypedScheme.Proofs.Datum.Spelling

/-! Documents that write data.
A layout only chooses between a space and an indented new line for each break, and the lexer passes
over both, so that all layouts of a document have the same tokens. The rules below say which tokens,
and hence which data, the documents of the printer write.
-/

namespace TypedScheme

namespace Doc

open Text

/-- The texts that the choice of its breaks can make of a document. -/
inductive Lays : Doc → List Char → Prop
  | text (s : String) : Lays (.text s) s.toList
  | space : Lays .line [' ']
  | newline (indent : Nat) : Lays .line ('\n' :: List.replicate indent ' ')
  | cat {a b : Doc} {first second : List Char} (before : Lays a first) (after : Lays b second)
    : Lays (.cat a b) (first ++ second)
  | nest (indent : Nat) {d : Doc} {cs : List Char} (inside : Lays d cs) : Lays (.nest indent d) cs
  | group {d : Doc} {cs : List Char} (inside : Lays d cs) : Lays (.group d) cs

/-- Whatever fits where, the layout is one of them, by induction over the document. -/
theorem layout_lays (width : Nat) (flat : Bool) (indent : Nat) (rest : List Indented) (d : Doc)
    (column : Nat)
    : Lays d ((layout width flat indent rest d column).1.flatMap Piece.chars) := by
  induction d generalizing flat indent rest column with
  | text s => simpa [layout, Piece.chars] using Lays.text s
  | line =>
      cases flat with
      | true => simpa [layout, Piece.chars] using Lays.space
      | false => simpa [layout, Piece.chars] using Lays.newline (nextIndent indent rest)
  | cat a b ihFirst ihSecond =>
      simp only [layout, List.flatMap_append]
      exact .cat (ihFirst flat indent (⟨indent, b⟩ :: rest) column) (ihSecond flat indent rest _)
  | nest more d ih => exact .nest more (ih flat (indent + more) rest column)
  | group d ih => exact .group (ih _ indent rest column)

/-- The text rendered for a width is one of the layouts. -/
theorem render_lays (width : Nat) (d : Doc) : d.Lays (d.render width).toList := by
  rw [render, String.toList_ofList]
  exact layout_lays width false 0 [] d 0

-----------------------------------------------------------------------------------------
-- The tokens of a document
-----------------------------------------------------------------------------------------

/-- The document has these tokens where no word goes on after it. -/
def Spells (d : Doc) (ts : List Token) : Prop :=
  ∀ cs, d.Lays cs → ∀ rest, Bounded rest
    → Lexer.scan .gap (cs ++ rest) = ts.map .ok ++ Lexer.scan .gap rest

/-- The document has these tokens, and none of them can go on after it. -/
def Ends (d : Doc) (ts : List Token) : Prop :=
  ∀ cs, d.Lays cs → ∀ rest, Lexer.scan .gap (cs ++ rest) = ts.map .ok ++ Lexer.scan .gap rest

/-- No word goes on with the document, provided that none goes on with what follows it. -/
def Begins (d : Doc) : Prop := ∀ cs, d.Lays cs → ∀ rest, Bounded rest → Bounded (cs ++ rest)

/-- No word goes on with the document. -/
def Breaks (d : Doc) : Prop := ∀ cs, d.Lays cs → ∀ rest, Bounded (cs ++ rest)

/-- Tokens that cannot go on after the document cannot where no word goes on either. -/
theorem Ends.spells {d : Doc} {ts : List Token} (ends : Ends d ts) : Spells d ts :=
  fun cs lays rest _ => ends cs lays rest

/-- If no word goes on with the document, then none does provided that none goes on with what
follows.
-/
theorem Breaks.begins {d : Doc} (breaks : Breaks d) : Begins d :=
  fun cs lays rest _ => breaks cs lays rest

/-- A text has the tokens that the lexer finds in it where no word goes on. -/
theorem spells_text {s : String} {ts : List Token}
    (scan
      : ∀ rest, Bounded rest
        → Lexer.scan .gap (s.toList ++ rest) = ts.map .ok ++ Lexer.scan .gap rest)
    : Spells (.text s) ts := by
  intro cs lays rest bounded
  cases lays
  exact scan rest bounded

/-- A text has the tokens that the lexer finds in it, whatever follows, and they end with it. -/
theorem ends_text {s : String} {ts : List Token}
    (scan : ∀ rest, Lexer.scan .gap (s.toList ++ rest) = ts.map .ok ++ Lexer.scan .gap rest)
    : Ends (.text s) ts := by
  intro cs lays rest
  cases lays
  exact scan rest

/-- No word goes on with a text that begins with a delimiter. -/
theorem breaks_text {s : String} (delimiter : s.toList.head?.any isDelimiter = true)
    : Breaks (.text s) := by
  intro cs lays rest
  cases lays
  generalize s.toList = cs at delimiter
  cases cs with
  | nil => cases delimiter
  | cons c cs => exact bounded_cons delimiter

/-- The empty text leaves it to what follows whether a word goes on. -/
theorem begins_nothing : Begins (.text "") := by
  intro cs lays rest bounded
  cases lays
  exact bounded

/-- A line break or blank has no tokens and ends all before it. -/
theorem ends_line : Ends .line [] := by
  intro cs lays rest
  cases lays with
  | space => rfl
  | newline indent =>
      refine Lexer.scan_gap_blanks ?_ rest
      intro c member
      rcases List.mem_cons.mp member with rfl | space
      · decide
      · rw [List.eq_of_mem_replicate space]
        decide

/-- No word goes on with a line break or blank. -/
theorem breaks_line : Breaks .line := by
  intro cs lays rest
  cases lays with
  | space => exact bounded_cons (by decide)
  | newline indent => exact bounded_cons (by decide)

/-- If no word goes on with either of two documents, none goes on with both together. -/
theorem Begins.cat {a b : Doc} (first : Begins a) (second : Begins b) : Begins (.cat a b) := by
  intro cs lays rest bounded
  cases lays with
  | cat before after =>
      rw [List.append_assoc]
      exact first _ before _ (second _ after rest bounded)

/-- If no word goes on with the first of two documents, none goes on with both together. -/
theorem Breaks.cat {a b : Doc} (first : Breaks a) : Breaks (.cat a b) := by
  intro cs lays rest
  cases lays with
  | cat before after =>
      rw [List.append_assoc]
      exact first _ before _

/-- Documents spell their tokens one after the other if those of the first end with it. -/
theorem Ends.cat_spells {a b : Doc} {ts us : List Token} (first : Ends a ts) (second : Spells b us)
    : Spells (.cat a b) (ts ++ us) := by
  intro cs lays rest bounded
  cases lays with
  | cat before after =>
      rw [List.append_assoc, first _ before, second _ after rest bounded, List.map_append,
        List.append_assoc]

/-- Documents spell their tokens one after the other if no word goes on with the second. -/
theorem Spells.cat_begins {a b : Doc} {ts us : List Token} (first : Spells a ts)
    (second : Spells b us) (begins : Begins b)
    : Spells (.cat a b) (ts ++ us) := by
  intro cs lays rest bounded
  cases lays with
  | cat before after =>
      rw [List.append_assoc, first _ before _ (begins _ after rest bounded),
        second _ after rest bounded, List.map_append, List.append_assoc]

/-- Indentation changes no tokens. -/
theorem Spells.nest {d : Doc} {ts : List Token} (spells : Spells d ts) (indent : Nat)
    : Spells (.nest indent d) ts := by
  intro cs lays
  cases lays with
  | nest _ inside => exact spells cs inside

/-- Grouping changes no tokens. -/
theorem Spells.group {d : Doc} {ts : List Token} (spells : Spells d ts)
    : Spells (.group d) ts := by
  intro cs lays
  cases lays with
  | group inside => exact spells cs inside

/-- Parentheses add their two tokens. -/
theorem Spells.parens {d : Doc} {ts : List Token} (spells : Spells d ts)
    : Spells (parens d) (.openParen :: (ts ++ [.closeParen])) := by
  have opening : Ends (.text "(") [.openParen] := ends_text fun rest => rfl
  have closing : Ends (.text ")") [.closeParen] := ends_text fun rest => rfl
  exact opening.cat_spells (spells.cat_begins closing.spells (breaks_text (by decide)).begins)

-----------------------------------------------------------------------------------------
-- The data that a document writes
-----------------------------------------------------------------------------------------

/-- Every layout of the document spells the data. -/
def Writes (d : Doc) (data : List Datum) : Prop :=
  ∃ ts, d.Spells ts ∧ Datum.AllSpeltBy data ts

/-- A document that spells the tokens of a datum writes the datum. -/
theorem writes_of_spells {d : Doc} {ts : List Token} {datum : Datum} (spells : Spells d ts)
    (spelt : datum.SpeltBy ts)
    : Writes d [datum] :=
  ⟨ts, spells, Datum.allSpeltBy_singleton spelt⟩

/-- The empty text writes no data. -/
theorem writes_nothing : Writes (.text "") [] :=
  ⟨[], (ends_text fun _ => rfl).spells, .nil⟩

/-- Documents write their data one after the other if no word goes on with the second. -/
theorem Writes.cat_begins {a b : Doc} {data more : List Datum} (first : Writes a data)
    (second : Writes b more) (begins : Begins b)
    : Writes (.cat a b) (data ++ more) := by
  obtain ⟨ts, spells, spelt⟩ := first
  obtain ⟨us, spellsMore, speltMore⟩ := second
  exact ⟨ts ++ us, spells.cat_begins spellsMore begins, spelt.append speltMore⟩

/-- Documents write their data one after the other if the tokens of the first end with it. -/
theorem Ends.cat_writes {a b : Doc} {ts : List Token} {data more : List Datum} (first : Ends a ts)
    (spelt : Datum.AllSpeltBy data ts) (second : Writes b more)
    : Writes (.cat a b) (data ++ more) := by
  obtain ⟨us, spellsMore, speltMore⟩ := second
  exact ⟨ts ++ us, first.cat_spells spellsMore, spelt.append speltMore⟩

/-- In parentheses, the items written are those of a list. -/
theorem Writes.parens {d : Doc} {items : List Datum} (writes : Writes d items) (pos : Position)
    : Writes (parens d) [.list pos items] := by
  obtain ⟨ts, spells, spelt⟩ := writes
  exact writes_of_spells spells.parens (.list pos spelt)

/-- A marker with a blank behind it stands before the data. -/
theorem Writes.marked {d : Doc} {data : List Datum} {text marker : String} (writes : Writes d data)
    (ends : Ends (.text text) [.symbol marker]) (pos : Position)
    : Writes (.cat (.text text) d) (.symbol pos marker :: data) :=
  ends.cat_writes (Datum.allSpeltBy_singleton (.symbol pos marker)) writes

/-- A quote mark before a datum writes the list of `quote` and the datum. -/
theorem Writes.quotation {d : Doc} {datum : Datum} (writes : Writes d [datum])
    (pos quotePos : Position)
    : Writes (.cat (.text "'") d) [.list pos [.symbol quotePos "quote", datum]] := by
  obtain ⟨ts, spells, spelt⟩ := writes
  have mark : Ends (.text "'") [.quote] := ends_text fun rest => rfl
  cases spelt with
  | cons first others =>
      cases others
      rw [List.append_nil] at spells
      exact writes_of_spells (mark.cat_spells spells) (.quotation pos quotePos first)

/-- Documents on both sides of a break or a blank write what each of them writes. -/
theorem Writes.cat_between {d between others : Doc} {data more : List Datum}
    (first : Writes d data) (ends : Ends between []) (breaks : Breaks between)
    (second : Writes others more)
    : Writes (.cat d (.cat between others)) (data ++ more) :=
  first.cat_begins (ends.cat_writes .nil second) breaks.cat.begins

/-- Documents write the data one after the other. -/
inductive WriteEach : List Doc → List Datum → Prop
  | nil : WriteEach [] []
  | cons {d : Doc} {ds : List Doc} {data more : List Datum} (first : Writes d data)
    (others : WriteEach ds more)
    : WriteEach (d :: ds) (data ++ more)

/-- The documents of data write these one after the other if each of them writes its own, by
induction on the data.
-/
theorem writeEach_map {data : List Datum} {doc : Datum → Doc}
    (each : ∀ d ∈ data, Writes (doc d) [d])
    : WriteEach (data.map doc) data := by
  induction data with
  | nil => exact .nil
  | cons d data ih =>
      exact .cons (each d (by simp)) (ih fun d member => each d (by simp [member]))

/-- With breaks between them, documents write the data one after the other, by induction on the
data.
-/
theorem WriteEach.lines {ds : List Doc} {data : List Datum} (each : WriteEach ds data)
    : Writes (lines ds) data := by
  induction each with
  | nil => exact writes_nothing
  | cons first others ih =>
      cases others with
      | nil => simpa [Doc.lines] using first
      | cons second more => exact first.cat_between ends_line breaks_line ih

/-- So they do with spaces between them. -/
theorem WriteEach.words {ds : List Doc} {data : List Datum} (each : WriteEach ds data)
    : Writes (words ds) data := by
  have blank : Ends (.text " ") [] := ends_text fun rest => rfl
  induction each with
  | nil => exact writes_nothing
  | cons first others ih =>
      cases others with
      | nil => simpa [Doc.words] using first
      | cons second more => exact first.cat_between blank (breaks_text (by decide)) ih

/-- The form of some documents writes the list of their data. -/
theorem WriteEach.form {ds : List Doc} {items : List Datum} (each : WriteEach ds items)
    (pos : Position)
    : Writes (form ds) [.list pos items] := by
  obtain ⟨ts, spells, spelt⟩ := each.lines
  exact writes_of_spells (spells.nest 2).group.parens (.list pos spelt)

end Doc

-----------------------------------------------------------------------------------------
-- Atoms
-----------------------------------------------------------------------------------------

namespace Text

/-- Escaping is undone by reading, by induction on the text. -/
theorem unescape?_escape (cs : List Char) : unescape? (cs.flatMap escapeChar) = some cs := by
  induction cs with
  | nil => rfl
  | cons c cs ih =>
      rw [List.flatMap_cons]
      fun_cases escapeChar c with
      | case1 | case2 | case3 | case4 | case5 => simp [unescape?, unescapeChar?, ih]
      | case6 _ _ noBackslash =>
          rw [List.singleton_append, unescape?_cons noBackslash, ih]
          rfl

end Text

namespace Lexer

open Text

/-- In a string literal an escaped character of the same line is taken as it stands. -/
theorem scan_string_escaped {c : Char} (inLine : c ≠ '\n') (chars rest : List Char)
    : scan (.string 0 chars) ('\\' :: c :: rest) = scan (.string 0 (c :: '\\' :: chars)) rest := by
  simp [scan, Mode.next, inLine]

/-- In a string literal a character that is neither a quote nor a backslash is taken as it stands.
-/
theorem scan_string_char {c : Char} (noQuote : c ≠ '"') (noBackslash : c ≠ '\\')
    (chars rest : List Char)
    : scan (.string 0 chars) (c :: rest) = scan (.string 0 (c :: chars)) rest := by
  simp [scan, Mode.next, noQuote, noBackslash]

/-- The lexer stays in a string literal over what is escaped, by induction on the text. -/
theorem scan_string_escape (cs chars rest : List Char)
    : scan (.string 0 chars) (cs.flatMap escapeChar ++ '"' :: rest)
      = (stringLexeme 0 1 ((cs.flatMap escapeChar).reverse ++ chars)).content
        :: scan .gap rest := by
  induction cs generalizing chars with
  | nil => rfl
  | cons c cs ih =>
      rw [List.flatMap_cons]
      fun_cases escapeChar c with
      | case1 | case2 | case3 | case4 | case5 =>
          simp only [List.cons_append, List.nil_append]
          rw [scan_string_escaped (by decide), ih]
          simp
      | case6 _ noQuote noBackslash =>
          simp only [List.cons_append, List.nil_append]
          rw [scan_string_char noQuote noBackslash, ih]
          simp

/-- A quoted string is scanned as the string, whatever follows. -/
theorem scan_quoted (s : String) (rest : List Char)
    : scan .gap ((quoted s).toList ++ rest) = .ok (.string s) :: scan .gap rest := by
  have entered
      : scan .gap ((quoted s).toList ++ rest)
        = scan (.string 0 []) (s.toList.flatMap escapeChar ++ '"' :: rest) := by
    simp [quoted, scan, Mode.next, enter, isBlank]
  rw [entered, scan_string_escape]
  simp [stringLexeme, unescape?_escape]

end Lexer

namespace Doc

/-- A quoted string writes the string. -/
theorem writes_string (s : String) (pos : Position)
    : Writes (.text (Text.quoted s)) [.string pos s] :=
  writes_of_spells (ends_text (Lexer.scan_quoted s)).spells (.string pos s)

/-- A boolean is written by its text. -/
theorem writes_boolean (b : Bool) (pos : Position)
    : Writes (.text (booleanText b)) [.boolean pos b] := by
  have ends : Ends (.text (booleanText b)) [.boolean b] := by
    cases b with
    | true => exact ends_text fun rest => rfl
    | false => exact ends_text fun rest => rfl
  exact writes_of_spells ends.spells (.boolean pos b)

/-- A symbol is written by its name. -/
theorem writes_symbol {name : String} (isSymbol : Text.IsSymbol name) (pos : Position)
    : Writes (.text name) [.symbol pos name] := by
  have spells : Spells (.text name) [.symbol name] := by
    refine spells_text fun rest bounded => ?_
    rw [Lexer.scan_gap_word isSymbol.word bounded, Token.ofWord_symbol isSymbol]
    rfl
  exact writes_of_spells spells (.symbol pos name)

end Doc

end TypedScheme
