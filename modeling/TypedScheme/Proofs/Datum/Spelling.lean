import Mathlib.Data.List.Forall2
import TypedScheme.Datum.Reader
import TypedScheme.Proofs.Induction
import TypedScheme.Proofs.Token.Lexing

/-! The tokens that spell a datum, and what the reader makes of them.
Main statement: the reader accepts exactly the sequences of tokens that spell a datum, and the datum
that it returns is that one up to positions.
-/

namespace TypedScheme

namespace Datum

-----------------------------------------------------------------------------------------
-- Data up to positions, and the atoms of a datum
-----------------------------------------------------------------------------------------

/-- The data differ only in positions. -/
inductive Alike : Datum → Datum → Prop
  | number (pos pos' : Position) (value : Number) : Alike (.number pos value) (.number pos' value)
  | boolean (pos pos' : Position) (value : Bool) : Alike (.boolean pos value) (.boolean pos' value)
  | string (pos pos' : Position) (value : String) : Alike (.string pos value) (.string pos' value)
  | symbol (pos pos' : Position) (name : String) : Alike (.symbol pos name) (.symbol pos' name)
  | list (pos pos' : Position) {items items' : List Datum} (each : List.Forall₂ Alike items items')
    : Alike (.list pos items) (.list pos' items')

mutual
/-- The symbols of a datum, from left to right. -/
def symbols : Datum → List String
  | .number _ _ | .boolean _ _ | .string _ _ => []
  | .symbol _ name => [name]
  | .list _ items => symbolsOfAll items

def symbolsOfAll : List Datum → List String
  | [] => []
  | d :: ds => d.symbols ++ symbolsOfAll ds
end

mutual
/-- The numbers of a datum, from left to right. -/
def numbers : Datum → List Number
  | .number _ value => [value]
  | .boolean _ _ | .string _ _ | .symbol _ _ => []
  | .list _ items => numbersOfAll items

def numbersOfAll : List Datum → List Number
  | [] => []
  | d :: ds => d.numbers ++ numbersOfAll ds
end

/-- The symbols of several data are those of each of them, by induction on the data. -/
theorem mem_symbolsOfAll {name : String} {ds : List Datum}
    : name ∈ symbolsOfAll ds ↔ ∃ d ∈ ds, name ∈ d.symbols := by
  induction ds with
  | nil => simp [symbolsOfAll]
  | cons d ds ih => simp [symbolsOfAll, ih]

/-- The numbers of several data are those of each of them, by induction on the data. -/
theorem mem_numbersOfAll {value : Number} {ds : List Datum}
    : value ∈ numbersOfAll ds ↔ ∃ d ∈ ds, value ∈ d.numbers := by
  induction ds with
  | nil => simp [numbersOfAll]
  | cons d ds ih => simp [numbersOfAll, ih]

/-- A symbol is its only symbol. -/
@[simp]
theorem mem_symbols_symbol {pos : Position} {symbol name : String}
    : name ∈ (Datum.symbol pos symbol).symbols ↔ name = symbol := by
  simp [symbols]

/-- The symbols of a list are those of its items. -/
@[simp]
theorem mem_symbols_list {pos : Position} {items : List Datum} {name : String}
    : name ∈ (Datum.list pos items).symbols ↔ ∃ item ∈ items, name ∈ item.symbols := by
  simp only [symbols, mem_symbolsOfAll]

/-- A number is its only number. -/
@[simp]
theorem mem_numbers_number {pos : Position} {number value : Number}
    : value ∈ (Datum.number pos number).numbers ↔ value = number := by
  simp [numbers]

/-- The numbers of a list are those of its items. -/
@[simp]
theorem mem_numbers_list {pos : Position} {items : List Datum} {value : Number}
    : value ∈ (Datum.list pos items).numbers ↔ ∃ item ∈ items, value ∈ item.numbers := by
  simp only [numbers, mem_numbersOfAll]

/-- The numbers of the datum are finite. -/
def Finite (d : Datum) : Prop := ∀ n ∈ d.numbers, n.isFinite = true

/-- The items of a datum with finite numbers only have finite numbers only. -/
theorem Finite.item {pos : Position} {items : List Datum} (finite : (Datum.list pos items).Finite)
    {item : Datum} (member : item ∈ items)
    : item.Finite :=
  fun n inside => finite n (mem_numbers_list.mpr ⟨item, member, inside⟩)

/-- The numbers of the datum are numbers, finite or not. -/
def Defined (d : Datum) : Prop := ∀ n ∈ d.numbers, n.isNaN = false

/-- The items of a datum without a NaN have none. -/
theorem Defined.item {pos : Position} {items : List Datum}
    (defined : (Datum.list pos items).Defined) {item : Datum} (member : item ∈ items)
    : item.Defined :=
  fun n inside => defined n (mem_numbers_list.mpr ⟨item, member, inside⟩)

/-- A finite number is not NaN. -/
theorem Finite.defined {d : Datum} (finite : d.Finite) : d.Defined := by
  intro n inside
  have exponent : n.exponent ≠ 2047 := by simpa [Number.isFinite] using finite n inside
  simp [Number.isNaN, exponent]

-----------------------------------------------------------------------------------------
-- Spelling
-----------------------------------------------------------------------------------------

mutual
/-- The tokens spell the datum: an atom is its own token, a list stands between parentheses, and a
list of `quote` and a datum may also be a quote mark and the datum.
-/
inductive SpeltBy : Datum → List Token → Prop
  | number (pos : Position) (value : Number) : SpeltBy (.number pos value) [.number value]
  | boolean (pos : Position) (value : Bool) : SpeltBy (.boolean pos value) [.boolean value]
  | string (pos : Position) (value : String) : SpeltBy (.string pos value) [.string value]
  | symbol (pos : Position) (name : String) : SpeltBy (.symbol pos name) [.symbol name]
  | list (pos : Position) {items : List Datum} {ts : List Token} (inside : AllSpeltBy items ts)
    : SpeltBy (.list pos items) (.openParen :: (ts ++ [.closeParen]))
  | quotation (pos quotePos : Position) {d : Datum} {ts : List Token} (inside : SpeltBy d ts)
    : SpeltBy (.list pos [.symbol quotePos "quote", d]) (.quote :: ts)

inductive AllSpeltBy : List Datum → List Token → Prop
  | nil : AllSpeltBy [] []
  | cons {d : Datum} {ds : List Datum} {ts us : List Token} (first : SpeltBy d ts)
    (others : AllSpeltBy ds us)
    : AllSpeltBy (d :: ds) (ts ++ us)
end

mutual
/-- The lexemes spell the datum, and its positions are theirs. -/
inductive SpeltAt (file : FileId) : Datum → List Lexeme → Prop
  | number {lexeme : Lexeme} {value : Number} (content : lexeme.content = .ok (.number value))
    : SpeltAt file (.number (some (Span.ofRange file lexeme.start lexeme.stop)) value) [lexeme]
  | boolean {lexeme : Lexeme} {value : Bool} (content : lexeme.content = .ok (.boolean value))
    : SpeltAt file (.boolean (some (Span.ofRange file lexeme.start lexeme.stop)) value) [lexeme]
  | string {lexeme : Lexeme} {value : String} (content : lexeme.content = .ok (.string value))
    : SpeltAt file (.string (some (Span.ofRange file lexeme.start lexeme.stop)) value) [lexeme]
  | symbol {lexeme : Lexeme} {name : String} (content : lexeme.content = .ok (.symbol name))
    : SpeltAt file (.symbol (some (Span.ofRange file lexeme.start lexeme.stop)) name) [lexeme]
  | list {opening closing : Lexeme} {items : List Datum} {lexemes : List Lexeme}
    (opens : opening.content = .ok .openParen) (closes : closing.content = .ok .closeParen)
    (inside : AllSpeltAt file items lexemes)
    : SpeltAt file (.list (some (Span.ofRange file opening.start closing.stop)) items)
        (opening :: (lexemes ++ [closing]))
  | quotation {mark : Lexeme} {d : Datum} {lexemes : List Lexeme}
    (quotes : mark.content = .ok .quote) (inside : SpeltAt file d lexemes)
    : SpeltAt file (Reader.quotation (some (Span.ofRange file mark.start mark.stop)) d)
        (mark :: lexemes)

inductive AllSpeltAt (file : FileId) : List Datum → List Lexeme → Prop
  | nil : AllSpeltAt file [] []
  | cons {d : Datum} {ds : List Datum} {front back : List Lexeme} (first : SpeltAt file d front)
    (others : AllSpeltAt file ds back)
    : AllSpeltAt file (d :: ds) (front ++ back)
end

/-- The spellings of data put one after the other are put one after the other, by induction on the
first data.
-/
theorem AllSpeltBy.append {ds es : List Datum} {ts us : List Token} (front : AllSpeltBy ds ts)
    (back : AllSpeltBy es us)
    : AllSpeltBy (ds ++ es) (ts ++ us) := by
  induction ds generalizing ts with
  | nil =>
      cases front
      exact back
  | cons d ds ih =>
      cases front with
      | cons first others =>
          rw [List.append_assoc]
          exact .cons first (ih others)

/-- A single datum is spelt by its own tokens. -/
theorem allSpeltBy_singleton {d : Datum} {ts : List Token} (spelt : SpeltBy d ts)
    : AllSpeltBy [d] ts := by
  rw [← List.append_nil ts]
  exact .cons spelt .nil

/-- A symbol of a list of data that is spelt is a token, or `quote`, if it is so in each item. -/
theorem mem_of_allSpeltBy {name : String} {ds : List Datum} {ts : List Token}
    (each
      : ∀ d ∈ ds, ∀ us, SpeltBy d us → name ∈ d.symbols → .symbol name ∈ us ∨ name = "quote")
    (spelt : AllSpeltBy ds ts) {d : Datum} (inside : d ∈ ds) (member : name ∈ d.symbols)
    : .symbol name ∈ ts ∨ name = "quote" := by
  induction ds generalizing ts with
  | nil => cases inside
  | cons first others ih =>
      cases spelt with
      | @cons _ _ us vs speltFirst speltOthers =>
          rcases List.mem_cons.mp inside with rfl | later
          · rcases each d (by simp) us speltFirst member with token | quote
            · exact .inl (List.mem_append_left _ token)
            · exact .inr quote
          · have eachOther e (inOthers : e ∈ others) := each e (List.mem_cons_of_mem _ inOthers)
            rcases ih eachOther speltOthers later with token | quote
            · exact .inl (List.mem_append_right _ token)
            · exact .inr quote

/-- Every symbol of a datum is among the tokens that spell it, except for a quote mark's `quote`, by
induction over the parts.
-/
theorem mem_of_speltBy {d : Datum} {ts : List Token} (spelt : SpeltBy d ts) {name : String}
    (member : name ∈ d.symbols)
    : .symbol name ∈ ts ∨ name = "quote" := by
  induction d using partsInduction generalizing ts with
  | number | boolean | string => simp [symbols] at member
  | symbol pos symbol =>
      cases spelt
      exact .inl (by simpa using member)
  | list pos items ih =>
      obtain ⟨item, inItems, inItem⟩ := mem_symbols_list.mp member
      cases spelt with
      | list _ inside =>
          have each d (inItems : d ∈ items) us (spelt : SpeltBy d us) := ih d inItems spelt
          rcases mem_of_allSpeltBy each inside inItems inItem with token | quote
          · exact .inl (List.mem_cons_of_mem _ (List.mem_append_left _ token))
          · exact .inr quote
      | @quotation _ _ d us inside =>
          rcases List.mem_cons.mp inItems with rfl | later
          · exact .inr (by simpa using inItem)
          · have same : item = d := List.mem_singleton.mp later
            subst same
            rcases ih item inItems inside inItem with token | quote
            · exact .inl (List.mem_cons_of_mem _ token)
            · exact .inr quote

end Datum

-----------------------------------------------------------------------------------------
-- The reader accepts every spelling
-----------------------------------------------------------------------------------------

namespace Reader

open Datum

/-- A lexeme without an error is read as its token. -/
theorem step_token {file : FileId} {frames : List Frame} {lexeme : Lexeme} {t : Token}
    (content : lexeme.content = .ok t)
    : step file (.reading frames) lexeme = token file frames lexeme.start lexeme.stop t := by
  simp only [step, content]

/-- Lexemes that spell the datum hand one like it to the innermost open frame, with the positions of
the lexemes.
-/
def Hands (file : FileId) (d : Datum) : Prop :=
  ∀ (ts : List Token) (frames : List Frame) (lexemes : List Lexeme),
    SpeltBy d ts
    → lexemes.map Lexeme.content = ts.map .ok
    → ∃ d',
        Alike d d'
        ∧ SpeltAt file d' lexemes
        ∧ lexemes.foldl (step file) (.reading frames) = complete frames d'

/-- A frame collects the items that are handed to it, by induction on the items. -/
theorem foldl_step_items {file : FileId} {ds : List Datum} (each : ∀ d ∈ ds, Hands file d)
    {ts : List Token} (spelt : AllSpeltBy ds ts) {lexemes : List Lexeme}
    (contents : lexemes.map Lexeme.content = ts.map .ok) (start : Nat) (items : List Datum)
    (frames : List Frame)
    : ∃ ds',
        List.Forall₂ Alike ds ds'
        ∧ AllSpeltAt file ds' lexemes
        ∧ lexemes.foldl (step file) (.reading (.list start items :: frames))
          = .reading (.list start (ds'.reverse ++ items) :: frames) := by
  induction ds generalizing ts lexemes items with
  | nil =>
      cases spelt
      rw [List.map_nil, List.map_eq_nil_iff] at contents
      subst contents
      exact ⟨[], .nil, .nil, rfl⟩
  | cons d ds ih =>
      cases spelt with
      | @cons _ _ us vs speltFirst speltOthers =>
          rw [List.map_append] at contents
          obtain ⟨front, back, rfl, here, later⟩ := List.map_eq_append_iff.mp contents
          obtain ⟨d', alike, spelt', hands⟩ :=
            each d (by simp) us (.list start items :: frames) front speltFirst here
          obtain ⟨ds', others, speltOthers', collects⟩ :=
            ih (fun d member => each d (by simp [member])) speltOthers later (d' :: items)
          refine ⟨d' :: ds', .cons alike others, .cons spelt' speltOthers', ?_⟩
          rw [List.foldl_append, hands, complete, collects]
          simp

/-- The reader hands on every datum that its tokens spell, by induction over the datum. -/
theorem hands (file : FileId) (d : Datum) : Hands file d := by
  induction d using partsInduction with
  | number pos value | boolean pos value | string pos value | symbol pos value =>
      intro ts frames lexemes spelt contents
      cases spelt
      obtain ⟨lexeme, rest, rfl, content, none⟩ := List.map_eq_cons_iff.mp contents
      rw [List.map_nil, List.map_eq_nil_iff] at none
      subst none
      exact ⟨_, by constructor, by constructor; exact content, (step_token content).trans rfl⟩
  | list pos items ih =>
      intro ts frames lexemes spelt contents
      cases spelt with
      | @list _ _ us inside =>
          obtain ⟨opening, others, rfl, content, rest⟩ := List.map_eq_cons_iff.mp contents
          rw [List.map_append] at rest
          obtain ⟨inner, last, rfl, here, final⟩ := List.map_eq_append_iff.mp rest
          obtain ⟨closing, nothing, rfl, lastContent, none⟩ := List.map_eq_cons_iff.mp final
          rw [List.map_nil, List.map_eq_nil_iff] at none
          subst none
          obtain ⟨items', alike, speltItems, collects⟩ :=
            foldl_step_items ih inside here opening.start [] frames
          refine ⟨.list (some (Span.ofRange file opening.start closing.stop)) items', ?_, ?_, ?_⟩
          · exact .list _ _ alike
          · exact .list content lastContent speltItems
          · rw [List.foldl_cons, step_token content, List.foldl_append, token, collects,
              List.foldl_cons, step_token lastContent, token, List.foldl_nil]
            simp
      | @quotation _ _ d us inside =>
          obtain ⟨mark, others, rfl, content, rest⟩ := List.map_eq_cons_iff.mp contents
          obtain ⟨d', alike, spelt', handed⟩ := ih d (by simp) us
            (.quote (some (Span.ofRange file mark.start mark.stop)) :: frames) others inside rest
          refine ⟨quotation (some (Span.ofRange file mark.start mark.stop)) d', ?_, ?_, ?_⟩
          · exact .list _ _ (.cons (.symbol _ _ "quote") (.cons alike .nil))
          · exact .quotation content spelt'
          · rw [List.foldl_cons, step_token content, token, handed, complete]

-----------------------------------------------------------------------------------------
-- The reader accepts nothing else
-----------------------------------------------------------------------------------------

/-- The tokens from which the reader made the frames. -/
inductive FramesSpeltBy : List Frame → List Token → Prop
  | nil : FramesSpeltBy [] []
  | list {frames : List Frame} {ts us : List Token} {items : List Datum} (start : Nat)
    (outer : FramesSpeltBy frames ts) (inside : AllSpeltBy items.reverse us)
    : FramesSpeltBy (.list start items :: frames) (ts ++ .openParen :: us)
  | quote {frames : List Frame} {ts : List Token} (pos : Position)
    (outer : FramesSpeltBy frames ts)
    : FramesSpeltBy (.quote pos :: frames) (ts ++ [.quote])

/-- The reader has not failed, and came to this state by the tokens. -/
def State.SpeltBy (ts : List Token) : State → Prop
  | .reading frames => FramesSpeltBy frames ts
  | .done d => d.SpeltBy ts
  | .failed _ => False

/-- A datum that is complete is spelt behind the items that were read before it, by induction on the
open lists.
-/
theorem complete_speltBy {frames : List Frame} {ts us : List Token} {d : Datum}
    (outer : FramesSpeltBy frames ts) (spelt : d.SpeltBy us)
    : (complete frames d).SpeltBy (ts ++ us) := by
  induction outer generalizing d us with
  | nil => exact spelt
  | list start outer inside ih =>
      rw [complete, List.append_assoc, List.cons_append]
      refine .list start outer ?_
      rw [List.reverse_cons]
      exact inside.append (allSpeltBy_singleton spelt)
  | quote pos outer ih =>
      rw [complete, List.append_assoc, List.singleton_append]
      exact ih (.quotation _ _ spelt)

/-- One more token is part of the spelling, or the reader fails. -/
theorem token_speltBy {file : FileId} {frames : List Frame} {ts : List Token}
    (outer : FramesSpeltBy frames ts) (start stop : Nat) (t : Token)
    : (token file frames start stop t).SpeltBy (ts ++ [t])
      ∨ ∃ e, token file frames start stop t = .failed e := by
  cases t with
  | openParen => exact .inl (.list start outer .nil)
  | quote => exact .inl (.quote _ outer)
  | boolean value => exact .inl (complete_speltBy outer (.boolean _ value))
  | string value => exact .inl (complete_speltBy outer (.string _ value))
  | number value => exact .inl (complete_speltBy outer (.number _ value))
  | symbol name => exact .inl (complete_speltBy outer (.symbol _ name))
  | closeParen =>
      cases outer with
      | nil => exact .inr ⟨_, rfl⟩
      | quote pos outer => exact .inr ⟨_, rfl⟩
      | list first outer inside =>
          rw [List.append_assoc, List.cons_append]
          exact .inl (complete_speltBy outer (.list _ inside))

/-- A failure is not taken back by what follows, by induction on the lexemes. -/
theorem foldl_step_failed (file : FileId) (e : ParseError) (lexemes : List Lexeme)
    : lexemes.foldl (step file) (.failed e) = .failed e := by
  induction lexemes with
  | nil => rfl
  | cons lexeme lexemes ih => exact ih

/-- One step of the reader adds its token to what has been read, or fails. -/
theorem step_speltBy {file : FileId} {s : State} {ts : List Token} (spelt : s.SpeltBy ts)
    (lexeme : Lexeme)
    : (∃ t, lexeme.content = .ok t ∧ (step file s lexeme).SpeltBy (ts ++ [t]))
      ∨ ∃ e, step file s lexeme = .failed e := by
  cases content : lexeme.content with
  | error e =>
      cases s with
      | reading | done | failed => exact .inr ⟨_, by simp only [step, content]; rfl⟩
  | ok t =>
      cases s with
      | reading frames =>
          rw [step_token content]
          rcases token_speltBy spelt lexeme.start lexeme.stop t with longer | failed
          · exact .inl ⟨t, rfl, longer⟩
          · exact .inr failed
      | done d => exact .inr ⟨_, by simp only [step, content]; rfl⟩
      | failed e => exact spelt.elim

/-- A run of the reader that does not fail has read tokens only, and they are part of the spelling,
by induction on the lexemes.
-/
theorem foldl_step_speltBy {file : FileId} {lexemes : List Lexeme} {s : State} {ts : List Token}
    (spelt : s.SpeltBy ts)
    : (∃ us,
        lexemes.map Lexeme.content = us.map .ok
        ∧ (lexemes.foldl (step file) s).SpeltBy (ts ++ us))
      ∨ ∃ e, lexemes.foldl (step file) s = .failed e := by
  induction lexemes generalizing s ts with
  | nil => exact .inl ⟨[], rfl, by simpa using spelt⟩
  | cons lexeme lexemes ih =>
      rw [List.foldl_cons]
      rcases step_speltBy spelt lexeme with ⟨t, content, longer⟩ | ⟨e, failed⟩
      · rcases ih longer with ⟨us, contents, all⟩ | failed
        · refine .inl ⟨t :: us, by simp [content, contents], ?_⟩
          simpa using all
        · exact .inr failed
      · rw [failed]
        exact .inr ⟨e, foldl_step_failed file e lexemes⟩

end Reader

namespace Datum

open Reader

/-- What is read was spelt by the tokens of the text. -/
theorem speltBy_of_ofLexemes {file : FileId} {lexemes : List Lexeme} {d : Datum}
    (read : ofLexemes file lexemes = .ok d)
    : ∃ ts, lexemes.map Lexeme.content = ts.map .ok ∧ d.SpeltBy ts := by
  have start : (State.reading []).SpeltBy [] := FramesSpeltBy.nil
  rw [ofLexemes] at read
  rcases foldl_step_speltBy start with ⟨ts, contents, spelt⟩ | ⟨e, failed⟩
  · refine ⟨ts, contents, ?_⟩
    generalize lexemes.foldl (step file) (.reading []) = final at read spelt
    cases final with
    | reading | failed => cases read
    | done d' =>
        cases read
        exact spelt
  · rw [failed] at read
    cases read

/-- A spelling is read as the datum that it spells. -/
theorem ofLexemes_of_speltBy {lexemes : List Lexeme} {d : Datum} {ts : List Token}
    (spelt : d.SpeltBy ts) (contents : lexemes.map Lexeme.content = ts.map .ok) (file : FileId)
    : ∃ d', ofLexemes file lexemes = .ok d' ∧ Alike d d' := by
  obtain ⟨d', alike, _, handed⟩ := hands file d ts [] lexemes spelt contents
  refine ⟨d', ?_, alike⟩
  rw [ofLexemes, handed]
  rfl

/-- What is read has the positions of the lexemes. -/
theorem speltAt_of_ofLexemes {file : FileId} {lexemes : List Lexeme} {d : Datum}
    (read : ofLexemes file lexemes = .ok d)
    : d.SpeltAt file lexemes := by
  obtain ⟨ts, contents, spelt⟩ := speltBy_of_ofLexemes read
  obtain ⟨d', _, speltAt, handed⟩ := hands file d ts [] lexemes spelt contents
  rw [ofLexemes, handed] at read
  cases read
  exact speltAt

/-- Every symbol of a datum that was read has the name of a symbol. -/
theorem isSymbol_of_read {file : FileId} {text : String} {d : Datum}
    (read : Datum.read file text = .ok d) {name : String} (member : name ∈ d.symbols)
    : Text.IsSymbol name := by
  obtain ⟨ts, contents, spelt⟩ := speltBy_of_ofLexemes read
  rcases mem_of_speltBy spelt member with token | quote
  · have inText : .ok (.symbol name) ∈ Lexer.scan .gap text.toList := by
      rw [← Lexer.contents_lex, contents]
      exact List.mem_map_of_mem token
    have sound : Lexer.Mode.gap.Sound := trivial
    exact Lexer.isSymbol_of_mem_scan sound inText
  · rw [quote]
    exact ⟨⟨by decide, by decide, by simp [Text.isDelimiter, Text.isBlank]⟩, by decide⟩

end Datum

end TypedScheme
