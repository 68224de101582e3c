import Mathlib.Logic.Relation
import TypedScheme.Datum.Reader
import TypedScheme.Proofs.Token.Spans

/-! Where the data of a text lie.
Main statement: if the offsets of a text fit into spans, then each datum in what is read has a known
span between two character boundaries, the items of a list follow one another inside the span of the
list, and the span in an error of the reader lies between two boundaries as well.
-/

namespace TypedScheme

namespace Span

/-- The span is a piece of the file that is not empty, and it begins and ends where it may. -/
structure Cuts (B : Nat → Prop) (file : FileId) (span : Span) : Prop where
  file_eq : span.file = file
  nonempty : span.start < span.stop
  startsAt : B span.start
  stopsAt : B span.stop

/-- The second span is a piece of the first one. -/
structure Includes (outer inner : Span) : Prop where
  file_eq : inner.file = outer.file
  start_le : outer.start ≤ inner.start
  stop_le : inner.stop ≤ outer.stop

/-- A span includes itself. -/
theorem Includes.refl (span : Span) : span.Includes span := ⟨rfl, Nat.le_refl _, Nat.le_refl _⟩

/-- Inclusion of spans is transitive. -/
theorem Includes.trans {outer middle inner : Span} (including : outer.Includes middle)
    (included : middle.Includes inner)
    : outer.Includes inner where
  file_eq := included.file_eq.trans including.file_eq
  start_le := Nat.le_trans including.start_le included.start_le
  stop_le := Nat.le_trans included.stop_le including.stop_le

/-- A range within the greatest offset is kept as it is. -/
theorem ofRange_eq {file : FileId} {start stop : Nat} (le : start ≤ stop) (fits : stop ≤ maxOffset)
    : ofRange file start stop = ⟨file, start, stop⟩ := by
  rw [ofRange, Nat.min_eq_left fits, Nat.min_eq_left (Nat.le_trans le fits)]

end Span

namespace Datum

variable {B : Nat → Prop} {file : FileId}

/-- The items of a list; other data have none. -/
def items : Datum → List Datum
  | .list _ items => items
  | _ => []

/-- The second datum is the first one or inside it. -/
abbrev Within : Datum → Datum → Prop := Relation.ReflTransGen fun d item => item ∈ d.items

/-- What is within an item is within its list. -/
theorem within_of_mem {pos : Position} {items : List Datum} {item d : Datum} (member : item ∈ items)
    (inside : item.Within d)
    : (Datum.list pos items).Within d :=
  Relation.ReflTransGen.head member inside

/-- The datum has this extent in the file. -/
def At (file : FileId) (d : Datum) (start stop : Nat) : Prop := d.pos = some ⟨file, start, stop⟩

/-- Each datum in this one has a known span, in which its items follow one another. -/
def Placed (B : Nat → Prop) (file : FileId) (d : Datum) : Prop :=
  ∀ d',
    d.Within d'
    → ∃ span,
        d'.pos = some span
        ∧ span.Cuts B file
        ∧ InOrder (At file) span.start d'.items span.stop

/-- All parts of a placed datum are placed. -/
theorem Placed.within {d d' : Datum} (placed : d.Placed B file) (inside : d.Within d')
    : d'.Placed B file :=
  fun d'' further => placed d'' (inside.trans further)

/-- The items of a placed datum are placed. -/
theorem Placed.item {d item : Datum} (placed : d.Placed B file) (member : item ∈ d.items)
    : item.Placed B file :=
  placed.within (.single member)

/-- A placed datum has a span that cuts the text at boundaries. -/
theorem Placed.exists_span {d : Datum} (placed : d.Placed B file)
    : ∃ span, d.pos = some span ∧ span.Cuts B file := by
  obtain ⟨span, known, cuts, _⟩ := placed d .refl
  exact ⟨span, known, cuts⟩

/-- A placed datum cuts the text at boundaries wherever it is known to stand. -/
theorem Placed.cuts {d : Datum} {start stop : Nat} (placed : d.Placed B file)
    (here : d.At file start stop)
    : (Span.mk file start stop).Cuts B file := by
  obtain ⟨span, known, cuts⟩ := placed.exists_span
  cases known.symm.trans here
  exact cuts

/-- A datum is placed if its items are, in order and between its own ends. -/
theorem placed_of_items {d : Datum} {start stop : Nat} (here : d.At file start stop)
    (cuts : (Span.mk file start stop).Cuts B file) (inOrder : InOrder (At file) start d.items stop)
    (each : ∀ item ∈ d.items, item.Placed B file)
    : d.Placed B file := by
  intro d' inside
  rcases inside.cases_head with rfl | ⟨item, member, further⟩
  · exact ⟨_, here, cuts, inOrder⟩
  · exact each item member d' further

/-- A datum without items is placed if it stands at boundaries. -/
theorem placed_atom {d : Datum} {start stop : Nat} (here : d.At file start stop)
    (cuts : (Span.mk file start stop).Cuts B file) (atom : d.items = [])
    : d.Placed B file := by
  apply placed_of_items here cuts
  · rw [atom]
    exact .nil (Nat.le_of_lt cuts.nonempty)
  · rw [atom]
    nofun

/-- What is inside a datum lies inside its span, by induction on the way to it. -/
theorem Placed.includes {d d' : Datum} (placed : d.Placed B file) (inside : d.Within d')
    : ∃ outer inner, d.pos = some outer ∧ d'.pos = some inner ∧ outer.Includes inner := by
  induction inside with
  | refl =>
      obtain ⟨span, known, _⟩ := placed.exists_span
      exact ⟨span, span, known, known, .refl span⟩
  | @tail middle item inside member ih =>
      obtain ⟨outer, inner, known, knownInner, includes⟩ := ih
      obtain ⟨span, knownSpan, cuts, inOrder⟩ := placed middle inside
      cases knownSpan.symm.trans knownInner
      obtain ⟨start, stop, after, _, before, here⟩ := inOrder.exists_extent member
      exact ⟨outer, _, known, here, includes.trans ⟨cuts.file_eq.symm, after, before⟩⟩

end Datum

/-- The spans in the error are pieces of the file. -/
def ParseError.Placed (B : Nat → Prop) (file : FileId) : ParseError → Prop
  | .unexpectedEnd file' _ => file' = file
  | .unexpectedToken span _ | .extraToken span | .unexpectedChar span | .invalidEscape span
  | .unterminatedString span => span.Cuts B file
  | .malformedExpr pos _ _ | .malformedType pos _ => ∃ span, pos = some span ∧ span.Cuts B file

/-- A lexical error is placed where its lexeme is. -/
theorem ParseError.ofLexical_placed {B : Nat → Prop} {file : FileId} {span : Span}
    (cuts : span.Cuts B file) (error : LexicalError)
    : (ofLexical span error).Placed B file := by
  cases error with
  | unexpectedChar | invalidEscape | unterminatedString => exact cuts

namespace Reader

open Datum

variable {B : Nat → Prop} {file : FileId}

/-- The frames hold what was read before an offset. -/
inductive FramesPlaced (B : Nat → Prop) (file : FileId) : List Frame → Nat → Prop
  | nil (offset : Nat) : FramesPlaced B file [] offset
  | list {start offset : Nat} {items : List Datum} {frames : List Frame} (startsAt : B start)
      (inOrder : InOrder (At file) start items.reverse offset)
      (each : ∀ item ∈ items, item.Placed B file) (outer : FramesPlaced B file frames start)
    : FramesPlaced B file (.list start items :: frames) offset
  | quote {start stop offset : Nat} {frames : List Frame}
      (cuts : (Span.mk file start stop).Cuts B file) (before : stop ≤ offset)
      (outer : FramesPlaced B file frames start)
    : FramesPlaced B file (.quote (some ⟨file, start, stop⟩) :: frames) offset

/-- The items of open lists that end before an offset end before every later one. -/
theorem FramesPlaced.mono {frames : List Frame} {offset offset' : Nat}
    (placed : FramesPlaced B file frames offset) (le : offset ≤ offset')
    : FramesPlaced B file frames offset' := by
  cases placed with
  | nil => exact .nil offset'
  | list startsAt inOrder each outer => exact .list startsAt (inOrder.mono le) each outer
  | quote cuts before outer => exact .quote cuts (Nat.le_trans before le) outer

/-- Everything that the state holds lies in the file, and what is not complete before an offset. -/
def State.Placed (B : Nat → Prop) (file : FileId) (offset : Nat) : State → Prop
  | .reading frames => FramesPlaced B file frames offset
  | .done d => d.Placed B file
  | .failed error => error.Placed B file

/-- A quotation reaches from the quote sign to the end of what is quoted. -/
theorem quotation_at {first last start stop : Nat} {d : Datum} (sign : first < last)
    (after : last ≤ start) (nonempty : start < stop) (here : d.At file start stop)
    : (quotation (some ⟨file, first, last⟩) d).At file first stop := by
  have known : d.pos = some ⟨file, start, stop⟩ := here
  have low : min first start = first := by omega
  have high : max last stop = stop := by omega
  have fused
      : (quotation (some ⟨file, first, last⟩) d).pos
        = Position.fuse (some ⟨file, first, last⟩) d.pos :=
    rfl
  rw [At, fused, known, Position.fuse, Span.fuse, if_pos rfl, low, high]

/-- A quotation reaches from its mark to the end of the quoted datum, and is placed if these are. -/
theorem quotation_placed {first last start stop : Nat} {d : Datum}
    (sign : (Span.mk file first last).Cuts B file) (placed : d.Placed B file)
    (here : d.At file start stop) (after : last ≤ start)
    : (quotation (some ⟨file, first, last⟩) d).At file first stop
      ∧ (quotation (some ⟨file, first, last⟩) d).Placed B file := by
  have cuts := placed.cuts here
  have signLt : first < last := sign.nonempty
  have datumLt : start < stop := cuts.nonempty
  have extent := quotation_at signLt after datumLt here
  have firstLt : first < stop := by omega
  refine ⟨extent, placed_of_items extent ⟨rfl, firstLt, sign.startsAt, cuts.stopsAt⟩ ?_ ?_⟩
  · exact .cons (Nat.le_refl _) signLt rfl (.cons after datumLt here (.nil (Nat.le_refl _)))
  · intro item member
    rcases List.mem_cons.mp member with rfl | isDatum
    · exact placed_atom rfl sign rfl
    · cases List.mem_singleton.mp isDatum
      exact placed

/-- A placed datum that is complete leaves everything placed, by induction on the frames, as
quotations are handed on.
-/
theorem complete_placed {frames : List Frame} {d : Datum} {offset start stop : Nat}
    (outer : FramesPlaced B file frames offset) (placed : d.Placed B file)
    (here : d.At file start stop) (after : offset ≤ start)
    : (complete frames d).Placed B file stop := by
  induction outer generalizing d start with
  | nil => exact placed
  | list startsAt inOrder each outer =>
      refine FramesPlaced.list startsAt ?_ (List.forall_mem_cons.mpr ⟨placed, each⟩) outer
      rw [List.reverse_cons]
      exact inOrder.concat after (placed.cuts here).nonempty here
  | quote cuts before outer ih =>
      obtain ⟨extent, placed'⟩ := quotation_placed cuts placed here (Nat.le_trans before after)
      exact ih placed' extent (Nat.le_refl _)

/-- A token that stands behind what has been read leaves everything placed, whichever token it is.
-/
theorem token_placed {frames : List Frame} {offset start stop : Nat}
    (outer : FramesPlaced B file frames offset) (after : offset ≤ start)
    (cuts : (Span.mk file start stop).Cuts B file) (fits : stop ≤ Span.maxOffset) (t : Token)
    : (token file frames start stop t).Placed B file stop := by
  have lt : start < stop := cuts.nonempty
  have span : Span.ofRange file start stop = ⟨file, start, stop⟩ :=
    Span.ofRange_eq (Nat.le_of_lt lt) fits
  cases t with
  | openParen => exact .list cuts.startsAt (.nil (Nat.le_of_lt lt)) nofun (outer.mono after)
  | quote =>
      rw [token, span]
      exact .quote cuts (Nat.le_refl stop) (outer.mono after)
  | boolean | string | number | symbol =>
      rw [token, span]
      exact complete_placed outer (placed_atom rfl cuts rfl) rfl after
  | closeParen =>
      cases outer with
      | nil | quote =>
          rw [token, span]
          · exact cuts
          · nofun
      | @list first _ items frames startsAt inOrder each outer =>
          have firstLt : first < stop := Nat.lt_of_le_of_lt (Nat.le_trans inOrder.le after) lt
          rw [token, Span.ofRange_eq (Nat.le_of_lt firstLt) fits]
          refine complete_placed outer ?_ rfl (Nat.le_refl first)
          refine placed_of_items rfl ⟨rfl, firstLt, startsAt, cuts.stopsAt⟩ ?_ ?_
          · exact inOrder.mono (Nat.le_trans after (Nat.le_of_lt lt))
          · intro item member
            exact each item (List.mem_reverse.mp member)

/-- One more lexeme, which lies after the offset. -/
theorem step_placed {s : State} {lexeme : Lexeme} {offset start stop : Nat}
    (placed : s.Placed B file offset) (after : offset ≤ start) (nonempty : start < stop)
    (here : lexeme.At B start stop) (fits : stop ≤ Span.maxOffset)
    : (step file s lexeme).Placed B file stop := by
  obtain ⟨rfl, rfl, startsAt, stopsAt⟩ := here
  have cuts : (Span.mk file lexeme.start lexeme.stop).Cuts B file :=
    ⟨rfl, nonempty, startsAt, stopsAt⟩
  have span : Span.ofRange file lexeme.start lexeme.stop = ⟨file, lexeme.start, lexeme.stop⟩ :=
    Span.ofRange_eq (Nat.le_of_lt nonempty) fits
  cases content : lexeme.content with
  | error error =>
      cases s with
      | failed error => exact placed
      | reading | done =>
          simp only [step, content, span]
          exact ParseError.ofLexical_placed cuts error
  | ok t =>
      cases s with
      | failed error => exact placed
      | done d =>
          simp only [step, content, span]
          exact cuts
      | reading frames =>
          simp only [step, content]
          exact token_placed placed after cuts fits t

/-- Reading lexemes in order keeps everything placed, by induction on the lexemes. -/
theorem foldl_step_placed {lexemes : List Lexeme} {s : State} {offset stop : Nat}
    (inOrder : InOrder (Lexeme.At B) offset lexemes stop) (fits : stop ≤ Span.maxOffset)
    (placed : s.Placed B file offset)
    : ∃ reached, (lexemes.foldl (step file) s).Placed B file reached := by
  induction inOrder generalizing s with
  | nil => exact ⟨_, placed⟩
  | cons after nonempty here rest ih =>
      exact ih fits (step_placed placed after nonempty here (Nat.le_trans rest.le fits))

end Reader

namespace Datum

variable {file : FileId} {text : String}

/-- Where the reader ends with a text. -/
theorem read_final (fits : text.utf8ByteSize ≤ Span.maxOffset)
    : ∃ final offset,
        Datum.read file text = Reader.finish file final
        ∧ final.Placed (Text.Boundary text) file offset := by
  have start : (Reader.State.reading []).Placed (Text.Boundary text) file 0 :=
    Reader.FramesPlaced.nil 0
  obtain ⟨offset, placed⟩ := Reader.foldl_step_placed (Lexer.lex_inOrder text) fits start
  exact ⟨_, offset, rfl, placed⟩

/-- A datum that was read is placed at boundaries of its text. -/
theorem placed_of_read {d : Datum} (fits : text.utf8ByteSize ≤ Span.maxOffset)
    (read : Datum.read file text = .ok d)
    : d.Placed (Text.Boundary text) file := by
  obtain ⟨final, offset, ends, placed⟩ := read_final fits
  rw [ends] at read
  cases final with
  | reading | failed => cases read
  | done d' =>
      cases read
      exact placed

/-- A parse error is placed at boundaries of its text. -/
theorem placed_of_read_error {error : ParseError} (fits : text.utf8ByteSize ≤ Span.maxOffset)
    (failed : Datum.read file text = .error error)
    : error.Placed (Text.Boundary text) file := by
  obtain ⟨final, offset, ends, placed⟩ := read_final fits
  rw [ends] at failed
  cases final with
  | reading frames =>
      cases failed
      rfl
  | done => cases failed
  | failed error' =>
      cases failed
      exact placed

end Datum

end TypedScheme
