import Mathlib.Tactic.SplitIfs
import TypedScheme.Token.Lexer

/-! Where the lexemes of a text lie.
Main statement: the lexemes follow one another in the text, none of them is empty, and each begins
and ends at a character boundary.
-/

namespace TypedScheme

/-- The pieces follow one another between two offsets. Each has an extent that is not empty. -/
inductive InOrder {α : Type} (At : α → Nat → Nat → Prop) : Nat → List α → Nat → Prop
  | nil {low high : Nat} (le : low ≤ high) : InOrder At low [] high
  | cons {low start stop high : Nat} {piece : α} {pieces : List α} (after : low ≤ start)
      (nonempty : start < stop) (here : At piece start stop) (rest : InOrder At stop pieces high)
    : InOrder At low (piece :: pieces) high

namespace InOrder

variable {α : Type} {At : α → Nat → Nat → Prop} {low middle high : Nat} {pieces : List α}

/-- Pieces in order end behind where they start, by induction on the pieces. -/
theorem le (inOrder : InOrder At low pieces high) : low ≤ high := by
  induction inOrder with
  | nil le => exact le
  | cons after nonempty _ _ ih => omega

/-- Pieces in order stay so if they may end later, by induction on the pieces. -/
theorem mono {high' : Nat} (inOrder : InOrder At low pieces high) (le : high ≤ high')
    : InOrder At low pieces high' := by
  induction inOrder with
  | nil le' => exact .nil (Nat.le_trans le' le)
  | cons after nonempty here _ ih => exact .cons after nonempty here (ih le)

/-- Pieces in order are put behind others in order, by induction on the first ones. -/
theorem append {more : List α} (front : InOrder At low pieces middle)
    (back : InOrder At middle more high)
    : InOrder At low (pieces ++ more) high := by
  induction front with
  | nil le =>
      cases back with
      | nil le' => exact .nil (Nat.le_trans le le')
      | cons after nonempty here rest => exact .cons (Nat.le_trans le after) nonempty here rest
  | cons after nonempty here _ ih => exact .cons after nonempty here (ih back)

/-- Pieces in order can be parted anywhere, by induction on the first ones. -/
theorem of_append {more : List α} (inOrder : InOrder At low (pieces ++ more) high)
    : ∃ middle, InOrder At low pieces middle ∧ InOrder At middle more high := by
  induction pieces generalizing low with
  | nil => exact ⟨low, .nil (Nat.le_refl low), inOrder⟩
  | cons piece pieces ih =>
      cases inOrder with
      | cons after nonempty here rest =>
          obtain ⟨middle, front, back⟩ := ih rest
          exact ⟨middle, .cons after nonempty here front, back⟩

/-- One more piece behind the others keeps them in order. -/
theorem concat {piece : α} {start stop : Nat} (front : InOrder At low pieces middle)
    (after : middle ≤ start) (nonempty : start < stop) (here : At piece start stop)
    : InOrder At low (pieces ++ [piece]) stop :=
  front.append (.cons after nonempty here (.nil (Nat.le_refl stop)))

/-- Every piece has an extent between the two ends, by induction on the pieces. -/
theorem exists_extent {piece : α} (inOrder : InOrder At low pieces high) (member : piece ∈ pieces)
    : ∃ start stop, low ≤ start ∧ start < stop ∧ stop ≤ high ∧ At piece start stop := by
  induction inOrder with
  | nil => cases member
  | cons after nonempty here rest ih =>
      rcases List.mem_cons.mp member with rfl | later
      · exact ⟨_, _, after, nonempty, rest.le, here⟩
      · obtain ⟨start, stop, after', nonempty', le, there⟩ := ih later
        exact ⟨start, stop, by omega, nonempty', le, there⟩

end InOrder

/-- A character of the text begins at the byte, or the text ends there. -/
def Text.Boundary (text : String) (offset : Nat) : Prop := String.Pos.Raw.IsValid text ⟨offset⟩

namespace Text

/-- A boundary is the number of bytes of some beginning of the text. -/
theorem boundary_iff {text : String} {offset : Nat}
    : Boundary text offset
      ↔ ∃ before after, text = before ++ after ∧ before.utf8ByteSize = offset := by
  simp only [Boundary, String.Pos.Raw.isValid_iff_exists_append, String.Pos.Raw.ext_iff,
    String.byteIdx_rawEndPos, eq_comm (a := offset)]

/-- A boundary is not behind the end of the text. -/
theorem Boundary.le {text : String} {offset : Nat} (boundary : Boundary text offset)
    : offset ≤ text.utf8ByteSize := by
  obtain ⟨before, after, rfl, rfl⟩ := boundary_iff.mp boundary
  rw [String.utf8ByteSize_append]
  exact Nat.le_add_right _ _

end Text

/-- The lexeme has this extent, and it begins and ends where it may. -/
structure Lexeme.At (B : Nat → Prop) (lexeme : Lexeme) (start stop : Nat) : Prop where
  start_eq : lexeme.start = start
  stop_eq : lexeme.stop = stop
  startsAt : B start
  stopsAt : B stop

namespace Lexer

variable {B : Nat → Prop} {reached offset : Nat}

/-- What is known of an unfinished lexeme, where the lexemes before it end at byte `reached`. -/
def Mode.Begun (B : Nat → Prop) (reached offset : Nat) : Mode → Prop
  | .gap | .comment => reached ≤ offset
  | .hash start => reached ≤ start ∧ B start ∧ offset = start + 1
  | .word start _ | .string start _ | .escape start _ | .unclosed start =>
      reached ≤ start ∧ B start ∧ start < offset

/-- The lexemes, which come last first, follow one another, and the mode is about what comes then. -/
def Advances (B : Nat → Prop) (reached : Nat) (found : List Lexeme) (mode : Mode) (offset : Nat)
    : Prop :=
  ∃ reached', InOrder (Lexeme.At B) reached found.reverse reached' ∧ mode.Begun B reached' offset

/-- Where no lexeme is finished, only the unfinished one counts. -/
theorem advances_nil {mode : Mode} (begun : mode.Begun B reached offset)
    : Advances B reached [] mode offset :=
  ⟨reached, .nil (Nat.le_refl reached), begun⟩

/-- A lexeme finished before others is in order with them. -/
theorem Advances.after {lexeme : Lexeme} {found : List Lexeme} {mode : Mode} {start stop : Nat}
    (rest : Advances B stop found mode offset) (after : reached ≤ start) (nonempty : start < stop)
    (here : lexeme.At B start stop)
    : Advances B reached (found ++ [lexeme]) mode offset := by
  obtain ⟨reached', inOrder, begun⟩ := rest
  refine ⟨reached', ?_, begun⟩
  rw [List.reverse_append]
  exact .cons after nonempty here inOrder

/-- A lexeme that ends with the character read. -/
theorem advances_single {start : Nat} (after : reached ≤ start) (nonempty : start < offset)
    (startsAt : B start) (stopsAt : B offset) (content : Except LexicalError Token)
    : Advances B reached [⟨start, offset, content⟩] .gap offset := by
  have rest : Advances B offset [] .gap offset := advances_nil (Nat.le_refl offset)
  exact rest.after after nonempty ⟨rfl, rfl, startsAt, stopsAt⟩

/-- The first character of a lexeme keeps the lexemes in order. -/
theorem enter_advances {c : Char} (le : reached ≤ offset) (here : B offset)
    (next : B (offset + c.utf8Size))
    : Advances B reached (enter offset c).1 (enter offset c).2 (offset + c.utf8Size) := by
  have positive := c.utf8Size_pos
  rw [enter]
  split_ifs with blank semicolon opens closes quotes string hash
  · exact advances_nil (Nat.le_trans le (Nat.le_add_right _ _))
  · exact advances_nil (Nat.le_trans le (Nat.le_add_right _ _))
  · subst opens
    exact advances_single le (Nat.lt_add_one offset) here next _
  · subst closes
    exact advances_single le (Nat.lt_add_one offset) here next _
  · subst quotes
    exact advances_single le (Nat.lt_add_one offset) here next _
  · exact advances_nil ⟨le, here, Nat.lt_add_of_pos_right positive⟩
  · subst hash
    exact advances_nil ⟨le, here, rfl⟩
  · exact advances_nil ⟨le, here, Nat.lt_add_of_pos_right positive⟩

/-- A string literal, valid or not, extends from its first quote to its last. -/
theorem stringLexeme_extent (start stop : Nat) (chars : List Char)
    : ∃ content, stringLexeme start stop chars = ⟨start, stop, content⟩ := by
  rw [stringLexeme]
  split
  · exact ⟨_, rfl⟩
  · exact ⟨_, rfl⟩

/-- Every step of the lexer keeps the lexemes in order, by cases on the mode. -/
theorem next_advances {mode : Mode} {c : Char} (begun : mode.Begun B reached offset)
    (here : B offset) (next : B (offset + c.utf8Size))
    : Advances B reached (mode.next offset c).1 (mode.next offset c).2 (offset + c.utf8Size) := by
  have positive := c.utf8Size_pos
  cases mode with
  | gap => exact enter_advances begun here next
  | comment =>
      have le : reached ≤ offset := begun
      rw [Mode.next]
      split_ifs
      · exact advances_nil (Nat.le_trans le (Nat.le_add_right _ _))
      · exact advances_nil (Nat.le_trans le (Nat.le_add_right _ _))
  | hash start =>
      obtain ⟨after, startsAt, rfl⟩ := begun
      rw [Mode.next]
      split_ifs with isTrue isFalse
      · subst isTrue
        exact advances_single after (by omega) startsAt next _
      · subst isFalse
        exact advances_single after (by omega) startsAt next _
      · exact (enter_advances (Nat.le_refl _) here next).after after (Nat.lt_add_one start)
          ⟨rfl, rfl, startsAt, here⟩
  | word start chars =>
      obtain ⟨after, startsAt, lt⟩ := begun
      rw [Mode.next]
      split_ifs
      · exact (enter_advances (Nat.le_refl _) here next).after after lt ⟨rfl, rfl, startsAt, here⟩
      · exact advances_nil ⟨after, startsAt, Nat.lt_add_right _ lt⟩
  | string start chars =>
      obtain ⟨after, startsAt, lt⟩ := begun
      rw [Mode.next]
      split_ifs with closes
      · subst closes
        obtain ⟨content, extent⟩ := stringLexeme_extent start (offset + 1) chars
        rw [extent]
        exact advances_single after (Nat.lt_add_right _ lt) startsAt next content
      · exact advances_nil ⟨after, startsAt, Nat.lt_add_right _ lt⟩
      · exact advances_nil ⟨after, startsAt, Nat.lt_add_right _ lt⟩
  | escape start chars =>
      obtain ⟨after, startsAt, lt⟩ := begun
      rw [Mode.next]
      split_ifs
      · exact advances_nil ⟨after, startsAt, Nat.lt_add_right _ lt⟩
      · exact advances_nil ⟨after, startsAt, Nat.lt_add_right _ lt⟩
  | unclosed start =>
      obtain ⟨after, startsAt, lt⟩ := begun
      exact advances_nil ⟨after, startsAt, Nat.lt_add_right _ lt⟩

/-- The lexemes found and the one begun, if any, lie before the offset, which is a boundary. -/
def State.Placed (B : Nat → Prop) (s : State) : Prop :=
  B s.offset ∧ Advances B 0 s.found s.mode s.offset

/-- One more character keeps the lexemes placed, if it ends at a boundary. -/
theorem State.Placed.step {s : State} {c : Char} (placed : s.Placed B)
    (next : B (s.offset + c.utf8Size))
    : (s.step c).Placed B := by
  obtain ⟨here, reached, inOrder, begun⟩ := placed
  obtain ⟨reached', more, begun'⟩ := next_advances begun here next
  refine ⟨next, reached', ?_, begun'⟩
  rw [State.step, List.reverse_append]
  exact inOrder.append more

/-- At the end of the text all lexemes are in order. -/
theorem State.Placed.finish {s : State} (placed : s.Placed B)
    : InOrder (Lexeme.At B) 0 s.finish s.offset := by
  obtain ⟨here, reached, inOrder, begun⟩ := placed
  rw [State.finish, List.reverse_append]
  apply inOrder.append
  cases mode : s.mode with
  | gap | comment =>
      rw [mode] at begun
      exact .nil begun
  | hash start =>
      rw [mode] at begun
      obtain ⟨after, startsAt, same⟩ := begun
      rw [same] at here ⊢
      exact .cons after (Nat.lt_add_one start) ⟨rfl, rfl, startsAt, here⟩ (.nil (Nat.le_refl _))
  | word start chars | string start chars | escape start chars | unclosed start =>
      rw [mode] at begun
      obtain ⟨after, startsAt, lt⟩ := begun
      exact .cons after lt ⟨rfl, rfl, startsAt, here⟩ (.nil (Nat.le_refl _))

/-- Lexing on from a boundary of the text, by induction on the characters after it. -/
theorem foldl_step_placed {text before : String} {cs : List Char} {s : State}
    (splits : text = before ++ String.ofList cs) (offset_eq : s.offset = before.utf8ByteSize)
    (placed : s.Placed (Text.Boundary text))
    : (cs.foldl State.step s).Placed (Text.Boundary text)
      ∧ (cs.foldl State.step s).offset = text.utf8ByteSize := by
  induction cs generalizing before s with
  | nil =>
      refine ⟨placed, ?_⟩
      simp [splits, offset_eq]
  | cons c cs ih =>
      have splits' : text = before ++ String.singleton c ++ String.ofList cs := by
        rw [splits, String.ofList_cons, String.append_assoc]
      have size : s.offset + c.utf8Size = (before ++ String.singleton c).utf8ByteSize := by
        rw [offset_eq, String.utf8ByteSize_append, String.utf8ByteSize_singleton]
      exact ih splits' size (placed.step (Text.boundary_iff.mpr ⟨_, _, splits', size.symm⟩))

/-- The lexemes of a text lie in order between character boundaries. -/
theorem lex_inOrder (text : String)
    : InOrder (Lexeme.At (Text.Boundary text)) 0 (lex text.toList) text.utf8ByteSize := by
  have splits : text = "" ++ String.ofList text.toList := by simp
  have begins : start.Placed (Text.Boundary text) :=
    ⟨Text.boundary_iff.mpr ⟨_, _, splits, rfl⟩, advances_nil (Nat.le_refl 0)⟩
  obtain ⟨placed, offset⟩ := foldl_step_placed splits rfl begins
  rw [← offset]
  exact placed.finish

end Lexer

end TypedScheme
