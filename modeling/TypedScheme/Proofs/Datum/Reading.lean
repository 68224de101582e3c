import TypedScheme.Proofs.Datum.Spans
import TypedScheme.Proofs.Datum.Spelling

/-! Which data a text is read as, and which token is blamed where it is read as none.
Tokens are complete if they spell a datum, and viable if they do so once more tokens follow. The
reader is done, reads on or has failed exactly if the tokens so far are complete, are viable but not
complete, or are not viable. Main statement: it accepts the complete sequences, and blames the first
token after a complete sequence or the first one that makes the sequence not viable.
-/

namespace TypedScheme

/-- The place that an error names for the lexeme. -/
def Lexeme.span (file : FileId) (lexeme : Lexeme) : Span :=
  Span.ofRange file lexeme.start lexeme.stop

-----------------------------------------------------------------------------------------
-- Spellings do not depend on positions
-----------------------------------------------------------------------------------------

namespace Datum

/-- Data that are alike one by one are spelt by the same tokens if each of them is, by induction on
the pairs.
-/
theorem allSpeltBy_of_alike {ds ds' : List Datum} {ts : List Token}
    (each : ∀ d ∈ ds, ∀ d' us, Alike d d' → d'.SpeltBy us → d.SpeltBy us)
    (alike : List.Forall₂ Alike ds ds') (spelt : AllSpeltBy ds' ts)
    : AllSpeltBy ds ts := by
  induction alike generalizing ts with
  | nil => exact spelt
  | @cons d d' ds ds' first others ih =>
      cases spelt with
      | cons speltFirst speltOthers =>
          refine .cons (each d (.head _) d' _ first speltFirst) (ih ?_ speltOthers)
          exact fun d member => each d (.tail _ member)

/-- Positions do not count in the spelling of a datum, by induction on its parts. -/
theorem speltBy_of_alike {d d' : Datum} {ts : List Token} (alike : Alike d d')
    (spelt : d'.SpeltBy ts)
    : d.SpeltBy ts := by
  induction d using partsInduction generalizing d' ts with
  | number | boolean | string | symbol =>
      cases alike
      cases spelt
      constructor
  | list pos items ih =>
      cases alike with
      | list _ _ alikeItems =>
          have each d (member : d ∈ items) d' us (alike : Alike d d') (spelt : d'.SpeltBy us) :=
            ih d member alike spelt
          cases spelt with
          | list _ inside => exact .list pos (allSpeltBy_of_alike each alikeItems inside)
          | quotation _ _ inside =>
              cases alikeItems with
              | cons word last =>
                  cases word
                  cases last with
                  | cons quoted nothing =>
                      cases nothing
                      exact .quotation pos _ (each _ (by simp) _ _ quoted inside)

end Datum

namespace Reader

open Datum

variable {file : FileId} {lexemes : List Lexeme} {ts : List Token}

-----------------------------------------------------------------------------------------
-- Complete and viable sequences of tokens
-----------------------------------------------------------------------------------------

/-- The tokens spell a datum. -/
def Complete (ts : List Token) : Prop := ∃ d : Datum, d.SpeltBy ts

/-- Some continuation of the tokens spells a datum. -/
def Viable (ts : List Token) : Prop := ∃ more, Complete (ts ++ more)

/-- The tokens before the place still wait for more, and no continuation of those up to and with the
token there spells a datum.
-/
def UnexpectedAt (ts : List Token) (i : Nat) : Prop :=
  Viable (ts.take i) ∧ ¬ Complete (ts.take i) ∧ ¬ Viable (ts.take (i + 1))

/-- Tokens that spell a datum begin the spelling of one. -/
theorem Complete.viable (complete : Complete ts) : Viable ts :=
  ⟨[], by rwa [List.append_nil]⟩

/-- A beginning of what can be continued can be continued too. -/
theorem Viable.of_append {more : List Token} (viable : Viable (ts ++ more)) : Viable ts := by
  obtain ⟨rest, complete⟩ := viable
  exact ⟨more ++ rest, by rwa [← List.append_assoc]⟩

/-- A datum handed to open frames can be gone on with: lists are closed behind it, innermost first,
by induction on the frames.
-/
theorem FramesSpeltBy.viable_append {frames : List Frame} {us : List Token} {d : Datum}
    (outer : FramesSpeltBy frames ts) (spelt : d.SpeltBy us)
    : Viable (ts ++ us) := by
  induction outer generalizing d us with
  | nil => exact Complete.viable ⟨d, spelt⟩
  | list start outer inside ih =>
      have closed := SpeltBy.list none (inside.append (allSpeltBy_singleton spelt))
      obtain ⟨more, complete⟩ := ih closed
      exact ⟨.closeParen :: more, by simpa using complete⟩
  | quote pos outer ih => simpa using ih (.quotation none none spelt)

/-- The tokens before the items of open lists can be continued: the lists need only be closed. -/
theorem FramesSpeltBy.viable {frames : List Frame} (outer : FramesSpeltBy frames ts) : Viable ts :=
  (outer.viable_append (.boolean none true)).of_append

-----------------------------------------------------------------------------------------
-- The state of the reader tells whether the tokens are complete or viable
-----------------------------------------------------------------------------------------

/-- The state in which the reader is after the lexemes. -/
def after (file : FileId) (lexemes : List Lexeme) : State :=
  lexemes.foldl (step file) (.reading [])

/-- A reader that has failed stays where it failed. -/
theorem after_append_of_failed {e : ParseError} (failed : after file lexemes = .failed e)
    (more : List Lexeme)
    : after file (lexemes ++ more) = .failed e := by
  rw [after, List.foldl_append, ← after, failed]
  exact foldl_step_failed file e more

/-- Lexemes without errors have one list of tokens. -/
theorem eq_of_contents {us : List Token} (contents : lexemes.map Lexeme.content = ts.map .ok)
    (contents' : lexemes.map Lexeme.content = us.map .ok)
    : ts = us :=
  List.map_injective_iff.mpr (fun _ _ => Except.ok.inj) (contents.symm.trans contents')

/-- A reader that has not failed has read what the tokens spell. -/
theorem after_speltBy (contents : lexemes.map Lexeme.content = ts.map .ok)
    : (after file lexemes).SpeltBy ts ∨ ∃ e, after file lexemes = .failed e := by
  have start : (State.reading []).SpeltBy [] := FramesSpeltBy.nil
  rcases foldl_step_speltBy start with ⟨us, contents', spelt⟩ | failed
  · exact .inl (eq_of_contents contents contents' ▸ spelt)
  · exact .inr failed

/-- The reader is done exactly if the tokens spell a datum. -/
theorem exists_done_iff (file : FileId) (contents : lexemes.map Lexeme.content = ts.map .ok)
    : (∃ d, after file lexemes = .done d) ↔ Complete ts := by
  constructor
  · rintro ⟨d, done⟩
    rcases after_speltBy contents with spelt | ⟨e, failed⟩
    · rw [done] at spelt
      exact ⟨d, spelt⟩
    · rw [done] at failed
      cases failed
  · rintro ⟨d, spelt⟩
    obtain ⟨d', _, _, handed⟩ := hands file d ts [] lexemes spelt contents
    exact ⟨d', handed⟩

/-- A failure is final, so that no continuation of the tokens is read. -/
theorem exists_failed_iff (file : FileId) (contents : lexemes.map Lexeme.content = ts.map .ok)
    : (∃ e, after file lexemes = .failed e) ↔ ¬ Viable ts := by
  constructor
  · rintro ⟨e, failed⟩ ⟨more, complete⟩
    have contents'
        : (lexemes ++ more.map fun t => Lexeme.mk 0 0 (.ok t)).map Lexeme.content
          = (ts ++ more).map .ok := by
      simp [contents]
    obtain ⟨d, done⟩ := (exists_done_iff file contents').mpr complete
    rw [after_append_of_failed failed] at done
    cases done
  · intro hopeless
    rcases after_speltBy contents with spelt | failed
    · cases state : after file lexemes with
      | failed e => exact ⟨e, rfl⟩
      | done d =>
          rw [state] at spelt
          exact absurd (Complete.viable ⟨d, spelt⟩) hopeless
      | reading frames =>
          rw [state] at spelt
          exact absurd (FramesSpeltBy.viable spelt) hopeless
    · exact failed

/-- The reader waits for more exactly if the tokens spell no datum yet but begin the spelling of
one.
-/
theorem exists_reading_iff (file : FileId) (contents : lexemes.map Lexeme.content = ts.map .ok)
    : (∃ frames, after file lexemes = .reading frames) ↔ ¬ Complete ts ∧ Viable ts := by
  rw [← exists_done_iff file contents, ← not_not (a := Viable ts),
    ← exists_failed_iff file contents]
  cases after file lexemes with
  | reading | done | failed => simp

-----------------------------------------------------------------------------------------
-- Which token is blamed
-----------------------------------------------------------------------------------------

/-- No datum is refused where one may stand, by induction on the open lists. -/
theorem complete_ne_failed (frames : List Frame) (d : Datum) (e : ParseError)
    : complete frames d ≠ .failed e := by
  induction frames generalizing d with
  | nil => nofun
  | cons frame frames ih =>
      cases frame with
      | list => nofun
      | quote pos => exact ih _

/-- Only a closing parenthesis can be refused where a datum is open. -/
theorem eq_of_token_failed {frames : List Frame} {start stop : Nat} {t : Token} {e : ParseError}
    (failed : token file frames start stop t = .failed e)
    : e = .unexpectedToken (Span.ofRange file start stop) ["expression"] := by
  cases t with
  | openParen | quote => cases failed
  | boolean | string | number | symbol => exact absurd failed (complete_ne_failed _ _ e)
  | closeParen =>
      rcases frames with _ | ⟨_ | _, frames⟩
      · cases failed
        rfl
      · exact absurd failed (complete_ne_failed _ _ e)
      · cases failed
        rfl

/-- Reading one lexeme more is one step more. -/
theorem after_take_succ {i : Nat} {lexeme : Lexeme} (here : lexemes[i]? = some lexeme)
    : after file (lexemes.take (i + 1)) = step file (after file (lexemes.take i)) lexeme := by
  rw [after, List.take_add_one, here, List.foldl_append]
  rfl

/-- What fails at one lexeme has failed in the end. -/
theorem after_of_take_failed {i : Nat} {e : ParseError}
    (failed : after file (lexemes.take i) = .failed e)
    : after file lexemes = .failed e := by
  rw [← List.take_append_drop i lexemes]
  exact after_append_of_failed failed _

/-- The lexemes up to one hold the tokens up to it. -/
theorem contents_take (contents : lexemes.map Lexeme.content = ts.map .ok) (i : Nat)
    : (lexemes.take i).map Lexeme.content = (ts.take i).map .ok := by
  rw [List.map_take, List.map_take, contents]

/-- Lexemes without errors hold a token each. -/
theorem exists_content (contents : lexemes.map Lexeme.content = ts.map .ok) {i : Nat}
    {lexeme : Lexeme} (here : lexemes[i]? = some lexeme)
    : ∃ t, lexeme.content = .ok t := by
  have member : lexeme.content ∈ ts.map .ok :=
    contents ▸ List.mem_map_of_mem (List.mem_of_getElem? here)
  obtain ⟨t, _, same⟩ := List.mem_map.mp member
  exact ⟨t, same.symm⟩

/-- After a whole datum every token is one too many. -/
theorem step_done {d : Datum} {lexeme : Lexeme} {t : Token} (content : lexeme.content = .ok t)
    : step file (.done d) lexeme = .failed (.extraToken (lexeme.span file)) := by
  simp only [step, content]
  rfl

/-- The token after a complete sequence is superfluous. -/
theorem after_of_complete (contents : lexemes.map Lexeme.content = ts.map .ok) {i : Nat}
    {lexeme : Lexeme} (here : lexemes[i]? = some lexeme) (complete : Complete (ts.take i))
    : after file lexemes = .failed (.extraToken (lexeme.span file)) := by
  obtain ⟨t, content⟩ := exists_content contents here
  obtain ⟨d, done⟩ := (exists_done_iff file (contents_take contents i)).mpr complete
  apply after_of_take_failed (i := i + 1)
  rw [after_take_succ here, done, step_done content]

/-- The reader fails at the first token after which the tokens can no longer be continued. -/
theorem after_of_unexpectedAt (contents : lexemes.map Lexeme.content = ts.map .ok) {i : Nat}
    {lexeme : Lexeme} (here : lexemes[i]? = some lexeme) (unexpected : UnexpectedAt ts i)
    : after file lexemes = .failed (.unexpectedToken (lexeme.span file) ["expression"]) := by
  obtain ⟨viable, incomplete, hopeless⟩ := unexpected
  obtain ⟨t, content⟩ := exists_content contents here
  obtain ⟨frames, reading⟩ :=
    (exists_reading_iff file (contents_take contents i)).mpr ⟨incomplete, viable⟩
  obtain ⟨e, failed⟩ :=
    (exists_failed_iff file (contents_take contents (i + 1))).mpr hopeless
  have blamed : e = .unexpectedToken (lexeme.span file) ["expression"] := by
    rw [after_take_succ here, reading, step_token content] at failed
    exact eq_of_token_failed failed
  exact blamed ▸ after_of_take_failed failed

/-- The first lexeme at which the reader fails, by induction on the number of lexemes. -/
theorem exists_first_failed {n : Nat} {e : ParseError}
    (failed : after file (lexemes.take n) = .failed e)
    : ∃ i lexeme,
        lexemes[i]? = some lexeme
        ∧ (∀ e', after file (lexemes.take i) ≠ .failed e')
        ∧ after file (lexemes.take (i + 1)) = .failed e := by
  induction n with
  | zero => cases failed
  | succ n ih =>
      cases here : lexemes[n]? with
      | none =>
          rw [List.take_add_one, here, Option.toList_none, List.append_nil] at failed
          exact ih failed
      | some lexeme =>
          cases before : after file (lexemes.take n) with
          | failed e' =>
              rw [after_take_succ here, before] at failed
              cases failed
              exact ih before
          | reading | done =>
              refine ⟨n, lexeme, here, ?_, failed⟩
              rw [before]
              nofun

/-- A failure blames a token after a complete sequence, or one that makes the sequence hopeless. -/
theorem exists_blamed (contents : lexemes.map Lexeme.content = ts.map .ok) {e : ParseError}
    (failed : after file lexemes = .failed e)
    : ∃ i lexeme,
        lexemes[i]? = some lexeme
        ∧ (e = .extraToken (lexeme.span file) ∧ Complete (ts.take i)
          ∨ e = .unexpectedToken (lexeme.span file) ["expression"] ∧ UnexpectedAt ts i) := by
  rw [← List.take_length (l := lexemes)] at failed
  obtain ⟨i, lexeme, here, notBefore, fails⟩ := exists_first_failed failed
  refine ⟨i, lexeme, here, ?_⟩
  obtain ⟨t, content⟩ := exists_content contents here
  have stepped := fails
  rw [after_take_succ here] at stepped
  cases before : after file (lexemes.take i) with
  | failed e' => exact absurd before (notBefore e')
  | done d =>
      rw [before, step_done content] at stepped
      exact .inl ⟨(State.failed.inj stepped).symm,
        (exists_done_iff file (contents_take contents i)).mp ⟨d, before⟩⟩
  | reading frames =>
      rw [before, step_token content] at stepped
      obtain ⟨incomplete, viable⟩ :=
        (exists_reading_iff file (contents_take contents i)).mp ⟨frames, before⟩
      have hopeless := (exists_failed_iff file (contents_take contents (i + 1))).mp ⟨e, fails⟩
      exact .inr ⟨eq_of_token_failed stepped, viable, incomplete, hopeless⟩

-----------------------------------------------------------------------------------------
-- Places of tokens
-----------------------------------------------------------------------------------------

/-- Lexemes in order start at offsets that grow, by induction on the order. -/
theorem pairwise_start_lt {B : Nat → Prop} {low high : Nat}
    (inOrder : InOrder (Lexeme.At B) low lexemes high)
    : lexemes.Pairwise fun a b => a.start < b.start := by
  induction inOrder with
  | nil => exact .nil
  | cons _ nonempty here rest ih =>
      refine .cons ?_ ih
      intro later member
      obtain ⟨start, stop, le, _, _, there⟩ := rest.exists_extent member
      rw [here.start_eq, there.start_eq]
      exact Nat.lt_of_lt_of_le nonempty le

/-- If the offsets of a text fit into spans, its lexemes have different spans. -/
theorem eq_of_span_eq {text : String} (fits : text.utf8ByteSize ≤ Span.maxOffset) {i j : Nat}
    {a b : Lexeme} (first : (Lexer.lex text.toList)[i]? = some a)
    (second : (Lexer.lex text.toList)[j]? = some b) (same : a.span file = b.span file)
    : i = j := by
  have inOrder := Lexer.lex_inOrder text
  have start_eq {lexeme : Lexeme} (member : lexeme ∈ Lexer.lex text.toList)
      : (lexeme.span file).start = lexeme.start := by
    obtain ⟨start, stop, _, lt, le, here⟩ := inOrder.exists_extent member
    have startFits : lexeme.start ≤ Span.maxOffset := by
      rw [here.start_eq]
      omega
    exact Nat.min_eq_left startFits
  have starts : a.start = b.start := by
    rw [← start_eq (List.mem_of_getElem? first), ← start_eq (List.mem_of_getElem? second), same]
  obtain ⟨insideI, rfl⟩ := List.getElem?_eq_some_iff.mp first
  obtain ⟨insideJ, rfl⟩ := List.getElem?_eq_some_iff.mp second
  have ordered := List.pairwise_iff_getElem.mp (pairwise_start_lt inOrder)
  rcases Nat.lt_trichotomy i j with before | same | behind
  · have lt := ordered i j insideI insideJ before
    omega
  · exact same
  · have lt := ordered j i insideJ insideI behind
    omega

end Reader

-----------------------------------------------------------------------------------------
-- The results of reading
-----------------------------------------------------------------------------------------

namespace Datum

open Reader

variable {file : FileId} {lexemes : List Lexeme} {ts : List Token}

/-- The reader succeeds with the data that the tokens spell, up to positions. -/
theorem exists_ofLexemes_iff (file : FileId) (contents : lexemes.map Lexeme.content = ts.map .ok)
    (d : Datum)
    : (∃ d', ofLexemes file lexemes = .ok d' ∧ d.Alike d') ↔ d.SpeltBy ts := by
  constructor
  · rintro ⟨d', read, alike⟩
    obtain ⟨us, contents', spelt⟩ := speltBy_of_ofLexemes read
    exact eq_of_contents contents contents' ▸ speltBy_of_alike alike spelt
  · intro spelt
    exact ofLexemes_of_speltBy spelt contents file

/-- The failure of a reader is the error of the reading. -/
theorem ofLexemes_of_failed {e : ParseError} (failed : after file lexemes = .failed e)
    : ofLexemes file lexemes = .error e := by
  rw [ofLexemes, ← after, failed]
  rfl

/-- An error other than an unexpected end is one of a lexeme. -/
theorem failed_of_ofLexemes {e : ParseError} (read : ofLexemes file lexemes = .error e)
    (notEnd : ∀ expected, e ≠ .unexpectedEnd file expected)
    : after file lexemes = .failed e := by
  rw [ofLexemes, ← after] at read
  cases state : after file lexemes with
  | reading frames =>
      rw [state] at read
      exact absurd (Except.error.inj read).symm (notEnd _)
  | done d =>
      rw [state] at read
      cases read
  | failed e' =>
      rw [state] at read
      cases read
      rfl

/-- The end comes too early exactly if the tokens are a proper beginning of the spelling of a datum.
-/
theorem ofLexemes_unexpectedEnd_iff (file : FileId)
    (contents : lexemes.map Lexeme.content = ts.map .ok)
    : (∃ expected, ofLexemes file lexemes = .error (.unexpectedEnd file expected))
      ↔ ¬ Complete ts ∧ Viable ts := by
  rw [← exists_reading_iff file contents, ofLexemes, ← after]
  cases state : after file lexemes with
  | reading frames => exact ⟨fun _ => ⟨frames, rfl⟩, fun _ => ⟨_, rfl⟩⟩
  | done d => simp [finish]
  | failed e =>
      obtain ⟨i, lexeme, _, ⟨rfl, _⟩ | ⟨rfl, _⟩⟩ := exists_blamed contents state
      · simp [finish]
      · simp [finish]

/-- A token is one too many exactly if the tokens before it spell a datum. -/
theorem ofLexemes_extraToken_iff (contents : lexemes.map Lexeme.content = ts.map .ok) (span : Span)
    : ofLexemes file lexemes = .error (.extraToken span)
      ↔ ∃ i lexeme,
          lexemes[i]? = some lexeme ∧ lexeme.span file = span ∧ Complete (ts.take i) := by
  constructor
  · intro read
    obtain ⟨i, lexeme, here, ⟨same, complete⟩ | ⟨other, _⟩⟩ :=
      exists_blamed contents (failed_of_ofLexemes read nofun)
    · exact ⟨i, lexeme, here, (ParseError.extraToken.inj same).symm, complete⟩
    · cases other
  · rintro ⟨i, lexeme, here, rfl, complete⟩
    exact ofLexemes_of_failed (after_of_complete contents here complete)

/-- A token is unexpected exactly if it is the first after which the tokens can no longer be
continued.
-/
theorem ofLexemes_unexpectedToken_iff (contents : lexemes.map Lexeme.content = ts.map .ok)
    (span : Span)
    : (∃ expected, ofLexemes file lexemes = .error (.unexpectedToken span expected))
      ↔ ∃ i lexeme,
          lexemes[i]? = some lexeme ∧ lexeme.span file = span ∧ UnexpectedAt ts i := by
  constructor
  · rintro ⟨expected, read⟩
    obtain ⟨i, lexeme, here, ⟨other, _⟩ | ⟨same, unexpected⟩⟩ :=
      exists_blamed contents (failed_of_ofLexemes read nofun)
    · cases other
    · exact ⟨i, lexeme, here, (ParseError.unexpectedToken.inj same).1.symm, unexpected⟩
  · rintro ⟨i, lexeme, here, rfl, unexpected⟩
    exact ⟨_, ofLexemes_of_failed (after_of_unexpectedAt contents here unexpected)⟩

/-- A lexical error counts unless the reader has failed before it. -/
theorem ofLexemes_of_lexical {front : List Lexeme} {bad : Lexeme} {error : LexicalError}
    (contents : front.map Lexeme.content = ts.map .ok) (wrong : bad.content = .error error)
    (file : FileId) (rest : List Lexeme)
    : (Viable ts
        → ofLexemes file (front ++ bad :: rest) = .error (.ofLexical (bad.span file) error))
      ∧ (¬ Viable ts → ofLexemes file (front ++ bad :: rest) = ofLexemes file front) := by
  constructor
  · intro viable
    have going : ∀ e, after file front ≠ .failed e := by
      intro e failed
      exact (exists_failed_iff file contents).mp ⟨e, failed⟩ viable
    have stepped
        : step file (after file front) bad = .failed (.ofLexical (bad.span file) error) := by
      cases state : after file front with
      | failed e => exact absurd state (going e)
      | reading | done =>
          simp only [step, wrong]
          rfl
    apply ofLexemes_of_failed
    rw [after, List.foldl_append, ← after, List.foldl_cons, stepped]
    exact foldl_step_failed file _ rest
  · intro hopeless
    obtain ⟨e, failed⟩ := (exists_failed_iff file contents).mpr hopeless
    rw [ofLexemes_of_failed failed, ofLexemes_of_failed (after_append_of_failed failed _)]

/-- Of a text without lexical errors: a datum is read exactly if the tokens of the text spell it up
to positions; the end of the text is unexpected exactly if the tokens are viable but not complete; a
token is superfluous exactly if those before it are complete; and a token is unexpected exactly if
those before it are viable, but neither complete nor viable together with it. Such an error names
the place of the token, and if the offsets of the text fit into spans, no other token has that
place. A lexical error is what reading gives if the tokens before it are complete or viable, and it
makes no difference otherwise.
-/
theorem read_blames_first (file : FileId) {text : String}
    (lexed : Lexer.lex text.toList = lexemes)
    : (∀ ts,
        lexemes.map Lexeme.content = ts.map .ok
        → (∀ d : Datum, (∃ d', Datum.read file text = .ok d' ∧ d.Alike d') ↔ d.SpeltBy ts)
          ∧ ((∃ expected, Datum.read file text = .error (.unexpectedEnd file expected))
              ↔ ¬ Complete ts ∧ Viable ts)
          ∧ (∀ span,
              Datum.read file text = .error (.extraToken span)
              ↔ ∃ i lexeme,
                  lexemes[i]? = some lexeme ∧ lexeme.span file = span ∧ Complete (ts.take i))
          ∧ (∀ span,
              (∃ expected, Datum.read file text = .error (.unexpectedToken span expected))
              ↔ ∃ i lexeme,
                  lexemes[i]? = some lexeme ∧ lexeme.span file = span ∧ UnexpectedAt ts i)
          ∧ (text.utf8ByteSize ≤ Span.maxOffset
              → ∀ i lexeme,
                  lexemes[i]? = some lexeme
                  → (Datum.read file text = .error (.extraToken (lexeme.span file))
                      ↔ Complete (ts.take i))
                    ∧ ((∃ expected,
                          Datum.read file text
                          = .error (.unexpectedToken (lexeme.span file) expected))
                        ↔ UnexpectedAt ts i)))
      ∧ ∀ front bad rest ts error,
          lexemes = front ++ bad :: rest
          → front.map Lexeme.content = ts.map .ok
          → bad.content = .error error
          → (Complete ts ∨ Viable ts
              → Datum.read file text = .error (.ofLexical (bad.span file) error))
            ∧ (¬ Viable ts → Datum.read file text = ofLexemes file front) := by
  subst lexed
  constructor
  · intro ts contents
    refine ⟨exists_ofLexemes_iff file contents, ofLexemes_unexpectedEnd_iff file contents,
      ofLexemes_extraToken_iff contents, ofLexemes_unexpectedToken_iff contents, ?_⟩
    intro fits i lexeme here
    constructor
    · refine (ofLexemes_extraToken_iff contents _).trans ⟨?_, fun complete => ?_⟩
      · rintro ⟨j, other, there, same, complete⟩
        exact eq_of_span_eq fits there here same ▸ complete
      · exact ⟨i, lexeme, here, rfl, complete⟩
    · refine (ofLexemes_unexpectedToken_iff contents _).trans ⟨?_, fun unexpected => ?_⟩
      · rintro ⟨j, other, there, same, unexpected⟩
        exact eq_of_span_eq fits there here same ▸ unexpected
      · exact ⟨i, lexeme, here, rfl, unexpected⟩
  · intro front bad rest ts error splits contents wrong
    obtain ⟨reported, ignored⟩ := ofLexemes_of_lexical contents wrong file rest
    rw [← splits] at reported ignored
    refine ⟨?_, ignored⟩
    rintro (complete | viable)
    · exact reported complete.viable
    · exact reported viable

/-- In `('a ')` it is the last parenthesis that is blamed, as the quote before it waits for a datum;
in `'#` the lexical error is reported, as the quote alone is viable.
-/
theorem read_blames_first_quotes
    : UnexpectedAt [.openParen, .quote, .symbol "a", .quote, .closeParen] 4
      ∧ Datum.read 1 "'#" = .error (.ofLexical ⟨1, 1, 2⟩ .unexpectedChar) := by
  constructor
  · have lexed
        : Lexer.lex "('a ')".toList
          = [⟨0, 1, .ok .openParen⟩, ⟨1, 2, .ok .quote⟩, ⟨2, 3, .ok (.symbol "a")⟩,
            ⟨4, 5, .ok .quote⟩, ⟨5, 6, .ok .closeParen⟩] := by
      rfl
    have blamed
        : Datum.read 1 "('a ')" = .error (.unexpectedToken ⟨1, 5, 6⟩ ["expression"]) := by
      rfl
    obtain ⟨_, _, _, _, places⟩ :=
      (read_blames_first 1 lexed).1 [.openParen, .quote, .symbol "a", .quote, .closeParen] rfl
    exact (places (by decide) 4 _ rfl).2.mp ⟨_, blamed⟩
  · have lexed
        : Lexer.lex "'#".toList = [⟨0, 1, .ok .quote⟩, ⟨1, 2, .error .unexpectedChar⟩] := by
      rfl
    have viable : Viable [.quote] :=
      ⟨[.symbol "a"], .list none [.symbol none "quote", .symbol none "a"],
        .quotation none none (.symbol none "a")⟩
    have found := (read_blames_first 1 lexed).2 [_] _ [] [.quote] _ rfl rfl rfl
    exact found.1 (.inr viable)

end Datum

end TypedScheme
