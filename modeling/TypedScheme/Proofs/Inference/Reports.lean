import TypedScheme.Proofs.Inference.HeldTypes
import TypedScheme.Proofs.Unification.Termination

/-! Where the errors of an inference come from.
Each error is one of the expression or of a part of it: a variable without a type, a construct that
has none, two types that clash, or several such errors. Only types that the state holds are ever
unified. Main statement: in a well-formed state every inference ends with a held type or with such
an error.
-/

namespace TypedScheme

-----------------------------------------------------------------------------------------
-- Clashes
-----------------------------------------------------------------------------------------

/-- The parts of a held type and the bindings of the table are held. -/
theorem State.WellFormed.spreads_holds {s : State} (wf : s.WellFormed)
    : s.table.snapshot.2.Spreads s.Holds where
  inside holds := by simpa using holds.below
  parts holds := State.holds_procedure_iff.mp holds
  bound bound := ⟨wf.table.allocated bound, wf.table.plain bound⟩

/-- Two types of a well-formed state up to `s` could not be unified. The unification failed with the
error and left the table.
-/
inductive State.Clashed (s : State) : UnifyError → Table → Prop
  | intro {earlier : State} {a b : OpenTy} {error : UnifyError} {left : Table}
      (later : earlier.Extends s) (wf : earlier.WellFormed) (holdsA : earlier.Holds a)
      (holdsB : earlier.Holds b)
      (failed : Unify.types a b earlier.table.snapshot.2 = .error error left)
    : s.Clashed error left

namespace State.Clashed

variable {s : State} {error : UnifyError} {left : Table}

/-- A clash stays one in every later state. -/
theorem of_extends {s' : State} (clashed : s.Clashed error left) (later : s.Extends s')
    : s'.Clashed error left := by
  obtain ⟨earlier, wf, holdsA, holdsB, failed⟩ := clashed
  exact ⟨earlier.trans later, wf, holdsA, holdsB, failed⟩

/-- The table left is well formed, and its variables are variables of the state, with their names. -/
theorem wellFormed_named (clashed : s.Clashed error left)
    : left.WellFormed
      ∧ left.size ≤ s.table.size
      ∧ ∀ v, v < left.size → left.name? v = s.table.name? v := by
  obtain @⟨_, a, b, _, _, later, wf, _, _, failed⟩ := clashed
  have binds := (Unify.types_unifies a b _ wf.table.snapshot.toGrounded).binds
  rw [failed] at binds
  have size := binds.size
  refine ⟨binds.wellFormed wf.table.snapshot, size ▸ later.table.size, ?_⟩
  intro v inside
  have before := size ▸ inside
  exact (binds.extends.named before).trans (later.table.named before).symm

/-- The error is about types that the state holds and that are over the variables of the table left.
-/
theorem about (clashed : s.Clashed error left)
    : error.About fun u => s.Holds u ∧ u.Below left.size := by
  obtain @⟨_, a, b, _, _, later, wf, holdsA, holdsB, failed⟩ := clashed
  have grounded := wf.table.snapshot.toGrounded
  have ends := Unify.types_ends grounded holdsA.below holdsB.below
  have binds := (Unify.types_unifies a b _ grounded).binds
  rw [failed] at ends binds
  obtain ⟨_, about⟩ := ends.about wf.spreads_holds holdsA holdsB
  have size : left.size = _ := binds.size
  exact about.imp fun _ holds => ⟨holds.of_extends later, size ▸ holds.below⟩

/-- So the error can be explained in that table. -/
theorem explain_eq (clashed : s.Clashed error left) (context : Expr)
    : error.explain left context = error.toTypeError left context := by
  have below := clashed.about.imp fun _ holds => holds.2
  exact UnifyError.explain_eq (below.stray?_eq_none clashed.wellFormed_named.1.toGrounded) context

end State.Clashed

-----------------------------------------------------------------------------------------
-- Reports
-----------------------------------------------------------------------------------------

namespace Expr

/-- The name of a construct without a type, and why it has none. -/
def unsupported? : Expr → Option (String × String)
  | .letrec _ bindings _ =>
      if bindings.all fun (_, value) => Infer.isLambda value then none
      else some ("letrec", "letrec only supports the binding of procedures")
  | .program _ _ => some ("program", "typing whole programs is not supported yet")
  | .quote _ _ => some ("quote", "quoted literals can't be typed")
  | .assign _ _ _ => some ("set!", "assignments can't be typed")
  | _ => none

/-- How an expression is shown in errors. -/
def shown (e : Expr) : String := Text.cap UnifyError.contextWidth e.text

/-- The inference of the expression can end with the error in the state. -/
inductive Reports : Expr → State → TypeError → Prop
  | unboundIdentifier {s : State} (pos : Position) (id : Identifier)
    : Reports (.var pos id) s (.unboundIdentifier id (Position.orElse id.pos pos))
  /-- The error is explained in the table that the unification left. -/
  | clash {e : Expr} {s : State} {error : UnifyError} {left : Table}
      (clashed : s.Clashed error left)
    : Reports e s (error.explain left e)
  | unsupported {e : Expr} {s : State} {construct reason : String}
      (untyped : e.unsupported? = some (construct, reason))
    : Reports e s (.unsupported construct reason e.shown e.pos)
  | emptyBody {e : Expr} {s : State} (empty : e.body? = some [])
    : Reports e s (.unsupported "empty sequence" "a body can't be empty" e.shown e.pos)
  | several {e : Expr} {s : State} {first second : TypeError} {others : List TypeError}
      (each : ∀ error ∈ first :: second :: others, Reports e s error)
    : Reports e s (.multiple e.shown (first :: second :: others) e.pos)
  | inPart {e part : Expr} {s : State} {error : TypeError} (member : part ∈ e.parts)
      (reports : Reports part s error)
    : Reports e s error

/-- A report stays one in every later state, by induction on the report. -/
theorem Reports.of_extends {e : Expr} {s s' : State} {error : TypeError} (reports : e.Reports s error)
    (later : s.Extends s')
    : e.Reports s' error := by
  induction reports with
  | unboundIdentifier pos id => exact .unboundIdentifier pos id
  | clash clashed => exact .clash (clashed.of_extends later)
  | unsupported untyped => exact .unsupported untyped
  | emptyBody empty => exact .emptyBody empty
  | several _ ih => exact .several fun error member => ih error member later
  | inPart member _ ih => exact .inPart member (ih later)

end Expr

namespace UnifyError

/-- Errors are explained one by one, by induction on the errors. -/
theorem toTypeErrors_eq_map (t : Table) (context : Expr) (errors : List UnifyError)
    : toTypeErrors t context errors = errors.map (toTypeError t context) := by
  induction errors with
  | nil => rw [toTypeErrors, List.map_nil]
  | cons e es ih => rw [toTypeErrors, List.map_cons, ih]

/-- An error about types is not explained as a fatal one. -/
theorem toTypeError_not_fatal {P : OpenTy → Prop} {error : UnifyError} (about : error.About P)
    (t : Table) (context : Expr)
    : (error.toTypeError t context).isFatal = false := by
  cases about <;> rw [toTypeError] <;> rfl

end UnifyError

namespace Expr

/-- No error that is reported is fatal, by induction on the report. -/
theorem Reports.not_fatal {e : Expr} {s : State} {error : TypeError} (reports : e.Reports s error)
    : error.isFatal = false := by
  induction reports with
  | unboundIdentifier | unsupported | emptyBody | several => rfl
  | clash clashed =>
      rw [clashed.explain_eq]
      exact UnifyError.toTypeError_not_fatal clashed.about _ _
  | inPart _ _ ih => exact ih

end Expr

namespace Infer

open TypedScheme.Expr

variable {s : State}

/-- A kept result stays as told in every later state. -/
theorem Kept.of_extends {s' : State} {context : Expr} {r : Except TypeError OpenTy}
    (kept : Kept s.Holds (context.Reports s) r) (later : s.Extends s')
    : Kept s'.Holds (context.Reports s') r :=
  kept.imp (fun _ holds => holds.of_extends later) fun _ reports => reports.of_extends later

/-- The unification of held types succeeds or reports a clash in its context. -/
theorem gives_unify (wf : s.WellFormed) {a b : OpenTy} (holdsA : s.Holds a) (holdsB : s.Holds b)
    (context : Expr)
    : Gives s (unify a b context) (fun _ _ => True) context.Reports := by
  have binds := (Unify.types_unifies a b _ wf.table.snapshot.toGrounded).binds
  have moved := State.transaction_extends (Unify.types_onlyBinds a b) context wf
  rw [unify]
  cases run : Unify.types a b s.table.snapshot.2 with
  | ok _ t =>
      rw [run] at binds
      have ends := State.transaction_run_ok run binds context
      rw [ends] at moved
      exact ⟨_, moved.1, moved.2, .inl ⟨(), ends, trivial⟩⟩
  | error e t =>
      rw [run] at binds
      have ends := State.transaction_run_error run binds context
      rw [ends] at moved
      exact ⟨_, moved.1, moved.2, .inr ⟨_, ends, .clash ⟨moved.2, wf, holdsA, holdsB, run⟩⟩⟩

/-- The first type is given; the second one, or an error, was inferred before. -/
theorem gives_checkEqual (wf : s.WellFormed) {a : OpenTy} (holds : s.Holds a)
    {r : Except TypeError OpenTy} {E : State → TypeError → Prop} (kept : Kept s.Holds (E s) r)
    (context : Expr) (clashes : ∀ s' error, context.Reports s' error → E s' error)
    : Gives s (checkEqual (.ok a) r context) (fun _ _ => True) E := by
  cases r with
  | ok b => exact (gives_unify wf holds kept context).imp (fun _ _ => id) clashes
  | error e => exact gives_throw wf kept

/-- The values and the errors of a partition were among the results, by induction on the results. -/
theorem partition_mem {α : Type} (results : List (Except TypeError α))
    : (∀ a ∈ (partition results).1, .ok a ∈ results)
      ∧ ∀ e ∈ (partition results).2, .error e ∈ results := by
  induction results with
  | nil => simp [partition]
  | cons r results ih =>
      obtain ⟨values, errors⟩ := ih
      cases r with
      | ok a =>
          rw [partition]
          refine ⟨List.forall_mem_cons.mpr ⟨.head _, ?_⟩, ?_⟩
          · exact fun a member => .tail _ (values a member)
          · exact fun e member => .tail _ (errors e member)
      | error e =>
          rw [partition]
          refine ⟨?_, List.forall_mem_cons.mpr ⟨.head _, ?_⟩⟩
          · exact fun a member => .tail _ (values a member)
          · exact fun e member => .tail _ (errors e member)

/-- Results of parts of an expression are collected to values or to an error of the expression. -/
theorem gives_collect {α : Type} (wf : s.WellFormed) {P : α → Prop} {context : Expr}
    {results : List (Except TypeError α)} (kept : ∀ r ∈ results, Kept P (context.Reports s) r)
    : Gives s (collect results context) (fun _ values => ∀ a ∈ values, P a) context.Reports := by
  obtain ⟨inValues, inErrors⟩ := partition_mem results
  rw [collect]
  split
  · next values parted =>
      rw [parted] at inValues
      exact gives_pure wf fun a member => kept _ (inValues a member)
  · next e parted =>
      rw [parted] at inErrors
      exact gives_throw wf (kept _ (inErrors e (.head _)))
  · next errors notNone notOne parted =>
      rw [parted] at inErrors
      cases errors with
      | nil => exact (notNone rfl).elim
      | cons first rest =>
          cases rest with
          | nil => exact (notOne _ rfl).elim
          | cons second others =>
              exact gives_throw wf (.several fun e member => kept _ (inErrors e member))

end Infer

-----------------------------------------------------------------------------------------
-- The typing rules
-----------------------------------------------------------------------------------------

namespace Expr

open Infer

/-- Inferring the type of the expression gives a held type or a reported error. -/
def TypingGives (e : Expr) : Prop :=
  ∀ (s : State) (env : TypeEnv),
    s.WellFormed → s.HoldsEnv env → Gives s (e.typeOf env) State.Holds e.Reports

variable {s : State} {env : TypeEnv} {e : Expr}

/-- What a part of an expression reports is a report of the expression. -/
theorem TypingGives.inPart {part : Expr} (gives : part.TypingGives) (member : part ∈ e.parts)
    (wf : s.WellFormed) (holds : s.HoldsEnv env)
    : Gives s (part.typeOf env) State.Holds e.Reports :=
  (gives s env wf holds).imp (fun _ _ => id) fun _ _ => .inPart member

/-- An attempt at a part of an expression keeps a held type or a report of the expression. -/
theorem TypingGives.attemptPart {part : Expr} (gives : part.TypingGives)
    (member : part ∈ e.parts) (wf : s.WellFormed) (holds : s.HoldsEnv env)
    {E : State → TypeError → Prop}
    : Gives s (attempt (part.typeOf env)) (fun s' => Kept s'.Holds (e.Reports s')) E :=
  (gives.inPart member wf holds).attempt fun _ _ => Reports.not_fatal

/-- The body of an expression is empty only if it was so from the start. -/
theorem typeOfBody_gives {es : List Expr} (each : ∀ part ∈ es, part.TypingGives)
    (member : ∀ part ∈ es, part ∈ e.parts) (empty : es = [] → e.body? = some [])
    (wf : s.WellFormed) (holds : s.HoldsEnv env)
    : Gives s (typeOfBody env e es) State.Holds e.Reports := by
  induction es generalizing s with
  | nil => exact gives_throw wf (.emptyBody (empty rfl))
  | cons first es ih =>
      have head := (each first (.head _)).inPart (member first (.head _)) wf holds
      cases es with
      | nil => exact head
      | cons next rest =>
          refine head.bind fun _ s₁ wf₁ later _ => ?_
          exact ih (fun part inRest => each part (.tail _ inRest))
            (fun part inRest => member part (.tail _ inRest)) nofun wf₁ (holds.of_extends later)

/-- Attempts at several parts keep held types or reports, by induction on the parts. -/
theorem typeOfEach_gives {es : List Expr} (each : ∀ part ∈ es, part.TypingGives)
    (member : ∀ part ∈ es, part ∈ e.parts) (wf : s.WellFormed) (holds : s.HoldsEnv env)
    : Gives s (typeOfEach env es)
        (fun s' results => ∀ r ∈ results, Kept s'.Holds (e.Reports s') r) e.Reports := by
  induction es generalizing s with
  | nil => exact gives_pure wf (by simp)
  | cons first es ih =>
      refine ((each first (.head _)).attemptPart (member first (.head _)) wf holds).bind ?_
      intro r s₁ wf₁ later₁ kept
      refine (ih (fun part inRest => each part (.tail _ inRest))
        (fun part inRest => member part (.tail _ inRest)) wf₁ (holds.of_extends later₁)).bind ?_
      intro results s₂ wf₂ later₂ others
      exact gives_pure wf₂ (List.forall_mem_cons.mpr
        ⟨kept.of_extends later₂, others⟩)

/-- The checks of bindings keep held types or reports, by induction on the bindings. -/
theorem checkBindings_gives {bindings : List (Declaration × Expr)}
    (each : ∀ binding ∈ bindings, binding.2.TypingGives)
    (member : ∀ binding ∈ bindings, binding.2 ∈ e.parts) (wf : s.WellFormed)
    (holds : s.HoldsEnv env)
    : Gives s (checkBindings env bindings)
        (fun s' checks =>
          ∀ r ∈ checks, Kept (fun declared => s'.Holds declared.2) (e.Reports s') r)
        e.Reports := by
  induction bindings generalizing s with
  | nil => exact gives_pure wf (by simp)
  | cons binding rest ih =>
      obtain ⟨declaration, value⟩ := binding
      have inside : value ∈ e.parts := member (declaration, value) (.head _)
      refine (gives_convert declaration.type.ty s wf).bind ?_
      intro declared s₁ wf₁ later₁ ofDeclared
      have holds₁ := holds.of_extends later₁
      refine ((each (declaration, value) (.head _)).attemptPart inside wf₁ holds₁).bind ?_
      intro inferred s₂ wf₂ later₂ kept
      have check := gives_checkEqual wf₂ (ofDeclared.of_extends later₂) kept value
        fun _ _ => .inPart inside
      refine (check.attempt fun _ _ => Reports.not_fatal).bind ?_
      intro checked s₃ wf₃ later₃ keptCheck
      refine (ih (fun binding inRest => each binding (.tail _ inRest))
        (fun binding inRest => member binding (.tail _ inRest)) wf₃
        ((holds₁.of_extends later₂).of_extends later₃)).bind ?_
      intro others s₄ wf₄ later₄ keptOthers
      refine gives_pure wf₄ (List.forall_mem_cons.mpr ⟨?_, keptOthers⟩)
      cases checked with
      | ok _ => exact ((ofDeclared.of_extends later₂).of_extends later₃).of_extends later₄
      | error error => exact Reports.of_extends keptCheck later₄

/-- The checks of bound procedures keep reports or nothing, by induction on the bindings. -/
theorem checkProcedures_gives {bindings : List (Declaration × Expr)}
    {sigs : List (List OpenTy × OpenTy)}
    (each : ∀ binding ∈ bindings, ∀ part ∈ binding.2.procedureBody, part.TypingGives)
    (member : ∀ binding ∈ bindings, binding.2 ∈ e.parts) (wf : s.WellFormed)
    (holds : s.HoldsEnv env)
    (signed : ∀ sig ∈ sigs, (∀ u ∈ sig.1, s.Holds u) ∧ s.Holds sig.2)
    : Gives s (checkProcedures env bindings sigs)
        (fun s' checks => ∀ r ∈ checks, Kept (fun _ => True) (e.Reports s') r) e.Reports := by
  induction bindings generalizing s sigs with
  | nil => exact gives_pure wf (by simp)
  | cons binding rest ih =>
      obtain ⟨declaration, value⟩ := binding
      have here := each (declaration, value) (.head _)
      have inside : value ∈ e.parts := member (declaration, value) (.head _)
      cases value with
      | lambda pos params result body =>
          cases sigs with
          | nil => exact gives_pure wf (by simp)
          | cons sig sigs =>
              obtain ⟨ofParams, ofResult⟩ := signed sig (.head _)
              have body := typeOfBody_gives (e := .lambda pos params result body) here
                (fun _ => id) (fun empty => congrArg some empty) wf
                (holds.extend_zip (declaredNames params) ofParams)
              refine (body.attempt fun _ _ => Reports.not_fatal).bind ?_
              intro inferred s₁ wf₁ later₁ kept
              have check := gives_checkEqual wf₁ (ofResult.of_extends later₁) kept
                (.lambda pos params result _) fun _ _ => id
              refine (check.attempt fun _ _ => Reports.not_fatal).bind ?_
              intro checked s₂ wf₂ later₂ keptCheck
              have later := later₁.trans later₂
              refine (ih (fun binding inRest => each binding (.tail _ inRest))
                (fun binding inRest => member binding (.tail _ inRest)) wf₂
                (holds.of_extends later) ?_).bind ?_
              · intro sig' inRest
                obtain ⟨ofParams', ofResult'⟩ := signed sig' (.tail _ inRest)
                exact ⟨fun u isParam => (ofParams' u isParam).of_extends later,
                  ofResult'.of_extends later⟩
              · intro others s₃ wf₃ later₃ keptOthers
                have first := keptCheck.imp (fun _ => id) fun _ reports =>
                  Reports.inPart inside (reports.of_extends later₃)
                exact gives_pure wf₃ (List.forall_mem_cons.mpr ⟨first, keptOthers⟩)
      | number | boolean | string | primitive | var | conditional | application | letIn | letrec
      | define | program | quote | assign => exact gives_pure wf (by simp)

/-- Inference gives a held type or a reported error, by induction over the expression. -/
theorem typeOf_gives (e : Expr) : e.TypingGives := by
  induction e using partsInduction with
  | number | boolean | string | define =>
      intro s env wf holds
      exact (gives_note wf _).bind fun _ s₁ wf₁ _ _ => gives_pure wf₁ (s₁.holds_atomic _)
  | program | quote | assign =>
      intro s env wf holds
      exact (gives_note wf _).bind fun _ _ wf₁ _ _ => gives_throw wf₁ (.unsupported rfl)
  | primitive pos op =>
      intro s env wf holds
      exact (gives_note wf _).bind fun _ _ wf₁ _ _ => gives_instantiate op wf₁
  | var pos id =>
      intro s env wf holds
      refine (gives_note wf _).bind fun _ s₁ wf₁ later _ => ?_
      cases found : env.get? id.name with
      | some ty => simpa only [found] using gives_pure wf₁ ((holds.get? found).of_extends later)
      | none => simpa only [found] using gives_throw wf₁ (.unboundIdentifier pos id)
  | conditional pos test yes no ihTest ihYes ihNo =>
      intro s env wf holds
      have inTest : test ∈ (Expr.conditional pos test yes no).parts := by simp [parts]
      have inYes : yes ∈ (Expr.conditional pos test yes no).parts := by simp [parts]
      have inNo : no ∈ (Expr.conditional pos test yes no).parts := by simp [parts]
      refine (gives_note wf _).bind fun _ s₁ wf₁ later₁ _ => ?_
      have holds₁ := holds.of_extends later₁
      refine (ihTest.attemptPart inTest wf₁ holds₁).bind ?_
      intro testTy s₂ wf₂ later₂ ofTest
      have holds₂ := holds₁.of_extends later₂
      refine (ihYes.attemptPart inYes wf₂ holds₂).bind ?_
      intro yesTy s₃ wf₃ later₃ ofYes
      refine (ihNo.attemptPart inNo wf₃ (holds₂.of_extends later₃)).bind ?_
      intro noTy s₄ wf₄ later₄ ofNo
      have ofTest₄ := ofTest.of_extends (later₃.trans later₄)
      refine (gives_checkEqual wf₄ (s₄.holds_atomic .boolean) ofTest₄ _ fun _ _ => id).bind ?_
      intro _ s₅ wf₅ later₅ _
      have ofYes₅ := ofYes.of_extends (later₄.trans later₅)
      refine (gives_ofExcept wf₅ ofYes₅).bind ?_
      intro yesTy s₆ wf₆ later₆ isYes
      have ofNo₆ := ofNo.of_extends (later₅.trans later₆)
      have isYes₆ := isYes.of_extends later₆
      refine (gives_checkEqual wf₆ isYes₆ ofNo₆ _ fun _ _ => id).bind ?_
      intro _ s₇ wf₇ later₇ _
      exact gives_pure wf₇ (isYes₆.of_extends later₇)
  | lambda pos params result body ihBody =>
      intro s env wf holds
      refine (gives_note wf _).bind fun _ s₁ wf₁ later₁ _ => ?_
      refine (gives_signature params result wf₁).bind ?_
      intro sig s₂ wf₂ later₂ signed
      obtain ⟨ofParams, ofResult⟩ := signed
      have inside := ((holds.of_extends later₁).of_extends later₂).extend_zip
        (declaredNames params) ofParams
      have ofBody := typeOfBody_gives (e := .lambda pos params result body) ihBody (fun _ => id)
        (fun empty => congrArg some empty) wf₂ inside
      refine (ofBody.attempt fun _ _ => Reports.not_fatal).bind ?_
      intro bodyTy s₃ wf₃ later₃ kept
      have ofResult₃ := ofResult.of_extends later₃
      refine (gives_checkEqual wf₃ ofResult₃ kept _ fun _ _ => id).bind ?_
      intro _ s₄ wf₄ later₄ _
      refine gives_pure wf₄ (State.holds_procedure_iff.mpr ⟨?_, ofResult₃.of_extends later₄⟩)
      intro param member
      exact ((ofParams param member).of_extends later₃).of_extends later₄
  | application pos operator operands ihOperator ihOperands =>
      intro s env wf holds
      refine (gives_note wf _).bind fun _ s₁ wf₁ later₁ _ => ?_
      have holds₁ := holds.of_extends later₁
      refine (ihOperator.inPart (by simp [parts]) wf₁ holds₁).bind ?_
      intro operatorTy s₂ wf₂ later₂ ofOperator
      have eachOperand := typeOfEach_gives (e := .application pos operator operands) ihOperands
        (fun _ member => .tail _ member) wf₂ (holds₁.of_extends later₂)
      refine eachOperand.bind ?_
      intro results s₃ wf₃ later₃ kept
      refine (gives_collect wf₃ kept).bind ?_
      intro operandTys s₄ wf₄ later₄ ofOperands
      refine (gives_fresh wf₄).bind ?_
      intro resultTy s₅ wf₅ later₅ ofResult
      have operator₅ := ((ofOperator.of_extends later₃).of_extends later₄).of_extends later₅
      have operands₅ operand (member : operand ∈ operandTys) :=
        ((ofOperands operand member).of_extends later₄).of_extends later₅
      have shape := State.holds_procedure_iff.mpr ⟨operands₅, ofResult⟩
      refine (gives_unify wf₅ operator₅ shape _).bind ?_
      intro _ s₆ wf₆ later₆ _
      exact gives_pure wf₆ (ofResult.of_extends later₆)
  | letIn pos bindings body ihBindings ihBody =>
      intro s env wf holds
      refine (gives_note wf _).bind fun _ s₁ wf₁ later₁ _ => ?_
      have holds₁ := holds.of_extends later₁
      have checks := checkBindings_gives (e := .letIn pos bindings body) ihBindings
        (fun binding member => List.mem_append_left _ (List.mem_map_of_mem member)) wf₁ holds₁
      refine checks.bind ?_
      intro checks s₂ wf₂ later₂ kept
      refine (gives_collect wf₂ kept).bind ?_
      intro declared s₃ wf₃ later₃ ofDeclared
      have inside := ((holds₁.of_extends later₂).of_extends later₃).extend
        fun binding member => (ofDeclared binding member).of_extends later₃
      exact typeOfBody_gives ihBody (fun _ member => List.mem_append_right _ member)
        (fun empty => congrArg some empty) wf₃ inside
  | letrec pos bindings body ihProcedures ihBody =>
      intro s env wf holds
      refine (gives_note wf _).bind fun _ s₁ wf₁ later₁ _ => ?_
      dsimp only
      split
      · refine (gives_signatures bindings wf₁).bind ?_
        intro sigs s₂ wf₂ later₂ signed
        have procedures u (member : u ∈ sigs.map fun sig => OpenTy.procedure sig.1 sig.2)
            : s₂.Holds u := by
          obtain ⟨sig, isSig, rfl⟩ := List.mem_map.mp member
          exact State.holds_procedure_iff.mpr (signed sig isSig)
        have inside := ((holds.of_extends later₁).of_extends later₂).extend_zip
          (declaredNames (bindings.map (·.1))) procedures
        have checks := checkProcedures_gives (e := .letrec pos bindings body) ihProcedures
          (fun binding member => List.mem_append_left _ (List.mem_map_of_mem member)) wf₂ inside
          signed
        refine checks.bind ?_
        intro checks s₃ wf₃ later₃ kept
        refine (gives_collect wf₃ kept).bind ?_
        intro _ s₄ wf₄ later₄ _
        exact typeOfBody_gives ihBody (fun _ member => List.mem_append_right _ member)
          (fun empty => congrArg some empty) wf₄
          ((inside.of_extends later₃).of_extends later₄)
      · next some => exact gives_throw wf₁ (.unsupported (if_neg some))

/-- A held type is resolved without a variable that the table does not hold. -/
theorem inferIn_gives {e : Expr} {s : State} {env : TypeEnv} {E : State → TypeError → Prop}
    (gives : Infer.Gives s (e.typeOf env) State.Holds E)
    : Infer.Gives s (e.inferIn env)
        (fun s' ty => ∃ u, e.typeOf env s = .ok u s' ∧ s'.Holds u ∧ ty = s'.table.toTy u) E := by
  obtain ⟨s', wf', later, ⟨u, run, holds⟩ | ⟨error, run, told⟩⟩ := gives
  · refine ⟨s', wf', later, .inl ⟨s'.table.toTy u, ?_, u, run, holds, rfl⟩⟩
    refine (run_bind_ok run).trans ?_
    simp only [wf'.table.toGrounded.stray?_eq_none holds.below]
  · exact ⟨s', wf', later, .inr ⟨error, run_bind_error run, told⟩⟩

end Expr

-----------------------------------------------------------------------------------------
-- The types that errors show
-----------------------------------------------------------------------------------------

namespace TypeError

/-- The types that a single failure shows. -/
def types : TypeError → List Ty
  | .mismatch expected inferred _ | .arity _ _ (some (expected, inferred)) _ => [expected, inferred]
  | .occurs var ty _ => [var, ty]
  | .badType ty _ => [ty]
  | _ => []

/-- The leaves of several errors are those of each of them, by induction on the errors. -/
theorem mem_leavesOfAll {leaf : TypeError} {errors : List TypeError}
    : leaf ∈ leavesOfAll errors ↔ ∃ error ∈ errors, leaf ∈ error.leaves := by
  induction errors with
  | nil => simp [leavesOfAll]
  | cons e es ih => simp [leavesOfAll, ih]

end TypeError

/-- A failure that shows types comes from a clash, by induction on the report. -/
theorem Expr.Reports.exists_clashed {e : Expr} {s : State} {error leaf : TypeError}
    (reports : e.Reports s error) (isLeaf : leaf ∈ error.leaves) (shows : leaf.types ≠ [])
    : ∃ unified left context,
        s.Clashed unified left ∧ leaf ∈ (unified.toTypeError left context).leaves := by
  induction reports with
  | unboundIdentifier | unsupported | emptyBody =>
      rw [TypeError.leaves, List.mem_singleton] at isLeaf
      cases isLeaf
      exact absurd rfl shows
  | clash clashed =>
      rw [clashed.explain_eq] at isLeaf
      exact ⟨_, _, _, clashed, isLeaf⟩
  | several _ ih =>
      rw [TypeError.leaves] at isLeaf
      obtain ⟨error, member, inside⟩ := TypeError.mem_leavesOfAll.mp isLeaf
      exact ih error member inside
  | inPart _ _ ih => exact ih isLeaf

end TypedScheme
