import TypedScheme.Proofs.Datum.Spans
import TypedScheme.Proofs.Expr.Grammar

/-! The parts of a written expression are written by data inside its datum, at the same places, and
no body in it is empty.
-/

namespace TypedScheme

namespace Expr

/-- Each of several written expressions is written as one of the data, by induction on the
expressions.
-/
theorem AllWritten.exists_datum {ds : List Datum} {es : List Expr} (written : AllWritten ds es)
    {e : Expr} (member : e ∈ es)
    : ∃ d ∈ ds, Written d e := by
  induction es generalizing ds with
  | nil => cases member
  | cons first rest ih =>
      cases written with
      | cons here others =>
          rcases List.mem_cons.mp member with rfl | later
          · exact ⟨_, .head _, here⟩
          · obtain ⟨d, inside, written⟩ := ih others later
            exact ⟨d, .tail _ inside, written⟩

/-- From some data at least one expression is read. -/
theorem AllWritten.ne_nil {ds : List Datum} {es : List Expr} (written : AllWritten ds es)
    (nonempty : ds ≠ [])
    : es ≠ [] := by
  rintro rfl
  cases written
  exact nonempty rfl

/-- The value of a binding is the second of two items. -/
theorem BindingsWritten.exists_datum {ds : List Datum} {bindings : List (Declaration × Expr)}
    (written : BindingsWritten ds bindings) {binding : Declaration × Expr}
    (member : binding ∈ bindings)
    : ∃ pos d₁ d₂, .list pos [d₁, d₂] ∈ ds ∧ Written d₂ binding.2 := by
  induction bindings generalizing ds with
  | nil => cases member
  | cons first rest ih =>
      cases written with
      | cons pos _ here others =>
          rcases List.mem_cons.mp member with rfl | later
          · exact ⟨pos, _, _, .head _, here⟩
          · obtain ⟨pos, d₁, d₂, inside, written⟩ := ih others later
            exact ⟨pos, d₁, d₂, .tail _ inside, written⟩

/-- An expression stands where the datum stands that it was written as. -/
theorem Written.pos_eq {d : Datum} {e : Expr} (written : Written d e) : e.pos = d.pos := by
  cases written <;> rfl

/-- A source stands where the datum stands that it was written as. -/
theorem RootWritten.pos_eq {d : Datum} {e : Expr} (written : RootWritten d e) : e.pos = d.pos := by
  cases written with
  | expr written => exact written.pos_eq
  | program => rfl

/-- A written `let` or `letrec` holds its parts in the list of bindings and after it. -/
theorem part_of_bindingForm {pos headPos bindingsPos : Position} {form : String}
    {ds rest : List Datum} {bindings : List (Declaration × Expr)} {body : List Expr}
    (inBindings : BindingsWritten ds bindings) (inBody : AllWritten rest body) {part : Expr}
    (member : part ∈ bindings.map (·.2) ++ body)
    : ∃ d,
        (Datum.list pos (.symbol headPos form :: .list bindingsPos ds :: rest)).Within d
        ∧ Written d part := by
  rcases List.mem_append.mp member with isValue | inside
  · obtain ⟨binding, isBinding, rfl⟩ := List.mem_map.mp isValue
    obtain ⟨bindingPos, d₁, d₂, inList, written⟩ := inBindings.exists_datum isBinding
    refine ⟨d₂, ?_, written⟩
    apply Datum.within_of_mem (.tail _ (.head _))
    apply Datum.within_of_mem inList
    exact Datum.within_of_mem (by simp) .refl
  · obtain ⟨d, inRest, written⟩ := inBody.exists_datum inside
    exact ⟨d, Datum.within_of_mem (by simp [inRest]) .refl, written⟩

/-- The parts of a written expression are written as parts of its datum. -/
theorem Written.exists_datum {d : Datum} {e part : Expr} (written : Written d e)
    (member : part ∈ e.parts)
    : ∃ d', d.Within d' ∧ Written d' part := by
  cases written with
  | number | boolean | string | primitive | var | quote => cases member
  | conditional pos headPos inTest inYes inNo =>
      simp only [parts, List.mem_cons, List.not_mem_nil, or_false] at member
      rcases member with rfl | rfl | rfl
      · exact ⟨_, Datum.within_of_mem (by simp) .refl, inTest⟩
      · exact ⟨_, Datum.within_of_mem (by simp) .refl, inYes⟩
      · exact ⟨_, Datum.within_of_mem (by simp) .refl, inNo⟩
  | lambda _ _ _ _ inBody | typedLambda _ _ _ _ _ _ inBody =>
      obtain ⟨d, inRest, written⟩ := inBody.exists_datum member
      exact ⟨d, Datum.within_of_mem (by simp [inRest]) .refl, written⟩
  | application pos inOperator inOperands =>
      rcases List.mem_cons.mp member with rfl | isOperand
      · exact ⟨_, Datum.within_of_mem (.head _) .refl, inOperator⟩
      · obtain ⟨d, inRest, written⟩ := inOperands.exists_datum isOperand
        exact ⟨d, Datum.within_of_mem (.tail _ inRest) .refl, written⟩
  | letIn _ _ _ inBindings inBody | letrec _ _ _ inBindings inBody =>
      exact part_of_bindingForm inBindings inBody member
  | define pos headPos inDeclaration inValue =>
      cases List.mem_singleton.mp member
      exact ⟨_, Datum.within_of_mem (by simp) .refl, inValue⟩
  | assign pos headPos idPos name inValue =>
      cases List.mem_singleton.mp member
      exact ⟨_, Datum.within_of_mem (by simp) .refl, inValue⟩

/-- Each part of what a source is read as is written inside it. -/
theorem RootWritten.exists_datum {d : Datum} {e part : Expr} (written : RootWritten d e)
    (member : part ∈ e.parts)
    : ∃ d', d.Within d' ∧ RootWritten d' part := by
  cases written with
  | expr written =>
      obtain ⟨d', inside, written⟩ := written.exists_datum member
      exact ⟨d', inside, .expr written⟩
  | program pos headPos inProgram nonempty =>
      obtain ⟨d', inRest, written⟩ := inProgram.exists_datum member
      exact ⟨d', Datum.within_of_mem (.tail _ inRest) .refl, .expr written⟩

/-- A body that was read is not empty. -/
theorem RootWritten.body_ne_nil {d : Datum} {e : Expr} (written : RootWritten d e)
    : e.body? ≠ some [] := by
  cases written with
  | program => nofun
  | expr written =>
      cases written with
      | lambda _ _ _ _ inBody nonempty | typedLambda _ _ _ _ _ _ inBody nonempty
      | letIn _ _ _ _ inBody nonempty | letrec _ _ _ _ inBody nonempty =>
          intro empty
          exact inBody.ne_nil nonempty (Option.some.inj empty)
      | number | boolean | string | primitive | var | conditional | application | define | quote
      | assign => nofun

end Expr

end TypedScheme
