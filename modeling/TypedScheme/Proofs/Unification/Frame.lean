import TypedScheme.Proofs.Unification.Termination

/-! What a unification leaves alone, read off the derivations.
A property that the parts of a type and the bindings of the table share passes from the two types
unified to every variable that is bound. A variable without the property keeps its binding, or stays
unbound. So a new variable at the end of a procedure type is left alone until the results are
unified, and that last step binds it to no variable.
-/

namespace TypedScheme

namespace Unify

variable {P : OpenTy → Prop} {w : Nat}

mutual
/-- An assignment leaves the variable outside as it is, by induction on its run. -/
theorem AssignEnds.frame {t : Table} {v : Nat} {target : OpenTy} {r : Outcome}
    (outside : ¬ P (.var w)) (spreads : t.Spreads P) (holdsVar : P (.var v)) (holds : P target)
    : AssignEnds v target t r → (finalState r).binding? w = t.binding? w
  | .bound bound unified => unified.frame outside spreads (spreads.bound bound) holds
  | .self _ _ _ | .refused _ _ _ _ _ => rfl
  | .binds inside _ _ _ _ => by
      have other : v ≠ w := by
        rintro rfl
        exact outside holdsVar
      rw [finalState_ok, Table.binding?_bind inside, if_neg other]

/-- So does the unification of two types. -/
theorem TypesEnd.frame {t : Table} {a b : OpenTy} {r : Outcome} (outside : ¬ P (.var w))
    (spreads : t.Spreads P) (holdsA : P a) (holdsB : P b)
    : TypesEnd a b t r → (finalState r).binding? w = t.binding? w
  | .roots first second unified =>
      unified.frame outside spreads (first.spreads spreads holdsA) (second.spreads spreads holdsB)

/-- So does that of two roots. -/
theorem RootsEnd.frame {t : Table} {a b : OpenTy} {r : Outcome} (outside : ¬ P (.var w))
    (spreads : t.Spreads P) (holdsA : P a) (holdsB : P b)
    : RootsEnd a b t r → (finalState r).binding? w = t.binding? w
  | .self _ _ | .atomic _ _ | .arity _ | .mismatch _ => rfl
  | .left _ assigned => assigned.frame outside spreads holdsA holdsB
  | .right _ assigned => assigned.frame outside spreads holdsB holdsA
  | .procedures _ unified => by
      obtain ⟨inParams, inResult⟩ := spreads.parts holdsA
      obtain ⟨inParams', inResult'⟩ := spreads.parts holdsB
      apply unified.frame outside spreads
      · simpa [or_imp, forall_and] using ⟨inParams, inResult⟩
      · simpa [or_imp, forall_and] using ⟨inParams', inResult'⟩

/-- So does that of equally many types. -/
theorem AllTypesEnd.frame {t : Table} {as bs : List OpenTy} {r : Outcome}
    (outside : ¬ P (.var w)) (spreads : t.Spreads P) (holdsAs : ∀ ty ∈ as, P ty)
    (holdsBs : ∀ ty ∈ bs, P ty)
    : AllTypesEnd as bs t r → (finalState r).binding? w = t.binding? w
  | .lengths _ => rfl
  | .success _ pairs | .failures _ _ pairs =>
      pairs.frame outside spreads fun _ _ member =>
        ⟨holdsAs _ (List.of_mem_zip member).1, holdsBs _ (List.of_mem_zip member).2⟩

/-- So do those of pairs. -/
theorem PairsEnd.frame {t t' : Table} {pairs : List (OpenTy × OpenTy)} {errors : List UnifyError}
    (outside : ¬ P (.var w)) (spreads : t.Spreads P)
    (holds : ∀ a b, (a, b) ∈ pairs → P a ∧ P b)
    : PairsEnd pairs t errors t' → t'.binding? w = t.binding? w
  | .nil _ => rfl
  | .success first rest => by
      obtain ⟨holdsA, holdsB⟩ := holds _ _ (.head _)
      have later := first.about spreads holdsA holdsB
      rw [rest.frame outside later fun a b member => holds a b (.tail _ member)]
      exact first.frame outside spreads holdsA holdsB
  | .failure first rest => by
      obtain ⟨holdsA, holdsB⟩ := holds _ _ (.head _)
      obtain ⟨later, _⟩ := first.about spreads holdsA holdsB
      rw [rest.frame outside later fun a b member => holds a b (.tail _ member)]
      exact first.frame outside spreads holdsA holdsB
end

/-- A pass over two lists of pairs is one over the first and then one over the second. -/
theorem PairsEnd.split {pairs pairs' : List (OpenTy × OpenTy)} {t t' : Table}
    {errors : List UnifyError} (ends : PairsEnd (pairs ++ pairs') t errors t')
    : ∃ middle before behind,
        PairsEnd pairs t before middle
        ∧ PairsEnd pairs' middle behind t'
        ∧ errors = before ++ behind := by
  induction pairs generalizing t errors with
  | nil => exact ⟨t, [], errors, .nil t, ends, rfl⟩
  | cons pair pairs ih =>
      cases ends with
      | success first rest =>
          obtain ⟨middle, before, behind, inFirst, inSecond, rfl⟩ := ih rest
          exact ⟨middle, before, behind, .success first inFirst, inSecond, rfl⟩
      | @failure _ _ _ _ _ _ e _ first rest =>
          obtain ⟨middle, before, behind, inFirst, inSecond, rfl⟩ := ih rest
          exact ⟨middle, e :: before, behind, .failure first inFirst, inSecond, rfl⟩

end Unify

-----------------------------------------------------------------------------------------
-- A procedure type that ends with a new variable
-----------------------------------------------------------------------------------------

namespace Table

variable {t t' : Table}

/-- What is no variable is not resolved to one. -/
theorem resolve_ne_var {ty : OpenTy} (notVar : ∀ v, ty ≠ .var v) (v : Nat)
    : t.resolve ty ≠ .var v := by
  cases ty with
  | var w => exact absurd rfl (notVar w)
  | atomic | named | wildcard | procedure => simp [resolve, OpenTy.subst]

/-- A variable at the end of a chain is unbound, by induction on the chain. -/
theorem ChainEnds.unbound_of_var {v : Nat} {ty : OpenTy} (chain : t.ChainEnds v ty) {w : Nat}
    (isVar : ty = .var w)
    : t.binding? w = none := by
  induction chain with
  | unbound _ unbound =>
      cases isVar
      exact unbound
  | link _ _ ih => exact ih isVar
  | type _ notVar => exact absurd isVar (notVar w)

/-- A variable that is a root is unbound. -/
theorem RootEnds.unbound_of_var {a : OpenTy} {w : Nat} (ends : t.RootEnds a (.var w))
    : t.binding? w = none := by
  cases ends with
  | var chain => exact chain.unbound_of_var rfl
  | other notVar => exact absurd rfl (notVar w)

/-- An unbound variable is its own root. -/
theorem RootEnds.of_unbound {v : Nat} {root : OpenTy} (ends : t.RootEnds (.var v) root)
    (unbound : t.binding? v = none)
    : root = .var v := by
  cases ends with
  | var chain =>
      cases chain with
      | unbound => rfl
      | link bound | type bound =>
          rw [unbound] at bound
          cases bound
  | other notVar => exact absurd rfl (notVar v)

/-- A chain is the same in a table with the same bindings, by induction on the chain. -/
theorem ChainEnds.of_same (same : ∀ v, t'.binding? v = t.binding? v) (le : t.size ≤ t'.size)
    {v : Nat} {ty : OpenTy} (chain : t.ChainEnds v ty)
    : t'.ChainEnds v ty := by
  induction chain with
  | unbound inside unbound => exact .unbound (Nat.lt_of_lt_of_le inside le) (same _ ▸ unbound)
  | link bound _ ih => exact .link (same _ ▸ bound) ih
  | type bound notVar => exact .type (same _ ▸ bound) notVar

/-- So is the way to a root. -/
theorem RootEnds.of_same (same : ∀ v, t'.binding? v = t.binding? v) (le : t.size ≤ t'.size)
    {a root : OpenTy} (ends : t.RootEnds a root)
    : t'.RootEnds a root := by
  cases ends with
  | var chain => exact .var (chain.of_same same le)
  | other notVar => exact .other notVar

end Table

namespace Unify

open TypedScheme.Table

variable {t t' : Table} {r : Nat}

/-- A type is unified with a variable on its right: the variable is bound only to a type that is
no variable, since between two variables the left one is bound.
-/
theorem TypesEnd.right_var {a : OpenTy} (unbound : t.binding? r = none)
    (ends : TypesEnd a (.var r) t (.ok () t'))
    : t'.binding? r = none ∨ ∃ ty, t'.binding? r = some ty ∧ ∀ w, ty ≠ .var w := by
  cases ends with
  | roots first second unified =>
      cases second.of_unbound unbound
      cases unified with
      | self => exact .inl unbound
      | @left _ v _ _ other assigned =>
          cases assigned with
          | bound bound =>
              rw [first.unbound_of_var] at bound
              cases bound
          | self => exact .inl unbound
          | binds insideLeft =>
              have apart : v ≠ r := by
                rintro rfl
                exact other rfl
              rw [binding?_bind insideLeft, if_neg apart]
              exact .inl unbound
      | right notVar assigned =>
          cases assigned with
          | bound bound =>
              rw [unbound] at bound
              cases bound
          | self => exact .inl unbound
          | binds inside _ root =>
              cases root with
              | var => exact absurd rfl (notVar _)
              | other =>
                  rw [binding?_bind inside, if_pos rfl]
                  exact .inr ⟨_, rfl, notVar⟩

/-- The variable is new: neither the type on the left nor any binding or parameter mentions it. -/
theorem TypesEnd.new_result {f : OpenTy} {us : List OpenTy}
    (unbound : t.binding? r = none) (spreads : t.Spreads (OpenTy.Below r)) (below : f.Below r)
    (belowUs : ∀ u ∈ us, u.Below r) (ends : TypesEnd f (.procedure us (.var r)) t (.ok () t'))
    : t'.binding? r = none
      ∨ ∃ params result ty,
          t.RootEnds f (.procedure params result)
          ∧ t'.binding? r = some ty
          ∧ ∀ w, ty ≠ .var w := by
  have outside : ¬ (OpenTy.var r).Below r := by simp
  cases ends with
  | roots first second unified =>
      cases second
      have belowRoot := first.spreads spreads below
      cases unified with
      | @left _ v _ _ _ assigned =>
          cases assigned with
          | bound bound =>
              rw [first.unbound_of_var] at bound
              cases bound
          | self _ _ root => cases root
          | binds insideLeft =>
              have apart : v ≠ r := by
                rintro rfl
                exact outside belowRoot
              rw [binding?_bind insideLeft, if_neg apart]
              exact .inl unbound
      | @procedures _ params _ result _ _ length unified =>
          obtain ⟨belowParams, _⟩ := spreads.parts belowRoot
          cases unified with
          | success _ pairs =>
              rw [List.zip_append length] at pairs
              obtain ⟨middle, before, behind, inParams, inResult, none⟩ := pairs.split
              obtain ⟨rfl, rfl⟩ := List.append_eq_nil_iff.mp none.symm
              have untouched := inParams.frame outside spreads fun a b member =>
                ⟨belowParams a (List.of_mem_zip member).1, belowUs b (List.of_mem_zip member).2⟩
              rw [unbound] at untouched
              cases inResult with
              | success last rest =>
                  cases rest
                  rcases last.right_var untouched with still | ⟨ty, bound, notVar⟩
                  · exact .inl still
                  · exact .inr ⟨params, result, ty, first, bound, notVar⟩

end Unify

end TypedScheme
