import TypedScheme.Ty.Basic

/-!
Open types: types with unification variables, which are known by number. Names and wildcards are
turned into variables before unification; where one is left, the unifier rejects the type.
-/

namespace TypedScheme

inductive OpenTy where
  | var (id : Nat)
  | atomic (atomic : Atomic)
  | named (name : String)
  | wildcard
  | procedure (params : List OpenTy) (result : OpenTy)
deriving Repr

namespace OpenTy

mutual
def decEq : (a b : OpenTy) → Decidable (a = b)
  | .var a, .var b =>
      if h : a = b then isTrue (by rw [h]) else isFalse (by simp [h])
  | .atomic a, .atomic b =>
      if h : a = b then isTrue (by rw [h]) else isFalse (by simp [h])
  | .named a, .named b =>
      if h : a = b then isTrue (by rw [h]) else isFalse (by simp [h])
  | .wildcard, .wildcard => isTrue rfl
  | .procedure ps r, .procedure qs s =>
      match decEqAll ps qs, decEq r s with
      | isTrue hp, isTrue hr => isTrue (by rw [hp, hr])
      | isFalse hp, _ => isFalse (by simp [hp])
      | _, isFalse hr => isFalse (by simp [hr])
  | .var _, .atomic _ | .var _, .named _ | .var _, .wildcard | .var _, .procedure _ _
  | .atomic _, .var _ | .atomic _, .named _ | .atomic _, .wildcard | .atomic _, .procedure _ _
  | .named _, .var _ | .named _, .atomic _ | .named _, .wildcard | .named _, .procedure _ _
  | .wildcard, .var _ | .wildcard, .atomic _ | .wildcard, .named _ | .wildcard, .procedure _ _
  | .procedure _ _, .var _ | .procedure _ _, .atomic _ | .procedure _ _, .named _
  | .procedure _ _, .wildcard =>
      isFalse (by simp)

def decEqAll : (as bs : List OpenTy) → Decidable (as = bs)
  | [], [] => isTrue rfl
  | a :: as, b :: bs =>
      match decEq a b, decEqAll as bs with
      | isTrue ha, isTrue has => isTrue (by rw [ha, has])
      | isFalse ha, _ => isFalse (by simp [ha])
      | _, isFalse has => isFalse (by simp [has])
  | [], _ :: _ | _ :: _, [] => isFalse (by simp)
end

instance : DecidableEq OpenTy := decEq

mutual
/-- Replaces the variables of a type. -/
def subst (σ : Nat → OpenTy) : OpenTy → OpenTy
  | .var v => σ v
  | .atomic a => .atomic a
  | .named name => .named name
  | .wildcard => .wildcard
  | .procedure params result => .procedure (substAll σ params) (result.subst σ)

def substAll (σ : Nat → OpenTy) : List OpenTy → List OpenTy
  | [] => []
  | t :: ts => t.subst σ :: substAll σ ts
end

mutual
/-- The first variable of a type that is not below `size`. -/
def stray? (size : Nat) : OpenTy → Option Nat
  | .var v => if v < size then none else some v
  | .atomic _ | .named _ | .wildcard => none
  | .procedure params result => (strayAmong? size params).or (result.stray? size)

def strayAmong? (size : Nat) : List OpenTy → Option Nat
  | [] => none
  | t :: ts => (t.stray? size).or (strayAmong? size ts)
end

mutual
/-- A type with names in place of its variables. -/
def toTy (nameOf : Nat → String) : OpenTy → Ty
  | .var v => .named (nameOf v)
  | .atomic a => .atomic a
  | .named name => .named name
  | .wildcard => .wildcard
  | .procedure params result => .procedure (toTys nameOf params) (result.toTy nameOf)

def toTys (nameOf : Nat → String) : List OpenTy → List Ty
  | [] => []
  | t :: ts => t.toTy nameOf :: toTys nameOf ts
end

/-- How an atomic type is called in the log. -/
def atomicLabel : Atomic → String
  | .number => "Number"
  | .boolean => "Boolean"
  | .string => "String"
  | .void => "Void"

mutual
/-- How a type is written in the log. -/
def logText : OpenTy → String
  | .var v => "UnifVar(" ++ toString v ++ ")"
  | .atomic a => "Concrete(Atomic(" ++ atomicLabel a ++ "))"
  | .named name => "Concrete(Var(Ident(\"" ++ name ++ "\")))"
  | .wildcard => "Concrete(Wildcard)"
  | .procedure params result =>
      "Concrete(Proc \x7b params: [" ++ logTexts params ++ "], ret: " ++ result.logText ++ " \x7d)"

def logTexts : List OpenTy → String
  | [] => ""
  | [t] => t.logText
  | t :: ts => t.logText ++ ", " ++ logTexts ts
end

end OpenTy

end TypedScheme
