/-!
Types as they are written and printed. A type is atomic, a variable given by its name, a procedure
type, or a wildcard, which stands where no type was written.
-/

namespace TypedScheme

inductive Atomic where
  | number
  | boolean
  | string
  | void
deriving DecidableEq, Repr

namespace Atomic

def all : List Atomic := [.number, .boolean, .string, .void]

def name : Atomic → String
  | .number => "number"
  | .boolean => "boolean"
  | .string => "string"
  | .void => "void"

/-- The atomic type of a name. -/
def ofName? (s : String) : Option Atomic := all.find? (·.name = s)

end Atomic

inductive Ty where
  | atomic (atomic : Atomic)
  | named (name : String)
  | wildcard
  | procedure (params : List Ty) (result : Ty)
deriving Repr

namespace Ty

mutual
def decEq : (a b : Ty) → Decidable (a = b)
  | .atomic a, .atomic b =>
      if h : a = b then isTrue (by rw [h]) else isFalse (by simp [h])
  | .named a, .named b =>
      if h : a = b then isTrue (by rw [h]) else isFalse (by simp [h])
  | .wildcard, .wildcard => isTrue rfl
  | .procedure ps r, .procedure qs s =>
      match decEqAll ps qs, decEq r s with
      | isTrue hp, isTrue hr => isTrue (by rw [hp, hr])
      | isFalse hp, _ => isFalse (by simp [hp])
      | _, isFalse hr => isFalse (by simp [hr])
  | .atomic _, .named _ | .atomic _, .wildcard | .atomic _, .procedure _ _
  | .named _, .atomic _ | .named _, .wildcard | .named _, .procedure _ _
  | .wildcard, .atomic _ | .wildcard, .named _ | .wildcard, .procedure _ _
  | .procedure _ _, .atomic _ | .procedure _ _, .named _ | .procedure _ _, .wildcard =>
      isFalse (by simp)

def decEqAll : (as bs : List Ty) → Decidable (as = bs)
  | [], [] => isTrue rfl
  | a :: as, b :: bs =>
      match decEq a b, decEqAll as bs with
      | isTrue ha, isTrue has => isTrue (by rw [ha, has])
      | isFalse ha, _ => isFalse (by simp [ha])
      | _, isFalse has => isFalse (by simp [has])
  | [], _ :: _ | _ :: _, [] => isFalse (by simp)
end

instance : DecidableEq Ty := decEq

def isAtomic : Ty → Bool
  | .atomic _ => true
  | _ => false

def isWildcard : Ty → Bool
  | .wildcard => true
  | _ => false

/-- Applies an action to the parts of a type, the parameters first and the result last. -/
def mapParts {m : Type → Type} [Monad m] (f : Ty → m Ty) : Ty → m Ty
  | .procedure params result => do
      let params ← params.mapM f
      let result ← f result
      pure (.procedure params result)
  | ty => pure ty

mutual
/-- The written form: `(a * b -> c)` for a procedure type, `(Empty -> c)` without parameters. -/
def text : Ty → String
  | .atomic a => a.name
  | .named name => name
  | .wildcard => "_"
  | .procedure [] result => "(Empty -> " ++ result.text ++ ")"
  | .procedure (p :: ps) result => "(" ++ p.text ++ restText ps ++ " -> " ++ result.text ++ ")"

/-- The parameters after the first one. -/
def restText : List Ty → String
  | [] => ""
  | p :: ps => " * " ++ p.text ++ restText ps
end

end Ty

end TypedScheme
