/-!
Environments map names to values in layers. An inner layer hides the names of the outer ones, and
the last binding of a name in a layer hides the earlier ones.
-/

namespace TypedScheme

/-- The bindings of one layer, last first. -/
abbrev Layer (α : Type) := List (String × α)

structure Environment (α : Type) where
  current : Layer α
  outer : List (Layer α)

namespace Environment

variable {α : Type}

def empty : Environment α := ⟨[], []⟩

/-- An environment of one layer. -/
def ofList (bindings : List (String × α)) : Environment α := ⟨bindings.reverse, []⟩

/-- The layers, innermost first. -/
def layers (env : Environment α) : List (Layer α) := env.current :: env.outer

/-- Adds a layer; the environment itself stays as it is. -/
def extend (env : Environment α) (bindings : List (String × α)) : Environment α :=
  ⟨bindings.reverse, env.layers⟩

def get? (env : Environment α) (name : String) : Option α :=
  env.layers.findSome? (·.lookup name)

/-- The bindings of a layer that are not hidden in it, in the order of their names. -/
def visible (layer : Layer α) : List (String × α) :=
  let kept := layer.foldl
    (fun kept (name, value) =>
      if (kept.lookup name).isSome then kept else kept ++ [(name, value)]) []
  kept.mergeSort fun a b => a.1 ≤ b.1

/-- All bindings that can be seen, in the order of their names. -/
def toList (env : Environment α) : List (String × α) := visible env.layers.flatten

/-- Do two layers hold the same bindings? -/
def sameLayer [BEq α] (a b : Layer α) : Bool :=
  (a ++ b).all fun (name, _) => a.lookup name == b.lookup name

/-- Equality layer by layer. -/
def same [BEq α] (a b : Environment α) : Bool :=
  a.layers.length = b.layers.length && (a.layers.zip b.layers).all fun (x, y) => sameLayer x y

end Environment

end TypedScheme
