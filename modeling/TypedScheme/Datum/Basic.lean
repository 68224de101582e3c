import TypedScheme.Number.Basic
import TypedScheme.Span

/-!
Data: atoms and lists, each with its position. Data are what the reader makes of a source text and
what a quotation holds.
-/

namespace TypedScheme

inductive Datum where
  | number (pos : Position) (value : Number)
  | boolean (pos : Position) (value : Bool)
  | string (pos : Position) (value : String)
  | symbol (pos : Position) (name : String)
  | list (pos : Position) (items : List Datum)
deriving Repr

namespace Datum

def pos : Datum → Position
  | .number pos _ | .boolean pos _ | .string pos _ | .symbol pos _ | .list pos _ => pos

def symbol? : Datum → Option String
  | .symbol _ name => some name
  | _ => none

def isSymbol (name : String) (d : Datum) : Bool := d.symbol? = some name

mutual
/-- Equality of data whatever their positions. -/
def same : Datum → Datum → Bool
  | .number _ a, .number _ b => a.same b
  | .boolean _ a, .boolean _ b => a = b
  | .string _ a, .string _ b => a = b
  | .symbol _ a, .symbol _ b => a = b
  | .list _ as, .list _ bs => sameAll as bs
  | _, _ => false

def sameAll : List Datum → List Datum → Bool
  | [], [] => true
  | a :: as, b :: bs => a.same b && sameAll as bs
  | _, _ => false
end

end Datum

end TypedScheme
