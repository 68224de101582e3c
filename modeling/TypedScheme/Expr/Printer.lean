import TypedScheme.Expr.Basic
import TypedScheme.Layout
import TypedScheme.Number.Shortest

/-!
Printing of data and expressions, in the form in which they can be read again.
-/

namespace TypedScheme

namespace Text

/-- The escaped form of a character in a string literal. -/
def escapeChar : Char → List Char
  | '"' => ['\\', '"']
  | '\\' => ['\\', '\\']
  | '\n' => ['\\', 'n']
  | '\t' => ['\\', 't']
  | '\r' => ['\\', 'r']
  | c => [c]

/-- A text as a string literal. -/
def quoted (s : String) : String :=
  String.ofList ('"' :: (s.toList.flatMap escapeChar ++ ['"']))

/-- A text cut to `width` characters. The last of them is an ellipsis if there is room for one. -/
def cap (width : Nat) (s : String) : String :=
  let cs := s.toList
  if cs.length ≤ width then s
  else if width < 2 then String.ofList (cs.take width)
  else String.ofList (cs.take (width - 1) ++ ['…'])

end Text

def booleanText (b : Bool) : String := if b then "#t" else "#f"

namespace Datum

mutual
def doc : Datum → Doc
  | .number _ value => .text value.text
  | .boolean _ value => .text (booleanText value)
  | .string _ value => .text (Text.quoted value)
  | .symbol _ name => .text name
  | .list _ items => Doc.form (docs items)

def docs : List Datum → List Doc
  | [] => []
  | d :: ds => d.doc :: docs ds
end

end Datum

namespace Ty

mutual
/-- The written form of a type, which has no breaks. -/
def doc : Ty → Doc
  | .atomic a => .text a.name
  | .named name => .text name
  | .wildcard => .text "_"
  | .procedure [] result => Doc.parens (.cat (.text "Empty -> ") result.doc)
  | .procedure (p :: ps) result =>
      Doc.parens (.cat p.doc (.cat (restDoc ps) (.cat (.text " -> ") result.doc)))

/-- The parameters after the first one. -/
def restDoc : List Ty → Doc
  | [] => .text ""
  | p :: ps => .cat (.text " * ") (.cat p.doc (restDoc ps))
end

end Ty

/-- `x`, or `(x : type)` if a type was written. -/
def Declaration.doc (d : Declaration) : Doc :=
  if d.type.isWildcard then .text d.id.name
  else Doc.parens (.cat (.text d.id.name) (.cat (.text " : ") d.type.ty.doc))

namespace Expr

/-- The result type of a lambda expression, if one was written. -/
def resultDocs (result : TypeExpr) : List Doc :=
  if result.isWildcard then [] else [.cat (.text ": ") result.ty.doc]

mutual
def doc : Expr → Doc
  | .number _ value => .text value.text
  | .boolean _ value => .text (booleanText value)
  | .string _ value => .text (Text.quoted value)
  | .primitive _ op => .text op.symbol
  | .var _ id => .text id.name
  | .conditional _ test yes no => Doc.form [.text "if", test.doc, yes.doc, no.doc]
  | .lambda _ params result body =>
      Doc.form (.text "lambda" :: Doc.parens (Doc.words (params.map Declaration.doc))
        :: (resultDocs result ++ docs body))
  | .application _ operator operands => Doc.form (operator.doc :: docs operands)
  | .letIn _ bindings body =>
      Doc.form (.text "let" :: Doc.form (bindingDocs bindings) :: docs body)
  | .letrec _ bindings body =>
      Doc.form (.text "letrec" :: Doc.form (bindingDocs bindings) :: docs body)
  | .define _ declaration value => Doc.form [.text "define", declaration.doc, value.doc]
  | .program _ exprs => Doc.form (.text "L5" :: docs exprs)
  | .quote _ datum => .cat (.text "'") datum.doc
  | .assign _ id value => Doc.form [.text "set!", .text id.name, value.doc]

def docs : List Expr → List Doc
  | [] => []
  | e :: es => e.doc :: docs es

def bindingDocs : List (Declaration × Expr) → List Doc
  | [] => []
  | (declaration, value) :: rest => Doc.form [declaration.doc, value.doc] :: bindingDocs rest
end

/-- The printed form of an expression. -/
def text (e : Expr) : String := e.doc.render Layout.width

end Expr

end TypedScheme
