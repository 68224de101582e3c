import TypedScheme.Proofs.Datum.Slices
import TypedScheme.Proofs.Expr.Parts
import TypedScheme.Proofs.Expr.Positions

/-! Positions cut out of a text what they stand for.
Main statement: everything with a position in the expression of a source is read again from the piece
of the source at that position, and what it is made of lies inside that piece, part after part.
-/

namespace TypedScheme

def TypeExpr.pos : TypeExpr → Position
  | .atomic pos _ | .named pos _ | .wildcard pos | .procedure pos _ _ => pos

/-- What has a position in an expression. -/
inductive Node where
  | expr (e : Expr)
  | type (t : TypeExpr)
  | identifier (id : Identifier)

namespace Node

def pos : Node → Position
  | .expr e => e.pos
  | .type t => t.pos
  | .identifier id => id.pos

/-- A type is a node if it is written. -/
def ofType (t : TypeExpr) : List Node := if t.isWildcard then [] else [.type t]

def ofDeclaration (x : Declaration) : List Node := .identifier x.id :: ofType x.type

def ofBinding (binding : Declaration × Expr) : List Node :=
  ofDeclaration binding.1 ++ [.expr binding.2]

/-- The nodes of which a node is made, from left to right. -/
def children : Node → List Node
  | .expr (.number _ _) | .expr (.boolean _ _) | .expr (.string _ _) | .expr (.primitive _ _)
  | .expr (.var _ _) | .expr (.quote _ _) => []
  | .expr (.conditional _ test yes no) => [.expr test, .expr yes, .expr no]
  | .expr (.lambda _ params result body) =>
      params.flatMap ofDeclaration ++ (ofType result ++ body.map .expr)
  | .expr (.application _ operator operands) => .expr operator :: operands.map .expr
  | .expr (.letIn _ bindings body) | .expr (.letrec _ bindings body) =>
      bindings.flatMap ofBinding ++ body.map .expr
  | .expr (.define _ x value) => ofDeclaration x ++ [.expr value]
  | .expr (.program _ exprs) => exprs.map .expr
  | .expr (.assign _ id value) => [.identifier id, .expr value]
  | .type (.atomic _ _) | .type (.named _ _) | .type (.wildcard _) => []
  | .type (.procedure _ params result) => params.map .type ++ [.type result]
  | .identifier _ => []

/-- The second node is the first one or inside it. -/
abbrev Contains : Node → Node → Prop := Relation.ReflTransGen fun node child => child ∈ node.children

/-- The node has this extent in the file. -/
def At (file : FileId) (node : Node) (start stop : Nat) : Prop :=
  node.pos = some ⟨file, start, stop⟩

/-- The node is what the piece alone is read as. The identifier `quote` may stand for a quote
mark.
-/
def ReadFrom (piece : String) : Node → Prop
  | .expr e => ∀ file, ∃ e', Expr.parse file piece = .ok e' ∧ e.same e' = true
  | .type t => ∀ file, ∃ t', TypeExpr.parse file piece = .ok t' ∧ t'.ty = t.ty
  | .identifier id =>
      (∀ file, ∃ pos, Datum.read file piece = .ok (.symbol pos id.name))
      ∨ piece = "'" ∧ id.name = "quote"

variable {file : FileId} {text : String}

/-- The datum writes the node, and it is spelt in the text. -/
inductive Stands (file : FileId) (text : String) : Node → Datum → Prop
  | expr {e : Expr} {d : Datum} (written : Expr.RootWritten d e) (spelt : d.Spelt file text)
    : Stands file text (.expr e) d
  | type {t : TypeExpr} {d : Datum} (written : TypeExpr.Written d t) (spelt : d.Spelt file text)
    : Stands file text (.type t) d
  | identifier {name : String} {pos : Position} (legible : (Datum.symbol pos name).Legible file text)
    : Stands file text (.identifier ⟨name, pos⟩) (.symbol pos name)

/-- The nodes stand among the data or in them, from left to right. -/
inductive Found (file : FileId) (text : String) : List Datum → List Node → Prop
  | nil (ds : List Datum) : Found file text ds []
  | skip (d : Datum) {ds : List Datum} {nodes : List Node} (rest : Found file text ds nodes)
    : Found file text (d :: ds) nodes
  | node {node : Node} {d : Datum} {ds : List Datum} {nodes : List Node}
    (stands : Stands file text node d) (rest : Found file text ds nodes)
    : Found file text (d :: ds) (node :: nodes)
  | inside {pos : Position} {items ds : List Datum} {inner nodes : List Node}
    (within : Found file text items inner) (rest : Found file text ds nodes)
    : Found file text (.list pos items :: ds) (inner ++ nodes)

-----------------------------------------------------------------------------------------
-- Nodes and their data
-----------------------------------------------------------------------------------------

/-- A node stands where its datum stands. -/
theorem Stands.pos_eq {node : Node} {d : Datum} (stands : Stands file text node d)
    : node.pos = d.pos := by
  cases stands with
  | expr written => exact written.pos_eq
  | type written => cases written <;> rfl
  | identifier => rfl

/-- The place of a node cuts a piece out of the text from which the node is read again. -/
theorem Stands.cutsOut {node : Node} {d : Datum} (stands : Stands file text node d)
    (fits : text.utf8ByteSize ≤ Span.maxOffset)
    : ∃ piece, Position.CutsOut file text piece node.pos ∧ node.ReadFrom piece := by
  rw [stands.pos_eq]
  cases stands with
  | expr written spelt =>
      obtain ⟨piece, cutsOut, reads⟩ := spelt.cutsOut fits
      refine ⟨piece, cutsOut, fun file' => ?_⟩
      obtain ⟨d', read, alike⟩ := reads file'
      obtain ⟨e', written', same⟩ := Expr.rootWritten_of_alike written spelt.defined alike
      exact ⟨e', Expr.parse_eq_ok_iff.mpr ⟨d', read, written'⟩, same⟩
  | @type t d written spelt =>
      obtain ⟨piece, cutsOut, reads⟩ := spelt.cutsOut fits
      refine ⟨piece, cutsOut, fun file' => ?_⟩
      obtain ⟨d', read, alike⟩ := reads file'
      obtain ⟨t', written', same⟩ := TypeExpr.writtenAlike d t d' written alike
      refine ⟨t', ?_, same⟩
      rw [TypeExpr.parse, read]
      exact TypeExpr.ofDatum_of_written written'
  | identifier legible =>
      rcases legible with spelt | ⟨pos, same, cutsOut⟩
      · obtain ⟨piece, cutsOut, reads⟩ := spelt.cutsOut fits
        refine ⟨piece, cutsOut, .inl fun file' => ?_⟩
        obtain ⟨d', read, alike⟩ := reads file'
        obtain ⟨pos', rfl⟩ := alike.of_symbol
        exact ⟨pos', read⟩
      · cases same
        exact ⟨"'", cutsOut, .inr ⟨rfl, rfl⟩⟩

/-- Every node found in data stands in one of them, by induction on what was found. -/
theorem Found.exists_datum {ds : List Datum} {nodes : List Node} (found : Found file text ds nodes)
    {node : Node} (member : node ∈ nodes)
    : ∃ item ∈ ds, ∃ d, item.Within d ∧ Stands file text node d := by
  induction found with
  | nil => cases member
  | skip d _ ih =>
      obtain ⟨item, inRest, d, within, stands⟩ := ih member
      exact ⟨item, .tail _ inRest, d, within, stands⟩
  | node stands _ ih =>
      rcases List.mem_cons.mp member with rfl | later
      · exact ⟨_, .head _, _, .refl, stands⟩
      · obtain ⟨item, inRest, d, within, stands⟩ := ih later
        exact ⟨item, .tail _ inRest, d, within, stands⟩
  | inside _ _ ihInside ih =>
      rcases List.mem_append.mp member with inner | later
      · obtain ⟨item, inItems, d, within, stands⟩ := ihInside inner
        exact ⟨_, .head _, d, Datum.within_of_mem inItems within, stands⟩
      · obtain ⟨item, inRest, d, within, stands⟩ := ih later
        exact ⟨item, .tail _ inRest, d, within, stands⟩

/-- Nodes that are found from left to right follow one another. -/
theorem Found.inOrder {ds : List Datum} {nodes : List Node} (found : Found file text ds nodes)
    {B : Nat → Prop} (placed : ∀ d ∈ ds, d.Placed B file) {low high : Nat}
    (dataInOrder : InOrder (Datum.At file) low ds high)
    : InOrder (Node.At file) low nodes high := by
  induction found generalizing low high with
  | nil => exact .nil dataInOrder.le
  | skip d _ ih =>
      cases dataInOrder with
      | @cons _ start stop _ _ _ after nonempty here rest =>
          have le : low ≤ stop := by omega
          have others := ih (fun d member => placed d (.tail _ member)) rest
          exact (InOrder.nil le).append others
  | node stands _ ih =>
      cases dataInOrder with
      | cons after nonempty here rest =>
          have others := ih (fun d member => placed d (.tail _ member)) rest
          exact .cons after nonempty (stands.pos_eq.trans here) others
  | @inside pos items ds inner nodes _ _ ihInside ih =>
      cases dataInOrder with
      | @cons _ start stop _ _ _ after nonempty here rest =>
          have list : (Datum.list pos items).Placed B file := placed _ (.head _)
          obtain ⟨span, known, _, itemsInOrder⟩ := list (.list pos items) .refl
          cases known.symm.trans here
          have within := ihInside (fun item member => list.item member) itemsInOrder
          have others := ih (fun d member => placed d (.tail _ member)) rest
          exact ((InOrder.nil after).append within).append others

-----------------------------------------------------------------------------------------
-- What a node is made of is found in its datum
-----------------------------------------------------------------------------------------

/-- A type that was written is one node. -/
theorem ofType_of_written {d : Datum} {t : TypeExpr} (written : TypeExpr.Written d t)
    : ofType t = [.type t] := by
  rw [ofType, TypeExpr.notWildcard_of_written written]
  rfl

/-- The nodes of a declaration are found in its datum. -/
theorem found_declaration {d : Datum} {x : Declaration} (written : Declaration.Written d x)
    (legible : d.Legible file text) (fits : text.utf8ByteSize ≤ Span.maxOffset) {ds : List Datum}
    {nodes : List Node} (rest : Found file text ds nodes)
    : Found file text (d :: ds) (ofDeclaration x ++ nodes) := by
  cases written with
  | plain pos free => exact .node (.identifier legible) rest
  | typed pos idPos colonPos free inType =>
      have each := legible.spelt.items_spelt fits (by simp)
      have type := Stands.type inType (each _ (by simp))
      rw [ofDeclaration, ofType_of_written inType]
      exact .inside (.node (.identifier (.inl (each _ (by simp)))) (.skip _ (.node type (.nil _))))
        rest

/-- The nodes of declarations are found in their data, by induction on the pairs. -/
theorem found_declarations {ds : List Datum} {xs : List Declaration}
    (written : List.Forall₂ Declaration.Written ds xs) (legible : ∀ d ∈ ds, d.Legible file text)
    (fits : text.utf8ByteSize ≤ Span.maxOffset)
    : Found file text ds (xs.flatMap ofDeclaration) := by
  induction written with
  | nil => exact .nil _
  | cons first others ih =>
      have rest := ih fun d member => legible d (.tail _ member)
      exact found_declaration first (legible _ (.head _)) fits rest

/-- Expressions are found in their data, by induction on the data. -/
theorem found_exprs {ds : List Datum} {es : List Expr} (written : Expr.AllWritten ds es)
    (spelt : ∀ d ∈ ds, d.Spelt file text)
    : Found file text ds (es.map .expr) := by
  induction ds generalizing es with
  | nil =>
      cases written
      exact .nil _
  | cons d ds ih =>
      cases written with
      | cons first others =>
          have rest := ih others fun d member => spelt d (.tail _ member)
          exact .node (.expr (.expr first) (spelt d (.head _))) rest

/-- A binding may be a quotation, where the quote mark is what it declares. -/
theorem found_bindings {ds : List Datum} {bindings : List (Declaration × Expr)}
    (written : Expr.BindingsWritten ds bindings) (legible : ∀ d ∈ ds, d.Legible file text)
    (fits : text.utf8ByteSize ≤ Span.maxOffset)
    : Found file text ds (bindings.flatMap ofBinding) := by
  induction ds generalizing bindings with
  | nil =>
      cases written
      exact .nil _
  | cons d ds ih =>
      cases written with
      | cons pos inDeclaration inValue others =>
          have rest := ih others fun d member => legible d (.tail _ member)
          obtain ⟨declared, value⟩ := (legible _ (.head _)).spelt.pair fits
          have inside :=
            found_declaration inDeclaration declared fits
              (.node (.expr (.expr inValue) value) (.nil []))
          exact .inside inside rest

/-- The bindings and the body of a form are found behind its head. -/
theorem found_bindingForm {pos headPos bindingsPos : Position} {form : String}
    {ds rest : List Datum} {bindings : List (Declaration × Expr)} {body : List Expr}
    (inBindings : Expr.BindingsWritten ds bindings) (inBody : Expr.AllWritten rest body)
    (nonempty : rest ≠ [])
    (spelt
      : (Datum.list pos (.symbol headPos form :: .list bindingsPos ds :: rest)).Spelt file text)
    (fits : text.utf8ByteSize ≤ Span.maxOffset)
    : Found file text (.symbol headPos form :: .list bindingsPos ds :: rest)
        (bindings.flatMap ofBinding ++ body.map .expr) := by
  have each := spelt.items_spelt fits (by simp [nonempty])
  have legible := (each (.list bindingsPos ds) (by simp)).items_legible fits
  have afterBindings := found_exprs inBody fun d member => each d (by simp [member])
  exact .skip _ (.inside (found_bindings inBindings legible fits) afterBindings)

/-- A signature is not a quotation. -/
theorem not_quotation_of_signatureWritten {items : List Datum} {params : List TypeExpr}
    {result : TypeExpr} (written : TypeExpr.SignatureWritten items params result)
    : ∀ markPos d, items ≠ [.symbol markPos "quote", d] := by
  rintro markPos d rfl
  cases written with
  | more _ _ others => cases others

/-- The parameters and the result of a signature are found in its items, by induction over the
written form.
-/
theorem found_signature {items : List Datum} {params : List TypeExpr} {result : TypeExpr}
    (spelt : ∀ d ∈ items, d.Spelt file text)
    : TypeExpr.SignatureWritten items params result
      → Found file text items (params.map .type ++ [.type result])
  | .last arrowPos inParam inResult => by
      have last := Stands.type inResult (spelt _ (by simp))
      exact .node (.type inParam (spelt _ (by simp))) (.skip _ (.node last (.nil _)))
  | .more starPos inParam others => by
      have rest := found_signature (fun d member => spelt d (by simp [member])) others
      exact .node (.type inParam (spelt _ (by simp))) (.skip _ rest)

/-- The parts of a type are found in the items of its datum. -/
theorem found_type {d : Datum} {t : TypeExpr} (written : TypeExpr.Written d t)
    (spelt : d.Spelt file text) (fits : text.utf8ByteSize ≤ Span.maxOffset)
    : Found file text d.items (Node.type t).children := by
  cases written with
  | atomic | named => exact .nil _
  | thunk pos emptyPos arrowPos inResult =>
      have each := spelt.items_spelt fits (by simp)
      exact .skip _ (.skip _ (.node (.type inResult (each _ (by simp))) (.nil _)))
  | procedure pos inside =>
      have each := spelt.items_spelt fits (not_quotation_of_signatureWritten inside)
      exact found_signature each inside

/-- The parts of an expression are found in the items of its datum. -/
theorem found_expr {d : Datum} {e : Expr} (written : Expr.Written d e) (spelt : d.Spelt file text)
    (fits : text.utf8ByteSize ≤ Span.maxOffset)
    : Found file text d.items (Node.expr e).children := by
  cases written with
  | number | boolean | string | primitive | var | quote => exact .nil _
  | conditional pos headPos inTest inYes inNo =>
      have each := spelt.items_spelt fits (by simp)
      have test := Stands.expr (.expr inTest) (each _ (by simp))
      have yes := Stands.expr (.expr inYes) (each _ (by simp))
      have no := Stands.expr (.expr inNo) (each _ (by simp))
      exact .skip _ (.node test (.node yes (.node no (.nil _))))
  | @lambda pos headPos paramsPos ds rest params body inParams inBody nonempty noColon =>
      have each := spelt.items_spelt fits (by simp)
      have legible := (each (.list paramsPos ds) (by simp)).items_legible fits
      have inside := found_declarations inParams legible fits
      exact .skip _ (.inside inside (found_exprs inBody fun d member => each d (by simp [member])))
  | @typedLambda pos headPos paramsPos colonPos d ds rest params result body inParams inResult
      inBody nonempty =>
      have each := spelt.items_spelt fits (by simp)
      have legible := (each (.list paramsPos ds) (by simp)).items_legible fits
      have inside := found_declarations inParams legible fits
      have type := Stands.type inResult (each d (by simp))
      have behind := found_exprs inBody fun d member => each d (by simp [member])
      rw [children, ofType_of_written inResult]
      exact .skip _ (.inside inside (.skip _ (.node type behind)))
  | application pos inOperator inOperands noKeyword =>
      have each := spelt.items_spelt fits (by
        rintro markPos d same
        cases same
        exact noKeyword "quote" rfl (by decide))
      have operator := Stands.expr (.expr inOperator) (each _ (.head _))
      exact .node operator (found_exprs inOperands fun d member => each d (.tail _ member))
  | letIn _ _ _ inBindings inBody nonempty | letrec _ _ _ inBindings inBody nonempty =>
      exact found_bindingForm inBindings inBody nonempty spelt fits
  | @define pos headPos d₁ d₂ declaration value inDeclaration inValue =>
      have each := spelt.items_spelt fits (by simp)
      have declared : d₁.Legible file text := .inl (each d₁ (by simp))
      have value := Stands.expr (.expr inValue) (each d₂ (by simp))
      exact .skip _ (found_declaration inDeclaration declared fits (.node value (.nil _)))
  | assign pos headPos idPos name inValue =>
      have each := spelt.items_spelt fits (by simp)
      have assigned := Stands.identifier (.inl (each (.symbol idPos name) (by simp)))
      have value := Stands.expr (.expr inValue) (each _ (by simp))
      exact .skip _ (.node assigned (.node value (.nil _)))

/-- The parts of a node stand in its datum, from left to right. -/
theorem Stands.found {node : Node} {d : Datum} (stands : Stands file text node d)
    (fits : text.utf8ByteSize ≤ Span.maxOffset)
    : Found file text d.items node.children := by
  cases stands with
  | identifier => exact .nil _
  | type written spelt => exact found_type written spelt fits
  | expr written spelt =>
      cases written with
      | expr written => exact found_expr written spelt fits
      | program pos headPos inside nonempty =>
          have each := spelt.items_spelt fits (by simp)
          exact .skip _ (found_exprs inside fun d member => each d (.tail _ member))

-----------------------------------------------------------------------------------------
-- All nodes of a source
-----------------------------------------------------------------------------------------

/-- Every node inside one that stands in the text stands there, by induction on the way to the node.
-/
theorem Stands.contained {B : Nat → Prop} {root node : Node} {d : Datum}
    (stands : Stands file text root d) (placed : d.Placed B file)
    (fits : text.utf8ByteSize ≤ Span.maxOffset) (contains : root.Contains node)
    : ∃ d', Stands file text node d' ∧ d'.Placed B file := by
  induction contains with
  | refl => exact ⟨d, stands, placed⟩
  | tail _ member ih =>
      obtain ⟨d', stands', placed'⟩ := ih
      obtain ⟨item, inItems, d'', within, stands''⟩ := (stands'.found fits).exists_datum member
      exact ⟨d'', stands'', (placed'.item inItems).within within⟩

/-- Everything with a position in the expression of a source is what the piece of the source at that
position is read as. The nodes of which it is made follow one another inside that piece, and none of
them is empty.
-/
theorem positions_cut_out {file : FileId} {text : String} {e : Expr}
    (fits : text.utf8ByteSize ≤ Span.maxOffset) (parsed : Expr.parse file text = .ok e) {node : Node}
    (contains : (Node.expr e).Contains node)
    : ∃ before piece after : String,
        text = before ++ piece ++ after
        ∧ node.At file before.utf8ByteSize (before ++ piece).utf8ByteSize
        ∧ node.ReadFrom piece
        ∧ InOrder (Node.At file) before.utf8ByteSize node.children
            (before ++ piece).utf8ByteSize := by
  obtain ⟨d, read, written⟩ := Expr.parse_eq_ok_iff.mp parsed
  have root : Stands file text (.expr e) d := .expr written (Datum.spelt_of_read read)
  obtain ⟨d', stands, placed⟩ := root.contained (Datum.placed_of_read fits read) fits contains
  obtain ⟨piece, ⟨before, after, whole, isAt⟩, readFrom⟩ := stands.cutsOut fits
  refine ⟨before, piece, after, whole, isAt, readFrom, ?_⟩
  obtain ⟨span, known, _, itemsInOrder⟩ := placed d' .refl
  cases known.symm.trans (stands.pos_eq.symm.trans isAt)
  exact (stands.found fits).inOrder (fun item member => placed.item member) itemsInOrder

/-- A source with characters of two bytes, a comment, an annotation and a quotation. -/
def accentedLambda : String := "(lambda ((é : (T -> T))) ; λ\n 'x)"

/-- The annotation of the parameter. -/
theorem positions_cut_out_annotation
    : ∃ e node,
        accentedLambda.utf8ByteSize ≤ Span.maxOffset
        ∧ Expr.parse 1 accentedLambda = .ok e
        ∧ (Node.expr e).Contains node
        ∧ node.At 1 15 23
        ∧ ∃ before piece after : String,
            accentedLambda = before ++ piece ++ after
            ∧ node.At 1 before.utf8ByteSize (before ++ piece).utf8ByteSize
            ∧ node.ReadFrom piece
            ∧ InOrder (Node.At 1) before.utf8ByteSize node.children
                (before ++ piece).utf8ByteSize := by
  have fits : accentedLambda.utf8ByteSize ≤ Span.maxOffset := by
    decide +kernel
  have runs
      : (Expr.parse 1 accentedLambda).toOption.any (fun e =>
          (Node.expr e).children.any fun node => node.pos = some ⟨1, 15, 23⟩)
        = true := by
    decide +kernel
  obtain ⟨e, parsed, found⟩ := exists_ok_of_any runs
  obtain ⟨node, member, isAt⟩ := List.any_eq_true.mp found
  rw [decide_eq_true_eq] at isAt
  have contains : (Node.expr e).Contains node := .single member
  exact ⟨e, node, fits, parsed, contains, isAt, positions_cut_out fits parsed contains⟩

end Node

end TypedScheme
