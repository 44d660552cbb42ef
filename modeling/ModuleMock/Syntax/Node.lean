import ModuleMock.Syntax.Kind

/-!
# Syntax nodes

A node has a kind, an optional label within its parent, the stretch of source it covers, and its children in source
order. Comments are ordinary children; a token that the reader had to invent is marked `missing`, and skipped text
stands in a node of form `Form.error`.

- `Node.codeChildren`: named children without comments;
- `Node.hasKeyword`: is some keyword or punctuation mark among the children;
- `Node.child?`: the first child with a label;
- `Node.unwrap`: the expression under parentheses and type-only wrappers;
- `Node.flaggedFault?`: the first skipped or invented node that is found by way of flagged nodes;
- `Node.firstFault?`: the first one in preorder.
-/

namespace ModuleMock.Syntax

/-- The stretch of source a node covers: characters `start` to `stop`, its text, and the zero-based row where it starts. -/
structure Extent where
  start : Nat
  stop : Nat
  row : Nat
  text : String
deriving DecidableEq

inductive Node where
  | mk (kind : Kind) (label : Option Label) (extent : Extent) (missing : Bool) (children : List Node)

namespace Node

def kind : Node → Kind
  | mk k _ _ _ _ => k

def label : Node → Option Label
  | mk _ l _ _ _ => l

def extent : Node → Extent
  | mk _ _ e _ _ => e

def isMissing : Node → Bool
  | mk _ _ _ m _ => m

def children : Node → List Node
  | mk _ _ _ _ cs => cs

def text (n : Node) : String := n.extent.text

/-- The one-based line on which a node starts. -/
def line (n : Node) : Nat := n.extent.row + 1

def withLabel (l : Label) : Node → Node
  | mk k _ e m cs => mk k (some l) e m cs

def isForm (f : Form) (n : Node) : Bool := n.kind == .form f

/-- Keywords and punctuation marks are not named. -/
def isNamed (n : Node) : Bool :=
  match n.kind with
  | .form _ => true
  | .token _ => false

/-- Named children without comments. -/
def codeChildren (n : Node) : List Node :=
  n.children.filter fun c => c.isNamed && !c.isForm .comment

def namedChildren (n : Node) : List Node := n.children.filter isNamed

/-- Is the given keyword or punctuation mark a direct child? -/
def hasKeyword (n : Node) (spelling : String) : Bool :=
  n.children.any fun c => c.kind == .token spelling

/-- The first child with the given label. -/
def child? (n : Node) (l : Label) : Option Node :=
  n.children.find? fun c => c.label == some l

/-- Wrappers that exist for the type checker or for grouping only. -/
def isWrapper (n : Node) : Bool :=
  n.isForm .parenthesizedExpression || n.isForm .asExpression || n.isForm .satisfiesExpression
    || n.isForm .nonNullExpression

/-- Children are smaller, which is what recursions over a tree terminate by. -/
theorem sizeOf_lt_of_mem_children {c n : Node} (h : c ∈ n.children) : sizeOf c < sizeOf n := by
  cases n with
  | mk k l e m cs =>
    have := List.sizeOf_lt_of_mem (show c ∈ cs from h)
    simp only [mk.sizeOf_spec]
    omega

/-- The first code child is a child. -/
theorem mem_children_of_head?_codeChildren {c n : Node} (h : n.codeChildren.head? = some c) : c ∈ n.children :=
  (List.mem_filter.mp (List.mem_of_head? h)).1

/-- The expression below all wrappers; a wrapper without contents stands for itself. -/
def unwrap (n : Node) : Node :=
  if n.isWrapper then
    match _h : n.codeChildren.head? with
    | some c => c.unwrap
    | none => n
  else n
termination_by sizeOf n
decreasing_by exact sizeOf_lt_of_mem_children (mem_children_of_head?_codeChildren ‹_›)

/-- The raw text between the delimiters of a string or template. -/
def stringValue (n : Node) : String :=
  let cs := n.text.toList
  if 2 ≤ cs.length then String.ofList (cs.tail.dropLast) else n.text

/-! ## Faults -/

/-- Skipped text, or a token that is not in the source. -/
def isFault (n : Node) : Bool := n.isForm .error || n.isMissing

mutual

/-- Does a fault occur at or below the node? -/
def hasFault : Node → Bool
  | mk k _ _ m cs => k == .form .error || m || hasFaultAny cs

def hasFaultAny : List Node → Bool
  | [] => false
  | n :: ns => hasFault n || hasFaultAny ns

end

section Search

variable (flagged : Node → Bool)

mutual

/-- The first fault at or below a node, in preorder. Of its children only those are entered that are flagged or not in
the source. -/
def searchFault? : Node → Option Node
  | mk k l e m cs => if k == .form .error || m then some (mk k l e m cs) else searchFaultOf? cs

def searchFaultOf? : List Node → Option Node
  | [] => none
  | n :: ns => if flagged n || n.isMissing then searchFault? n <|> searchFaultOf? ns else searchFaultOf? ns

end

/-- The first fault of a tree; where the root is not flagged, there is no search. -/
def flaggedFault? (root : Node) : Option Node := if flagged root then root.searchFault? flagged else none

end Search

/-- The first fault of a tree in preorder; subtrees without a fault are not entered. -/
def firstFault? (root : Node) : Option Node := root.flaggedFault? hasFault

end Node

end ModuleMock.Syntax
