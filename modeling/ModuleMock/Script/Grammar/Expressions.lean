import ModuleMock.Script.Grammar.Patterns

/-!
# Expressions

- `primary`: operands that start with a token of their own;
- `postfixTail`: member access, calls and other postfixes;
- `binaryTail`: binary operators by precedence;
- `expression`, `expressions`: assignments and sequences.
-/

namespace ModuleMock.Script.Grammar

open ModuleMock.Syntax

variable (g : Grammar)

/-! ## Objects and arrays -/

def spread : Parser Fragment :=
  phrase .spreadElement (Parser.sequence [mark "...", g (.expression .bracketed)])

def listItem : Parser Fragment :=
  Parser.sequence [markupComments, Parser.optional ((spread g).orElse fun _ => g (.expression .bracketed))]

def arguments : Parser Fragment :=
  phrase .arguments (Parser.sequence [mark "(", holeyList (listItem g), mark ")"])

def array : Parser Fragment :=
  phrase .array (Parser.sequence [mark "[", holeyList (listItem g), mark "]"])

/-- A function among the members of an object. -/
def method : Parser Fragment :=
  phrase .methodDefinition do
    let modifiers ← memberModifiers .bracketed ["static", "readonly", "async", "get", "set"]
    let star ← Parser.optional (mark "*")
    let name ← labelled .name (propertyName g)
    let rest ← Parser.sequence [Parser.optional (mark "?"), signature g .bracketed, g .block]
    return modifiers ++ star ++ name ++ rest

/-- `key: value`. -/
def pair : Parser Fragment :=
  phrase .pair (Parser.sequence [
    labelled .key (propertyName g), mark ":", labelled .value (g (.expression .bracketed))])

/-- A name that stands for a member of its own. A name before a colon is a key, even where the colon is skipped. -/
def shorthand : Parser Fragment := do
  let name ← word .shorthandPropertyIdentifier
  let c ← Parser.here
  Parser.guard ((c.rest.dropWhile isBlank).head? != some ':')
  return name

/-- Does a method follow, that is a name, after modifiers, with a parameter list? -/
def methodAhead : Parser Bool :=
  Parser.ahead (Parser.sequence [
    memberModifiers .bracketed ["static", "readonly", "async", "get", "set"], Parser.optional (mark "*"),
    propertyName g, Parser.optional (mark "?"), (mark "(").orElse fun _ => mark "<"])

def objectItem : Parser Fragment := do
  if ← nextIsMark "..." then spread g
  else if ← methodAhead g then method g
  else (pair g).orElse fun _ => shorthand

def object : Parser Fragment :=
  let item := Parser.sequence [markupComments, Parser.optional (objectItem g)]
  phrase .object (Parser.sequence [mark "\x7b", holeyList item, mark "\x7d"])

/-! ## Functions and classes -/

/-- A function with a body; a star makes it a generator. -/
def functionWith (plain generator : Form) (name : Parser Fragment) : Parser Fragment := do
  let extras ← trivia
  let start ← Parser.here
  let head ← Parser.sequence [Parser.optional (keyword "async"), keyword "function"]
  let star ← Parser.optional (mark "*")
  let named ← name
  let rest ← Parser.sequence [signature g .typed, g .block]
  let form := if star.isEmpty then plain else generator
  return extras ++ [← extend start form (head ++ star ++ named ++ rest)]

def functionExpression : Parser Fragment :=
  functionWith g .functionExpression .generatorFunction (Parser.optional (labelled .name anyIdentifier))

/-- `extends` and `implements` clauses. -/
def heritage : Parser Fragment :=
  let «implements» := phrase .implementsClause (Parser.sequence [
    keyword "implements", commaSeparated1 (g (.type .bracketed))])
  let «extends» := phrase .extendsClause (Parser.sequence [
    keyword "extends", commaSeparated1 (Parser.sequence [
      g (.unary .bracketed), Parser.optional (typeArguments g)])])
  Parser.optional (phrase .classHeritage ((Parser.sequence [«extends», Parser.optional «implements»]).orElse fun _ =>
    «implements»))

/-- The name of a class; clauses may follow instead. -/
def className : Parser Fragment := labelled .name (wordExcept .typeIdentifier ["extends", "implements"])

def classWith (f : Form) (lead name : Parser Fragment) : Parser Fragment :=
  phrase f (Parser.sequence [
    decorators g, lead, keyword "class", name, Parser.optional (typeParameters g), heritage g, g .classBody])

def classExpression : Parser Fragment :=
  classWith g .classExpression (Parser.pure []) (Parser.optional className)

/-- What an arrow function computes: a block, or an expression. -/
def arrowBody (e : Ending) : Parser Fragment := do
  if ← nextIsMark "\x7b" then (g .block).orElse fun _ => g (.expression e)
  else g (.expression e)

/-- An arrow function with a parameter list. -/
def arrowWithList (e : Ending) : Parser Fragment :=
  phrase .arrowFunction do
    let head ← Parser.sequence [
      Parser.optional (keyword "async"), Parser.optional (typeParameters g), labelled .parameters (parameters g)]
    let arrow ←
      if e == .branch then mark "=>"
      else Parser.firstOf [
        Parser.sequence [Parser.optional (resultType g .bracketed), mark "=>"],
        Parser.sequence [enclosedResultType g, mark "=>"]]
    return head ++ arrow ++ (← arrowBody g e)

/-- An arrow function with a single name for its parameter. -/
def arrowWithName (e : Ending) : Parser Fragment :=
  phrase .arrowFunction ((Parser.sequence [
      keyword "async", labelled .parameter anyIdentifier, mark "=>", arrowBody g e]).orElse fun _ =>
    Parser.sequence [labelled .parameter anyIdentifier, mark "=>", arrowBody g e])

/-! ## Operands -/

/-- Words that are not identifiers where an operand is expected. -/
def reservedOperandWords : List String :=
  ["function", "class", "this", "super", "true", "false", "null", "undefined", "typeof", "void", "delete", "await",
    "yield", "import"]

def identifier : Parser Fragment := wordExcept .identifier reservedOperandWords

def parenthesized : Parser Fragment :=
  phrase .parenthesizedExpression (Parser.sequence [
    mark "(", g (.expressions .bracketed), annotated g .bracketed, mark ")"])

/-- Member access without calls, as the class of a `new` expression. -/
def constructedTail (start : Cursor) : Nat → Node → Parser Node
  | 0, n => Parser.pure n
  | fuel + 1, n =>
    (do
      let access ← Parser.firstOf [
        Parser.sequence [markNot "." [".."], labelled .property (privateName.orElse fun _ => word .propertyIdentifier)],
        Parser.sequence [mark "?.", labelled .property (privateName.orElse fun _ => word .propertyIdentifier)]]
      constructedTail start fuel (← extend start .memberExpression ([n.withLabel .object] ++ access))).orElse fun _ =>
    (do
      let access ← Parser.sequence [mark "[", g (.expressions .bracketed), mark "]"]
      constructedTail start fuel (← extend start .subscriptExpression ([n.withLabel .object] ++ access))).orElse fun _ =>
    (do
      let bang ← markNot "!" ["!="]
      constructedTail start fuel (← extend start .nonNullExpression ([n] ++ bang))).orElse fun _ =>
    Parser.pure n

/-- `new.target`, a construction, or the word itself as an identifier. -/
def newExpression (primary : Parser Fragment) : Parser Fragment :=
  Parser.firstOf [
    phrase .metaProperty (Parser.sequence [keyword "new", mark ".", wordWhere (.form .propertyIdentifier) (· == "target")]),
    phrase .newExpression do
      let s ← Parser.setting
      let head ← keyword "new"
      let extras ← trivia
      let start ← Parser.here
      let callee ← primary
      match callee.reverse with
      | [] => Parser.fail
      | n :: _ =>
        let whole ← constructedTail g start s.size n
        let types ← Parser.optional (typeArguments g)
        let args ← Parser.optional (labelled .arguments (arguments g))
        return head ++ extras ++ [whole] ++ types ++ args,
    identifier]

/-- Operands that start with a word. -/
def wordOperand (e : Ending) (again : Parser Fragment) (w : String) : Parser Fragment :=
  match w with
  | "function" => functionExpression g
  | "async" =>
    Parser.firstOf [functionExpression g, arrowWithList g e, arrowWithName g e, identifier]
  | "class" => classExpression g
  | "new" => do
    if ← Parser.ahead (Parser.sequence [keyword "new", mark "=>"]) then arrowWithName g e
    else newExpression g again
  | "this" => wordWhere (.form .thisWord) (· == "this")
  | "super" => wordWhere (.form .superWord) (· == "super")
  | "true" => wordWhere (.form .trueWord) (· == "true")
  | "false" => wordWhere (.form .falseWord) (· == "false")
  | "null" => wordWhere (.form .nullWord) (· == "null")
  | "undefined" => do
    if ← Parser.ahead (Parser.sequence [keyword "undefined", mark "=>"]) then arrowWithName g e
    else wordWhere (.form .undefinedWord) (· == "undefined")
  | "import" =>
    (phrase .metaProperty (Parser.sequence [
      keyword "import", mark ".", wordWhere (.form .propertyIdentifier) (· == "meta")])).orElse fun _ =>
    wordWhere (.form .importWord) (· == "import")
  | _ => do
    if ← Parser.ahead (Parser.sequence [anyIdentifier, mark "=>"]) then arrowWithName g e
    else identifier

/-- Operands that start with a mark. -/
def markOperand (e : Ending) : Parser Fragment := do
  let s ← Parser.setting
  match ← nextChar? with
  | some '(' => (arrowWithList g e).orElse fun _ => parenthesized g
  | some '[' => array g
  | some '{' => object g
  | some '`' => template g
  | some '"' => string
  | some '\'' => string
  | some '/' => regex
  | some '#' => privateName
  | some '@' => classExpression g
  | some '<' =>
    (arrowWithList g e).orElse fun _ =>
    match s.dialect with
    | .markup => g .element
    | .plain => phrase .typeAssertion (Parser.sequence [typeArguments g, g (.unary e)])
  | _ => number

/-- An operand that starts with a token of its own. The fuel bounds nested `new` expressions. -/
def primary (e : Ending) : Nat → Parser Fragment
  | 0 => Parser.fail
  | fuel + 1 => do
    if ← isLacking (.form .identifier) then return ← identifier
    let w ← nextWord
    if w == "" then markOperand g e else wordOperand g e (primary e fuel) w

/-! ## Postfixes -/

/-- Could an operand start with this character? -/
def startsOperand (c : Char) : Bool :=
  isWordStart c || isDigit c || "\"'`([\x7b/+-!~<#@\\".toList.contains c

/-- A member, index, argument list or template after an operand, as a form with the parts to add. -/
def postfixOnce (n : Node) : Parser (Form × Fragment) := do
  let access := labelled .property (privateName.orElse fun _ => word .propertyIdentifier)
  let index := Parser.sequence [mark "[", g (.expressions .bracketed), mark "]"]
  let call := labelled .arguments (arguments g)
  Parser.firstOf [
    (do
      let chain ← phrase .optionalChain (mark "?.")
      Parser.firstOf [
        do return (Form.callExpression, [n.withLabel .callee] ++ chain ++ (← call)),
        do return (Form.callExpression, [n.withLabel .callee] ++ chain ++ (← typeArguments g) ++ (← call)),
        do return (Form.subscriptExpression, [n.withLabel .object] ++ chain ++ (← index)),
        do return (Form.memberExpression, [n.withLabel .object] ++ chain ++ (← access))]),
    (do return (Form.memberExpression, [n.withLabel .object] ++ (← markNot "." [".."]) ++ (← access))),
    (do return (Form.subscriptExpression, [n.withLabel .object] ++ (← index))),
    (do return (Form.callExpression, [n.withLabel .callee] ++ (← call))),
    (do return (Form.callExpression, [n.withLabel .callee] ++ (← labelled .arguments (template g)))),
    (do return (Form.nonNullExpression, [n] ++ (← markNot "!" ["!="]))),
    (do
      let types ← typeArguments g
      (do return (Form.callExpression, [n.withLabel .callee] ++ types ++ (← call))).orElse fun _ => do
      let next ← nextChar?
      Parser.guard ((← pauses .statement) || !((next.map startsOperand).getD false))
      return (Form.instantiationExpression, [n] ++ types))]

/-- Postfixes after an operand, as long as the phrase goes on. -/
def postfixTail (e : Ending) (start : Cursor) : Nat → Node → Parser Node
  | 0, n => Parser.pure n
  | fuel + 1, n => do
    if ← pauses e then return n
    (do
      let bump ← (mark "++").orElse fun _ => mark "--"
      extend start .updateExpression ([n] ++ bump)).orElse fun _ =>
    (do
      let (form, parts) ← postfixOnce g n
      postfixTail e start fuel (← extend start form parts)).orElse fun _ =>
    Parser.pure n

/-- Prefix operators written with marks. -/
def prefixMarks : List (Parser Fragment) :=
  [mark "!", mark "~", markNot "-" ["--"], markNot "+" ["++"]]

/-- An operand with the operators before and after it. -/
def unary (e : Ending) : Parser Fragment := do
  let s ← Parser.setting
  match ← nextWord with
  | "typeof" => phrase .unaryExpression (Parser.sequence [keyword "typeof", g (.unary e)])
  | "void" => phrase .unaryExpression (Parser.sequence [keyword "void", g (.unary e)])
  | "delete" => phrase .unaryExpression (Parser.sequence [keyword "delete", g (.unary e)])
  | "await" => phrase .awaitExpression (Parser.sequence [keyword "await", g (.unary e)])
  | _ =>
    (phrase .updateExpression (Parser.sequence [(mark "++").orElse fun _ => mark "--", g (.unary e)])).orElse fun _ =>
    (phrase .unaryExpression (Parser.sequence [Parser.firstOf prefixMarks, g (.unary e)])).orElse fun _ => do
    let extras ← trivia
    let start ← Parser.here
    let operand ← primary g e s.size
    match operand.reverse with
    | [] => Parser.fail
    | n :: _ => return extras ++ [← postfixTail g e start s.size n]

/-! ## Binary operators -/

/-- Marks where an operator may stand, longer ones first, with the precedence of those that join two operands. -/
def operatorMarks : List (String × Nat) :=
  [(">>>=", 0), ("===", 8), ("!==", 8), ("**=", 0), ("<<=", 0), (">>=", 0), (">>>", 10), ("&&=", 0), ("||=", 0),
    ("??=", 0), ("=>", 0), ("==", 8), ("!=", 8), ("<=", 9), (">=", 9), ("<<", 10), (">>", 10), ("&&", 4), ("||", 3),
    ("??", 2), ("**", 13), ("++", 0), ("--", 0), ("+=", 0), ("-=", 0), ("*=", 0), ("/=", 0), ("%=", 0), ("&=", 0),
    ("|=", 0), ("^=", 0), ("*", 12), ("/", 12), ("%", 12), ("+", 11), ("-", 11), ("<", 9), (">", 9), ("&", 7),
    ("^", 6), ("|", 5)]

/-- Operators that are words. -/
def operatorWords : List (String × Nat) := [("in", 9), ("instanceof", 9), ("as", 9), ("satisfies", 9)]

/-- The binary operator that comes next, with its precedence. -/
def nextOperator? : Parser (Option (String × Nat)) := fun s c r =>
  let (_, next) := skipTrivia s.patches (s.size + 1) c []
  match wordLength? next.rest with
  | some n => .found (operatorWords.find? fun o => o.1 == String.ofList (next.rest.take n)) c r
  | none =>
    match operatorMarks.find? fun o => (spellingLength? o.1 next.rest).isSome with
    | some o => .found (if o.2 == 0 then none else some o) c r
    | none => .found none c r

/-- Operators of at least the given precedence after a left operand. Each takes as its right operand what binds more
tightly; only `**` groups to the right. -/
def binaryTail (e : Ending) (start : Cursor) : Nat → Nat → Node → Parser Node
  | 0, _, n => Parser.pure n
  | fuel + 1, least, n => do
    if ← pauses e then return n
    match ← nextOperator? with
    | none => return n
    | some (operator, precedence) =>
      if precedence < least then return n
      else if operator == "as" then
        (do
          let parts ← Parser.sequence [
            keyword "as", (do
              let w ← nextWord
              if w == "const" then keyword "const" else g (.type e))]
          binaryTail e start fuel least (← extend start .asExpression ([n] ++ parts))).orElse fun _ => Parser.pure n
      else if operator == "satisfies" then
        (do
          let parts ← Parser.sequence [keyword "satisfies", g (.type e)]
          binaryTail e start fuel least (← extend start .satisfiesExpression ([n] ++ parts))).orElse fun _ =>
        Parser.pure n
      else
        (do
          let sign ← if wordLength? operator.toList |>.isSome then keyword operator else mark operator
          let extras ← trivia
          let from' ← Parser.here
          let operand ← g (.unary e)
          match operand.reverse with
          | [] => Parser.fail
          | m :: _ =>
            let next := if operator == "**" then precedence else precedence + 1
            let right ← binaryTail e from' fuel next m
            binaryTail e start fuel least (← extend start .binaryExpression
              ([n.withLabel .left] ++ sign ++ extras ++ [right.withLabel .right]))).orElse fun _ => Parser.pure n

/-- The question mark of a conditional: not part of `??` or `?.`, and not before a mark that ends an optional name. -/
def conditionLength? : List Char → Option Nat
  | '?' :: '?' :: _ => none
  | '?' :: '.' :: c :: _ => if isDigit c then some 1 else none
  | '?' :: '.' :: [] => none
  | '?' :: cs =>
    match cs.dropWhile isGap with
    | ':' :: _ => none
    | ')' :: _ => none
    | ',' :: _ => none
    | _ => some 1
  | _ => none

/-- Binary operators and the conditional operator. -/
def conditional (e : Ending) : Parser Fragment := do
  let s ← Parser.setting
  let extras ← trivia
  let start ← Parser.here
  let operand ← g (.unary e)
  match operand.reverse with
  | [] => Parser.fail
  | n :: _ =>
    let subject ← binaryTail g e start s.size 0 n
    if ← pauses e then return extras ++ [subject]
    (do
      let question ← lexeme (.token "?") conditionLength?
      let rest ← Parser.firstOf [
        Parser.sequence [g (.expression .bracketed), mark ":", g (.expression e)],
        Parser.sequence [g (.expression .branch), mark ":", g (.expression e)]]
      return extras ++ [← extend start .ternaryExpression ([subject] ++ question ++ rest)]).orElse fun _ =>
    Parser.pure (extras ++ [subject])

/-! ## Assignments and sequences -/

def augmentedMarks : List String :=
  ["+=", "-=", "*=", "/=", "%=", "^=", "&=", "|=", ">>=", ">>>=", "<<=", "**=", "&&=", "||=", "??="]

/-- Can a value be assigned to the expression? -/
def isPlace (n : Node) : Bool :=
  [Form.memberExpression, .subscriptExpression, .identifier, .undefinedWord, .nonNullExpression,
    .parenthesizedExpression].any fun f => n.isForm f

/-- The assignment mark: an equals sign on its own. -/
def assignMark : Parser Fragment := markNot "=" ["==", "=>"]

/-- An expression, with an assignment if one follows. An object or array before an assignment mark is refused here,
because there it is a pattern. -/
def assigned (e : Ending) : Parser Fragment := do
  let extras ← trivia
  let start ← Parser.here
  let read ← conditional g e
  match read.reverse with
  | [] => Parser.fail
  | n :: _ =>
    if ← pauses e then return extras ++ [n]
    if isPlace n then
      (do
        let rest ← Parser.sequence [assignMark, labelled .right (g (.expression e))]
        return extras ++ [← extend start .assignmentExpression ([n.withLabel .left] ++ rest)]).orElse fun _ =>
      (do
        let sign ← Parser.firstOf (augmentedMarks.map mark)
        let rest ← labelled .right (g (.expression e))
        return extras ++ [← extend start .augmentedAssignmentExpression ([n.withLabel .left] ++ sign ++ rest)]).orElse
        fun _ => Parser.pure (extras ++ [n])
    else do
      Parser.guard (!((n.isForm .object || n.isForm .array) && (← Parser.ahead assignMark)))
      return extras ++ [n]

def yieldExpression (e : Ending) : Parser Fragment :=
  phrase .yieldExpression do
    let head ← keyword "yield"
    if ← pauses (if e == .statement then .typed else e) then return head
    (do return head ++ (← mark "*") ++ (← g (.expression e))).orElse fun _ =>
      (do return head ++ (← g (.expression e))).orElse fun _ => Parser.pure head

/-- An assignment to a pattern. -/
def patternAssignment (e : Ending) : Parser Fragment :=
  phrase .assignmentExpression (Parser.sequence [
    labelled .left (destructuring g), assignMark, labelled .right (g (.expression e))])

/-- An assignment to a name that is disposed of at the end of its scope. -/
def usingAssignment (e : Ending) : Parser Fragment :=
  phrase .assignmentExpression (Parser.sequence [
    keyword "using", labelled .left anyIdentifier, assignMark, labelled .right (g (.expression e))])

/-- An expression that follows its markup comments. -/
def bareExpression (e : Ending) : Parser Fragment := do
  match ← nextWord with
  | "yield" => yieldExpression g e
  | "using" => do
    if ← Parser.ahead (Parser.sequence [keyword "using", anyIdentifier, assignMark]) then usingAssignment g e
    else assigned g e
  | _ => (assigned g e).orElse fun _ => patternAssignment g e

def expression (e : Ending) : Parser Fragment := Parser.sequence [markupComments, bareExpression g e]

def expressions (e : Ending) : Parser Fragment := do
  let extras ← Parser.sequence [markupComments, trivia]
  let start ← Parser.here
  let first ← g (.expression e)
  let more ← Parser.many (do
    Parser.guard (!(← pauses e))
    Parser.sequence [mark ",", g (.expression e)])
  if more.isEmpty then return extras ++ first
  else return extras ++ [← extend start .sequenceExpression (first ++ more)]

end ModuleMock.Script.Grammar
