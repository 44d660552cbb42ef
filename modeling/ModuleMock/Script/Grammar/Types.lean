import ModuleMock.Script.Grammar.Atom

/-!
# Types

Types, their parameters and arguments, and the parameter lists and result types of functions.
-/

namespace ModuleMock.Script.Grammar

open ModuleMock.Syntax

variable (g : Grammar)

/-! ## Arguments and parameters of types -/

def typeArguments : Parser Fragment :=
  phrase .typeArguments (Parser.sequence [mark "<", commaList (g (.type .bracketed)), mark ">"])

def typeParameter : Parser Fragment :=
  phrase .typeParameter do
    let head ← (do
        let modifier ← keyword "const"
        return modifier ++ (← labelled .name (word .typeIdentifier))).orElse fun _ =>
      labelled .name (word .typeIdentifier)
    let bound ← Parser.optional (phrase .typeConstraint (Parser.sequence [
      (keyword "extends").orElse fun _ => mark ":", g (.type .bracketed)]))
    let fallback ← Parser.optional (phrase .defaultType (Parser.sequence [mark "=", g (.type .bracketed)]))
    return head ++ bound ++ fallback

def typeParameters : Parser Fragment :=
  phrase .typeParameters (Parser.sequence [
    mark "<", commaSeparated1 (typeParameter g), Parser.optional (mark ","), mark ">"])

/-! ## Annotations -/

/-- `name is T`. -/
def typePredicate (e : Ending) : Parser Fragment :=
  phrase .typePredicate (Parser.sequence [
    labelled .name ((keyword "this").orElse fun _ => anyIdentifier), keyword "is", g (.type e)])

/-- `asserts name` or `asserts name is T`. -/
def assertion (e : Ending) : Parser Fragment :=
  phrase .assertion (Parser.sequence [
    keyword "asserts", (typePredicate g e).orElse fun _ => anyIdentifier])

def typeAscription (e : Ending) : Parser Fragment :=
  phrase .typeAscription (Parser.sequence [mark ":", g (.type e)])

/-- The result type of a function: an assertion, a predicate, or a plain type. -/
def resultType (e : Ending) : Parser Fragment :=
  labelled .returnType (Parser.firstOf [
    phrase .assertsAscription (Parser.sequence [mark ":", assertion g e]),
    phrase .predicateAscription (Parser.sequence [mark ":", typePredicate g e]),
    typeAscription g e])

/-- A type annotation, or nothing. -/
def annotated (e : Ending) : Parser Fragment := Parser.optional (typeAscription g e)

/-! ## Parameters of functions -/

/-- A dotted path of names after `@`, possibly called. -/
def decorator : Parser Fragment :=
  phrase .decorator do
    let at' ← mark "@"
    let body ← (do
        let first ← anyIdentifier
        let path ← Parser.many (Parser.sequence [mark ".", word .propertyIdentifier])
        let types ← Parser.optional (typeArguments g)
        let args ← Parser.optional (phrase .arguments (Parser.sequence [
          mark "(", holeyList (Parser.firstOf [
            phrase .spreadElement (Parser.sequence [mark "...", g (.expression .bracketed)]),
            g (.expression .bracketed)]), mark ")"]))
        return first ++ path ++ types ++ args).orElse fun _ =>
      phrase .parenthesizedExpression (Parser.sequence [mark "(", g (.expressions .bracketed), mark ")"])
    return at' ++ body

def decorators : Parser Fragment := Parser.many (decorator g)

/-- A keyword that is a modifier only if something that can be modified follows. -/
def modifierBefore (next : Parser Fragment) (w : String) (f : Option Form) : Parser Fragment := do
  let read ← match f with
    | none => keyword w
    | some f => phrase f (keyword w)
  Parser.guard (← Parser.ahead next)
  return read

def accessibilityWords : List String := ["public", "private", "protected"]

/-- Modifiers of a parameter that is also a field. -/
def parameterModifiers : Parser Fragment :=
  let next := (g .pattern)
  Parser.many (Parser.firstOf
    (accessibilityWords.map (fun w => modifierBefore next w (some .accessibilityModifier))
      ++ [modifierBefore next "override" (some .overrideModifier), modifierBefore next "readonly" none]))

/-- One parameter: its pattern is labelled, and a question mark makes it optional. -/
def parameter : Parser Fragment := do
  let extras ← trivia
  let start ← Parser.here
  let before ← decorators g
  let modifiers ← parameterModifiers g
  let pattern ← labelled .pattern
    ((wordWhere (.form .thisWord) (· == "this")).orElse fun _ => g .pattern)
  let question ← Parser.optional (mark "?")
  let annotation' ← annotated g .bracketed
  let value ← Parser.optional (Parser.sequence [
    markNot "=" ["=>"], labelled .value (g (.expression .bracketed))])
  let stop ← Parser.here
  let form := if question.isEmpty then Form.requiredParameter else .optionalParameter
  return extras ++ [start.nodeTo stop (.form form) (before ++ modifiers ++ pattern ++ question ++ annotation' ++ value)]

def parameters : Parser Fragment :=
  phrase .formalParameters (Parser.sequence [mark "(", commaList (parameter g), mark ")"])

/-- Type parameters, parameters and result type of a function. -/
def signature (e : Ending) : Parser Fragment :=
  Parser.sequence [
    Parser.optional (typeParameters g), labelled .parameters (parameters g), Parser.optional (resultType g e)]

/-! ## Members of object types -/

/-- Can a member name start with this character? -/
def startsMemberName (c : Char) : Bool :=
  isWordStart c || c == '"' || c == '\'' || isDigit c || c == '[' || c == '#' || c == '\\' || c == '*' || c == '.'

/-- A modifier of a member: a keyword with a member name after it. Where a member may end at a line break, the name
has to stand on the same line. -/
def memberModifier (e : Ending) (w : String) (f : Option Form) : Parser Fragment := do
  let read ← match f with
    | none => keyword w
    | some f => phrase f (keyword w)
  Parser.guard (!(← pauses e))
  match ← nextChar? with
  | some c => Parser.guard (startsMemberName c)
  | none => Parser.fail
  return read

/-- Any number of modifiers of a member. -/
def memberModifiers (e : Ending) (words : List String) : Parser Fragment :=
  Parser.many (Parser.firstOf
    (accessibilityWords.map (fun w => memberModifier e w (some .accessibilityModifier))
      ++ [memberModifier e "override" (some .overrideModifier)]
      ++ words.map (fun w => memberModifier e w none)))

/-- `[key: K]: V` or `[K in T]: V`. -/
def indexSignature : Parser Fragment :=
  phrase .indexSignature do
    let head ← Parser.optional (Parser.sequence [
      Parser.optional ((mark "-").orElse fun _ => mark "+"), keyword "readonly"])
    let «open» ← mark "["
    let inner ← Parser.firstOf [
      Parser.sequence [anyIdentifier, mark ":", g (.type .bracketed)],
      phrase .mappedTypeClause (Parser.sequence [
        word .typeIdentifier, keyword "in", g (.type .bracketed),
        Parser.optional (Parser.sequence [keyword "as", g (.type .bracketed)])])]
    let close ← mark "]"
    let sign ← Parser.optional (Parser.firstOf [mark "-?", mark "+?", mark "?"])
    let result ← annotated g .typed
    return head ++ «open» ++ inner ++ close ++ sign ++ result

def typeMember : Parser Fragment :=
  Parser.firstOf [
    phrase .constructSignature (Parser.sequence [
      Parser.optional (keyword "abstract"), keyword "new", Parser.optional (typeParameters g), parameters g,
      annotated g .typed]),
    phrase .callSignature (signature g .typed),
    indexSignature g,
    phrase .methodSignature (Parser.sequence [
      memberModifiers .typed ["static", "readonly", "async", "get", "set"],
      Parser.optional (mark "*"), labelled .name (propertyName g), Parser.optional (mark "?"), signature g .typed]),
    phrase .propertySignature (Parser.sequence [
      memberModifiers .typed ["static", "readonly"],
      labelled .name (propertyName g), Parser.optional (mark "?"), annotated g .typed])]

/-- Members between braces, each ended by a comma, a semicolon or a line break. -/
def objectType (f : Form) : Parser Fragment :=
  phrase f (Parser.sequence [
    mark "\x7b",
    Parser.optional ((mark ",").orElse fun _ => mark ";"),
    Parser.many (do
      let member ← typeMember g
      let stop ← (mark ",").orElse fun _ => semicolon .typed
      return member ++ stop),
    mark "\x7d"])

/-! ## Types without operators -/

def predefinedTypes : List String :=
  ["any", "number", "boolean", "string", "symbol", "void", "unknown", "never", "object"]

/-- Words that never name a type where a type is expected. -/
def reservedTypeWords : List String :=
  predefinedTypes ++ ["typeof", "keyof", "infer", "readonly", "new", "this", "true", "false", "null", "undefined",
    "import", "const"]

def predefinedType : Parser Fragment :=
  phrase .predefinedType ((Parser.sequence [keyword "unique", keyword "symbol"]).orElse fun _ => do
    let w ← nextWord
    Parser.guard (predefinedTypes.contains w)
    keyword w)

def literalType : Parser Fragment :=
  phrase .literalType (Parser.firstOf [
    phrase .unaryExpression (Parser.sequence [(mark "-").orElse fun _ => mark "+", number]),
    number,
    string,
    wordWhere (.form .trueWord) (· == "true"),
    wordWhere (.form .falseWord) (· == "false"),
    wordWhere (.form .nullWord) (· == "null"),
    wordWhere (.form .undefinedWord) (· == "undefined")])

/-- Arguments of a call within a type. -/
def typeCallArguments : Parser Fragment :=
  phrase .arguments (Parser.sequence [mark "(", holeyList (g (.expression .bracketed)), mark ")"])

/-- The value after `typeof` in a type. -/
def queriedValue (e : Ending) : Parser Fragment := do
  let first ← Parser.firstOf [
    wordWhere (.form .importWord) (· == "import"),
    wordWhere (.form .thisWord) (· == "this"),
    anyIdentifier]
  let more ← Parser.many (do
    Parser.guard (!(← pauses e))
    Parser.firstOf [
      Parser.sequence [(mark "?.").orElse fun _ => mark ".", privateName.orElse fun _ => word .propertyIdentifier],
      Parser.sequence [mark "[", (number.orElse fun _ => string).orElse fun _ => anyIdentifier, mark "]"],
      typeCallArguments g,
      typeArguments g])
  return first ++ more

/-- A member of a tuple: a type, optional or repeated, possibly with a name. -/
def tupleMember : Parser Fragment := do
  let extras ← trivia
  let start ← Parser.here
  let read ← Parser.firstOf [
    phrase .requiredParameter (Parser.sequence [
      (phrase .restPattern (Parser.sequence [mark "...", anyIdentifier])).orElse fun _ => anyIdentifier,
      mark ":", g (.type .bracketed)]),
    phrase .optionalParameter (Parser.sequence [anyIdentifier, mark "?", mark ":", g (.type .bracketed)]),
    phrase .restType (Parser.sequence [mark "...", g (.type .bracketed)]),
    g (.type .bracketed)]
  (do
    let question ← mark "?"
    return extras ++ [← extend start .optionalType (read ++ question)]).orElse fun _ =>
  Parser.pure (extras ++ read)

/-- A dotted type name, with arguments or without, or an imported type. -/
def namedType (e : Ending) : Parser Fragment := do
  let extras ← trivia
  let start ← Parser.here
  let first ← wordExcept .typeIdentifier reservedTypeWords
  let path ← Parser.many (do
    Parser.guard (!(← pauses e))
    Parser.sequence [mark ".", word .typeIdentifier])
  let nested ← extend start .nestedTypeIdentifier (first ++ path)
  let name := if path.isEmpty then first else [nested]
  let args ← if ← pauses e then Parser.pure [] else Parser.optional (typeArguments g)
  if args.isEmpty then return extras ++ name
  else return extras ++ [← extend start .genericType (labelLast .name name ++ args)]

/-- A type imported in place. -/
def importedType (e : Ending) : Parser Fragment := do
  let extras ← trivia
  let start ← Parser.here
  let first ← wordWhere (.form .importWord) (· == "import")
  let args ← typeCallArguments g
  let path ← Parser.many (do
    Parser.guard (!(← pauses e))
    Parser.sequence [mark ".", word .typeIdentifier])
  let types ← if ← pauses e then Parser.pure [] else Parser.optional (typeArguments g)
  let form := if path.isEmpty then Form.callExpression else if types.isEmpty then .memberExpression else .genericType
  return extras ++ [← extend start form (first ++ args ++ path ++ types)]

def functionType (e : Ending) : Parser Fragment :=
  phrase .functionType (Parser.sequence [
    Parser.optional (typeParameters g), labelled .parameters (parameters g), mark "=>",
    labelled .returnType (Parser.firstOf [assertion g e, typePredicate g e, g (.type e)])])

def constructorType (e : Ending) : Parser Fragment :=
  phrase .constructorType (Parser.sequence [
    Parser.optional (keyword "abstract"), keyword "new", Parser.optional (typeParameters g), parameters g,
    mark "=>", g (.type e)])

/-- A type without binary operators and without brackets after it. -/
def plainType (e : Ending) : Parser Fragment := do
  let w ← nextWord
  match w with
  | "typeof" => phrase .typeQuery (Parser.sequence [keyword "typeof", queriedValue g e])
  | "keyof" => phrase .indexTypeQuery (Parser.sequence [keyword "keyof", g (.typeOperand e)])
  | "readonly" => phrase .readonlyType (Parser.sequence [keyword "readonly", g (.typeOperand e)])
  | "infer" =>
    phrase .inferType (Parser.sequence [
      keyword "infer", word .typeIdentifier,
      Parser.optional (do
        let bound ← Parser.sequence [keyword "extends", g (.typeOperand e)]
        Parser.guard (!(← nextIsMark "?"))
        return bound)])
  | "new" => constructorType g e
  | "this" => wordWhere (.form .thisType) (· == "this")
  | "import" => importedType g e
  | "const" => keyword "const"
  | "" =>
    Parser.firstOf [
      functionType g e,
      phrase .parenthesizedType (Parser.sequence [mark "(", g (.type .bracketed), mark ")"]),
      g (.objectType .objectType),
      phrase .tupleType (Parser.sequence [mark "[", commaList (tupleMember g), mark "]"]),
      literalType,
      templateOf .templateLiteralType .templateType (g (.type .bracketed)),
      phrase .flowMaybeType (Parser.sequence [mark "?", g (.typeOperand e)]),
      phrase .existentialType (mark "*")]
  | _ => Parser.firstOf [predefinedType, literalType, constructorType g e, namedType g e]

/-- Array brackets and index types after a type. -/
def typeBrackets (e : Ending) (start : Cursor) : Nat → Node → Parser Node
  | 0, n => Parser.pure n
  | fuel + 1, n => do
    if ← pauses e then return n
    if !(← nextIsMark "[") then return n
    let «open» ← mark "["
    (do
      let close ← mark "]"
      let next ← extend start .arrayType ([n] ++ «open» ++ close)
      typeBrackets e start fuel next).orElse fun _ => do
    let index ← g (.type .bracketed)
    let close ← mark "]"
    let next ← extend start .lookupType ([n] ++ «open» ++ index ++ close)
    typeBrackets e start fuel next

/-- A type that may be an operand of `|`, `&` and `extends`. -/
def typeOperand (e : Ending) : Parser Fragment := do
  let s ← Parser.setting
  let extras ← trivia
  let start ← Parser.here
  let read ← plainType g e
  match read.reverse with
  | [] => Parser.fail
  | n :: _ => return extras ++ [← typeBrackets g e start s.size n]

/-- A result type in parentheses, for an arrow function whose own arrow follows it. -/
def enclosedResultType : Parser Fragment :=
  labelled .returnType (phrase .typeAscription do
    let colon ← mark ":"
    let s ← Parser.setting
    let extras ← trivia
    let start ← Parser.here
    let read ← phrase .parenthesizedType (Parser.sequence [mark "(", g (.type .bracketed), mark ")"])
    match read.reverse with
    | [] => Parser.fail
    | n :: _ => return colon ++ extras ++ [← typeBrackets g .bracketed start s.size n])

/-! ## Types with operators -/

/-- Operands joined by a mark, which may also stand before the first one. -/
def joinedTypes (e : Ending) (operator : String) (f : Form) (operand : Parser Fragment) : Parser Fragment := do
  let extras ← trivia
  let start ← Parser.here
  let lead ← Parser.optional (mark operator)
  let first ← operand
  let more ← Parser.many (do
    Parser.guard (!(← pauses e))
    Parser.sequence [mark operator, operand])
  if lead.isEmpty && more.isEmpty then return extras ++ first
  else return extras ++ [← extend start f (lead ++ first ++ more)]

def type (e : Ending) : Parser Fragment := do
  let extras ← trivia
  let start ← Parser.here
  let subject ← joinedTypes e "|" .unionType (joinedTypes e "&" .intersectionType (g (.typeOperand e)))
  if ← pauses e then return extras ++ subject
  (do
    let test ← Parser.sequence [keyword "extends", g (.type .bracketed)]
    let rest ← Parser.sequence [mark "?", g (.type .bracketed), mark ":", g (.type e)]
    return extras ++ [← extend start .conditionalType (subject ++ test ++ rest)]).orElse fun _ =>
  Parser.pure (extras ++ subject)

end ModuleMock.Script.Grammar
