import ModuleMock.Script.Grammar.Goal

/-!
# Strings, templates, numbers and regular expressions

Quotation marks and the text between them are not nodes of their own: a string has children only where something was
skipped or is missing inside it, and a template has its substitutions.
-/

namespace ModuleMock.Script.Grammar

open ModuleMock.Syntax

/-! ## Strings -/

/-- Number of characters that continue a quoted string. -/
def quotedTail (quote : Char) : Nat → List Char → Nat
  | 0, _ => 0
  | fuel + 1, cs =>
    match escapeLength? cs with
    | some n => n + quotedTail quote fuel (cs.drop n)
    | none =>
      match cs with
      | [] => 0
      | c :: rest =>
        if c == quote || c == '\\' || c == '\n' || c == '\r' then 0 else 1 + quotedTail quote fuel rest

/-- Children worth keeping inside a string: all but the quotation marks themselves. -/
def insideString (fragment : Fragment) : Fragment := fragment.filter fun n => n.isNamed || n.isMissing

/-- A string in the given quotation marks. Blanks and comments may stand before the closing mark. -/
def quoted (quote : Char) : Parser Fragment := do
  let extras ← trivia
  let start ← Parser.here
  match start.rest with
  | [] => Parser.refuse start.index
  | c :: cs =>
    if c != quote then Parser.refuse start.index
    else
      Parser.moveTo (start.advance (1 + quotedTail quote cs.length cs))
      let close ← mark (String.singleton quote)
      let stop ← Parser.here
      return extras ++ [start.nodeTo stop (.form .string) (insideString close)]

def string : Parser Fragment := (quoted '"').orElse fun _ => quoted '\''

/-! ## Templates -/

/-- Parts of a template up to its closing mark; substitutions hold what the goal reads. -/
def templateParts (f : Form) (inner : Parser Fragment) : Nat → Fragment → Parser Fragment
  | 0, _ => Parser.fail
  | fuel + 1, read => do
    let c ← Parser.here
    match c.rest with
    | [] => Parser.refuse c.index
    | '`' :: _ =>
      Parser.moveTo (c.advance 1)
      return read
    | '$' :: '{' :: _ =>
      let part ← phrase f (Parser.sequence [mark "$\x7b", inner, mark "\x7d"])
      templateParts f inner fuel (read ++ part)
    | '\\' :: _ =>
      match escapeLength? c.rest with
      | some n =>
        Parser.moveTo (c.advance n)
        templateParts f inner fuel read
      | none => Parser.refuse c.index
    | _ :: _ =>
      Parser.moveTo (c.advance 1)
      templateParts f inner fuel read

/-- A template of the given form, whose substitutions have the second form. -/
def templateOf (whole part : Form) (inner : Parser Fragment) : Parser Fragment :=
  phrase whole do
    let c ← Parser.here
    match c.rest with
    | '`' :: _ =>
      Parser.moveTo (c.advance 1)
      templateParts part inner (c.rest.length + 1) []
    | _ => Parser.refuse c.index

def template (g : Grammar) : Parser Fragment :=
  templateOf .templateString .templateSubstitution (g (.expressions .bracketed))

/-! ## Numbers and regular expressions -/

def number : Parser Fragment := lexeme (.form .number) numberLength?

/-- Number of characters of a bracketed class of a regular expression, the closing bracket included. -/
def regexClassTail? : List Char → Option Nat
  | [] => none
  | '\n' :: _ => none
  | ']' :: _ => some 1
  | '\\' :: c :: cs => if c == '\n' then none else (regexClassTail? cs).map (2 + ·)
  | _ :: cs => (regexClassTail? cs).map (1 + ·)

/-- Number of characters of the body of a regular expression. -/
def regexBody : Nat → List Char → Nat
  | 0, _ => 0
  | fuel + 1, cs =>
    match cs with
    | [] => 0
    | '/' :: _ => 0
    | '\n' :: _ => 0
    | '[' :: rest =>
      match regexClassTail? rest with
      | some n => 1 + n + regexBody fuel (rest.drop n)
      | none => 0
    | '\\' :: c :: rest => if c == '\n' then 0 else 2 + regexBody fuel rest
    | '\\' :: [] => 0
    | _ :: rest => 1 + regexBody fuel rest

/-- A regular expression with its flags. -/
def regexLength? : List Char → Option Nat
  | '/' :: cs =>
    let n := regexBody cs.length cs
    if n == 0 then none
    else
      match cs.drop n with
      | '/' :: rest => some (2 + n + (rest.takeWhile fun c => 'a' ≤ c && c ≤ 'z').length)
      | _ => none
  | _ => none

def regex : Parser Fragment := lexeme (.form .regex) regexLength?

/-! ## Names -/

def privateName : Parser Fragment := lexeme (.form .privatePropertyIdentifier) privateNameLength?

/-- Any word, as an identifier. -/
def anyIdentifier : Parser Fragment := word .identifier

/-- The name of a member of an object, class or type. -/
def propertyName (g : Grammar) : Parser Fragment :=
  Parser.firstOf [
    word .propertyIdentifier,
    privateName,
    string,
    number,
    phrase .computedPropertyName (Parser.sequence [mark "[", g (.expression .bracketed), mark "]"])]

/-- A name or string by which a module exports something. -/
def exportName : Parser Fragment := anyIdentifier.orElse fun _ => string

end ModuleMock.Script.Grammar
