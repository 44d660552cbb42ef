import ModuleMock.Script.Parser

/-!
# Tokens

- `trivia`: blanks, comments and skipped text;
- `mark`, `keyword`: punctuation and keywords; `word`, `name`: identifiers; `markupComments`: marks that comment out a line;
- `phrase`, `extend`: nodes around what a parser reads;
- `Ending`, `pauses`, `semicolon`: where a statement may end without a semicolon.
-/

namespace ModuleMock.Script

open ModuleMock.Syntax

/-! ## Between tokens -/

/-- The end of the skipped text that starts at an index. -/
def skippedAt? (patches : List Patch) (index : Nat) : Option Nat :=
  patches.findSome? fun
    | .skipped start stop => if start == index && start < stop then some stop else none
    | .missing _ _ _ => none

/-- Steps over blanks, comments and skipped text, at most `fuel` of them, and collects the nodes met. -/
def skipTrivia (patches : List Patch) : Nat → Cursor → List Node → List Node × Cursor
  | 0, c, extras => (extras, c)
  | fuel + 1, c, extras =>
    match skippedAt? patches c.index with
    | some stop =>
      let next := c.advance (stop - c.index)
      skipTrivia patches fuel next (extras ++ [c.nodeTo next (.form .error) []])
    | none =>
      match c.rest with
      | [] => (extras, c)
      | x :: _ =>
        if isBlank x then skipTrivia patches fuel (c.advance 1) extras
        else
          match commentLength? c.rest with
          | some n =>
            let next := c.advance n
            skipTrivia patches fuel next (extras ++ [c.nodeTo next (.form .comment) []])
          | none => (extras, c)

/-- Steps over everything that may stand between two tokens. -/
def trivia : Parser Fragment := fun s c r =>
  let (extras, next) := skipTrivia s.patches (s.size + 1) c []
  .found extras next r

/-! ## Nodes around fragments -/

/-- A node of the given kind around what the parser reads; extras before it stay outside. -/
def phraseOf (k : Kind) (p : Parser Fragment) : Parser Fragment := do
  let extras ← trivia
  let start ← Parser.here
  let children ← p
  let stop ← Parser.here
  return extras ++ [start.nodeTo stop k children]

def phrase (f : Form) (p : Parser Fragment) : Parser Fragment := phraseOf (.form f) p

/-- A node from an earlier start to here. -/
def extend (start : Cursor) (f : Form) (children : Fragment) : Parser Node := do
  let stop ← Parser.here
  return start.nodeTo stop (.form f) children

/-- Gives the last node of a fragment a label. -/
def labelLast (l : Label) (fragment : Fragment) : Fragment :=
  match fragment.reverse with
  | [] => []
  | n :: before => (n.withLabel l :: before).reverse

def labelled (l : Label) (p : Parser Fragment) : Parser Fragment := do return labelLast l (← p)

/-! ## Single tokens -/

/-- The place of a token that is taken as read before this index. -/
def missingAt? (patches : List Patch) (index : Nat) (k : Kind) : Option Extent :=
  patches.findSome? fun
    | .skipped _ _ => none
    | .missing i kind place => if i == index && kind == k then some place else none

/-- A token of the given kind whose length the recogniser finds. -/
def lexeme (k : Kind) (length? : List Char → Option Nat) : Parser Fragment := do
  let s ← Parser.setting
  let extras ← trivia
  let start ← Parser.here
  match missingAt? s.patches start.index k with
  | some place => return extras ++ [.mk k none place true []]
  | none =>
    match length? start.rest with
    | none => Parser.refuse start.index
    | some n =>
      let stop := start.advance n
      Parser.moveTo stop
      return extras ++ [start.nodeTo stop k []]

/-- Is a token of the given kind taken as read here? -/
def isLacking (k : Kind) : Parser Bool := fun s c r =>
  let (_, next) := skipTrivia s.patches (s.size + 1) c []
  .found (missingAt? s.patches next.index k).isSome c r

/-- Length of a fixed spelling at the head of a list. -/
def spellingLength? (spelling : String) (cs : List Char) : Option Nat :=
  let s := spelling.toList
  if cs.take s.length == s then some s.length else none

/-- Spellings that are cut short by a longer mark are refused: `=` before `=`, `<` before `<`. -/
def markLength? (spelling : String) (longer : List String) (cs : List Char) : Option Nat :=
  if longer.any fun l => (spellingLength? l cs).isSome then none else spellingLength? spelling cs

/-- A punctuation mark. -/
def mark (spelling : String) : Parser Fragment := lexeme (.token spelling) (spellingLength? spelling)

/-- A punctuation mark that is not the beginning of one of the longer marks. -/
def markNot (spelling : String) (longer : List String) : Parser Fragment :=
  lexeme (.token spelling) (markLength? spelling longer)

/-- A word satisfying a condition on its spelling. -/
def wordWhere (k : Kind) (accept : String → Bool) : Parser Fragment :=
  lexeme k fun cs =>
    match wordLength? cs with
    | some n => if accept (String.ofList (cs.take n)) then some n else none
    | none => none

/-- A keyword: a word with exactly this spelling. -/
def keyword (spelling : String) : Parser Fragment := wordWhere (.token spelling) (· == spelling)

/-- Any word, as a node of the given form. -/
def word (f : Form) : Parser Fragment := wordWhere (.form f) fun _ => true

/-- Any word but the listed ones. -/
def wordExcept (f : Form) (excluded : List String) : Parser Fragment :=
  wordWhere (.form f) fun w => !excluded.contains w

/-- A markup comment mark with the rest of its line. Where an operator may stand it is no comment. -/
def markupComment : Parser Fragment := lexeme (.form .htmlComment) markupCommentLength?

def markupComments : Parser Fragment := Parser.many markupComment

/-- Is the next token this mark? -/
def nextIsMark (spelling : String) : Parser Bool := Parser.ahead (mark spelling)

/-- The spelling of the next token if it is a word, and otherwise nothing. -/
def nextWord : Parser String := fun s c r =>
  let (_, next) := skipTrivia s.patches (s.size + 1) c []
  match wordLength? next.rest with
  | some n => .found (String.ofList (next.rest.take n)) c r
  | none => .found "" c r

/-- The first character of the next token. -/
def nextChar? : Parser (Option Char) := fun s c r =>
  let (_, next) := skipTrivia s.patches (s.size + 1) c []
  .found next.rest.head? c r

/-! ## Lists -/

/-- Items separated by a mark, at least one. -/
def separated1 (separator : Parser Fragment) (item : Parser Fragment) : Parser Fragment := do
  let first ← item
  let more ← Parser.many (do return (← separator) ++ (← item))
  return first ++ more

def commaSeparated1 (item : Parser Fragment) : Parser Fragment := separated1 (mark ",") item

/-- Items with commas between them, where items may be left out. -/
def holeyList (item : Parser Fragment) : Parser Fragment := do
  let first ← Parser.optional item
  let more ← Parser.many (do return (← mark ",") ++ (← Parser.optional item))
  return first ++ more

/-- Items separated by commas, with an optional comma at the end, possibly none. -/
def commaList (item : Parser Fragment) : Parser Fragment :=
  Parser.optional (do
    let items ← commaSeparated1 item
    return items ++ (← Parser.optional (mark ",")))

/-! ## Where statements end -/

/-- How the phrase being read may end at a line break: not at all (between brackets, or between the question mark and
the colon of a conditional), as a statement (an operator or an opening bracket on the next line continues it), or as a
type (an opening bracket on the next line ends it). -/
inductive Ending where
  | bracketed
  | branch
  | statement
  | typed
deriving DecidableEq

/-- Steps over gaps and comments after a line break; `none` at a slash that opens no comment. -/
def skipGaps : Nat → List Char → Option (List Char)
  | 0, cs => some cs
  | fuel + 1, cs =>
    match cs with
    | [] => some []
    | '/' :: '/' :: rest =>
      skipGaps fuel (rest.dropWhile fun c => !(c == '\n' || c.toNat == 0x2028 || c.toNat == 0x2029))
    | '/' :: '*' :: rest =>
      match blockCommentTail? rest with
      | some n => skipGaps fuel (rest.drop n)
      | none => some []
    | '/' :: _ => none
    | c :: rest => if isGap c then skipGaps fuel rest else some cs

/-- Is a statement over before this token on a later line? Operators and separators continue it. -/
def startsAnew (ending : Ending) (signature : Bool) : List Char → Bool
  | [] => true
  | '+' :: cs => cs.head? == some '+'
  | '-' :: cs => cs.head? == some '-'
  | '!' :: cs => cs.head? != some '='
  | '{' :: _ => !signature
  | '(' :: _ => ending != .statement
  | '[' :: _ => ending != .statement
  | 'i' :: 'n' :: cs =>
    match cs with
    | [] => false
    | c :: _ =>
      if !c.isAlpha then false
      else if cs.take 8 == "stanceof".toList then ((cs.drop 8).head?.map Char.isAlpha).getD false
      else true
  | c :: _ => !("`,.;*%><=?^|&/:".toList.contains c)

/-- Does a statement end at this point without a semicolon? It does at the end of the text, before a closing brace,
and before a line break unless the next token continues it. -/
def breaksHere (ending : Ending) (signature : Bool) : List Char → Bool
  | [] => true
  | '}' :: cs => (cs.dropWhile isGap).head? != some ':' || ending == .statement
  | '\n' :: cs =>
    match skipGaps (cs.length + 1) cs with
    | some rest => startsAnew ending signature rest
    | none => false
  | c :: cs => if isGap c then breaksHere ending signature cs else false

/-- A break after the last token, or after comments that follow it on the same line, which are collected. Skipped text
in between leaves no room for a break. -/
def breakAfter (patches : List Patch) (ending : Ending) (signature : Bool) :
    Nat → Cursor → List Node → Option (List Node × Cursor)
  | 0, _, _ => none
  | fuel + 1, c, extras =>
    if breaksHere ending signature c.rest then some (extras, c)
    else
      let start := c.advance (c.rest.takeWhile isBlank).length
      if (skippedAt? patches start.index).isSome then none
      else
        match commentLength? start.rest with
        | some n =>
          let next := start.advance n
          breakAfter patches ending signature fuel next (extras ++ [start.nodeTo next (.form .comment) []])
        | none => none

/-- Is some token missing at this index? The token after it is settled already, and is no break. -/
def lacksAt (patches : List Patch) (index : Nat) : Bool :=
  patches.any fun
    | .skipped _ _ => false
    | .missing i _ _ => i == index

/-- An end of statement that is not written. -/
def pause (ending : Ending) : Parser Fragment := fun s c r =>
  if ending == .bracketed || ending == .branch || lacksAt s.patches c.index then .stuck r
  else
    match breakAfter s.patches ending false (s.size + 1) c [] with
    | some (extras, next) => .found extras next r
    | none => .stuck r

/-- Does the phrase end here without a semicolon? -/
def pauses (ending : Ending) : Parser Bool := Parser.ahead (pause ending)

/-- A semicolon, written or not. -/
def semicolon (ending : Ending) : Parser Fragment := (pause ending).orElse fun _ => mark ";"

/-- The end of a function without a body. -/
def signatureEnd : Parser Fragment := fun s c r =>
  if lacksAt s.patches c.index then mark ";" s c r
  else match breakAfter s.patches .typed true (s.size + 1) c [] with
  | some (extras, next) => .found extras next r
  | none => mark ";" s c r

end ModuleMock.Script
