/-!
# Lexemes of scripts

Recognisers on lists of characters. Each returns the length of the longest lexeme of its class at the head of the
list, or `none`.

- `isBlank`, `isLineEnd`: characters between tokens;
- `wordLength?`: identifiers and keywords; `privateNameLength?`: names after `#`;
- `numberLength?`: numeric tokens;
- `escapeLength?`: escape sequences in strings and templates;
- `commentLength?`: line comments and closed block comments.
-/

namespace ModuleMock.Script

/-! ## Blanks -/

/-- Space separators of Unicode. -/
def isSpaceSeparator (c : Char) : Bool :=
  let n := c.toNat
  n == 0x20 || n == 0xA0 || n == 0x1680 || (0x2000 ≤ n && n ≤ 0x200A) || n == 0x202F || n == 0x205F || n == 0x3000

/-- The six blanks of ASCII. -/
def isAsciiBlank (c : Char) : Bool :=
  c == ' ' || (9 ≤ c.toNat && c.toNat ≤ 13)

/-- Characters that may stand between any two tokens. -/
def isBlank (c : Char) : Bool :=
  let n := c.toNat
  isAsciiBlank c || isSpaceSeparator c || n == 0xFEFF || n == 0x2028 || n == 0x2029 || n == 0x2060 || n == 0x200B

/-- Blanks that may stand before a line break where a statement can end without a semicolon. -/
def isGap (c : Char) : Bool :=
  let n := c.toNat
  isAsciiBlank c || n == 0x1680 || (0x2000 ≤ n && n ≤ 0x2006) || (0x2008 ≤ n && n ≤ 0x200A) || n == 0x2028
    || n == 0x2029 || n == 0x205F || n == 0x3000

/-- Line ends that close a line comment. -/
def isLineEnd (c : Char) : Bool :=
  c == '\n' || c == '\r' || c.toNat == 0x2028 || c.toNat == 0x2029

/-! ## Digits -/

def isDigit (c : Char) : Bool := '0' ≤ c && c ≤ '9'

def isHexDigit (c : Char) : Bool := isDigit c || ('a' ≤ c && c ≤ 'f') || ('A' ≤ c && c ≤ 'F')

def isOctalDigit (c : Char) : Bool := '0' ≤ c && c ≤ '7'

def isBinaryDigit (c : Char) : Bool := c == '0' || c == '1'

/-- Digits of a class with single underscores between them: how many characters follow a first digit. -/
def digitTail (digit : Char → Bool) : List Char → Nat
  | '_' :: d :: cs => if digit d then 2 + digitTail digit cs else 0
  | d :: cs => if digit d then 1 + digitTail digit cs else 0
  | [] => 0

/-- A run of digits with single underscores between them. -/
def digitsLength? (digit : Char → Bool) : List Char → Option Nat
  | d :: cs => if digit d then some (1 + digitTail digit cs) else none
  | [] => none

/-! ## Words -/

/-- Punctuation that no word contains. -/
def isPunctuation (c : Char) : Bool :=
  ":;`\"'@#.,|^&<=>+-*/\\%?!~()[]\x7b\x7d".toList.contains c

/-- Characters that may continue a word. -/
def isWordPart (c : Char) : Bool :=
  !(c.toNat < 0x20 || isBlank c || isPunctuation c)

/-- Characters that may begin a word. -/
def isWordStart (c : Char) : Bool := isWordPart c && !isDigit c

/-- A Unicode escape in a word: four hexadecimal digits, or any number of them in braces. -/
def wordEscapeLength? : List Char → Option Nat
  | '\\' :: 'u' :: '\x7b' :: cs =>
    let digits := cs.takeWhile isHexDigit
    if digits.length != 0 && (cs.drop digits.length).head? == some '\x7d' then some (4 + digits.length) else none
  | '\\' :: 'u' :: a :: b :: c :: d :: _ =>
    if isHexDigit a && isHexDigit b && isHexDigit c && isHexDigit d then some 6 else none
  | _ => none

/-- One element of a word: a character of the class, or an escape. -/
def wordStep? (part : Char → Bool) (cs : List Char) : Option Nat :=
  match cs with
  | [] => none
  | c :: _ => if part c then some 1 else wordEscapeLength? cs

/-- Length of the longest run of word elements, looked for in at most `fuel` elements. -/
def wordTail : Nat → List Char → Nat
  | 0, _ => 0
  | fuel + 1, cs =>
    match wordStep? isWordPart cs with
    | some n => n + wordTail fuel (cs.drop n)
    | none => 0

/-- An identifier or keyword. -/
def wordLength? (cs : List Char) : Option Nat :=
  (wordStep? isWordStart cs).map fun n => n + wordTail cs.length (cs.drop n)

/-- A name after a number sign. -/
def privateNameLength? : List Char → Option Nat
  | '#' :: cs => (wordLength? cs).map (1 + ·)
  | _ => none

/-! ## Numbers -/

/-- An exponent mark with its digits. -/
def exponentLength? : List Char → Option Nat
  | e :: cs =>
    if e == 'e' || e == 'E' then
      match cs with
      | '+' :: ds => (digitsLength? isDigit ds).map (2 + ·)
      | '-' :: ds => (digitsLength? isDigit ds).map (2 + ·)
      | ds => (digitsLength? isDigit ds).map (1 + ·)
    else none
  | [] => none

/-- Number of characters of an optional lexeme. -/
def orZero (n : Option Nat) : Nat := n.getD 0

/-- The integer part that a fraction or an exponent may follow: no leading zero, except a single one before a digit
other than zero. -/
def wholePartLength? : List Char → Option Nat
  | '0' :: d :: cs =>
    if '1' ≤ d && d ≤ '9' then some (2 + digitTail isDigit cs) else some 1
  | '0' :: [] => some 1
  | d :: cs => if isDigit d then some (1 + digitTail isDigit cs) else none
  | [] => none

/-- A decimal with a fraction or an exponent, or plain digits. -/
def decimalLength? (cs : List Char) : Option Nat :=
  let plain := digitsLength? isDigit cs
  let pointed :=
    match cs with
    | '.' :: ds => (digitsLength? isDigit ds).map fun n => 1 + n + orZero (exponentLength? (ds.drop n))
    | _ =>
      match wholePartLength? cs with
      | none => none
      | some w =>
        match cs.drop w with
        | '.' :: ds =>
          let n := orZero (digitsLength? isDigit ds)
          some (w + 1 + n + orZero (exponentLength? (ds.drop n)))
        | rest => (exponentLength? rest).map (w + ·)
  match plain, pointed with
  | some a, some b => some (max a b)
  | some a, none => some a
  | none, b => b

/-- Digits after a radix mark. -/
def radixLength? : List Char → Option Nat
  | '0' :: x :: cs =>
    if x == 'x' || x == 'X' then (digitsLength? isHexDigit cs).map (2 + ·)
    else if x == 'b' || x == 'B' then (digitsLength? isBinaryDigit cs).map (2 + ·)
    else if x == 'o' || x == 'O' then (digitsLength? isOctalDigit cs).map (2 + ·)
    else none
  | _ => none

/-- A numeric token; an integer may end in `n`. -/
def numberLength? (cs : List Char) : Option Nat :=
  let big (n : Option Nat) : Option Nat :=
    n.bind fun k => if (cs.drop k).head? == some 'n' then some (k + 1) else none
  let candidates :=
    [radixLength? cs, decimalLength? cs, big (radixLength? cs), big (digitsLength? isDigit cs)].filterMap id
  candidates.max?

/-! ## Escapes -/

/-- Up to three octal digits. -/
def octalRun (cs : List Char) : Nat := ((cs.take 3).takeWhile isOctalDigit).length

/-- An escape sequence of a string or template. -/
def escapeLength? : List Char → Option Nat
  | '\\' :: '\r' :: '\n' :: _ => some 3
  | '\\' :: 'x' :: a :: b :: _ => if isHexDigit a && isHexDigit b then some 4 else none
  | '\\' :: 'x' :: _ => none
  | '\\' :: 'u' :: cs => wordEscapeLength? ('\\' :: 'u' :: cs)
  | '\\' :: c :: cs => if isOctalDigit c then some (1 + octalRun (c :: cs)) else some 2
  | _ => none

/-! ## Comments -/

/-- Number of characters up to and including the next `*/`. -/
def blockCommentTail? : List Char → Option Nat
  | '*' :: '/' :: _ => some 2
  | _ :: cs => (blockCommentTail? cs).map (1 + ·)
  | [] => none

/-- A line comment without its line end, or a closed block comment. -/
def commentLength? : List Char → Option Nat
  | '/' :: '/' :: cs => some (2 + (cs.takeWhile fun c => !isLineEnd c).length)
  | '/' :: '*' :: cs => (blockCommentTail? cs).map (2 + ·)
  | _ => none

/-- A markup comment mark with the rest of its line. -/
def markupCommentLength? : List Char → Option Nat
  | '<' :: '!' :: '-' :: '-' :: cs => some (4 + (cs.takeWhile fun c => !isLineEnd c).length)
  | '-' :: '-' :: '>' :: cs => some (3 + (cs.takeWhile fun c => !isLineEnd c).length)
  | _ => none

end ModuleMock.Script
