import ModuleMock.Script.Program

/-!
# Scripts with faults

A script that does not follow the grammar is read with patches. Where reading gets stuck at a token, tokens before it
may be skipped, the token itself may be skipped, or a token may be taken as read before it. Each patch has a cost, and
the cheapest patches with which the whole script can be read give its tree; of equally cheap ones, those whose first
fault is less deep.

- `Patch.cost`: what a patch costs;
- `candidates`: the patches worth trying where reading is stuck;
- `parse`: the tree of any script.
-/

namespace ModuleMock.Script

open ModuleMock.Syntax

/-! ## Rough tokens -/

/-- A stretch of text that is skipped as a whole or not at all. -/
structure Chunk where
  start : Nat
  stop : Nat
  text : List Char

/-- Marks of several characters, longer ones first. -/
def longMarks : List String :=
  [">>>=", "...", "===", "!==", "**=", "<<=", ">>=", ">>>", "&&=", "||=", "??=", "=>", "==", "!=", "<=", ">=", "&&",
   "||", "??", "?.", "++", "--", "+=", "-=", "*=", "/=", "%=", "&=", "|=", "^=", "<<", ">>", "**", "$\x7b"]

/-- A string that is closed on its line. -/
def closedStringLength? : List Char → Option Nat
  | q :: cs =>
    if q == '"' || q == '\'' then
      let n := Grammar.quotedTail q cs.length cs
      if (cs.drop n).head? == some q then some (n + 2) else none
    else none
  | [] => none

/-- Length of the token at the head of a list that is not empty, told without its context. -/
def chunkLength (cs : List Char) : Nat :=
  ((wordLength? cs <|> numberLength? cs <|> privateNameLength? cs <|> closedStringLength? cs <|>
    longMarks.findSome? fun m => spellingLength? m cs).getD 1)

/-- The chunk at a cursor, unless the text ends there. -/
def chunkAt? (c : Cursor) : Option Chunk :=
  if c.rest.isEmpty then none
  else
    let n := max 1 (chunkLength c.rest)
    some ⟨c.index, c.index + n, c.rest.take n⟩

/-- The chunks from a cursor up to an index, the last one first. -/
def chunksBefore (index : Nat) : Nat → Cursor → List Chunk → List Chunk
  | 0, _, found => found
  | fuel + 1, c, found =>
    let (_, next) := skipTrivia [] (c.rest.length + 1) c []
    match chunkAt? next with
    | none => found
    | some t => if t.stop ≤ index then chunksBefore index fuel (next.advance (t.stop - t.start)) (t :: found) else found

/-! ## Costs -/

/-- What a missing token costs. -/
def missingCost : Nat := 610

/-- What skipped text costs: a flat rate, its bytes, its line feeds, and its tokens. -/
def skippedCost (text : List Char) (tokens : Nat) : Nat :=
  500 + (String.ofList text).utf8ByteSize + 30 * text.count '\n' + 100 * tokens

def Patch.cost (text : List Char) (chunks : List Chunk) : Patch → Nat
  | .skipped start stop =>
    skippedCost ((text.drop start).take (stop - start))
      (chunks.filter fun t => start ≤ t.start && t.stop ≤ stop).length
  | .missing _ _ _ => missingCost

/-! ## Candidates -/

def isOpener (t : Chunk) : Bool := t.text == ['('] || t.text == ['['] || t.text == ['\x7b'] || t.text == "$\x7b".toList

def isCloser (t : Chunk) : Bool := t.text == [')'] || t.text == [']'] || t.text == ['\x7d']

/-- Starts of stretches that end with the first of the given chunks and go back. A bracket is not skipped without the
one that opens it; `closers` counts those that still lack theirs. -/
def startsBack (closers : Nat) : List Chunk → List Nat
  | [] => []
  | t :: ts =>
    let closers' := if isCloser t then closers + 1 else if isOpener t then closers - 1 else closers
    if closers' = 0 then t.start :: startsBack closers' ts else startsBack closers' ts

/-- Tokens that may be taken as read. -/
def missingKinds : List Kind :=
  [.form .identifier, .token ")", .token "]", .token "\x7d", .token ";"]

/-- May a token be taken as read before the given one? A name stands only before a mark that closes or separates. -/
def mayLack (next : Option Chunk) (k : Kind) : Bool :=
  k != .form .identifier ||
    ((next.map fun t => isCloser t || t.text == [','] || t.text == [';'] || t.text == [':']).getD false)

/-- Adds skipped text to patches; patches inside it are dropped, and it must not cut others in two. -/
def addSkipped (start stop : Nat) (patches : List Patch) : Option (List Patch) :=
  let inside : Patch → Bool
    | .skipped a b => start ≤ a && b ≤ stop
    | .missing i _ _ => start < i && i ≤ stop
  let outside : Patch → Bool
    | .skipped a b => b ≤ start || stop ≤ a
    | .missing _ _ _ => true
  if patches.all fun p => inside p || outside p then some (patches.filter (fun p => !inside p) ++ [.skipped start stop])
  else none

/-- The patches worth trying where reading is stuck at `reach` before `next`, after the chunks `before`, the last one
first. -/
def candidates (start : Cursor) (patches : List Patch) (reach : Nat) (before : List Chunk) (next : Option Chunk) :
    List (List Patch) :=
  let stop := (before.head?.map Chunk.stop).getD 0
  let here := start.advance stop
  let starts := startsBack 0 before
  let missing := (missingKinds.filter (mayLack next)).map fun k => patches ++ [.missing reach k (here.extentTo here)]
  let dropped := starts.filterMap fun start => addSkipped start stop patches
  let skipped := match next with
    | none => []
    | some t => (t.start :: starts).filterMap fun start => addSkipped start t.stop patches
  missing ++ skipped ++ dropped

/-! ## The search -/

/-- Patches to try, what they cost, and the index that reading has to reach at least. -/
structure Attempt where
  patches : List Patch
  cost : Nat
  bar : Nat

/-- Puts an attempt behind those that cost as much or less. -/
def enqueue (a : Attempt) : List Attempt → List Attempt
  | [] => [a]
  | b :: bs => if b.cost ≤ a.cost then b :: enqueue a bs else a :: b :: bs

mutual

/-- How deep the first fault is. -/
def faultDepth? : Node → Option Nat
  | .mk k _ _ m cs => if k == .form .error || m then some 0 else (faultDepthOf? cs).map (· + 1)

def faultDepthOf? : List Node → Option Nat
  | [] => none
  | n :: ns => faultDepth? n <|> faultDepthOf? ns

end

/-- A tree found and what its patches cost. -/
structure Finding where
  nodes : List Node
  cost : Nat

def Finding.depth (f : Finding) : Nat := (faultDepthOf? f.nodes).getD 0

/-- The better one of two findings of the same cost. -/
def Finding.better (a b : Finding) : Finding := if b.depth < a.depth then b else a

/-- Tries attempts in the order of their costs, at most `fuel` of them. -/
def search (dialect : Dialect) (text : String) : Nat → Option Finding → List Attempt → Option Finding
  | 0, best, _ => best
  | _ + 1, best, [] => best
  | fuel + 1, best, a :: rest =>
    if (best.map fun f => decide (f.cost < a.cost)).getD false then best
    else
      match readProgram dialect a.patches text with
      | .ok nodes =>
        let found : Finding := ⟨nodes, a.cost⟩
        search dialect text fuel (some ((best.map fun f => f.better found).getD found)) rest
      | .error reach =>
        if reach < a.bar then search dialect text fuel best rest
        else
          let start := Cursor.start text
          let before := chunksBefore reach (start.rest.length + 1) start []
          let next := chunkAt? (start.advance reach)
          let chunks := before ++ next.toList
          let attempts := (candidates start a.patches reach before next).map fun ps =>
            Attempt.mk ps ((ps.map (Patch.cost start.rest chunks)).foldl (· + ·) 0) (reach + 1)
          search dialect text fuel best (attempts.foldl (fun q a => enqueue a q) rest)

/-- How many attempts are made for one script. -/
def maxAttempts : Nat := 400

/-- The nodes of a script, read with the cheapest patches that mend it. -/
def repaired? (dialect : Dialect) (text : String) : Option (List Node) :=
  (search dialect text maxAttempts none [⟨[], 0, 0⟩]).map Finding.nodes

/-- The tree of a script; one that no patches mend is a single fault. -/
def parse (dialect : Dialect) (text : String) : Node :=
  let start := Cursor.start text
  let stop := start.advance start.rest.length
  match readProgram dialect [] text with
  | .ok nodes => start.nodeTo stop (.form .program) nodes
  | .error _ =>
    match repaired? dialect text with
    | some nodes => start.nodeTo stop (.form .program) nodes
    | none => start.nodeTo stop (.form .error) []

end ModuleMock.Script
