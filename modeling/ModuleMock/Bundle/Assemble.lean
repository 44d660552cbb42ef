import ModuleMock.Text.Blank

/-!
# Assembled bundles

`assemble` creates the mount object after the first `use strict`, drops `export { … }` lists at the starts of lines,
and gathers the named exports on the mount object at the end.
-/

namespace ModuleMock.Bundle

/-! ## The directive -/

/-- Length of a directive at the start of a text, with blanks and a semicolon after it. -/
def directiveLength? (cs : List Char) : Option Nat :=
  let quoted (q : Char) : Bool := cs.take 12 = q :: "use strict".toList ++ [q]
  if quoted '"' || quoted '\'' then
    let rest := cs.drop 12
    let blanks := (rest.takeWhile fun c => c = ' ' ∨ c = '\t').length
    some (12 + blanks + (if (rest.drop blanks).head? = some ';' then 1 else 0))
  else none

/-- Inserts a text after the first directive, if there is one. -/
def insertAfterDirective (inserted : List Char) : List Char → List Char
  | [] => []
  | c :: cs =>
    match directiveLength? (c :: cs) with
    | some n => (c :: cs).take n ++ inserted ++ (c :: cs).drop n
    | none => c :: insertAfterDirective inserted cs

/-! ## Export lists -/

/-- Length of an export list at the start of a text. It has at least one character between its braces. -/
def exportListLength? (cs : List Char) : Option Nat :=
  if cs.take 6 = "export".toList then
    let rest := cs.drop 6
    let blanks := (rest.takeWhile Text.isBlank).length
    match rest.drop blanks with
    | '{' :: inner =>
      let body := (inner.takeWhile (· ≠ '}')).length
      match inner.drop body with
      | '}' :: after =>
        if body = 0 then none
        else some (6 + blanks + 1 + body + 1 + (if after.head? = some ';' then 1 else 0))
      | _ => none
    | _ => none
  else none

/-- Drops the export lists that start a line, in at most `fuel` steps. -/
def dropExportLists : Nat → Bool → List Char → List Char
  | 0, _, cs => cs
  | _ + 1, _, [] => []
  | fuel + 1, startsLine, c :: cs =>
    match if startsLine then exportListLength? (c :: cs) else none with
    | some n => dropExportLists fuel false ((c :: cs).drop n)
    | none => c :: dropExportLists fuel (c = '\n') cs

/-! ## The whole script -/

/-- The statement that mounts the named exports. -/
def mountStatement (mount : String) (names : List String) : String :=
  let list := ", ".intercalate names
  s!"window.{mount} = \x7b {list} \x7d;\n"

def assemble (code mount : String) (names : List String) : String :=
  let created := insertAfterDirective s!"\nwindow.{mount} = Object.create(null);".toList code.toList
  let kept := dropExportLists created.length true created
  let named := names.filter (· ≠ "default")
  if named.isEmpty then String.ofList kept
  else
    let ended := if kept.getLast? = some '\n' then kept else kept ++ ['\n']
    String.ofList ended ++ mountStatement mount named

end ModuleMock.Bundle
