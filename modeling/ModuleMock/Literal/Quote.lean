/-!
# Single-quoted strings

`requote` writes the body of a string or template literal between single quotes: escapes stay, except that the old
quotation mark needs none, and a bare single quote or line break gets one.
-/

namespace ModuleMock.Literal

/-- The body of a literal in the given quotation marks, for use between single quotes. -/
def requoteBody (quote : Char) : List Char → List Char
  | [] => []
  | '\\' :: c :: cs =>
    (if c = quote ∧ quote ≠ '\'' then [c] else ['\\', c]) ++ requoteBody quote cs
  | '\'' :: cs => '\\' :: '\'' :: requoteBody quote cs
  | '\n' :: cs => '\\' :: 'n' :: requoteBody quote cs
  | '\r' :: cs => '\\' :: 'r' :: requoteBody quote cs
  | c :: cs => c :: requoteBody quote cs

/-- The literal in single quotes. -/
def requote (quote : Char) (body : String) : String :=
  String.ofList ('\'' :: requoteBody quote body.toList ++ ['\''])

end ModuleMock.Literal
