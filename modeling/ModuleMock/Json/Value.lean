import ModuleMock.Text.CodePoint

/-!
# JSON values

Texts are texts of code points, since an escape may name half of a surrogate pair. Objects keep their members in order;
whole numbers are unbounded, and other numbers have double precision.
-/

namespace ModuleMock.Json

open Text (Str)

inductive Value where
  | null
  | bool (b : Bool)
  | integer (i : Int)
  | float (x : Float)
  | string (s : Str)
  | array (items : List Value)
  | object (members : List (Str × Value))

end ModuleMock.Json
