import ModuleMock.Text.Quoted
import ModuleMock.Text.WholeNumber

/-!
# Reading arguments

A program takes switches, with or without a value, and at most one operand: a plain one, or a command that takes all
arguments after it. What nothing takes is left over.

- `Spec.classify`: what an argument is, looked at on its own;
- `Spec.read`: the switches and operands that a list of arguments gives, in order.
-/

namespace ModuleMock.CommandLine

/-- What a switch takes. -/
inductive Shape where
  /-- Asks for help, and for nothing after it. -/
  | help
  | flag
  | text
  | number
deriving DecidableEq

structure Switch where
  names : List String
  shape : Shape
  required : Bool := false
deriving DecidableEq

/-- All names of a switch, in messages. -/
def Switch.title (s : Switch) : String := "/".intercalate s.names

def Switch.takesValue (s : Switch) : Bool := s.shape = .text || s.shape = .number

/-- The operand of a program. -/
inductive Operand where
  | plain (name : String)
  | command (name : String) (choices : List String)

def Operand.name : Operand → String
  | .plain name => name
  | .command name _ => name

structure Spec where
  program : String
  usage : String
  /-- What help says after the usage. -/
  help : String
  switches : List Switch
  operand : Option Operand

/-! ## Faults -/

inductive Fault where
  | ambiguous (word : String) (matching : List String)
  | noValue (s : Switch)
  | superfluousValue (s : Switch) (value : String)
  | notNumber (s : Switch) (value : String)
  | unknownCommand (name word : String) (choices : List String)
  | required (names : List String)
  | unrecognized (words : List String)

/-- Items of a list in messages. -/
def listed (items : List String) : String := ", ".intercalate items

def Fault.message : Fault → String
  | .ambiguous word matching => s!"ambiguous option: {word} could match {listed matching}"
  | .noValue s => s!"argument {s.title}: expected one argument"
  | .superfluousValue s value => s!"argument {s.title}: ignored explicit argument {Text.shown value}"
  | .notNumber s value => s!"argument {s.title}: invalid int value: {Text.shown value}"
  | .unknownCommand name word choices =>
    s!"argument {name}: invalid choice: {Text.shown word} (choose from {listed (choices.map Text.shown)})"
  | .required names => s!"the following arguments are required: {listed names}"
  | .unrecognized words => "unrecognized arguments: " ++ " ".intercalate words

/-- Why reading ends early. -/
inductive Stop where
  | help
  | fault (f : Fault)

/-! ## Single arguments -/

/-- A switch that an argument stands for: the name meant, and the value inside the argument. -/
structure Use where
  switch : Switch
  name : String
  value : Option String

inductive Mark where
  | word
  /-- Two dashes; all arguments after them are words. -/
  | separator
  | use (u : Use)
  /-- Looks like a switch, but is none. -/
  | stranger

namespace Spec

variable (spec : Spec)

/-- All names of switches, in order. -/
def names : List (String × Switch) := spec.switches.flatMap fun s => s.names.map fun n => (n, s)

/-- The text before and after the first equals sign. -/
def splitValue (word : String) : Option (String × String) :=
  let cs := word.toList
  let before := cs.takeWhile (· ≠ '=')
  if before.length < cs.length then some (String.ofList before, String.ofList (cs.drop (before.length + 1))) else none

/-- The switches that an argument abbreviates. A short switch may have its value, or further short switches, right
after it. -/
def abbreviated (word : String) : List Use :=
  match word.toList with
  | '-' :: '-' :: _ =>
    let (start, value) := match splitValue word with
      | some (start, value) => (start, some value)
      | none => (word, none)
    spec.names.filterMap fun (n, s) => if start.toList <+: n.toList then some ⟨s, n, value⟩ else none
  | '-' :: c :: cs =>
    spec.names.filterMap fun (n, s) =>
      if n = String.ofList ['-', c] then some ⟨s, n, some (String.ofList cs)⟩
      else if word.toList <+: n.toList then some ⟨s, n, none⟩
      else none
  | _ => []

/-- Digits, with a point before or among them if at all; one line end may follow. -/
def isNegativeNumber (word : String) : Bool :=
  match word.toList with
  | '-' :: cs =>
    let cs := if cs.getLast? = some '\n' then cs.dropLast else cs
    let isDigit (c : Char) : Bool := (Text.digitValue? c).isSome
    let whole := cs.takeWhile isDigit
    match cs.drop whole.length with
    | [] => !whole.isEmpty
    | '.' :: fraction => !fraction.isEmpty && fraction.all isDigit
    | _ => false
  | _ => false

/-- What an argument is, apart from those around it. -/
def classify (word : String) : Except Fault Mark :=
  match word.toList with
  | '-' :: _ :: _ =>
    match spec.names.lookup word with
    | some s => .ok (.use ⟨s, word, none⟩)
    | none =>
      match (splitValue word).bind fun (n, value) => (spec.names.lookup n).map fun s => Use.mk s n (some value) with
      | some u => .ok (.use u)
      | none =>
        match spec.abbreviated word with
        | [u] => .ok (.use u)
        | [] => .ok (if isNegativeNumber word || ' ' ∈ word.toList then .word else .stranger)
        | us => .error (.ambiguous word (us.map Use.name))
  | _ => .ok .word

/-- The marks of all arguments. -/
def classifyAll : List String → Except Fault (List (String × Mark))
  | [] => .ok []
  | "--" :: words => .ok (("--", .separator) :: words.map fun w => (w, .word))
  | word :: words => do return (word, ← spec.classify word) :: (← classifyAll words)

/-! ## Lists of arguments -/

/-- What arguments give. -/
inductive Given where
  | switch (s : Switch) (value : Option String)
  | operand (text : String)
  | command (name : String) (arguments : List String)

structure Reading where
  given : List Given
  extras : List String

def Reading.cons (g : List Given) (r : Reading) : Reading := { r with given := g ++ r.given }

def Reading.leave (word : String) (r : Reading) : Reading := { r with extras := word :: r.extras }

/-- The switches in an argument such as `-ab`; the last one may still need a value from the next argument. -/
def cluster (name : String) (s : Switch) : List Char → Except Fault (List (Switch × Option String))
  | [] => .error (.superfluousValue s "")
  | c :: cs =>
    if s.takesValue then .ok [(s, some (String.ofList (c :: cs)))]
    else if name.toList[1]? = some '-' then .error (.superfluousValue s (String.ofList (c :: cs)))
    else
      let next := String.ofList ['-', c]
      match spec.names.lookup next with
      | none => .error (.superfluousValue s (String.ofList (c :: cs)))
      | some s' =>
        if cs.isEmpty then .ok [(s, none), (s', none)]
        else do return (s, none) :: (← cluster next s' cs)

/-- The switches of one argument. -/
def expand (u : Use) : Except Fault (List (Switch × Option String)) :=
  match u.value with
  | none => .ok [(u.switch, none)]
  | some value =>
    if u.switch.takesValue then .ok [(u.switch, some value)] else spec.cluster u.name u.switch value.toList

/-- Takes one switch. -/
def accept (s : Switch) (value : Option String) : Except Stop Given :=
  match s.shape, value with
  | .help, _ => .error .help
  | .number, some v =>
    if (Text.wholeNumber? v).isSome then .ok (.switch s value) else .error (.fault (.notNumber s v))
  | _, _ => .ok (.switch s value)

def acceptAll : List (Switch × Option String) → Except Stop (List Given)
  | [] => .ok []
  | (s, value) :: rest => do
    let g ← accept s value
    return g :: (← acceptAll rest)

/-- Does the last switch still need a value? -/
def wanting? (uses : List (Switch × Option String)) : Option Switch :=
  match uses.getLast? with
  | some (s, none) => if s.takesValue then some s else none
  | _ => none

def checkCommand (name word : String) (choices arguments : List String) : Except Stop Reading :=
  if word ∈ choices then .ok ⟨[.command word arguments], []⟩ else .error (.fault (.unknownCommand name word choices))

/-- Reads marked arguments; the operand is still to come, or taken. -/
def readMarked : Option Operand → List (String × Mark) → Except Stop Reading
  | _, [] => .ok ⟨[], []⟩
  | some (.command name choices), (word, .word) :: rest => checkCommand name word choices (rest.map (·.1))
  | some (.command name choices), (dashes, .separator) :: (word, .word) :: rest =>
    checkCommand name dashes choices (word :: rest.map (·.1))
  | some (.plain _), (word, .word) :: (_, .separator) :: rest => do
    return (← readMarked none rest).cons [.operand word]
  | some (.plain _), (_, .separator) :: (word, .word) :: rest => do
    return (← readMarked none rest).cons [.operand word]
  | some (.plain _), (word, .word) :: rest => do return (← readMarked none rest).cons [.operand word]
  | operand, (_, .use u) :: rest =>
    match spec.expand u with
    | .error f => .error (.fault f)
    | .ok uses =>
      match wanting? uses, rest with
      | none, rest => do
        let given ← acceptAll uses
        return (← readMarked operand rest).cons given
      | some s, (word, .word) :: rest => do
        let given ← acceptAll (uses.dropLast ++ [(s, some word)])
        return (← readMarked operand rest).cons given
      | some s, _ => .error (.fault (.noValue s))
  | operand, (word, _) :: rest => do return (← readMarked operand rest).leave word

def Given.isSwitch (s : Switch) : Given → Bool
  | .switch s' _ => s' = s
  | _ => false

def Given.isOperand : Given → Bool
  | .switch _ _ => false
  | _ => true

/-- The names of what is required and not given. -/
def missing (given : List Given) : List String :=
  ((spec.switches.filter fun s => s.required && !given.any (Given.isSwitch s)).map Switch.title) ++
    (match spec.operand with
    | some o => if given.any Given.isOperand then [] else [o.name]
    | none => [])

/-- The switches and operands that arguments give. All arguments are classified before any is taken. -/
def read (arguments : List String) : Except Stop Reading := do
  let marked ← (spec.classifyAll arguments).mapError .fault
  let r ← spec.readMarked spec.operand marked
  match spec.missing r.given with
  | [] => return r
  | names => throw (.fault (.required names))

end Spec

end ModuleMock.CommandLine
