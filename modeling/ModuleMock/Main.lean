import ModuleMock.Lookup

/-!
# The program

The outer layer: it copies what a run may look at from the file system into a tree, runs the command or the request on
that tree, and writes the files that changed. A server answers the requests on its standard input one by one.
-/

namespace ModuleMock

/-! ## Trees from the file system -/

/-- What stands at a place whose parent is a directory. -/
def itemAt? (l : Location) : IO (Option Item) := do
  try
    let bytes ← IO.FS.readBinFile (Path.ofLocation l).toString
    return some (.file bytes.toList)
  catch
    | .inappropriateType .. => return some .directory
    | _ => return none

/-- Adds a place and the directories above it to a tree, as far as they exist. -/
def addPlace (tree : FileTree) (l : Location) : IO FileTree := do
  let mut t := tree
  for n in List.range l.length do
    let place := l.take (n + 1)
    if (t.item? place).isNone && t.isDirectory place.dropLast then
      if let some item ← itemAt? place then t := t.put place item
  return t

/-- Adds places until no new ones turn up. -/
partial def explore (wanted : FileTree → List Location) (tree : FileTree) (seen : List Location) : IO FileTree := do
  let fresh := ((wanted tree).filter fun l => !seen.contains l).eraseDups
  if fresh.isEmpty then return tree
  explore wanted (← fresh.foldlM addPlace tree) (seen ++ fresh)

/-- Writes the files that are new or different in the second tree. -/
def writeChanges (before after : FileTree) : IO Unit := do
  for (l, item) in after.entries do
    match item with
    | .directory => pure ()
    | .file content =>
      if before.item? l != some (.file content) then
        IO.FS.createDirAll (Path.ofLocation l.dropLast).toString
        IO.FS.writeBinFile (Path.ofLocation l).toString content.toByteArray

def workingDirectory : IO Location := do
  return Path.resolve [] (.ofString ((← IO.getEnv "PWD").getD "/"))

/-! ## Serving -/

/-- Reads header lines up to an empty one. -/
partial def readHeaders (input : IO.FS.Stream) (read : List (String × String)) : IO (List (String × String)) := do
  let line := Text.trim (← input.getLine)
  if line.isEmpty then return read
  let (name, value) := Service.splitFirst ':' line.toList
  readHeaders input (read ++ [((String.ofList name).toLower, Text.trim (String.ofList value))])

/-- Reads one request, unless the input ends. -/
def readRequest (input : IO.FS.Stream) : IO (Option Service.Request) := do
  let line ← input.getLine
  if line.isEmpty then return none
  let (method, rest) := Service.splitFirst ' ' (Text.trim line).toList
  let (target, _) := Service.splitFirst ' ' rest
  let headers ← readHeaders input []
  let length := ((headers.lookup "content-length").bind String.toNat?).getD 0
  let bytes ← input.read (USize.ofNat length)
  let body : Option Service.Body :=
    if length = 0 then none
    else some ⟨(headers.lookup "content-type").getD "", Text.decodeLossy bytes.toList⟩
  return some ⟨String.ofList method, String.ofList target, body⟩

partial def serve (cwd : Location) (input output : IO.FS.Stream) : IO Unit := do
  match ← readRequest input with
  | none => return
  | some r =>
    let tree ← explore (fun t => cwd :: Lookup.request ⟨t, cwd⟩ r) ⟨[]⟩ []
    let (after, response) := Service.respond ⟨tree, cwd⟩ r
    writeChanges tree after
    output.putStr s!"HTTP/1.1 {response.status}\r\ncontent-length: {response.body.utf8ByteSize}\r\n\r\n{response.body}"
    output.flush
    serve cwd input output

/-! ## Running -/

/-- Ends a run as its outcome says, with the exit code. -/
def finish (cwd : Location) (o : CommandLine.Outcome) : IO UInt32 := do
  match o.ending with
  | .done => pure ()
  | .misused => pure ()
  | .refused message => IO.eprintln message.printed
  | .failed fault => IO.eprintln fault.message
  | .unencodable fault => IO.eprintln fault.message
  | .serving _ _ => serve cwd (← IO.getStdin) (← IO.getStdout)
  return o.ending.exitCode

end ModuleMock

open ModuleMock in
/-- Runs the program with its arguments. -/
def main (arguments : List String) : IO UInt32 := do
  let cwd ← workingDirectory
  let wanted (t : FileTree) : List Location :=
    match CommandLine.Invocation.ofArguments arguments with
    | .ok i => cwd :: Lookup.command ⟨t, cwd⟩ i.command
    | .error _ => []
  let tree ← explore wanted ⟨[]⟩ []
  let outcome := CommandLine.run ⟨tree, cwd⟩ arguments
  writeChanges tree outcome.tree
  IO.print outcome.output
  IO.eprint outcome.remarks
  finish cwd outcome
