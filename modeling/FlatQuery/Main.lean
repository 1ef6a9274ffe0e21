import FlatQuery.CommandLine.Basic

/-!
# The program

The library's runs are functions on texts and trees of files. This module connects them
to a real standard input and to real files. A tree need not hold all files there are, but
only those that a run looks at, and which these are shows when it is run: it does not find
a table's file, or it puts a file where the tree has none. What then turns out to be there
is taken into the tree, and the run is made again, until nothing is missing. Only then are
the files written out that the run has changed.

At a terminal the text grows line by line. Each time it has grown, the session is run
on all of it, and what is shown is the part of the transcript that was not there
before: a longer text only adds to the transcript of a shorter one. A line that is not
text ends the program with the session.
-/

set_option autoImplicit false

namespace FlatQuery.Program

/-! ## 1. The tree of files -/

/-- The name of a place for the system. -/
def nameOf (place : List String) : String := "/" ++ Text.joined '/' place

/-- What stands at a place of the real tree. -/
def nodeAt (place : List String) : IO (Option Node) := do
  try
    return some (.file (← IO.FS.readBinFile (nameOf place)).toList)
  catch
    | .noFileOrDirectory .. => return none
    | _ => return some .directory

/-- Takes into a tree what stands at a place and above it, as far as it is not in it. -/
def takeIn (files : FileSystem) (place : List String) : IO FileSystem := do
  let mut files := files
  for k in List.range place.length do
    let part := place.take (k + 1)
    if (files.node? part).isNone then
      if let some n ← nodeAt part then files := files.put part n
  return files

/-- The place of a path, by its names alone. -/
def placeOf (files : FileSystem) (p : Path) : List String :=
  let up (place : List String) (n : String) := if n = ".." then place.dropLast else place ++ [n]
  p.names.foldl up (if p.isAbsolute then [] else files.workingDirectory)

/-- The places at which a session found nothing: those of table files that were not there,
and those of files that it has put where the tree it started from has none. -/
def emptyPlaces (directory : Directory) (files : FileSystem) (s : Session) : List (List String) :=
  let missing := s.transcript.filterMap fun
    | .failure (.fileNotFound name) =>
      some (placeOf files ((Database.fresh directory files).pathOf name))
    | _ => none
  missing ++ (s.database.files.nodes.map Prod.fst).filter fun p => (files.node? p).isNone

/-- A tree with the nodes of another one at places where it has none. -/
def fill (files others : FileSystem) : FileSystem :=
  others.nodes.foldl (fun w (p, n) => if (w.node? p).isNone then w.put p n else w) files

/-- The tree with all that a session looks at. What stands at known places is no news. -/
partial def settle (directory : Directory) (known files : FileSystem)
    (session : FileSystem → Except CommandLine.Obstacle (Session × Session.Ending)) :
    IO FileSystem := do
  match session files with
  | .error _ => return files
  | .ok (s, _) =>
    let mut grown := files
    for place in emptyPlaces directory files s do
      if (known.node? place).isNone then grown ← takeIn grown place
    if grown.nodes.length = files.nodes.length then return files
    else settle directory known grown session

/-- Writes out the files of a tree that differ from those of an earlier one. -/
def writeOut (earlier later : FileSystem) : IO Unit := do
  for (place, n) in later.nodes do
    if earlier.node? place ≠ some n then
      if let .file content := n then
        IO.FS.writeBinFile (nameOf place) ⟨content.toArray⟩

/-- The tree of the working directory and what is above it. -/
def workingTree : IO FileSystem := do
  let here := (Path.ofString (← IO.currentDir).toString).names
  takeIn { nodes := [], workingDirectory := here } here

/-! ## 2. Runs -/

/-- Writes what a run wrote, and gives its status. -/
def conclude (earlier : FileSystem) (o : CommandLine.Outcome) : IO UInt32 := do
  writeOut earlier o.files
  IO.print o.output
  IO.eprint o.errors
  match o.ending with
  | .status n => return n.toUInt32
  | .escaped e =>
    IO.eprintln e.message
    return 1

/-- The next line of standard input, as its bytes. -/
partial def readLine (input : IO.FS.Stream) (line : Bytes) : IO Bytes := do
  let bytes ← input.read 1
  if bytes.isEmpty then return line
  let line := line ++ bytes.toList
  if bytes.toList = [0x0a] then return line else readLine input line

/-- An interactive session: the lines typed so far, how many items of its transcript have
been shown, the tree it started from and the tree as last written out. -/
partial def interact (directory : Directory) (files written : FileSystem) (typed : List Bytes)
    (shown : Nat) : IO UInt32 := do
  let session := CommandLine.Task.interactive.session typed directory
  let files ← settle directory written files session
  let written := fill written files
  match session files with
  | .error o => conclude files (o.outcome files)
  | .ok (s, how) =>
    let settled := Transcript.beforeEnd s.transcript
    IO.print (Transcript.prompted (settled.drop shown))
    writeOut written s.database.files
    if let .broken e := how then
      IO.eprintln e.message
      return 1
    match Transcript.endPrompt? s.transcript with
    | none => return 0
    | some prompt =>
      IO.print prompt.text
      (← IO.getStdout).flush
      let line ← readLine (← IO.getStdin) []
      if line = [] then
        -- The end of the input: what was shown behind its prompt is now settled too.
        IO.println ""
        IO.print (Transcript.prompted (s.transcript.drop (settled.length + 1)))
        return 0
      else interact directory files s.database.files (typed ++ [line]) (settled.length + 1)

/-- A run with given arguments. -/
def runArguments (a : CommandLine.Arguments) : IO UInt32 := do
  let mut files ← workingTree
  for p in a.directory?.toList ++ a.script?.toList do
    files ← takeIn files (placeOf files (.ofString p))
  if let .ok directory := a.directory files then
    if a.task = .interactive then
      IO.print CommandLine.banner
      return ← interact directory files files [] 0
    files ← settle directory .empty files (a.task.session [] directory)
  conclude files (CommandLine.runArguments a [] files)

/-- How the program is used. -/
def usage : String := "usage: [-h] [-c statements] [-f script] [directory]"

end FlatQuery.Program

/-- Runs the shell. -/
def main (line : List String) : IO UInt32 := do
  match FlatQuery.CommandLine.Arguments.read line with
  | .start a => FlatQuery.Program.runArguments a
  | .help =>
    IO.println FlatQuery.Program.usage
    return 0
  | .misuse =>
    IO.eprintln FlatQuery.Program.usage
    return 2
