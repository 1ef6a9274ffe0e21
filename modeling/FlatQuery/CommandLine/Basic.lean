import FlatQuery.CommandLine.Arguments
import FlatQuery.Session

/-!
# The command line

The shell can be given its statements in three ways: on the argument line, in a script,
or at a terminal. All of them run one session on one text. They differ in where the
text comes from, and in whether the prompts are part of what is shown.

A run of the shell is a function of the argument line, what comes in on standard input
and the files, and gives what is written, the files afterwards and how it ends. Three
things end a run otherwise than with a status: a path that cannot be looked at, because
it is too long or leads through a directory that may not be searched; the want of a
directory to work in; and a script, or standard input, that turns out not to be text. Such
a script is found to be a file and opened, and the fault shows only when its lines are
asked for.

The words of the argument line are texts, in which every character is a scalar value, so
what they give can be written to a file. Standard input is bytes, and they are text only if
they are in UTF-8. What is written on standard output can always be shown. Left out is what
lies beyond the statements: the file in which a terminal's lines are kept from one session
to the next and the home directory in which it stands, and that somebody may interrupt a
session.
-/

set_option autoImplicit false

namespace FlatQuery.CommandLine

/-! ## 1. What a run comes to -/

/-- How a run ends. -/
inductive Ending where
  /-- With a status. -/
  | status (n : Nat)
  /-- With an error that nothing handles. -/
  | escaped (e : Error)
deriving DecidableEq

/-- What a run comes to. -/
structure Outcome where
  /-- What is written on standard output. -/
  output : String := ""
  /-- What is written on standard error. -/
  errors : String := ""
  /-- The files afterwards. -/
  files : FileSystem
  /-- How the run ends. -/
  ending : Ending

/-- What comes of an argument line. -/
inductive Response where
  /-- The line asks for help or makes no sense: a text about usage, and a status. -/
  | usage (status : Nat)
  /-- A run. -/
  | ran (o : Outcome)

/-- Where the statements of a run come from. -/
inductive Task where
  /-- From a script. -/
  | script (p : Path)
  /-- From the argument line. -/
  | command (text : String)
  /-- From a terminal. -/
  | interactive
deriving DecidableEq

/-- The task that arguments set. A script comes before statements on the argument line, and
an empty text there counts as none. -/
def Arguments.task (a : Arguments) : Task :=
  match a.script?, a.command? with
  | some p, _ => .script (.ofString p)
  | none, some text => if text = "" then .interactive else .command text
  | none, none => .interactive

/-- What an interactive session starts with. -/
def banner : String := "minirel 0.1.0\nType 'exit;' or 'quit;' to leave.\n\n"

/-! ## 2. Before the statements -/

/-- What can keep a run from its statements. -/
inductive Obstacle where
  /-- There is no directory of table files. -/
  | noDirectory (p : Path)
  /-- There is no script. -/
  | noScript (p : Path)
  /-- There is something in the place of the script, but it cannot be read. -/
  | unreadableScript (e : AccessError) (p : Path)
  /-- It cannot be found out what there is. -/
  | unreachable (e : AccessError) (p : Path)
  /-- No directory is given, and the working directory is not there any more. -/
  | noWorkingDirectory (t : Task)
deriving DecidableEq

/-- A run that ends with a message and a status. -/
def refused (message : String) (files : FileSystem) : Outcome :=
  { errors := message ++ "\n", files, ending := .status 1 }

/-- A run that does not come to its statements. -/
def Obstacle.outcome (files : FileSystem) : Obstacle → Outcome
  | .noDirectory p => refused ("Error: Data directory not found: " ++ p.toString) files
  | .noScript p => refused ("Error: File not found: " ++ p.toString) files
  | .unreadableScript e p => refused ("Error reading file: " ++ e.message p) files
  | .unreachable e p => { files, ending := .escaped (.unreachable e p) }
  -- The working directory is asked for behind the banner, or with the script open, where the
  -- error is taken for one of the script.
  | .noWorkingDirectory (.script _) =>
    refused ("Error reading file: " ++ Error.noWorkingDirectory.message) files
  | .noWorkingDirectory (.command _) => { files, ending := .escaped .noWorkingDirectory }
  | .noWorkingDirectory .interactive =>
    { output := banner, files, ending := .escaped .noWorkingDirectory }

/-- A file that is open for reading: where it stands, and its content. -/
structure Script where
  /-- Where the file stands. -/
  place : List String
  /-- Its content when it is opened. -/
  content : Bytes

/-- Opens a script. -/
def Script.open (p : Path) (files : FileSystem) : Except Obstacle Script :=
  match files.probe p with
  | .error e => .error (.unreachable e p)
  | .ok none => .error (.noScript p)
  | .ok (some (_, .directory)) => .error (.unreadableScript .isDirectory p)
  | .ok (some (place, .file content)) => .ok ⟨place, content⟩

/-- What a task without a directory to work in comes upon. A script is opened before that is
found out. -/
def Task.obstacle (t : Task) (files : FileSystem) : Obstacle :=
  match t with
  | .script p =>
    match Script.open p files with
    | .error o => o
    | .ok _ => .noWorkingDirectory t
  | t => .noWorkingDirectory t

/-- The directory of the table files, which has to be there: the one given, or else the
working directory. -/
def Arguments.directory (a : Arguments) (files : FileSystem) : Except Obstacle Directory :=
  match a.directory?.map Path.ofString with
  | none =>
    match files.workingDirectory? with
    | none => .error (a.task.obstacle files)
    | some d => .ok d
  | some p =>
    match files.probe p, Directory.of? p with
    | .error e, _ => .error (.unreachable e p)
    | .ok (some (_, .directory)), some d => .ok d
    | .ok _, _ => .error (.noDirectory p)

/-! ## 3. Tasks -/

/-- How many turns of a script look at its file again. Only a script that goes on without
end, by storing more and more statements into its own file, takes as many. -/
def scriptTurns : Nat := 0x4000000000000000

/-- The session of a task, at its end. -/
def Task.session (t : Task) (typed : List Bytes) (directory : Directory) (files : FileSystem) :
    Except Obstacle (Session × Session.Ending) :=
  let db := Database.fresh directory files
  match t with
  | .command text => .ok (Session.start (.ofString text) db).run
  | .interactive => .ok (Session.start (.typed typed) db).run
  | .script p =>
    match Script.open p files with
    | .error o => .error o
    | .ok opened =>
      .ok ((Session.start (.ofBytes opened.content) db).runScript opened.place scriptTurns)

/-- What is written of a transcript. -/
def Task.view (t : Task) (shown : Transcript) : String :=
  match t with
  | .interactive => banner ++ shown.prompted
  | _ => shown.plain

/-! ## 4. Runs -/

/-- How a run ends with its session. -/
def Ending.ofSession : Session.Ending → Ending
  | .left => .status 0
  | .inputEnded => .status 0
  | .broken e => .escaped e

/-- A run with given arguments. -/
def runArguments (a : Arguments) (typed : List Bytes) (files : FileSystem) : Outcome :=
  match a.directory files with
  | .error o => o.outcome files
  | .ok directory =>
    -- The directory is looked at before the script is.
    match a.task.session typed directory files with
    | .error o => o.outcome files
    | .ok (s, how) =>
      { output := a.task.view s.transcript
        files := s.database.files
        ending := .ofSession how }

/-- What comes of an argument line, given the pieces of standard input and the files. -/
def run (line : List String) (typed : List Bytes) (files : FileSystem) : Response :=
  match Arguments.read line with
  | .start a => .ran (runArguments a typed files)
  | .help => .usage 0
  | .misuse => .usage 2

end FlatQuery.CommandLine
