import WordMachine.Directory
import WordMachine.Library
import WordMachine.Snapshot.Json
import WordMachine.Snapshot.Restore
import WordMachine.Snapshot.Save
import WordMachine.Source.Load

/-! # The command line

What the program does with its arguments, given the files that it may read: it loads a
source into a fresh or a restored machine and reports the console output, the trace and
the state that were asked for.
-/

namespace WordMachine

namespace CommandLine

/-- The texts of files by path. -/
abbrev Files := String → Except FileFault String

/-- What the program leaves: its exit code and the two output texts. -/
structure Report where
  exit : Nat
  stdout : String
  stderr : String

/-- The help text. -/
def usage : String :=
  String.join
    ["STACKVM - Forth-like stack machine\n",
      "\n",
      "Usage:\n",
      "  stackvm <file.fth>                 Run a program\n",
      "  stackvm --trace <file.fth>         Run and print every dispatched token\n",
      "  stackvm --dump-state <file.fth>    Run and print the VM state as JSON\n",
      "  stackvm --state <s.json> <file>    Restore a saved state before running\n",
      "  stackvm --help, -h                 Show this help\n"]

/-- A report of a failure before anything ran. -/
def Report.failure (message : String) : Report :=
  ⟨1, "", message ++ "\n"⟩

/-- The argument after the first `--state`. -/
def stateFile? : List String → Option String
  | [] => none
  | "--state" :: rest => rest.head?
  | _ :: rest => stateFile? rest

/-- The first argument that is no option and does not follow a `--state`. -/
def sourceFile? (previous : String) : List String → Option String
  | [] => none
  | argument :: rest =>
    if !argument.startsWith "-" && previous != "--state" then some argument
    else sourceFile? argument rest

/-- The name of the file at the end of a path. -/
def fileName? (path : String) : Option String :=
  match ((path.splitOn "/").filter fun part => part != "" && part != ".").getLast? with
  | some ".." => none
  | name => name

/-- What follows the last dot of a file name that does not start with it. -/
def extension? (path : String) : Option String := do
  let parts := (← fileName? path).splitOn "."
  guard (1 < parts.length ∧ (2 < parts.length ∨ parts.head? ≠ some ""))
  parts.getLast?

/-- Whether a path has the extension of a source file. -/
def isSourcePath (path : String) : Bool :=
  extension? path == some "fth" || extension? path == some "fs"

/-- How deep calls may nest. -/
def nestingBound : Nat := 100000

/-- The time that the program stamps. It is fixed, so that two runs over the same files
print the same states. -/
def clock : Instant := .millennium

/-- The machine that a run starts with: a fresh one, or the one of a stored state. -/
def startMachine (files : Files) : Option String → Except String Machine
  | none =>
    match Library.machine .default clock with
    | .ok m => .ok m
    | .error error => .error ("Bootstrap error: " ++ error.message)
  | some path =>
    match files path with
    | .error fault => .error ("Failed to read state '" ++ path ++ "': " ++ fault.message)
    | .ok text =>
      match Snapshot.ofText text >>= Machine.ofSnapshot clock (Library.install 0 Library.full) with
      | .ok m => .ok m
      | .error error => .error ("Failed to restore state '" ++ path ++ "': " ++ error.message)

/-- The trace with one token a line, indented by the bodies in progress. -/
def traceText (trace : List TraceEntry) : String :=
  "=== TRACE ===\n" ++
    String.join (trace.map fun entry =>
      String.ofList (List.replicate (2 * entry.depth) ' ') ++ entry.token ++ " [" ++
        Text.natText entry.stackDepth ++ "]\n")

/-- What a finished load reports. -/
def report (path : String) (trace dump : Bool) (loaded : Source.Loaded) : Report :=
  let written := loaded.machine.console.written
  let traced := if trace then traceText loaded.machine.trace else ""
  match loaded.error with
  | some error => ⟨1, written, traced ++ path ++ ": " ++ error.message ++ "\n"⟩
  | none =>
    ⟨0, written ++ (if dump then loaded.machine.save.toText ++ "\n" else ""), traced⟩

/-- Loads a source file into the machine that the arguments ask for. -/
def runFile (files : Files) (args : List String) (path : String) : Report :=
  if !isSourcePath path then .failure ("Error: expected a .fth or .fs file, got " ++ path)
  else
    match startMachine files (stateFile? args) with
    | .error message => .failure message
    | .ok m =>
      match files path with
      | .error fault => .failure ("Failed to read '" ++ path ++ "': " ++ fault.message)
      | .ok source =>
        let trace := args.contains "--trace"
        match (m.setTracing trace).load nestingBound source with
        | some loaded => report path trace (args.contains "--dump-state") loaded
        | none => .failure (path ++ ": calls nest too deep")

/-- Runs the program. -/
def run (files : Files) (args : List String) : Report :=
  if args.contains "--help" || args.contains "-h" then ⟨0, usage, ""⟩
  else
    match sourceFile? "" args with
    | some path => runFile files args path
    | none => ⟨if args.isEmpty then 0 else 1, usage, ""⟩

end CommandLine

end WordMachine
