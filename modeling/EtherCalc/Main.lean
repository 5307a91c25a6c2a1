import EtherCalc.Shell

namespace EtherCalc

/-!
The command line program: the only part that reads files and the terminal.
-/

def faultOf : IO.Error → Shell.ReadFault
  | .noFileOrDirectory _ _ _ => .missing
  | .inappropriateType _ 20 _ => .notDirectory
  | .inappropriateType _ 21 _ => .isDirectory
  | .invalidArgument _ 36 _ => .nameTooLong
  | .permissionDenied _ code details => .other (details ++ " (os error " ++ toString code ++ ")")
  | error => .other (toString error)

/-- A file of the system with its text, or the fault in reading it. -/
abbrev Loaded : Type := String × Except Shell.ReadFault Shell.FileText

def loadFiles (options : Shell.Options) : IO (List Loaded) :=
  ([options.config, options.context].filterMap id).mapM fun (path : String) => do
    try
      let text ← IO.FS.readFile path
      return (path, .ok (.text text))
    catch error => return (path, .error (faultOf error))

def filesOf (loaded : List Loaded) : Shell.Files :=
  fun path => (Entries.find? path loaded).getD (.error .missing)

partial def converse (console : Shell.Console) : IO Unit := do
  let stdin ← IO.getStdin
  let line ← stdin.getLine
  if line.isEmpty then return
  match console.answer (typedLine line) with
  | (console, .print text) =>
      IO.println text
      converse console
  | (console, .silent) => converse console
  | (_, .quit) => return

def finish (ending : Shell.Ending) : IO UInt32 := do
  IO.print ending.output
  IO.eprint ending.errors
  return UInt32.ofNat ending.exitCode

def runProgram (arguments : List String) : IO UInt32 := do
  match Shell.Command.read? arguments with
  | some (.repl options) =>
      let files := filesOf (← loadFiles options)
      match Shell.prepare files options "" with
      | .error reason => finish (.complaint reason)
      | .ok ((engine, context), _) =>
          converse (.start engine context)
          return 0
  | some (.eval _ options) =>
      finish (Shell.run (filesOf (← loadFiles options)) arguments "")
  | none => finish .usage

end EtherCalc

def main (arguments : List String) : IO UInt32 :=
  EtherCalc.runProgram arguments
