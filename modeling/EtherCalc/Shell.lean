import EtherCalc.Config.Text
import EtherCalc.Shell.Arguments
import EtherCalc.Shell.Console
import EtherCalc.Shell.Directory
import EtherCalc.Text.Typed

namespace EtherCalc.Shell

inductive Complaint where
  | unreadable (path : String) (fault : ReadFault)
  | invalidConfig (path : String)
  | invalidJson (path : String)
  | unusableContext (path : String) (error : EvalError)
  /-- A variable without `=`. -/
  | valueless (argument : String)
  | nameless (argument : String)

def Complaint.message : Complaint → String
  | .unreadable path fault => "failed to read " ++ path ++ ": " ++ fault.message
  | .invalidConfig path => "invalid config file " ++ path
  | .invalidJson path => "invalid JSON in " ++ path
  | .unusableContext path error => "cannot use " ++ path ++ " as a context: " ++ error.message
  | .valueless argument => "expected NAME=VALUE, got `" ++ argument ++ "`"
  | .nameless argument => "missing variable name in `" ++ argument ++ "`"

/-- What carrying out the command line comes to. -/
inductive Ending where
  | usage
  | complaint (reason : Complaint)
  | value (text : String)
  | error (text : String)
  /-- An interactive session with what it printed. -/
  | session (printed : List String)

namespace Ending

def exitCode : Ending → Nat
  | .usage => 2
  | .complaint _ | .error _ => 1
  | .value _ | .session _ => 0

def lines (texts : List String) : String :=
  String.join (texts.map (· ++ "\n"))

def output : Ending → String
  | .value text => lines [text]
  | .session printed => lines printed
  | .usage | .complaint _ | .error _ => ""

def errors : Ending → String
  | .usage => "usage"
  | .complaint reason => lines ["error: " ++ reason.message]
  | .error text => lines [text]
  | .value _ | .session _ => ""

end Ending

abbrev Files : Type := String → Except ReadFault FileText

/-- Steps that may read files and what is typed; the state is what of that is left. -/
abbrev Reading : Type → Type := StateT String (Except Complaint)

def readFile (files : Files) (path : String) : Reading String :=
  match files path with
  | .error fault => throw (.unreadable path fault)
  | .ok (.text text) => pure text
  | .ok .typed => modifyGet fun typed => (typed, "")

def configOfText (path text : String) : Except Complaint Config :=
  match Config.read? text with
  | none => .error (.invalidConfig path)
  | some config => .ok config

def fileConfig (files : Files) : Option String → Reading Config
  | none => pure .default
  | some path => do
      let text ← readFile files path
      configOfText path text

/-- A configuration with what options say instead. -/
def Options.amend (options : Options) (config : Config) : Config :=
  { config with
    unbound := if options.strict then .error else config.unbound
    maxExponent := options.maxExponent.getD config.maxExponent }

def contextOfText (path text : String) : Except Complaint Context :=
  match Json.read? text with
  | none => .error (.invalidJson path)
  | some json => (Context.ofJson json).mapError (.unusableContext path)

def fileContext (files : Files) : Option String → Reading Context
  | none => pure .empty
  | some path => do
      let text ← readFile files path
      contextOfText path text

def defineVar (context : Context) (argument : String) : Except Complaint Context :=
  match splitOnce (· == '=') argument.toList with
  | none => .error (.valueless argument)
  | some (name, value) =>
      match trimBlank name with
      | [] => .error (.nameless argument)
      | name =>
          .ok (context.define (String.ofList name)
            (typedValue context.nextId (String.ofList value)))

def defineVars (context : Context) (arguments : List String) : Except Complaint Context :=
  arguments.foldlM defineVar context

/-- The engine and the context of a command. -/
def prepare (files : Files) (options : Options) : Reading (Engine × Context) := do
  let config ← fileConfig files options.config
  let context ← fileContext files options.context
  let context ← defineVars context options.vars
  return (.ofConfig (options.amend config), context)

def evaluate (engine : Engine) (context : Context) (source : String) : Ending :=
  match (engine.evaluate .standard context source).result with
  | .ok value => .value value.display
  | .error error => .error (error.report source)

/-- The lines of what is typed, each ended by a line feed. -/
def inputLines (input : String) : List String :=
  let pieces := input.splitOn "\n"
  (if pieces.getLast? = some "" then pieces.dropLast else pieces).map typedLine

def run (files : Files) (arguments : List String) (input : String) : Ending :=
  match Command.read? arguments with
  | none => .usage
  | some (.eval source options) =>
      match prepare files options input with
      | .error complaint => .complaint complaint
      | .ok ((engine, context), _) => evaluate engine context source
  | some (.repl options) =>
      match prepare files options input with
      | .error complaint => .complaint complaint
      | .ok ((engine, context), rest) =>
          .session ((Console.start engine context).transcript (inputLines rest))

end EtherCalc.Shell
