import EtherCalc.Cache
import EtherCalc.Host.Standard
import EtherCalc.Json.Reader
import EtherCalc.Text.Blank
import EtherCalc.Value.Json

namespace EtherCalc.Shell

/-!
The interactive session.  A line is an expression, or a command after a colon; only `:set`
changes what later lines mean.
-/

/-- A value as it is typed: JSON, or else the text itself. -/
def typedValue (nextId : Nat) (text : String) : Value :=
  match Json.read? text with
  | some json => (Value.ofJson nextId json).1
  | none => .string text

structure Console where
  engine : Engine
  cache : Cache
  context : Context

inductive Response where
  | print (text : String)
  | silent
  | quit
deriving DecidableEq, Repr

namespace Console

def start (engine : Engine) (context : Context) : Console :=
  ⟨engine, [], context⟩

def help : String := "\n".intercalate
  ["Enter an expression to evaluate it against the session context.",
    "",
    "Commands:",
    "  :vars              list bound variables",
    "  :set NAME VALUE    bind NAME (VALUE is JSON, or a plain string)",
    "  :help              show this message",
    "  :quit              leave the session"]

/-- The bound variables, one on a line. -/
def listing (context : Context) : String :=
  if context.isEmpty then "(no variables)"
  else
    "\n".intercalate
      (context.bindings.map fun binding => binding.1 ++ " = " ++ binding.2.describe)

def shown (source : String) : Except EvalError Value → String
  | .ok value => value.display
  | .error error => error.report source

/-- Evaluates an expression, from the cache if it was entered before. -/
def evaluate (console : Console) (source : String) : Console × Response :=
  let (parsed, cache) := console.cache.parse console.engine source
  let result :=
    match parsed with
    | .error error => .error error
    | .ok evaluator => (evaluator.evaluate .standard console.context).result
  ({ console with cache }, .print (shown source result))

def set (console : Console) (name value : String) : Console :=
  { console with
    context := console.context.define name (typedValue console.context.nextId value) }

def command (console : Console) (chars : List Char) : Console × Response :=
  let (word, rest) :=
    match splitOnce isBlank chars with
    | some (word, rest) => (String.ofList word, trimBlank rest)
    | none => (String.ofList chars, [])
  if word = "q" ∨ word = "quit" ∨ word = "exit" then (console, .quit)
  else if word = "h" ∨ word = "help" then (console, .print help)
  else if word = "vars" then (console, .print (listing console.context))
  else if word = "set" then
    match splitOnce isBlank rest with
    | some (name, value) =>
        (console.set (String.ofList name) (String.ofList (trimBlank value)), .silent)
    | none => (console, .print "usage: :set NAME VALUE")
  else (console, .print ("unknown command `:" ++ word ++ "` (try :help)"))

def answer (console : Console) (line : String) : Console × Response :=
  match trimBlank line.toList with
  | [] => (console, .silent)
  | ':' :: rest => console.command rest
  | source => console.evaluate (String.ofList source)

/-- What is printed for some lines, up to the one that quits. -/
def transcript (console : Console) : List String → List String
  | [] => []
  | line :: rest =>
      match console.answer line with
      | (console, .print text) => text :: console.transcript rest
      | (console, .silent) => console.transcript rest
      | (_, .quit) => []

end Console

end EtherCalc.Shell
