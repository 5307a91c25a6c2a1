namespace EtherCalc.Shell

/-!
The arguments of the command line.

The first word that is no option chooses the command.  Options have a long form, a value follows
as the next argument or after `=`, and only `--` lets an argument that begins with a dash be the
expression.  Whatever breaks these rules is a usage error, which is all that `Command.read?` says
about it.
-/

structure Options where
  context : Option String
  /-- Variables as they were given, in order. -/
  vars : List String
  strict : Bool
  maxExponent : Option Nat
  config : Option String
deriving DecidableEq, Repr

def Options.none : Options :=
  ⟨.none, [], false, .none, .none⟩

inductive Command where
  | eval (source : String) (options : Options)
  | repl (options : Options)
deriving DecidableEq, Repr

inductive Setting where
  | context
  | var
  | maxExponent
  | config
deriving DecidableEq, Repr

def Setting.ofWord? (word : String) : Option Setting :=
  if word = "context" then some .context
  else if word = "var" then some .var
  else if word = "max-exponent" then some .maxExponent
  else if word = "config" then some .config
  else none

/-- The number that decimal digits after an optional sign spell, below two to the 32nd. -/
def count? (text : String) : Option Nat :=
  let (negative, digits) :=
    match text.toList with
    | '-' :: digits => (true, digits)
    | '+' :: digits => (false, digits)
    | digits => (false, digits)
  let value := Nat.ofDigitChars 10 digits 0
  if digits ≠ [] ∧ digits.all Char.isDigit ∧ value < UInt32.size ∧ (negative → value = 0) then
    some value
  else none

/-- The options with one more value.  Only variables may be given more than once. -/
def Options.set? (options : Options) (setting : Setting) (value : String) : Option Options :=
  match setting with
  | .var => some { options with vars := options.vars ++ [value] }
  | .context =>
      if options.context.isSome ∨ value = "" then .none
      else some { options with context := some value }
  | .config =>
      if options.config.isSome ∨ value = "" then .none
      else some { options with config := some value }
  | .maxExponent =>
      if options.maxExponent.isSome then .none
      else (count? value).map fun count => { options with maxExponent := some count }

/-- What is known of a command after some of its arguments. -/
structure Draft where
  /-- The arguments that are no options. -/
  words : List String
  options : Options

/-- The argument is an option or `--`. -/
def beginsOption (argument : String) : Bool :=
  match argument.toList with
  | '-' :: _ :: _ => true
  | _ => false

def Draft.set? (draft : Draft) (setting : Setting) (value : String) : Option Draft :=
  (draft.options.set? setting value).map fun options => { draft with options }

inductive Step where
  | complete (draft : Draft)
  /-- The next argument is the value of an option. -/
  | awaits (setting : Setting)

/-- Short options after one dash: `v` any number of times, and `c` with its value. -/
def Draft.short? (draft : Draft) : List Char → Option Step
  | [] => some (.complete draft)
  | 'v' :: rest => draft.short? rest
  | ['c'] => some (.awaits .context)
  | 'c' :: '=' :: value => (draft.set? .context (String.ofList value)).map .complete
  | 'c' :: value => (draft.set? .context (String.ofList value)).map .complete
  | _ :: _ => none

/-- A long option, with its value if one follows the first `=`. -/
def Draft.long? (draft : Draft) (chars : List Char) : Option Step :=
  let word := String.ofList (chars.takeWhile (· != '='))
  match chars.dropWhile (· != '=') with
  | [] =>
      if word = "verbose" then some (.complete draft)
      else if word = "strict" then
        if draft.options.strict then none
        else some (.complete { draft with options.strict := true })
      else (Setting.ofWord? word).map .awaits
  | _ :: value =>
      (Setting.ofWord? word).bind fun setting =>
        (draft.set? setting (String.ofList value)).map .complete

def Draft.step? (draft : Draft) (argument : String) : Option Step :=
  match argument.toList with
  | '-' :: '-' :: long => draft.long? long
  | '-' :: first :: short => draft.short? (first :: short)
  | _ => some (.complete { draft with words := draft.words ++ [argument] })

def Draft.read? (draft : Draft) : List String → Option Draft
  | [] => some draft
  | argument :: rest =>
      if argument = "--" then some { draft with words := draft.words ++ rest }
      else
        match draft.step? argument, rest with
        | none, _ => none
        | some (.complete draft), rest => draft.read? rest
        | some (.awaits _), [] => none
        | some (.awaits setting), value :: rest =>
            if beginsOption value then none
            else (draft.set? setting value).bind fun draft => draft.read? rest
termination_by structural arguments => arguments

def Command.read? : List String → Option Command
  | [] => none
  | argument :: rest =>
      if argument = "eval" then
        match Draft.read? ⟨[], .none⟩ rest with
        | some ⟨[source], options⟩ => some (.eval source options)
        | _ => none
      else if argument = "repl" then
        match Draft.read? ⟨[], .none⟩ rest with
        | some ⟨[], options⟩ => some (.repl options)
        | _ => none
      else if argument = "--verbose" then Command.read? rest
      else
        match argument.toList with
        | '-' :: first :: short =>
            if (first :: short).all (· == 'v') then Command.read? rest else none
        | _ => none

end EtherCalc.Shell
