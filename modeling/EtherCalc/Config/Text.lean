import EtherCalc.Config
import EtherCalc.Json.Printer
import EtherCalc.Json.Reader

namespace EtherCalc.Config

/-!
Configurations as JSON.  What a text leaves out has its default.  A text is an object with any of
the three settings, each at most once and other members ignored, or an array that begins with
their values in order.
-/

open Json (Raw)

/-- A count in decimal digits, below a limit. -/
def count? (limit : Nat) : Raw → Option Nat
  | .number ⟨false, whole, none, none⟩ =>
      let value := Nat.ofDigitChars 10 whole 0
      if value < limit then some value else none
  | _ => none

def policyNamed? (name : String) : Option UnboundPolicy :=
  if name = "undefined" then some .undefined
  else if name = "error" then some .error
  else none

/-- A policy is its name, or an object with that name over `null`. -/
def policy? : Raw → Option UnboundPolicy
  | .string units => (Json.text? units).bind policyNamed?
  | .object [(units, .null)] => (Json.text? units).bind policyNamed?
  | _ => none

inductive Setting where
  | unbound
  | maxExponent
  | maxDepth
deriving DecidableEq, Repr

/-- The settings in the order in which an array has them. -/
def Setting.all : List Setting :=
  [.unbound, .maxExponent, .maxDepth]

def Setting.name : Setting → String
  | .unbound => "unbound"
  | .maxExponent => "max_exponent"
  | .maxDepth => "max_depth"

def Setting.named? (name : String) : Option Setting :=
  Setting.all.find? (·.name == name)

/-- The configuration with one setting changed.  Exponents have 32 bits, depths 64. -/
def set? (config : Config) (setting : Setting) (raw : Raw) : Option Config :=
  match setting with
  | .unbound => (policy? raw).map fun policy => { config with unbound := policy }
  | .maxExponent =>
      (count? UInt32.size raw).map fun count => { config with maxExponent := count }
  | .maxDepth => (count? UInt64.size raw).map fun count => { config with maxDepth := count }

/-- The configuration with the settings of an object's members; `known` were set before. -/
def withMembers? (config : Config) (known : List Setting) :
    List (List Json.TextUnit × Raw) → Option Config
  | [] => some config
  | (units, raw) :: rest =>
      match Json.text? units with
      | none => none
      | some name =>
          match Setting.named? name with
          | none => withMembers? config known rest
          | some setting =>
              if setting ∈ known then none
              else
                match config.set? setting raw with
                | none => none
                | some config => withMembers? config (setting :: known) rest

/-- The configuration with settings from a list, one for each that is left. -/
def withItems? (config : Config) : List Setting → List Raw → Option Config
  | _, [] => some config
  | [], _ :: _ => none
  | setting :: settings, raw :: rest =>
      match config.set? setting raw with
      | none => none
      | some config => withItems? config settings rest

/-- The configuration that a text spells.  Members that are ignored may nest to any depth. -/
def read? (text : String) : Option Config :=
  match Raw.read? text.length text.toList with
  | some (.object members) => withMembers? default [] members
  | some (.array items) => withItems? default Setting.all items
  | _ => none

def toJson (config : Config) : Json :=
  let policy :=
    match config.unbound with
    | .undefined => "undefined"
    | .error => "error"
  .object (Json.sorted
    [("unbound", .string policy),
      ("max_exponent", .number (.integer config.maxExponent)),
      ("max_depth", .number (.integer config.maxDepth))])

end EtherCalc.Config
