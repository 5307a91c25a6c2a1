import EtherCalc.Binary64.Shortest
import EtherCalc.Json

namespace EtherCalc.Json

def escaped (c : Char) : List Char :=
  match c with
  | '"' => ['\\', '"']
  | '\\' => ['\\', '\\']
  | '\x08' => ['\\', 'b']
  | '\x0c' => ['\\', 'f']
  | '\n' => ['\\', 'n']
  | '\r' => ['\\', 'r']
  | '\t' => ['\\', 't']
  | c =>
      if c.toNat < 0x20 then
        ['\\', 'u', '0', '0', Nat.digitChar (c.toNat / 16), Nat.digitChar (c.toNat % 16)]
      else [c]

def stringText (text : String) : String :=
  String.ofList (['"'] ++ text.toList.flatMap escaped ++ ['"'])

def Number.text : Number → String
  | .integer value => toString value
  | .binary value => value.text

mutual

def text : Json → String
  | .null => "null"
  | .bool value => if value then "true" else "false"
  | .number value => value.text
  | .string text => stringText text
  | .array items => "[" ++ ",".intercalate (textAll items) ++ "]"
  | .object members => "\x7b" ++ ",".intercalate (textMembers members) ++ "\x7d"
termination_by structural json => json

def textAll : List Json → List String
  | [] => []
  | json :: rest => json.text :: textAll rest
termination_by structural jsons => jsons

def textMembers : List (String × Json) → List String
  | [] => []
  | (name, json) :: rest => (stringText name ++ ":" ++ json.text) :: textMembers rest
termination_by structural members => members

end

end EtherCalc.Json
