import EtherCalc.Text.Cluster.Role

namespace EtherCalc

/-!
Grapheme clusters: the parts of a text that show as one character.  The boundaries are those of
the extended clusters of Unicode.  An `Edge` is what the characters of a cluster so far mean for
the next one; `Edge.joins` says which characters stay, and `clusters` cuts a text where one does
not.
-/

/-- How a cluster ends so far, as far as the next character is concerned. -/
inductive Edge where
  | plain
  | carriageReturn
  | control
  | leader
  /-- An odd number of letters of flags. -/
  | regional
  | initialJamo
  | vowelJamo
  | finalJamo
  /-- A picture, and extending characters. -/
  | picture
  /-- A picture, extending characters and a joiner. -/
  | joinedPicture
  /-- A consonant and extending characters, one of them a linker or none. -/
  | consonant (linked : Bool)
deriving DecidableEq, Repr

namespace Edge

/-- No boundary comes before a character of that role. -/
def joins : Edge → Role → Bool
  | .carriageReturn, .lineFeed => true
  | .carriageReturn, _ | .control, _ => false
  | _, .carriageReturn | _, .lineFeed | _, .control => false
  | _, .extending | _, .separator | _, .linker | _, .joiner | _, .spacing => true
  | .leader, _ => true
  | .initialJamo, .initialJamo | .initialJamo, .vowelJamo => true
  | .initialJamo, .openSyllable | .initialJamo, .closedSyllable => true
  | .vowelJamo, .vowelJamo | .vowelJamo, .finalJamo | .finalJamo, .finalJamo => true
  | .regional, .regional => true
  | .joinedPicture, .picture => true
  | .consonant linked, .consonant => linked
  | _, _ => false

/-- How the cluster ends with one more character. -/
def push : Edge → Role → Edge
  | _, .carriageReturn => .carriageReturn
  | _, .lineFeed | _, .control => .control
  | _, .leader => .leader
  | _, .initialJamo => .initialJamo
  | _, .vowelJamo | _, .openSyllable => .vowelJamo
  | _, .finalJamo | _, .closedSyllable => .finalJamo
  | .regional, .regional => .plain
  | _, .regional => .regional
  | _, .picture => .picture
  | .picture, .extending | .picture, .separator | .picture, .linker => .picture
  | .picture, .joiner => .joinedPicture
  | _, .consonant => .consonant false
  | .consonant _, .linker => .consonant true
  | .consonant linked, .extending | .consonant linked, .joiner => .consonant linked
  | _, .extending | _, .separator | _, .linker | _, .joiner => .plain
  | _, .spacing | _, .plain => .plain

/-- How many characters stay with what is before them. -/
def stay (edge : Edge) : List Char → Nat
  | [] => 0
  | c :: rest =>
      let role := Role.ofChar c
      if edge.joins role then stay (edge.push role) rest + 1 else 0

end Edge

def clusters (chars : List Char) : List (List Char) :=
  match chars with
  | [] => []
  | first :: rest =>
      let count := (Edge.plain.push (Role.ofChar first)).stay rest
      (first :: rest.take count) :: clusters (rest.drop count)
termination_by chars.length
decreasing_by exact Nat.lt_succ_of_le (List.drop_suffix _ _).length_le

end EtherCalc
