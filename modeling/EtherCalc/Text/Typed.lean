import EtherCalc.Text.Cluster
import EtherCalc.Text.Location

namespace EtherCalc

/-!
Lines as they are typed.  A backspace takes back the last cluster of those that are left; where
none is left it does nothing.
-/

/-- What is left of the clusters so far: their characters, last first, and for each cluster, last
first, its bytes.  The bytes are counted in one byte, so of a cluster with more of them a
backspace takes back the remainder only. -/
structure Typed where
  chars : List Char
  sizes : List UInt8

namespace Typed

def empty : Typed :=
  ⟨[], []⟩

/-- The characters, last first, without the last ones that fill some bytes. -/
def withoutBytes : Nat → List Char → List Char
  | 0, chars => chars
  | _ + 1, [] => []
  | bytes + 1, c :: rest => withoutBytes (bytes + 1 - c.utf8Size) rest

def add (typed : Typed) (cluster : List Char) : Typed :=
  ⟨cluster.reverse ++ typed.chars, UInt8.ofNat (byteLength cluster) :: typed.sizes⟩

def takeBack (typed : Typed) : Typed :=
  match typed.sizes with
  | [] => typed
  | size :: sizes => ⟨withoutBytes size.toNat typed.chars, sizes⟩

/-- What is left after one more cluster, which may be a backspace. -/
def press (typed : Typed) (cluster : List Char) : Typed :=
  if cluster = ['\x08'] then typed.takeBack else typed.add cluster

end Typed

def typedLine (line : String) : String :=
  String.ofList ((clusters line.toList).foldl Typed.press Typed.empty).chars.reverse

end EtherCalc
