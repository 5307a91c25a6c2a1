namespace EtherCalc

/-!
Places in a source text.

A place is named by its byte offset in the UTF-8 form of the text and shown as a line and a
column, both counted from one.  Columns count characters.  `Location.ofOffset` is total: an
offset past the end is clamped, and one that falls inside a character sees the whole text.
-/

/-- The number of bytes that the UTF-8 form of the characters takes. -/
def byteLength (chars : List Char) : Nat :=
  chars.foldr (fun c bytes => c.utf8Size + bytes) 0

/-- The characters that fill exactly the first `bytes` bytes, if the count ends between two
characters. -/
def charsBefore : Nat → List Char → Option (List Char)
  | 0, _ => some []
  | _ + 1, [] => none
  | bytes + 1, c :: rest =>
      if bytes + 1 < c.utf8Size then none
      else (charsBefore (bytes + 1 - c.utf8Size) rest).map (c :: ·)

/-- A byte offset together with the line and column it is shown as. -/
structure Location where
  offset : Nat
  line : Nat
  column : Nat
deriving DecidableEq, Repr

namespace Location

def after (offset : Nat) (before : List Char) : Location where
  offset := offset
  line := before.count '\n' + 1
  column := (before.reverse.takeWhile (· != '\n')).length + 1

/-- The place at a byte offset of a source text. -/
def ofOffset (source : String) (offset : Nat) : Location :=
  let clamped := min offset source.utf8ByteSize
  after clamped ((charsBefore clamped source.toList).getD source.toList)

end Location

/-- What follows the first `count` line feeds. -/
def skipLines : Nat → List Char → List Char
  | 0, chars => chars
  | count + 1, chars => skipLines count ((chars.dropWhile (· != '\n')).drop 1)

/-- The first line, without its line feed and without the carriage return of a line end
that has both. -/
def firstLine (chars : List Char) : List Char :=
  let line := chars.takeWhile (· != '\n')
  if line.length < chars.length && line.getLast? == some '\r' then line.dropLast else line

/-- A line of the source, counted from one; the empty text where there is no such line. -/
def lineText (source : String) (line : Nat) : String :=
  String.ofList (firstLine (skipLines (line - 1) source.toList))

end EtherCalc
