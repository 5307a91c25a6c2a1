namespace EtherCalc

/-!
White space as Unicode lists it, and texts without it at their ends.  The expression language
has a smaller set of its own; this one is for what people type around names and commands.
-/

/-- The characters with the Unicode property White_Space. -/
def isBlank (c : Char) : Bool :=
  (9 ≤ c.toNat && c.toNat ≤ 13) || c.toNat == 0x20 || c.toNat == 0x85 || c.toNat == 0xA0 ||
  c.toNat == 0x1680 || (0x2000 ≤ c.toNat && c.toNat ≤ 0x200A) || c.toNat == 0x2028 ||
  c.toNat == 0x2029 || c.toNat == 0x202F || c.toNat == 0x205F || c.toNat == 0x3000

/-- The characters without blanks before the first and after the last other one. -/
def trimBlank (chars : List Char) : List Char :=
  ((chars.dropWhile isBlank).reverse.dropWhile isBlank).reverse

/-- The parts before and after the first character of a class, which belongs to neither. -/
def splitOnce (splits : Char → Bool) (chars : List Char) : Option (List Char × List Char) :=
  match chars.dropWhile (fun c => !splits c) with
  | [] => none
  | _ :: after => some (chars.takeWhile (fun c => !splits c), after)

end EtherCalc
