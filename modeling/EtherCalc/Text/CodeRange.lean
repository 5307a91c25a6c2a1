namespace EtherCalc

/-- The first and the last code point of each range, in increasing order and without overlap. -/
abbrev CodeRanges : Type := Array (Nat × Nat)

def CodeRanges.covers (ranges : CodeRanges) (c : Char) : Bool :=
  ranges.any fun range => range.1 ≤ c.toNat && c.toNat ≤ range.2

end EtherCalc
