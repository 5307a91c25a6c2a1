import EtherCalc.Token.Lexer

namespace EtherCalc.Lexer

/-- The characters from a byte offset on are cut into the lexemes. -/
inductive Scanned : Nat → List Char → List Lexeme → Prop where
  | done {offset : Nat} : Scanned offset [] []
  | space {offset : Nat} {first : Char} {rest : List Char} {found : List Lexeme}
      (blank : isSpace first = true) (later : Scanned (offset + first.utf8Size) rest found) :
      Scanned offset (first :: rest) found
  | token {offset length : Nat} {first : Char} {rest : List Char} {token : Token}
      {found : List Lexeme} (solid : isSpace first = false)
      (cut : tokenAt? first rest = some (token, length))
      (later : Scanned (offset + byteLength (first :: rest.take length)) (rest.drop length) found) :
      Scanned offset (first :: rest)
        (⟨token, String.ofList (first :: rest.take length), offset⟩ :: found)

variable {offset : Nat} {chars : List Char} {found : List Lexeme}

theorem Scanned.scan (scanned : Scanned offset chars found) : scan offset chars = .ok found := by
  induction scanned with
  | done => rw [Lexer.scan]
  | space blank later ih => rw [Lexer.scan, if_pos blank, ih]
  | token solid cut later ih =>
      rw [Lexer.scan, if_neg (Bool.eq_false_iff.mp solid)]
      simp only [cut, ih]

theorem scanned_of_scan (scanned : scan offset chars = .ok found) :
    Scanned offset chars found := by
  induction offset, chars using scan.induct generalizing found with
  | case1 offset =>
      rw [Lexer.scan] at scanned
      cases scanned
      exact .done
  | case2 offset first rest blank ih =>
      rw [Lexer.scan, if_pos blank] at scanned
      exact .space blank (ih scanned)
  | case3 offset first rest solid unreadable =>
      rw [Lexer.scan, if_neg solid] at scanned
      simp only [unreadable] at scanned
      contradiction
  | case4 offset first rest solid token length cut text stop failed =>
      rw [Lexer.scan, if_neg solid] at scanned
      simp only [text] at failed
      simp only [cut, failed] at scanned
      contradiction
  | case5 offset first rest solid token length cut text lexemes later =>
      rename_i ih
      rw [Lexer.scan, if_neg solid] at scanned
      simp only [text] at later
      simp only [cut, later, Except.ok.injEq] at scanned
      subst found
      exact .token (Bool.eq_false_iff.mpr solid) cut (ih later)

theorem scan_eq_ok_iff : scan offset chars = .ok found ↔ Scanned offset chars found :=
  ⟨scanned_of_scan, Scanned.scan⟩

end EtherCalc.Lexer
