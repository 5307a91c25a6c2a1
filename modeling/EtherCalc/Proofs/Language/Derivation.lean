import EtherCalc.Parser.Level

/-!
The grammar of the language, apart from any parser.

`Derives category phrase expr` says that the lexemes of `phrase` make a phrase of the category and
that `expr` is its tree.  Chains are left recursive, as their operators associate.  Where a lexeme
starts in its source plays no part.
-/

namespace EtherCalc

/-- The kinds of phrase. -/
inductive Category where
  /-- Operands with operators of one level between them. -/
  | chain (level : Level)
  /-- What may have signs before it. -/
  | signed
  /-- What may have members, indices and calls after it. -/
  | applied
  | atom
deriving DecidableEq, Repr

/-- What stands between the operators of a level: chains of the next tighter one. -/
def Category.ofOperands : Level → Category
  | .disjunction => .chain .conjunction
  | .conjunction => .chain .comparison
  | .comparison => .chain .sum
  | .sum => .chain .product
  | .product => .signed

/-- A whole source text is a phrase of the loosest kind. -/
abbrev Category.whole : Category :=
  .chain .disjunction

namespace Operator

def level : Operator → Level
  | .or => .disjunction
  | .and => .conjunction
  | .eq | .ne | .lt | .le | .gt | .ge => .comparison
  | .add | .sub => .sum
  | .mul | .div => .product

def mark : Operator → Mark
  | .add => .plus
  | .sub => .minus
  | .mul => .star
  | .div => .slash
  | .and => .andAnd
  | .or => .orOr
  | .eq => .equal
  | .ne => .notEqual
  | .lt => .less
  | .le => .lessEqual
  | .gt => .greater
  | .ge => .greaterEqual

theorem spelling_mark (op : Operator) : op.mark.spelling = op.symbol := by
  cases op <;> rfl

end Operator

/-- The parser's table of operators is the table of the grammar. -/
theorem Level.operator?_eq_some_iff {level : Level} {token : Token} {op : Operator} :
    level.operator? token = some op ↔ op.level = level ∧ token = .mark op.mark := by
  constructor
  · intro found
    unfold Level.operator? at found
    split at found <;> cases found <;> exact ⟨rfl, rfl⟩
  · rintro ⟨rfl, rfl⟩
    cases op <;> rfl

/-- A number literal and its tree.  A scientific one is divided at the first `e`. -/
inductive NumberLiteral : Lexeme → Expr → Prop where
  | decimal {lexeme : Lexeme} (token : lexeme.token = .decimal) :
      NumberLiteral lexeme (.number lexeme.text)
  | hex {lexeme : Lexeme} (token : lexeme.token = .hex) :
      NumberLiteral lexeme (.number lexeme.text)
  | scientific {lexeme : Lexeme} {mantissa exponent : String} {mark : Char}
      (token : lexeme.token = .scientific)
      (divided : lexeme.text.toList = mantissa.toList ++ mark :: exponent.toList)
      (isMark : mark = 'e' ∨ mark = 'E') (isFirst : 'e' ∉ mantissa.toList ∧ 'E' ∉ mantissa.toList) :
      NumberLiteral lexeme (.scientific mantissa exponent)

mutual

/-- The lexemes are a phrase of the category, and the expression is its tree. -/
inductive Derives : Category → List Lexeme → Expr → Prop where
  | operand {level : Level} {phrase : List Lexeme} {expr : Expr}
      (inner : Derives (.ofOperands level) phrase expr) : Derives (.chain level) phrase expr
  | binary {op : Operator} {sign : Lexeme} {before after : List Lexeme} {left right : Expr}
      (first : Derives (.chain op.level) before left) (token : sign.token = .mark op.mark)
      (second : Derives (.ofOperands op.level) after right) :
      Derives (.chain op.level) (before ++ sign :: after) (.binary op left right)
  | unsigned {phrase : List Lexeme} {expr : Expr} (inner : Derives .applied phrase expr) :
      Derives .signed phrase expr
  | not {sign : Lexeme} {phrase : List Lexeme} {operand : Expr} (token : sign.token = .mark .bang)
      (inner : Derives .signed phrase operand) : Derives .signed (sign :: phrase) (.not operand)
  | negate {sign : Lexeme} {phrase : List Lexeme} {operand : Expr}
      (token : sign.token = .mark .minus) (inner : Derives .signed phrase operand) :
      Derives .signed (sign :: phrase) (.negate operand)
  | bare {phrase : List Lexeme} {expr : Expr} (inner : Derives .atom phrase expr) :
      Derives .applied phrase expr
  | member {dot name : Lexeme} {phrase : List Lexeme} {target : Expr}
      (inner : Derives .applied phrase target) (token : dot.token = .mark .dot)
      (named : name.token = .name) :
      Derives .applied (phrase ++ [dot, name]) (.member target name.text)
  | index {opening closing : Lexeme} {phrase inside : List Lexeme} {target position : Expr}
      (inner : Derives .applied phrase target) (opens : opening.token = .mark .openBracket)
      (middle : Derives .whole inside position) (closes : closing.token = .mark .closeBracket) :
      Derives .applied (phrase ++ opening :: (inside ++ [closing])) (.index target position)
  | call {opening closing : Lexeme} {phrase : List Lexeme} {callee : Expr}
      (inner : Derives .applied phrase callee) (opens : opening.token = .mark .openParen)
      (closes : closing.token = .mark .closeParen) :
      Derives .applied (phrase ++ [opening, closing]) (.call callee [])
  | callWith {opening closing : Lexeme} {phrase inside : List Lexeme} {callee : Expr}
      {args : List Expr} (inner : Derives .applied phrase callee)
      (opens : opening.token = .mark .openParen) (middle : DerivesArguments inside args)
      (closes : closing.token = .mark .closeParen) :
      Derives .applied (phrase ++ opening :: (inside ++ [closing])) (.call callee args)
  | number {lexeme : Lexeme} {literal : Expr} (isNumber : NumberLiteral lexeme literal) :
      Derives .atom [lexeme] literal
  | amount {lexeme word : Lexeme} {literal : Expr} {unit : Denomination}
      (isNumber : NumberLiteral lexeme literal) (named : word.token = .name)
      (isUnit : word.text = unit.word) : Derives .atom [lexeme, word] (.amount literal unit)
  | string {lexeme : Lexeme} (token : lexeme.token = .string) :
      Derives .atom [lexeme] (.string lexeme.text)
  | bool {lexeme : Lexeme} {value : Bool} (token : lexeme.token = .name)
      (reserved : booleanWord? lexeme.text = some value) : Derives .atom [lexeme] (.bool value)
  | variable {lexeme : Lexeme} (token : lexeme.token = .name)
      (free : booleanWord? lexeme.text = none) : Derives .atom [lexeme] (.variable lexeme.text)
  | group {opening closing : Lexeme} {phrase : List Lexeme} {expr : Expr}
      (opens : opening.token = .mark .openParen) (inner : Derives .whole phrase expr)
      (closes : closing.token = .mark .closeParen) :
      Derives .atom (opening :: (phrase ++ [closing])) expr

/-- One or more phrases with commas between them. -/
inductive DerivesArguments : List Lexeme → List Expr → Prop where
  | one {phrase : List Lexeme} {expr : Expr} (only : Derives .whole phrase expr) :
      DerivesArguments phrase [expr]
  | more {comma : Lexeme} {phrase later : List Lexeme} {expr : Expr} {args : List Expr}
      (first : Derives .whole phrase expr) (token : comma.token = .mark .comma)
      (rest : DerivesArguments later args) :
      DerivesArguments (phrase ++ comma :: later) (expr :: args)

end

end EtherCalc
