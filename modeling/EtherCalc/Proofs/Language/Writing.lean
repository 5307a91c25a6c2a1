import EtherCalc.Proofs.Language.Boundary
import EtherCalc.Proofs.Lexer.Spelling
import Mathlib

/-!
Expressions that can be written, and all the ways to write them.

`Written category expr words` says that the words write the expression at a place for phrases of
the category.  Parentheses stand where the expression belongs to a looser category than the place
allows, and any number of further pairs may stand around it; a literal with a denomination stays
bare.
-/

namespace EtherCalc

namespace Expr

/-- The tightest category that the expression can be written in without parentheses. -/
def category : Expr → Category
  | .binary op _ _ => .chain op.level
  | .negate _ | .not _ => .signed
  | .index _ _ | .member _ _ | .call _ _ => .applied
  | .number _ | .scientific _ _ | .amount _ _ | .string _ | .bool _ | .variable _ => .atom

/-- The expression is a literal that a denomination can follow. -/
def isNumeral : Expr → Bool
  | .number _ | .scientific _ _ => true
  | _ => false

mutual

/-- The texts in the expression have the form of tokens, and only literals have denominations. -/
def WellFormed : Expr → Prop
  | .number text => Token.decimal.Spells text.toList ∨ Token.hex.Spells text.toList
  | .scientific mantissa exponent => Digits 10 mantissa.toList ∧ Digits 10 exponent.toList
  | .amount value _ => value.isNumeral = true ∧ value.WellFormed
  | .negate operand => operand.WellFormed
  | .string raw => Token.string.Spells raw.toList
  | .bool _ => True
  | .variable name => Token.name.Spells name.toList ∧ booleanWord? name = none
  | .binary _ left right => left.WellFormed ∧ right.WellFormed
  | .not operand => operand.WellFormed
  | .index target position => target.WellFormed ∧ position.WellFormed
  | .member target name => target.WellFormed ∧ Token.name.Spells name.toList
  | .call callee args => callee.WellFormed ∧ WellFormedAll args
termination_by structural expr => expr

def WellFormedAll : List Expr → Prop
  | [] => True
  | expr :: rest => expr.WellFormed ∧ WellFormedAll rest
termination_by structural exprs => exprs

end

end Expr

mutual

/-- The words write the expression where a phrase of the category is due. -/
inductive Written : Category → Expr → List String → Prop where
  | bare {category : Category} {expr : Expr} {words : List String}
      (fits : expr.category.rank ≤ category.rank) (plain : WrittenPlain expr words) :
      Written category expr words
  | grouped {category : Category} {expr : Expr} {words : List String}
      (inner : Written .whole expr words) : Written category expr ("(" :: (words ++ [")"]))

/-- The words write the expression without parentheses around it. -/
inductive WrittenPlain : Expr → List String → Prop where
  | number {text : String} : WrittenPlain (.number text) [text]
  | scientific {mantissa exponent mark : String} (isMark : mark = "e" ∨ mark = "E") :
      WrittenPlain (.scientific mantissa exponent) [mantissa ++ mark ++ exponent]
  | amount {value : Expr} {unit : Denomination} {literal : String}
      (inner : WrittenPlain value [literal]) :
      WrittenPlain (.amount value unit) [literal, unit.word]
  | string {raw : String} : WrittenPlain (.string raw) [raw]
  | bool {value : Bool} {word : String} (reserved : booleanWord? word = some value) :
      WrittenPlain (.bool value) [word]
  | variable {name : String} : WrittenPlain (.variable name) [name]
  | not {operand : Expr} {words : List String} (inner : Written .signed operand words) :
      WrittenPlain (.not operand) ("!" :: words)
  | negate {operand : Expr} {words : List String} (inner : Written .signed operand words) :
      WrittenPlain (.negate operand) ("-" :: words)
  | binary {op : Operator} {left right : Expr} {before after : List String}
      (first : Written (.chain op.level) left before)
      (second : Written (.ofOperands op.level) right after) :
      WrittenPlain (.binary op left right) (before ++ op.symbol :: after)
  | member {target : Expr} {name : String} {words : List String}
      (inner : Written .applied target words) :
      WrittenPlain (.member target name) (words ++ [".", name])
  | index {target position : Expr} {words inside : List String}
      (inner : Written .applied target words) (middle : Written .whole position inside) :
      WrittenPlain (.index target position) (words ++ "[" :: (inside ++ ["]"]))
  | call {callee : Expr} {words : List String} (inner : Written .applied callee words) :
      WrittenPlain (.call callee []) (words ++ ["(", ")"])
  | callWith {callee : Expr} {args : List Expr} {words inside : List String}
      (inner : Written .applied callee words) (middle : WrittenArguments args inside) :
      WrittenPlain (.call callee args) (words ++ "(" :: (inside ++ [")"]))

/-- The words write one or more expressions with commas between them. -/
inductive WrittenArguments : List Expr → List String → Prop where
  | one {expr : Expr} {words : List String} (only : Written .whole expr words) :
      WrittenArguments [expr] words
  | more {expr : Expr} {args : List Expr} {words later : List String}
      (first : Written .whole expr words) (rest : WrittenArguments args later) :
      WrittenArguments (expr :: args) (words ++ "," :: later)

end

theorem startsName_toLower {c : Char} (lowered : Lexer.startsName c.toLower = true) :
    Lexer.startsName c = true := by
  unfold Char.toLower at lowered
  split at lowered
  · rename_i upper
    have upper : c.isUpper = true := by simpa [Char.isUpper] using upper
    simp [Lexer.startsName, Char.isAlpha, upper]
  · exact lowered

theorem name_spells_of_lowered {chars letters : List Char}
    (lowered : chars.map Char.toLower = letters) (some : letters ≠ [])
    (names : letters.all Lexer.startsName = true) : Token.name.Spells chars := by
  have starts : ∀ c ∈ chars, Lexer.startsName c = true := by
    intro c member
    subst letters
    exact startsName_toLower (List.all_eq_true.mp names _ (List.mem_map_of_mem member))
  cases chars with
  | nil => exact absurd lowered.symm some
  | cons first rest =>
      refine ⟨first, rest, rfl, starts first (by simp), fun c member => ?_⟩
      simp [Lexer.continuesName, starts c (by simp [member])]

theorem booleanWord?_spells {word : String} {value : Bool}
    (reserved : booleanWord? word = some value) : Token.name.Spells word.toList := by
  unfold booleanWord? at reserved
  dsimp only at reserved
  split at reserved
  · rename_i lowered
    exact name_spells_of_lowered lowered (by decide) (by decide)
  · split at reserved
    · rename_i lowered
      exact name_spells_of_lowered lowered (by decide) (by decide)
    · contradiction

theorem written_anywhere {expr : Expr} (plain : ∃ words, WrittenPlain expr words)
    (category : Category) : ∃ words, Written category expr words := by
  obtain ⟨words, plain⟩ := plain
  by_cases fits : expr.category.rank ≤ category.rank
  · exact ⟨words, .bare fits plain⟩
  · exact ⟨_, .grouped (.bare (Category.rank_le_whole _) plain)⟩

mutual

theorem writtenPlain_of_wellFormed : (expr : Expr) → expr.WellFormed →
    ∃ words, WrittenPlain expr words
  | .number _, _ => ⟨_, .number⟩
  | .scientific _ _, _ => ⟨_, .scientific (.inl rfl)⟩
  | .amount value _, ⟨isNumeral, _⟩ => by
      cases value with
      | number => exact ⟨_, .amount .number⟩
      | scientific => exact ⟨_, .amount (.scientific (.inl rfl))⟩
      | _ => contradiction
  | .string _, _ => ⟨_, .string⟩
  | .bool true, _ => ⟨["true"], .bool (by decide)⟩
  | .bool false, _ => ⟨["false"], .bool (by decide)⟩
  | .variable _, _ => ⟨_, .variable⟩
  | .negate operand, wellFormed => by
      obtain ⟨words, inner⟩ :=
        written_anywhere (writtenPlain_of_wellFormed operand wellFormed) .signed
      exact ⟨_, .negate inner⟩
  | .not operand, wellFormed => by
      obtain ⟨words, inner⟩ :=
        written_anywhere (writtenPlain_of_wellFormed operand wellFormed) .signed
      exact ⟨_, .not inner⟩
  | .binary op left right, ⟨wellLeft, wellRight⟩ => by
      obtain ⟨before, first⟩ :=
        written_anywhere (writtenPlain_of_wellFormed left wellLeft) (.chain op.level)
      obtain ⟨after, second⟩ :=
        written_anywhere (writtenPlain_of_wellFormed right wellRight) (.ofOperands op.level)
      exact ⟨_, .binary first second⟩
  | .index target position, ⟨wellTarget, wellPosition⟩ => by
      obtain ⟨words, inner⟩ :=
        written_anywhere (writtenPlain_of_wellFormed target wellTarget) .applied
      obtain ⟨inside, middle⟩ :=
        written_anywhere (writtenPlain_of_wellFormed position wellPosition) .whole
      exact ⟨_, .index inner middle⟩
  | .member target _, ⟨wellTarget, _⟩ => by
      obtain ⟨words, inner⟩ :=
        written_anywhere (writtenPlain_of_wellFormed target wellTarget) .applied
      exact ⟨_, .member inner⟩
  | .call callee args, ⟨wellCallee, wellArgs⟩ => by
      obtain ⟨words, inner⟩ :=
        written_anywhere (writtenPlain_of_wellFormed callee wellCallee) .applied
      rcases writtenArguments_of_wellFormed args wellArgs with rfl | ⟨inside, middle⟩
      · exact ⟨_, .call inner⟩
      · exact ⟨_, .callWith inner middle⟩

theorem writtenArguments_of_wellFormed : (args : List Expr) → Expr.WellFormedAll args →
    args = [] ∨ ∃ words, WrittenArguments args words
  | [], _ => .inl rfl
  | expr :: rest, ⟨wellFirst, wellRest⟩ => by
      obtain ⟨words, first⟩ :=
        written_anywhere (writtenPlain_of_wellFormed expr wellFirst) .whole
      rcases writtenArguments_of_wellFormed rest wellRest with rfl | ⟨later, others⟩
      · exact .inr ⟨words, .one first⟩
      · exact .inr ⟨_, .more first others⟩

end

end EtherCalc
