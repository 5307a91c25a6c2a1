import EtherCalc.Proofs.Language.Writing
import EtherCalc.Proofs.Lexer.Separation
import EtherCalc.Proofs.Parser.Recognition

namespace EtherCalc

variable {tokens : List Lexeme} {word : String} {words before after : List String}

theorem NumberLiteral.wellFormed {lexeme : Lexeme} {literal : Expr}
    (isNumber : NumberLiteral lexeme literal) (spelled : lexeme.token.Spells lexeme.text.toList) :
    literal.WellFormed ∧ literal.isNumeral = true := by
  cases isNumber with
  | decimal token =>
      rw [token] at spelled
      exact ⟨.inl spelled, rfl⟩
  | hex token =>
      rw [token] at spelled
      exact ⟨.inr spelled, rfl⟩
  | scientific token divided isMark isFirst =>
      rw [token] at spelled
      obtain ⟨mantissa, mark, exponent, dividedToo, isMarkToo, digits, more⟩ := spelled
      have parts := Parser.scientificParts_eq divided isMark isFirst
      have partsToo : Parser.scientificParts lexeme.text =
          .scientific (String.ofList mantissa) (String.ofList exponent) :=
        Parser.scientificParts_eq (by simpa only [String.toList_ofList] using dividedToo) isMarkToo
          (by simpa only [String.toList_ofList] using Parser.digits_no_mark digits)
      cases parts.symm.trans partsToo
      simp only [Expr.WellFormed, String.toList_ofList]
      exact ⟨⟨digits, more⟩, rfl⟩

mutual

theorem Derives.wellFormed {category : Category} {phrase : List Lexeme} {expr : Expr}
    (derives : Derives category phrase expr) (spelled : Spelled phrase) : expr.WellFormed := by
  match derives with
  | .operand inner | .unsigned inner | .bare inner => exact inner.wellFormed spelled
  | .binary first _ second =>
      exact ⟨first.wellFormed spelled.before, second.wellFormed spelled.of_append.tail⟩
  | .not _ inner | .negate _ inner => exact inner.wellFormed spelled.tail
  | @Derives.member dot name _ _ inner _ named =>
      have nameSpelled := spelled name (by simp)
      rw [named] at nameSpelled
      exact ⟨inner.wellFormed spelled.before, nameSpelled⟩
  | .index inner _ middle _ =>
      exact ⟨inner.wellFormed spelled.before, middle.wellFormed spelled.of_append.tail.before⟩
  | .call inner _ _ => exact ⟨inner.wellFormed spelled.before, trivial⟩
  | .callWith inner _ middle _ =>
      exact ⟨inner.wellFormed spelled.before, middle.wellFormed spelled.of_append.tail.before⟩
  | @Derives.number lexeme _ isNumber => exact (isNumber.wellFormed (spelled lexeme (by simp))).1
  | @Derives.amount lexeme _ _ _ isNumber _ _ =>
      obtain ⟨wellFormed, isNumeral⟩ := isNumber.wellFormed (spelled lexeme (by simp))
      exact ⟨isNumeral, wellFormed⟩
  | @Derives.string lexeme token =>
      have quoted := spelled lexeme (by simp)
      rwa [token] at quoted
  | .bool _ _ => trivial
  | @Derives.variable lexeme token free =>
      have named := spelled lexeme (by simp)
      rw [token] at named
      exact ⟨named, free⟩
  | .group _ inner _ => exact inner.wellFormed spelled.tail.before

theorem DerivesArguments.wellFormed {phrase : List Lexeme} {args : List Expr}
    (derives : DerivesArguments phrase args) (spelled : Spelled phrase) :
    Expr.WellFormedAll args := by
  match derives with
  | .one only => exact ⟨only.wellFormed spelled, trivial⟩
  | .more first _ rest =>
      exact ⟨first.wellFormed spelled.before, rest.wellFormed spelled.of_append.tail⟩

end

/-- The lexemes have the words as their texts, each with a kind that it has the form of. -/
structure Reads (tokens : List Lexeme) (words : List String) : Prop where
  texts : tokens.map Lexeme.text = words
  spelled : Spelled tokens

theorem Reads.nil (reads : Reads tokens []) : tokens = [] :=
  List.map_eq_nil_iff.mp reads.texts

theorem Reads.cons (reads : Reads tokens (word :: words)) (kind : Token)
    (spells : kind.Spells word.toList) :
    ∃ lexeme rest, tokens = lexeme :: rest ∧ lexeme.token = kind ∧ lexeme.text = word ∧
      Reads rest words := by
  obtain ⟨lexeme, rest, rfl, rfl, texts⟩ := List.map_eq_cons_iff.mp reads.texts
  have spelled := reads.spelled lexeme (by simp)
  exact ⟨lexeme, rest, rfl, Lexer.spells_unique spelled spells, rfl, texts, reads.spelled.tail⟩

theorem Reads.append (reads : Reads tokens (before ++ after)) :
    ∃ first rest, tokens = first ++ rest ∧ Reads first before ∧ Reads rest after := by
  obtain ⟨first, rest, rfl, textsFirst, textsRest⟩ := List.map_eq_append_iff.mp reads.texts
  exact ⟨first, rest, rfl, ⟨textsFirst, reads.spelled.before⟩, textsRest, reads.spelled.of_append⟩

theorem Reads.single (reads : Reads tokens [word]) (kind : Token)
    (spells : kind.Spells word.toList) :
    ∃ lexeme, tokens = [lexeme] ∧ lexeme.token = kind ∧ lexeme.text = word := by
  obtain ⟨lexeme, rest, rfl, token, text, reads⟩ := reads.cons kind spells
  cases reads.nil
  exact ⟨lexeme, rfl, token, text⟩

theorem scientific_divided (mantissa exponent : String) {mark : String}
    (isMark : mark = "e" ∨ mark = "E") :
    ∃ c, (c = 'e' ∨ c = 'E') ∧
      (mantissa ++ mark ++ exponent).toList = mantissa.toList ++ c :: exponent.toList := by
  rcases isMark with rfl | rfl
  · exact ⟨'e', .inl rfl, by simp⟩
  · exact ⟨'E', .inr rfl, by simp⟩

theorem Denomination.word_spells (unit : Denomination) : Token.name.Spells unit.word.toList := by
  cases unit with
  | ether =>
      exact ⟨'e', ['t', 'h', 'e', 'r'], by simp [word], by decide, List.all_eq_true.mp (by decide)⟩
  | gwei =>
      exact ⟨'g', ['w', 'e', 'i'], by simp [word], by decide, List.all_eq_true.mp (by decide)⟩
  | wei => exact ⟨'w', ['e', 'i'], by simp [word], by decide, List.all_eq_true.mp (by decide)⟩

/-- The kind of a literal's word, by which the parser finds the literal again. -/
theorem WrittenPlain.literal {value : Expr} {words : List String}
    (written : WrittenPlain value words) (isNumeral : value.isNumeral = true)
    (wellFormed : value.WellFormed) : ∃ word kind, words = [word] ∧ kind.Spells word.toList ∧
      ∀ lexeme : Lexeme, lexeme.token = kind → lexeme.text = word → NumberLiteral lexeme value := by
  cases written with
  | @number text =>
      rcases wellFormed with spells | spells
      · refine ⟨text, .decimal, rfl, spells, ?_⟩
        rintro lexeme token rfl
        exact .decimal token
      · refine ⟨text, .hex, rfl, spells, ?_⟩
        rintro lexeme token rfl
        exact .hex token
  | @scientific mantissa exponent mark isMark =>
      obtain ⟨digits, more⟩ := wellFormed
      obtain ⟨c, isMark, divided⟩ := scientific_divided mantissa exponent isMark
      refine ⟨_, .scientific, rfl, ⟨_, c, _, divided, isMark, digits, more⟩, ?_⟩
      rintro lexeme token text
      exact .scientific token (text ▸ divided) isMark (Parser.digits_no_mark digits)
  | _ => contradiction

theorem WrittenPlain.derives_literal {value : Expr} (written : WrittenPlain value words)
    (isNumeral : value.isNumeral = true) (wellFormed : value.WellFormed)
    (reads : Reads tokens words) : Derives .atom tokens value := by
  obtain ⟨_, kind, rfl, spells, isLiteral⟩ := written.literal isNumeral wellFormed
  obtain ⟨lexeme, rfl, token, text⟩ := reads.single kind spells
  exact .number (isLiteral lexeme token text)

mutual

theorem Written.derives {category : Category} {expr : Expr} {words : List String}
    {tokens : List Lexeme} (written : Written category expr words) (wellFormed : expr.WellFormed)
    (reads : Reads tokens words) : Derives category tokens expr := by
  match written with
  | .bare fits plain => exact (plain.derives wellFormed reads).widen fits
  | .grouped inner =>
      obtain ⟨opening, rest, rfl, opens, _, reads⟩ := reads.cons (.mark .openParen) rfl
      obtain ⟨phrase, rest, rfl, readsInner, reads⟩ := reads.append
      obtain ⟨closing, rfl, closes, _⟩ := reads.single (.mark .closeParen) rfl
      have grouped := Derives.group opens (inner.derives wellFormed readsInner) closes
      exact grouped.widen (Nat.zero_le _)

theorem WrittenPlain.derives {expr : Expr} {words : List String} {tokens : List Lexeme}
    (written : WrittenPlain expr words) (wellFormed : expr.WellFormed)
    (reads : Reads tokens words) : Derives expr.category tokens expr := by
  match written with
  | .number => exact WrittenPlain.number.derives_literal rfl wellFormed reads
  | .scientific isMark => exact (WrittenPlain.scientific isMark).derives_literal rfl wellFormed reads
  | .amount inner =>
      obtain ⟨isNumeral, wellFormed⟩ := wellFormed
      obtain ⟨_, kind, same, spells, isLiteral⟩ := inner.literal isNumeral wellFormed
      cases same
      obtain ⟨lexeme, rest, rfl, token, text, reads⟩ := reads.cons kind spells
      obtain ⟨unit, rfl, named, isUnit⟩ := reads.single .name (Denomination.word_spells _)
      exact .amount (isLiteral lexeme token text) named isUnit
  | .string =>
      obtain ⟨lexeme, rfl, token, rfl⟩ := reads.single .string wellFormed
      exact .string token
  | .bool reserved =>
      obtain ⟨lexeme, rfl, token, rfl⟩ := reads.single .name (booleanWord?_spells reserved)
      exact .bool token reserved
  | .variable =>
      obtain ⟨lexeme, rfl, token, rfl⟩ := reads.single .name wellFormed.1
      exact .variable token wellFormed.2
  | .not inner =>
      obtain ⟨sign, phrase, rfl, token, _, reads⟩ := reads.cons (.mark .bang) rfl
      exact .not token (inner.derives wellFormed reads)
  | .negate inner =>
      obtain ⟨sign, phrase, rfl, token, _, reads⟩ := reads.cons (.mark .minus) rfl
      exact .negate token (inner.derives wellFormed reads)
  | @WrittenPlain.binary op _ _ _ _ first second =>
      obtain ⟨before, rest, rfl, readsFirst, reads⟩ := reads.append
      obtain ⟨sign, after, rfl, token, _, reads⟩ := reads.cons (.mark op.mark) (by
        rw [Token.Spells, Operator.spelling_mark])
      exact .binary (first.derives wellFormed.1 readsFirst) token
        (second.derives wellFormed.2 reads)
  | .member inner =>
      obtain ⟨phrase, rest, rfl, readsInner, reads⟩ := reads.append
      obtain ⟨dot, rest, rfl, token, _, reads⟩ := reads.cons (.mark .dot) rfl
      obtain ⟨name, rfl, named, rfl⟩ := reads.single .name wellFormed.2
      exact .member (inner.derives wellFormed.1 readsInner) token named
  | .index inner middle =>
      obtain ⟨phrase, rest, rfl, readsInner, reads⟩ := reads.append
      obtain ⟨opening, rest, rfl, opens, _, reads⟩ := reads.cons (.mark .openBracket) rfl
      obtain ⟨inside, rest, rfl, readsMiddle, reads⟩ := reads.append
      obtain ⟨closing, rfl, closes, _⟩ := reads.single (.mark .closeBracket) rfl
      exact .index (inner.derives wellFormed.1 readsInner) opens
        (middle.derives wellFormed.2 readsMiddle) closes
  | .call inner =>
      obtain ⟨phrase, rest, rfl, readsInner, reads⟩ := reads.append
      obtain ⟨opening, rest, rfl, opens, _, reads⟩ := reads.cons (.mark .openParen) rfl
      obtain ⟨closing, rfl, closes, _⟩ := reads.single (.mark .closeParen) rfl
      exact .call (inner.derives wellFormed.1 readsInner) opens closes
  | .callWith inner middle =>
      obtain ⟨phrase, rest, rfl, readsInner, reads⟩ := reads.append
      obtain ⟨opening, rest, rfl, opens, _, reads⟩ := reads.cons (.mark .openParen) rfl
      obtain ⟨inside, rest, rfl, readsMiddle, reads⟩ := reads.append
      obtain ⟨closing, rfl, closes, _⟩ := reads.single (.mark .closeParen) rfl
      exact .callWith (inner.derives wellFormed.1 readsInner) opens
        (middle.derives wellFormed.2 readsMiddle) closes

theorem WrittenArguments.derives {args : List Expr} {words : List String} {tokens : List Lexeme}
    (written : WrittenArguments args words) (wellFormed : Expr.WellFormedAll args)
    (reads : Reads tokens words) : DerivesArguments tokens args := by
  match written with
  | .one only => exact .one (only.derives wellFormed.1 reads)
  | .more first rest =>
      obtain ⟨phrase, others, rfl, readsFirst, reads⟩ := reads.append
      obtain ⟨comma, later, rfl, token, _, reads⟩ := reads.cons (.mark .comma) rfl
      exact .more (first.derives wellFormed.1 readsFirst) token (rest.derives wellFormed.2 reads)

end

namespace Lexer

theorem Readable.nil : Readable [] :=
  nofun

theorem Readable.cons (kind : Token) (spells : kind.Spells word.toList)
    (readable : Readable words) : Readable (word :: words) := by
  intro other member
  rcases List.mem_cons.mp member with rfl | member
  · exact ⟨kind, spells⟩
  · exact readable other member

theorem Readable.append (first : Readable before) (second : Readable after) :
    Readable (before ++ after) :=
  fun word member => (List.mem_append.mp member).elim (first word) (second word)

end Lexer

open Lexer (Readable Spaced spread)

theorem WrittenPlain.readable_literal {value : Expr} (written : WrittenPlain value words)
    (isNumeral : value.isNumeral = true) (wellFormed : value.WellFormed) : Readable words := by
  obtain ⟨_, kind, rfl, spells, _⟩ := written.literal isNumeral wellFormed
  exact .cons kind spells .nil

mutual

theorem Written.readable {category : Category} {expr : Expr} {words : List String}
    (written : Written category expr words) (wellFormed : expr.WellFormed) : Readable words := by
  match written with
  | .bare _ plain => exact plain.readable wellFormed
  | .grouped inner =>
      exact .cons (.mark .openParen) rfl
        ((inner.readable wellFormed).append (.cons (.mark .closeParen) rfl .nil))

theorem WrittenPlain.readable {expr : Expr} {words : List String}
    (written : WrittenPlain expr words) (wellFormed : expr.WellFormed) : Readable words := by
  match written with
  | .number => exact WrittenPlain.number.readable_literal rfl wellFormed
  | .scientific isMark =>
      exact (WrittenPlain.scientific isMark).readable_literal rfl wellFormed
  | .amount inner =>
      exact (inner.readable wellFormed.2).append (.cons .name (Denomination.word_spells _) .nil)
  | .string => exact .cons .string wellFormed .nil
  | .bool reserved => exact .cons .name (booleanWord?_spells reserved) .nil
  | .variable => exact .cons .name wellFormed.1 .nil
  | .not inner => exact .cons (.mark .bang) rfl (inner.readable wellFormed)
  | .negate inner => exact .cons (.mark .minus) rfl (inner.readable wellFormed)
  | @WrittenPlain.binary op _ _ _ _ first second =>
      have spells : (Token.mark op.mark).Spells op.symbol.toList := by
        rw [Token.Spells, Operator.spelling_mark]
      exact (first.readable wellFormed.1).append
        (.cons _ spells (second.readable wellFormed.2))
  | .member inner =>
      exact (inner.readable wellFormed.1).append
        (.cons (.mark .dot) rfl (.cons .name wellFormed.2 .nil))
  | .index inner middle =>
      exact (inner.readable wellFormed.1).append (.cons (.mark .openBracket) rfl
        ((middle.readable wellFormed.2).append (.cons (.mark .closeBracket) rfl .nil)))
  | .call inner =>
      exact (inner.readable wellFormed.1).append
        (.cons (.mark .openParen) rfl (.cons (.mark .closeParen) rfl .nil))
  | .callWith inner middle =>
      exact (inner.readable wellFormed.1).append (.cons (.mark .openParen) rfl
        ((middle.readable wellFormed.2).append (.cons (.mark .closeParen) rfl .nil)))

theorem WrittenArguments.readable {args : List Expr} {words : List String}
    (written : WrittenArguments args words) (wellFormed : Expr.WellFormedAll args) :
    Readable words := by
  match written with
  | .one only => exact only.readable wellFormed.1
  | .more first rest =>
      exact (first.readable wellFormed.1).append
        (.cons (.mark .comma) rfl (rest.readable wellFormed.2))

end

namespace Parser

variable {limit : Nat} {source : String} {expr : Expr}

theorem parse_wellFormed (done : parse limit source = .ok expr) : expr.WellFormed := by
  obtain ⟨tokens, lexed, derives⟩ := parse_sound done
  exact derives.wellFormed (lexemes_spelled lexed)

theorem parse_of_texts {tokens : List Lexeme} (wellFormed : expr.WellFormed)
    (written : Written .whole expr words) (lexed : lexemes source = .ok tokens)
    (texts : tokens.map Lexeme.text = words) (enough : words.length ≤ limit) :
    parse limit source = .ok expr := by
  have reads : Reads tokens words := ⟨texts, lexemes_spelled lexed⟩
  rw [← texts, List.length_map] at enough
  exact parse_complete lexed (written.derives wellFormed reads) enough

theorem parse_written (wellFormed : expr.WellFormed) (written : Written .whole expr words)
    (spaced : Spaced words source.toList) (enough : words.length ≤ limit) :
    parse limit source = .ok expr := by
  obtain ⟨tokens, lexed, texts⟩ := lexemes_of_spaced spaced (written.readable wellFormed)
  exact parse_of_texts wellFormed written lexed texts enough

/-- The parser returns well-formed expressions, every well-formed expression can be written, and
it is what the parser returns of each text in which it is written. -/
theorem parse_inverts_writing :
    (∀ limit source expr, parse limit source = .ok expr → expr.WellFormed) ∧
    (∀ expr : Expr, expr.WellFormed →
      (∃ (words : List String) (source : String),
        Written .whole expr words ∧ Spaced words source.toList) ∧
      ∀ words source limit, Written .whole expr words → Spaced words source.toList →
        words.length ≤ limit → parse limit source = .ok expr) := by
  constructor
  · intro limit source expr done
    exact parse_wellFormed done
  · intro expr wellFormed
    constructor
    · obtain ⟨words, written⟩ :=
        written_anywhere (writtenPlain_of_wellFormed expr wellFormed) .whole
      refine ⟨words, String.ofList (spread words), written, ?_⟩
      rw [String.toList_ofList]
      exact Lexer.spaced_spread words
    · intro words source limit written spaced enough
      exact parse_written wellFormed written spaced enough

/-- Two pairs of parentheses leave no trace in the tree. -/
theorem parse_inverts_writing_parens :
    let expr : Expr := .not (.binary .sub (.amount (.number "0x1e") .wei) (.bool true))
    expr.WellFormed ∧ parse 9 "! ( ( 0x1e wei - TRUE ) ) " = .ok expr := by
  intro expr
  let words := ["!", "(", "(", "0x1e", "wei", "-", "TRUE", ")", ")"]
  have wellFormed : expr.WellFormed := parse_inverts_writing.1 7 "!(0x1e wei-true)" expr (by cbv)
  have inner : Written .whole (.binary .sub (.amount (.number "0x1e") .wei) (.bool true))
      ["0x1e", "wei", "-", "TRUE"] :=
    .bare (by decide) (.binary (.bare (by decide) (.amount .number))
      (.bare (by decide) (.bool (by decide))))
  have written : Written .whole expr words := .bare (by decide) (.not (.grouped (.grouped inner)))
  have text : "! ( ( 0x1e wei - TRUE ) ) ".toList = spread words := by decide
  have spaced : Spaced words "! ( ( 0x1e wei - TRUE ) ) ".toList :=
    text ▸ Lexer.spaced_spread words
  exact ⟨wellFormed, (parse_inverts_writing.2 expr wellFormed).2 words _ 9 written spaced
    (by decide)⟩

end Parser

end EtherCalc
