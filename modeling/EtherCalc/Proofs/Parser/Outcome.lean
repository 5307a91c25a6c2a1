import EtherCalc.Proofs.Parser.Locality

namespace EtherCalc.Parser

namespace Reader

def ending (expr : Expr) : Reader Expr := fun _ _ tokens =>
  match tokens with
  | [] => .ok (expr, [])
  | next :: rest => .error ⟨.trailing next.token, next :: rest⟩

def source : Reader Expr :=
  (phrase .whole).andThen ending

end Reader

section

variable {limit room larger : Nat} {fault : ParseFault} {expr : Expr}
variable {tokens other rest : List Lexeme}

theorem parseTokens_eq : parseTokens limit tokens =
    (Reader.source limit limit tokens).map fun read => read.1 := by
  rw [parseTokens, Reader.source, Reader.andThen, Reader.phrase, read]
  rcases chain limit .disjunction limit tokens with refusal | ⟨first, _ | ⟨next, rest⟩, shorter⟩ <;>
    rfl

/-- A rank that no lexeme stops. -/
def endRank : Nat := 8

theorem stops_endRank (stops : Stops endRank rest) : rest = [] := by
  cases rest with
  | nil => rfl
  | cons next rest =>
      have bounded : next.token.bond ≤ endRank := by
        cases next.token with
        | mark symbol => cases symbol <;> decide
        | _ => decide
      exact absurd stops (Nat.not_lt_of_le bounded)

theorem ending_stops (stops : Stops endRank rest) :
    Reader.ending expr limit room rest = .ok (expr, rest) := by
  rw [stops_endRank stops]
  rfl

theorem source_reading : Reading .source endRank limit room tokens := by
  refine (phrase_reading .whole).thenMore (by decide)
    (fun _ _ stops => ⟨_, ending_stops stops⟩) fun {expr rest} _ => ?_
  cases rest with
  | nil =>
      refine .stop expr fun _ _ rest follow => ?_
      rcases follow with alike | stops
      · rw [beginAlike_nil alike]
        rfl
      · exact ending_stops stops
  | cons next rest =>
      refine .refuse (.trailing next.token) rfl (fun limit room rest alike => ?_) ?_
      · obtain ⟨lead, rest, rfl, word⟩ := beginAlike_cons alike
        rw [← (word_eq_iff.mp word).1]
        rfl
      · exact ⟨[], nofun, nofun, fun after stops => ⟨expr, ending_stops stops⟩⟩

theorem source_leaves (done : Reader.source limit room tokens = .ok (expr, rest)) : rest = [] := by
  obtain ⟨⟨first, left⟩, _, ended⟩ := bind_eq_ok.mp done
  cases left with
  | nil =>
      cases ended
      rfl
  | cons next left => contradiction

/-- A larger limit gives the same expression, wherever the lexemes stand. -/
theorem parseTokens_raise (done : parseTokens limit tokens = .ok expr) (le : limit ≤ larger)
    (same : other.map Lexeme.word = tokens.map Lexeme.word) : parseTokens larger other = .ok expr := by
  have reading : Reading .source endRank limit limit tokens := source_reading
  rw [parseTokens_eq] at done ⊢
  obtain ⟨⟨found, left⟩, reached, rfl⟩ := map_eq_ok.mp done
  cases reading with
  | exhausted _ outcome _ => cases outcome.symm.trans reached
  | @refused phrase rest fault split _ again _ =>
      rw [split, again.here rfl] at reached
      contradiction
  | @finished phrase rest value split again =>
      have here : Reader.source limit limit (phrase ++ rest) = .ok (value, rest) :=
        again.here (.inl rfl)
      rw [split, here] at reached
      cases reached
      -- The whole list was the phrase, so the other list is read to its end too.
      obtain rfl := source_leaves here
      rw [List.append_nil] at split
      subst split
      have repeated : Reader.source larger larger (other ++ []) = .ok (found, []) :=
        again le same (.inl rfl)
      rw [List.append_nil] at repeated
      rw [repeated]
      rfl

/-- The words before the place of a refusal could have been completed; with the word that stands
there they are refused whatever comes later. -/
theorem parseTokens_refused (failed : parseTokens limit tokens = .error ⟨fault, rest⟩)
    (ownFault : fault.isTooDeep = false) :
    ∃ before, tokens = before ++ rest ∧
      (∀ {larger : Nat} {before' rest' : List Lexeme}, limit ≤ larger →
        before'.map Lexeme.word = before.map Lexeme.word → BeginAlike rest rest' →
          parseTokens larger (before' ++ rest') = .error ⟨fault, rest'⟩) ∧
      ∃ closing, Spelled closing ∧ (rest = [] → closing ≠ []) ∧
        ∃ expr, parseTokens limit (before ++ closing) = .ok expr := by
  have reading : Reading .source endRank limit limit tokens := source_reading
  rw [parseTokens_eq] at failed
  cases reading with
  | exhausted _ outcome _ =>
      rw [outcome] at failed
      cases failed
      contradiction
  | @finished phrase left value split again =>
      rw [split, again.here (.inl rfl)] at failed
      contradiction
  | @refused before left found split _ again completes =>
      rw [split, again.here rfl] at failed
      cases failed
      obtain ⟨closing, spelled, some, completes⟩ := completes
      obtain ⟨expr, done⟩ := completes [] trivial
      refine ⟨before, split, ?_, closing, spelled, some, expr, ?_⟩
      · intro larger before' rest' le same alike
        rw [parseTokens_eq, again le same alike]
        rfl
      · rw [List.append_nil] at done
        rw [parseTokens_eq, done]
        rfl

theorem parseTokens_tooDeep (failed : parseTokens limit tokens = .error ⟨fault, rest⟩)
    (tooDeep : fault.isTooDeep = true) : fault = .tooDeep limit ∧ limit < tokens.length := by
  have reading : Reading .source endRank limit limit tokens := source_reading
  rw [parseTokens_eq] at failed
  cases reading with
  | exhausted _ outcome short =>
      rw [outcome] at failed
      cases failed
      exact ⟨rfl, short⟩
  | @finished phrase left value split again =>
      rw [split, again.here (.inl rfl)] at failed
      contradiction
  | @refused before left found split ownFault again _ =>
      rw [split, again.here rfl] at failed
      cases failed
      rw [ownFault] at tooDeep
      contradiction

/-- Whatever the fault is, a refusal stands at one of the lexemes or at the end. -/
theorem parseTokens_suffix (failed : parseTokens limit tokens = .error ⟨fault, rest⟩) :
    rest <:+ tokens := by
  have reading : Reading .source endRank limit limit tokens := source_reading
  rw [parseTokens_eq] at failed
  cases reading with
  | exhausted inside outcome _ =>
      rw [outcome] at failed
      cases failed
      exact inside
  | @finished phrase left value split again =>
      rw [split, again.here (.inl rfl)] at failed
      contradiction
  | @refused before left found split _ again _ =>
      rw [split, again.here rfl] at failed
      cases failed
      exact ⟨before, split.symm⟩

end

end EtherCalc.Parser
