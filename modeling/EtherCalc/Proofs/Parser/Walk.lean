import EtherCalc.Proofs.Parser.Plain
import Mathlib

/-!
The parser as a walk over an array of lexemes.

A walk has a place in the array and a counter of the nesting steps that are taken.  The counter
goes up by one when a construct opens and down again when it is complete, for a loop by all of its
steps at once, and cannot go below zero.

Each of the six functions that call one another is handed a number of calls that may be nested in
one another and hands on one less; the loops are no calls.  A loop may take a turn for each lexeme
that is left when it begins, and one more.  A walk that needs more calls or turns has no outcome.
-/

namespace EtherCalc.Parser

/-- Where a walk stands: the number of lexemes taken, the nesting steps taken, and the values that
the counter of these has been given on the way. -/
structure Cursor where
  pos : Nat
  depth : Nat
  past : List Nat
deriving DecidableEq, Repr

def Cursor.count (cursor : Cursor) (depth : Nat) : Cursor :=
  { cursor with depth, past := depth :: cursor.past }

/-- Why a walk halts before its end. -/
inductive Halt where
  | refused (refusal : Refusal)
  /-- More nesting steps are given back than are taken. -/
  | underflow
deriving DecidableEq, Repr

/-- A walk over the lexemes.  It has no outcome if its calls or the turns of a loop are used up. -/
abbrev Walk : Type → Type :=
  StateT Cursor (ExceptT Halt Option)

namespace Walk

variable {α : Type}

def outcome? (walk : Walk α) (cursor : Cursor) : Option (Except Halt (α × Cursor)) :=
  (walk.run cursor).run

def usedUp : Walk α :=
  fun _ => .mk none

section

variable (limit : Nat) (tokens : List Lexeme)

def peek : Walk (Option Lexeme) := do
  return tokens[(← get).pos]?

/-- The lexemes that are not taken yet. -/
def remaining : Walk (List Lexeme) := do
  return tokens.drop (← get).pos

def refuse (fault : ParseFault) (rest : List Lexeme) : Walk α :=
  throw (.refused ⟨fault, rest⟩)

def skip : Walk Unit :=
  modify fun cursor => { cursor with pos := cursor.pos + 1 }

def advance : Walk Lexeme := do
  match ← peek tokens with
  | none => refuse .endOfInput []
  | some next =>
      skip
      return next

def expect (wanted : Token) : Walk String := do
  let rest ← remaining tokens
  let next ← advance tokens
  if next.token = wanted then return next.text
  else refuse (.expected wanted next.token) rest

/-- Takes a nesting step.  The counter is raised before it is compared with the limit. -/
def descend : Walk Unit := do
  let cursor ← get
  set (cursor.count (cursor.depth + 1))
  if limit < cursor.depth + 1 then refuse (.tooDeep limit) (← remaining tokens)

/-- Gives nesting steps back. -/
def ascend (levels : Nat) : Walk Unit := do
  let cursor ← get
  if levels ≤ cursor.depth then set (cursor.count (cursor.depth - levels))
  else throw .underflow

def withUnit (literal : Expr) : Walk Expr := do
  match (← peek tokens).bind fun next =>
      if next.token = .name then Denomination.ofWord? next.text else none with
  | none => return literal
  | some unit =>
      skip
      return .amount literal unit

def chainLoop (operand : Walk Expr) (level : Level) : Nat → Expr → Nat → Walk Expr
  | 0, _, _ => usedUp
  | turns + 1, left, levels => do
      match (← peek tokens).bind fun next => level.operator? next.token with
      | none =>
          ascend levels
          return left
      | some op =>
          skip
          descend limit tokens
          let right ← operand
          chainLoop operand level turns (.binary op left right) (levels + 1)

def appliedLoop (index : Walk Expr) (list : Walk (List Expr)) : Nat → Expr → Nat → Walk Expr
  | 0, _, _ => usedUp
  | turns + 1, target, levels => do
      match (← peek tokens).map Lexeme.token with
      | some (.mark .dot) =>
          skip
          descend limit tokens
          let name ← expect tokens .name
          appliedLoop index list turns (.member target name) (levels + 1)
      | some (.mark .openBracket) =>
          skip
          descend limit tokens
          let position ← index
          let _ ← expect tokens (.mark .closeBracket)
          appliedLoop index list turns (.index target position) (levels + 1)
      | some (.mark .openParen) =>
          skip
          descend limit tokens
          let args ← list
          appliedLoop index list turns (.call target args) (levels + 1)
      | _ =>
          ascend levels
          return target

def argumentLoop (item : Walk Expr) : Nat → List Expr → Walk (List Expr)
  | 0, _ => usedUp
  | turns + 1, args => do
      let arg ← item
      let rest ← remaining tokens
      let next ← advance tokens
      match next.token with
      | .mark .comma => argumentLoop item turns (args ++ [arg])
      | .mark .closeParen => return args ++ [arg]
      | found => refuse (.unseparated found) rest

mutual

def chain : Nat → Level → Walk Expr
  | 0, _ => usedUp
  | calls + 1, level => do
      let first ← operand calls level
      let rest ← remaining tokens
      chainLoop limit tokens (operand calls level) level (rest.length + 1) first 0

def operand : Nat → Level → Walk Expr
  | 0, _ => usedUp
  | calls + 1, level =>
      match level.tighter? with
      | some next => chain calls next
      | none => unary calls

def unary : Nat → Walk Expr
  | 0 => usedUp
  | calls + 1 => do
      match (← peek tokens).map Lexeme.token with
      | some (.mark .bang) =>
          skip
          descend limit tokens
          let inner ← unary calls
          ascend 1
          return .not inner
      | some (.mark .minus) =>
          skip
          descend limit tokens
          let inner ← unary calls
          ascend 1
          return .negate inner
      | _ => applied calls

def applied : Nat → Walk Expr
  | 0 => usedUp
  | calls + 1 => do
      let first ← atom calls
      let rest ← remaining tokens
      appliedLoop limit tokens (chain calls .disjunction) (arguments calls) (rest.length + 1)
        first 0

def arguments : Nat → Walk (List Expr)
  | 0 => usedUp
  | calls + 1 => do
      let rest ← remaining tokens
      if rest.head?.map Lexeme.token = some (.mark .closeParen) then
        skip
        return []
      else argumentLoop tokens (chain calls .disjunction) (rest.length + 1) []

def atom : Nat → Walk Expr
  | 0 => usedUp
  | calls + 1 => do
      let rest ← remaining tokens
      let next ← advance tokens
      match next.token with
      | .decimal | .hex => withUnit tokens (.number next.text)
      | .scientific => withUnit tokens (scientificParts next.text)
      | .string => return .string next.text
      | .name => return .ofName next.text
      | .mark .openParen =>
          descend limit tokens
          let inner ← chain calls .disjunction
          let _ ← expect tokens (.mark .closeParen)
          ascend 1
          return inner
      | found => refuse (.unexpected found) rest

end

/-- A whole list of lexemes. -/
def whole (calls : Nat) : Walk Expr := do
  let expr ← chain limit tokens calls .disjunction
  match ← peek tokens with
  | none => return expr
  | some next => refuse (.trailing next.token) (← remaining tokens)

end

/-- What comes of a source by a walk over its lexemes, if anything does. -/
def parse? (calls limit : Nat) (source : String) : Option (Except ParseError Expr) :=
  match lexemes source with
  | .error error => some (.error error)
  | .ok tokens =>
      match (whole limit tokens calls).outcome? ⟨0, 0, []⟩ with
      | some (.ok (expr, _)) => some (.ok expr)
      | some (.error (.refused refusal)) =>
          some (.error (.atOffset source (refusal.offset source) refusal.fault))
      | some (.error .underflow) | none => none

end Walk

/-- The cursor is so many steps deep and before the rest of the lexemes, and no value of its counter
has been above the limit. -/
structure Cursor.Stands (cursor : Cursor) (limit : Nat) (tokens : List Lexeme) (depth : Nat)
    (rest : List Lexeme) : Prop where
  depth : cursor.depth = depth
  rest : tokens.drop cursor.pos = rest
  inside : cursor.pos ≤ tokens.length
  low : ∀ depth ∈ cursor.past, depth ≤ limit

section

variable {limit depth : Nat} {tokens rest : List Lexeme} {lead : Lexeme} {cursor : Cursor}

theorem Cursor.stands_at (limit depth : Nat) {pos : Nat} (inside : pos ≤ tokens.length) :
    Cursor.Stands ⟨pos, depth, []⟩ limit tokens depth (tokens.drop pos) :=
  ⟨rfl, rfl, inside, nofun⟩

theorem Cursor.Stands.next (stands : cursor.Stands limit tokens depth rest) :
    tokens[cursor.pos]? = rest.head? := by
  rw [← stands.rest, List.head?_drop]

theorem Cursor.Stands.skip (stands : cursor.Stands limit tokens depth (lead :: rest)) :
    Cursor.Stands { cursor with pos := cursor.pos + 1 } limit tokens depth rest where
  depth := stands.depth
  rest := by
    rw [← List.drop_drop, stands.rest]
    rfl
  inside := by
    have some := congrArg List.length stands.rest
    rw [List.length_drop, List.length_cons] at some
    dsimp only
    omega
  low := stands.low

theorem Cursor.Stands.count (stands : cursor.Stands limit tokens depth rest) (other : Nat)
    (low : other ≤ limit) : (cursor.count other).Stands limit tokens other rest where
  depth := rfl
  rest := stands.rest
  inside := stands.inside
  low := List.forall_mem_cons.mpr ⟨low, stands.low⟩

end

namespace Walk

variable {α : Type}

/-- From the cursor the walk comes to the result of a reading, and if it succeeds, so many steps
deep. -/
def Reaches (limit : Nat) (tokens : List Lexeme) (depth : Nat) (walk : Walk α)
    (cursor : Cursor) : Except Refusal (α × List Lexeme) → Prop
  | .error refusal => walk.outcome? cursor = some (.error (.refused refusal))
  | .ok (value, rest) => ∃ after, walk.outcome? cursor = some (.ok (value, after)) ∧
      after.Stands limit tokens depth rest

section

variable {β : Type} {limit depth between room levels : Nat} {tokens rest : List Lexeme}
variable {lead : Lexeme} {cursor after : Cursor} {value : α} {first : Walk α} {next : α → Walk β}
variable {result : Except Refusal (β × List Lexeme)}

theorem outcome?_bind : (first >>= next).outcome? cursor =
    match first.outcome? cursor with
    | none => none
    | some (.error halt) => some (.error halt)
    | some (.ok (value, after)) => (next value).outcome? after := by
  change Option.bind (first.outcome? cursor) _ = _
  rcases first.outcome? cursor with _ | halt | ⟨value, after⟩ <;> rfl

theorem outcome?_peek : (peek tokens).outcome? cursor = some (.ok (tokens[cursor.pos]?, cursor)) :=
  rfl

theorem outcome?_advance (stands : cursor.Stands limit tokens depth (lead :: rest)) :
    (advance tokens).outcome? cursor =
      some (.ok (lead, { cursor with pos := cursor.pos + 1 })) := by
  rw [advance, outcome?_bind, outcome?_peek, stands.next]
  rfl

theorem outcome?_remaining : (remaining tokens).outcome? cursor =
    some (.ok (tokens.drop cursor.pos, cursor)) :=
  rfl

theorem outcome?_skip : skip.outcome? cursor =
    some (.ok ((), { cursor with pos := cursor.pos + 1 })) :=
  rfl

theorem outcome?_get : (get : Walk Cursor).outcome? cursor = some (.ok (cursor, cursor)) :=
  rfl

theorem outcome?_set : (set after : Walk Unit).outcome? cursor = some (.ok ((), after)) :=
  rfl

theorem outcome?_descend : (descend limit tokens).outcome? cursor =
    if limit < cursor.depth + 1 then
      some (.error (.refused ⟨.tooDeep limit, tokens.drop cursor.pos⟩))
    else some (.ok ((), cursor.count (cursor.depth + 1))) := by
  simp only [descend, outcome?_bind, outcome?_get, outcome?_set]
  split <;> rfl

theorem outcome?_ascend : (ascend levels).outcome? cursor =
    if levels ≤ cursor.depth then some (.ok ((), cursor.count (cursor.depth - levels)))
    else some (.error .underflow) := by
  simp only [ascend, outcome?_bind, outcome?_get]
  split <;> rfl

theorem reaches_step (done : first.outcome? cursor = some (.ok (value, after)))
    (goesOn : Reaches limit tokens depth (next value) after result) :
    Reaches limit tokens depth (first >>= next) cursor result := by
  cases result with
  | error refusal =>
      rw [Reaches, outcome?_bind, done]
      exact goesOn
  | ok read =>
      obtain ⟨last, ended, stands⟩ := goesOn
      refine ⟨last, ?_, stands⟩
      rw [outcome?_bind, done]
      exact ended

theorem Reaches.andThen {read : Except Refusal (α × List Lexeme)}
    {more : α × List Lexeme → Except Refusal (β × List Lexeme)}
    (reaches : Reaches limit tokens between first cursor read)
    (goesOn : ∀ {value rest after}, read = .ok (value, rest) →
      after.Stands limit tokens between rest →
        Reaches limit tokens depth (next value) after (more (value, rest))) :
    Reaches limit tokens depth (first >>= next) cursor (read.bind more) := by
  cases read with
  | error refusal =>
      have failed : first.outcome? cursor = some (.error (.refused refusal)) := reaches
      rw [Except.bind, Reaches, outcome?_bind, failed]
  | ok read =>
      obtain ⟨value, rest⟩ := read
      obtain ⟨after, done, stands⟩ := reaches
      exact reaches_step done (goesOn rfl stands)

theorem reaches_pure (stands : cursor.Stands limit tokens depth rest) :
    Reaches limit tokens depth (pure value) cursor (.ok (value, rest)) :=
  ⟨cursor, rfl, stands⟩

theorem reaches_refuse {fault : ParseFault} :
    Reaches (α := α) limit tokens depth (refuse fault rest) cursor (.error ⟨fault, rest⟩) :=
  rfl

theorem reaches_peek {next : Option Lexeme → Walk β}
    (stands : cursor.Stands limit tokens between rest)
    (goesOn : Reaches limit tokens depth (next rest.head?) cursor result) :
    Reaches limit tokens depth (peek tokens >>= next) cursor result :=
  reaches_step (by rw [outcome?_peek, stands.next]) goesOn

theorem reaches_remaining {next : List Lexeme → Walk β}
    (stands : cursor.Stands limit tokens between rest)
    (goesOn : Reaches limit tokens depth (next rest) cursor result) :
    Reaches limit tokens depth (remaining tokens >>= next) cursor result :=
  reaches_step (by rw [outcome?_remaining, stands.rest]) goesOn

theorem reaches_skip {next : Unit → Walk β}
    (stands : cursor.Stands limit tokens between (lead :: rest))
    (goesOn : ∀ {after}, after.Stands limit tokens between rest →
      Reaches limit tokens depth (next ()) after result) :
    Reaches limit tokens depth (skip >>= next) cursor result :=
  reaches_step outcome?_skip (goesOn stands.skip)

theorem reaches_advance {next : Lexeme → Walk β}
    (stands : cursor.Stands limit tokens between (lead :: rest))
    (goesOn : ∀ {after}, after.Stands limit tokens between rest →
      Reaches limit tokens depth (next lead) after result) :
    Reaches limit tokens depth (advance tokens >>= next) cursor result :=
  reaches_step (outcome?_advance stands) (goesOn stands.skip)

theorem reaches_advance_nil {next : Lexeme → Walk β}
    (stands : cursor.Stands limit tokens between []) :
    Reaches limit tokens depth (advance tokens >>= next) cursor (.error ⟨.endOfInput, []⟩) := by
  rw [advance, bind_assoc]
  exact reaches_peek stands rfl

theorem reaches_expect {wanted : Token} (stands : cursor.Stands limit tokens depth rest) :
    Reaches limit tokens depth (expect tokens wanted) cursor
      (plain (Parser.expect wanted rest)) := by
  rw [expect, plain_expect]
  refine reaches_remaining stands ?_
  cases rest with
  | nil => exact reaches_advance_nil stands
  | cons lead rest =>
      refine reaches_advance stands fun stands => ?_
      dsimp only
      split
      · exact reaches_pure stands
      · exact reaches_refuse

theorem reaches_descend {next : Unit → Walk β}
    {more : Nat → Except Refusal (β × List Lexeme)}
    (stands : cursor.Stands limit tokens between rest) (all : between + room = limit)
    (goesOn : ∀ {lower after}, room = lower + 1 → after.Stands limit tokens (between + 1) rest →
      Reaches limit tokens depth (next ()) after (more lower)) :
    Reaches limit tokens depth (descend limit tokens >>= next) cursor
      ((Parser.descend limit room rest).bind more) := by
  have place := stands.depth
  cases room with
  | zero =>
      have above : limit < cursor.depth + 1 := by omega
      rw [Parser.descend, Except.bind, Reaches, outcome?_bind, outcome?_descend, if_pos above,
        stands.rest]
  | succ lower =>
      have below : ¬ limit < cursor.depth + 1 := by omega
      have deeper := stands.count (cursor.depth + 1) (by omega)
      rw [place] at deeper
      refine reaches_step ?_ (goesOn rfl deeper)
      rw [outcome?_descend, if_neg below, place]

/-- A construct opens with its first lexeme and a nesting step. -/
theorem reaches_open {next : Unit → Walk β}
    {more : Nat → Except Refusal (β × List Lexeme)}
    (stands : cursor.Stands limit tokens between (lead :: rest)) (all : between + room = limit)
    (goesOn : ∀ {lower after}, room = lower + 1 → after.Stands limit tokens (between + 1) rest →
      Reaches limit tokens depth (next ()) after (more lower)) :
    Reaches limit tokens depth (do skip; descend limit tokens >>= next) cursor
      ((Parser.descend limit room rest).bind more) :=
  reaches_skip stands fun stands => reaches_descend stands all goesOn

theorem reaches_ascend (stands : cursor.Stands limit tokens (depth + levels) rest)
    (low : depth ≤ limit) : Reaches limit tokens depth (do ascend levels; return value) cursor
      (.ok (value, rest)) := by
  have enough : levels ≤ cursor.depth := by
    rw [stands.depth]
    exact Nat.le_add_left _ _
  have back : (ascend levels).outcome? cursor = some (.ok ((), cursor.count depth)) := by
    rw [outcome?_ascend, if_pos enough, stands.depth, Nat.add_sub_cancel]
  exact reaches_step back (reaches_pure (stands.count depth low))

theorem reaches_withUnit {literal : Expr} (stands : cursor.Stands limit tokens depth rest) :
    Reaches limit tokens depth (withUnit tokens literal) cursor (.ok (suffixed literal rest)) := by
  rw [withUnit, suffixed]
  refine reaches_peek stands ?_
  cases rest with
  | nil => exact reaches_pure stands
  | cons lead rest =>
      simp only [Parser.withUnit, List.head?_cons, Option.bind_some]
      cases if lead.token = .name then Denomination.ofWord? lead.text else none with
      | none => exact reaches_pure stands
      | some unit => exact reaches_skip stands fun stands => reaches_pure stands

end

end Walk

end EtherCalc.Parser
