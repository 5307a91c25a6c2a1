import EtherCalc.Proofs.Semantics.Limits
import EtherCalc.Proofs.Host.Uniform

/-!
A part of an expression may be computed beforehand and bound to a new name.

The tree with the part and the tree with the name are run side by side.  Up to the place of the part
the runs correspond; there the part has the value that it had beforehand, but for the identities
that it makes, and these are paired with those in the bound value.  From there on only the pairs
found so far count.
-/

namespace EtherCalc

namespace Expr

/-- A tree in which one place is open. -/
inductive Place where
  | here
  | amount (inner : Place) (unit : Denomination)
  | negate (inner : Place)
  | binaryLeft (op : Operator) (inner : Place) (right : Expr)
  | binaryRight (op : Operator) (left : Expr) (inner : Place)
  | not (inner : Place)
  | indexTarget (inner : Place) (position : Expr)
  | indexPosition (target : Expr) (inner : Place)
  | member (inner : Place) (name : String)
  | callCallee (inner : Place) (args : List Expr)
  | callArgument (callee : Expr) (before : List Expr) (inner : Place) (after : List Expr)

/-- The tree with `part` in the open place. -/
def Place.fill (part : Expr) : Place → Expr
  | .here => part
  | .amount inner unit => .amount (inner.fill part) unit
  | .negate inner => .negate (inner.fill part)
  | .binaryLeft op inner right => .binary op (inner.fill part) right
  | .binaryRight op left inner => .binary op left (inner.fill part)
  | .not inner => .not (inner.fill part)
  | .indexTarget inner position => .index (inner.fill part) position
  | .indexPosition target inner => .index target (inner.fill part)
  | .member inner name => .member (inner.fill part) name
  | .callCallee inner args => .call (inner.fill part) args
  | .callArgument callee before inner after => .call callee (before ++ inner.fill part :: after)

theorem variableNamesAll_append {exprs others : List Expr} :
    variableNamesAll (exprs ++ others) = variableNamesAll exprs ++ variableNamesAll others := by
  induction exprs with
  | nil => rfl
  | cons expr rest ih =>
      rw [List.cons_append, variableNamesAll, variableNamesAll, ih, List.append_assoc]

end Expr

namespace Matching

variable {matching later : Matching} {limit bound : Nat}

theorem Extends.refl : matching.Extends matching :=
  fun _ _ pair => pair

theorem grows_composes_extends : Composes Grows Extends Extends :=
  ⟨fun extends_ => extends_, .refl, fun grows extends_ => grows.keeps.trans extends_⟩

theorem extends_composes_grows : Composes Extends Grows Extends :=
  ⟨fun grows => grows.keeps, .refl, fun extends_ grows => extends_.trans grows.keeps⟩

/-- The identities below the limit are paired with themselves, and none of those below the bound
with any other. -/
structure Reserves (limit bound : Nat) (matching : Matching) : Prop where
  fixes : matching.Fixes limit
  below : ∀ a b, matching.Pairs a b → b < bound → a = b ∧ a < limit
  next' : bound ≤ matching.next'

theorem Reserves.mono (reserves : matching.Reserves limit bound) (grows : matching.Grows later) :
    later.Reserves limit bound where
  fixes := reserves.fixes.mono grows.keeps
  below a b pair less := by
    rcases grows.fresh a b pair with old | ⟨_, new'⟩
    · exact reserves.below a b old less
    · have := reserves.next'
      omega
  next' := Nat.le_trans reserves.next' grows.next'

theorem Fixes.le (fixes : matching.Fixes limit) : limit ≤ matching.next := by
  refine Nat.le_of_not_lt fun less => ?_
  have bounds := matching.bounded (fixes matching.next less)
  omega

/-- The pairs of a matching together with those that a computation beforehand adds below the bound,
which are free here. -/
def Reserves.adopt {start : Nat} {added : Matching} (reserves : matching.Reserves limit bound)
    (le : limit ≤ start)
    (grows : (diagonal limit matching.next start reserves.fixes.le le).Grows added) : Matching where
  next := added.next
  next' := matching.next'
  Pairs a b := matching.Pairs a b ∨ added.Pairs a b ∧ b < bound
  bounded := by
    have nexts : matching.next ≤ added.next := grows.next
    have nexts' := reserves.next'
    rintro a b (pair | ⟨pair, less⟩)
    · have bounds := matching.bounded pair
      omega
    · have bounds := added.bounded pair
      omega
  unique := by
    have mixed {a b c d : Nat} (pair : matching.Pairs a b) (other : added.Pairs c d)
        (less : d < bound) : a = c ↔ b = d := by
      -- What was added is the diagonal, and pairs of identities that were not in use.
      rcases grows.fresh c d other with ⟨rfl, small⟩ | ⟨new, new'⟩
      · exact matching.unique pair (reserves.fixes c small)
      · have bounds := matching.bounded pair
        have unused : matching.next ≤ c := new
        have unused' : start ≤ d := new'
        constructor
        · omega
        · rintro rfl
          have old := reserves.below a b pair less
          omega
    rintro a b c d (pair | ⟨pair, less⟩) (other | ⟨other, lessOther⟩)
    · exact matching.unique pair other
    · exact mixed pair other lessOther
    · have found := mixed other pair less
      rw [eq_comm, found, eq_comm]
    · exact added.unique pair other

end Matching

theorem Value.nextIdFields_put {name : String} {value : Value} {fields : List (String × Value)}
    (unbound : Entries.find? name fields = none) :
    nextIdFields (Entries.put name value fields) = max (nextIdFields fields) value.nextId := by
  induction fields with
  | nil => simp [Entries.put, nextIdFields]
  | cons field rest ih =>
      obtain ⟨key, first⟩ := field
      by_cases same : key = name
      · simp [Entries.find?, same] at unbound
      · rw [Entries.find?, if_neg same] at unbound
        rw [Entries.put, if_neg same, nextIdFields, nextIdFields, ih unbound]
        omega

theorem Context.nextId_define {context : Context} {name : String} {value : Value}
    (unbound : context.get? name = none) :
    (context.define name value).nextId = max context.nextId value.nextId :=
  Value.nextIdFields_put unbound

namespace Program

section

variable {host : Host} {config : Config} {context : Context} {part : Expr} {first : Program}
variable {name : String} {value : Value} {matching : Matching} {start last : Nat}

/-- Running the part again, where identities may have other numbers, makes the value that it had
beforehand. -/
theorem run_part_corresponds (uniform : host.Uniform context.nextId)
    (compiled : ofExpr config part = .ok first) (le : context.nextId ≤ start)
    (computed : first.run host context start = ⟨.ok value, [], last⟩)
    (unbound : context.get? name = none)
    (reserves : matching.Reserves context.nextId (context.define name value).nextId) :
    Run.Corresponds Matching.Extends Value.Corresponds matching
      (first.run host context) (pure value) := by
  let before := Matching.diagonal context.nextId matching.next start reserves.fixes.le le
  have agrees : context.Agrees before part.variableNames context :=
    Context.agrees_of_fixes (fun _ _ => rfl) (Matching.fixes_diagonal.of_le (Nat.min_le_left _ _))
  obtain ⟨added, grows, result, events, next, _⟩ :=
    run_corresponds uniform part compiled Matching.fixes_diagonal agrees
  have computed : first.run host context before.next' = ⟨.ok value, [], last⟩ := computed
  rcases done : first.run host context matching.next with ⟨result', events', middle⟩
  have done' : first.run host context before.next = ⟨result', events', middle⟩ := done
  rw [done', computed] at result events
  rw [done'] at next
  cases events
  cases result with
  | ok values =>
      refine ⟨reserves.adopt le grows, fun a b pair => .inl pair, ?_⟩
      rw [done]
      refine ⟨.ok (values.of_pairs fun a b pair less => .inr ⟨pair, ?_⟩), .nil, next, rfl⟩
      rw [Context.nextId_define unbound]
      omega

end

section

variable {config : Config} {program : Program} {op : Operator}

theorem ofExpr_binary_eq_ok {left right : Expr} :
    ofExpr config (.binary op left right) = .ok program ↔
      ∃ left' right', ofExpr config left = .ok left' ∧ ofExpr config right = .ok right' ∧
        .binary op left' right' = program := by
  rw [ofExpr]
  cases ofExpr config left <;> cases ofExpr config right <;>
    simp [bind, Except.bind, pure, Except.pure]

theorem ofExpr_index_eq_ok {target position : Expr} :
    ofExpr config (.index target position) = .ok program ↔
      ∃ target' position', ofExpr config target = .ok target' ∧
        ofExpr config position = .ok position' ∧ .index target' position' = program := by
  rw [ofExpr]
  cases ofExpr config target <;> cases ofExpr config position <;>
    simp [bind, Except.bind, pure, Except.pure]

theorem ofExpr_call_eq_ok {callee : Expr} {args : List Expr} :
    ofExpr config (.call callee args) = .ok program ↔
      ∃ callee' args', ofExpr config callee = .ok callee' ∧ ofExprs config args = .ok args' ∧
        .call callee' args' = program := by
  rw [ofExpr]
  cases ofExpr config callee <;> cases ofExprs config args <;>
    simp [bind, Except.bind, pure, Except.pure]

theorem ofExprs_cons_eq_ok {expr : Expr} {rest : List Expr} {programs : List Program} :
    ofExprs config (expr :: rest) = .ok programs ↔
      ∃ first others, ofExpr config expr = .ok first ∧ ofExprs config rest = .ok others ∧
        first :: others = programs := by
  rw [ofExprs]
  cases ofExpr config expr <;> cases ofExprs config rest <;>
    simp [bind, Except.bind, pure, Except.pure]

end

section

variable {host : Host} {config : Config} {context context' : Context} {limit bound : Nat}
variable {part other : Expr} {name : String}

/-- In the open place, wherever the matching still reserves the identities below the bound, the two
parts have corresponding runs. -/
def Exchangeable (host : Host) (config : Config) (limit bound : Nat) (context context' : Context)
    (part other : Expr) : Prop :=
  ∀ {matching program program'}, matching.Reserves limit bound →
    ofExpr config part = .ok program → ofExpr config other = .ok program' →
      Run.Corresponds Matching.Extends Value.Corresponds matching
        (program.run host context) (program'.run host context')

/-- The contexts agree on all names but one. -/
def AgreesBut (name : String) (limit : Nat) (context context' : Context) : Prop :=
  ∀ {matching : Matching} {names : List String}, matching.Fixes limit → name ∉ names →
    context.Agrees matching names context'

theorem runAll_fill_corresponds (uniform : host.Uniform limit)
    (agrees : AgreesBut name limit context context')
    (exchangeable : Exchangeable host config limit bound context context' part other)
    {after : List Expr} (absentAfter : name ∉ Expr.variableNamesAll after) :
    (before : List Expr) → ∀ {matching programs programs'}, matching.Reserves limit bound →
      ofExprs config (before ++ part :: after) = .ok programs →
        ofExprs config (before ++ other :: after) = .ok programs' →
          name ∉ Expr.variableNamesAll before →
            Run.Corresponds Matching.Extends Value.CorrespondsAll matching
              (runAll host context programs) (runAll host context' programs')
  | [], _, _, _, reserves, compiled, compiled', _ => by
      obtain ⟨first, others, compiledFirst, compiledOthers, rfl⟩ := ofExprs_cons_eq_ok.mp compiled
      obtain ⟨first', others', compiledFirst', compiledOthers', rfl⟩ :=
        ofExprs_cons_eq_ok.mp compiled'
      cases compiledOthers.symm.trans compiledOthers'
      rw [runAll, runAll]
      refine (exchangeable reserves compiledFirst compiledFirst').bind
        Matching.extends_composes_grows fun extends_ values => ?_
      have fixes := reserves.fixes.mono extends_
      have others :=
        runAll_corresponds uniform after compiledOthers fixes (agrees fixes absentAfter)
      refine others.andThen fun grows others => ?_
      exact Run.corresponds_pure (.cons (values.mono grows.keeps) others)
  | expr :: rest, _, _, _, reserves, compiled, compiled', absent => by
      obtain ⟨first, others, compiledFirst, compiledOthers, rfl⟩ := ofExprs_cons_eq_ok.mp compiled
      obtain ⟨first', others', compiledFirst', compiledOthers', rfl⟩ :=
        ofExprs_cons_eq_ok.mp compiled'
      cases compiledFirst.symm.trans compiledFirst'
      simp only [Expr.variableNamesAll, List.mem_append, not_or] at absent
      have firsts := run_corresponds uniform expr compiledFirst reserves.fixes
        (agrees reserves.fixes absent.1)
      rw [runAll, runAll]
      refine firsts.bind Matching.grows_composes_extends fun grows values => ?_
      have others := runAll_fill_corresponds uniform agrees exchangeable absentAfter rest
        (reserves.mono grows) compiledOthers compiledOthers' absent.2
      refine others.bind Matching.extends_composes_grows fun extends_ others => ?_
      exact Run.corresponds_pure (.cons (values.mono extends_) others)

/-- Trees that differ in one place have corresponding runs when the parts there do. -/
theorem run_fill_corresponds (uniform : host.Uniform limit)
    (agrees : AgreesBut name limit context context')
    (exchangeable : Exchangeable host config limit bound context context' part other) :
    (place : Expr.Place) → name ∉ (place.fill part).variableNames →
      Exchangeable host config limit bound context context' (place.fill part) (place.fill other)
  | .here, _ => exchangeable
  | .amount inner unit, absent => by
      intro reserves compiled compiled'
      obtain ⟨inside, compiledInside, same⟩ := bind_eq_ok.mp compiled
      obtain ⟨inside', compiledInside', same'⟩ := bind_eq_ok.mp compiled'
      cases same
      cases same'
      have parts := run_fill_corresponds uniform agrees exchangeable inner absent reserves
        compiledInside compiledInside'
      rw [run, run]
      refine parts.bind Matching.extends_composes_grows fun _ values => ?_
      exact Run.corresponds_ofExcept (Arithmetic.scaled_corresponds values)
  | .negate inner, absent => by
      intro reserves compiled compiled'
      obtain ⟨inside, compiledInside, same⟩ := bind_eq_ok.mp compiled
      obtain ⟨inside', compiledInside', same'⟩ := bind_eq_ok.mp compiled'
      cases same
      cases same'
      have parts := run_fill_corresponds uniform agrees exchangeable inner absent reserves
        compiledInside compiledInside'
      rw [run, run]
      refine parts.bind Matching.extends_composes_grows fun _ values => ?_
      exact Run.corresponds_ofExcept (Arithmetic.negate_corresponds values)
  | .not inner, absent => by
      intro reserves compiled compiled'
      obtain ⟨inside, compiledInside, same⟩ := bind_eq_ok.mp compiled
      obtain ⟨inside', compiledInside', same'⟩ := bind_eq_ok.mp compiled'
      cases same
      cases same'
      have parts := run_fill_corresponds uniform agrees exchangeable inner absent reserves
        compiledInside compiledInside'
      rw [run_not, run_not]
      refine parts.bind Matching.extends_composes_grows fun _ values => ?_
      rw [values.isTruthy]
      exact Run.corresponds_pure .bool
  | .member inner title, absent => by
      intro reserves compiled compiled'
      obtain ⟨inside, compiledInside, same⟩ := bind_eq_ok.mp compiled
      obtain ⟨inside', compiledInside', same'⟩ := bind_eq_ok.mp compiled'
      cases same
      cases same'
      have parts := run_fill_corresponds uniform agrees exchangeable inner absent reserves
        compiledInside compiledInside'
      rw [run, run]
      refine parts.bind Matching.extends_composes_grows fun extends_ targets => ?_
      exact Value.readProperty_corresponds uniform.objects (reserves.fixes.mono extends_) targets
  | .binaryLeft op inner right, absent => by
      intro reserves compiled compiled'
      obtain ⟨first, second, compiledFirst, compiledSecond, rfl⟩ := ofExpr_binary_eq_ok.mp compiled
      obtain ⟨first', second', compiledFirst', compiledSecond', rfl⟩ :=
        ofExpr_binary_eq_ok.mp compiled'
      cases compiledSecond.symm.trans compiledSecond'
      simp only [Expr.Place.fill, Expr.variableNames, List.mem_append, not_or] at absent
      have parts := run_fill_corresponds uniform agrees exchangeable inner absent.1 reserves
        compiledFirst compiledFirst'
      rw [run, run]
      refine parts.bind Matching.extends_composes_grows fun extends_ lefts => ?_
      have fixes := reserves.fixes.mono extends_
      have rights := run_corresponds uniform right compiledSecond fixes (agrees fixes absent.2)
      refine rights.andThen fun grows rights => ?_
      exact Run.corresponds_ofExcept (Arithmetic.apply_corresponds (lefts.mono grows.keeps) rights)
  | .binaryRight op left inner, absent => by
      intro reserves compiled compiled'
      obtain ⟨first, second, compiledFirst, compiledSecond, rfl⟩ := ofExpr_binary_eq_ok.mp compiled
      obtain ⟨first', second', compiledFirst', compiledSecond', rfl⟩ :=
        ofExpr_binary_eq_ok.mp compiled'
      cases compiledFirst.symm.trans compiledFirst'
      simp only [Expr.Place.fill, Expr.variableNames, List.mem_append, not_or] at absent
      have lefts := run_corresponds uniform left compiledFirst reserves.fixes
        (agrees reserves.fixes absent.1)
      rw [run, run]
      refine lefts.bind Matching.grows_composes_extends fun grows lefts => ?_
      have parts := run_fill_corresponds uniform agrees exchangeable inner absent.2
        (reserves.mono grows) compiledSecond compiledSecond'
      refine parts.bind Matching.extends_composes_grows fun extends_ rights => ?_
      exact Run.corresponds_ofExcept (Arithmetic.apply_corresponds (lefts.mono extends_) rights)
  | .indexTarget inner position, absent => by
      intro reserves compiled compiled'
      obtain ⟨first, second, compiledFirst, compiledSecond, rfl⟩ := ofExpr_index_eq_ok.mp compiled
      obtain ⟨first', second', compiledFirst', compiledSecond', rfl⟩ :=
        ofExpr_index_eq_ok.mp compiled'
      cases compiledSecond.symm.trans compiledSecond'
      simp only [Expr.Place.fill, Expr.variableNames, List.mem_append, not_or] at absent
      have parts := run_fill_corresponds uniform agrees exchangeable inner absent.1 reserves
        compiledFirst compiledFirst'
      rw [run, run]
      refine parts.bind Matching.extends_composes_grows fun extends_ targets => ?_
      have fixes := reserves.fixes.mono extends_
      have positions :=
        run_corresponds uniform position compiledSecond fixes (agrees fixes absent.2)
      refine positions.andThen fun grows positions => ?_
      exact Value.readItem_corresponds uniform.objects (fixes.mono grows.keeps)
        (targets.mono grows.keeps) positions
  | .indexPosition target inner, absent => by
      intro reserves compiled compiled'
      obtain ⟨first, second, compiledFirst, compiledSecond, rfl⟩ := ofExpr_index_eq_ok.mp compiled
      obtain ⟨first', second', compiledFirst', compiledSecond', rfl⟩ :=
        ofExpr_index_eq_ok.mp compiled'
      cases compiledFirst.symm.trans compiledFirst'
      simp only [Expr.Place.fill, Expr.variableNames, List.mem_append, not_or] at absent
      have targets := run_corresponds uniform target compiledFirst reserves.fixes
        (agrees reserves.fixes absent.1)
      rw [run, run]
      refine targets.bind Matching.grows_composes_extends fun grows targets => ?_
      have grown := reserves.mono grows
      have parts := run_fill_corresponds uniform agrees exchangeable inner absent.2 grown
        compiledSecond compiledSecond'
      refine parts.bind Matching.extends_composes_grows fun extends_ positions => ?_
      exact Value.readItem_corresponds uniform.objects (grown.fixes.mono extends_)
        (targets.mono extends_) positions
  | .callCallee inner args, absent => by
      intro reserves compiled compiled'
      obtain ⟨first, others, compiledFirst, compiledOthers, rfl⟩ := ofExpr_call_eq_ok.mp compiled
      obtain ⟨first', others', compiledFirst', compiledOthers', rfl⟩ :=
        ofExpr_call_eq_ok.mp compiled'
      cases compiledOthers.symm.trans compiledOthers'
      simp only [Expr.Place.fill, Expr.variableNames, List.mem_append, not_or] at absent
      have parts := run_fill_corresponds uniform agrees exchangeable inner absent.1 reserves
        compiledFirst compiledFirst'
      rw [run, run]
      refine parts.bind Matching.extends_composes_grows fun extends_ callees => ?_
      have fixes := reserves.fixes.mono extends_
      have values := runAll_corresponds uniform args compiledOthers fixes (agrees fixes absent.2)
      refine values.andThen fun grows values => ?_
      exact uniform.call (fixes.mono grows.keeps) values (callees.mono grows.keeps)
  | .callArgument callee before inner after, absent => by
      intro reserves compiled compiled'
      obtain ⟨first, others, compiledFirst, compiledOthers, rfl⟩ := ofExpr_call_eq_ok.mp compiled
      obtain ⟨first', others', compiledFirst', compiledOthers', rfl⟩ :=
        ofExpr_call_eq_ok.mp compiled'
      cases compiledFirst.symm.trans compiledFirst'
      simp only [Expr.Place.fill, Expr.variableNames, Expr.variableNamesAll_append,
        Expr.variableNamesAll, List.mem_append, not_or] at absent
      obtain ⟨absentCallee, absentBefore, absentInner, absentAfter⟩ := absent
      have callees := run_corresponds uniform callee compiledFirst reserves.fixes
        (agrees reserves.fixes absentCallee)
      rw [run, run]
      refine callees.bind Matching.grows_composes_extends fun grows callees => ?_
      have grown := reserves.mono grows
      have inside : Exchangeable host config limit bound context context' (inner.fill part)
          (inner.fill other) :=
        run_fill_corresponds uniform agrees exchangeable inner absentInner
      have values := runAll_fill_corresponds uniform agrees inside absentAfter before grown
        compiledOthers compiledOthers' absentBefore
      refine values.bind Matching.extends_composes_grows fun extends_ values => ?_
      exact uniform.call (grown.fixes.mono extends_) values (callees.mono extends_)

end

/-- Let a part of a tree have a value in a context, computed without calls and reads of properties.
The tree that has a new name in the place of the part does the same, in the context that binds the
name to the value: the same value but for new identities, or the same error, and the same calls.
Identities of the context are the same on both sides. -/
theorem run_fill_bound (config : Config) (host : Host) (context : Context) (place : Expr.Place)
    (part : Expr) (name : String) (value : Value) (first program program' : Program)
    (start last : Nat) (uniform : host.Uniform context.nextId)
    (compiledPart : compile config part = .ok first)
    (compiled : compile config (place.fill part) = .ok program)
    (compiled' : compile config (place.fill (.variable name)) = .ok program')
    (le : context.nextId ≤ start)
    (computed : first.run host context start = ⟨.ok value, [], last⟩)
    (free : booleanWord? name = none) (absent : name ∉ (place.fill part).variableNames)
    (unbound : context.get? name = none) :
    ∀ id id', context.nextId ≤ id → (context.define name value).nextId ≤ id' →
      ∃ matching : Matching, matching.Fixes context.nextId ∧
        Outcome.Corresponds Value.Corresponds matching (program.run host context id)
          (program'.run host (context.define name value) id') := by
  intro id id' used used'
  obtain ⟨_, compiledPart⟩ := compile_eq_ok.mp compiledPart
  obtain ⟨_, compiled⟩ := compile_eq_ok.mp compiled
  obtain ⟨_, compiled'⟩ := compile_eq_ok.mp compiled'
  let larger := context.define name value
  have bound : larger.get? name = some value := by
    rw [Context.get?_define, if_pos rfl]
  have agrees : AgreesBut name context.nextId context larger := by
    intro matching names fixes absent
    refine Context.agrees_of_fixes (fun key member => ?_) (fixes.of_le (Nat.min_le_left _ _))
    have differs : key ≠ name := by
      rintro rfl
      exact absent member
    rw [Context.get?_define, if_neg differs]
  have exchangeable : Exchangeable host config context.nextId larger.nextId context larger part
      (.variable name) := by
    intro matching inside inside' reserves compiledInside compiledInside'
    cases compiledPart.symm.trans compiledInside
    rw [ofExpr, free] at compiledInside'
    obtain rfl := Except.ok.inj compiledInside'
    have looked : run host larger (.variable name config.unbound) = pure value := by
      unfold run
      rw [bound]
    rw [looked]
    exact run_part_corresponds uniform compiledPart le computed unbound reserves
  have grown : context.nextId ≤ larger.nextId := by
    rw [Context.nextId_define unbound]
    exact Nat.le_max_left _ _
  let matching := Matching.diagonal context.nextId id id' used (Nat.le_trans grown used')
  have reserves : matching.Reserves context.nextId larger.nextId :=
    ⟨Matching.fixes_diagonal, fun _ _ pair _ => pair, used'⟩
  obtain ⟨later, extends_, outcomes⟩ :=
    run_fill_corresponds uniform agrees exchangeable place absent reserves compiled compiled'
  exact ⟨later, reserves.fixes.mono extends_, outcomes⟩

/-- An element is still the same array when it was read beforehand. -/
theorem run_fill_bound_element :
    let element : Expr := .index (.variable "xs") (.number "0")
    let place : Expr.Place := .callArgument (.variable "f") [] (.binaryRight .eq element .here) []
    let code : Function := ⟨0, "f", 1, .list⟩
    let context := (Context.empty.define "f" (.function code)).define "xs" (.array 1 [.array 2 []])
    let larger := context.define "x" (.array 2 [])
    let event := Event.called code .undefined [.bool true]
    ∃ program program', compile .default (place.fill element) = .ok program ∧
      compile .default (place.fill (.variable "x")) = .ok program' ∧
      (program.run .standard context 3).events = [event] ∧
      (program'.run .standard larger 3).events = [event] ∧
      ∃ matching : Matching, matching.Fixes context.nextId ∧
        Outcome.Corresponds Value.Corresponds matching (program.run .standard context 3)
          (program'.run .standard larger 3) := by
  intro element place code context larger event
  let read : Program := .index (.variable "xs" .undefined) (.literal (.big 0))
  let around (inner : Program) : Program :=
    .call (.variable "f" .undefined) [.binary .eq read inner]
  have compiledPart : compile .default element = .ok read := by cbv
  have compiled : compile .default (place.fill element) = .ok (around read) := by cbv
  have compiled' : compile .default (place.fill (.variable "x")) =
      .ok (around (.variable "x" .undefined)) := by cbv
  have absent : "x" ∉ (place.fill element).variableNames := by decide
  refine ⟨_, _, compiled, compiled', rfl, rfl, ?_⟩
  exact run_fill_bound .default .standard context place element "x" (.array 2 []) read _ _ 3 3
    Host.Standard.uniform compiledPart compiled compiled' (Nat.le_refl _) rfl rfl absent rfl 3 3
    (Nat.le_refl _) (Nat.le_refl _)

end Program

end EtherCalc
