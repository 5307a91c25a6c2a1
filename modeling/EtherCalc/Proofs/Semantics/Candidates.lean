import EtherCalc.Proofs.Semantics.Compilation
import Mathlib

namespace EtherCalc

/-- The value is a leaf, at whatever depth. -/
inductive Nested.Holds {α : Type} (value : α) : Nested α → Prop where
  | leaf : Holds value (.leaf value)
  | branch {children : List (Nested α)} {child : Nested α} (member : child ∈ children)
      (inside : Holds value child) : Holds value (.branch children)

/-- The leaves of a forest as a set. -/
def Grammar.candidates (forest : List (Nested Expr)) : Set Expr :=
  {expr | ∃ node ∈ forest, node.Holds expr}

namespace Nested

variable {α : Type} {value other : α} {found : List α} {pending forest children : List (Nested α)}

theorem holds_leaf_iff : (leaf other).Holds value ↔ value = other := by
  constructor
  · rintro ⟨⟩
    rfl
  · rintro rfl
    exact .leaf

theorem holds_branch_iff :
    (branch children).Holds value ↔ ∃ child ∈ children, child.Holds value := by
  constructor
  · rintro ⟨⟩
    exact ⟨_, ‹_›, ‹_›⟩
  · rintro ⟨child, member, inside⟩
    exact .branch member inside

theorem mem_leavesAfter_iff : value ∈ leavesAfter found pending ↔
    value ∈ found ∨ ∃ node ∈ pending, node.Holds value := by
  induction found, pending using leavesAfter.induct with
  | case1 found => simp [leavesAfter]
  | case2 found leaf rest ih =>
      rw [leavesAfter, ih]
      simp [holds_leaf_iff, or_assoc, or_left_comm]
  | case3 found children rest ih =>
      rw [leavesAfter, ih]
      simp [holds_branch_iff, or_and_right, exists_or]

/-- The leaves are what the nodes hold. -/
theorem mem_leaves_iff : value ∈ leaves forest ↔ ∃ node ∈ forest, node.Holds value := by
  simp [leaves, mem_leavesAfter_iff]

end Nested

theorem Grammar.mem_candidates {expr : Expr} {forest : List (Nested Expr)} :
    expr ∈ candidates forest ↔ expr ∈ Nested.leaves forest :=
  Nested.mem_leaves_iff.symm

namespace Grammar

variable {exprs found : List Expr} {expr other : Expr} {forest : List (Nested Expr)}

/-- One more expression, unless it is known. -/
def insertNew (found : List Expr) (expr : Expr) : List Expr :=
  if expr ∈ found then found else found ++ [expr]

theorem distinct_eq : distinct exprs = exprs.foldl insertNew [] :=
  rfl

theorem mem_insertNew : expr ∈ insertNew found other ↔ expr ∈ found ∨ expr = other := by
  unfold insertNew
  split
  · rename_i known
    constructor
    · exact .inl
    · rintro (inside | rfl)
      · exact inside
      · exact known
  · simp

theorem nodup_insertNew (nodup : found.Nodup) : (insertNew found other).Nodup := by
  unfold insertNew
  split
  · exact nodup
  · rename_i unknown
    rw [← List.concat_eq_append]
    exact nodup.concat unknown

theorem mem_foldl_insertNew :
    expr ∈ exprs.foldl insertNew found ↔ expr ∈ found ∨ expr ∈ exprs := by
  induction exprs generalizing found with
  | nil => simp
  | cons first rest ih => simp [ih, mem_insertNew, or_assoc]

theorem nodup_foldl_insertNew (nodup : found.Nodup) : (exprs.foldl insertNew found).Nodup := by
  induction exprs generalizing found with
  | nil => exact nodup
  | cons first rest ih => exact ih (nodup_insertNew nodup)

theorem mem_distinct : expr ∈ distinct exprs ↔ expr ∈ exprs := by
  simp [distinct_eq, mem_foldl_insertNew]

theorem nodup_distinct : (distinct exprs).Nodup :=
  nodup_foldl_insertNew List.nodup_nil

theorem candidates_eq : candidates forest = ((distinct (Nested.leaves forest)).toFinset : Set Expr) := by
  ext expr
  simp [mem_candidates, mem_distinct]

theorem candidates_finite : (candidates forest).Finite := by
  rw [candidates_eq]
  exact Finset.finite_toSet _

/-- As many expressions are kept as there are candidates. -/
theorem length_distinct : (distinct (Nested.leaves forest)).length = (candidates forest).ncard := by
  rw [candidates_eq, Set.ncard_coe_finset, List.toFinset_card_of_nodup nodup_distinct]

theorem select_of_singleton (only : candidates forest = {expr}) : select forest = .ok expr := by
  have one : (distinct (Nested.leaves forest)).length = 1 := by
    rw [length_distinct, only, Set.ncard_singleton]
  obtain ⟨kept, isKept⟩ := List.length_eq_one_iff.mp one
  have same : kept = expr := by
    have inside : kept ∈ candidates forest := by
      rw [mem_candidates, ← mem_distinct, isKept]
      exact List.mem_singleton_self kept
    rwa [only] at inside
  simp only [select, single, isKept, same]

theorem select_of_not_one (several : (candidates forest).ncard ≠ 1) :
    select forest = .error (.ambiguous (candidates forest).ncard) := by
  rw [← length_distinct] at several ⊢
  simp only [select, single]
  split
  · rename_i only
    simp [only] at several
  · rfl

end Grammar

namespace Engine

variable {engine : Engine} {limit : Nat} {exprs : List Expr} {expr : Expr} {source : String}
variable {forest : List (Nested Expr)}

theorem checkDepths_eq_ok (low : ∀ expr ∈ exprs, expr.height ≤ limit) :
    checkDepths limit exprs = .ok () := by
  induction exprs with
  | nil => rfl
  | cons first rest ih =>
      obtain ⟨lowFirst, lowRest⟩ := List.forall_mem_cons.mp low
      rw [checkDepths, Expr.checkDepth_eq, if_pos lowFirst]
      exact ih lowRest

/-- The check fails alike for whichever of the trees is too tall. -/
theorem checkDepths_eq_error (member : expr ∈ exprs) (tall : limit < expr.height) :
    checkDepths limit exprs = .error (.unlocated (.tooDeep limit)) := by
  induction exprs with
  | nil => contradiction
  | cons first rest ih =>
      rw [checkDepths, Expr.checkDepth_eq]
      by_cases lowFirst : first.height ≤ limit
      · rw [if_pos lowFirst]
        rcases List.mem_cons.mp member with rfl | later
        · omega
        · exact ih later
      · rw [if_neg lowFirst]

theorem parse_of_tall (fed : engine.grammar.feed engine.config source = .ok forest)
    (member : expr ∈ Grammar.candidates forest) (tall : engine.config.maxDepth < expr.height) :
    engine.parse source = .error (.parse ⟨.tooDeep engine.config.maxDepth, none⟩) := by
  have refused := checkDepths_eq_error (Grammar.mem_candidates.mp member) tall
  simp only [parse, fed, refused]
  rfl

/-- Where no candidate is too tall, the only one is compiled. -/
theorem parse_of_low (fed : engine.grammar.feed engine.config source = .ok forest)
    (low : ∀ expr ∈ Grammar.candidates forest, expr.height ≤ engine.config.maxDepth) :
    engine.parse source = (Grammar.select forest).bind fun expr =>
      (Program.compile engine.config expr).map fun program => ⟨source, engine.config, program⟩ := by
  have fits := checkDepths_eq_ok fun expr member => low expr (Grammar.mem_candidates.mpr member)
  simp only [parse, fed, fits]
  cases selected : Grammar.select forest with
  | error error =>
      rw [Grammar.select] at selected
      rw [selected]
      rfl
  | ok expr =>
      rw [Grammar.select] at selected
      rw [selected]
      cases compiled : Program.compile engine.config expr <;> simp [compiled, Except.bind, Except.map]

/-- The candidates decide what a parse comes to, but for the source that an evaluator remembers. -/
theorem exists_outcome (config : Config) (candidates : Set Expr) :
    ∃ outcome : Except EvalError Program, ∀ grammar source forest,
      grammar.feed config source = .ok forest → Grammar.candidates forest = candidates →
        Engine.parse ⟨config, grammar⟩ source =
          outcome.map fun program => ⟨source, config, program⟩ := by
  by_cases tall : ∃ expr ∈ candidates, config.maxDepth < expr.height
  · obtain ⟨expr, member, tall⟩ := tall
    refine ⟨.error (.parse ⟨.tooDeep config.maxDepth, none⟩), fun grammar source forest fed same => ?_⟩
    subst same
    exact parse_of_tall fed member tall
  · have low : ∀ expr ∈ candidates, expr.height ≤ config.maxDepth := by simpa using tall
    by_cases one : candidates.ncard = 1
    · obtain ⟨expr, only⟩ := Set.ncard_eq_one.mp one
      refine ⟨Program.compile config expr, fun grammar source forest fed same => ?_⟩
      rw [parse_of_low fed (same ▸ low), Grammar.select_of_singleton (same.trans only)]
      rfl
    · refine ⟨.error (.ambiguous candidates.ncard), fun grammar source forest fed same => ?_⟩
      subst same
      rw [parse_of_low fed low, Grammar.select_of_not_one one]
      rfl

end Engine

theorem Program.compile_eq_error_iff {config : Config} {expr : Expr} {fault : EvalError}
    (low : expr.height ≤ config.maxDepth) : compile config expr = .error fault ↔
      ∃ before leaf later, expr.leaves = before ++ leaf :: later ∧
        leaf.literalFault? config = some fault ∧
        ∀ sound ∈ before, sound.literalFault? config = none := by
  rw [compile_eq_ofExpr low, ← fault?_eq_some_iff, fault?_ofExpr, List.findSome?_eq_some_iff]

open Grammar (candidates)

/-- An engine refuses a forest for any candidate that is too tall, then for the number of its
candidates, and else compiles the one there is.  Forests with the same candidates have the same
error, or evaluators that do the same.  Selecting a candidate counts them alike. -/
theorem engine_sees_candidates (config : Config) :
    (∀ grammar source forest, grammar.feed config source = .ok forest →
      (∀ expr ∈ candidates forest, config.maxDepth < expr.height →
        Engine.parse ⟨config, grammar⟩ source =
          .error (.parse ⟨.tooDeep config.maxDepth, none⟩)) ∧
      ((∀ expr ∈ candidates forest, expr.height ≤ config.maxDepth) →
        (candidates forest).ncard ≠ 1 →
          Engine.parse ⟨config, grammar⟩ source =
            .error (.ambiguous (candidates forest).ncard)) ∧
      (∀ expr, candidates forest = {expr} → expr.height ≤ config.maxDepth →
        Engine.parse ⟨config, grammar⟩ source =
          ((Program.compile config expr).map fun program => ⟨source, config, program⟩) ∧
        ∀ fault, Engine.parse ⟨config, grammar⟩ source = .error fault ↔
          ∃ before leaf later, expr.leaves = before ++ leaf :: later ∧
            leaf.literalFault? config = some fault ∧
            ∀ sound ∈ before, sound.literalFault? config = none) ∧
      ∀ other source' forest', other.feed config source' = .ok forest' →
        candidates forest' = candidates forest →
          (∀ error, Engine.parse ⟨config, other⟩ source' = .error error ↔
            Engine.parse ⟨config, grammar⟩ source = .error error) ∧
          ∀ evaluator evaluator', Engine.parse ⟨config, grammar⟩ source = .ok evaluator →
            Engine.parse ⟨config, other⟩ source' = .ok evaluator' →
              ∀ host context, evaluator'.evaluate host context = evaluator.evaluate host context) ∧
    ∀ forest, (candidates forest).Finite ∧
      ((candidates forest).ncard ≠ 1 →
        Grammar.select forest = .error (.ambiguous (candidates forest).ncard)) ∧
      ∀ expr, candidates forest = {expr} → Grammar.select forest = .ok expr := by
  refine ⟨fun grammar source forest fed => ⟨?_, ?_, ?_, ?_⟩, fun forest => ?_⟩
  · intro expr member tall
    exact Engine.parse_of_tall fed member tall
  · intro low several
    rw [Engine.parse_of_low fed low, Grammar.select_of_not_one several]
    rfl
  · intro expr only low
    have parsed : Engine.parse ⟨config, grammar⟩ source =
        (Program.compile config expr).map fun program => ⟨source, config, program⟩ := by
      rw [Engine.parse_of_low fed (by simpa [only] using low), Grammar.select_of_singleton only]
      rfl
    refine ⟨parsed, fun fault => ?_⟩
    rw [← Program.compile_eq_error_iff low, parsed]
    cases Program.compile config expr <;> simp [Except.map]
  · intro other source' forest' fedToo same
    obtain ⟨outcome, parses⟩ := Engine.exists_outcome config (candidates forest)
    rw [parses other source' forest' fedToo same, parses grammar source forest fed rfl]
    cases outcome with
    | error error => simp [Except.map]
    | ok program =>
        refine ⟨fun error => by simp [Except.map], ?_⟩
        rintro _ _ ⟨⟩ ⟨⟩ host context
        rfl
  · exact ⟨Grammar.candidates_finite, Grammar.select_of_not_one,
      fun expr => Grammar.select_of_singleton⟩

/-- One candidate that is there twice, two different ones, and one that is too tall besides. -/
theorem engine_sees_candidates_nested :
    let one : Expr := .number "1"
    let two : Expr := .number "2"
    let config : Config := ⟨.error, 0, 0⟩
    let nested : List (Nested Expr) := [.branch [.leaf one, .branch []], .leaf one]
    Engine.parse ⟨config, .canned nested⟩ "" = .ok ⟨"", config, .literal (.big 1)⟩ ∧
      (∀ evaluator, Engine.parse ⟨config, .canned [.leaf one]⟩ "1" = .ok evaluator →
        ∀ host context, evaluator.evaluate host context =
          (Evaluator.mk "" config (.literal (.big 1))).evaluate host context) ∧
      Engine.parse ⟨config, .canned [.leaf one, .branch [.leaf (.negate one), .leaf two]]⟩ "" =
        .error (.parse ⟨.tooDeep 0, none⟩) ∧
      Grammar.select [.leaf one, .leaf two] = .error (.ambiguous 2) := by
  intro one two config nested
  obtain ⟨parses, selects⟩ := engine_sees_candidates config
  have only : candidates nested = {one} := by
    ext expr
    simp [candidates, nested, Nested.holds_leaf_iff, Nested.holds_branch_iff]
  have single : candidates [.leaf one] = {one} := by
    ext expr
    simp [candidates, Nested.holds_leaf_iff]
  have both : candidates [.leaf one, .leaf two] = {one, two} := by
    ext expr
    simp [candidates, Nested.holds_leaf_iff]
  have tall : .negate one ∈ candidates [.leaf one, .branch [.leaf (.negate one), .leaf two]] := by
    simp [candidates, Nested.holds_leaf_iff, Nested.holds_branch_iff]
  have count : (candidates [.leaf one, .leaf two]).ncard = 2 := by
    rw [both]
    exact Set.ncard_pair (by decide)
  obtain ⟨_, _, compiles, repeats⟩ := parses (.canned nested) "" nested rfl
  have compiled : Program.compile config one = .ok (.literal (.big 1)) := by cbv
  have parsed := (compiles one only (by decide)).1
  rw [compiled] at parsed
  have same := (repeats (.canned [.leaf one]) "1" [.leaf one] rfl (single.trans only.symm)).2
  refine ⟨parsed, fun evaluator done => same _ evaluator parsed done, ?_, ?_⟩
  · exact (parses (.canned _) "" _ rfl).1 _ tall (by decide)
  · rw [(selects _).2.1 (by omega), count]

end EtherCalc
