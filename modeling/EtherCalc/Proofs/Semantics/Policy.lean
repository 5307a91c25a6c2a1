import EtherCalc.Proofs.Semantics.Compilation

namespace EtherCalc

/-- The error is about a name or a property that is not there. -/
def EvalError.isMissing : EvalError → Bool
  | .unboundVariable _ | .propertyNotFound _ _ => true
  | _ => false

/-- The strict outcome is the lenient one, or the strict run ended early because something was
missing. -/
def Outcome.Stricter {α : Type} (strict lenient : Outcome α) : Prop :=
  strict = lenient ∨ ∃ error, error.isMissing = true ∧ strict.result = .error error ∧
    strict.events <+: lenient.events

section

variable {α β : Type} {strict lenient : Outcome α} {events : List Event}
variable {first first' : Run α} {next next' : α → Run β} {id : Nat}

theorem Outcome.Stricter.refl {outcome : Outcome α} : outcome.Stricter outcome :=
  .inl rfl

theorem Outcome.Stricter.after (stricter : strict.Stricter lenient) :
    (strict.after events).Stricter (lenient.after events) := by
  rcases stricter with rfl | ⟨error, missing, failed, earlier⟩
  · exact .refl
  · exact .inr ⟨error, missing, failed, (List.prefix_append_right_inj events).mpr earlier⟩

theorem Outcome.Stricter.events_begin (stricter : strict.Stricter lenient) :
    strict.events <+: lenient.events := by
  rcases stricter with rfl | ⟨_, _, _, earlier⟩
  · exact List.prefix_refl _
  · exact earlier

theorem Outcome.Stricter.eq (stricter : strict.Stricter lenient)
    (found : ∀ error, strict.result = .error error → error.isMissing = false) :
    lenient = strict := by
  rcases stricter with same | ⟨error, missing, failed, _⟩
  · exact same.symm
  · rw [found error failed] at missing
    contradiction

theorem Run.fail_stricter {error : EvalError} (missing : error.isMissing = true) :
    ((fail error : Run α) id).Stricter lenient :=
  .inr ⟨error, missing, rfl, List.nil_prefix⟩

theorem Run.events_prefix_bind : (first id).events <+: ((first >>= next) id).events := by
  rcases done : first id with ⟨error | value, events, middle⟩
  · simp only [bind_error done, List.prefix_refl]
  · simp only [bind_ok done, Outcome.after, List.prefix_append]

theorem Run.bind_stricter (stricter : (first id).Stricter (first' id))
    (stricterNext : ∀ value id, (next value id).Stricter (next' value id)) :
    ((first >>= next) id).Stricter ((first' >>= next') id) := by
  rcases done : first id with ⟨error | value, events, middle⟩ <;> rw [done] at stricter
  · rw [bind_error done]
    rcases stricter with same | ⟨missing, isMissing, failed, earlier⟩
    · rw [bind_error same.symm]
      exact .refl
    · -- The strict run is over; whatever the lenient one still does comes later.
      cases failed
      exact .inr ⟨error, isMissing, rfl, earlier.trans events_prefix_bind⟩
  · rcases stricter with same | ⟨missing, _, failed, _⟩
    · rw [bind_ok done, bind_ok same.symm]
      exact (stricterNext value middle).after
    · contradiction

end

theorem Value.readProperty_stricter {objects : ObjectHost} {policy : UnboundPolicy} {base : Value}
    {name : String} {id : Nat} : (base.readProperty objects policy name id).Stricter
      (base.readProperty objects .undefined name id) := by
  refine Run.bind_stricter .refl fun found id => ?_
  cases found with
  | some found => exact .refl
  | none =>
      cases policy with
      | undefined => exact .refl
      | error => exact Run.fail_stricter rfl

namespace Program

mutual

/-- The program with nothing left that fails because a name or a property is missing. -/
def lenient : Program → Program
  | .literal value => .literal value
  | .amount value unit => .amount value.lenient unit
  | .negate operand => .negate operand.lenient
  | .variable name _ => .variable name .undefined
  | .binary op left right => .binary op left.lenient right.lenient
  | .not operand => .not operand.lenient
  | .index target position => .index target.lenient position.lenient
  | .member target name _ => .member target.lenient name .undefined
  | .call callee args => .call callee.lenient (lenientAll args)
termination_by structural program => program

def lenientAll : List Program → List Program
  | [] => []
  | program :: rest => program.lenient :: lenientAll rest
termination_by structural programs => programs

end

section

variable {config : Config}

mutual

theorem ofExpr_lenient : (expr : Expr) → ofExpr { config with unbound := .undefined } expr =
    (ofExpr config expr).map lenient
  | .number text => by
      simp only [ofExpr]
      cases Numeral.read text <;> rfl
  | .scientific mantissa exponent => by
      simp only [ofExpr]
      cases Numeral.scientific config.maxExponent mantissa exponent <;> rfl
  | .string _ | .bool _ => rfl
  | .variable name => by
      simp only [ofExpr]
      cases booleanWord? name <;> rfl
  | .amount inner _ | .negate inner | .not inner | .member inner _ => by
      rw [ofExpr, ofExpr, ofExpr_lenient inner]
      cases ofExpr config inner <;> rfl
  | .binary _ left right | .index left right => by
      rw [ofExpr, ofExpr, ofExpr_lenient left, ofExpr_lenient right]
      cases ofExpr config left <;> cases ofExpr config right <;> rfl
  | .call callee args => by
      rw [ofExpr, ofExpr, ofExpr_lenient callee, ofExprs_lenient args]
      cases ofExpr config callee <;> cases ofExprs config args <;> rfl

theorem ofExprs_lenient : (exprs : List Expr) → ofExprs { config with unbound := .undefined } exprs =
    (ofExprs config exprs).map lenientAll
  | [] => rfl
  | expr :: rest => by
      rw [ofExprs, ofExprs, ofExpr_lenient expr, ofExprs_lenient rest]
      cases ofExpr config expr <;> cases ofExprs config rest <;> rfl

end

theorem compile_lenient {expr : Expr} :
    compile { config with unbound := .undefined } expr = (compile config expr).map lenient := by
  unfold compile
  cases expr.checkDepth config.maxDepth with
  | error error => rfl
  | ok _ => exact ofExpr_lenient expr

end

section

variable {host : Host} {context : Context}

mutual

theorem run_stricter : (program : Program) → (id : Nat) →
    (program.run host context id).Stricter (program.lenient.run host context id)
  | .literal _, _ => .refl
  | .variable name policy, id => by
      simp only [run, lenient]
      cases context.get? name with
      | some value => exact .refl
      | none =>
          cases policy with
          | undefined => exact .refl
          | error => exact Run.fail_stricter rfl
  | .amount inner _, id | .negate inner, id | .not inner, id =>
      Run.bind_stricter (run_stricter inner id) fun _ _ => .refl
  | .member target _ _, id =>
      Run.bind_stricter (run_stricter target id) fun _ _ => Value.readProperty_stricter
  | .binary _ left right, id | .index left right, id =>
      Run.bind_stricter (run_stricter left id) fun _ id =>
        Run.bind_stricter (run_stricter right id) fun _ _ => .refl
  | .call callee args, id =>
      Run.bind_stricter (run_stricter callee id) fun _ id =>
        Run.bind_stricter (runAll_stricter args id) fun _ _ => .refl

theorem runAll_stricter : (programs : List Program) → (id : Nat) →
    (runAll host context programs id).Stricter (runAll host context (lenientAll programs) id)
  | [], _ => .refl
  | program :: rest, id =>
      Run.bind_stricter (run_stricter program id) fun _ id =>
        Run.bind_stricter (runAll_stricter rest id) fun _ _ => .refl

end

end

/-- Both policies compile the same expressions.  A strict run that ends well, or with an error that
is not about something missing, is the lenient run; else its events begin those of the lenient
run. -/
theorem strict_run_refines (config : Config) (expr : Expr) :
    let strict : Config := { config with unbound := .error }
    let lenient : Config := { config with unbound := .undefined }
    (∀ fault, compile strict expr = .error fault ↔ compile lenient expr = .error fault) ∧
    ∀ program program', compile strict expr = .ok program → compile lenient expr = .ok program' →
      ∀ host context id,
        let outcome := program.run host context id
        let outcome' := program'.run host context id
        (∀ value, outcome.result = .ok value →
          outcome'.result = .ok value ∧ outcome'.events = outcome.events) ∧
        (∀ error, outcome.result = .error error → error.isMissing = false →
          outcome'.result = .error error ∧ outcome'.events = outcome.events) ∧
        (∀ error, outcome.result = .error error → error.isMissing = true →
          outcome.events <+: outcome'.events) := by
  intro strict lenient
  have relaxed : compile lenient expr = (compile strict expr).map Program.lenient :=
    @compile_lenient strict expr
  refine ⟨fun fault => ?_, ?_⟩
  · rw [relaxed]
    cases compile strict expr <;> simp [Except.map]
  · intro program program' compiled compiledLenient host context id outcome outcome'
    rw [relaxed, compiled] at compiledLenient
    obtain rfl := Except.ok.inj compiledLenient
    have stricter : outcome.Stricter outcome' := run_stricter program id
    refine ⟨fun value done => ?_, fun error failed notMissing => ?_,
      fun _ _ _ => stricter.events_begin⟩
    · have same : outcome' = outcome := stricter.eq fun error failed => by
        cases failed.symm.trans done
      rw [same]
      exact ⟨done, rfl⟩
    · have same : outcome' = outcome := stricter.eq fun other failedToo => by
        cases failed.symm.trans failedToo
        exact notMissing
      rw [same]
      exact ⟨failed, rfl⟩

/-- Where the second name is missing the strict run stops after the first call; where it is bound,
the two runs are one. -/
theorem strict_run_refines_calls :
    let code : Function := ⟨0, "f", 1, .count⟩
    let called : Expr := .call (.variable "f") [.number "7"]
    let expr : Expr := .binary .or called (.binary .and (.variable "g") called)
    let context := Context.empty.define "f" (.function code)
    let bound := context.define "g" (.bool true)
    ∃ program program', compile ⟨.error, 0, 9⟩ expr = .ok program ∧
      compile ⟨.undefined, 0, 9⟩ expr = .ok program' ∧
      (program.run .standard context 1).result = .error (.unboundVariable "g") ∧
      (program.run .standard context 1).events <+: (program'.run .standard context 1).events ∧
      (program.run .standard bound 1).result = .ok (.int 1) ∧
      (program'.run .standard bound 1).result = .ok (.int 1) ∧
      (program'.run .standard bound 1).events = (program.run .standard bound 1).events := by
  intro code called expr context bound
  let baked (policy : UnboundPolicy) : Program :=
    let called : Program := .call (.variable "f" policy) [.literal (.big 7)]
    .binary .or called (.binary .and (.variable "g" policy) called)
  have compiled : compile ⟨.error, 0, 9⟩ expr = .ok (baked .error) := by cbv
  have compiledLenient : compile ⟨.undefined, 0, 9⟩ expr = .ok (baked .undefined) := by cbv
  have runs := (strict_run_refines ⟨.error, 0, 9⟩ expr).2 _ _ compiled compiledLenient .standard
  have stopped : ((baked .error).run .standard context 1).result = .error (.unboundVariable "g") := by
    cbv
  have ended : ((baked .error).run .standard bound 1).result = .ok (.int 1) := by cbv
  obtain ⟨same, events⟩ := (runs bound 1).1 _ ended
  exact ⟨_, _, compiled, compiledLenient, stopped, (runs context 1).2.2 _ stopped rfl, ended, same,
    events⟩

end Program

end EtherCalc
