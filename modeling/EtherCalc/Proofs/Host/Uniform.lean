import EtherCalc.Host.Standard
import EtherCalc.Proofs.Semantics.Correspondence

namespace EtherCalc.Host.Standard

variable {matching : Matching} {code code' : Function} {receiver receiver' : Value}
variable {args args' : List Value} {object : HostObject} {name : String} {position : Nat}

theorem ledgerProperty_corresponds {balances : List Int64} :
    Run.Corresponds Matching.Grows (fun later => Option.Rel (Value.Corresponds later)) matching
      (ledgerProperty balances name) (ledgerProperty balances name) := by
  unfold ledgerProperty
  split
  · exact Run.corresponds_pure (.some Integer.toValue_corresponds)
  · exact Run.corresponds_pure (.some .big)
  · exact Run.corresponds_pure (.some .undefined)
  · refine Run.corresponds_freshId.andThen fun _ pair => ?_
    exact Run.corresponds_pure (.some (.function ⟨pair, rfl, rfl, rfl⟩))
  · exact Run.corresponds_pure .none

theorem property_corresponds :
    Run.Corresponds Matching.Grows (fun later => Option.Rel (Value.Corresponds later)) matching
      (property object name) (property object name) := by
  unfold property
  split
  · exact ledgerProperty_corresponds
  · exact Run.corresponds_pure .none

theorem item_corresponds :
    Run.Corresponds Matching.Grows Value.Corresponds matching
      (item object position) (item object position) := by
  unfold item
  split
  · unfold ledgerItem
    split
    · exact Run.corresponds_pure .int
    · exact Run.corresponds_fail
  split
  · exact Run.corresponds_pure .big
  · exact Run.corresponds_fail

theorem sumAfter_eq {total : Int} (corresponds : Value.CorrespondsAll matching args args') :
    sumAfter total args' = sumAfter total args := by
  induction args generalizing total args' with
  | nil =>
      cases corresponds
      rfl
  | cons value rest ih =>
      cases corresponds with
      | cons first others =>
          rw [sumAfter, sumAfter, first.toInteger]
          split
          · rfl
          · exact ih others

theorem base_corresponds {fields fields' : List (String × Value)}
    (corresponds : Value.CorrespondsFields matching fields fields') :
    Value.Corresponds matching ((Entries.find? "base" fields).getD (.int 0))
      ((Entries.find? "base" fields').getD (.int 0)) := by
  have found := @Value.CorrespondsFields.find? _ _ _ "base" corresponds
  revert found
  generalize Entries.find? "base" fields = base
  generalize Entries.find? "base" fields' = base'
  intro found
  cases found with
  | some value => exact value
  | none => exact .int

theorem sum_related (corresponds : Value.Corresponds matching receiver receiver')
    (correspondsArgs : Value.CorrespondsAll matching args args') :
    Related (Value.Corresponds matching) (sum receiver args) (sum receiver' args') := by
  cases corresponds with
  | object _ fields =>
      rw [sum, sum, sumAfter_eq (.cons (base_corresponds fields) correspondsArgs)]
      refine related_eq.map fun total total' same => ?_
      subst same
      exact .big
  | _ => exact .error

theorem first_corresponds (corresponds : Value.CorrespondsAll matching args args') :
    Value.Corresponds matching (first args) (first args') := by
  cases corresponds with
  | nil => exact .undefined
  | cons value _ => exact value

theorem objects_uniform {limit : Nat} : objects.Uniform limit where
  property _ _ _ := property_corresponds
  item _ _ _ := item_corresponds

theorem perform_corresponds (task : Task) (args : List Value) : ∀ {matching receiver receiver' args'},
    Value.Corresponds matching receiver receiver' → Value.CorrespondsAll matching args args' →
      Run.Corresponds Matching.Grows Value.Corresponds matching
        (perform task receiver args) (perform task receiver' args') := by
  intro matching receiver receiver' args' receivers values
  cases task with
  | apply =>
      cases values with
      | nil => exact Run.corresponds_pure .undefined
      | cons callee rest =>
          -- The function that is called on has fewer arguments.
          refine Value.call_corresponds (fun grows code receiver => ?_) rest callee
          rw [code.routine]
          exact perform_corresponds _ _ receiver (rest.mono grows.keeps)
  | undefined =>
      unfold perform
      exact Run.corresponds_pure .undefined
  | count =>
      unfold perform
      rw [values.length]
      exact Run.corresponds_pure Integer.toValue_corresponds
  | first =>
      unfold perform
      exact Run.corresponds_pure (first_corresponds values)
  | list =>
      unfold perform
      refine Run.corresponds_freshId.andThen fun grows pair => ?_
      exact Run.corresponds_pure (.array pair (values.mono grows.keeps))
  | concat =>
      unfold perform
      rw [values.display]
      exact Run.corresponds_pure .string
  | this =>
      unfold perform
      exact Run.corresponds_pure receivers
  | kind =>
      unfold perform
      rw [receivers.typeName]
      exact Run.corresponds_pure .string
  | constant value =>
      unfold perform
      exact Run.corresponds_pure .bool
  | sum =>
      unfold perform
      exact Run.corresponds_ofExcept (sum_related receivers values)
  | fail =>
      unfold perform
      rw [values.display]
      exact Run.corresponds_fail
  | divideByZero =>
      unfold perform
      exact Run.corresponds_fail
  | get =>
      have name : (args'.head?.map Value.display).getD "" =
          (args.head?.map Value.display).getD "" := by
        cases values with
        | nil => rfl
        | cons value _ => exact value.display
      unfold perform
      rw [name]
      exact Value.readProperty_corresponds objects_uniform (Matching.fixes_zero) receivers
  | index =>
      unfold perform
      exact Value.readItem_corresponds objects_uniform (Matching.fixes_zero) receivers
        (first_corresponds values)
termination_by structural args

theorem invoke_corresponds (corresponds : Function.Corresponds matching code code')
    (receivers : Value.Corresponds matching receiver receiver')
    (values : Value.CorrespondsAll matching args args') :
    Run.Corresponds Matching.Grows Value.Corresponds matching
      (invoke code receiver args) (invoke code' receiver' args') := by
  rw [invoke, invoke, corresponds.routine]
  exact perform_corresponds _ _ receivers values

/-- The standard host does not look at identities, nor does what its functions call. -/
theorem uniform {limit : Nat} : standard.Uniform limit where
  objects := objects_uniform
  invoke _ := invoke_corresponds

end EtherCalc.Host.Standard
