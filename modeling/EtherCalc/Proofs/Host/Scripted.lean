import EtherCalc.Host.Standard
import EtherCalc.Proofs.Semantics.Holding

namespace EtherCalc

theorem Script.run_act_done {host : Host} {action : Action} :
    (Script.act action .done).run host = action.run host := by
  funext id
  exact Run.ofExcept_after

namespace Host.Standard

/-- What a function asks for. -/
def script (code : Function) (receiver : Value) (args : List Value) : Script :=
  match Task.of code.routine, args with
  | .apply, callee :: rest => .act (.call callee rest) .done
  | .apply, [] | .undefined, _ => .done (.ok .undefined)
  | .count, _ => .done (.ok (Integer.toValue args.length))
  | .first, _ => .done (.ok (first args))
  | .list, _ => .fresh fun id => .done (.ok (.array id args))
  | .concat, _ => .done (.ok (.string (String.join (Value.displayAll args))))
  | .this, _ => .done (.ok receiver)
  | .kind, _ => .done (.ok (.string receiver.typeName))
  | .constant value, _ => .done (.ok (.bool value))
  | .sum, _ => .done (sum receiver args)
  | .fail, _ => .done (.error (.host (" ".intercalate (Value.displayAll args))))
  | .divideByZero, _ => .done (.error .divisionByZero)
  | .get, _ => .act (.property .error receiver ((args.head?.map Value.display).getD "")) .done
  | .index, _ => .act (.item receiver (first args)) .done

theorem scripted : standard.Scripted script := by
  intro code receiver args
  change perform (.of code.routine) receiver args = _
  unfold script
  generalize Task.of code.routine = task
  cases task with
  | apply =>
      cases args with
      | nil => rfl
      | cons callee rest => exact (@Script.run_act_done standard (.call callee rest)).symm
  | get =>
      unfold perform
      exact (@Script.run_act_done standard (.property .error receiver _)).symm
  | index =>
      unfold perform
      exact (@Script.run_act_done standard (.item receiver (first args))).symm
  | _ =>
      unfold perform
      rfl

variable {given : Method → Prop} {known : Method → Prop} {receiver : Value} {args : List Value}

theorem objects_plain : objects.Plain given where
  property object name id := by
    simp only [objects, property]
    split
    · simp only [ledgerProperty]
      split
      all_goals
        refine ⟨rfl, ?_⟩
        rintro value ⟨⟩
      · exact Integer.toValue_methodsIn
      all_goals trivial
    · exact ⟨rfl, nofun⟩
  item object position id := by
    simp only [objects, item]
    split
    · simp only [ledgerItem]
      cases object.contents[position]? with
      | some balance => exact ⟨rfl, yields_ok trivial⟩
      | none => exact ⟨rfl, yields_error⟩
    split
    · exact ⟨rfl, yields_ok trivial⟩
    · exact ⟨rfl, yields_error⟩

theorem first_methodsIn (holds : Value.MethodsInAll known args) : (first args).MethodsIn known := by
  cases args with
  | nil => trivial
  | cons value rest => exact holds.1

theorem sum_yields : Yields known (sum receiver args) := by
  cases receiver with
  | object => exact yields_map fun _ => trivial
  | _ => exact yields_error

theorem honest : Host.Honest given script := by
  intro known code receiver args le holdsReceiver holdsArgs
  unfold script
  generalize Task.of code.routine = task
  cases task with
  | apply =>
      cases args with
      | nil => exact yields_ok trivial
      | cons callee rest => exact ⟨holdsArgs, fun _ _ _ yields => yields⟩
  | count => exact yields_ok Integer.toValue_methodsIn
  | first => exact yields_ok (first_methodsIn holdsArgs)
  | list => exact fun id => yields_ok holdsArgs
  | this => exact yields_ok holdsReceiver
  | sum => exact sum_yields
  | fail | divideByZero => exact yields_error
  | get => exact ⟨holdsReceiver, fun _ _ _ yields => yields⟩
  | index => exact ⟨⟨holdsReceiver, first_methodsIn holdsArgs⟩, fun _ _ _ yields => yields⟩
  | _ => exact yields_ok trivial

end Host.Standard

end EtherCalc
