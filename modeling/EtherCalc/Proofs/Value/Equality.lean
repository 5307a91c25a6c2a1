import EtherCalc.Host.Standard
import EtherCalc.Arithmetic
import Mathlib.Data.List.Perm.Basic

/-!
Equality of contents is an equivalence relation.

It looks up the fields of one object in the other, so it is one only for values whose objects name
each field once, as they do when they are built by inserting fields.  Where the operators find two
values equal that are no integers of any size, their contents are equal too, provided that handles
of one array, object or receiver hold the same.
-/

namespace EtherCalc

namespace Value

/-- The values that a value is made of. -/
def parts : Value → List Value
  | .array _ items => items
  | .object _ _ fields => fields.map (·.2)
  | .method _ receiver _ => [receiver]
  | _ => []

/-- No object in the value names a field twice. -/
inductive NamesOnce : Value → Prop where
  | intro {value : Value}
      (distinct : ∀ {id typeName fields}, value = .object id typeName fields →
        (Entries.names fields).Nodup)
      (parts : ∀ part ∈ value.parts, NamesOnce part) : NamesOnce value

/-- The second value has the contents of the first one, but for the order in which the fields of
objects were inserted. -/
inductive Reordered : Value → Value → Prop where
  | refl {value : Value} : Reordered value value
  | trans {first second third : Value} : Reordered first second → Reordered second third →
      Reordered first third
  | order {id id' : Nat} {typeName : String} {fields fields' : List (String × Value)} :
      fields.Perm fields' → Reordered (.object id typeName fields) (.object id' typeName fields')
  | item {id id' : Nat} {before after : List Value} {value value' : Value} :
      Reordered value value' →
        Reordered (.array id (before ++ value :: after)) (.array id' (before ++ value' :: after))
  | field {id id' : Nat} {typeName name : String} {before after : List (String × Value)}
      {value value' : Value} : Reordered value value' →
        Reordered (.object id typeName (before ++ (name, value) :: after))
          (.object id' typeName (before ++ (name, value') :: after))
  | receiver {id id' : Nat} {value value' : Value} {code : Function} : Reordered value value' →
      Reordered (.method id value code) (.method id' value' code)

/-- If the values are handles of one array or object, or methods of one receiver, they are clones of
each other. -/
def Clones : Value → Value → Prop
  | .array id items, .array id' items' => id = id' → items = items'
  | .object id typeName fields, .object id' typeName' fields' =>
      id = id' → typeName = typeName' ∧ fields = fields'
  | .method id receiver _, .method id' receiver' _ => id = id' → receiver = receiver'
  | _, _ => True

section

variable {value value' other left right : Value} {items others : List Value} {id : Nat}
variable {typeName : String} {code : Function} {resource : HostObject}
variable {fields fields' : List (String × Value)}

theorem same_object {id' : Nat} {typeName' : String} :
    same (.object id typeName fields) (.object id' typeName' fields') =
      (typeName == typeName' && fields.length == fields'.length && sameFields fields fields') :=
  rfl

theorem same_method {id' : Nat} {code' : Function} :
    same (.method id value code) (.method id' other code') =
      (code.id == code'.id && same value other) :=
  rfl

theorem sameAll_cons : sameAll (value :: items) (other :: others) =
    (same value other && sameAll items others) :=
  rfl

theorem sameFields_cons {name : String} : sameFields ((name, value) :: fields) fields' =
    ((match Entries.find? name fields' with
      | none => false
      | some other => same value other) && sameFields fields fields') :=
  rfl

theorem sameFields_iff {fields others : List (String × Value)} : sameFields fields others = true ↔
    ∀ field ∈ fields, ∃ other, Entries.find? field.1 others = some other ∧
      same field.2 other = true := by
  induction fields with
  | nil => exact ⟨nofun, fun _ => rfl⟩
  | cons field rest ih =>
      obtain ⟨name, value⟩ := field
      rw [sameFields_cons, Bool.and_eq_true, ih, List.forall_mem_cons]
      cases Entries.find? name others <;> simp

theorem sameAll_iff : sameAll items others = true ↔ items.length = others.length ∧
    ∀ place (inItems : place < items.length) (inOthers : place < others.length),
      same items[place] others[place] = true := by
  induction items generalizing others with
  | nil =>
      cases others with
      | nil => exact ⟨fun _ => ⟨rfl, nofun⟩, fun _ => rfl⟩
      | cons => exact ⟨nofun, nofun⟩
  | cons item rest ih =>
      cases others with
      | nil => exact ⟨nofun, nofun⟩
      | cons other others =>
          rw [sameAll_cons, Bool.and_eq_true, ih]
          constructor
          · rintro ⟨first, length, later⟩
            refine ⟨congrArg (· + 1) length, fun place inItems inOthers => ?_⟩
            cases place with
            | zero => exact first
            | succ place =>
                exact later place (Nat.lt_of_succ_lt_succ inItems) (Nat.lt_of_succ_lt_succ inOthers)
          · rintro ⟨length, each⟩
            refine ⟨each 0 (Nat.succ_pos _) (Nat.succ_pos _), Nat.succ.inj length, ?_⟩
            intro place inItems inOthers
            exact each (place + 1) (Nat.succ_lt_succ inItems) (Nat.succ_lt_succ inOthers)

theorem same_array_iff : same (.array id items) other = true ↔
    ∃ id' others, other = .array id' others ∧ sameAll items others = true := by
  constructor
  · intro equal
    cases other with
    | array id' others => exact ⟨id', others, rfl, equal⟩
    | _ => contradiction
  · rintro ⟨id', others, rfl, equal⟩
    exact equal

theorem same_object_iff : same (.object id typeName fields) other = true ↔
    ∃ id' others, other = .object id' typeName others ∧ fields.length = others.length ∧
      sameFields fields others = true := by
  constructor
  · intro equal
    cases other with
    | object id' typeName' others =>
        simp only [same_object, Bool.and_eq_true, beq_iff_eq] at equal
        obtain ⟨⟨rfl, length⟩, equal⟩ := equal
        exact ⟨id', others, rfl, length, equal⟩
    | _ => contradiction
  · rintro ⟨id', others, rfl, length, equal⟩
    simp [same_object, length, equal]

theorem same_method_iff : same (.method id value code) other = true ↔
    ∃ id' receiver code', other = .method id' receiver code' ∧ code.id = code'.id ∧
      same value receiver = true := by
  constructor
  · intro equal
    cases other with
    | method id' receiver code' =>
        rw [same_method, Bool.and_eq_true, beq_iff_eq] at equal
        exact ⟨id', receiver, code', rfl, equal⟩
    | _ => contradiction
  · rintro ⟨id', receiver, code', rfl, sameId, equal⟩
    rw [same_method, equal, sameId, beq_self_eq_true, Bool.and_self]

theorem same_host_iff : same (.host id resource) other = true ↔
    ∃ resource', other = .host id resource' := by
  constructor
  · intro equal
    cases other with
    | host id' resource' =>
        obtain rfl : id = id' := beq_iff_eq.mp equal
        exact ⟨resource', rfl⟩
    | _ => contradiction
  · rintro ⟨resource', rfl⟩
    exact beq_self_eq_true id

theorem same_function_iff : same (.function code) other = true ↔
    ∃ code', other = .function code' ∧ code.id = code'.id := by
  constructor
  · intro equal
    cases other with
    | function code' => exact ⟨code', rfl, beq_iff_eq.mp equal⟩
    | _ => contradiction
  · rintro ⟨code', rfl, sameId⟩
    exact beq_iff_eq.mpr sameId

/-- Nothing but itself is equal to a scalar. -/
theorem same_scalar (scalar : value.isHost = false) (equal : same value other = true) :
    value = other := by
  cases value with
  | array | object | host | function | method => contradiction
  | undefined =>
      cases other with
      | undefined => rfl
      | _ => contradiction
  | bool | int | big | string =>
      cases other <;> first
        | contradiction
        | exact congrArg _ (beq_iff_eq.mp equal)

theorem same_refl (once : value.NamesOnce) : same value value = true := by
  induction once with
  | @intro value distinct parts ih =>
      cases value with
      | array id items =>
          exact sameAll_iff.mpr ⟨rfl, fun place inItems _ => ih _ (List.getElem_mem inItems)⟩
      | object id typeName fields =>
          have equal : sameFields fields fields = true := by
            refine sameFields_iff.mpr fun field member => ⟨field.2, ?_, ?_⟩
            · exact (Entries.find?_eq_some_iff (distinct rfl)).mpr member
            · exact ih field.2 (List.mem_map_of_mem member)
          exact same_object_iff.mpr ⟨id, fields, rfl, rfl, equal⟩
      | method id receiver code =>
          exact same_method_iff.mpr ⟨id, receiver, code, rfl, rfl, ih receiver List.mem_cons_self⟩
      | undefined => rfl
      | bool | int | big | string | host | function => exact beq_self_eq_true _

/-- If each field has an equal one in the other object, and the objects have equally many, then no
field of the other object is left over. -/
theorem sameFields_symm (length : fields.length = fields'.length)
    (distinct : (Entries.names fields).Nodup) (distinctOthers : (Entries.names fields').Nodup)
    (symm : ∀ field ∈ fields, ∀ other ∈ fields', same field.2 other.2 = true →
      same other.2 field.2 = true)
    (equal : sameFields fields fields' = true) : sameFields fields' fields = true := by
  have equal := sameFields_iff.mp equal
  have subset : Entries.names fields ⊆ Entries.names fields' := by
    intro name named
    obtain ⟨field, member, rfl⟩ := List.mem_map.mp named
    obtain ⟨other, found, _⟩ := equal field member
    exact Entries.mem_names_of_find? found
  have enough : (Entries.names fields').length ≤ (Entries.names fields).length := by
    simp [Entries.names, length]
  have perm := (List.subperm_of_subset distinct subset).perm_of_length_le enough
  refine sameFields_iff.mpr fun other member => ?_
  have named : other.1 ∈ Entries.names fields := perm.mem_iff.mpr (List.mem_map_of_mem member)
  obtain ⟨field, inFields, sameName⟩ := List.mem_map.mp named
  obtain ⟨partner, found, alike⟩ := equal field inFields
  -- The partner of the field is the other field that was asked for.
  rw [sameName, (Entries.find?_eq_some_iff distinctOthers).mpr member] at found
  cases found
  refine ⟨field.2, ?_, symm field inFields other member alike⟩
  rw [← sameName]
  exact (Entries.find?_eq_some_iff distinct).mpr inFields

theorem same_symm (once : left.NamesOnce) (onceRight : right.NamesOnce)
    (equal : same left right = true) : same right left = true := by
  induction once generalizing right with
  | @intro left distinct parts ih =>
      obtain ⟨distinctRight, partsRight⟩ := onceRight
      cases left with
      | array id items =>
          obtain ⟨id', others, rfl, equal⟩ := same_array_iff.mp equal
          obtain ⟨length, each⟩ := sameAll_iff.mp equal
          refine sameAll_iff.mpr ⟨length.symm, fun place inOthers inItems => ?_⟩
          exact ih _ (List.getElem_mem inItems) (partsRight _ (List.getElem_mem inOthers))
            (each place inItems inOthers)
      | object id typeName fields =>
          obtain ⟨id', others, rfl, length, equal⟩ := same_object_iff.mp equal
          refine same_object_iff.mpr ⟨id, fields, rfl, length.symm, ?_⟩
          refine sameFields_symm length (distinct rfl) (distinctRight rfl) ?_ equal
          intro field inFields other inOthers alike
          exact ih field.2 (List.mem_map_of_mem inFields)
            (partsRight other.2 (List.mem_map_of_mem inOthers)) alike
      | method id receiver code =>
          obtain ⟨id', receiver', code', rfl, sameId, equal⟩ := same_method_iff.mp equal
          refine same_method_iff.mpr ⟨id, receiver, code, rfl, sameId.symm, ?_⟩
          exact ih receiver List.mem_cons_self (partsRight receiver' List.mem_cons_self) equal
      | host id resource =>
          obtain ⟨resource', rfl⟩ := same_host_iff.mp equal
          exact same_host_iff.mpr ⟨resource, rfl⟩
      | function code =>
          obtain ⟨code', rfl, sameId⟩ := same_function_iff.mp equal
          exact same_function_iff.mpr ⟨code, rfl, sameId.symm⟩
      | _ =>
          obtain rfl := same_scalar rfl equal
          exact equal

theorem same_trans (once : left.NamesOnce) (equal : same left value = true)
    (equalToo : same value right = true) : same left right = true := by
  induction once generalizing value right with
  | @intro left distinct parts ih =>
      cases left with
      | array id items =>
          obtain ⟨id', others, rfl, equal⟩ := same_array_iff.mp equal
          obtain ⟨id', lasts, rfl, equalToo⟩ := same_array_iff.mp equalToo
          obtain ⟨length, each⟩ := sameAll_iff.mp equal
          obtain ⟨lengthToo, eachToo⟩ := sameAll_iff.mp equalToo
          refine sameAll_iff.mpr ⟨length.trans lengthToo, fun place inItems inLasts => ?_⟩
          have inOthers : place < others.length := length ▸ inItems
          exact ih _ (List.getElem_mem inItems) (each place inItems inOthers)
            (eachToo place inOthers inLasts)
      | object id typeName fields =>
          obtain ⟨id', others, rfl, length, equal⟩ := same_object_iff.mp equal
          obtain ⟨id', lasts, rfl, lengthToo, equalToo⟩ := same_object_iff.mp equalToo
          refine same_object_iff.mpr ⟨id', lasts, rfl, length.trans lengthToo, ?_⟩
          refine sameFields_iff.mpr fun field member => ?_
          obtain ⟨other, found, alike⟩ := sameFields_iff.mp equal field member
          obtain ⟨last, foundToo, alikeToo⟩ :=
            sameFields_iff.mp equalToo _ (Entries.mem_of_find? found)
          exact ⟨last, foundToo, ih field.2 (List.mem_map_of_mem member) alike alikeToo⟩
      | method id receiver code =>
          obtain ⟨id', receiver', code', rfl, sameId, equal⟩ := same_method_iff.mp equal
          obtain ⟨id', receiver', code', rfl, sameIdToo, equalToo⟩ := same_method_iff.mp equalToo
          exact same_method_iff.mpr ⟨_, _, _, rfl, sameId.trans sameIdToo,
            ih receiver List.mem_cons_self equal equalToo⟩
      | host id resource =>
          obtain ⟨resource', rfl⟩ := same_host_iff.mp equal
          exact same_host_iff.mpr (same_host_iff.mp equalToo)
      | function code =>
          obtain ⟨code', rfl, sameId⟩ := same_function_iff.mp equal
          obtain ⟨code', rfl, sameIdToo⟩ := same_function_iff.mp equalToo
          exact same_function_iff.mpr ⟨_, rfl, sameId.trans sameIdToo⟩
      | _ =>
          obtain rfl := same_scalar rfl equal
          exact equalToo

theorem namesOnce_array_iff :
    (array id items).NamesOnce ↔ ∀ item ∈ items, item.NamesOnce :=
  ⟨fun ⟨_, parts⟩ => parts, fun parts => ⟨nofun, parts⟩⟩

theorem namesOnce_object_iff : (object id typeName fields).NamesOnce ↔
    (Entries.names fields).Nodup ∧ ∀ field ∈ fields, field.2.NamesOnce := by
  constructor
  · rintro ⟨distinct, parts⟩
    exact ⟨distinct rfl, fun field member => parts field.2 (List.mem_map_of_mem member)⟩
  · rintro ⟨distinct, parts⟩
    refine ⟨fun { _ _ _ } isObject => ?_, List.forall_mem_map.mpr parts⟩
    cases isObject
    exact distinct

theorem namesOnce_method_iff : (method id value code).NamesOnce ↔ value.NamesOnce :=
  ⟨fun ⟨_, parts⟩ => parts value List.mem_cons_self,
    fun once => ⟨nofun, List.forall_mem_singleton.mpr once⟩⟩

/-- Inserting a field, or replacing it, keeps the names of fields distinct. -/
theorem namesOnce_put {name : String} (once : (object id typeName fields).NamesOnce)
    (onceValue : value.NamesOnce) :
    (object id typeName (Entries.put name value fields)).NamesOnce := by
  obtain ⟨distinct, parts⟩ := namesOnce_object_iff.mp once
  have distinctPut : (Entries.names (Entries.put name value fields)).Nodup :=
    Entries.nodup_names_put distinct
  refine namesOnce_object_iff.mpr ⟨distinctPut, fun field member => ?_⟩
  have found := (Entries.find?_eq_some_iff distinctPut).mpr member
  rw [Entries.find?_put] at found
  split at found
  · cases found
    exact onceValue
  · exact parts _ ((Entries.find?_eq_some_iff distinct).mp found)

theorem Reordered.namesOnce (reordered : value.Reordered value') (once : value.NamesOnce) :
    value'.NamesOnce := by
  induction reordered with
  | refl => exact once
  | trans _ _ ih ihToo => exact ihToo (ih once)
  | order perm =>
      obtain ⟨distinct, parts⟩ := namesOnce_object_iff.mp once
      exact namesOnce_object_iff.mpr ⟨(perm.map Prod.fst).nodup_iff.mp distinct,
        fun field member => parts field (perm.mem_iff.mpr member)⟩
  | item _ ih =>
      have parts := namesOnce_array_iff.mp once
      simp only [List.forall_mem_append, List.forall_mem_cons] at parts
      obtain ⟨before, one, after⟩ := parts
      refine namesOnce_array_iff.mpr (List.forall_mem_append.mpr ⟨before, ?_⟩)
      exact List.forall_mem_cons.mpr ⟨ih one, after⟩
  | field _ ih =>
      obtain ⟨distinct, parts⟩ := namesOnce_object_iff.mp once
      simp only [List.forall_mem_append, List.forall_mem_cons] at parts
      obtain ⟨before, one, after⟩ := parts
      refine namesOnce_object_iff.mpr ⟨?_, List.forall_mem_append.mpr ⟨before, ?_⟩⟩
      · simpa [Entries.names] using distinct
      · exact List.forall_mem_cons.mpr ⟨ih one, after⟩
  | receiver _ ih => exact namesOnce_method_iff.mpr (ih (namesOnce_method_iff.mp once))

theorem sameAll_item {before after : List Value} (once : ∀ item ∈ before, item.NamesOnce)
    (onceAfter : ∀ item ∈ after, item.NamesOnce) (equal : same value value' = true) :
    sameAll (before ++ value :: after) (before ++ value' :: after) = true := by
  induction before with
  | nil =>
      have itself : sameAll after after = true :=
        sameAll_iff.mpr ⟨rfl, fun _ inAfter _ => same_refl (onceAfter _ (List.getElem_mem inAfter))⟩
      rw [List.nil_append, List.nil_append, sameAll_cons, equal, itself, Bool.and_self]
  | cons item before ih =>
      obtain ⟨onceItem, onceBefore⟩ := List.forall_mem_cons.mp once
      rw [List.cons_append, List.cons_append, sameAll_cons, same_refl onceItem, ih onceBefore,
        Bool.and_self]

theorem Reordered.same (reordered : value.Reordered value') (once : value.NamesOnce) :
    same value value' = true := by
  induction reordered with
  | refl => exact same_refl once
  | trans first _ ih ihToo => exact same_trans once (ih once) (ihToo (first.namesOnce once))
  | @order _ id' typeName fields fields' perm =>
      have once' : (object id' typeName fields').NamesOnce := (order perm).namesOnce once
      obtain ⟨distinct', _⟩ := namesOnce_object_iff.mp once'
      refine same_object_iff.mpr ⟨id', fields', rfl, perm.length_eq, sameFields_iff.mpr ?_⟩
      intro field member
      refine ⟨field.2, (Entries.find?_eq_some_iff distinct').mpr (perm.mem_iff.mp member), ?_⟩
      exact same_refl ((namesOnce_object_iff.mp once).2 field member)
  | item _ ih =>
      have parts := namesOnce_array_iff.mp once
      simp only [List.forall_mem_append, List.forall_mem_cons] at parts
      obtain ⟨before, one, after⟩ := parts
      exact sameAll_item before after (ih one)
  | @field _ id' typeName name before after value value' reordered ih =>
      have once' : (object id' typeName (before ++ (name, value') :: after)).NamesOnce :=
        reordered.field.namesOnce once
      obtain ⟨distinct', _⟩ := namesOnce_object_iff.mp once'
      obtain ⟨_, parts⟩ := namesOnce_object_iff.mp once
      refine same_object_iff.mpr ⟨id', _, rfl, by simp, sameFields_iff.mpr fun field member => ?_⟩
      by_cases isField : field = (name, value)
      · subst isField
        refine ⟨value', (Entries.find?_eq_some_iff distinct').mpr ?_, ih (parts _ member)⟩
        exact List.mem_append_right _ List.mem_cons_self
      · refine ⟨field.2, (Entries.find?_eq_some_iff distinct').mpr ?_, same_refl (parts _ member)⟩
        simp only [List.mem_append, List.mem_cons, isField, false_or] at member ⊢
        exact member.imp_right .inr
  | receiver _ ih =>
      exact same_method_iff.mpr ⟨_, _, _, rfl, rfl, ih (namesOnce_method_iff.mp once)⟩

/-- Reordering the fields on either side makes no difference. -/
theorem same_reordered {left' right' : Value} (once : left.NamesOnce) (onceRight : right.NamesOnce)
    (reordered : left.Reordered left') (reorderedRight : right.Reordered right') :
    Value.same left' right' = Value.same left right := by
  have once' := reordered.namesOnce once
  have onceRight' := reorderedRight.namesOnce onceRight
  have alike := reordered.same once
  have alikeRight := reorderedRight.same onceRight
  rw [Bool.eq_iff_iff]
  constructor
  · intro equal
    exact same_trans once alike (same_trans once' equal (same_symm onceRight onceRight' alikeRight))
  · intro equal
    exact same_trans once' (same_symm once once' alike) (same_trans once equal alikeRight)

theorem same_of_identical (once : left.NamesOnce) (clones : left.Clones right)
    (equal : left.identical right = true) : same left right = true := by
  cases left with
  | array id items =>
      cases right with
      | array id' items' =>
          obtain rfl := clones (beq_iff_eq.mp equal)
          exact same_refl once
      | _ => contradiction
  | object id typeName fields =>
      cases right with
      | object id' typeName' fields' =>
          obtain ⟨rfl, rfl⟩ := clones (beq_iff_eq.mp equal)
          exact same_refl once
      | _ => contradiction
  | method id receiver code =>
      cases right with
      | method id' receiver' code' =>
          obtain ⟨sameCode, sameReceiver⟩ := Bool.and_eq_true_iff.mp equal
          obtain rfl := clones (beq_iff_eq.mp sameReceiver)
          exact same_method_iff.mpr ⟨id', receiver, code', rfl, beq_iff_eq.mp sameCode,
            same_refl (namesOnce_method_iff.mp once)⟩
      | _ => contradiction
  | _ => cases right <;> first | contradiction | exact equal

theorem identical_of_eq (small : Arithmetic.isBig left = false)
    (smallRight : Arithmetic.isBig right = false)
    (equal : Arithmetic.apply .eq left right = .ok (.bool true)) :
    left.identical right = true := by
  have plain : Arithmetic.unify left right = .ok (.plain left right) := by
    simp [Arithmetic.unify, small, smallRight]
  rw [Arithmetic.apply, Arithmetic.equals, plain] at equal
  simpa [Except.map] using equal

end

/-- Among values whose objects name each field once, equality of contents is an equivalence
relation, in which the order of the fields does not matter.  Values other than integers of any size
that the operators find equal are equal in it, if handles of one thing are clones. -/
theorem same_equivalence :
    Equivalence (fun left right : {value : Value // value.NamesOnce} =>
      same left.val right.val = true) ∧
    (∀ left left' right right' : Value, left.NamesOnce → right.NamesOnce →
      left.Reordered left' → right.Reordered right' → same left' right' = same left right) ∧
    ∀ left right : Value, left.NamesOnce → left.Clones right →
      Arithmetic.isBig left = false → Arithmetic.isBig right = false →
      Arithmetic.apply .eq left right = .ok (.bool true) → same left right = true := by
  refine ⟨⟨fun value => same_refl value.property, ?_, ?_⟩, ?_, ?_⟩
  · intro left right equal
    exact same_symm left.property right.property equal
  · intro left value right equal equalToo
    exact same_trans left.property equal equalToo
  · intro left left' right right' once onceRight reordered reorderedRight
    exact same_reordered once onceRight reordered reorderedRight
  · intro left right once clones small smallRight equal
    exact same_of_identical once clones (identical_of_eq small smallRight equal)

/-- Methods of two objects whose fields were inserted in different orders are equal, and a method
is found equal to itself. -/
theorem same_equivalence_orders :
    let code : Function := ⟨9, "f", 0, .this⟩
    let empty : Value := .object 0 "Token" []
    let items : Value := .array 1 [.undefined, empty]
    let fields := Entries.put "b" items (Entries.put "a" (.int 7) [])
    let others := Entries.put "a" (.int 7) (Entries.put "b" items [])
    let left : Value := .method 2 (.object 2 "Token" fields) code
    let right : Value := .method 3 (.object 3 "Token" others) code
    left.NamesOnce ∧ right.NamesOnce ∧ left.Reordered right ∧
      same left right = true ∧ same right left = true ∧ same right right = true ∧
      left.Clones left ∧ Arithmetic.apply .eq left left = .ok (.bool true) ∧
      same left left = true := by
  intro code empty items fields others left right
  obtain ⟨equivalence, reorder, found⟩ := same_equivalence
  have onceEmpty (id : Nat) : (object id "Token" []).NamesOnce :=
    namesOnce_object_iff.mpr ⟨List.nodup_nil, nofun⟩
  have onceInt : (int 7).NamesOnce := ⟨nofun, nofun⟩
  have onceItems : items.NamesOnce := namesOnce_array_iff.mpr
    (List.forall_mem_cons.mpr ⟨⟨nofun, nofun⟩, List.forall_mem_singleton.mpr (onceEmpty 0)⟩)
  have once : left.NamesOnce :=
    namesOnce_method_iff.mpr (namesOnce_put (namesOnce_put (onceEmpty 2) onceInt) onceItems)
  have onceRight : right.NamesOnce :=
    namesOnce_method_iff.mpr (namesOnce_put (namesOnce_put (onceEmpty 3) onceItems) onceInt)
  have reordered : left.Reordered right := .receiver (.order (List.Perm.swap _ _ _))
  have itself : same left left = true := found left left once (fun _ => rfl) rfl rfl rfl
  have equal : same left right = true :=
    (reorder left left left right once once .refl reordered).trans itself
  have back : same right left = true :=
    @Equivalence.symm _ _ equivalence ⟨left, once⟩ ⟨right, onceRight⟩ equal
  exact ⟨once, onceRight, reordered, equal, back, equivalence.refl ⟨right, onceRight⟩,
    fun _ => rfl, rfl, itself⟩

end Value

end EtherCalc
