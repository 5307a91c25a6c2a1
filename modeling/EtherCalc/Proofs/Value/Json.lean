import EtherCalc.Json.Printer
import EtherCalc.Proofs.Json.Order
import EtherCalc.Proofs.Numeral
import EtherCalc.Proofs.Semantics.Integers
import EtherCalc.Proofs.Value.Equality
import EtherCalc.Value.Json

namespace EtherCalc

namespace Json

/-- A signed word of 64 bits holds the number. -/
def Number.isWord : Number → Bool
  | .integer value => (Integer.narrow? value).isSome
  | .binary _ => false

mutual

/-- The data with the text of the number in the place of each number that is no word. -/
def wordsOnly : Json → Json
  | .number value => if value.isWord then .number value else .string value.text
  | .array items => .array (wordsOnlyAll items)
  | .object members => .object (wordsOnlyMembers members)
  | .null => .null
  | .bool value => .bool value
  | .string text => .string text
termination_by structural json => json

def wordsOnlyAll : List Json → List Json
  | [] => []
  | json :: rest => json.wordsOnly :: wordsOnlyAll rest
termination_by structural jsons => jsons

def wordsOnlyMembers : List (String × Json) → List (String × Json)
  | [] => []
  | (name, json) :: rest => (name, json.wordsOnly) :: wordsOnlyMembers rest
termination_by structural members => members

end

mutual

/-- All numbers in the data are words. -/
def HasWordsOnly : Json → Prop
  | .number value => value.isWord = true
  | .array items => HasWordsOnlyAll items
  | .object members => HasWordsOnlyMembers members
  | .null | .bool _ | .string _ => True
termination_by structural json => json

def HasWordsOnlyAll : List Json → Prop
  | [] => True
  | json :: rest => json.HasWordsOnly ∧ HasWordsOnlyAll rest
termination_by structural jsons => jsons

def HasWordsOnlyMembers : List (String × Json) → Prop
  | [] => True
  | (_, json) :: rest => json.HasWordsOnly ∧ HasWordsOnlyMembers rest
termination_by structural members => members

end

mutual

theorem wordsOnly_eq_self : (json : Json) → json.HasWordsOnly → json.wordsOnly = json
  | .number _, isWord => if_pos isWord
  | .array items, words => congrArg Json.array (wordsOnlyAll_eq_self items words)
  | .object members, words => congrArg Json.object (wordsOnlyMembers_eq_self members words)
  | .null, _ | .bool _, _ | .string _, _ => rfl

theorem wordsOnlyAll_eq_self : (jsons : List Json) → HasWordsOnlyAll jsons →
    wordsOnlyAll jsons = jsons
  | [], _ => rfl
  | json :: rest, ⟨words, wordsRest⟩ => by
      rw [wordsOnlyAll, wordsOnly_eq_self json words, wordsOnlyAll_eq_self rest wordsRest]

theorem wordsOnlyMembers_eq_self : (members : List (String × Json)) → HasWordsOnlyMembers members →
    wordsOnlyMembers members = members
  | [], _ => rfl
  | (_, json) :: rest, ⟨words, wordsRest⟩ => by
      rw [wordsOnlyMembers, wordsOnly_eq_self json words, wordsOnlyMembers_eq_self rest wordsRest]

end

mutual

theorem hasWordsOnly_wordsOnly : (json : Json) → json.wordsOnly.HasWordsOnly
  | .number value => by
      rw [wordsOnly]
      split
      · rename_i isWord
        exact isWord
      · trivial
  | .array items => hasWordsOnlyAll_wordsOnlyAll items
  | .object members => hasWordsOnlyMembers_wordsOnlyMembers members
  | .null | .bool _ | .string _ => trivial

theorem hasWordsOnlyAll_wordsOnlyAll : (jsons : List Json) → HasWordsOnlyAll (wordsOnlyAll jsons)
  | [] => trivial
  | json :: rest => ⟨hasWordsOnly_wordsOnly json, hasWordsOnlyAll_wordsOnlyAll rest⟩

theorem hasWordsOnlyMembers_wordsOnlyMembers : (members : List (String × Json)) →
    HasWordsOnlyMembers (wordsOnlyMembers members)
  | [] => trivial
  | (_, json) :: rest => ⟨hasWordsOnly_wordsOnly json, hasWordsOnlyMembers_wordsOnlyMembers rest⟩

end

theorem names_wordsOnlyMembers {members : List (String × Json)} :
    Entries.names (wordsOnlyMembers members) = Entries.names members := by
  induction members with
  | nil => rfl
  | cons member rest ih => simpa [wordsOnlyMembers, Entries.names] using ih

mutual

theorem ordered_wordsOnly : (json : Json) → json.Ordered → json.wordsOnly.Ordered
  | .number value, _ => by
      rw [wordsOnly]
      split <;> trivial
  | .array items, ordered => orderedAll_wordsOnlyAll items ordered
  | .object members, ⟨ascending, ordered⟩ =>
      ⟨ascending_of_names names_wordsOnlyMembers ascending,
        orderedMembers_wordsOnlyMembers members ordered⟩
  | .null, _ | .bool _, _ | .string _, _ => trivial

theorem orderedAll_wordsOnlyAll : (jsons : List Json) → OrderedAll jsons →
    OrderedAll (wordsOnlyAll jsons)
  | [], _ => trivial
  | json :: rest, ⟨ordered, orderedRest⟩ =>
      ⟨ordered_wordsOnly json ordered, orderedAll_wordsOnlyAll rest orderedRest⟩

theorem orderedMembers_wordsOnlyMembers : (members : List (String × Json)) →
    OrderedMembers members → OrderedMembers (wordsOnlyMembers members)
  | [], _ => trivial
  | (_, json) :: rest, ⟨ordered, orderedRest⟩ =>
      ⟨ordered_wordsOnly json ordered, orderedMembers_wordsOnlyMembers rest orderedRest⟩

end

end Json

namespace Value

section

variable {nextId : Nat} {name : String} {json : Json} {members : List (String × Json)}
variable {entry : String × Value} {fields : List (String × Value)}

theorem names_ofMembers : Entries.names (ofMembers nextId members).1 = Entries.names members := by
  induction members generalizing nextId with
  | nil => rfl
  | cons member rest ih =>
      simp only [ofMembers, Entries.names, List.map_cons, List.cons.injEq, true_and]
      exact ih

theorem names_toMembers : Entries.names (toMembers fields) = Entries.names fields := by
  induction fields with
  | nil => rfl
  | cons field rest ih => simpa [toMembers, Entries.names] using ih

/-- The fields of an object are made of its members, with identities of their own. -/
theorem mem_ofMembers (found : entry ∈ (ofMembers nextId members).1) :
    ∃ id json, (entry.1, json) ∈ members ∧ (ofJson id json).1 = entry.2 := by
  induction members generalizing nextId with
  | nil => contradiction
  | cons member rest ih =>
      rcases List.mem_cons.mp found with rfl | found
      · exact ⟨nextId, member.2, List.mem_cons_self, rfl⟩
      · obtain ⟨id, json, inRest, made⟩ := ih found
        exact ⟨id, json, List.mem_cons_of_mem _ inRest, made⟩

theorem exists_mem_ofMembers (nextId : Nat) (found : (name, json) ∈ members) :
    ∃ id, (name, (ofJson id json).1) ∈ (ofMembers nextId members).1 := by
  induction members generalizing nextId with
  | nil => contradiction
  | cons member rest ih =>
      rcases List.mem_cons.mp found with rfl | found
      · exact ⟨nextId, List.mem_cons_self⟩
      · obtain ⟨id, made⟩ := ih _ found
        exact ⟨id, List.mem_cons_of_mem _ made⟩

theorem mem_toMembers_iff : (name, json) ∈ toMembers fields ↔
    ∃ value, (name, value) ∈ fields ∧ value.toJson = json := by
  induction fields with
  | nil => simp [toMembers]
  | cons field rest ih =>
      obtain ⟨key, value⟩ := field
      simp only [toMembers, List.mem_cons, ih, Prod.mk.injEq]
      grind

end

mutual

theorem toJson_ofJson : (json : Json) → json.Ordered → ∀ id,
    (ofJson id json).1.toJson = json.wordsOnly
  | .number (.integer value), _, id => by
      rw [ofJson, Integer.toValue, Json.wordsOnly, Json.Number.isWord]
      cases narrowed : Integer.narrow? value with
      | some word => simp [toJson, Integer.toInt_of_narrow? narrowed]
      | none => simp [toJson, narrowed, Json.Number.text]
  | .number (.binary _), _, _ | .null, _, _ | .bool _, _, _ | .string _, _, _ => rfl
  | .array items, ordered, id => by
      rw [ofJson, toJson, toJsons_ofJsons items ordered, Json.wordsOnly]
  | .object members, ⟨ascending, ordered⟩, id => by
      have sorted : Json.Ascending (Json.wordsOnlyMembers members) :=
        Json.ascending_of_names Json.names_wordsOnlyMembers ascending
      rw [ofJson, toJson, toMembers_ofMembers members ordered, Json.sorted_of_ascending sorted,
        Json.wordsOnly]

theorem toJsons_ofJsons : (jsons : List Json) → Json.OrderedAll jsons → ∀ id,
    toJsons (ofJsons id jsons).1 = Json.wordsOnlyAll jsons
  | [], _, _ => rfl
  | json :: rest, ⟨ordered, orderedRest⟩, id => by
      rw [ofJsons, toJsons, toJson_ofJson json ordered, toJsons_ofJsons rest orderedRest,
        Json.wordsOnlyAll]

theorem toMembers_ofMembers : (members : List (String × Json)) → Json.OrderedMembers members →
    ∀ id, toMembers (ofMembers id members).1 = Json.wordsOnlyMembers members
  | [], _, _ => rfl
  | (name, json) :: rest, ⟨ordered, orderedRest⟩, id => by
      rw [ofMembers, toMembers, toJson_ofJson json ordered, toMembers_ofMembers rest orderedRest,
        Json.wordsOnlyMembers]

end

mutual

/-- The value is built of scalars other than integers of any size, of arrays, and of objects of no
particular type, whose fields have distinct names. -/
def Plain : Value → Prop
  | .undefined | .bool _ | .int _ | .string _ => True
  | .array _ items => PlainAll items
  | .object _ typeName fields =>
      typeName = "object" ∧ (Entries.names fields).Nodup ∧ PlainFields fields
  | .big _ | .host _ _ | .function _ | .method _ _ _ => False
termination_by structural value => value

def PlainAll : List Value → Prop
  | [] => True
  | value :: rest => value.Plain ∧ PlainAll rest
termination_by structural values => values

def PlainFields : List (String × Value) → Prop
  | [] => True
  | (_, value) :: rest => value.Plain ∧ PlainFields rest
termination_by structural fields => fields

end

/-- The values are equal, whichever of them comes first. -/
def Equal (left right : Value) : Prop :=
  same left right = true ∧ same right left = true

/-- Objects whose fields correspond are equal, in whatever order the fields are. -/
theorem object_equal {id id' : Nat} {typeName : String} {fields others : List (String × Value)}
    (length : fields.length = others.length) (distinct : (Entries.names fields).Nodup)
    (distinctOthers : (Entries.names others).Nodup)
    (forth : ∀ field ∈ fields, ∃ other, (field.1, other) ∈ others ∧ field.2.Equal other)
    (back : ∀ other ∈ others, ∃ value, (other.1, value) ∈ fields ∧ other.2.Equal value) :
    (object id typeName fields).Equal (object id' typeName others) := by
  have found (field) (member : field ∈ fields) :
      ∃ other, Entries.find? field.1 others = some other ∧ same field.2 other = true := by
    obtain ⟨other, member, equal⟩ := forth field member
    exact ⟨other, (Entries.find?_eq_some_iff distinctOthers).mpr member, equal.1⟩
  have foundBack (other) (member : other ∈ others) :
      ∃ value, Entries.find? other.1 fields = some value ∧ same other.2 value = true := by
    obtain ⟨value, member, equal⟩ := back other member
    exact ⟨value, (Entries.find?_eq_some_iff distinct).mpr member, equal.1⟩
  constructor
  · exact same_object_iff.mpr ⟨id', others, rfl, length, sameFields_iff.mpr found⟩
  · exact same_object_iff.mpr ⟨id, fields, rfl, length.symm, sameFields_iff.mpr foundBack⟩

mutual

theorem ofJson_toJson : (value : Value) → value.Plain → ∀ id, (ofJson id value.toJson).1.Equal value
  | .undefined, _, _ => ⟨rfl, rfl⟩
  | .bool _, _, _ | .string _, _, _ => ⟨beq_self_eq_true _, beq_self_eq_true _⟩
  | .int word, _, id => by
      rw [toJson, ofJson, Integer.toValue, Integer.narrow?_toInt]
      exact ⟨beq_self_eq_true _, beq_self_eq_true _⟩
  | .array _ items, plain, id => ofJsons_toJsons items plain (id + 1)
  | .object _ typeName fields, ⟨isObject, distinct, plain⟩, id => by
      subst isObject
      have distinctMembers : (Entries.names (toMembers fields)).Nodup := by
        rwa [names_toMembers]
      have perm := Json.sorted_perm distinctMembers
      rw [toJson, ofJson]
      refine object_equal ?_ ?_ distinct (fun entry found => ?_) fun field found => ?_
      · have lengths := congrArg List.length
          (@names_ofMembers (id + 1) (Json.sorted (toMembers fields)))
        have lengths' := congrArg List.length (@names_toMembers fields)
        simp only [Entries.names, List.length_map] at lengths lengths'
        rw [lengths, perm.length_eq, lengths']
      · rw [names_ofMembers]
        exact Json.sorted_ascending.nodup
      · obtain ⟨id, json, member, made⟩ := mem_ofMembers found
        obtain ⟨value, field, rfl⟩ := mem_toMembers_iff.mp (perm.mem_iff.mp member)
        exact ⟨value, field, made ▸ ofFields_toFields fields plain _ field id⟩
      · have member := perm.mem_iff.mpr (mem_toMembers_iff.mpr ⟨field.2, found, rfl⟩)
        obtain ⟨id', made⟩ := exists_mem_ofMembers (id + 1) member
        exact ⟨_, made, (ofFields_toFields fields plain _ found id').symm⟩

theorem ofJsons_toJsons : (values : List Value) → PlainAll values → ∀ id,
    sameAll (ofJsons id (toJsons values)).1 values = true ∧
      sameAll values (ofJsons id (toJsons values)).1 = true
  | [], _, _ => ⟨rfl, rfl⟩
  | value :: rest, ⟨plain, plainRest⟩, id => by
      have first := ofJson_toJson value plain id
      have others := ofJsons_toJsons rest plainRest (ofJson id value.toJson).2
      simp [toJsons, ofJsons, sameAll, first.1, first.2, others]

theorem ofFields_toFields : (fields : List (String × Value)) → PlainFields fields →
    ∀ field ∈ fields, ∀ id, (ofJson id field.2.toJson).1.Equal field.2
  | (name, value) :: rest, ⟨plain, plainRest⟩, field, found, id => by
      rcases List.mem_cons.mp found with rfl | found
      · exact ofJson_toJson value plain id
      · exact ofFields_toFields rest plainRest field found id

end

theorem toInteger_ofJson_toJson (value : Int) (id : Nat) :
    (ofJson id (big value).toJson).1.toInteger = .ok value := by
  rw [toJson]
  cases narrowed : Integer.narrow? value with
  | some word =>
      rw [ofJson, Integer.toInt_of_narrow? narrowed]
      exact Integer.toValue_carries.toInteger
  | none => exact Numeral.read_toString value

end Value

/-- Data that was read from a text, or else has the members of its objects in order, becomes a value
and then data again with the texts of the numbers that are no words in their places, and another
time round changes nothing.  A plain value becomes data and then an equal value, and the integer in
an integer of any size is found again. -/
theorem json_round_trip :
    (∀ text json, Json.read? text = some json → json.Ordered) ∧
    (∀ json : Json, json.Ordered → ∀ id,
      let back := (Value.ofJson id json).1.toJson
      back = json.wordsOnly ∧ (json.HasWordsOnly → back = json) ∧
        ∀ id, (Value.ofJson id back).1.toJson = back) ∧
    (∀ value : Value, value.Plain → ∀ id, (Value.ofJson id value.toJson).1.Equal value) ∧
    ∀ integer id, (Value.ofJson id (Value.big integer).toJson).1.toInteger = .ok integer := by
  refine ⟨fun text json => Json.read?_ordered, ?_, Value.ofJson_toJson,
    Value.toInteger_ofJson_toJson⟩
  intro json ordered id back
  have once : back = json.wordsOnly := Value.toJson_ofJson json ordered id
  refine ⟨once, fun words => ?_, fun id => ?_⟩
  · rw [once, json.wordsOnly_eq_self words]
  · rw [once, Value.toJson_ofJson _ (json.ordered_wordsOnly ordered),
      Json.wordsOnly_eq_self _ json.hasWordsOnly_wordsOnly]

/-- Members are read into their order, a number beyond a word becomes its text, and only the first
time, and the fields of an object come back in another order. -/
theorem json_round_trip_object :
    let json : Json := .object
      [("a", .array [.number (.integer 9223372036854775808), .number (.integer (-1))]),
        ("b", .null)]
    let back : Json := .object
      [("a", .array [.string "9223372036854775808", .number (.integer (-1))]), ("b", .null)]
    let value : Value := .object 0 "object" [("b", .int 7), ("a", .array 1 [.undefined])]
    Json.read? "\x7b\"b\":null,\"a\":true\x7d" = some (.object [("a", .bool true), ("b", .null)]) ∧
      (Json.object [("a", .bool true), ("b", .null)]).Ordered ∧
      json.Ordered ∧ (Value.ofJson 0 json).1.toJson = back ∧ (Value.ofJson 4 back).1.toJson = back ∧
      (Json.bool true).HasWordsOnly ∧ (Value.ofJson 0 (.bool true)).1.toJson = .bool true ∧
      value.Plain ∧ (Value.ofJson 2 value.toJson).1.Equal value := by
  intro json back value
  obtain ⟨reads, data, values, _⟩ := json_round_trip
  have read : Json.read? "\x7b\"b\":null,\"a\":true\x7d" =
      some (.object [("a", .bool true), ("b", .null)]) := by cbv
  have ascending : Json.Ascending
      [("a", Json.array [.number (.integer 9223372036854775808), .number (.integer (-1))]),
        ("b", .null)] :=
    List.pairwise_pair.mpr (by decide)
  have ordered : json.Ordered := ⟨ascending, ⟨trivial, trivial, trivial⟩, trivial, trivial⟩
  obtain ⟨once, _, again⟩ := data json ordered 0
  have spelled : json.wordsOnly = back := by cbv
  rw [spelled] at once
  rw [once] at again
  have plain : value.Plain := ⟨rfl, by decide, trivial, ⟨trivial, trivial⟩, trivial⟩
  have words := (data (.bool true) trivial 0).2.1 trivial
  exact ⟨read, reads _ _ read, ordered, once, again 4, trivial, words, plain,
    values value plain 2⟩

end EtherCalc
