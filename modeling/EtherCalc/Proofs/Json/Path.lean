import EtherCalc.Proofs.Json.Order
import EtherCalc.Value.Json

namespace EtherCalc

namespace Json

/-- One step into an array or an object. -/
inductive Step where
  | item (index : Nat)
  | member (name : String)

abbrev Path : Type := List Step

/-- The last of the members with a name. -/
def lastNamed? {α : Type} (name : String) : List (String × α) → Option α
  | [] => none
  | (key, value) :: rest => (lastNamed? name rest).or (if key = name then some value else none)

/-- The last of the written members with a name. -/
def lastWritten? (name : String) : List (List TextUnit × Raw) → Option Raw
  | [] => none
  | (units, raw) :: rest =>
      (lastWritten? name rest).or (if text? units = some name then some raw else none)

def Raw.child? : Raw → Step → Option Raw
  | .array items, .item index => items[index]?
  | .object members, .member name => lastWritten? name members
  | _, _ => none

/-- What is written at a path. -/
def Raw.at? (raw : Raw) (path : Path) : Option Raw :=
  path.foldlM Raw.child? raw

end Json

namespace Value

def child? : Value → Json.Step → Option Value
  | .array _ items, .item index => items[index]?
  | .object _ _ fields, .member name => Entries.find? name fields
  | _, _ => none

def at? (value : Value) (path : Json.Path) : Option Value :=
  path.foldlM child? value

end Value

namespace Json

section

variable {α : Type} {name key : String} {value : α} {members before : List (String × α)}

theorem find?_putSorted : Entries.find? key (putSorted name value members) =
    if key = name then some value else Entries.find? key members := by
  induction members with
  | nil => simp [putSorted, Entries.find?, eq_comm]
  | cons member rest ih =>
      obtain ⟨first, old⟩ := member
      by_cases same : key = name <;> grind [putSorted, Entries.find?]

theorem find?_foldl_putSorted :
    Entries.find? name
        (members.foldl (fun found member => putSorted member.1 member.2 found) before) =
      (lastNamed? name members).or (Entries.find? name before) := by
  induction members generalizing before with
  | nil => rfl
  | cons member rest ih =>
      rw [List.foldl_cons, ih, find?_putSorted, lastNamed?, Option.or_assoc]
      by_cases same : name = member.1
      · simp [same]
      · simp [same, Ne.symm same]

/-- Of several members with one name the last stays. -/
theorem find?_sorted : Entries.find? name (sorted members) = lastNamed? name members := by
  rw [sorted, find?_foldl_putSorted, Entries.find?, Option.or_none]

end

variable {raw part : Raw} {raws : List Raw} {json : Json} {jsons : List Json}
variable {written : List (List TextUnit × Raw)} {members : List (String × Json)}
variable {name : String} {index nextId : Nat} {step : Step} {path : Path}

theorem ofRaws?_getElem? (read : ofRaws? raws = some jsons) (found : raws[index]? = some raw) :
    ∃ json, jsons[index]? = some json ∧ ofRaw? raw = some json := by
  induction raws generalizing jsons index with
  | nil => simp at found
  | cons first rest ih =>
      unfold ofRaws? at read
      split at read
      · rename_i value values readFirst readRest
        cases read
        cases index with
        | zero =>
            cases found
            exact ⟨value, rfl, readFirst⟩
        | succ index =>
            obtain ⟨json, isJson, readPart⟩ := ih readRest found
            exact ⟨json, isJson, readPart⟩
      · contradiction

/-- The last member that is written with a name is the last with that name. -/
theorem ofMembers?_last (name : String) (read : ofMembers? written = some members) :
    (lastWritten? name written).map ofRaw? = (lastNamed? name members).map some := by
  induction written generalizing members with
  | nil =>
      cases read
      rfl
  | cons first rest ih =>
      obtain ⟨units, raw⟩ := first
      unfold ofMembers? at read
      split at read
      · rename_i key value others readName readValue readRest
        cases read
        rw [lastWritten?, lastNamed?, Option.map_or, Option.map_or, ih readRest, readName]
        by_cases same : key = name <;> simp [same, readValue]
      · contradiction

theorem ofJsons_getElem? (found : jsons[index]? = some json) :
    ∃ id, (Value.ofJsons nextId jsons).1[index]? = some (Value.ofJson id json).1 := by
  induction jsons generalizing nextId index with
  | nil => simp at found
  | cons first rest ih =>
      cases index with
      | zero =>
          cases found
          exact ⟨nextId, rfl⟩
      | succ index => exact ih found

theorem find?_ofMembers (found : Entries.find? name members = some json) :
    ∃ id,
      Entries.find? name (Value.ofMembers nextId members).1 = some (Value.ofJson id json).1 := by
  induction members generalizing nextId with
  | nil => contradiction
  | cons member rest ih =>
      obtain ⟨key, first⟩ := member
      rw [Entries.find?] at found
      rw [Value.ofMembers, Entries.find?]
      by_cases same : key = name
      · rw [if_pos same] at found ⊢
        cases found
        exact ⟨nextId, rfl⟩
      · rw [if_neg same] at found ⊢
        exact ih found

/-- The member that is written last with a name is the one that the members keep. -/
theorem find?_ofRaw? (read : ofRaw? (.object written) = some (.object members))
    (found : lastWritten? name written = some part) (nextId : Nat) :
    ∃ inner id, ofRaw? part = some inner ∧
      Entries.find? name (Value.ofMembers nextId members).1 = some (Value.ofJson id inner).1 := by
  obtain ⟨unsorted, readMembers, same⟩ := Option.map_eq_some_iff.mp read
  cases same
  have last := ofMembers?_last name readMembers
  rw [found] at last
  obtain ⟨inner, isLast, readPart⟩ := Option.map_eq_some_iff.mp last.symm
  obtain ⟨id, isField⟩ := find?_ofMembers (find?_sorted.trans isLast)
  exact ⟨inner, id, readPart.symm, isField⟩

theorem child?_ofJson (read : ofRaw? raw = some json) (found : raw.child? step = some part)
    (nextId : Nat) : ∃ inner id, ofRaw? part = some inner ∧
      (Value.ofJson nextId json).1.child? step = some (Value.ofJson id inner).1 := by
  unfold Raw.child? at found
  split at found
  · obtain ⟨items, readItems, rfl⟩ := Option.map_eq_some_iff.mp read
    obtain ⟨inner, isInner, readPart⟩ := ofRaws?_getElem? readItems found
    obtain ⟨id, isItem⟩ := ofJsons_getElem? isInner
    exact ⟨inner, id, readPart, isItem⟩
  · have isObject := read
    obtain ⟨_, _, rfl⟩ := Option.map_eq_some_iff.mp read
    exact find?_ofRaw? isObject found (nextId + 1)
  · contradiction

/-- What stands at a path of a value is made of what is written there. -/
theorem at?_ofJson (read : ofRaw? raw = some json) (found : raw.at? path = some part)
    (nextId : Nat) : ∃ inner id, ofRaw? part = some inner ∧
      (Value.ofJson nextId json).1.at? path = some (Value.ofJson id inner).1 := by
  induction path generalizing raw json nextId with
  | nil =>
      cases found
      exact ⟨json, nextId, read, rfl⟩
  | cons step path ih =>
      rw [Raw.at?, List.foldlM_cons] at found
      obtain ⟨child, isChild, found⟩ := Option.bind_eq_some_iff.mp found
      obtain ⟨inner, id, readChild, isValue⟩ := child?_ofJson read isChild nextId
      rw [Value.at?, List.foldlM_cons, isValue]
      exact ih readChild found id

/-- What stands below a member of an object is made of what is written there. -/
theorem at?_ofMembers (read : ofRaw? raw = some (.object members))
    (found : raw.at? (step :: path) = some part) (nextId : Nat) :
    ∃ name bound inner id, step = .member name ∧
      Entries.find? name (Value.ofMembers nextId members).1 = some bound ∧
      ofRaw? part = some inner ∧ bound.at? path = some (Value.ofJson id inner).1 := by
  rw [Raw.at?, List.foldlM_cons] at found
  obtain ⟨child, isChild, below⟩ := Option.bind_eq_some_iff.mp found
  unfold Raw.child? at isChild
  split at isChild
  · obtain ⟨_, _, isArray⟩ := Option.map_eq_some_iff.mp read
    cases isArray
  · rename_i name
    obtain ⟨bound, id, readChild, isBound⟩ := find?_ofRaw? read isChild nextId
    obtain ⟨inner, id', readPart, isValue⟩ := at?_ofJson readChild below id
    exact ⟨name, _, inner, id', rfl, isBound, readPart, isValue⟩
  · contradiction

end Json

end EtherCalc
