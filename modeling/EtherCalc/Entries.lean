namespace EtherCalc

/-!
Named entries in the order in which the names first came.  `put` replaces the value of a name
in its place, so a list made by `put` alone names nothing twice.
-/

namespace Entries

variable {α : Type}

def names (entries : List (String × α)) : List String :=
  entries.map (·.1)

def find? (name : String) : List (String × α) → Option α
  | [] => none
  | (key, value) :: rest => if key = name then some value else find? name rest

/-- The entries with `value` under `name`: in the place of that name, else at the end. -/
def put (name : String) (value : α) : List (String × α) → List (String × α)
  | [] => [(name, value)]
  | (key, old) :: rest =>
      if key = name then (key, value) :: rest else (key, old) :: put name value rest

theorem mem_names_put {name key : String} {value : α} {entries : List (String × α)} :
    key ∈ names (put name value entries) ↔ key = name ∨ key ∈ names entries := by
  induction entries with
  | nil => simp [put, names]
  | cons entry rest ih =>
      obtain ⟨first, old⟩ := entry
      by_cases same : first = name
      · simp [put, names, same]
      · simp only [names] at ih
        simp only [put, same, if_false, names, List.map_cons, List.mem_cons, ih]
        grind

/-- Putting an entry keeps the names distinct. -/
theorem nodup_names_put {name : String} {value : α} {entries : List (String × α)}
    (distinct : (names entries).Nodup) : (names (put name value entries)).Nodup := by
  induction entries with
  | nil => simp [put, names]
  | cons entry rest ih =>
      obtain ⟨first, old⟩ := entry
      obtain ⟨fresh, distinctRest⟩ := List.nodup_cons.mp distinct
      by_cases same : first = name
      · simpa [put, same, names] using distinct
      · have missing : first ∉ names (put name value rest) := by
          rw [mem_names_put]
          exact fun found => found.elim same fresh
        simpa [put, same, names] using List.nodup_cons.mpr ⟨missing, ih distinctRest⟩

theorem mem_of_find? {name : String} {value : α} {entries : List (String × α)}
    (found : find? name entries = some value) : (name, value) ∈ entries := by
  induction entries with
  | nil => contradiction
  | cons entry rest ih =>
      rw [find?] at found
      split at found
      · rename_i same
        cases found
        exact same ▸ List.mem_cons_self
      · exact List.mem_cons_of_mem _ (ih found)

theorem mem_names_of_find? {name : String} {value : α} {entries : List (String × α)}
    (found : find? name entries = some value) : name ∈ names entries :=
  List.mem_map_of_mem (mem_of_find? found)

theorem find?_put {name key : String} {value : α} {entries : List (String × α)} :
    find? key (put name value entries) =
      if key = name then some value else find? key entries := by
  induction entries with
  | nil => by_cases same : key = name <;> simp [put, find?, same, Ne.symm]
  | cons entry rest ih =>
      obtain ⟨first, old⟩ := entry
      by_cases same : first = name <;> by_cases found : first = key <;> grind [put, find?]

/-- Among distinct names an entry is found under its own name. -/
theorem find?_eq_some_iff {name : String} {value : α} {entries : List (String × α)}
    (distinct : (names entries).Nodup) : find? name entries = some value ↔ (name, value) ∈ entries := by
  induction entries with
  | nil => simp [find?]
  | cons entry rest ih =>
      obtain ⟨first, old⟩ := entry
      obtain ⟨fresh, distinctRest⟩ := List.nodup_cons.mp distinct
      by_cases same : first = name
      · have absent : (name, value) ∉ rest := by
          intro member
          subst same
          exact fresh (List.mem_map.mpr ⟨_, member, rfl⟩)
        simp [find?, same, absent, eq_comm]
      · simp [find?, same, ih distinctRest, Ne.symm same]

end Entries

end EtherCalc
