import EtherCalc.Entries
import EtherCalc.Json.Reader
import Mathlib.Data.String.Basic
import Mathlib.Data.List.Perm.Basic

namespace EtherCalc.Json

section

variable {α : Type} {name key : String} {value : α} {members : List (String × α)}

/-- The members are in the order of their names, each name once. -/
def Ascending (members : List (String × α)) : Prop :=
  members.Pairwise fun first second => first.1 < second.1

theorem Ascending.nodup (ascending : Ascending members) : (Entries.names members).Nodup := by
  rw [Entries.names, List.Nodup, List.pairwise_map]
  exact ascending.imp fun less => ne_of_lt less

theorem ascending_of_names {β : Type} {others : List (String × β)}
    (same : Entries.names others = Entries.names members) (ascending : Ascending members) :
    Ascending others := by
  have names : (Entries.names others).Pairwise (· < ·) := by
    rw [same]
    exact List.pairwise_map.mpr ascending
  exact List.pairwise_map.mp names

theorem mem_names_putSorted :
    key ∈ Entries.names (putSorted name value members) ↔
      key = name ∨ key ∈ Entries.names members := by
  induction members with
  | nil => simp [putSorted, Entries.names]
  | cons member rest ih =>
      obtain ⟨first, old⟩ := member
      unfold putSorted
      split
      · simp [Entries.names]
      · split
        · rename_i same
          subst same
          simp [Entries.names]
        · simp only [Entries.names, List.map_cons, List.mem_cons] at ih ⊢
          rw [ih]
          exact or_left_comm

theorem ascending_putSorted (ascending : Ascending members) :
    Ascending (putSorted name value members) := by
  induction members with
  | nil => exact List.pairwise_singleton _ _
  | cons member rest ih =>
      obtain ⟨first, old⟩ := member
      obtain ⟨below, ascendingRest⟩ := List.pairwise_cons.mp ascending
      unfold putSorted
      split
      · rename_i less
        refine List.pairwise_cons.mpr ⟨fun other member => ?_, ascending⟩
        rcases List.mem_cons.mp member with rfl | member
        · exact less
        · exact less.trans (below other member)
      · rename_i notLess
        split
        · rename_i same
          subst same
          exact List.pairwise_cons.mpr ⟨below, ascendingRest⟩
        · rename_i other
          have less : first < name := lt_of_le_of_ne (not_lt.mp notLess) (Ne.symm other)
          refine List.pairwise_cons.mpr ⟨fun found member => ?_, ih ascendingRest⟩
          have named : found.1 ∈ Entries.names (putSorted name value rest) :=
            List.mem_map_of_mem member
          rcases mem_names_putSorted.mp named with same | named
          · rw [same]
            exact less
          · obtain ⟨other, member, same⟩ := List.mem_map.mp named
            rw [← same]
            exact below other member

/-- A name that comes after all others is put at the end. -/
theorem putSorted_last (last : ∀ member ∈ members, member.1 < name) :
    putSorted name value members = members ++ [(name, value)] := by
  induction members with
  | nil => rfl
  | cons member rest ih =>
      obtain ⟨first, old⟩ := member
      have less : first < name := last (first, old) List.mem_cons_self
      rw [putSorted, if_neg (not_lt_of_gt less), if_neg (ne_of_gt less),
        ih fun other member => last other (List.mem_cons_of_mem _ member), List.cons_append]

/-- A new name only adds a member. -/
theorem putSorted_perm (fresh : name ∉ Entries.names members) :
    (putSorted name value members).Perm ((name, value) :: members) := by
  induction members with
  | nil => exact List.Perm.refl _
  | cons member rest ih =>
      obtain ⟨first, old⟩ := member
      have other : name ≠ first := fun same => fresh (by simp [Entries.names, same])
      have freshRest : name ∉ Entries.names rest :=
        fun named => fresh (List.mem_cons_of_mem _ named)
      unfold putSorted
      split
      · exact List.Perm.refl _
      · exact ((ih freshRest).cons (first, old)).trans (List.Perm.swap _ _ _)

theorem mem_putSorted {member : String × α} (found : member ∈ putSorted name value members) :
    member = (name, value) ∨ member ∈ members := by
  induction members with
  | nil => exact .inl (List.mem_singleton.mp found)
  | cons first rest ih =>
      obtain ⟨key, old⟩ := first
      unfold putSorted at found
      split at found
      · exact List.mem_cons.mp found
      · split at found
        · rcases List.mem_cons.mp found with same | found
          · exact .inl same
          · exact .inr (List.mem_cons_of_mem _ found)
        · rcases List.mem_cons.mp found with same | found
          · exact .inr (List.mem_cons.mpr (.inl same))
          · exact (ih found).imp_right (List.mem_cons_of_mem _)

/-- The members sorted so far stay in order as the others come in. -/
theorem ascending_foldl {before : List (String × α)} (ascending : Ascending before) :
    Ascending (members.foldl (fun found member => putSorted member.1 member.2 found) before) := by
  induction members generalizing before with
  | nil => exact ascending
  | cons member rest ih => exact ih (ascending_putSorted ascending)

theorem sorted_ascending : Ascending (sorted members) :=
  ascending_foldl List.Pairwise.nil

theorem mem_foldl_putSorted {before : List (String × α)} {member : String × α}
    (found : member ∈
      members.foldl (fun found member => putSorted member.1 member.2 found) before) :
    member ∈ before ∨ member ∈ members := by
  induction members generalizing before with
  | nil => exact .inl found
  | cons first rest ih =>
      rcases ih found with found | found
      · rcases mem_putSorted found with same | found
        · exact .inr (List.mem_cons.mpr (.inl same))
        · exact .inl found
      · exact .inr (List.mem_cons_of_mem _ found)

/-- Sorting makes up no member. -/
theorem mem_of_mem_sorted {member : String × α} (found : member ∈ sorted members) :
    member ∈ members :=
  (mem_foldl_putSorted found).resolve_left List.not_mem_nil

theorem foldl_putSorted_ascending {before : List (String × α)}
    (ascending : Ascending (before ++ members)) :
    members.foldl (fun found member => putSorted member.1 member.2 found) before =
      before ++ members := by
  induction members generalizing before with
  | nil => exact (List.append_nil before).symm
  | cons member rest ih =>
      have last : ∀ other ∈ before, other.1 < member.1 := fun other found =>
        (List.pairwise_append.mp ascending).2.2 other found member List.mem_cons_self
      rw [List.foldl_cons, putSorted_last last, ih (by simpa using ascending), List.append_assoc,
        List.singleton_append]

/-- Members that are in order are sorted already. -/
theorem sorted_of_ascending (ascending : Ascending members) : sorted members = members :=
  foldl_putSorted_ascending ascending

theorem foldl_putSorted_perm {before : List (String × α)}
    (distinct : (Entries.names (before ++ members)).Nodup) :
    (members.foldl (fun found member => putSorted member.1 member.2 found) before).Perm
      (before ++ members) := by
  induction members generalizing before with
  | nil => simp
  | cons member rest ih =>
      have moved : (before ++ member :: rest).Perm (member :: before ++ rest) :=
        List.perm_middle
      have distinct : (Entries.names (member :: before ++ rest)).Nodup :=
        (moved.map Prod.fst).nodup_iff.mp distinct
      have fresh : member.1 ∉ Entries.names before := fun named =>
        (List.nodup_cons.mp distinct).1 (by simp_all [Entries.names])
      have put := @putSorted_perm _ _ member.2 _ fresh
      have distinctPut : (Entries.names (putSorted member.1 member.2 before ++ rest)).Nodup :=
        ((put.append_right rest).map Prod.fst).nodup_iff.mpr distinct
      exact (ih distinctPut).trans ((put.append_right rest).trans moved.symm)

/-- Sorting members of distinct names only moves them. -/
theorem sorted_perm (distinct : (Entries.names members).Nodup) : (sorted members).Perm members :=
  foldl_putSorted_perm distinct

end

mutual

/-- All objects in the data have their members in order. -/
def Ordered : Json → Prop
  | .array items => OrderedAll items
  | .object members => Ascending members ∧ OrderedMembers members
  | .null | .bool _ | .number _ | .string _ => True
termination_by structural json => json

def OrderedAll : List Json → Prop
  | [] => True
  | json :: rest => json.Ordered ∧ OrderedAll rest
termination_by structural jsons => jsons

def OrderedMembers : List (String × Json) → Prop
  | [] => True
  | (_, json) :: rest => json.Ordered ∧ OrderedMembers rest
termination_by structural members => members

end

theorem orderedMembers_iff {members : List (String × Json)} :
    OrderedMembers members ↔ ∀ member ∈ members, member.2.Ordered := by
  induction members with
  | nil => simp [OrderedMembers]
  | cons member rest ih => simp [OrderedMembers, ih]

mutual

theorem ofRaw?_ordered : (raw : Raw) → ∀ {json}, ofRaw? raw = some json → json.Ordered
  | .null, _, read | .bool _, _, read => by
      cases read
      trivial
  | .number _, _, read | .string _, _, read => by
      obtain ⟨_, _, rfl⟩ := Option.map_eq_some_iff.mp read
      trivial
  | .array items, _, read => by
      obtain ⟨found, readItems, rfl⟩ := Option.map_eq_some_iff.mp read
      exact ofRaws?_ordered items readItems
  | .object members, _, read => by
      obtain ⟨found, readMembers, rfl⟩ := Option.map_eq_some_iff.mp read
      have ordered := orderedMembers_iff.mp (ofMembers?_ordered members readMembers)
      exact ⟨sorted_ascending,
        orderedMembers_iff.mpr fun member found => ordered member (mem_of_mem_sorted found)⟩

theorem ofRaws?_ordered : (raws : List Raw) → ∀ {jsons}, ofRaws? raws = some jsons →
    OrderedAll jsons
  | [], _, read => by
      cases read
      trivial
  | raw :: rest, _, read => by
      unfold ofRaws? at read
      split at read
      · rename_i readFirst readRest
        cases read
        exact ⟨ofRaw?_ordered raw readFirst, ofRaws?_ordered rest readRest⟩
      · contradiction

theorem ofMembers?_ordered : (members : List (List TextUnit × Raw)) → ∀ {found},
    ofMembers? members = some found → OrderedMembers found
  | [], _, read => by
      cases read
      trivial
  | (_, raw) :: rest, _, read => by
      unfold ofMembers? at read
      split at read
      · rename_i readFirst readRest
        cases read
        exact ⟨ofRaw?_ordered raw readFirst, ofMembers?_ordered rest readRest⟩
      · contradiction

end

/-- What is read from a text has the members of its objects in order. -/
theorem read?_ordered {text : String} {json : Json} (read : read? text = some json) :
    json.Ordered := by
  obtain ⟨raw, _, meaning⟩ := Option.bind_eq_some_iff.mp read
  exact ofRaw?_ordered raw meaning

end EtherCalc.Json
