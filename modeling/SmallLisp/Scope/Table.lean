/-! # Tables

Finite maps from names that remember the order of insertion. Setting a name
again keeps its place; a name that was removed goes to the end when it returns. -/

namespace SmallLisp

/-- No name has two entries. -/
structure Table (α : Type) where
  entries : List (String × α)
  nodup : (entries.map Prod.fst).Nodup

namespace Table

variable {α : Type}

instance : Inhabited (Table α) := ⟨⟨[], List.nodup_nil⟩⟩

def empty : Table α := ⟨[], List.nodup_nil⟩

def keys (t : Table α) : List String := t.entries.map Prod.fst

def findEntry (name : String) : List (String × α) → Option α
  | [] => none
  | entry :: rest => if entry.1 = name then some entry.2 else findEntry name rest

def get? (t : Table α) (name : String) : Option α := findEntry name t.entries

def contains (t : Table α) (name : String) : Bool := (t.get? name).isSome

def isEmpty (t : Table α) : Bool := t.entries.isEmpty

/-- The entries with `name` set, in its place if it has one and at the end if not. -/
def setEntry (name : String) (value : α) : List (String × α) → List (String × α)
  | [] => [(name, value)]
  | entry :: rest =>
    if entry.1 = name then (name, value) :: rest else entry :: setEntry name value rest

theorem keys_setEntry (name : String) (value : α) (entries : List (String × α)) :
    (setEntry name value entries).map Prod.fst =
      if name ∈ entries.map Prod.fst then entries.map Prod.fst
      else entries.map Prod.fst ++ [name] := by
  induction entries with
  | nil => simp [setEntry]
  | cons entry rest ih =>
    by_cases h : entry.1 = name
    · simp [setEntry, h]
    · simp only [setEntry, if_neg h, List.map_cons, List.mem_cons, Ne.symm h, false_or, ih]
      split <;> simp

theorem nodup_setEntry (name : String) (value : α) {entries : List (String × α)}
    (h : (entries.map Prod.fst).Nodup) : ((setEntry name value entries).map Prod.fst).Nodup := by
  rw [keys_setEntry]
  split
  · exact h
  · next hn =>
    rw [List.nodup_append]
    refine ⟨h, by simp, ?_⟩
    intro a ha b hb
    rw [List.mem_singleton] at hb
    exact fun e => hn (hb ▸ e ▸ ha)

def set (t : Table α) (name : String) (value : α) : Table α :=
  ⟨setEntry name value t.entries, nodup_setEntry name value t.nodup⟩

theorem nodup_filter (name : String) {entries : List (String × α)}
    (h : (entries.map Prod.fst).Nodup) :
    ((entries.filter fun entry => entry.1 != name).map Prod.fst).Nodup :=
  h.sublist ((List.filter_sublist (p := fun entry => entry.1 != name)).map Prod.fst)

def erase (t : Table α) (name : String) : Table α :=
  ⟨t.entries.filter fun entry => entry.1 != name, nodup_filter name t.nodup⟩

@[simp] theorem get?_empty (name : String) : (empty : Table α).get? name = none := rfl

theorem findEntry_setEntry (name : String) (value : α) (other : String)
    (entries : List (String × α)) :
    findEntry other (setEntry name value entries) =
      if other = name then some value else findEntry other entries := by
  induction entries with
  | nil => simp [setEntry, findEntry, eq_comm]
  | cons entry rest ih =>
    by_cases hn : entry.1 = name
    · by_cases h : other = name
      · simp [setEntry, findEntry, hn, h]
      · simp [setEntry, findEntry, hn, h, Ne.symm h]
    · by_cases he : entry.1 = other
      · simp [setEntry, findEntry, he, show other ≠ name from he ▸ hn]
      · simp [setEntry, findEntry, hn, he, ih]

theorem get?_set (t : Table α) (name : String) (value : α) (other : String) :
    (t.set name value).get? other = if other = name then some value else t.get? other :=
  findEntry_setEntry name value other t.entries

theorem findEntry_filter (name other : String) (entries : List (String × α)) :
    findEntry other (entries.filter fun entry => entry.1 != name) =
      if other = name then none else findEntry other entries := by
  induction entries with
  | nil => simp [findEntry]
  | cons entry rest ih =>
    by_cases hn : entry.1 = name
    · by_cases h : other = name
      · simpa [hn, h] using ih
      · simpa [findEntry, hn, h, Ne.symm h] using ih
    · by_cases he : entry.1 = other
      · simp [findEntry, he, show other ≠ name from he ▸ hn]
      · simp [findEntry, hn, he, ih]

theorem get?_erase (t : Table α) (name other : String) :
    (t.erase name).get? other = if other = name then none else t.get? other :=
  findEntry_filter name other t.entries

theorem keys_set (t : Table α) (name : String) (value : α) :
    (t.set name value).keys = if name ∈ t.keys then t.keys else t.keys ++ [name] :=
  keys_setEntry name value t.entries

end Table

end SmallLisp
