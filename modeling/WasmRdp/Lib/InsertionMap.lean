import Mathlib.Data.List.Nodup

/-!
# Maps that keep the order of insertion

A finite map as the list of its entries, the oldest key first, as a script's
`Map` iterates over them. Setting a key that is there changes its value and
not its place; a new key goes to the end.

A lookup after each operation is one equation, and `mem_entries` turns
membership in the list into a lookup. That is all a client needs: no lemma
below mentions how the list is searched.

That no key has two entries is a field of the structure, so that an entry and
a lookup are the same thing everywhere (`mem_entries`, `mem_keys`). Each
operation proves once that it keeps the field: `mapWithKey` leaves the keys,
`delete` filters them, and `set` adds a key only when it is not there.

The equations are `get_empty`, `get_mapWithKey`, `get_delete` and `get_set`.
The order of the entries plays no part in them; it is there for a client that
iterates, which finds it in the list itself.
-/

/-- No key has two entries. -/
structure InsertionMap (κ ν : Type) where
  entries : List (κ × ν)
  nodup : (entries.map Prod.fst).Nodup

namespace InsertionMap

variable {κ ν : Type} [DecidableEq κ]

def keys (m : InsertionMap κ ν) : List κ := m.entries.map Prod.fst

def values (m : InsertionMap κ ν) : List ν := m.entries.map Prod.snd

def empty : InsertionMap κ ν := ⟨[], List.nodup_nil⟩

def get (m : InsertionMap κ ν) (k : κ) : Option ν := m.entries.lookup k

/-- Change the value of every entry; the keys stay. -/
def mapWithKey (f : κ → ν → ν) (m : InsertionMap κ ν) : InsertionMap κ ν where
  entries := m.entries.map fun e => (e.1, f e.1 e.2)
  nodup := by
    rw [List.map_map]
    exact m.nodup

def delete (m : InsertionMap κ ν) (k : κ) : InsertionMap κ ν where
  entries := m.entries.filter fun e => e.1 ≠ k
  nodup := m.nodup.sublist (List.filter_sublist.map _)

/-- The value of a key that is there, or a new entry behind all others. -/
def set (m : InsertionMap κ ν) (k : κ) (v : ν) : InsertionMap κ ν :=
  if h : k ∈ m.keys then m.mapWithKey fun k' v' => if k' = k then v else v'
  else
    { entries := m.entries ++ [(k, v)]
      nodup := by
        rw [List.map_append]
        refine m.nodup.append (List.nodup_singleton k) fun k' hk' hk => h ?_
        rwa [List.mem_singleton.mp hk] at hk' }

/-! ## Lookup -/

@[simp] theorem get_empty (k : κ) : (empty : InsertionMap κ ν).get k = none := rfl

theorem lookup_cons (e : κ × ν) (l : List (κ × ν)) (k : κ) :
    (e :: l).lookup k = if k = e.1 then some e.2 else l.lookup k := by
  rw [List.lookup_cons]
  by_cases h : k = e.1
  · simp [h]
  · rw [beq_false_of_ne h, if_neg h]

theorem lookup_eq_some (l : List (κ × ν)) (hl : (l.map Prod.fst).Nodup)
    (k : κ) (v : ν) : l.lookup k = some v ↔ (k, v) ∈ l := by
  induction l with
  | nil => simp
  | cons e l ih =>
      obtain ⟨k', v'⟩ := e
      rw [List.map_cons, List.nodup_cons] at hl
      rw [lookup_cons, List.mem_cons, Prod.mk.injEq]
      dsimp only
      split
      · rename_i h
        subst h
        -- the key does not occur again behind its first entry
        have hnot : (k, v) ∉ l := fun hmem =>
          hl.1 (List.mem_map.mpr ⟨(k, v), hmem, rfl⟩)
        simp [hnot, eq_comm]
      · rename_i h
        simp [h, ih hl.2]

theorem get_eq_none (m : InsertionMap κ ν) (k : κ) : m.get k = none ↔ k ∉ m.keys := by
  rw [get, List.lookup_eq_none_iff, keys, List.mem_map, not_exists]
  refine forall_congr' fun e => ?_
  rw [bne_iff_ne, not_and, ne_comm]

theorem mem_entries (m : InsertionMap κ ν) (k : κ) (v : ν) :
    (k, v) ∈ m.entries ↔ m.get k = some v :=
  (lookup_eq_some m.entries m.nodup k v).symm

theorem mem_keys (m : InsertionMap κ ν) (k : κ) : k ∈ m.keys ↔ ∃ v, m.get k = some v := by
  rw [← not_iff_not, ← get_eq_none, Option.eq_none_iff_forall_ne_some, not_exists]

@[simp] theorem get_mapWithKey (m : InsertionMap κ ν) (f : κ → ν → ν) (k : κ) :
    (m.mapWithKey f).get k = (m.get k).map (f k) := by
  change (m.entries.map fun e => (e.1, f e.1 e.2)).lookup k = (m.entries.lookup k).map (f k)
  induction m.entries with
  | nil => rfl
  | cons e l ih =>
      rw [List.map_cons, lookup_cons, lookup_cons, ih]
      split
      · rename_i h
        rw [h, Option.map_some]
      · rfl

theorem get_delete (m : InsertionMap κ ν) (k k' : κ) :
    (m.delete k).get k' = if k' = k then none else m.get k' := by
  refine Option.ext fun v => ?_
  rw [← mem_entries, delete, List.mem_filter, mem_entries]
  split <;> simp_all

theorem get_set (m : InsertionMap κ ν) (k k' : κ) (v : ν) :
    (m.set k v).get k' = if k' = k then some v else m.get k' := by
  unfold set
  split
  · rename_i hk
    obtain ⟨old, hold⟩ := (m.mem_keys k).mp hk
    rw [get_mapWithKey]
    split
    · rename_i heq
      simp [heq, hold]
    · simp
  · rename_i hk
    have hnone := (m.get_eq_none k).mpr hk
    refine Option.ext fun v' => ?_
    rw [← mem_entries, List.mem_append, List.mem_singleton, mem_entries]
    split <;> simp_all [eq_comm]

@[simp] theorem get_set_self (m : InsertionMap κ ν) (k : κ) (v : ν) :
    (m.set k v).get k = some v := by rw [get_set, if_pos rfl]

theorem mem_keys_set (m : InsertionMap κ ν) (k k' : κ) (v : ν) :
    k' ∈ (m.set k v).keys ↔ k' = k ∨ k' ∈ m.keys := by
  rw [mem_keys, mem_keys]
  simp only [get_set]
  split <;> simp_all

theorem mem_keys_delete (m : InsertionMap κ ν) (k k' : κ) :
    k' ∈ (m.delete k).keys ↔ k' ≠ k ∧ k' ∈ m.keys := by
  rw [mem_keys, mem_keys]
  simp only [get_delete]
  split <;> simp_all

end InsertionMap
