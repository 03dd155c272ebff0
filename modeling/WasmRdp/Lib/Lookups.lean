import Mathlib.Data.Finmap

/-!
# Lookups in an updated map

What an entry of a finite map was before the map was updated: the one put in,
or an entry under another key (`of_insert`); an entry under another key than
the one taken out (`of_erase`). An invariant of all entries is carried over
an update by one case for each.
-/

namespace Lookups

variable {κ ν : Type} [DecidableEq κ] {m : Finmap fun _ : κ => ν} {k i : κ} {v w : ν}

theorem of_insert (h : (m.insert k v).lookup i = some w) :
    (i = k ∧ w = v) ∨ (i ≠ k ∧ m.lookup i = some w) := by
  by_cases hi : i = k
  · subst hi
    rw [Finmap.lookup_insert] at h
    exact .inl ⟨rfl, (Option.some.inj h).symm⟩
  · rw [Finmap.lookup_insert_of_ne _ hi] at h
    exact .inr ⟨hi, h⟩

theorem of_erase (h : (m.erase k).lookup i = some w) : i ≠ k ∧ m.lookup i = some w := by
  by_cases hi : i = k
  · subst hi
    rw [Finmap.lookup_erase] at h
    cases h
  · rw [Finmap.lookup_erase_ne hi] at h
    exact ⟨hi, h⟩

end Lookups
