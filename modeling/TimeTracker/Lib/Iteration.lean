import Mathlib.Data.Finmap

/-!
# Iteration orders

The keys of a hash map are visited in an order nobody knows. A list is such an order if it has
the keys of the map as its elements, each once.
-/

namespace Iteration

variable {κ : Type*} {β : κ → Type*}

/-- The orders in which the keys of a map may be visited. -/
theorem coe_eq_keys_iff {order : List κ} {m : Finmap β} :
    (order : Multiset κ) = m.keys.val ↔ order.Nodup ∧ ∀ k, k ∈ order ↔ k ∈ m := by
  constructor
  · intro h
    refine ⟨?_, fun k => ?_⟩
    · have hkeys := m.keys.nodup
      rwa [← h, Multiset.coe_nodup] at hkeys
    · rw [← Finmap.mem_keys, ← Finset.mem_val, ← h, Multiset.mem_coe]
  · rintro ⟨hnodup, hmem⟩
    refine (Multiset.Nodup.ext (Multiset.coe_nodup.mpr hnodup) m.keys.nodup).mpr ?_
    intro k
    rw [Multiset.mem_coe, hmem, Finset.mem_val, Finmap.mem_keys]

end Iteration
