import Mathlib.Data.Finmap

/-!
# Maps filled in a loop

A loop that goes over a list and inserts into a map: what one round does to the entry of a key
determines what the loop does to it.

* **`Filling.lookup_foldl`**: the last round that writes the entry decides it.
* **`Filling.lookup_foldl_const`**: where all rounds write one value, it is enough that one of them
  writes.
-/

namespace Filling

universe u v w

variable {κ : Type u} {β : Type v} {α : Type w} [DecidableEq κ]
  {f : Finmap (fun _ : κ => β) → α → Finmap fun _ : κ => β} {k : κ}

/-- **The last round that writes the entry of `k` decides it**; `writes a` is what the round of
`a` writes there, if it writes. -/
theorem lookup_foldl (writes : α → Option β)
    (hf : ∀ map a, (f map a).lookup k = (writes a).or (map.lookup k)) (as : List α) :
    ∀ map, (as.foldl f map).lookup k = (as.reverse.findSome? writes).or (map.lookup k) := by
  induction as with
  | nil => intro map; rfl
  | cons a rest ih =>
    intro map
    rw [List.foldl_cons, ih, hf, List.reverse_cons, List.findSome?_append, Option.or_assoc]
    cases h : writes a with
    | none => simp [h]
    | some b => simp [h]

omit [DecidableEq κ] in
/-- The first of several rounds that all give `b`. -/
theorem findSome?_const (b : Option β) (writes : α → Bool) (as : List α) :
    as.findSome? (fun a => if writes a then b else none) = if as.any writes then b else none := by
  induction as with
  | nil => rfl
  | cons a rest ih =>
    rw [List.findSome?_cons, List.any_cons, ih]
    cases writes a with
    | false => rfl
    | true => cases b <;> simp

/-- **Rounds that all write the one value `b`**: no later round takes it back. -/
theorem lookup_foldl_const {b : β} {writes : α → Bool}
    (hf : ∀ map a, (f map a).lookup k = if writes a then some b else map.lookup k) (as : List α)
    (map : Finmap fun _ : κ => β) :
    (as.foldl f map).lookup k = if as.any writes then some b else map.lookup k := by
  have hround : ∀ map a,
      (f map a).lookup k = (if writes a then some b else none).or (map.lookup k) := by
    intro map a
    rw [hf]
    cases writes a <;> rfl
  rw [lookup_foldl _ hround, findSome?_const, List.any_reverse]
  cases as.any writes <;> rfl

end Filling
