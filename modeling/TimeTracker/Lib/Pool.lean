import Mathlib.Algebra.GroupWithZero.Nat
import Mathlib.Data.List.Basic

/-!
# Thread pools

A pool is a list of thread-local states; a step of thread `k` replaces entry `k`
(`List.set`). These lemmas carry a property of all threads, and the number of threads with
some property, over such a step.
-/

namespace Pool

variable {τ : Type*}

/-- A property of every thread after thread `k` moved to `t'`: it holds of `t'`, and every
other thread still has it. -/
theorem forall_set {P Q : τ → Prop} {ts : List τ} {k : ℕ} {t' : τ} (hnew : Q t')
    (hold : ∀ u ∈ ts, P u) (hkeep : ∀ j u, j ≠ k → ts[j]? = some u → P u → Q u) :
    ∀ u ∈ ts.set k t', Q u := by
  intro u hu
  obtain ⟨j, hj⟩ := List.mem_iff_getElem?.mp hu
  by_cases hjk : k = j
  · subst hjk
    rw [List.getElem?_set] at hj
    split at hj
    · split at hj
      · cases hj; exact hnew
      · cases hj
    · contradiction
  · rw [List.getElem?_set_ne hjk] at hj
    exact hkeep j u (fun h => hjk h.symm) hj (hold u (List.mem_of_getElem? hj))

/-- The number of threads with a property, before and after thread `k` moved. -/
theorem countP_set (p : τ → Bool) {ts : List τ} {k : ℕ} {t : τ} (t' : τ) (h : ts[k]? = some t) :
    (ts.set k t').countP p + (if p t then 1 else 0) = ts.countP p + (if p t' then 1 else 0) := by
  obtain ⟨hlt, rfl⟩ := List.getElem?_eq_some_iff.mp h
  have hpos : p ts[k] = true → 0 < ts.countP p := fun hp =>
    List.countP_pos_iff.mpr ⟨ts[k], List.getElem_mem hlt, hp⟩
  rw [List.countP_set hlt]
  by_cases hp : p ts[k] = true
  · have := hpos hp
    simp only [hp, if_true]
    omega
  · simp [hp]

/-- If thread `k` is the only one with property `p`, no thread has a narrower property that thread
`k` does not have. -/
theorem countP_eq_zero_of_alone {p q : τ → Bool} {ts : List τ} {k : ℕ} {t : τ}
    (hsub : ∀ u, q u = true → p u = true) (halone : ts.countP p = 1) (h : ts[k]? = some t)
    (hp : p t = true) (hq : q t = false) : ts.countP q = 0 := by
  have hsplit := List.countP_eq_countP_filter_add ts p q
  have hin : (ts.filter q).countP p = ts.countP q := by
    rw [List.countP_eq_length.mpr, List.countP_eq_length_filter]
    exact fun u hu => hsub u (List.mem_filter.mp hu).2
  have hout : 0 < (ts.filter fun u => !q u).countP p := by
    apply List.countP_pos_iff.mpr
    exact ⟨t, List.mem_filter.mpr ⟨List.mem_of_getElem? h, by rw [hq]; rfl⟩, hp⟩
  omega

/-- The sum of a measure of the threads, before and after thread `k` moved. -/
theorem sum_set (f : τ → ℕ) {ts : List τ} {k : ℕ} {t : τ} (t' : τ) (h : ts[k]? = some t) :
    ((ts.set k t').map f).sum + f t = (ts.map f).sum + f t' := by
  induction ts generalizing k with
  | nil => cases h
  | cons u ts ih =>
    cases k with
    | zero =>
      cases h
      simp only [List.set_cons_zero, List.map_cons, List.sum_cons]
      omega
    | succ k =>
      have hrest := ih h
      simp only [List.set_cons_succ, List.map_cons, List.sum_cons]
      omega

/-- Thread `k` itself after the step. -/
theorem getElem?_set_self {ts : List τ} {k : ℕ} {t t' : τ} (h : ts[k]? = some t) :
    (ts.set k t')[k]? = some t' := by
  obtain ⟨hlt, -⟩ := List.getElem?_eq_some_iff.mp h
  rw [List.getElem?_set_self hlt]

/-! ## The others

`ts.eraseIdx k` are the threads other than `k`. -/

/-- A thread is thread `k` or one of the others. -/
theorem mem_iff {ts : List τ} {k : ℕ} {t u : τ} (h : ts[k]? = some t) :
    u ∈ ts ↔ u = t ∨ u ∈ ts.eraseIdx k := by
  rw [List.mem_iff_getElem?, List.mem_eraseIdx_iff_getElem?]
  constructor
  · rintro ⟨j, hj⟩
    by_cases hjk : j = k
    · rw [hjk, h] at hj
      exact .inl (Option.some.inj hj).symm
    · exact .inr ⟨j, hjk, hj⟩
  · rintro (rfl | ⟨j, -, hj⟩)
    · exact ⟨k, h⟩
    · exact ⟨j, hj⟩

/-- After thread `k` moved to `t'`, a thread is `t'` or one of the others. -/
theorem mem_set {ts : List τ} {k : ℕ} {t u : τ} (t' : τ) (h : ts[k]? = some t) :
    u ∈ ts.set k t' ↔ u = t' ∨ u ∈ ts.eraseIdx k := by
  have hothers : (ts.set k t').eraseIdx k = ts.eraseIdx k := List.eraseIdx_set_eq
  rw [mem_iff (getElem?_set_self h), hothers]

end Pool
