import Mathlib.Tactic.Basic

/-!
# Runs of a transition system

A `System` is a partial step function `step : σ → ι → Option σ` on states `σ`, driven by
labels `ι`; a label carries the choice of the scheduler (which component moves) and the
inputs of that one step. A *run* is a list of labels, so a schedule is plain data that can
be executed (`execWhere`), and a statement about every interleaving is a statement about
every list of labels.

* **`Runs ok c ls c'`**: the labels `ls` lead from `c` to `c'`, and every step of the run
  meets the guard `ok` in the state before it.
* **`exists_run_to`** / **`exists_run_choosing`**: what has less left to do after each of its steps
  gets done, whatever the inputs of the steps are, or with inputs chosen step by step.
* **`Runs.invariant`**: a predicate kept by every guarded step holds at the end of a run.
* **`history`** / **`Runs.invariant_history`**: a variable that is not part of the state but
  is computed from the steps of the run (a count, the last write), and the invariant rule
  that relates it to the state.
* **`Runs.read_eq_lastWrite`**: a part of the state that each step overwrites or leaves alone
  holds the last value written.
* **`Runs.strengthen`** / **`Runs.strengthen_or`**: a run meets a second guard throughout, or ends
  where the first step against it leads.
* **`Runs.guard_iff`**: a guard that says exactly which steps keep a predicate is met throughout
  a run exactly where the predicate holds in every state of the run.
-/

namespace Transition

universe u v w

/-- A transition system: the state after the step labelled `l`, or `none` where the step is
not enabled. -/
structure System (σ : Type u) (ι : Type v) where
  step : σ → ι → Option σ

namespace System

variable {σ : Type u} {ι : Type v} {α : Type w} (S : System σ ι)

/-- `Runs ok c ls c'`: the steps `ls` lead from `c` to `c'`, each of them meeting the guard
`ok` in the state it starts from. -/
inductive Runs (ok : σ → ι → Prop) : σ → List ι → σ → Prop where
  | nil (c : σ) : Runs ok c [] c
  | cons {c c' c'' : σ} {l : ι} {ls : List ι} (hok : ok c l) (hstep : S.step c l = some c')
      (hrest : Runs ok c' ls c'') : Runs ok c (l :: ls) c''

/-- Execute the labels one after the other; `none` where a step is not enabled or does not
meet the guard. -/
def execWhere (ok : σ → ι → Prop) [∀ c l, Decidable (ok c l)] : σ → List ι → Option σ
  | c, [] => some c
  | c, l :: ls =>
    if ok c l then
      match S.step c l with
      | some c' => execWhere ok c' ls
      | none => none
    else none

/-- Execute the labels one after the other, with no guard. -/
def exec : σ → List ι → Option σ := S.execWhere fun _ _ => True

/-- The value of a history variable after the steps `ls` from `c`: `g` updates it at every
step, from the state before the step and its label. -/
def history (g : α → σ → ι → α) : α → σ → List ι → α
  | a, _, [] => a
  | a, c, l :: ls =>
    match S.step c l with
    | some c' => history g (g a c l) c' ls
    | none => a

/-- The history variable "last value written", where `write c l` is what the step labelled `l`
writes, if it writes. -/
def lastWrite (write : σ → ι → Option α) (last : Option α) (c : σ) (l : ι) : Option α :=
  (write c l).or last

variable {S}

/-! ## Building runs -/

theorem runs_of_execWhere {ok : σ → ι → Prop} [∀ c l, Decidable (ok c l)] {ls : List ι} :
    ∀ {c c' : σ}, S.execWhere ok c ls = some c' → S.Runs ok c ls c' := by
  induction ls with
  | nil =>
    intro c c' h
    cases h
    exact .nil c
  | cons l ls ih =>
    intro c c' h
    rw [execWhere] at h
    split at h
    · next hok =>
      cases hstep : S.step c l with
      | none => rw [hstep] at h; cases h
      | some d => rw [hstep] at h; exact .cons hok hstep (ih h)
    · cases h

theorem runs_of_exec {ls : List ι} {c c' : σ} (h : S.exec c ls = some c') :
    S.Runs (fun _ _ => True) c ls c' :=
  runs_of_execWhere h

/-- One run after another. -/
theorem Runs.trans {ok : σ → ι → Prop} {c c' c'' : σ} {ls ls' : List ι}
    (h : S.Runs ok c ls c') (h' : S.Runs ok c' ls' c'') : S.Runs ok c (ls ++ ls') c'' := by
  induction h with
  | nil _ => exact h'
  | cons hok hstep _ ih => exact .cons hok hstep (ih h')

/-- A run that meets two guards meets them together: the steps of a run determine it. -/
theorem Runs.and {ok ok' : σ → ι → Prop} {c c' : σ} {ls : List ι} (h : S.Runs ok c ls c') :
    ∀ {d : σ}, S.Runs ok' c ls d → S.Runs (fun c l => ok c l ∧ ok' c l) c ls c' := by
  induction h with
  | nil _ => exact fun _ => .nil _
  | cons hok hstep _ ih =>
    intro d h'
    cases h' with
    | cons hok' hstep' hrest' =>
      rw [hstep] at hstep'
      cases hstep'
      exact .cons ⟨hok, hok'⟩ hstep (ih hrest')

/-- A weaker guard admits the same run. -/
theorem Runs.mono {ok ok' : σ → ι → Prop} (himp : ∀ c l, ok c l → ok' c l) {c c' : σ}
    {ls : List ι} (h : S.Runs ok c ls c') : S.Runs ok' c ls c' := by
  induction h with
  | nil _ => exact .nil _
  | cons hok hstep _ ih => exact .cons (himp _ _ hok) hstep ih

/-- A measure that every step lowers: fed with any sequence of labels, the system gets to a state
that is `done`. Induction on a bound of the measure. -/
theorem exists_run_to {ok : σ → ι → Prop} {done : σ → Prop} (left : σ → Nat) (n : Nat) :
    ∀ (labels : Nat → ι) {c : σ}, (∀ c i, ok c (labels i)) →
      (∀ c i, ¬ done c → ∃ c', S.step c (labels i) = some c' ∧ left c' < left c) → left c ≤ n →
      ∃ m c', S.Runs ok c ((List.range m).map labels) c' ∧ done c' := by
  induction n with
  | zero =>
    intro labels c _ hstep hle
    by_cases hdone : done c
    · exact ⟨0, c, .nil c, hdone⟩
    · obtain ⟨c', -, hlt⟩ := hstep c 0 hdone
      omega
  | succ n ih =>
    intro labels c hok hstep hle
    by_cases hdone : done c
    · exact ⟨0, c, .nil c, hdone⟩
    · obtain ⟨c', hfirst, hlt⟩ := hstep c 0 hdone
      obtain ⟨m, c'', hrun, hdone'⟩ := ih (fun i => labels (i + 1))
        (fun c i => hok c (i + 1)) (fun c i => hstep c (i + 1)) (show left c' ≤ n by omega)
      refine ⟨m + 1, c'', ?_, hdone'⟩
      rw [List.range_succ_eq_map, List.map_cons, List.map_map]
      exact .cons (hok c 0) hfirst hrun

/-- The same where the label of each step may be chosen from the state before it, in the states of
an invariant. Induction on a bound of the measure. -/
theorem exists_run_choosing {ok : σ → ι → Prop} {done J : σ → Prop} (left : σ → Nat)
    (label : σ → ι) (hok : ∀ c, ok c (label c))
    (hstep : ∀ c, J c → ¬ done c → ∃ c', S.step c (label c) = some c' ∧ J c' ∧ left c' < left c)
    (n : Nat) : ∀ {c : σ}, J c → left c ≤ n → ∃ ls c', S.Runs ok c ls c' ∧ done c' := by
  induction n with
  | zero =>
    intro c hJ hle
    by_cases hdone : done c
    · exact ⟨[], c, .nil c, hdone⟩
    · obtain ⟨c', -, -, hlt⟩ := hstep c hJ hdone
      omega
  | succ n ih =>
    intro c hJ hle
    by_cases hdone : done c
    · exact ⟨[], c, .nil c, hdone⟩
    · obtain ⟨c', hfirst, hJ', hlt⟩ := hstep c hJ hdone
      obtain ⟨ls, c'', hrun, hdone'⟩ := ih hJ' (show left c' ≤ n by omega)
      exact ⟨label c :: ls, c'', .cons (hok c) hfirst hrun, hdone'⟩

/-- **Refinement by a map of states**, with steps of the lower system that the upper one does not
see: a run of the lower system is one of the upper. -/
theorem Runs.refines {τ κ : Type*} {T : System τ κ} {ok : σ → ι → Prop} (f : σ → τ)
    (hsim : ∀ c l c', ok c l → S.step c l = some c' →
      f c' = f c ∨ ∃ k, T.step (f c) k = some (f c'))
    {c c' : σ} {ls : List ι} (h : S.Runs ok c ls c') :
    ∃ ks, T.Runs (fun _ _ => True) (f c) ks (f c') := by
  induction h with
  | nil c => exact ⟨[], .nil (f c)⟩
  | cons hok hstep _ ih =>
    obtain ⟨ks, hrun⟩ := ih
    rcases hsim _ _ _ hok hstep with hsame | ⟨k, hk⟩
    · exact ⟨ks, hsame ▸ hrun⟩
    · exact ⟨k :: ks, .cons trivial hk hrun⟩

/-! ## Invariants -/

/-- What every guarded step keeps holds at the end of every guarded run. -/
theorem Runs.invariant {ok : σ → ι → Prop} {I : σ → Prop}
    (hkeep : ∀ c l c', I c → ok c l → S.step c l = some c' → I c')
    {c c' : σ} {ls : List ι} (h : S.Runs ok c ls c') (h0 : I c) : I c' := by
  induction h with
  | nil _ => exact h0
  | cons hok hstep _ ih => exact ih (hkeep _ _ _ h0 hok hstep)

/-- A second guard that every step meets in the states of an invariant. -/
theorem Runs.strengthen {ok ok' : σ → ι → Prop} {I : σ → Prop}
    (hkeep : ∀ c l c', I c → ok c l → S.step c l = some c' → I c')
    (hmeets : ∀ c l, I c → ok c l → ok' c l) {c c' : σ} {ls : List ι} (h : S.Runs ok c ls c')
    (h0 : I c) : S.Runs ok' c ls c' ∧ I c' := by
  induction h with
  | nil _ => exact ⟨.nil _, h0⟩
  | cons hok hstep _ ih =>
    obtain ⟨hrun, hend⟩ := ih (hkeep _ _ _ h0 hok hstep)
    exact ⟨.cons (hmeets _ _ h0 hok) hstep hrun, hend⟩

/-- Either every step of a run meets a second guard, or the run ends in `D`, where the first
step that does not meet it leads to `D` and `D` is never left. -/
theorem Runs.strengthen_or {ok ok' : σ → ι → Prop} {I D : σ → Prop}
    (hkeep : ∀ c l c', I c → ok c l → S.step c l = some c' → I c')
    (hstay : ∀ c l c', I c → D c → ok c l → S.step c l = some c' → D c')
    (hleave : ∀ c l c', I c → ok c l → ¬ ok' c l → S.step c l = some c' → D c')
    {c c' : σ} {ls : List ι} (h : S.Runs ok c ls c') (h0 : I c) : S.Runs ok' c ls c' ∨ D c' := by
  induction h with
  | nil _ => exact .inl (.nil _)
  | @cons c c₁ c' l ls hok hstep hrest ih =>
    have h1 := hkeep _ _ _ h0 hok hstep
    by_cases hok' : ok' c l
    · exact (ih h1).imp_left (.cons hok' hstep)
    · have hD : I c₁ ∧ D c₁ := ⟨h1, hleave _ _ _ h0 hok hok' hstep⟩
      have hend := hrest.invariant (I := fun c => I c ∧ D c)
        (fun c l c' h hok hstep => ⟨hkeep _ _ _ h.1 hok hstep, hstay _ _ _ h.1 h.2 hok hstep⟩) hD
      exact .inr hend.2

/-- A guard that says, in the states of an invariant, exactly which steps keep the predicate
`I`: a run meets it throughout if and only if `I` holds in every state of the run. -/
theorem Runs.guard_iff {ok : σ → ι → Prop} {I J : σ → Prop}
    (hkeep : ∀ c l c', J c → S.step c l = some c' → J c')
    (hiff : ∀ c l c', J c → I c → S.step c l = some c' → (I c' ↔ ok c l))
    {c c' : σ} {ls : List ι} (h : S.Runs (fun _ _ => True) c ls c') (hJ : J c) (hI : I c) :
    S.Runs ok c ls c' ↔ S.Runs (fun c _ => I c) c ls c' ∧ I c' := by
  induction h with
  | nil _ => exact ⟨fun _ => ⟨.nil _, hI⟩, fun _ => .nil _⟩
  | @cons c c₁ c' l ls _ hstep hrest ih =>
    have hJ' := hkeep c l c₁ hJ hstep
    have hnext := hiff c l c₁ hJ hI hstep
    constructor
    · intro hruns
      cases hruns with
      | cons hok hstep' hrest' =>
        rw [hstep] at hstep'
        cases hstep'
        have hrest'' := (ih hJ' (hnext.mpr hok)).mp hrest'
        exact ⟨.cons hI hstep hrest''.1, hrest''.2⟩
    · rintro ⟨hall, hend⟩
      cases hall with
      | cons _ hstep' hrest' =>
        rw [hstep] at hstep'
        cases hstep'
        -- the predicate holds in the next state: it starts the rest of the run, or is the end
        have hI' : I c₁ := by
          cases hrest' with
          | nil _ => exact hend
          | cons hI' _ _ => exact hI'
        exact .cons (hnext.mp hI') hstep ((ih hJ' hI').mpr ⟨hrest', hend⟩)

/-- The invariant rule with a history variable: `I a c` relates the value `a` of the
variable so far to the current state. -/
theorem Runs.invariant_history {ok : σ → ι → Prop} {g : α → σ → ι → α} {I : α → σ → Prop}
    (hkeep : ∀ a c l c', I a c → ok c l → S.step c l = some c' → I (g a c l) c')
    {c c' : σ} {ls : List ι} (h : S.Runs ok c ls c') :
    ∀ {a : α}, I a c → I (S.history g a c ls) c' := by
  induction h with
  | nil _ => exact fun h0 => h0
  | cons hok hstep _ ih =>
    intro a h0
    rw [history, hstep]
    exact ih (hkeep _ _ _ _ h0 hok hstep)

/-- The history variable that counts steps of one kind. -/
theorem Runs.history_countP {ok : σ → ι → Prop} (q : ι → Bool) {c c' : σ} {ls : List ι}
    (h : S.Runs ok c ls c') :
    ∀ n : Nat, S.history (fun n _ l => n + if q l = true then 1 else 0) n c ls =
      n + ls.countP q := by
  induction h with
  | nil _ => exact fun _ => rfl
  | cons _ hstep _ ih =>
    intro n
    rw [history, hstep]
    show S.history _ _ _ _ = _
    rw [ih, List.countP_cons]
    omega

/-- Two history variables at once. -/
theorem history_prod {β : Type*} (g : α → σ → ι → α) (g' : β → σ → ι → β) {ls : List ι} :
    ∀ {a : α} {b : β} {c : σ},
      S.history (fun x c l => (g x.1 c l, g' x.2 c l)) (a, b) c ls =
        (S.history g a c ls, S.history g' b c ls) := by
  induction ls with
  | nil => intro a b c; rfl
  | cons l ls ih =>
    intro a b c
    simp only [history]
    cases S.step c l with
    | none => rfl
    | some c' => exact ih

/-- What every step overwrites or leaves alone holds the last value written in the run, or
the value it had at the start. -/
theorem Runs.read_eq_lastWrite {ok : σ → ι → Prop} (read : σ → α) {write : σ → ι → Option α}
    (hstep : ∀ c l c', ok c l → S.step c l = some c' → read c' = (write c l).getD (read c))
    {c c' : σ} {ls : List ι} (h : S.Runs ok c ls c') :
    read c' = (S.history (lastWrite write) none c ls).getD (read c) := by
  refine h.invariant_history (I := fun (last : Option α) d => read d = last.getD (read c)) ?_ rfl
  intro last d l d' hread hok hd
  rw [hstep d l d' hok hd, hread, lastWrite]
  cases write d l <;> rfl

end System

end Transition
