import Mathlib.Tactic.Basic

/-!
# Transactions

An action that may fail and has a state, `ExceptT ε (StateM σ) α`, is a transaction if it does what
it is meant to do or nothing: it returns with its change made, or it fails in a state that does not
differ from the one it began in. What counts as a difference is up to the setoid of the states; a
clock that ticks with every step, or a list of answers that is read off, need not count.

* `Ends`: the action returns as the one postcondition says, or fails as the other says.
* `Returns`: the action returns. `Fails`: it fails.
* `Commits`: the action returns, or it fails and the state is as good as the old one.
* **`Ends.bind`**: what comes next begins where the action has ended.
* **`Commits.bind`**, **`Commits.andThen`**: the two ways to go on with a transaction. After an
  action that only reads anything may follow; after one that has written, only what does not fail.
* `Ends.tryCatch`, `Commits.recover`, `Commits.forIn`: the rules for errors and for loops.
-/

namespace Transaction

variable {ε σ α β γ : Type} {s s' : σ} {a : α} {e : ε} {action : ExceptT ε (StateM σ) α}
  {next : α → ExceptT ε (StateM σ) β} {handler : ε → ExceptT ε (StateM σ) α}

/-! ## Runs -/

/-- An action that has returned hands its value and its state on. -/
theorem run_bind_ok (h : action.run.run s = (.ok a, s')) :
    (action >>= next).run.run s = (next a).run.run s' := by
  rw [ExceptT.run_bind, StateT.run_bind, h]
  rfl

/-- After a failure nothing runs. -/
theorem run_bind_error (h : action.run.run s = (.error e, s')) :
    (action >>= next).run.run s = (.error e, s') := by
  rw [ExceptT.run_bind, StateT.run_bind, h]
  rfl

/-- An action that has returned needs no handler. -/
theorem run_tryCatch_ok (h : action.run.run s = (.ok a, s')) :
    (tryCatch action handler).run.run s = (.ok a, s') := by
  show StateT.run (ExceptT.run (ExceptT.tryCatch action handler)) s = _
  unfold ExceptT.tryCatch
  show StateT.run (ExceptT.run action >>= _) s = _
  rw [StateT.run_bind, h]
  rfl

/-- The handler of an error begins in the state the failure has left behind. -/
theorem run_tryCatch_error (h : action.run.run s = (.error e, s')) :
    (tryCatch action handler).run.run s = (handler e).run.run s' := by
  show StateT.run (ExceptT.run (ExceptT.tryCatch action handler)) s = _
  unfold ExceptT.tryCatch
  show StateT.run (ExceptT.run action >>= _) s = _
  rw [StateT.run_bind, h]
  rfl

/-! ## Actions that return -/

/-- From `s` the action returns, with a value and in a state that meet `post`. -/
def Returns (action : ExceptT ε (StateM σ) α) (s : σ) (post : α → σ → Prop) : Prop :=
  ∃ a s', action.run.run s = (.ok a, s') ∧ post a s'

/-- What an action does that leaves the state alone. -/
abbrev reading (s : σ) (post : α → Prop) : α → σ → Prop := fun a s' => s' = s ∧ post a

namespace Returns

variable {post post' mid : α → σ → Prop} {final : β → σ → Prop}

theorem of_pure (h : post a s) : Returns (pure a : ExceptT ε (StateM σ) α) s post :=
  ⟨a, s, rfl, h⟩

/-- Reading the state leaves it alone. -/
theorem of_get : Returns (get : ExceptT ε (StateM σ) σ) s (reading s fun a => s = a) :=
  ⟨s, s, rfl, rfl, rfl⟩

/-- Writing the state does not fail. -/
theorem of_modify {f : σ → σ} {post : PUnit → σ → Prop} (h : post ⟨⟩ (f s)) :
    Returns (modify f : ExceptT ε (StateM σ) PUnit) s post := ⟨⟨⟩, f s, rfl, h⟩

/-- The next action begins where this one has returned. -/
theorem bind (h : Returns action s mid) (hnext : ∀ a s', mid a s' → Returns (next a) s' final) :
    Returns (action >>= next) s final := by
  obtain ⟨a, s', hrun, hmid⟩ := h
  obtain ⟨b, s'', hrun', hfinal⟩ := hnext a s' hmid
  refine ⟨b, s'', ?_, hfinal⟩
  rw [run_bind_ok hrun]
  exact hrun'

/-- After an action that leaves the state alone. -/
theorem bindRead {read : α → Prop} (h : Returns action s (reading s read))
    (hnext : ∀ a, read a → Returns (next a) s final) : Returns (action >>= next) s final := by
  apply bind h
  intro a s' hread
  rw [hread.1]
  exact hnext a hread.2

/-- A postcondition may be weakened. -/
theorem imp (h : Returns action s post) (himp : ∀ a s', post a s' → post' a s') :
    Returns action s post' := by
  obtain ⟨a, s', hrun, hpost⟩ := h
  exact ⟨a, s', hrun, himp a s' hpost⟩

end Returns

/-! ## Actions that return or fail

Both postconditions are about the state in which the action ends. That of a failure is not implied
to be the old one: an action that writes twice may fail in between. -/

/-- From `s` the action fails, with an error and in a state that meet `bad`. -/
def Fails (action : ExceptT ε (StateM σ) α) (s : σ) (bad : ε → σ → Prop) : Prop :=
  ∃ e s', action.run.run s = (.error e, s') ∧ bad e s'

/-- From `s` the action returns as `post` says, or fails as `bad` says. -/
def Ends (action : ExceptT ε (StateM σ) α) (s : σ) (post : α → σ → Prop) (bad : ε → σ → Prop) :
    Prop :=
  Returns action s post ∨ Fails action s bad

/-- An action that returns does not fail. -/
theorem Returns.ends {post : α → σ → Prop} {bad : ε → σ → Prop} (h : Returns action s post) :
    Ends action s post bad := .inl h

namespace Ends

variable {post post' mid : α → σ → Prop} {final : β → σ → Prop} {bad bad' : ε → σ → Prop}

theorem of_pure (h : post a s) : Ends (pure a : ExceptT ε (StateM σ) α) s post bad :=
  .inl (.of_pure h)

/-- `throw` fails on the spot. -/
theorem of_throw (h : bad e s) : Ends (throw e : ExceptT ε (StateM σ) α) s post bad :=
  .inr ⟨e, s, rfl, h⟩

/-- **What comes next** begins where the action has ended. -/
theorem bind (h : Ends action s mid bad) (hnext : ∀ a s', mid a s' → Ends (next a) s' final bad) :
    Ends (action >>= next) s final bad := by
  rcases h with ⟨a, s', hrun, hmid⟩ | ⟨e, s', hrun, hbad⟩
  · unfold Ends Returns Fails
    rw [run_bind_ok hrun]
    exact hnext a s' hmid
  · exact .inr ⟨e, s', run_bind_error hrun, hbad⟩

/-- After an action that leaves the state alone. -/
theorem bindRead {read : α → Prop} (h : Ends action s (reading s read) bad)
    (hnext : ∀ a, read a → Ends (next a) s final bad) : Ends (action >>= next) s final bad := by
  apply bind h
  intro a s' hread
  rw [hread.1]
  exact hnext a hread.2

/-- An action that returns with more than is asked for. -/
theorem imp (h : Ends action s post bad) (himp : ∀ a s', post a s' → post' a s') :
    Ends action s post' bad := h.imp_left fun h => h.imp himp

/-- An action that fails for one of more reasons. -/
theorem weaken (h : Ends action s post bad) (himp : ∀ e s', bad e s' → bad' e s') :
    Ends action s post bad' := by
  rcases h with hreturns | ⟨e, s', hrun, hbad⟩
  · exact .inl hreturns
  · exact .inr ⟨e, s', hrun, himp e s' hbad⟩

/-- What is done about an error begins where the failure has ended. -/
theorem tryCatch (h : Ends action s post bad)
    (hhandler : ∀ e s', bad e s' → Ends (handler e) s' post bad') :
    Ends (tryCatch action handler) s post bad' := by
  rcases h with ⟨a, s', hrun, hpost⟩ | ⟨e, s', hrun, hbad⟩
  · exact .inl ⟨a, s', run_tryCatch_ok hrun, hpost⟩
  · unfold Ends Returns Fails
    rw [run_tryCatch_error hrun]
    exact hhandler e s' hbad

end Ends

/-! ## Transactions -/

section
variable [Setoid σ]

/-- What an action does that changes nothing that counts. -/
abbrev asking (s : σ) (post : α → Prop) : α → σ → Prop := fun a s' => s' ≈ s ∧ post a

/-- From `s` the action returns as `post` says, or it fails with an error that may be `refused`, and
nothing that counts has changed. -/
def Commits (action : ExceptT ε (StateM σ) α) (s : σ) (post : α → σ → Prop) (refused : ε → Prop) :
    Prop :=
  Ends action s post fun e s' => s' ≈ s ∧ refused e

namespace Commits

variable {post post' mid : α → σ → Prop} {final : β → σ → Prop} {refused refused' : ε → Prop}

theorem of_pure (h : post a s) : Commits (pure a : ExceptT ε (StateM σ) α) s post refused :=
  Ends.of_pure h

theorem of_get : Commits (get : ExceptT ε (StateM σ) σ) s (reading s fun a => s = a) refused :=
  Returns.of_get.ends

/-- An error before anything is done is a transaction. -/
theorem of_throw (h : refused e) :
    Commits (throw e : ExceptT ε (StateM σ) α) s post refused :=
  Ends.of_throw ⟨Setoid.refl s, h⟩

/-- A transaction that does more than is asked for. -/
theorem imp (h : Commits action s post refused) (himp : ∀ a s', post a s' → post' a s') :
    Commits action s post' refused := Ends.imp h himp

/-- A transaction that fails for one of more reasons. -/
theorem weaken (h : Commits action s post refused) (himp : ∀ e, refused e → refused' e) :
    Commits action s post refused' := Ends.weaken h fun e _ he => ⟨he.1, himp e he.2⟩

/-- After an action that leaves the state alone, a transaction. -/
theorem bindRead {read : α → Prop} (h : Commits action s (reading s read) refused)
    (hnext : ∀ a, read a → Commits (next a) s final refused) :
    Commits (action >>= next) s final refused := Ends.bindRead h hnext

/-- **After an action that only reads**, a transaction. -/
theorem bind {read : α → Prop} (h : Commits action s (asking s read) refused)
    (hnext : ∀ a s', s' ≈ s → read a → Commits (next a) s' final refused) :
    Commits (action >>= next) s final refused := by
  apply Ends.bind h
  rintro a s' ⟨hs, hread⟩
  exact Ends.weaken (hnext a s' hs hread) fun _ _ he => ⟨Setoid.trans he.1 hs, he.2⟩

/-- **After a transaction**, an action that does not fail. -/
theorem andThen (h : Commits action s mid refused)
    (hnext : ∀ a s', mid a s' → Returns (next a) s' final) :
    Commits (action >>= next) s final refused :=
  Ends.bind h fun a s' hmid => (hnext a s' hmid).ends

/-- A transaction that is made up for when it fails does not fail. -/
theorem recover (h : Commits action s post refused)
    (hhandler : ∀ e s', s' ≈ s → refused e → Returns (handler e) s' post) :
    Returns (tryCatch action handler) s post := by
  rcases h with ⟨a, s', hrun, hpost⟩ | ⟨e, s', hrun, hs, he⟩
  · exact ⟨a, s', run_tryCatch_ok hrun, hpost⟩
  · unfold Returns
    rw [run_tryCatch_error hrun]
    exact hhandler e s' hs he

/-- A loop that only reads, and goes on to its end. Induction on the list: a pass begins in a state
as good as the first. -/
theorem forIn {body : γ → β → ExceptT ε (StateM σ) (ForInStep β)} (items : List γ) :
    ∀ {s : σ}, (∀ c b s', s' ≈ s →
      Commits (body c b) s' (asking s' fun r => ∃ b', r = .yield b') refused) →
      ∀ b, Commits (forIn items b body) s (asking s fun _ => True) refused := by
  induction items with
  | nil =>
    intro s _ b
    exact .of_pure ⟨Setoid.refl s, trivial⟩
  | cons c items ih =>
    intro s hbody b
    rw [List.forIn_cons]
    apply bind (hbody c b s (Setoid.refl s))
    rintro _ s' hs' ⟨b', rfl⟩
    have hrest := ih (fun c b s'' hs'' => hbody c b s'' (Setoid.trans hs'' hs')) b'
    apply hrest.imp
    rintro _ _ ⟨hs'', -⟩
    exact ⟨Setoid.trans hs'' hs', trivial⟩

end Commits

end

end Transaction
