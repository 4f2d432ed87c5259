import Mathlib.Algebra.Ring.Parity
import TimeTracker.Steps

/-!
# Pause toggles

`pause()` reads the flag under the read lock and writes its negation under the write lock, which
it takes anew. Between the two another call can write: the later write then puts in the value that
is there already, and one toggle is lost.

* **`pauseInvariant_run`**: the flag has been negated once for every call that has returned and
  once more for every stale write, in any interleaving.
* **`pause_toggles_iff`**: after all calls the flag is the initial one negated once for each of
  them if and only if the number of stale writes is even.
* **`pause_toggles_fresh`**: in particular where no write is stale.
* **`pause_toggle_lost`**: two calls that overlap leave a single toggle.
-/

namespace TimeTracker

open Transition

/-- A call of `pause`, wherever it is. -/
def Call.isPause : Call → Bool
  | .pause _ => true
  | _ => false

/-- A call of `pause` that has returned. -/
def Call.pauseReturned : Call → Bool
  | .pause .returned => true
  | _ => false

/-- What a step writes to `PAUSE`, if it writes. -/
def pauseWrite (c : Config) : Label → Option Bool
  | .call k _ =>
    match c.calls[k]? with
    | some (.pause (.write value)) => some value
    | _ => none
  | _ => none

/-- A stale write: the flag has the value already that is written to it, so it has changed since
the call read it. -/
def writesStale (c : Config) (l : Label) : Prop := pauseWrite c l = some c.shared.pause

instance (c : Config) (l : Label) : Decidable (writesStale c l) :=
  inferInstanceAs (Decidable (_ = _))

/-- The history variable that counts the stale writes of a run. -/
def staleWrites (n : Nat) (c : Config) (l : Label) : Nat := if writesStale c l then n + 1 else n

/-! ## What a step does to the flag -/

section Steps

variable {inp : Input} {s s' : Shared}

/-- A call is a call of `pause` or keeps the flag. -/
theorem Call.step_pause {call call' : Call} (h : call.step inp s = some (call', s')) :
    (∃ pause pause', call = .pause pause ∧ call' = .pause pause' ∧
      pause.step s = some (pause', s')) ∨
    (call.isPause = false ∧ call'.isPause = false ∧ s'.pause = s.pause) := by
  rcases Call.step_machine h with ⟨a, a', rfl, rfl, hstep⟩ | ⟨d, d', rfl, rfl, hstep⟩ |
    ⟨p, p', rfl, rfl, hstep⟩ | ⟨a, a', db, rfl, rfl, -, rfl⟩ | ⟨a, a', db, rfl, rfl, -, rfl⟩ |
    ⟨a, a', db, rfl, rfl, -, rfl⟩
  · rcases AddProcess.step_shared hstep with ⟨_, rfl⟩ | ⟨_, _, _, _, -, -, -, -, rfl⟩
    · exact .inr ⟨rfl, rfl, rfl⟩
    · exact .inr ⟨rfl, rfl, rfl⟩
  · rcases DeleteProcess.step_shared hstep with ⟨_, rfl⟩ | ⟨_, -, -, rfl⟩
    · exact .inr ⟨rfl, rfl, rfl⟩
    · exact .inr ⟨rfl, rfl, rfl⟩
  · exact .inl ⟨p, p', rfl, rfl, hstep⟩
  · exact .inr ⟨rfl, rfl, rfl⟩
  · exact .inr ⟨rfl, rfl, rfl⟩
  · exact .inr ⟨rfl, rfl, rfl⟩

theorem Call.pauseReturned_of_not_isPause {call : Call} (h : call.isPause = false) :
    call.pauseReturned = false := by
  cases call with
  | pause _ => cases h
  | _ => rfl

end Steps

section Parity

variable {c c' : Config} {l : Label}

/-- Only the write of a call of `pause` touches the flag. -/
theorem step_pause_cases (h : tracker.step c l = some c') :
    (∃ k inp value, l = .call k inp ∧ c.calls[k]? = some (.pause (.write value)) ∧
      c'.calls = c.calls.set k (.pause .returned) ∧ c'.shared.pause = value) ∨
    (pauseWrite c l = none ∧ c'.shared.pause = c.shared.pause ∧
      c'.calls.countP Call.isPause = c.calls.countP Call.isPause ∧
      c'.calls.countP Call.pauseReturned = c.calls.countP Call.pauseReturned) := by
  cases l with
  | scan inp =>
    obtain ⟨sc, s, hstep, rfl⟩ := step_scan h
    rcases Scanner.step_cases hstep with ⟨-, -, rfl⟩ | ⟨_, _, _, -, -, -, -, -, rfl⟩ |
      ⟨_, _, -, -, -, -, -, rfl⟩ | ⟨_, _, -, -, rfl⟩ <;> exact .inr ⟨rfl, rfl, rfl, rfl⟩
  | spawn =>
    obtain ⟨_, _, -, rfl⟩ := step_spawn h
    exact .inr ⟨rfl, rfl, rfl, rfl⟩
  | work k inp =>
    obtain ⟨w, w', s, -, hstep, rfl⟩ := step_work h
    exact .inr ⟨rfl, Worker.step_pause hstep, rfl, rfl⟩
  | handle inp =>
    obtain ⟨loop, events, db, -, rfl⟩ := step_handle h
    exact .inr ⟨rfl, rfl, rfl, rfl⟩
  | call k inp =>
    obtain ⟨call, call', s, hk, hstep, rfl⟩ := step_call h
    have hcount := fun p : Call → Bool => Pool.countP_set p call' hk
    rcases Call.step_pause hstep with ⟨pause, pause', rfl, rfl, hpause⟩ | ⟨hother, hother', hsame⟩
    · rcases Pause.step_cases hpause with ⟨rfl, rfl, rfl⟩ | ⟨value, rfl, rfl, rfl⟩
      · refine .inr ⟨?_, rfl, ?_, ?_⟩
        · simp [pauseWrite, hk]
        · exact Nat.add_right_cancel (hcount Call.isPause)
        · exact hcount Call.pauseReturned
      · exact .inl ⟨k, inp, value, rfl, hk, rfl, rfl⟩
    · refine .inr ⟨?_, hsame, ?_, ?_⟩
      · cases call with
        | pause _ => cases hother
        | _ => simp [pauseWrite, hk]
      · have hcalls := hcount Call.isPause
        rw [hother, hother'] at hcalls
        exact hcalls
      · have hcalls := hcount Call.pauseReturned
        rw [Call.pauseReturned_of_not_isPause hother,
          Call.pauseReturned_of_not_isPause hother'] at hcalls
        exact hcalls

/-- The flag after some calls of `pause`: negated once for every call that has returned, and
once more for every stale write. `n` is the number of calls, `start` the initial flag. -/
structure PauseInvariant (n : Nat) (start : Bool) (stale : Nat) (c : Config) : Prop where
  total : c.calls.countP Call.isPause = n
  flag : c.shared.pause = Bool.not^[c.calls.countP Call.pauseReturned + stale] start

/-- **What one step does to the parity.** -/
theorem pauseInvariant_step {n stale : Nat} {start : Bool} (hinv : PauseInvariant n start stale c)
    (h : tracker.step c l = some c') : PauseInvariant n start (staleWrites stale c l) c' := by
  rcases step_pause_cases h with ⟨k, inp, value, rfl, hk, hcalls, hvalue⟩ |
    ⟨hwrite, hpause, htotal, hreturned⟩
  · have hcount := fun p : Call → Bool => Pool.countP_set p (.pause .returned) hk
    have htotal : c'.calls.countP Call.isPause = c.calls.countP Call.isPause := by
      rw [hcalls]
      exact Nat.add_right_cancel (hcount Call.isPause)
    have hreturned : c'.calls.countP Call.pauseReturned =
        c.calls.countP Call.pauseReturned + 1 := by
      rw [hcalls]
      exact hcount Call.pauseReturned
    have hwrites : pauseWrite c (.call k inp) = some value := by
      simp only [pauseWrite, hk]
    refine ⟨htotal.trans hinv.total, ?_⟩
    rw [hvalue, hreturned, staleWrites]
    by_cases hstale : value = c.shared.pause
    · -- the flag stays: one call more has returned, and one write more is stale
      have hcond : writesStale c (.call k inp) := by
        rw [writesStale, hwrites, hstale]
      rw [if_pos hcond, hstale, hinv.flag,
        show c.calls.countP Call.pauseReturned + 1 + (stale + 1) =
          c.calls.countP Call.pauseReturned + stale + 1 + 1 by omega,
        Function.iterate_succ_apply', Function.iterate_succ_apply', Bool.not_not]
    · -- the flag is negated: one call more has returned
      have hcond : ¬ writesStale c (.call k inp) := by
        rw [writesStale, hwrites, Option.some.injEq]
        exact hstale
      rw [if_neg hcond, Bool.eq_not.mpr hstale, hinv.flag,
        show c.calls.countP Call.pauseReturned + 1 + stale =
          c.calls.countP Call.pauseReturned + stale + 1 by omega, Function.iterate_succ_apply']
  · have hcond : ¬ writesStale c l := by
      rw [writesStale, hwrite]
      simp
    refine ⟨htotal.trans hinv.total, ?_⟩
    rw [staleWrites, if_neg hcond, hpause, hreturned]
    exact hinv.flag

end Parity

/-! ## Runs -/

section Runs

variable {c₀ c : Config} {ls : List Label}

/-- At the start no call has returned. -/
theorem pauseInvariant_start (hstart : ∀ pause, Call.pause pause ∈ c₀.calls → pause = .read) :
    PauseInvariant (c₀.calls.countP Call.isPause) c₀.shared.pause 0 c₀ := by
  have hnone : c₀.calls.countP Call.pauseReturned = 0 := by
    rw [List.countP_eq_zero]
    intro call hcall hreturned
    cases call with
    | pause pause =>
      cases hstart pause hcall
      cases hreturned
    | _ => cases hreturned
  exact ⟨rfl, by rw [hnone]; rfl⟩

/-- At the end all have returned. -/
theorem countP_pauseReturned (hend : ∀ pause, Call.pause pause ∈ c.calls → pause = .returned) :
    c.calls.countP Call.pauseReturned = c.calls.countP Call.isPause := by
  apply List.countP_congr
  intro call hcall
  cases call with
  | pause pause =>
    cases hend pause hcall
    simp [Call.pauseReturned, Call.isPause]
  | _ => simp [Call.pauseReturned, Call.isPause]

theorem pauseInvariant_run (hstart : ∀ pause, Call.pause pause ∈ c₀.calls → pause = .read)
    (hrun : tracker.Runs (fun _ _ => True) c₀ ls c) :
    PauseInvariant (c₀.calls.countP Call.isPause) c₀.shared.pause
      (tracker.history staleWrites 0 c₀ ls) c :=
  hrun.invariant_history (fun _ _ _ _ hinv _ hstep => pauseInvariant_step hinv hstep)
    (pauseInvariant_start hstart)

/-- **The flag after all calls of `pause`**: negated once for each of them, and once more for
every stale write. -/
theorem pause_eq (hstart : ∀ pause, Call.pause pause ∈ c₀.calls → pause = .read)
    (hrun : tracker.Runs (fun _ _ => True) c₀ ls c)
    (hend : ∀ pause, Call.pause pause ∈ c.calls → pause = .returned) :
    c.shared.pause = Bool.not^[c₀.calls.countP Call.isPause]
      (Bool.not^[tracker.history staleWrites 0 c₀ ls] c₀.shared.pause) := by
  have hinv := pauseInvariant_run hstart hrun
  rw [hinv.flag, countP_pauseReturned hend, hinv.total, Function.iterate_add_apply]

theorem not_iterate_eq_self {n : Nat} {b : Bool} : Bool.not^[n] b = b ↔ Even n := by
  constructor
  · intro h
    by_contra hodd
    rw [Bool.involutive_not.iterate_odd (Nat.not_even_iff_odd.mp hodd)] at h
    exact Bool.not_ne_self b h
  · intro heven
    rw [Bool.involutive_not.iterate_even heven]
    rfl

/-- **When no toggle is lost**: exactly where the stale writes cancel out. -/
theorem pause_toggles_iff (hstart : ∀ pause, Call.pause pause ∈ c₀.calls → pause = .read)
    (hrun : tracker.Runs (fun _ _ => True) c₀ ls c)
    (hend : ∀ pause, Call.pause pause ∈ c.calls → pause = .returned) :
    c.shared.pause = Bool.not^[c₀.calls.countP Call.isPause] c₀.shared.pause ↔
      Even (tracker.history staleWrites 0 c₀ ls) := by
  rw [pause_eq hstart hrun hend, (Bool.involutive_not.injective.iterate _).eq_iff]
  exact not_iterate_eq_self

/-- A run with no stale write counts none. -/
theorem staleWrites_eq_zero (hrun : tracker.Runs (fun c l => ¬ writesStale c l) c₀ ls c) :
    tracker.history staleWrites 0 c₀ ls = 0 := by
  refine hrun.invariant_history (I := fun n _ => n = 0) ?_ rfl
  intro n c l c' hn hfresh _
  rw [staleWrites, if_neg hfresh, hn]

/-- Where every call writes the negation of the flag it overwrites, no toggle is lost. -/
theorem pause_toggles_fresh (hstart : ∀ pause, Call.pause pause ∈ c₀.calls → pause = .read)
    (hrun : tracker.Runs (fun c l => ¬ writesStale c l) c₀ ls c)
    (hend : ∀ pause, Call.pause pause ∈ c.calls → pause = .returned) :
    c.shared.pause = Bool.not^[c₀.calls.countP Call.isPause] c₀.shared.pause := by
  rw [pause_eq hstart (hrun.mono fun _ _ _ => trivial) hend, staleWrites_eq_zero hrun]
  rfl

end Runs

/-! ## Two calls -/

/-- The hotkey and the tray each toggle the flag once. -/
def hotkeyAndTray : List Call := [.pause .read, .pause .read]

/-- Both read the flag before one of them writes it. -/
def bothReadFirst : List Label := [.call 0 {}, .call 1 {}, .call 0 {}, .call 1 {}]

/-- One after the other. -/
def oneByOne : List Label := [.call 0 {}, .call 0 {}, .call 1 {}, .call 1 {}]

/-- **A lost toggle**: two calls, and the tracker is paused. -/
theorem pause_toggle_lost :
    ¬ ∀ (c₀ c : Config) (ls : List Label),
      (∀ pause, Call.pause pause ∈ c₀.calls → pause = .read) →
      tracker.Runs (fun _ _ => True) c₀ ls c →
      (∀ pause, Call.pause pause ∈ c.calls → pause = .returned) →
      c.shared.pause = Bool.not^[c₀.calls.countP Call.isPause] c₀.shared.pause := by
  intro hall
  have hend : (tracker.exec (.initial .linux storeWithA hotkeyAndTray) bothReadFirst).map
      (fun c => decide (c.calls = [.pause .returned, .pause .returned] ∧
        c.shared.pause = true)) = some true := by decide
  obtain ⟨c, hexec, hc⟩ := Option.map_eq_some_iff.mp hend
  obtain ⟨hcalls, hpaused⟩ := of_decide_eq_true hc
  have htoggled := hall _ c bothReadFirst
    (by simp [Config.initial, hotkeyAndTray]) (System.runs_of_exec hexec) (by simp [hcalls])
  rw [hpaused] at htoggled
  revert htoggled
  decide

/-- One after the other, neither is lost. -/
theorem pause_toggles_oneByOne :
    ∃ c, tracker.exec (.initial .linux storeWithA hotkeyAndTray) oneByOne = some c ∧
      (c.shared.pause = Bool.not^[hotkeyAndTray.countP Call.isPause] false ↔
        Even (tracker.history staleWrites 0 (.initial .linux storeWithA hotkeyAndTray)
          oneByOne)) := by
  have hend : (tracker.exec (.initial .linux storeWithA hotkeyAndTray) oneByOne).map
      (fun c => decide (c.calls = [.pause .returned, .pause .returned])) = some true := by decide
  obtain ⟨c, hexec, hc⟩ := Option.map_eq_some_iff.mp hend
  have hcalls := of_decide_eq_true hc
  exact ⟨c, hexec, pause_toggles_iff (by simp [Config.initial, hotkeyAndTray])
    (System.runs_of_exec hexec) (by simp [hcalls])⟩

end TimeTracker
