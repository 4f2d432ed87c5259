import Mathlib.Data.Int.Interval
import Mathlib.Data.Rat.Floor
import Mathlib.Tactic.Linarith

/-!
# The minutes of a session

The session loop of `workerDelegate` in the C++ tracker looks at the clock about once a second and
sends `DURATION` and `TIMELINE` where the elapsed whole seconds are a multiple of sixty. Nothing
makes it look in each of these seconds: `wait(1000)` and the requests take more than a second.

* **`length_hitMinutes_iff`**: the minutes that are sent are the full minutes of the session if and
  only if each of them is hit by a check.
* **`minutes_counted_iff`**: so the number of `DURATION` events is right after every check exactly
  where there is a check in the first second of every full minute.
* **`minute_skipped`**: checks at 59.5 and at 61 seconds miss the first minute.
-/

namespace TimeTracker.Cpp

/-! ## The loop -/

/-- `RestBase::RECIEVE_TYPES`. -/
inductive RecieveTypes where
  | longestSession
  | duration
  | launches
  | timeline
deriving DecidableEq

/-- `int(elapsed.count()) != 0 && int(elapsed.count()) % 60 == 0`; an elapsed time is not
negative, so the conversion rounds down. -/
def hitsMinute (elapsed : ℚ) : Bool := ⌊elapsed⌋ ≠ 0 && ⌊elapsed⌋ % 60 = 0

/-- One round of the loop: what has been sent after the check at `elapsed`. -/
def checkMinute (sent : List RecieveTypes) (elapsed : ℚ) : List RecieveTypes :=
  if hitsMinute elapsed then sent ++ [.duration, .timeline] else sent

/-- The loop over the checks of a session. -/
def sendMinutes (checks : List ℚ) : List RecieveTypes := checks.foldl checkMinute []

/-! ## Which minutes are sent -/

/-- The minutes that are hit by a check. -/
def hitMinutes (checks : List ℚ) : List ℤ := (checks.filter hitsMinute).map fun e => ⌊e⌋ / 60

theorem hitsMinute_iff {e : ℚ} (he : 0 ≤ e) :
    hitsMinute e = true ↔ 1 ≤ ⌊e⌋ / 60 ∧ ⌊e⌋ = 60 * (⌊e⌋ / 60) := by
  have hfloor : 0 ≤ ⌊e⌋ := Int.floor_nonneg.mpr he
  simp only [hitsMinute, ne_eq, Bool.and_eq_true, decide_eq_true_eq, decide_not,
    Bool.not_eq_true', decide_eq_false_iff_not]
  omega

/-- Every hit is one `DURATION` event. -/
theorem count_duration (checks : List ℚ) :
    (sendMinutes checks).count .duration = (hitMinutes checks).length := by
  have hloop : ∀ (checks : List ℚ) (sent : List RecieveTypes),
      (checks.foldl checkMinute sent).count .duration =
        sent.count .duration + (checks.filter hitsMinute).length := by
    intro checks
    induction checks with
    | nil => intro sent; rfl
    | cons e rest ih =>
      intro sent
      rw [List.foldl_cons, ih, checkMinute]
      cases h : hitsMinute e with
      | false => rw [List.filter_cons_of_neg (by simp [h])]; rfl
      | true =>
        rw [List.filter_cons_of_pos h, if_pos rfl, List.count_append, List.length_cons,
          show [RecieveTypes.duration, .timeline].count .duration = 1 from rfl]
        omega
  rw [sendMinutes, hloop, hitMinutes, List.length_map]
  exact Nat.zero_add _

section Checks

variable {checks : List ℚ}

theorem mem_hitMinutes (hstart : ∀ e ∈ checks, 0 ≤ e) {m : ℤ} :
    m ∈ hitMinutes checks ↔ 1 ≤ m ∧ ∃ e ∈ checks, ⌊e⌋ = 60 * m := by
  simp only [hitMinutes, List.mem_map, List.mem_filter]
  constructor
  · rintro ⟨e, ⟨he, hhit⟩, rfl⟩
    obtain ⟨hpos, hfloor⟩ := (hitsMinute_iff (hstart e he)).mp hhit
    exact ⟨hpos, e, he, hfloor⟩
  · rintro ⟨hpos, e, he, hfloor⟩
    have hminute : ⌊e⌋ / 60 = m := by omega
    refine ⟨e, ⟨he, (hitsMinute_iff (hstart e he)).mpr ?_⟩, hminute⟩
    omega

/-- A minute is hit by one check only: the next check is a second later. -/
theorem nodup_hitMinutes (hstart : ∀ e ∈ checks, 0 ≤ e)
    (hgaps : checks.Pairwise fun e e' => e + 1 ≤ e') : (hitMinutes checks).Nodup := by
  rw [hitMinutes, List.nodup_iff_pairwise_ne, List.pairwise_map]
  refine (hgaps.filter hitsMinute).imp_of_mem ?_
  intro e e' he he' hgap
  obtain ⟨hmem, hhit⟩ := List.mem_filter.mp he
  obtain ⟨hmem', hhit'⟩ := List.mem_filter.mp he'
  have hfloor := ((hitsMinute_iff (hstart e hmem)).mp hhit).2
  have hfloor' := ((hitsMinute_iff (hstart e' hmem')).mp hhit').2
  have hlater : ⌊e⌋ + 1 ≤ ⌊e'⌋ := by
    rw [← Int.floor_add_one]
    exact Int.floor_le_floor hgap
  omega

/-- **The right number of minutes** is sent up to minute `n`, which no hit is after, if and only if
each of them is hit. -/
theorem length_hitMinutes_iff (hstart : ∀ e ∈ checks, 0 ≤ e)
    (hgaps : checks.Pairwise fun e e' => e + 1 ≤ e') {n : ℤ} (hn : 0 ≤ n)
    (hlast : ∀ e ∈ checks, ⌊e⌋ / 60 ≤ n) :
    ((hitMinutes checks).length : ℤ) = n ↔
      ∀ m : ℤ, 1 ≤ m → m ≤ n → ∃ e ∈ checks, ⌊e⌋ = 60 * m := by
  have hnodup := nodup_hitMinutes hstart hgaps
  have hsub : (hitMinutes checks).toFinset ⊆ Finset.Icc 1 n := by
    intro m hm
    obtain ⟨hpos, e, he, hfloor⟩ := (mem_hitMinutes hstart).mp (List.mem_toFinset.mp hm)
    have hle := hlast e he
    rw [Finset.mem_Icc]
    omega
  have hcard : (hitMinutes checks).length = (hitMinutes checks).toFinset.card :=
    (List.toFinset_card_of_nodup hnodup).symm
  have hminutes : ((Finset.Icc 1 n).card : ℤ) = n := by
    rw [Int.card_Icc]
    omega
  constructor
  · intro hlength m hpos hle
    -- as many hits as minutes: none is left out
    have hall : (hitMinutes checks).toFinset = Finset.Icc 1 n := by
      apply Finset.eq_of_subset_of_card_le hsub
      omega
    have hm : m ∈ (hitMinutes checks).toFinset := by
      rw [hall, Finset.mem_Icc]
      exact ⟨hpos, hle⟩
    exact ((mem_hitMinutes hstart).mp (List.mem_toFinset.mp hm)).2
  · intro hall
    have heq : (hitMinutes checks).toFinset = Finset.Icc 1 n := by
      apply hsub.antisymm
      intro m hm
      obtain ⟨hpos, hle⟩ := Finset.mem_Icc.mp hm
      exact List.mem_toFinset.mpr ((mem_hitMinutes hstart).mpr ⟨hpos, hall m hpos hle⟩)
    rw [hcard, heq, hminutes]

/-- A check in the first second of minute `m`. -/
theorem floor_eq_minute {e : ℚ} {m : ℤ} : ⌊e⌋ = 60 * m ↔ 60 * (m : ℚ) ≤ e ∧ e < 60 * m + 1 := by
  rw [Int.floor_eq_iff]
  push_cast
  rfl

/-- The checks of a session up to one of them. -/
theorem count_duration_iff {earlier later : List ℚ} {e : ℚ}
    (hchecks : checks = earlier ++ e :: later) (hstart : ∀ e ∈ checks, 0 ≤ e)
    (hgaps : checks.Pairwise fun e e' => e + 1 ≤ e') :
    ((sendMinutes (earlier ++ [e])).count .duration : ℤ) = ⌊e / 60⌋ ↔
      ∀ m : ℤ, 1 ≤ m → 60 * (m : ℚ) ≤ e → ∃ e' ∈ checks, 60 * (m : ℚ) ≤ e' ∧ e' < 60 * m + 1 := by
  have hsplit : checks = (earlier ++ [e]) ++ later := by
    rw [hchecks, List.append_assoc, List.singleton_append]
  rw [hsplit] at hstart hgaps
  obtain ⟨hgaps', -, hlater⟩ := List.pairwise_append.mp hgaps
  obtain ⟨-, -, hearlier⟩ := List.pairwise_append.mp hgaps'
  have hstart' : ∀ e' ∈ earlier ++ [e], 0 ≤ e' := fun e' he' =>
    hstart e' (List.mem_append_left _ he')
  have hlast : ∀ e' ∈ earlier ++ [e], e' ≤ e := by
    intro e' he'
    rcases List.mem_append.mp he' with he' | he'
    · have hgap := hearlier e' he' e (List.mem_singleton.mpr rfl)
      linarith
    · exact (List.mem_singleton.mp he').le
  have he : 0 ≤ e := hstart' e (by simp)
  have hfloor : ⌊e / 60⌋ = ⌊e⌋ / 60 := by
    have h := Int.floor_div_natCast e 60
    exact_mod_cast h
  have hminute : ∀ m : ℤ, 60 * (m : ℚ) ≤ e ↔ m ≤ ⌊e⌋ / 60 := by
    intro m
    rw [show 60 * (m : ℚ) = ((60 * m : ℤ) : ℚ) by push_cast; rfl, ← Int.le_floor]
    omega
  rw [count_duration, hfloor, length_hitMinutes_iff hstart' hgaps'
    (by have := Int.floor_nonneg.mpr he; omega)
    (fun e' he' => Int.ediv_le_ediv (by omega) (Int.floor_le_floor (hlast e' he')))]
  constructor
  · intro hall m hpos hle
    obtain ⟨e', he', hhit⟩ := hall m hpos ((hminute m).mp hle)
    exact ⟨e', hsplit ▸ List.mem_append_left _ he', floor_eq_minute.mp hhit⟩
  · intro hall m hpos hle
    obtain ⟨e', he', hhit⟩ := hall m hpos ((hminute m).mpr hle)
    refine ⟨e', ?_, floor_eq_minute.mpr hhit⟩
    rw [hsplit] at he'
    -- a check after `e` is a second later, so it is not in a second that has begun before `e`
    rcases List.mem_append.mp he' with he' | he'
    · exact he'
    · have hgap := hlater e (by simp) e' he'
      have hreached := (hminute m).mpr hle
      linarith [hhit.2]

/-- **When no minute is lost or counted twice**: after every check the `DURATION` events are the
full minutes so far, if and only if every full minute that is reached has a check in its first
second. -/
theorem minutes_counted_iff (hstart : ∀ e ∈ checks, 0 ≤ e)
    (hgaps : checks.IsChain fun e e' => e + 1 ≤ e') :
    (∀ earlier e later, checks = earlier ++ e :: later →
      ((sendMinutes (earlier ++ [e])).count .duration : ℤ) = ⌊e / 60⌋) ↔
    ∀ m : ℤ, 1 ≤ m → (∃ e ∈ checks, 60 * (m : ℚ) ≤ e) →
      ∃ e ∈ checks, 60 * (m : ℚ) ≤ e ∧ e < 60 * m + 1 := by
  have htrans : IsTrans ℚ fun e e' => e + 1 ≤ e' := ⟨fun _ _ _ h h' => by linarith⟩
  have hpairs := List.isChain_iff_pairwise.mp hgaps
  constructor
  · intro hall m hpos hreached
    obtain ⟨e, he, hle⟩ := hreached
    obtain ⟨earlier, later, hchecks⟩ := List.append_of_mem he
    exact (count_duration_iff hchecks hstart hpairs).mp (hall _ _ _ hchecks) m hpos hle
  · intro hall earlier e later hchecks
    rw [count_duration_iff hchecks hstart hpairs]
    intro m hpos hle
    exact hall m hpos ⟨e, by simp [hchecks], hle⟩

end Checks

/-! ## A check a second and a half later -/

/-- **A minute that is not counted**: the checks at 59.5 and 61 seconds. -/
theorem minute_skipped :
    ¬ ∀ checks : List ℚ, (∀ e ∈ checks, 0 ≤ e) → (checks.IsChain fun e e' => e + 1 ≤ e') →
      ∀ earlier e later, checks = earlier ++ e :: later →
        ((sendMinutes (earlier ++ [e])).count .duration : ℤ) = ⌊e / 60⌋ := by
  intro hall
  have hcount := hall [59.5, 61] (by decide +kernel) (by decide +kernel) [59.5] 61 [] rfl
  revert hcount
  decide +kernel

/-- A check at 60.5 seconds counts the first minute. -/
theorem minutes_counted_at_60 :
    ((sendMinutes ([59] ++ [60.5])).count .duration : ℤ) = ⌊(60.5 : ℚ) / 60⌋ := by
  have hiff := minutes_counted_iff (show ∀ e ∈ [59, 60.5], (0 : ℚ) ≤ e by decide +kernel)
    (show List.IsChain (fun e e' : ℚ => e + 1 ≤ e') [59, 60.5] by decide +kernel)
  refine hiff.mpr ?_ [59] 60.5 [] rfl
  rintro m hpos ⟨e, he, hle⟩
  have hlast : e ≤ 60.5 := by
    simp only [List.mem_cons, List.not_mem_nil, or_false] at he
    rcases he with rfl | rfl <;> norm_num
  have hm : m < 2 := by
    have hbound : (m : ℚ) < 2 := by linarith
    exact_mod_cast hbound
  obtain rfl : m = 1 := by omega
  exact ⟨60.5, by simp, by norm_num, by norm_num⟩

end TimeTracker.Cpp
