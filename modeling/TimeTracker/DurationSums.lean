import Mathlib.Algebra.Order.BigOperators.Group.List
import TimeTracker.MessageHandler

/-!
# The sums of the statistics

`calculate_duration_statistics` goes over the timeline entries once and adds each of them to five
sums. The additions are those of `i32` and wrap.

* **`foldl_asI32`**: wrapping after every addition is wrapping at the end.
* **`calculateDurationStatistics_eq`**: the five sums, each on its own (`durationSums`), wrapped.
* **`duration_sums`**: without overflow the sums are exact; they add up over a concatenation, do
  not depend on the order, and the windows are nested.
-/

namespace TimeTracker

/-! ## Wrapped sums -/

/-- A sum whose additions wrap is the sum, wrapped. -/
theorem foldl_asI32 {α β : Type} {f : β → α → β} (column : β → Int) (increment : α → Int)
    (hf : ∀ sums entry, column (f sums entry) = asI32 (column sums + increment entry))
    (entries : List α) {sums : β} {n : Int} (hn : column sums = asI32 n) :
    column (entries.foldl f sums) = asI32 (n + (entries.map increment).sum) := by
  induction entries generalizing sums n with
  | nil => rw [List.foldl_nil, List.map_nil, List.sum_nil, Int.add_zero, hn]
  | cons entry entries ih =>
    have hfirst : column (f sums entry) = asI32 (n + increment entry) := by
      rw [hf, hn]
      exact Int.bmod_add_bmod
    rw [List.foldl_cons, ih hfirst, List.map_cons, List.sum_cons, Int.add_assoc]

/-- A number that an `i32` can hold. -/
def IsI32 (i : Int) : Prop := -2147483648 ≤ i ∧ i ≤ 2147483647

instance (i : Int) : Decidable (IsI32 i) := inferInstanceAs (Decidable (_ ∧ _))

/-- An `i32` is not changed by wrapping. -/
theorem asI32_of_isI32 {i : Int} (h : IsI32 i) : asI32 i = i := by
  obtain ⟨hmin, hmax⟩ := h
  unfold asI32
  exact Int.bmod_eq_of_le (by omega) (by omega)

/-- In particular not a count that fits. -/
theorem asI32_of_le {i : Int} (h : 0 ≤ i) (h' : i ≤ 2147483647) : asI32 i = i :=
  asI32_of_isI32 ⟨by omega, h'⟩

/-! ## Sums over the entries of a window -/

/-- `entry.duration.unwrap_or(0)`. -/
def Timeline.seconds (entry : Timeline) : Int := entry.duration.getD 0

/-- The durations of the entries in a window, summed up. -/
def windowSum (p : Timeline → Bool) (entries : List Timeline) : Int :=
  ((entries.filter p).map Timeline.seconds).sum

section
variable {p q : Timeline → Bool} {entries entries' : List Timeline}

/-- An entry that is not in the window adds 0. -/
theorem windowSum_eq_sum_ite (p : Timeline → Bool) (entries : List Timeline) :
    windowSum p entries = (entries.map fun entry => if p entry then entry.seconds else 0).sum := by
  have hrest : ∀ l : List Timeline, (l.map fun _ => (0 : Int)).sum = 0 := fun l => by simp
  unfold windowSum
  rw [List.sum_map_ite, hrest, Int.add_zero]
  simp

/-- A sum over two lists is the sum of the sums, -/
theorem windowSum_append :
    windowSum p (entries ++ entries') = windowSum p entries + windowSum p entries' := by
  unfold windowSum
  rw [List.filter_append, List.map_append, List.sum_append]

/-- and does not depend on the order. -/
theorem windowSum_perm (h : entries.Perm entries') : windowSum p entries = windowSum p entries' :=
  ((h.filter p).map Timeline.seconds).sum_eq

/-- It is not negative if no duration is. -/
theorem windowSum_nonneg (hnonneg : ∀ entry ∈ entries, 0 ≤ entry.seconds) :
    0 ≤ windowSum p entries := by
  refine List.sum_nonneg fun d hd => ?_
  obtain ⟨entry, hentry, rfl⟩ := List.mem_map.mp hd
  exact hnonneg entry (List.mem_filter.mp hentry).1

/-- A larger window has a larger sum, if no duration is negative. -/
theorem windowSum_le (hnonneg : ∀ entry ∈ entries, 0 ≤ entry.seconds)
    (hpq : ∀ entry ∈ entries, p entry = true → q entry = true) :
    windowSum p entries ≤ windowSum q entries := by
  rw [windowSum_eq_sum_ite, windowSum_eq_sum_ite]
  refine List.sum_le_sum fun entry hentry => ?_
  cases hp : p entry with
  | true => rw [hpq entry hentry hp]
  | false =>
    rw [if_neg Bool.false_ne_true]
    split
    · exact hnonneg entry hentry
    · exact le_rfl

end

/-! ## The five sums -/

/-- The entries of a day. -/
def datedOn (day : NaiveDate) (entry : Timeline) : Bool := entry.date.any fun d => d = day

/-- The entries of a day and of the days after it. -/
def datedSince (day : NaiveDate) (entry : Timeline) : Bool := entry.date.any fun d => day ≤ d

/-- What `calculate_duration_statistics` is for: all entries, and those of three windows. -/
def durationSums (today : NaiveDate) (entries : List Timeline) : DurationStatistics where
  total := windowSum (fun _ => true) entries
  count := entries.length
  today := windowSum (datedOn today) entries
  week := windowSum (datedSince (today.subDays 7)) entries
  month := windowSum (datedSince (today.subDays 30)) entries

namespace DurationStatistics

/-- The sums of two lists of entries, added up. -/
def add (sums sums' : DurationStatistics) : DurationStatistics where
  total := sums.total + sums'.total
  count := sums.count + sums'.count
  today := sums.today + sums'.today
  week := sums.week + sums'.week
  month := sums.month + sums'.month

/-- The sums as `i32` additions leave them. -/
def wrap (sums : DurationStatistics) : DurationStatistics where
  total := asI32 sums.total
  count := asI32 sums.count
  today := asI32 sums.today
  week := asI32 sums.week
  month := asI32 sums.month

/-- No sum overflows. -/
structure InRange (sums : DurationStatistics) : Prop where
  total : IsI32 sums.total
  count : IsI32 sums.count
  today : IsI32 sums.today
  week : IsI32 sums.week
  month : IsI32 sums.month

instance (sums : DurationStatistics) : Decidable sums.InRange :=
  decidable_of_iff (IsI32 sums.total ∧ IsI32 sums.count ∧ IsI32 sums.today ∧ IsI32 sums.week ∧
      IsI32 sums.month)
    ⟨fun h => ⟨h.1, h.2.1, h.2.2.1, h.2.2.2.1, h.2.2.2.2⟩,
      fun h => ⟨h.total, h.count, h.today, h.week, h.month⟩⟩

/-- Sums without overflow are not changed by wrapping. -/
theorem wrap_of_inRange {sums : DurationStatistics} (h : sums.InRange) : sums.wrap = sums := by
  unfold wrap
  rw [asI32_of_isI32 h.total, asI32_of_isI32 h.count, asI32_of_isI32 h.today,
    asI32_of_isI32 h.week, asI32_of_isI32 h.month]

end DurationStatistics

section
variable {today : NaiveDate} {entries entries' : List Timeline}

/-- The total is the sum of all durations, wrapped; a missing duration counts as zero. -/
theorem calculateDurationStatistics_total (today : NaiveDate) (entries : List Timeline) :
    (calculateDurationStatistics today entries).total =
      asI32 (entries.map fun entry => entry.duration.getD 0).sum := by
  have hzero : DurationStatistics.total ⟨0, 0, 0, 0, 0⟩ = asI32 0 := rfl
  rw [← Int.zero_add (entries.map _).sum]
  exact foldl_asI32 DurationStatistics.total (fun entry : Timeline => entry.duration.getD 0)
    (fun _ _ => rfl) entries hzero

/-- The count is the number of all entries, wrapped. -/
theorem calculateDurationStatistics_count (today : NaiveDate) (entries : List Timeline) :
    (calculateDurationStatistics today entries).count = asI32 entries.length := by
  have hzero : DurationStatistics.count ⟨0, 0, 0, 0, 0⟩ = asI32 0 := rfl
  have hones : (0 : Int) + (entries.map fun _ => 1).sum = entries.length := by simp
  rw [← hones]
  exact foldl_asI32 DurationStatistics.count (fun _ : Timeline => 1) (fun _ _ => rfl) entries hzero

/-- **The five sums**, each on its own: the fold adds an entry to a sum if it is in its window. -/
theorem calculateDurationStatistics_eq (today : NaiveDate) (entries : List Timeline) :
    calculateDurationStatistics today entries = (durationSums today entries).wrap := by
  have htotal : (calculateDurationStatistics today entries).total =
      asI32 (windowSum (fun _ => true) entries) := by
    rw [calculateDurationStatistics_total, windowSum_eq_sum_ite]
    rfl
  have htoday : (calculateDurationStatistics today entries).today =
      asI32 (windowSum (datedOn today) entries) := by
    rw [windowSum_eq_sum_ite, ← Int.zero_add (List.sum _)]
    exact foldl_asI32 DurationStatistics.today _ (fun _ _ => rfl) entries rfl
  have hweek : (calculateDurationStatistics today entries).week =
      asI32 (windowSum (datedSince (today.subDays 7)) entries) := by
    rw [windowSum_eq_sum_ite, ← Int.zero_add (List.sum _)]
    exact foldl_asI32 DurationStatistics.week _ (fun _ _ => rfl) entries rfl
  have hmonth : (calculateDurationStatistics today entries).month =
      asI32 (windowSum (datedSince (today.subDays 30)) entries) := by
    rw [windowSum_eq_sum_ite, ← Int.zero_add (List.sum _)]
    exact foldl_asI32 DurationStatistics.month _ (fun _ _ => rfl) entries rfl
  have heta : ∀ sums : DurationStatistics,
      sums = ⟨sums.total, sums.count, sums.today, sums.week, sums.month⟩ := fun _ => rfl
  rw [heta (calculateDurationStatistics today entries), htotal,
    calculateDurationStatistics_count, htoday, hweek, hmonth]
  rfl

/-- Without overflow the sums are the true ones. -/
theorem calculateDurationStatistics_of_inRange (h : (durationSums today entries).InRange) :
    calculateDurationStatistics today entries = durationSums today entries := by
  rw [calculateDurationStatistics_eq, DurationStatistics.wrap_of_inRange h]

/-- The five sums of two lists are added up one by one, -/
theorem durationSums_append (today : NaiveDate) (entries entries' : List Timeline) :
    durationSums today (entries ++ entries') =
      (durationSums today entries).add (durationSums today entries') := by
  unfold durationSums DurationStatistics.add
  simp only [windowSum_append, List.length_append, Int.natCast_add]

/-- and none depends on the order of the entries. -/
theorem durationSums_perm (h : entries.Perm entries') :
    durationSums today entries = durationSums today entries' := by
  unfold durationSums
  rw [windowSum_perm h, windowSum_perm h, windowSum_perm h, windowSum_perm h, h.length_eq]

end

/-! ## Nested windows

Today is in the last seven days and these in the last thirty, so without negative durations the
sums come in that order. -/

/-- An entry without a date is in no window that begins with a day, -/
theorem datedSince_iff {day : NaiveDate} {entry : Timeline} :
    datedSince day entry = true ↔ ∃ d, entry.date = some d ∧ day ≤ d := by
  unfold datedSince
  simp [Option.any_eq_true]

/-- nor in that of today. -/
theorem datedOn_iff {day : NaiveDate} {entry : Timeline} :
    datedOn day entry = true ↔ entry.date = some day := by
  unfold datedOn
  simp [Option.any_eq_true]

/-- The entries of a shorter window are in a longer one. -/
theorem datedSince_subDays {day : NaiveDate} (n : Nat) {entry : Timeline}
    (h : datedSince day entry = true) : datedSince (day.subDays n) entry = true := by
  obtain ⟨d, hd, hle⟩ := datedSince_iff.mp h
  exact datedSince_iff.mpr ⟨d, hd, NaiveDate.le_trans (NaiveDate.subDays_le day n) hle⟩

/-- Thirty days ago is 23 days before seven days ago. -/
theorem subDays_thirty (day : NaiveDate) : day.subDays 30 = (day.subDays 7).subDays 23 := by
  unfold NaiveDate.subDays
  rw [← Function.iterate_add_apply]

/-- The sums of the windows, in the order of their lengths. -/
structure NestedWindows (sums : DurationStatistics) : Prop where
  today : sums.today ≤ sums.week
  week : sums.week ≤ sums.month
  month : sums.month ≤ sums.total

/-- **The windows are nested**, whatever is dated after today. -/
theorem nested_durationSums (today : NaiveDate) {entries : List Timeline}
    (hnonneg : ∀ entry ∈ entries, 0 ≤ entry.seconds) :
    NestedWindows (durationSums today entries) where
  today := by
    refine windowSum_le hnonneg fun entry _ hon => ?_
    have htoday : entry.date = some today := datedOn_iff.mp hon
    exact datedSince_subDays 7 (datedSince_iff.mpr ⟨today, htoday, NaiveDate.le_refl today⟩)
  week := by
    refine windowSum_le hnonneg fun entry _ hsince => ?_
    rw [subDays_thirty]
    exact datedSince_subDays 23 hsince
  month := windowSum_le hnonneg fun _ _ _ => rfl

/-- The windows that are returned, for entries whose durations are none of them negative and sum up
to no more than an `i32` can hold: the count may overflow, the windows do not. -/
theorem windows_le (today : NaiveDate) {entries : List Timeline} {limit : Int}
    (hnonneg : ∀ entry ∈ entries, 0 ≤ entry.seconds)
    (hle : windowSum (fun _ => true) entries ≤ limit) (hmax : limit ≤ 2147483647) :
    (calculateDurationStatistics today entries).today ≤
        (calculateDurationStatistics today entries).week ∧
      (calculateDurationStatistics today entries).week ≤
        (calculateDurationStatistics today entries).month ∧
      (calculateDurationStatistics today entries).month ≤ limit := by
  have hnested := nested_durationSums today hnonneg
  have htoday : 0 ≤ (durationSums today entries).today := windowSum_nonneg hnonneg
  have hweek : 0 ≤ (durationSums today entries).week := windowSum_nonneg hnonneg
  have hmonth : 0 ≤ (durationSums today entries).month := windowSum_nonneg hnonneg
  have htotal : (durationSums today entries).month ≤ limit := hnested.month.trans hle
  have hweekLe := hnested.week.trans htotal
  have htodayLe := hnested.today.trans hweekLe
  rw [calculateDurationStatistics_eq]
  show asI32 _ ≤ asI32 _ ∧ asI32 _ ≤ asI32 _ ∧ asI32 _ ≤ limit
  rw [asI32_of_le htoday (htodayLe.trans hmax), asI32_of_le hweek (hweekLe.trans hmax),
    asI32_of_le hmonth (htotal.trans hmax)]
  exact ⟨hnested.today, hnested.week, htotal⟩

/-! ## The statistics of the program -/

/-- **What `calculate_duration_statistics` returns**: without overflow the exact sums, of which
those of the windows are nested if no duration is negative; added up over a concatenation; and the
same in any order. -/
theorem duration_sums (today : NaiveDate) :
    (∀ entries : List Timeline, (durationSums today entries).InRange →
      calculateDurationStatistics today entries = durationSums today entries ∧
      ((∀ entry ∈ entries, 0 ≤ entry.seconds) →
        NestedWindows (calculateDurationStatistics today entries))) ∧
    (∀ entries entries' : List Timeline, (durationSums today entries).InRange →
      (durationSums today entries').InRange → (durationSums today (entries ++ entries')).InRange →
      calculateDurationStatistics today (entries ++ entries') =
        (calculateDurationStatistics today entries).add
          (calculateDurationStatistics today entries')) ∧
    (∀ entries entries' : List Timeline, entries.Perm entries' →
      calculateDurationStatistics today entries = calculateDurationStatistics today entries') := by
  refine ⟨fun entries hrange => ?_, fun entries entries' hrange hrange' hboth => ?_,
    fun entries entries' hperm => ?_⟩
  · have hsums := calculateDurationStatistics_of_inRange hrange
    refine ⟨hsums, fun hnonneg => ?_⟩
    rw [hsums]
    exact nested_durationSums today hnonneg
  · rw [calculateDurationStatistics_of_inRange hrange,
      calculateDurationStatistics_of_inRange hrange',
      calculateDurationStatistics_of_inRange hboth, durationSums_append]
  · rw [calculateDurationStatistics_eq, calculateDurationStatistics_eq, durationSums_perm hperm]

/-- Entries of today, of a week ago, of no day and without a duration. -/
def fourEntries : List Timeline :=
  [⟨1, some NaiveDateTime.unixEpoch.date, some 5, some 1⟩,
    ⟨2, some (NaiveDateTime.unixEpoch.date.subDays 7), some 7, some 1⟩,
    ⟨3, none, some 11, some 1⟩, ⟨4, some NaiveDateTime.unixEpoch.date, none, some 1⟩]

/-- The sums of the four entries. -/
theorem duration_sums_fourEntries :
    calculateDurationStatistics NaiveDateTime.unixEpoch.date fourEntries = ⟨23, 4, 5, 12, 12⟩ ∧
      NestedWindows (calculateDurationStatistics NaiveDateTime.unixEpoch.date fourEntries) := by
  obtain ⟨hsums, hnested⟩ := (duration_sums NaiveDateTime.unixEpoch.date).1 fourEntries (by decide)
  refine ⟨?_, hnested (by decide)⟩
  rw [hsums]
  decide

end TimeTracker
