import TimeTracker.LongestSession
import TimeTracker.Service

/-!
# Counts that fit

The counts in the tables are `i32`, and so are the ids. Where the code adds one to the largest
`i32`, a debug build panics, and its thread is gone, and a release build goes on with the smallest.
The counts of the model know no largest one: what is said of them is true of the code as long as
every sum fits.

* `Action.sum`: the sum a step of the program computes, and `fits`: it is an `i32`.
* `Handler.mayRaise`: the counts a handler may still add one to. **`mayRaise_step`**: it takes up no
  new ones, so an event adds one to a count and not more.
* `Handling.Room n`: no count is too large for the events that wait and `n` more.
* **`room_step`**: a step of the event loop leaves the room as it is, and its sum fits.
-/

namespace TimeTracker

open Transition

/-! ## The counts -/

/-- `i32::MAX`. -/
def i32Max : Int := 2147483647

def Apps.Model.counts (a : Apps.Model) : List Int := [a.duration.getD 0, a.launches.getD 0]

def Checkpoints.Model.counts (c : Checkpoints.Model) : List Int :=
  [c.duration.getD 0, c.sessionsCount.getD 0]

/-- The id counts as well: the next row gets the id after the largest. -/
def Timeline.Model.counts (t : Timeline.Model) : List Int := [t.id, t.duration.getD 0]

namespace Store

def appCounts (db : Store) : List Int := db.apps.rows.flatMap Apps.Model.counts

def checkpointCounts (db : Store) : List Int := db.checkpoints.rows.flatMap Checkpoints.Model.counts

def timelineCounts (db : Store) : List Int := db.timeline.rows.flatMap Timeline.Model.counts

/-- What the event loop adds one to. -/
def counts (db : Store) : List Int := db.appCounts ++ (db.checkpointCounts ++ db.timelineCounts)

end Store

/-- The sum a handler computes with its next statement. -/
def Handler.sum (db : Store) : Handler → Option Int
  | .countUpdateApp counter appModel => some ((counter.ofApp appModel).getD 0 + 1)
  | .countUpdateCheckpoint counter _ checkpoint _ _ =>
    some ((counter.ofCheckpoint checkpoint).getD 0 + 1)
  | .timelineUpdate timelineModel => some (timelineModel.duration.getD 0 + 1)
  | .timelineMaxId _ _ => some (Store.nextId db.timeline.maxKey)
  | _ => none

/-- The counts a handler may still add one to. -/
def Handler.mayRaise (db : Store) : Handler → List Int
  | .countFindApp _ _ => db.appCounts ++ db.checkpointCounts
  | .countUpdateApp counter appModel => (counter.ofApp appModel).getD 0 :: db.checkpointCounts
  | .countFindActive _ _ => db.checkpointCounts
  | .countFindCheckpoint counter _ checkpoint rest
  | .countUpdateCheckpoint counter _ checkpoint _ rest =>
    (checkpoint :: rest).map fun c => (counter.ofCheckpoint c).getD 0
  | .timelineFindApp _ | .timelineFindEntry _ _ | .timelineMaxId _ _ => db.timelineCounts
  | .timelineUpdate timelineModel => [timelineModel.duration.getD 0]
  | _ => []

/-- The counts of the row a handler is going to insert. -/
def Handler.holds : Handler → List Int
  | .timelineFirstCheckpoint _ _ nextId => [nextId]
  | .timelineInsert newTimeline => newTimeline.counts
  | _ => []

/-! ## One statement

A handler adds one to what it has read when it began, and does so once: what it writes it does not
read again. -/

section
variable {db db' : Store} {inp : Input} {hd hd' : Handler} {next : Option Handler} {n m : Int}

/-- Either counter of an app is one of its counts, -/
theorem Counter.mem_counts_app (counter : Counter) (a : Apps.Model) :
    (counter.ofApp a).getD 0 ∈ a.counts := by
  cases counter with
  | duration => exact List.mem_cons_self
  | launches => exact List.mem_cons_of_mem _ List.mem_cons_self

/-- and either counter of a checkpoint one of its. -/
theorem Counter.mem_counts_checkpoint (counter : Counter) (c : Checkpoints.Model) :
    (counter.ofCheckpoint c).getD 0 ∈ c.counts := by
  cases counter with
  | duration => exact List.mem_cons_self
  | launches => exact List.mem_cons_of_mem _ List.mem_cons_self

/-- So it is among the counts of the table. -/
theorem Store.mem_checkpointCounts (counter : Counter) {c : Checkpoints.Model}
    (hc : c ∈ db.checkpoints.rows) : (counter.ofCheckpoint c).getD 0 ∈ db.checkpointCounts :=
  List.mem_flatMap.mpr ⟨c, hc, counter.mem_counts_checkpoint c⟩

/-- The counts the loop over the checkpoints may still add one to. -/
theorem mayRaise_forCheckpoints {counter : Counter} {now : NaiveDateTime}
    {checkpoints : List Checkpoints.Model} (h : some hd = forCheckpoints counter now checkpoints) :
    hd.mayRaise db = checkpoints.map fun c => (counter.ofCheckpoint c).getD 0 := by
  obtain ⟨checkpoint, rest, rfl, rfl⟩ := forCheckpoints_eq_some h
  rfl

/-- **A handler takes up no count** that it has not begun with. -/
theorem mayRaise_step (h : hd.step inp db = (next, db')) (hnext : next = some hd') :
    hd'.mayRaise db' ⊆ hd.mayRaise db := by
  cases Handler.statement_of_step h with
  | dropped | longestWritten | entryWritten | entryInserted => cases hnext
  | longestFound | idFound | checkpointChosen =>
    cases hnext
    exact List.nil_subset _
  | @countFound counter _ app hfind =>
    cases hnext
    have hrow : app ∈ db.apps.rows := (Store.findApp_eq_some hfind).1
    intro n hn
    rcases List.mem_cons.mp hn with rfl | hn
    · exact List.mem_append_left _ (List.mem_flatMap.mpr ⟨app, hrow, counter.mem_counts_app app⟩)
    · exact List.mem_append_right _ hn
  | @countWritten counter app _ hupd =>
    cases hnext
    obtain ⟨_, -, rfl⟩ := Store.updateApp_eq_ok.mp hupd
    cases counter with
    | duration => exact List.subset_cons_self _ _
    | launches => exact List.subset_cons_self _ _
  | @activeFound counter appId _ hfor =>
    rw [mayRaise_forCheckpoints (hnext.symm.trans hfor)]
    intro n hn
    obtain ⟨c, hc, rfl⟩ := List.mem_map.mp hn
    exact Store.mem_checkpointCounts counter (Store.mem_getActiveCheckpointsForApp.mp hc).1
  | checkpointFound =>
    cases hnext
    exact List.Subset.refl _
  | checkpointSkipped hfor | checkpointWritten hfor | checkpointRefused hfor =>
    rw [mayRaise_forCheckpoints (hnext.symm.trans hfor)]
    exact List.subset_cons_self _ _
  | timelineFound | entryMissing =>
    cases hnext
    exact List.Subset.refl _
  | @entryFound _ _ entry hfind =>
    cases hnext
    have hrow := (Table.mem_of_one hfind).1
    intro n hn
    rw [List.mem_singleton.mp hn]
    exact List.mem_flatMap.mpr ⟨entry, hrow, List.mem_cons_of_mem _ List.mem_cons_self⟩

/-- A count after an update of one row is a count of before, or it has been written. -/
theorem mem_flatMap_update {ρ κ : Type} [DecidableEq κ] [Keyed ρ κ] {t t' : Table ρ} {k : κ}
    {f : ρ → ρ} {hf : ∀ r, Keyed.key (f r) = Keyed.key r} (g : ρ → List Int)
    {written : Int → Prop} (h : t.update k f hf = some t')
    (hwrites : ∀ r, ∀ n ∈ g (f r), n ∈ g r ∨ written n) (hn : n ∈ t'.rows.flatMap g) :
    n ∈ t.rows.flatMap g ∨ written n := by
  obtain ⟨r', hr', hn⟩ := List.mem_flatMap.mp hn
  obtain ⟨r, hr, rfl⟩ := (Table.mem_update h).mp hr'
  have hrow : ∀ m ∈ g r, m ∈ t.rows.flatMap g := fun m hm => List.mem_flatMap.mpr ⟨r, hr, hm⟩
  by_cases hk : Keyed.key r = k
  · rw [if_pos hk] at hn
    exact (hwrites r n hn).imp_left (hrow n)
  · rw [if_neg hk] at hn
    exact .inl (hrow n hn)

/-- An update that counts writes one count of the app and keeps the other. -/
theorem mem_counts_setApp {counter : Counter} {v : Int} {a : Apps.Model}
    (hn : n ∈ (counter.setApp v a).counts) : n ∈ a.counts ∨ n = v := by
  cases counter <;> simp only [Counter.setApp, Apps.Model.counts, List.mem_cons, Option.getD_some,
    List.not_mem_nil] at hn ⊢ <;> tauto

/-- The same for a checkpoint, -/
theorem mem_counts_setCheckpoint {counter : Counter} {v : Int} {now : NaiveDateTime}
    {c : Checkpoints.Model} (hn : n ∈ (counter.setCheckpoint v now c).counts) :
    n ∈ c.counts ∨ n = v := by
  cases counter <;> simp only [Counter.setCheckpoint, Checkpoints.Model.counts, List.mem_cons,
    Option.getD_some, List.not_mem_nil] at hn ⊢ <;> tauto

/-- and for a row of the timeline, which keeps its id. -/
theorem mem_counts_setTimelineDuration {v : Int} {t : Timeline.Model}
    (hn : n ∈ (setTimelineDuration v t).counts) : n ∈ t.counts ∨ n = v := by
  simp only [setTimelineDuration, Timeline.Model.counts, List.mem_cons, Option.getD_some,
    List.not_mem_nil] at hn ⊢
  tauto

/-- A count is one of an app, of a checkpoint or of the timeline. -/
theorem Store.mem_counts :
    n ∈ db.counts ↔ n ∈ db.appCounts ∨ n ∈ db.checkpointCounts ∨ n ∈ db.timelineCounts := by
  rw [counts, List.mem_append, List.mem_append]

/-- **A count after a statement** is a count of before, or the handler has held it, or it is the sum
that has been computed. -/
theorem mem_counts_step (h : hd.step inp db = (next, db')) (hn : n ∈ db'.counts) :
    n ∈ db.counts ∨ n ∈ hd.holds ∨ hd.sum db = some n := by
  rcases Handler.step_db h with rfl | ⟨_, session, date, -, hupd⟩ | ⟨counter, a, rfl, hupd⟩ |
    ⟨counter, now, c, model, rest, rfl, hupd⟩ | ⟨t, rfl, hupd⟩ | ⟨t, rfl, hins⟩
  · exact .inl hn
  · obtain ⟨_, htable, rfl⟩ := Store.updateApp_eq_ok.mp hupd
    rcases Store.mem_counts.mp hn with hn | hn
    · have hkeeps : ∀ a, ∀ k ∈ Apps.Model.counts (setLongestSession session date a),
          k ∈ a.counts ∨ False := fun _ _ hk => .inl hk
      have hold := (mem_flatMap_update _ htable hkeeps hn).resolve_right id
      exact .inl (Store.mem_counts.mpr (.inl hold))
    · exact .inl (Store.mem_counts.mpr (.inr hn))
  · obtain ⟨_, htable, rfl⟩ := Store.updateApp_eq_ok.mp hupd
    rcases Store.mem_counts.mp hn with hn | hn
    · rcases mem_flatMap_update _ htable (fun _ _ => mem_counts_setApp) hn with hn | rfl
      · exact .inl (Store.mem_counts.mpr (.inl hn))
      · exact .inr (.inr rfl)
    · exact .inl (Store.mem_counts.mpr (.inr hn))
  · obtain ⟨_, htable, rfl⟩ := Store.updateCheckpoint_eq_ok.mp hupd
    rcases Store.mem_counts.mp hn with hn | hn | hn
    · exact .inl (Store.mem_counts.mpr (.inl hn))
    · rcases mem_flatMap_update _ htable (fun _ _ => mem_counts_setCheckpoint) hn with hn | rfl
      · exact .inl (Store.mem_counts.mpr (.inr (.inl hn)))
      · exact .inr (.inr rfl)
    · exact .inl (Store.mem_counts.mpr (.inr (.inr hn)))
  · obtain ⟨_, htable, rfl⟩ := Store.updateTimeline_eq_ok.mp hupd
    rcases Store.mem_counts.mp hn with hn | hn | hn
    · exact .inl (Store.mem_counts.mpr (.inl hn))
    · exact .inl (Store.mem_counts.mpr (.inr (.inl hn)))
    · rcases mem_flatMap_update _ htable (fun _ _ => mem_counts_setTimelineDuration) hn with
        hn | rfl
      · exact .inl (Store.mem_counts.mpr (.inr (.inr hn)))
      · exact .inr (.inr rfl)
  · obtain ⟨-, _, htable, rfl⟩ := Store.insertTimeline_eq_ok hins
    rcases Store.mem_counts.mp hn with hn | hn | hn
    · exact .inl (Store.mem_counts.mpr (.inl hn))
    · exact .inl (Store.mem_counts.mpr (.inr (.inl hn)))
    · obtain ⟨t', ht', hn⟩ := List.mem_flatMap.mp hn
      rcases (Table.mem_insert htable).mp ht' with ht' | rfl
      · exact .inl (Store.mem_counts.mpr (.inr (.inr (List.mem_flatMap.mpr ⟨t', ht', hn⟩))))
      · exact .inr (.inl hn)

/-- The row that is inserted has its id from the largest, and counts one minute. -/
theorem mem_holds_step (h : hd.step inp db = (next, db')) (hnext : next = some hd')
    (hn : n ∈ hd'.holds) : n ∈ hd.holds ∨ hd.sum db = some n ∨ n = 1 := by
  cases Handler.statement_of_step h with
  | idFound =>
    cases hnext
    exact .inr (.inl (congrArg some (List.mem_singleton.mp hn).symm))
  | checkpointChosen =>
    cases hnext
    rcases List.mem_cons.mp hn with rfl | hn
    · exact .inl List.mem_cons_self
    · exact .inr (.inr (List.mem_singleton.mp hn))
  | activeFound hfor | checkpointSkipped hfor | checkpointWritten hfor | checkpointRefused hfor =>
    obtain ⟨_, _, -, rfl⟩ := forCheckpoints_eq_some (hnext.symm.trans hfor)
    cases hn
  | @countWritten counter _ _ _ =>
    cases hnext
    cases counter <;> cases hn
  | dropped | longestWritten | entryWritten | entryInserted => cases hnext
  | _ =>
    cases hnext
    cases hn

/-- The sum is one more than a count the handler raises, or there was nothing to count. -/
theorem Handler.sum_le (hsum : hd.sum db = some n) (hraises : ∀ k ∈ hd.mayRaise db, k ≤ m)
    (hm : 0 ≤ m) : n ≤ m + 1 := by
  cases hd with
  | countUpdateApp counter a =>
    cases hsum
    have hcount := hraises _ List.mem_cons_self
    omega
  | countUpdateCheckpoint counter now c model rest =>
    cases hsum
    have hcount : (counter.ofCheckpoint c).getD 0 ≤ m := hraises _ List.mem_cons_self
    omega
  | timelineUpdate t =>
    cases hsum
    have hcount := hraises _ List.mem_cons_self
    omega
  | timelineMaxId appId today =>
    cases hsum
    cases hmax : db.timeline.maxKey with
    | none =>
      show 1 ≤ m + 1
      omega
    | some id =>
      obtain ⟨t, ht, rfl⟩ := Table.mem_keys.mp (Table.mem_of_maxKey hmax)
      have hcount : t.id ≤ m := hraises _ (List.mem_flatMap.mpr ⟨t, ht, List.mem_cons_self⟩)
      show t.id + 1 ≤ m + 1
      omega
  | _ => cases hsum

end

/-! ## The event loop

An event adds one to a count at most, so a count has room as long as it stays below the largest
`i32` by the number of the events that wait. A count that the event at hand may still raise needs
room for one more. -/

/-- The sum of the statement that comes next. -/
def EventLoop.sum (db : Store) : EventLoop → Option Int
  | .idle => none
  | .handling _ hd => hd.sum db

def EventLoop.mayRaise (db : Store) : EventLoop → List Int
  | .idle => []
  | .handling _ hd => hd.mayRaise db

def EventLoop.holds : EventLoop → List Int
  | .idle => []
  | .handling _ hd => hd.holds

/-- Every count has room for the events that wait, and for `n` more. The event that is being handled
has added one already to the counts that it does not raise any more. -/
structure Handling.Room (n : Nat) (s : Handling) : Prop where
  counts : ∀ c ∈ s.db.counts, c + s.events.length + n ≤ i32Max
  holds : ∀ c ∈ s.loop.holds, c + s.events.length + n ≤ i32Max
  raises : ∀ c ∈ s.loop.mayRaise s.db, c + 1 + s.events.length + n ≤ i32Max
  one : 1 + (s.events.length : Int) + n ≤ i32Max

instance (n : Nat) (s : Handling) : Decidable (s.Room n) :=
  decidable_of_iff
    ((∀ c ∈ s.db.counts, c + s.events.length + n ≤ i32Max) ∧
      (∀ c ∈ s.loop.holds, c + s.events.length + n ≤ i32Max) ∧
      (∀ c ∈ s.loop.mayRaise s.db, c + 1 + s.events.length + n ≤ i32Max) ∧
      1 + (s.events.length : Int) + n ≤ i32Max)
    ⟨fun h => ⟨h.1, h.2.1, h.2.2.1, h.2.2.2⟩, fun h => ⟨h.counts, h.holds, h.raises, h.one⟩⟩

section
variable {s s' : Handling} {inp : Input} {m n : Nat}

/-- Room for more events is room for fewer. -/
theorem Handling.Room.mono (h : s.Room n) (hle : m ≤ n) : s.Room m := by
  refine ⟨fun c hc => ?_, fun c hc => ?_, fun c hc => ?_, ?_⟩
  · have hcount := h.counts c hc
    omega
  · have hcount := h.holds c hc
    omega
  · have hcount := h.raises c hc
    omega
  · have hone := h.one
    omega

/-- What the event loop may add one to, its handler may. -/
theorem mayRaise_resume {event : Event} {next : Option Handler} {db : Store} {c : Int}
    (hc : c ∈ (EventLoop.resume event next).mayRaise db) :
    ∃ hd, next = some hd ∧ c ∈ hd.mayRaise db := by
  cases next with
  | none => cases hc
  | some hd => exact ⟨hd, rfl, hc⟩

/-- What it is going to insert, its handler is. -/
theorem holds_resume {event : Event} {next : Option Handler} {c : Int}
    (hc : c ∈ (EventLoop.resume event next).holds) : ∃ hd, next = some hd ∧ c ∈ hd.holds := by
  cases next with
  | none => cases hc
  | some hd => exact ⟨hd, rfl, hc⟩

/-- A handler begins with nothing to insert, and raises counts of the tables. -/
theorem counts_handle {event : Event} {hd : Handler} (h : handle event = some hd) (db : Store) :
    hd.holds = [] ∧ hd.mayRaise db ⊆ db.counts := by
  obtain ⟨item, kind⟩ := event
  cases kind with
  | longestSession =>
    simp only [handle, handleLongestSession] at h
    split at h <;> cases h
    exact ⟨rfl, List.nil_subset _⟩
  | timeline =>
    cases h
    exact ⟨rfl, fun c hc => Store.mem_counts.mpr (.inr (.inr hc))⟩
  | _ =>
    cases h
    refine ⟨rfl, fun c hc => ?_⟩
    rcases List.mem_append.mp hc with hc | hc
    · exact Store.mem_counts.mpr (.inl hc)
    · exact Store.mem_counts.mpr (.inr (.inl hc))

/-- The sum of the next statement fits. -/
theorem Handling.Room.sum_le (h : s.Room n) {c : Int} (hc : s.loop.sum s.db = some c) :
    c + s.events.length + n ≤ i32Max := by
  obtain ⟨loop, events, db⟩ := s
  cases loop with
  | idle => cases hc
  | handling event hd =>
    have hraises : ∀ k ∈ hd.mayRaise db, k ≤ i32Max - events.length - n - 1 := by
      intro k hk
      have hroom : k + 1 + events.length + n ≤ i32Max := h.raises k hk
      omega
    have hone : 1 + (events.length : Int) + n ≤ i32Max := h.one
    have hle := Handler.sum_le hc hraises (by omega)
    show c + events.length + n ≤ i32Max
    omega

/-- **A step of the event loop** leaves the room as it is: an event that is taken needs the room
that was kept for it. -/
theorem room_step (hroom : s.Room n) (h : eventLoop.step s inp = some s') : s'.Room n := by
  rcases eventLoop_step h with ⟨event, hidle, hevents, hdb, hloop⟩ |
    ⟨event, hd, next, hbusy, hevents, hstep, hloop⟩
  · have hlength : (s.events.length : Int) = s'.events.length + 1 := by
      rw [hevents, List.length_cons]
      rfl
    have hone := hroom.one
    refine ⟨fun c hc => ?_, fun c hc => ?_, fun c hc => ?_, by omega⟩
    · rw [hdb] at hc
      have hcount := hroom.counts c hc
      omega
    · rw [hloop] at hc
      obtain ⟨hd, hhandle, hc⟩ := holds_resume hc
      rw [(counts_handle hhandle s.db).1] at hc
      cases hc
    · rw [hloop, hdb] at hc
      obtain ⟨hd, hhandle, hc⟩ := mayRaise_resume hc
      have hcount := hroom.counts c ((counts_handle hhandle s.db).2 hc)
      omega
  · have hsum : ∀ c, hd.sum s.db = some c → c + s.events.length + n ≤ i32Max := by
      intro c hc
      apply hroom.sum_le
      rw [hbusy]
      exact hc
    have hraises := hroom.raises
    have hholds := hroom.holds
    rw [hbusy] at hraises hholds
    refine ⟨fun c hc => ?_, fun c hc => ?_, fun c hc => ?_, ?_⟩
    · rw [hevents]
      rcases mem_counts_step hstep hc with hc | hc | hc
      · exact hroom.counts c hc
      · exact hholds c hc
      · exact hsum c hc
    · rw [hloop] at hc
      rw [hevents]
      obtain ⟨hd', hnext, hc⟩ := holds_resume hc
      rcases mem_holds_step hstep hnext hc with hc | hc | rfl
      · exact hholds c hc
      · exact hsum c hc
      · exact hroom.one
    · rw [hloop] at hc
      rw [hevents]
      obtain ⟨hd', hnext, hc⟩ := mayRaise_resume hc
      exact hraises c (mayRaise_step hstep hnext hc)
    · rw [hevents]
      exact hroom.one

/-- An event that is sent takes up room for one. -/
theorem Handling.Room.send (h : s.Room (n + 1)) (event : Event) :
    Handling.Room n { s with events := s.events ++ [event] } := by
  have hlength : ((s.events ++ [event]).length : Int) + n = s.events.length + (n + 1 : Nat) := by
    rw [List.length_append, List.length_singleton]
    push_cast
    omega
  refine ⟨fun c hc => ?_, fun c hc => ?_, fun c hc => ?_, ?_⟩
  · have hcount := h.counts c hc
    show c + ((s.events ++ [event]).length : Int) + n ≤ i32Max
    omega
  · have hcount := h.holds c hc
    show c + ((s.events ++ [event]).length : Int) + n ≤ i32Max
    omega
  · have hcount := h.raises c hc
    show c + 1 + ((s.events ++ [event]).length : Int) + n ≤ i32Max
    omega
  · have hone := h.one
    show 1 + ((s.events ++ [event]).length : Int) + n ≤ i32Max
    omega

end

/-! ## The program

Three threads compute sums: the event loop, the session workers with their minutes, and whoever adds
an app. -/

/-- The sum a worker computes with its next step. -/
def Worker.sum (w : Worker) : Option Int :=
  match w.point with
  | .sendTimeline => some (w.counter + 1)
  | _ => none

/-- The id an add computes, if it gets as far as that. -/
def addSum (w : World) (name : String) : Option Int :=
  if name ∉ w.db.appNames ∧ w.serves 2 then some (Store.nextId w.db.apps.maxKey) else none

/-- The sum that comes with an action: a count of the event loop, the length of a session, or the id
of a new app. -/
def Action.sum (env : Environment World) (p : Program) : Action → Option Int
  | .thread (.handle _) => p.threads.loop.sum p.db
  | .thread (.work k _) => p.threads.workers[k]?.bind Worker.sum
  | .request r now errs =>
    match r.asks env with
    | some (.add name) => addSum (p.world now errs) name
    | _ => none
  | .commandLine processName _ now errs => addSum (p.world now errs) processName
  | _ => none

/-- The sum is an `i32`. -/
def fits (env : Environment World) (p : Program) (a : Action) : Prop :=
  ∀ n ∈ a.sum env p, n ≤ i32Max

instance (env : Environment World) (p : Program) (a : Action) : Decidable (fits env p a) := by
  unfold fits
  infer_instance

end TimeTracker
