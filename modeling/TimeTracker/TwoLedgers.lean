import TimeTracker.Ledgers
import TimeTracker.ProcessNames

/-!
# The two time ledgers agree

A session worker sends a `Duration` and a `Timeline` event for each tick, and at its end a
`LongestSession` event with the number of its ticks. The event loop takes the events from one
FIFO channel and writes the two ledgers at different times. What is in the ledgers and what is
still on its way add up, for any number of sessions and whatever their interleaving:

* `two_ledgers_agree`: the duration of an app and the `Duration` events still to be written are
  its timeline and the `Timeline` events still to be written, up to the workers between their
  two sends; and the longest session is no longer than the duration. The durations of the store
  the program starts with must not be negative.
* `longest_exceeds_negative_duration`: with a negative duration an empty session is longer.
-/

namespace TimeTracker

/-! ## Workers -/

/-- A worker whose thread has ended. -/
def Worker.over (w : Worker) : Bool := w.point = .finished || w.point = .panicked

/-- A worker between the two sends of a tick. -/
def Worker.betweenSends (w : Worker) : Bool := w.point = .sendTimeline

/-- The `Duration` events a worker has sent. The counter is incremented after the second send
of a tick. -/
def Worker.ticks (w : Worker) : Nat := w.counter + if w.betweenSends then 1 else 0

/-- What a step of a worker sends, and how that shows in its counter. -/
structure WorkerSends (w w' : Worker) (sent : List Event) : Prop where
  ticks : w'.ticks = w.ticks + sent.count (w.p, .duration)
  between : (if w'.betweenSends then 1 else 0) + sent.count (w.p, .timeline) =
    (if w.betweenSends then 1 else 0) + sent.count (w.p, .duration)
  item : ';' ∉ w.p.toList → ∀ e ∈ sent, eventApp e = w.p
  session : ';' ∉ w.p.toList → ∀ e ∈ sent, ∀ p n, sessionOf e = some (p, n) → n ≤ w.ticks

/-- The `LongestSession` event of a worker. -/
theorem sessionOf_sessionItem {p : String} (hp : ';' ∉ p.toList) (n : Nat) :
    sessionOf (sessionItem p n, .longestSession) =
      some (p, if n ≤ 2147483647 then (n : Int) else 0) := by
  rw [sessionOf, handleLongestSession_sessionItem hp]

/-- A step of a worker sends at most one event, and writes nothing. -/
theorem Worker.step_sends {inp : Input} {w w' : Worker} {s s' : Shared}
    (h : w.step inp s = some (w', s')) :
    w.over = false ∧ w'.p = w.p ∧ s'.db = s.db ∧ s'.events = s.events ++ w.sends ∧
      WorkerSends w w' w.sends := by
  obtain ⟨hp, -, hdb, -⟩ := Worker.step_cases h
  obtain ⟨hcounter, hnext⟩ := Worker.step_point h
  have hevents := Worker.step_events h
  obtain ⟨p, counter, point⟩ := w
  -- most points send nothing, and lead to no point between the two sends
  have hquiet : point ≠ .sendTimeline → w'.point ≠ .sendTimeline →
      WorkerSends ⟨p, counter, point⟩ w' [] := by
    intro hpoint hpoint'
    have hnow : (Worker.mk p counter point).betweenSends = false := decide_eq_false hpoint
    have hthen : w'.betweenSends = false := decide_eq_false hpoint'
    rw [if_neg hpoint] at hcounter
    refine ⟨?_, ?_, by simp, by simp⟩
    · unfold Worker.ticks
      rw [hthen, hnow, hcounter]
      rfl
    · rw [hthen, hnow]
      rfl
  cases point with
  | finished | panicked => cases hnext
  | start | announce | sleep | lock | tickBroadcast | leave | farewell =>
    refine ⟨rfl, hp, hdb, hevents, hquiet (by simp) fun hpoint' => ?_⟩
    rw [hpoint'] at hnext
    cases hpause : s.pause <;> simp [WorkerPoint.next, hpause] at hnext
  | sendLaunches =>
    have hpoint' : w'.point = .announce := List.mem_singleton.mp hnext
    refine ⟨rfl, hp, hdb, hevents, ?_⟩
    show WorkerSends _ _ [(p, .launches)]
    exact ⟨by simp [Worker.ticks, Worker.betweenSends, hpoint', hcounter],
      by simp [Worker.betweenSends, hpoint'], by simp [eventApp], by simp [sessionOf]⟩
  | sendDuration =>
    have hpoint' : w'.point = .sendTimeline := List.mem_singleton.mp hnext
    refine ⟨rfl, hp, hdb, hevents, ?_⟩
    show WorkerSends _ _ [(p, .duration)]
    exact ⟨by simp [Worker.ticks, Worker.betweenSends, hpoint', hcounter],
      by simp [Worker.betweenSends, hpoint'], by simp [eventApp], by simp [sessionOf]⟩
  | sendTimeline =>
    have hpoint' : w'.point = .tickBroadcast := List.mem_singleton.mp hnext
    refine ⟨rfl, hp, hdb, hevents, ?_⟩
    show WorkerSends _ _ [(p, .timeline)]
    exact ⟨by simp [Worker.ticks, Worker.betweenSends, hpoint', hcounter],
      by simp [Worker.betweenSends, hpoint'], by simp [eventApp], by simp [sessionOf]⟩
  | sendLongest =>
    have hpoint' : w'.point = .farewell := List.mem_singleton.mp hnext
    refine ⟨rfl, hp, hdb, hevents, ?_⟩
    show WorkerSends _ _ [(sessionItem p counter, .longestSession)]
    refine ⟨by simp [Worker.ticks, Worker.betweenSends, hpoint', hcounter],
      by simp [Worker.betweenSends, hpoint'], ?_, ?_⟩
    · intro hsemi e he
      rw [List.mem_singleton.mp he]
      exact eventApp_of_sessionOf (sessionOf_sessionItem hsemi counter)
    · intro hsemi e he q n hsession
      rw [List.mem_singleton.mp he, sessionOf_sessionItem hsemi] at hsession
      cases hsession
      simp only [Worker.ticks]
      split <;> omega

/-! ## The books

The ledgers of the store, the events still to be written, and the workers. -/

/-- The workers of `p` between their two sends. -/
def workersBetween (p : String) (workers : List Worker) : Nat :=
  workers.countP fun w => w.p = p && w.betweenSends

/-- The events `es` are still to be written, oldest first. -/
structure Books (db : Store) (es : List Event) (workers : List Worker) : Prop where
  /-- The apps of the events are there. -/
  named : ∀ e ∈ es, eventApp e ∈ db.appNames
  time : ∀ p ∈ db.appNames, db.durationOf p + es.count (p, .duration) =
    db.timelineDurationOf p + es.count (p, .timeline) + workersBetween p workers
  longest : ∀ p ∈ db.appNames, db.longestSessionOf p ≤ db.durationOf p
  nonneg : ∀ p ∈ db.appNames, 0 ≤ db.durationOf p
  /-- The ticks of a worker are in the ledger or among the events. -/
  workers : ∀ w ∈ workers, w.over = false →
    w.p ∈ db.appNames ∧ (w.ticks : Int) ≤ db.durationOf w.p + es.count (w.p, .duration)
  /-- The ticks of a session whose end is among the events come before that end. -/
  sessions : ∀ earlier e later p n, es = earlier ++ e :: later → sessionOf e = some (p, n) →
    n ≤ db.durationOf p + earlier.count (p, .duration)

section
variable {db db' : Store} {es : List Event} {workers : List Worker} {e : Event} {p : String}

theorem eventApp_of_kind {q : String} {kind : ReceiveTypes} (h : kind ≠ .longestSession) :
    eventApp (q, kind) = q := by
  cases kind with
  | longestSession => exact absurd rfl h
  | _ => rfl

/-- No event is on its way of an app that is not there. -/
theorem count_eq_zero_of_named (hnamed : ∀ e ∈ es, eventApp e ∈ db.appNames)
    (hnew : p ∉ db.appNames) {kind : ReceiveTypes} (hkind : kind ≠ .longestSession) :
    es.count (p, kind) = 0 := by
  refine List.count_eq_zero.mpr fun he => hnew ?_
  have hof := hnamed _ he
  rw [eventApp_of_kind hkind] at hof
  exact hof

/-- Events of other apps are not sent. -/
theorem WorkerSends.count_of_ne {w w' : Worker} {sent : List Event} (hsends : WorkerSends w w' sent)
    (hsemi : ';' ∉ w.p.toList) {q : String} {kind : ReceiveTypes} (hkind : kind ≠ .longestSession)
    (hq : q ≠ w.p) : sent.count (q, kind) = 0 := by
  refine List.count_eq_zero.mpr fun hsent => hq ?_
  rw [← hsends.item hsemi _ hsent, eventApp_of_kind hkind]

/-- **A worker moves on**: what it sends is added to the events. -/
theorem Books.send {w w' : Worker} {k : Nat} {sent : List Event} (hbooks : Books db es workers)
    (hsemi : ∀ p ∈ db.appNames, ';' ∉ p.toList) (hk : workers[k]? = some w)
    (hover : w.over = false) (hp : w'.p = w.p) (hsends : WorkerSends w w' sent) :
    Books db (es ++ sent) (workers.set k w') := by
  obtain ⟨hmem, hticks⟩ := hbooks.workers w (List.mem_of_getElem? hk) hover
  have hitem := hsends.item (hsemi w.p hmem)
  have hother : ∀ q kind, kind ≠ .longestSession → q ≠ w.p → sent.count (q, kind) = 0 :=
    fun _ _ => hsends.count_of_ne (hsemi w.p hmem)
  refine ⟨?_, ?_, hbooks.longest, hbooks.nonneg, ?_, ?_⟩
  · intro e he
    rcases List.mem_append.mp he with he | he
    · exact hbooks.named e he
    · rw [hitem e he]
      exact hmem
  · intro q hq
    have htime := hbooks.time q hq
    have hset := Pool.countP_set (fun w => w.p = q && w.betweenSends) w' hk
    have hbetween := hsends.between
    rw [List.count_append, List.count_append, workersBetween]
    rw [workersBetween] at htime
    by_cases hqp : q = w.p
    -- what is sent and the worker's place between its two sends move together
    · subst hqp
      simp only [hp, decide_true, Bool.true_and] at hset htime ⊢
      omega
    · have hne : w.p ≠ q := fun h => hqp h.symm
      rw [hother q .duration (by decide) hqp, hother q .timeline (by decide) hqp]
      simp only [hp, hne, decide_false, Bool.false_and, Bool.false_eq_true, if_false] at hset
      omega
  · refine Pool.forall_set ?_ hbooks.workers ?_
    · intro _
      rw [hp]
      refine ⟨hmem, ?_⟩
      have hcount := hsends.ticks
      rw [List.count_append]
      omega
    · intro j u _ _ hu hlive
      obtain ⟨hnamed, hle⟩ := hu hlive
      refine ⟨hnamed, ?_⟩
      rw [List.count_append]
      omega
  · intro earlier e later q n hsplit hsession
    -- the end of a session that is sent now comes after all its ticks
    have hnow : e ∈ sent → es.count (q, .duration) ≤ earlier.count (q, .duration) →
        n ≤ db.durationOf q + earlier.count (q, .duration) := by
      intro he hle
      have hq : q = w.p := by rw [← eventApp_of_sessionOf hsession, hitem e he]
      have hn := hsends.session (hsemi w.p hmem) e he q n hsession
      rw [hq] at hle ⊢
      omega
    rcases List.append_eq_append_iff.mp hsplit with ⟨more, rfl, hsent⟩ | ⟨rest, rfl, hrest⟩
    -- the event is one of those sent now, or was in the channel before
    · refine hnow (by simp [hsent]) ?_
      rw [List.count_append]
      omega
    · cases rest with
      | nil =>
        rw [List.nil_append] at hrest
        exact hnow (by simp [← hrest]) (by simp)
      | cons x rest =>
        cases hrest
        exact hbooks.sessions earlier e rest q n rfl hsession

/-- A new worker has sent nothing. -/
theorem Books.spawn (hbooks : Books db es workers) (hp : p ∈ db.appNames) :
    Books db es (workers ++ [Worker.spawned p]) where
  named := hbooks.named
  time q hq := by
    have htime := hbooks.time q hq
    have hzero : workersBetween q (workers ++ [Worker.spawned p]) = workersBetween q workers := by
      rw [workersBetween, List.countP_append, List.countP_singleton, workersBetween]
      simp [Worker.spawned, Worker.betweenSends]
    rw [hzero]
    exact htime
  longest := hbooks.longest
  nonneg := hbooks.nonneg
  workers w hw hlive := by
    rcases List.mem_append.mp hw with hw | hw
    · exact hbooks.workers w hw hlive
    · rw [List.mem_singleton.mp hw]
      refine ⟨hp, ?_⟩
      have hzero : (Worker.spawned p).ticks = 0 := rfl
      have hnonneg := hbooks.nonneg p hp
      show ((Worker.spawned p).ticks : Int) ≤ db.durationOf p + es.count (p, .duration)
      omega
  sessions := hbooks.sessions

/-- The books are in the tables `apps` and `timeline`. -/
theorem Books.congr (hbooks : Books db es workers) (happs : db'.apps = db.apps)
    (htimeline : db'.timeline = db.timeline) : Books db' es workers := by
  have hnames : db'.appNames = db.appNames := by rw [Store.appNames, happs, Store.appNames]
  have hduration : ∀ q, db'.durationOf q = db.durationOf q := fun _ => Store.columnOf_congr happs
  have hlongest : ∀ q, db'.longestSessionOf q = db.longestSessionOf q :=
    fun _ => Store.columnOf_congr happs
  have hsum : ∀ q, db'.timelineDurationOf q = db.timelineDurationOf q :=
    fun _ => Store.timelineDurationOf_congr happs htimeline
  constructor
  all_goals simp only [hnames, hduration, hlongest, hsum]
  · exact hbooks.named
  · exact hbooks.time
  · exact hbooks.longest
  · exact hbooks.nonneg
  · exact hbooks.workers
  · exact hbooks.sessions

/-- **The oldest event is written.** -/
theorem Books.apply (hbooks : Books db (e :: es) workers) (happlied : Applied e db db')
    (hnames : db'.appNames = db.appNames) : Books db' es workers := by
  have hcount : ∀ (l : List Event) q kind, (e :: l).count (q, kind) =
      l.count (q, kind) + if e = (q, kind) then 1 else 0 := by
    intro l q kind
    rw [List.count_cons]
    simp only [beq_iff_eq]
  have hmore : ∀ q ∈ db.appNames, ∀ l : List Event,
      db.durationOf q + (e :: l).count (q, .duration) =
        db'.durationOf q + l.count (q, .duration) := by
    intro q hq l
    rw [happlied.duration q hq, hcount]
    split <;> omega
  refine ⟨fun x hx => ?_, fun q hq => ?_, fun q hq => ?_, fun q hq => ?_, fun w hw hlive => ?_,
    fun earlier x later q n hsplit hsession => ?_⟩
  · rw [hnames]
    exact hbooks.named x (List.mem_cons_of_mem e hx)
  · rw [hnames] at hq
    have htime := hbooks.time q hq
    rw [hmore q hq, hcount] at htime
    rw [htime, happlied.timeline q hq]
    split <;> omega
  · rw [hnames] at hq
    exact happlied.longest q (hbooks.longest q hq)
  · rw [hnames] at hq
    have hnonneg := hbooks.nonneg q hq
    rw [happlied.duration q hq]
    split <;> omega
  · obtain ⟨hnamed, hle⟩ := hbooks.workers w hw hlive
    rw [hmore w.p hnamed] at hle
    rw [hnames]
    exact ⟨hnamed, hle⟩
  -- a tick moves from the channel to the column: their sum stays what it was
  · have hx : x ∈ e :: es := by simp [hsplit]
    have hq : q ∈ db.appNames := by
      rw [← eventApp_of_sessionOf hsession]
      exact hbooks.named x hx
    rw [← hmore q hq]
    exact hbooks.sessions (e :: earlier) x later q n (by rw [hsplit]; rfl) hsession

/-- **A new app** has empty books: no event and no worker can be of an app that is not
there. -/
theorem Books.insertApp {row : Apps.Model} (hbooks : Books db es workers)
    (hkeys : db.timelineKeys) (hname : row.name = some p) (hnew : p ∉ db.appNames)
    (hduration : row.duration = some 0) (hlongest : row.longestSession = some 0)
    (h : db.insertApp row = .ok db') : Books db' es workers := by
  have hold := fun q => Store.mem_appNames_insertApp_iff h hname (q := q)
  have hnames : ∀ q ∈ db.appNames, q ∈ db'.appNames := fun q hq => (hold q).mpr (.inl hq)
  have hsame : ∀ q ∈ db.appNames, db'.durationOf q = db.durationOf q := fun q hq =>
    (Store.ledgers_insertApp_of_mem h hq).1 _
  have hzero : db'.durationOf p = 0 := Store.columnOf_insertApp_self h hname hnew hduration
  have hcount : ∀ kind, kind ≠ ReceiveTypes.longestSession → es.count (p, kind) = 0 :=
    fun _ => count_eq_zero_of_named hbooks.named hnew
  refine ⟨fun e he => hnames _ (hbooks.named e he), fun q hq => ?_, fun q hq => ?_,
    fun q hq => ?_, fun w hw hlive => ?_, fun earlier e later q n hsplit hsession => ?_⟩
  · rcases (hold q).mp hq with hq | rfl
    · rw [hsame q hq, (Store.ledgers_insertApp_of_mem h hq).2]
      exact hbooks.time q hq
    · have hidle : workersBetween q workers = 0 := by
        refine List.countP_eq_zero.mpr fun w hw hcounted => ?_
        simp only [Bool.and_eq_true, decide_eq_true_iff, Worker.betweenSends] at hcounted
        have hlive : w.over = false := by simp [Worker.over, hcounted.2]
        exact hnew (hcounted.1 ▸ (hbooks.workers w hw hlive).1)
      rw [hcount _ (by decide), hcount _ (by decide), hidle, hzero,
        Store.timelineDurationOf_insertApp h hkeys hname hnew]
      rfl
  · rcases (hold q).mp hq with hq | rfl
    · rw [hsame q hq, show db'.longestSessionOf q = db.longestSessionOf q from
        (Store.ledgers_insertApp_of_mem h hq).1 _]
      exact hbooks.longest q hq
    · rw [hzero, Store.longestSessionOf, Store.columnOf_insertApp_self h hname hnew hlongest]
  · rcases (hold q).mp hq with hq | rfl
    · rw [hsame q hq]
      exact hbooks.nonneg q hq
    · rw [hzero]
  · obtain ⟨hnamed, hle⟩ := hbooks.workers w hw hlive
    rw [hsame w.p hnamed]
    exact ⟨hnames _ hnamed, hle⟩
  · have hq : q ∈ db.appNames := by
      rw [← eventApp_of_sessionOf hsession]
      exact hbooks.named e (by simp [hsplit])
    rw [hsame q hq]
    exact hbooks.sessions earlier e later q n hsplit hsession

end

/-! ## The program -/

/-- The events still to be written: the one that is being handled, then the channel. -/
def unwritten (c : Config) : List Event := c.loop.unwritten ++ c.shared.events

/-- The queued events of one kind that name `p`. -/
def queued (kind : ReceiveTypes) (p : String) (c : Config) : Nat := (unwritten c).count (p, kind)

/-- The two ledgers of `p` agree, up to what is on its way. -/
structure LedgersAgree (p : String) (c : Config) : Prop where
  time : c.shared.db.durationOf p + queued .duration p c =
    c.shared.db.timelineDurationOf p + queued .timeline p c + workersBetween p c.workers
  longest : c.shared.db.longestSessionOf p ≤ c.shared.db.durationOf p

/-- The database does not fail under the event loop, and the name of a new app is new and has
no `;`. -/
def keepsNames (c : Config) : Label → Prop
  | .handle inp => inp.err = none
  | .call k _ =>
    match c.calls[k]? with
    | some (.addProcess (.insert p _ _)) => p ∉ c.shared.db.appNames ∧ ';' ∉ p.toList
    | _ => True
  | _ => True

instance (c : Config) (l : Label) : Decidable (keepsNames c l) :=
  match l with
  | .handle inp => inferInstanceAs (Decidable (inp.err = none))
  | .call k _ => decidableInsert c.calls[k]? fun _ _ _ => inferInstance
  | .scan _ | .spawn | .work _ _ => isTrue trivial

/-- A call of `pause` or `add_process`; what it is going to put into `PROCESS_MAP` is in the
table. -/
def Call.pausesOrAdds (db : Store) : Call → Prop
  | .pause _ => True
  | .addProcess (.insertMap p) => p ∈ db.appNames
  | .addProcess _ => True
  | _ => False

structure LedgerInvariant (c : Config) : Prop where
  semicolon : ∀ p ∈ c.shared.db.appNames, ';' ∉ p.toList
  keys : c.shared.db.timelineKeys
  processMap : ∀ p ∈ c.shared.processMap, p ∈ c.shared.db.appNames
  toSpawn : ∀ p ∈ c.scanner.toSpawn, p ∈ c.shared.db.appNames
  spawnQueue : ∀ p ∈ c.shared.spawnQueue, p ∈ c.shared.db.appNames
  calls : ∀ call ∈ c.calls, call.pausesOrAdds c.shared.db
  handler : ∀ event hd, c.loop = .handling event hd → hd.consistent event c.shared.db
  books : Books c.shared.db (unwritten c) c.workers

section
variable {c c' : Config} {inp : Input} {k : Nat}

theorem ledgerInvariant_scan (hinv : LedgerInvariant c)
    (h : tracker.step c (.scan inp) = some c') : LedgerInvariant c' := by
  obtain ⟨sc, s, hstep, rfl⟩ := step_scan h
  rcases Scanner.step_cases hstep with ⟨-, hnone, rfl⟩ |
    ⟨m, processMap, toSpawn, -, -, horder, hpass, rfl, rfl⟩ |
    ⟨m, processMap, -, -, horder, hpass, rfl, rfl⟩ | ⟨p, rest, hsc, rfl, rfl⟩
  · refine { hinv with toSpawn := ?_ }
    show ∀ p ∈ sc.toSpawn, _
    rw [hnone]
    nofun
  · have hmap : ∀ p ∈ processMap, p ∈ c.shared.db.appNames := fun p hp =>
      hinv.processMap p ((mem_passLoop horder (.inl ⟨_, hpass⟩) p).mp hp)
    refine { hinv with processMap := hmap, toSpawn := ?_ }
    -- a session is opened for keys of the map only
    intro p hp
    obtain ⟨hnodup, hkeys⟩ := isIterationOrder_iff.mp horder
    have hlist := (passLoop_done hnodup hpass).1
    have hp : p ∈ [] ++ inp.order.filter (opensSession m c.shared.processMap) := hlist ▸ hp
    exact hinv.processMap p ((hkeys p).mp (List.mem_of_mem_filter hp))
  · have hmap : ∀ p ∈ processMap, p ∈ c.shared.db.appNames := fun p hp =>
      hinv.processMap p ((mem_passLoop horder (.inr hpass) p).mp hp)
    exact { hinv with processMap := hmap, toSpawn := by intro p hp; cases hp }
  · have hall : ∀ q ∈ p :: rest, q ∈ c.shared.db.appNames := fun q hq =>
      hinv.toSpawn q (by rw [hsc]; exact hq)
    refine { hinv with toSpawn := ?_, spawnQueue := ?_ }
    · exact fun q hq => hall q (List.mem_cons_of_mem p hq)
    · intro q hq
      rcases List.mem_append.mp hq with hq | hq
      · exact hinv.spawnQueue q hq
      · rw [List.mem_singleton.mp hq]
        exact hall p List.mem_cons_self

theorem ledgerInvariant_spawn (hinv : LedgerInvariant c)
    (h : tracker.step c .spawn = some c') : LedgerInvariant c' := by
  obtain ⟨p, rest, hqueue, rfl⟩ := step_spawn h
  have hall : ∀ q ∈ p :: rest, q ∈ c.shared.db.appNames := fun q hq =>
    hinv.spawnQueue q (by rw [hqueue]; exact hq)
  refine { hinv with spawnQueue := ?_, books := ?_ }
  · exact fun q hq => hall q (List.mem_cons_of_mem p hq)
  · exact hinv.books.spawn (hall p List.mem_cons_self)

theorem ledgerInvariant_work (hinv : LedgerInvariant c)
    (h : tracker.step c (.work k inp) = some c') : LedgerInvariant c' := by
  have hmap : ∀ p, p ∈ c'.shared.processMap → p ∈ c.shared.processMap := fun p hp => by
    have hsame := mem_processMap_step h p
    simpa [mapWrite, hp] using hsame
  obtain ⟨w, w', s, hk, hstep, rfl⟩ := step_work h
  obtain ⟨-, hqueue, hdb, -⟩ := Worker.step_cases hstep
  obtain ⟨hover, hp, -, hevents, hsends⟩ := Worker.step_sends hstep
  have hbooks := hinv.books.send hinv.semicolon hk hover hp hsends
  have hunwritten : c.loop.unwritten ++ s.events = unwritten c ++ w.sends := by
    rw [hevents, ← List.append_assoc, unwritten]
  constructor
  all_goals simp only [hdb, hqueue, unwritten, hunwritten]
  · exact hinv.semicolon
  · exact hinv.keys
  · exact fun p hp => hinv.processMap p (hmap p hp)
  · exact hinv.toSpawn
  · exact hinv.spawnQueue
  · exact hinv.calls
  · exact hinv.handler
  · exact hbooks

/-- The event of a handler that has not written it comes before those in the channel. -/
theorem unwritten_of_handling {event : Event} {hd : Handler}
    (hhandling : c.loop = .handling event hd) (hw : hd.written = false) :
    unwritten c = event :: c.shared.events := by
  rw [unwritten, hhandling, EventLoop.unwritten, hw]
  rfl

/-- The app of an event that is still to be written is there. -/
theorem LedgerInvariant.named (hinv : LedgerInvariant c) {event : Event} {hd : Handler}
    (hhandling : c.loop = .handling event hd) (hw : hd.written = false) :
    eventApp event ∈ c.shared.db.appNames :=
  hinv.books.named event (by
    rw [unwritten_of_handling hhandling hw]
    exact List.mem_cons_self)

/-- A statement of the handler that is running. -/
theorem LedgerInvariant.step_ledgers (hinv : LedgerInvariant c) (herr : inp.err = none)
    {event : Event} {hd : Handler} {next : Option Handler} {db : Store}
    (hhandling : c.loop = .handling event hd)
    (hnext : hd.step inp c.shared.db = (next, db)) : LedgerStep event hd next c.shared.db db := by
  have hsession : hd.written = false → ∀ p n, sessionOf event = some (p, n) →
      n ≤ c.shared.db.durationOf p := by
    intro hw p n hsession
    have hle := hinv.books.sessions [] event c.shared.events p n
      (unwritten_of_handling hhandling hw) hsession
    simpa using hle
  exact Handler.step_ledgers (hinv.handler event hd hhandling) (hinv.named hhandling) hsession
    herr hnext

theorem ledgerInvariant_handle (hinv : LedgerInvariant c) (hok : keepsNames c (.handle inp))
    (h : tracker.step c (.handle inp) = some c') : LedgerInvariant c' := by
  obtain ⟨loop, events, db, hstep, rfl⟩ := step_handle h
  have hnames : db.appNames = c.shared.db.appNames := by
    rw [Store.appNames_eq, Store.appNames_eq, EventLoop.step_identities hstep]
  have hkeys := EventLoop.step_timelineKeys hinv.keys hstep
  have hcalls : ∀ call ∈ c.calls, call.pausesOrAdds db := by
    intro call hcall
    have hpre := hinv.calls call hcall
    unfold Call.pausesOrAdds at hpre ⊢
    rw [hnames]
    exact hpre
  have hrest : (∀ event hd, loop = .handling event hd → hd.consistent event db) ∧
      Books db (loop.unwritten ++ events) c.workers := by
    rcases EventLoop.step_cases hstep with ⟨event, hidle, hevents, rfl, rfl⟩ |
      ⟨event, hd, next, hhandling, rfl, hnext, rfl⟩
    · have hqueue : unwritten c = event :: events := by
        rw [unwritten, hidle, hevents]
        rfl
      have hbooks := hinv.books
      rw [hqueue] at hbooks
      cases hhandle : handle event with
      | none =>
        -- an item that is no session item is dropped
        have hkind : event.2 = .longestSession := kind_of_handle_eq_none hhandle
        refine ⟨(by intro _ _ hloop; cases hloop), hbooks.apply ?_ rfl⟩
        exact applied_of_same (by rw [hkind]; decide) (by rw [hkind]; decide) rfl rfl
      | some hd =>
        obtain ⟨hcons, hw⟩ := consistent_of_handle hhandle
        refine ⟨?_, ?_⟩
        · intro event' hd' hloop
          cases hloop
          exact hcons
        · have hpending : (EventLoop.resume event (some hd)).unwritten = [event] := by
            simp [EventLoop.resume, EventLoop.unwritten, hw]
          rw [hpending]
          exact hbooks
    · have hledgers := hinv.step_ledgers hok hhandling hnext
      refine ⟨?_, ?_⟩
      · intro event' hd' hloop
        cases next with
        | none => cases hloop
        | some hd'' =>
          cases hloop
          exact hledgers.consistent _ rfl
      · rcases hledgers.ledgers with ⟨hpending, happs, htimeline⟩ | ⟨hw, hpending, happlied⟩
        · rw [hpending, ← hhandling]
          exact hinv.books.congr happs htimeline
        · have hbooks := hinv.books
          rw [unwritten_of_handling hhandling hw] at hbooks
          rw [hpending]
          exact hbooks.apply happlied hnames
  constructor
  all_goals simp only [hnames]
  · exact hinv.semicolon
  · exact hkeys
  · exact hinv.processMap
  · exact hinv.toSpawn
  · exact hinv.spawnQueue
  · exact hcalls
  · exact hrest.1
  · exact hrest.2

/-- A call that writes neither a table nor `PROCESS_MAP`. -/
theorem ledgerInvariant_of_call {call' : Call} {s : Shared} (hinv : LedgerInvariant c)
    (hdb : s.db = c.shared.db) (hevents : s.events = c.shared.events)
    (hqueue : s.spawnQueue = c.shared.spawnQueue)
    (hmap : ∀ p ∈ s.processMap, p ∈ c.shared.db.appNames)
    (hcall : call'.pausesOrAdds c.shared.db) :
    LedgerInvariant { c with shared := s, calls := c.calls.set k call' } := by
  have hcalls : ∀ call ∈ c.calls.set k call', call.pausesOrAdds c.shared.db :=
    Pool.forall_set hcall hinv.calls fun _ _ _ _ h => h
  constructor
  all_goals simp only [hdb, hqueue, unwritten, hevents]
  · exact hinv.semicolon
  · exact hinv.keys
  · exact hmap
  · exact hinv.toSpawn
  · exact hinv.spawnQueue
  · exact hcalls
  · exact hinv.handler
  · exact hinv.books

/-- The insert of `put_data`, under a new name. -/
theorem ledgerInvariant_insertApp {p productName : String} {id : Int} {apps : Table Apps.Model}
    (hinv : LedgerInvariant c) (hnew : p ∉ c.shared.db.appNames) (hsemi : ';' ∉ p.toList)
    (hins : c.shared.db.apps.insert (AddProcess.newApp p productName id) = some apps) :
    LedgerInvariant { c with
      shared := { c.shared with db := { c.shared.db with apps } }
      calls := c.calls.set k (.addProcess (.insertMap p)) } := by
  have hinsert : c.shared.db.insertApp (AddProcess.newApp p productName id) =
      .ok { c.shared.db with apps } := Store.insertApp_eq_ok.mpr ⟨apps, hins, rfl⟩
  have hmem := Store.mem_appNames_insertApp hinsert
  have hmore : ∀ q ∈ c.shared.db.appNames, q ∈ Store.appNames { c.shared.db with apps } :=
    fun q hq => (hmem q).mpr (.inl hq)
  refine ⟨fun q hq => ?_, fun t ht => ?_, fun q hq => hmore q (hinv.processMap q hq),
    fun q hq => hmore q (hinv.toSpawn q hq), fun q hq => hmore q (hinv.spawnQueue q hq), ?_,
    fun event hd hloop => consistent_insertApp hinsert (hinv.handler event hd hloop),
    hinv.books.insertApp hinv.keys rfl hnew rfl rfl hinsert⟩
  · rcases (hmem q).mp hq with hq | hq
    · exact hinv.semicolon q hq
    · have hqp : p = q := Option.some.inj hq
      rw [← hqp]
      exact hsemi
  · show t.appId ∈ apps.keys
    rw [Table.keys_insert hins]
    exact List.mem_append_left _ (hinv.keys t ht)
  · refine Pool.forall_set ((hmem p).mpr (.inr rfl)) hinv.calls ?_
    intro j call _ _ hcall
    unfold Call.pausesOrAdds at hcall ⊢
    split at hcall
    · trivial
    · exact hmore _ hcall
    · trivial
    · exact hcall

theorem ledgerInvariant_call (hinv : LedgerInvariant c) (hok : keepsNames c (.call k inp))
    (h : tracker.step c (.call k inp) = some c') : LedgerInvariant c' := by
  obtain ⟨call, call', s, hk, hstep, rfl⟩ := step_call h
  have hcall := hinv.calls call (List.mem_of_getElem? hk)
  rcases Call.step_machine hstep with ⟨a, a', rfl, rfl, hadd⟩ | ⟨d, d', rfl, -, -⟩ |
    ⟨p, p', rfl, rfl, hpause⟩ | ⟨a, a', db, rfl, -⟩ | ⟨a, a', db, rfl, -⟩ | ⟨a, a', db, rfl, -⟩
  · rcases AddProcess.step_cases hadd with ⟨e, -, -, rfl, rfl⟩ |
      ⟨p, path, -, -, rfl, ⟨-, rfl⟩ | ⟨-, rfl⟩⟩ | ⟨p, productName, -, -, rfl, rfl⟩ |
      ⟨p, productName, id, rfl, -, ⟨-, rfl, rfl⟩ | ⟨apps, hins, rfl, rfl⟩⟩ |
      ⟨p, rfl, ⟨-, rfl, rfl⟩ | ⟨-, rfl, rfl⟩⟩
    · exact ledgerInvariant_of_call hinv rfl rfl rfl hinv.processMap trivial
    · exact ledgerInvariant_of_call hinv rfl rfl rfl hinv.processMap trivial
    · exact ledgerInvariant_of_call hinv rfl rfl rfl hinv.processMap trivial
    · exact ledgerInvariant_of_call hinv rfl rfl rfl hinv.processMap trivial
    · exact ledgerInvariant_of_call hinv rfl rfl rfl hinv.processMap trivial
    · simp only [keepsNames, hk] at hok
      exact ledgerInvariant_insertApp hinv hok.1 hok.2 hins
    · exact ledgerInvariant_of_call hinv rfl rfl rfl hinv.processMap trivial
    · -- the name goes into the map after its row has gone into the table
      refine ledgerInvariant_of_call hinv rfl rfl rfl (fun q hq => ?_) trivial
      rcases (Finmap.mem_insert).mp hq with rfl | hq
      · exact hcall
      · exact hinv.processMap q hq
  · exact hcall.elim
  · rcases Pause.step_cases hpause with ⟨-, -, rfl⟩ | ⟨value, -, -, rfl⟩
    · exact ledgerInvariant_of_call hinv rfl rfl rfl hinv.processMap trivial
    · exact ledgerInvariant_of_call hinv rfl rfl rfl hinv.processMap trivial
  · exact hcall.elim
  · exact hcall.elim
  · exact hcall.elim

theorem ledgerInvariant_step (c : Config) (l : Label) (c' : Config) (hinv : LedgerInvariant c)
    (hok : keepsNames c l) (h : tracker.step c l = some c') : LedgerInvariant c' := by
  cases l with
  | scan inp => exact ledgerInvariant_scan hinv h
  | spawn => exact ledgerInvariant_spawn hinv h
  | work k inp => exact ledgerInvariant_work hinv h
  | handle inp => exact ledgerInvariant_handle hinv hok h
  | call k inp => exact ledgerInvariant_call hinv hok h

end

/-! ## Runs -/

/-- A tracker without a session and without events, over a store in which the two ledgers of
each app agree. -/
structure StartsAgreed (c : Config) : Prop where
  semicolon : ∀ p ∈ c.shared.db.appNames, ';' ∉ p.toList
  keys : c.shared.db.timelineKeys
  processMap : ∀ p, p ∈ c.shared.processMap ↔ p ∈ c.shared.db.appNames
  toSpawn : c.scanner.toSpawn = []
  spawnQueue : c.shared.spawnQueue = []
  workers : ∀ w ∈ c.workers, w.over = true
  events : c.shared.events = []
  loop : c.loop = .idle
  calls : ∀ call ∈ c.calls, (∃ pause, call = .pause pause) ∨
    ∃ p path, call = .addProcess (.getProcesses p path)
  time : ∀ p ∈ c.shared.db.appNames,
    c.shared.db.durationOf p = c.shared.db.timelineDurationOf p
  longest : ∀ p ∈ c.shared.db.appNames,
    c.shared.db.longestSessionOf p ≤ c.shared.db.durationOf p

theorem ledgerInvariant_of_startsAgreed {c : Config} (hstart : StartsAgreed c)
    (hnonneg : ∀ p ∈ c.shared.db.appNames, 0 ≤ c.shared.db.durationOf p) :
    LedgerInvariant c := by
  have hempty : unwritten c = [] := by
    rw [unwritten, hstart.loop, hstart.events]
    rfl
  have hidle : ∀ p, workersBetween p c.workers = 0 := by
    intro p
    refine List.countP_eq_zero.mpr fun w hw hcounted => ?_
    have hover := hstart.workers w hw
    simp only [Bool.and_eq_true, Worker.betweenSends, decide_eq_true_iff] at hcounted
    simp [Worker.over, hcounted.2] at hover
  refine ⟨hstart.semicolon, hstart.keys, fun p hp => (hstart.processMap p).mp hp,
    ?_, ?_, ?_, ?_, ?_⟩
  · rw [hstart.toSpawn]
    nofun
  · rw [hstart.spawnQueue]
    nofun
  · intro call hcall
    rcases hstart.calls call hcall with ⟨pause, rfl⟩ | ⟨p, path, rfl⟩
    · trivial
    · trivial
  · intro event hd hloop
    rw [hstart.loop] at hloop
    cases hloop
  · rw [hempty]
    refine ⟨nofun, fun p hp => ?_, hstart.longest, hnonneg, fun w hw hlive => ?_, ?_⟩
    · rw [hidle, hstart.time p hp, List.count_nil, List.count_nil]
      omega
    · rw [hstart.workers w hw] at hlive
      cases hlive
    · intro earlier e later p n hsplit
      simp at hsplit

/-- **The two ledgers agree** in every state of every run of the scanner, the workers, the
event loop, the pause toggles and the `add_process` calls, and the longest session is no
longer than the duration. -/
theorem two_ledgers_agree {c₀ c : Config} {ls : List Label} {p : String}
    (hstart : StartsAgreed c₀)
    (hnonneg : ∀ p ∈ c₀.shared.db.appNames, 0 ≤ c₀.shared.db.durationOf p)
    (hrun : tracker.Runs keepsNames c₀ ls c) (hp : p ∈ c.shared.db.appNames) :
    LedgersAgree p c := by
  have hinv := hrun.invariant ledgerInvariant_step
    (ledgerInvariant_of_startsAgreed hstart hnonneg)
  exact ⟨hinv.books.time p hp, hinv.books.longest p hp⟩

/-! ## The condition is needed

One app and one session. -/

instance (p : String) (c : Config) : Decidable (LedgersAgree p c) :=
  decidable_of_iff (c.shared.db.durationOf p + queued .duration p c =
        c.shared.db.timelineDurationOf p + queued .timeline p c + workersBetween p c.workers ∧
      c.shared.db.longestSessionOf p ≤ c.shared.db.durationOf p)
    ⟨fun h => ⟨h.1, h.2⟩, fun h => ⟨h.time, h.longest⟩⟩

/-- A scan of a map with the one key `a`; `system` says what runs. -/
def scanA (system : List SysProcess) : List Label :=
  [.scan { order := ["a"] }, .scan {}, .scan { system }, .scan { order := ["a"] }, .scan {}]

/-- The session of `a` is opened, and `a` ends before the first tick. -/
def emptySession : List Label :=
  scanA [⟨"a", false⟩] ++ [.scan {}, .spawn] ++ scanA [] ++ List.replicate 7 (.work 0 {}) ++
    List.replicate 7 (.handle {})

/-- The session of `a` is opened, ticks once and ends; all events are handled. -/
def sessionOfOneTick : List Label :=
  scanA [⟨"a", false⟩] ++ [.scan {}, .spawn] ++ List.replicate 8 (.work 0 {}) ++ scanA [] ++
    List.replicate 4 (.work 0 {}) ++ List.replicate 15 (.handle {})

/-- The app `a` with this number in its columns. -/
def appWithTimes (n : Int) : Apps.Model :=
  { AddProcess.newApp "a" "a" 1 with duration := some n, longestSession := some n }

/-- A store with the one app `a` and this number in both its ledgers. -/
def storeWithTimes (n : Int) : Store where
  backend := .sqlite
  apps := ⟨[appWithTimes n], List.nodup_singleton _⟩
  timeline := ⟨[⟨1, NaiveDateTime.unixEpoch.date, some n, 1, none⟩], List.nodup_singleton _⟩
  checkpoints := .empty
  processAliases := .empty

theorem startsAgreed_storeWithTimes (n : Int) :
    StartsAgreed (.initial .linux (storeWithTimes n) []) := by
  have hnames : (storeWithTimes n).appNames = ["a"] := rfl
  have hfind : (storeWithTimes n).findApp "a" = some (appWithTimes n) := by
    simp [Store.findApp, Table.one, storeWithTimes, appWithTimes, AddProcess.newApp]
  have hsum : (storeWithTimes n).timelineSum (appWithTimes n).id = n := by
    simp [Store.timelineSum, Table.sumBy, storeWithTimes, appWithTimes, AddProcess.newApp]
  have hall : ∀ q : String → Prop, q "a" → ∀ p ∈ (storeWithTimes n).appNames, q p := by
    intro q hq p hp
    rw [hnames, List.mem_singleton] at hp
    exact hp ▸ hq
  refine ⟨hall _ (by decide), ?_, fun p => mem_processMap_initial, rfl, rfl,
    fun w hw => absurd hw List.not_mem_nil, rfl, rfl, fun call hcall => absurd hcall List.not_mem_nil,
    hall _ ?_, hall _ ?_⟩
  · intro t ht
    rw [List.mem_singleton.mp ht]
    exact List.mem_singleton_self _
  · show (storeWithTimes n).durationOf "a" = (storeWithTimes n).timelineDurationOf "a"
    rw [Store.durationOf, Store.columnOf_of_findApp _ hfind,
      Store.timelineDurationOf_of_findApp hfind, hsum]
    rfl
  · show (storeWithTimes n).longestSessionOf "a" ≤ (storeWithTimes n).durationOf "a"
    rw [Store.longestSessionOf, Store.durationOf, Store.columnOf_of_findApp _ hfind,
      Store.columnOf_of_findApp _ hfind]
    exact le_refl n

/-- **A negative duration**: an empty session is longer than it. -/
theorem longest_exceeds_negative_duration :
    ¬ ∀ (c₀ c : Config) (ls : List Label) (p : String), c₀.shared.db.appNames.Nodup →
      StartsAgreed c₀ → tracker.Runs (fun c l => l.err = none ∧ keepsNames c l) c₀ ls c →
      p ∈ c.shared.db.appNames → LedgersAgree p c := by
  intro hall
  have hend : (tracker.execWhere (fun c l => l.err = none ∧ keepsNames c l)
      (.initial .linux (storeWithTimes (-1)) []) emptySession).map (fun c =>
        decide ("a" ∈ c.shared.db.appNames ∧ ¬ LedgersAgree "a" c)) = some true := by decide
  obtain ⟨c, hexec, hc⟩ := Option.map_eq_some_iff.mp hend
  obtain ⟨hmem, hdiffer⟩ := of_decide_eq_true hc
  exact hdiffer (hall _ c _ "a" (by decide) (startsAgreed_storeWithTimes (-1))
    (Transition.System.runs_of_execWhere hexec) hmem)

/-- One session of one tick: everything is written, and the ledgers agree. -/
theorem two_ledgers_agree_sessionOfOneTick :
    ∃ c, tracker.execWhere keepsNames (.initial .linux (storeWithTimes 0) [])
        sessionOfOneTick = some c ∧
      unwritten c = [] ∧ c.shared.db.durationOf "a" = 1 ∧
      c.shared.db.longestSessionOf "a" = 1 ∧ LedgersAgree "a" c := by
  have hend : (tracker.execWhere keepsNames (.initial .linux (storeWithTimes 0) [])
      sessionOfOneTick).map (fun c => decide ("a" ∈ c.shared.db.appNames ∧ unwritten c = [] ∧
        c.shared.db.durationOf "a" = 1 ∧ c.shared.db.longestSessionOf "a" = 1)) = some true := by
    decide
  obtain ⟨c, hexec, hc⟩ := Option.map_eq_some_iff.mp hend
  obtain ⟨hmem, hwritten, hduration, hlongest⟩ := of_decide_eq_true hc
  refine ⟨c, hexec, hwritten, hduration, hlongest, two_ledgers_agree
    (startsAgreed_storeWithTimes 0) ?_ (Transition.System.runs_of_execWhere hexec) hmem⟩
  decide

end TimeTracker
