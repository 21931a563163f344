import CodexRemote.Announcements
import CodexRemote.Leases

/-!
# Who manages a Codex

What each operation does to the lease of a Codex, over all runs of the Host. `Effect` says
it once for every step: which Codex is touched, which lease it had and has, and for what
reason; a step that is cut short reaches the row only. The invariant (memory, row and
stored view agree, and a deadline is absent exactly from what is unmanaged) and the rules
for entering and leaving the unmanaged state are read off from it.

Rows are written without errors here. Event commits succeed, fail, or fail with an unknown
outcome, as the environment likes.

The steps are those of `Operations`; the runs are those of `Announcements`, where the
announcement behind a registration reads the view in one step and commits it in another. A
late one stores an old lease beside the new one in memory. Nothing comes of it until a
workspace commit of unknown outcome reads the stored view back.
-/
namespace CodexRemote.Host

open Protocol Persistence Activity Budget Codexes Leases Function List Option

variable {disk : Disk} {requestID : String} {config : Config} {label : Label} {m next : Manager}
  {codexID : String} {lease : Lease} {view : CurrentView} {world : World}

/-- Rows are written: also by a deletion, which must not take place unnoticed. -/
structure Stored (label : Label) : Prop where
  writes : label.storage.writes = true
  rewrites : label.storage.rewrites = true
  deletes : ∀ codexID requestID records, label.operation = .forget codexID requestID records →
    label.storage.commit.outcome ≠ .unknown true

/-- Rows are written and the clock is positive. -/
structure Regular (label : Label) : Prop extends Stored label where
  clock : 0 < label.now

/-- The step commits the event of a lease warning of this Codex. Cut short, it does so
behind the third of its writes only. -/
def warns (config : Config) (world : World) (label : Label) (codexID : String) : Bool :=
  match label.operation with
  | .sweep id =>
      decide (id = codexID) && sweepWarns config world.manager id label.now label.storage &&
        match label.crash with
        | none => true
        | some (writes, _) => decide (2 ≤ writes)
  | _ => false

/-- The Codex is known and has a lease. -/
def managed (m : Manager) (codexID : String) : Bool :=
  match known m codexID with
  | .ok (_, codex) => decide (codex.managementState ≠ .unmanaged)
  | .error _ => false

/-- The step assigns the deadline of this Codex for good. An assignment that the operation
takes back behind a failed commit is none; one behind which the Host stops is. -/
def assigns (config : Config) (world : World) (label : Label) (codexID : String) : Bool :=
  let m := world.manager
  match label.operation with
  | .create id _ _ _ => decide (id = codexID)
  | .importSession id _ _ _ _ _ => decide (id = codexID)
  | .setRunning call => decide (call.codexID = codexID)
  | .renew id =>
      decide (id = codexID) && managed m id &&
        (label.crash.isSome || stays (renewLease config m id label.now label.storage).2)
  | .unmanage id requestID =>
      decide (id = codexID) && managed m id && (label.crash.isSome ||
        stays (unmanageCodex config m id requestID label.now label.storage).2)
  | .sweep id =>
      decide (id = codexID) && sweepEnds config m id label.now &&
        (label.crash.isSome || stays (sweepLease config m id label.now label.storage).2)
  | .restore id _ _ _ =>
      decide (id = codexID) && (m.events.disk.codexes id).any fun row =>
        decide (row.managementState = .unspecified)
  | _ => false

/-- Why the lease of a Codex with this view may change to another. -/
inductive Reason (config : Config) (world : World) (label : Label) (codexID : String)
    (view : CurrentView) (lease : Lease) : Lease → Prop
  | kept : Reason config world label codexID view lease lease
  | started (call : Call) (operation : label.operation = .setRunning call)
      (accepted : call ∈ world.calls) (named : call.codexID = codexID)
      (assigned : assigns config world label codexID = true) :
      Reason config world label codexID view lease
        ⟨.managed, label.now + config.leaseDuration, 0⟩
  | renewed (operation : label.operation = .renew codexID) (managed : lease.state ≠ .unmanaged)
      (assigned : assigns config world label codexID = true) :
      Reason config world label codexID view lease
        ⟨.managed, label.now + config.leaseDuration, 0⟩
  | unmanaged (requestID : String) (operation : label.operation = .unmanage codexID requestID)
      (free : manualUnmanageBusy view = false)
      (assigned : assigns config world label codexID = true) :
      Reason config world label codexID view lease unmanagedLease
  | swept (operation : label.operation = .sweep codexID) (elapsed : lease.deadline ≤ label.now)
      (safe : automaticUnmanageSafe view = true)
      (assigned : assigns config world label codexID = true) :
      Reason config world label codexID view lease unmanagedLease
  | expiring (operation : label.operation = .sweep codexID) (managed : lease.state ≠ .unmanaged)
      (positive : 0 < lease.deadline) (warned : Int)
      (kept : lease.warned = lease.deadline → warned = lease.deadline) :
      Reason config world label codexID view lease ⟨.expiringSoon, lease.deadline, warned⟩

/-- No warning is committed. -/
def Silent (config : Config) (world : World) (label : Label) : Prop :=
  ∀ codexID, warns config world label codexID = false

/-- A warning is committed of no other Codex, and of this one only for a deadline that was
not warned of, which is then remembered. -/
structure Once (config : Config) (world : World) (label : Label) (codexID : String)
    (lease changed : Lease) : Prop where
  first : warns config world label codexID = true → lease.warned ≠ lease.deadline ∧
    changed.warned = lease.deadline ∧ changed.deadline = lease.deadline
  others : ∀ other, other ≠ codexID → warns config world label other = false

/-- The database has come to show this lease of one Codex; the other rows are as they
were. -/
structure Stores (m : Manager) (disk : Disk) (codexID : String) (lease : Lease) : Prop where
  row : RowShows disk codexID lease
  others : ∀ other, other ≠ codexID → disk.codexes other = m.events.disk.codexes other

theorem stores_of_sets {stored : Lease} (sets : Sets m next codexID memory stored) :
    Stores m next.events.disk codexID stored :=
  ⟨sets.row, fun other distinct => (sets.others other distinct).2.2⟩

/-- What a step does to the leases. -/
inductive Effect (config : Config) (world : World) (label : Label) : Manager → Prop
  | same (next : Manager) (views : next.byID = world.manager.byID)
      (markers : next.warningDeadline = world.manager.warningDeadline)
      (rows : next.events.disk.codexes = world.manager.events.disk.codexes)
      (silent : Silent config world label) : Effect config world label next
  | sets (codexID : String) (view : CurrentView) (lease changed : Lease) (next : Manager)
      (remembered : world.manager.byID codexID = some view)
      (settled : Settled world.manager codexID lease) (shows : Shows view codexID lease)
      (reason : Reason config world label codexID view lease changed)
      (set : Sets world.manager next codexID changed changed)
      (once : Once config world label codexID lease changed) : Effect config world label next
  | created (codexID : String) (next : Manager) (named : codexID ≠ "")
      (unknown : world.manager.byID codexID = none)
      (absent : world.manager.events.disk.codexes codexID = none)
      (set : Sets world.manager next codexID ⟨.managed, label.now + config.leaseDuration, 0⟩
        ⟨.managed, label.now + config.leaseDuration, 0⟩)
      (assigned : assigns config world label codexID = true)
      (silent : Silent config world label) : Effect config world label next
  | restored (codexID : String) (row : CodexRecord) (next : Manager)
      (stored : world.manager.events.disk.codexes codexID = some row)
      (set : Sets world.manager next codexID (rowLease (leased config label.now row))
        (rowLease (leased config label.now row)))
      (assigned : row.managementState = .unspecified →
        assigns config world label codexID = true)
      (silent : Silent config world label) : Effect config world label next
  | dropped (codexID : String) (next : Manager) (view : next.byID codexID = none)
      (row : next.events.disk.codexes codexID = none)
      (others : ∀ other, other ≠ codexID → next.byID other = world.manager.byID other ∧
        next.warningDeadline other = world.manager.warningDeadline other ∧
        next.events.disk.codexes other = world.manager.events.disk.codexes other)
      (silent : Silent config world label) : Effect config world label next
  | restarted (next : Manager) (views : next.byID = fun _ => none)
      (rows : next.events.disk.codexes = world.manager.events.disk.codexes)
      (silent : Silent config world label) : Effect config world label next
  | crashed (codexID : String) (view : CurrentView) (lease changed : Lease) (disk : Disk)
      (next : Manager) (remembered : world.manager.byID codexID = some view)
      (settled : Settled world.manager codexID lease) (shows : Shows view codexID lease)
      (reason : Reason config world label codexID view lease changed)
      (stored : Stores world.manager disk codexID changed)
      (once : Once config world label codexID lease changed) (views : next.byID = fun _ => none)
      (rows : next.events.disk.codexes = disk.codexes) : Effect config world label next

/-- Memory, row and stored view of every Codex in memory agree on a lease. -/
structure Aligned (m : Manager) : Prop where
  rows : ∀ codexID row, m.events.disk.codexes codexID = some row → Own row codexID
  memory : ∀ codexID view, m.byID codexID = some view →
    ∃ lease, Settled m codexID lease ∧ Shows view codexID lease

theorem rowShows_own (shows : RowShows disk codexID lease) :
    ∃ row, disk.codexes codexID = some row ∧ Own row codexID ∧ rowLease row = lease := by
  obtain ⟨row, durable, present, named, leased, encoded, shown⟩ := shows
  refine ⟨row, present, ⟨named, ?_⟩, leased⟩
  intro view codex decoded found
  rw [encoded] at decoded
  cases decoded
  obtain ⟨other, again, identified, -⟩ := shown.codex
  cases found.symm.trans again
  exact identified

/-- What a settled Codex is seen by has not changed. -/
theorem settled_frame (settled : Settled m codexID lease)
    (views : next.byID codexID = m.byID codexID)
    (markers : next.warningDeadline codexID = m.warningDeadline codexID)
    (rows : next.events.disk.codexes codexID = m.events.disk.codexes codexID) :
    Settled next codexID lease := by
  refine ⟨?_, markers.trans settled.marker, ?_, fun _ _ => ⟨rfl, rfl, rfl⟩⟩
  · simpa only [views] using settled.view
  · simpa only [RowShows, rows] using settled.row

/-- One settled Codex beside others that were aligned. -/
theorem Aligned.sets (aligned : Aligned m) (sets : Sets m next codexID lease lease) :
    Aligned next := by
  constructor
  · intro other row present
    by_cases same : other = codexID
    · subst same
      obtain ⟨found, again, own, -⟩ := rowShows_own sets.row
      cases present.symm.trans again
      exact own
    · rw [(sets.others other same).2.2] at present
      exact aligned.rows other row present
  · intro other view remembered
    by_cases same : other = codexID
    · subst same
      obtain ⟨found, again, shows⟩ := sets.view
      cases remembered.symm.trans again
      exact ⟨lease, sets.settled, shows⟩
    · obtain ⟨views, markers, rows⟩ := sets.others other same
      rw [views] at remembered
      obtain ⟨old, settled, shows⟩ := aligned.memory other view remembered
      exact ⟨old, settled_frame settled views markers rows, shows⟩

theorem Aligned.unchanged (aligned : Aligned m) (views : next.byID = m.byID)
    (markers : next.warningDeadline = m.warningDeadline)
    (rows : next.events.disk.codexes = m.events.disk.codexes) : Aligned next := by
  refine ⟨rows ▸ aligned.rows, ?_⟩
  intro codexID view remembered
  rw [views] at remembered
  obtain ⟨lease, settled, shows⟩ := aligned.memory codexID view remembered
  exact ⟨lease, settled_frame settled (congrFun views _) (congrFun markers _) (congrFun rows _),
    shows⟩

theorem Aligned.dropped (aligned : Aligned m) (view : next.byID codexID = none)
    (row : next.events.disk.codexes codexID = none)
    (others : ∀ other, other ≠ codexID → next.byID other = m.byID other ∧
      next.warningDeadline other = m.warningDeadline other ∧
      next.events.disk.codexes other = m.events.disk.codexes other) : Aligned next := by
  constructor
  · intro other found present
    by_cases same : other = codexID
    · subst same
      rw [row] at present
      cases present
    · rw [(others other same).2.2] at present
      exact aligned.rows other found present
  · intro other found remembered
    by_cases same : other = codexID
    · subst same
      rw [view] at remembered
      cases remembered
    · obtain ⟨views, markers, rows⟩ := others other same
      rw [views] at remembered
      obtain ⟨lease, settled, shows⟩ := aligned.memory other found remembered
      exact ⟨lease, settled_frame settled views markers rows, shows⟩

/-- Only rows are left. -/
theorem Aligned.rowsOnly (views : next.byID = fun _ => none)
    (rows : ∀ codexID row, next.events.disk.codexes codexID = some row → Own row codexID) :
    Aligned next := by
  refine ⟨rows, ?_⟩
  intro codexID view remembered
  rw [views] at remembered
  cases remembered

section Steps

variable {config : Config} {world : World} {label : Label} {codexID : String}

/-- A change for which no warning is committed. -/
theorem Once.silent (silent : Silent config world label) :
    Once config world label codexID lease changed := by
  constructor
  · intro warned
    rw [silent] at warned
    cases warned
  · exact fun other _ => silent other

/-- Only sweeps warn. -/
theorem silent_of_operation (other : ∀ codexID, label.operation ≠ .sweep codexID) :
    Silent config world label := by
  intro codexID
  unfold warns
  split
  · next id sweeps => exact absurd sweeps (other id)
  · rfl

/-- A sweep warns of its own Codex only. -/
theorem warns_others (config : Config) (world : World)
    (operation : label.operation = .sweep codexID) (other : String) (distinct : other ≠ codexID) :
    warns config world label other = false := by
  simp [warns, operation, distinct.symm]

/-- An operation on one Codex: nothing happens without its view, and with it the lease
changes for a reason. -/
theorem Effect.onCodex (codexID : String) (aligned : Aligned world.manager) (next : Manager)
    (absent : world.manager.byID codexID = none →
      next = world.manager ∧ Silent config world label)
    (present : ∀ view lease, world.manager.byID codexID = some view →
      Settled world.manager codexID lease → Shows view codexID lease →
      ∃ changed, Reason config world label codexID view lease changed ∧
        Sets world.manager next codexID changed changed ∧
        Once config world label codexID lease changed) : Effect config world label next := by
  cases remembered : world.manager.byID codexID with
  | none =>
    obtain ⟨rfl, silent⟩ := absent remembered
    exact .same _ rfl rfl rfl silent
  | some view =>
    obtain ⟨lease, settled, shows⟩ := aligned.memory codexID view remembered
    obtain ⟨changed, reason, set, once⟩ := present view lease remembered settled shows
    exact .sets codexID view lease changed next remembered settled shows reason set once

/-- An operation on one Codex that leaves the lease alone. -/
theorem Effect.onKept (codexID : String) (aligned : Aligned world.manager) (next : Manager)
    (silent : Silent config world label)
    (absent : world.manager.byID codexID = none → next = world.manager)
    (present : ∀ view lease, world.manager.byID codexID = some view →
      Settled world.manager codexID lease → Shows view codexID lease →
      Sets world.manager next codexID lease lease) : Effect config world label next := by
  refine Effect.onCodex codexID aligned next (fun unknown => ⟨absent unknown, silent⟩) ?_
  intro view lease remembered settled shows
  exact ⟨lease, .kept, present view lease remembered settled shows, .silent silent⟩

theorem known_state (found : known m codexID = .ok (view, codex))
    (shows : Shows view codexID lease) : codex.managementState = lease.state := by
  obtain ⟨other, present, -, state, -⟩ := shows.codex
  cases (known_codex found).symm.trans present
  exact state

theorem managed_of_settled (remembered : m.byID codexID = some view)
    (shows : Shows view codexID lease) (leased : lease.state ≠ .unmanaged) :
    managed m codexID = true := by
  obtain ⟨codex, found, -, state, -⟩ := known_eq remembered shows
  simp [managed, found, state, leased]

section

variable (aligned : Aligned world.manager) (storage : Stored label)
include aligned storage

theorem renew_effect (operation : label.operation = .renew codexID) :
    Effect config world label
      (renewLease config world.manager codexID label.now label.storage).1 := by
  have silent : Silent config world label := silent_of_operation (by simp [operation])
  refine Effect.onCodex codexID aligned _
    (fun absent => ⟨by simp [renewLease, known_none absent], silent⟩) ?_
  intro view lease remembered settled shows
  obtain kept | ⟨leased, took, renewed⟩ := renewLease_sets config settled remembered shows
    storage.writes label.now storage.rewrites
  · exact ⟨lease, .kept, kept, .silent silent⟩
  · have assigned : assigns config world label codexID = true := by
      simp [assigns, operation, managed_of_settled remembered shows leased, took]
    exact ⟨_, .renewed operation leased assigned, renewed, .silent silent⟩

theorem unmanage_effect (operation : label.operation = .unmanage codexID requestID) :
    Effect config world label
      (unmanageCodex config world.manager codexID requestID label.now label.storage).1 := by
  have silent : Silent config world label := silent_of_operation (by simp [operation])
  refine Effect.onCodex codexID aligned _ (fun absent => ⟨?_, silent⟩) ?_
  · simp only [unmanageCodex, known_none absent]
    split <;> rfl
  intro view lease remembered settled shows
  obtain kept | ⟨leased, free, took, ended⟩ := unmanageCodex_sets config settled remembered
    shows storage.writes requestID label.now storage.rewrites
  · exact ⟨lease, .kept, kept, .silent silent⟩
  · have assigned : assigns config world label codexID = true := by
      simp [assigns, operation, managed_of_settled remembered shows leased, took]
    exact ⟨_, .unmanaged requestID operation free assigned, ended, .silent silent⟩

theorem sweep_effect (operation : label.operation = .sweep codexID) (runs : label.crash = none) :
    Effect config world label
      (sweepLease config world.manager codexID label.now label.storage).1 := by
  have same : warns config world label codexID =
      sweepWarns config world.manager codexID label.now label.storage := by
    simp [warns, operation, runs]
  have others := warns_others config world operation
  have quiet : sweepWarns config world.manager codexID label.now label.storage = false →
      Silent config world label := by
    intro silent other
    by_cases named : other = codexID
    · rw [named, same, silent]
    · exact others other named
  refine Effect.onCodex codexID aligned _ (fun absent =>
    ⟨by simp [sweepLease, known_none absent],
      quiet (by simp [sweepWarns, known_none absent])⟩) ?_
  intro view lease remembered settled shows
  obtain ⟨silent, kept⟩ | ⟨silent, ends, took, elapsed, safe, ended⟩ |
      ⟨managed, positive, warned, expiring, again, first⟩ :=
    sweepLease_sets config settled remembered shows storage.writes label.now storage.rewrites
  · exact ⟨lease, .kept, kept, .silent (quiet silent)⟩
  · have assigned : assigns config world label codexID = true := by
      simp [assigns, operation, ends, took]
    exact ⟨_, .swept operation elapsed safe assigned, ended, .silent (quiet silent)⟩
  · refine ⟨_, .expiring operation managed positive warned fun done => (again done).1, expiring,
      ?_, others⟩
    intro committed
    rw [same] at committed
    refine ⟨?_, first committed, rfl⟩
    intro done
    rw [(again done).2] at committed
    cases committed

theorem setRunning_effect (operation : label.operation = .setRunning call)
    (accepted : call ∈ world.calls) :
    Effect config world label (setRunning config world.manager call.codexID call.turnID
      call.requestID label.now label.storage.writes label.storage.commit
      label.storage.second).1 := by
  have silent : Silent config world label := silent_of_operation (by simp [operation])
  refine Effect.onCodex call.codexID aligned _
    (fun absent => ⟨by simp [setRunning, absent], silent⟩) ?_
  intro view lease remembered settled shows
  exact ⟨_, .started call operation accepted rfl (by simp [assigns, operation]),
    setRunning_sets config settled remembered shows storage.writes call.turnID call.requestID
      label.now, .silent silent⟩

end

/-- Memory, rows and the marker are what the registration leaves of them. -/
theorem save_effect (session : Session) (access : Option WorkspaceAccessState)
    (fresh : world.Fresh codex.codexId) (assigned : assigns config world label codex.codexId = true)
    (silent : Silent config world label)
    (leased : savedLease codex = ⟨.managed, label.now + config.leaseDuration, 0⟩) :
    Effect config world label (saveCodex config world.manager codex session access label.now
      label.storage.writes).1 := by
  obtain unchanged | ⟨-, set⟩ := saveCodex_sets config world.manager codex session access
    label.now label.storage.writes
  · rw [unchanged]
    exact .same _ rfl rfl rfl silent
  · obtain ⟨named, -, unknown, absent⟩ := fresh
    exact .created codex.codexId _ named (isNone_iff_eq_none.mp unknown)
      (isNone_iff_eq_none.mp absent) (leased ▸ set) assigned silent

/-- Forgetting a Codex removes it everywhere, or leaves everything it can be seen by. -/
theorem forget_effect (storage : Stored label)
    (operation : label.operation = .forget codexID requestID records) :
    Effect config world label (forgetCodex world.manager codexID requestID label.now records
      label.storage.commit.outcome label.storage.commit.answers).1 := by
  have silent : Silent config world label := silent_of_operation (by simp [operation])
  have deletes := storage.deletes codexID requestID records operation
  obtain ⟨events, error, result, same | ⟨unnoticed, -⟩⟩ |
      ⟨events, view, codex, found, -, result, removed, -⟩ :=
    forgetCodex_cases world.manager codexID requestID label.now records
      label.storage.commit.outcome label.storage.commit.answers
  · rw [result]
    exact .same _ rfl rfl (congrArg Disk.codexes same) silent
  · exact absurd unnoticed deletes
  rw [result]
  refine .dropped codexID _ (update_self ..) ?_ ?_ silent
  · exact (congrArg (fun disk => disk.codexes codexID) removed).trans (update_self ..)
  intro other distinct
  exact ⟨update_of_ne distinct _ _, update_of_ne distinct _ _,
    (congrArg (fun disk => disk.codexes other) removed).trans
      (update_of_ne distinct _ _)⟩

end Steps

section Crashes

variable {m during : Manager} {codexID : String} {memory stored lease changed : Lease}
  {view snapshot : CurrentView}

theorem lifecyclePoints_stores (settled : Settled m codexID lease)
    (after : Shows snapshot codexID changed) (writes : storage.writes = true)
    (member : disk ∈ lifecyclePoints config m codexID requestID now snapshot changed.warned
      storage) : Stores m disk codexID changed := by
  obtain ⟨codex, present, named, -⟩ := after.codex
  obtain ⟨persisted, done, written⟩ := (Sets.mark settled changed.warned).persist snapshot after
  have published := (written.remember snapshot after).publishCodex config codex requestID now
    storage.commit named
  simp only [lifecyclePoints, writes, done, present, mem_cons, not_mem_nil, or_false] at member
  obtain rfl | rfl := member
  · exact stores_of_sets written
  · exact stores_of_sets published

theorem storedPoints_stores (events : List Event) (storage : Storage)
    (sets : Sets m during codexID memory stored) (shows : Shows view codexID lease)
    (named : ∀ event ∈ events, event.codexId = codexID) (writes : storage.writes = true)
    (disk : Disk) (member : disk ∈ storedPoints during view events storage) :
    Stores m disk codexID { lease with warned := memory.warned } := by
  obtain ⟨persisted, done, written⟩ := sets.persist view shows
  simp only [storedPoints, writes, done, mem_cons, List.mem_map] at member
  obtain rfl | ⟨event, listed, rfl⟩ := member
  · exact stores_of_sets written
  · exact stores_of_sets (written.publish event view storage.commit (named event listed) shows)

/-- Cut short, a sweep has stored what it planned. -/
theorem sweepPoints_stores (settled : Settled m codexID lease)
    (remembered : m.byID codexID = some view) (shows : Shows view codexID lease)
    (writes : storage.writes = true) (rewrites : storage.rewrites = true)
    (member : disk ∈ sweepPoints config m codexID now storage) :
    (lease.deadline ≤ now ∧ automaticUnmanageSafe view = true ∧
        sweepEnds config m codexID now = true ∧
        sweepWarns config m codexID now storage = false ∧
        Stores m disk codexID unmanagedLease) ∨
      lease.state ≠ .unmanaged ∧ 0 < lease.deadline ∧
        (sweepWarns config m codexID now storage = true → lease.warned ≠ lease.deadline) ∧
        Stores m disk codexID ⟨.expiringSoon, lease.deadline, lease.deadline⟩ := by
  obtain ⟨codex, found, -, state, deadline⟩ := known_eq remembered shows
  simp only [sweepPoints, sweepWarns, sweepEnds, found, settled.marker] at member ⊢
  cases planned : sweepPlan config view codex lease.warned now with
  | none => simp [planned] at member
  | some plan =>
    simp only [planned, mem_append] at member ⊢
    obtain ⟨elapsed, safe, ended, marker, due⟩ | ⟨managed, positive, expiring, marker, due⟩ :=
      sweepPlan_cases shows state deadline planned
    · refine .inl ⟨elapsed, safe, decide_eq_true ended, ?_, ?_⟩
      · split
        · simp [due]
        · rfl
      · obtain early | late := member
        · rw [marker] at early
          exact lifecyclePoints_stores settled ended writes early
        · split at late <;> simp [due] at late
    · refine .inr ⟨managed, positive, ?_, ?_⟩
      · split
        · intro committed
          exact due.mp (by simp_all)
        · nofun
      · rw [marker] at member
        obtain early | late := member
        · exact lifecyclePoints_stores settled expiring writes early
        have announced := announceLifecycle_sets config "" now
          (if plan.due then 0 else plan.marker) plan.due settled shows expiring writes rewrites
          (by intro done; simp [done, marker])
        rw [marker] at announced
        generalize announceLifecycle config m codexID "" now view plan.snapshot _ _ _ _
          storage = answer at announced late
        obtain ⟨last, outcome⟩ := answer
        cases outcome with
        | error error => cases late
        | ok _ =>
          obtain ⟨-, done⟩ | ⟨error, failed, -⟩ := announced
          · dsimp only at late
            split at late
            · obtain rfl := mem_singleton.mp late
              exact stores_of_sets (done.publish
                (warningEvent codexID now codex.managedUntilUnixMs) plan.snapshot
                storage.second rfl expiring)
            · cases late
          · cases failed

end Crashes

section Runs

variable {config : Config} {world next : World} {label : Label}

section

variable (aligned : Aligned world.manager) (storage : Stored label)
include aligned storage

/-- Whatever an operation does to the leases when it runs to its end. -/
theorem perform_effect (runs : label.crash = none)
    (performed : perform config world label.operation label.now label.storage = some next) :
    Effect config world label next.manager := by
  have performs := perform_performs performed
  generalize operation : label.operation = op at performs
  -- Only a sweep warns.
  have silent : (∀ id, op ≠ .sweep id) → Silent config world label :=
    fun other => silent_of_operation (operation ▸ other)
  cases performs with
  | create codexID session access requestID fresh =>
    rw [save_manager]
    exact save_effect session access fresh (by simp [assigns, operation, createdCodex])
      (silent (by simp)) rfl
  | importSession codexID session origin created access requestID fresh =>
    rw [save_manager]
    exact save_effect session access fresh
      (by simp [assigns, operation, importedCodex, createdCodex]) (silent (by simp)) rfl
  | announce codex requestID saved =>
    refine Effect.onKept codex.codexId aligned _ (silent (by simp)) ?_ ?_
    · intro absent
      simp [publishCodex, absent]
    · intro view lease _ settled _
      exact Sets.publishCodex settled config codex requestID label.now label.storage.commit rfl
  | startTurn codexID requestID parts answer =>
    rw [startTurn_manager]
    exact .same _ rfl rfl rfl (silent (by simp))
  | setRunning call accepted waits =>
    rw [setRunning_manager]
    exact setRunning_effect aligned storage operation accepted
  | userMessage call accepted running =>
    refine Effect.onKept call.codexID aligned _ (silent (by simp)) ?_ ?_
    · intro absent
      simp [publishAcceptedUserMessage, known_none absent]
    · intro view lease remembered settled shows
      exact publishAcceptedUserMessage_sets config settled remembered shows storage.writes
        call.turnID call.requestID call.parts label.now
  | workspace codexID state =>
    refine Effect.onKept codexID aligned _ (silent (by simp)) ?_ ?_
    · intro absent
      simp [commitWorkspaceState, known_none absent]
    · intro view lease remembered settled shows
      exact commitWorkspaceState_sets state label.now label.storage settled remembered shows
  | notify event =>
    have silent := silent (by simp)
    cases thread : world.manager.byThread event.threadID with
    | none => refine .same _ ?_ ?_ ?_ silent <;> simp [applyAdapterEventLocked, thread]
    | some codexID =>
      refine Effect.onKept codexID aligned _ silent ?_ ?_
      · intro absent
        simp [applyAdapterEventLocked, thread, absent]
      · intro view lease remembered settled shows
        exact applyAdapterEventLocked_sets config settled remembered shows storage.writes
          label.now thread
  | resolve codexID pendingID resolved requestID saves =>
    refine Effect.onKept codexID aligned _ (silent (by simp)) ?_ ?_
    · intro absent
      simp only [put_manager, resolvePending, absent]
      split <;> rfl
    · intro view lease remembered settled shows
      exact resolvePending_sets config settled remembered shows storage.writes pendingID requestID
        resolved label.now saves
  | renew codexID => exact renew_effect aligned storage operation
  | unmanage codexID requestID => exact unmanage_effect aligned storage operation
  | sweep codexID => exact sweep_effect aligned storage operation runs
  | rename codexID title requestID =>
    refine Effect.onKept codexID aligned _ (silent (by simp)) ?_ ?_
    · intro absent
      simp only [put_manager, renameCodex, known_none absent]
      split <;> rfl
    · intro view lease remembered settled shows
      exact renameCodex_sets config settled remembered shows storage.writes title requestID
        label.now
  | forget codexID requestID records => exact forget_effect storage operation
  | restore codexID owner read access row stored =>
    rw [put_manager, storage.writes]
    obtain unchanged | set := restoreCodex_sets config world.manager label.now owner read
      label.storage.reads access (aligned.rows codexID row stored)
    · rw [unchanged]
      exact .same _ rfl rfl rfl (silent (by simp))
    · refine .restored codexID row _ stored set ?_ (silent (by simp))
      intro first
      simp [assigns, operation, stored, first]
  | watch codexID after queue =>
    exact .same _ rfl rfl (congrArg Disk.codexes (watch_disk_kept ..)) (silent (by simp))
  | read codexID =>
    exact .same _ rfl rfl (congrArg Disk.codexes (currentView_disk_kept ..)) (silent (by simp))
  | restart replayCapacity => exact .restarted _ rfl rfl (silent (by simp))

/-- Whatever an operation leaves in the database when the Host stops in it. -/
theorem crash_effect (crashes : label.crash.isSome = true)
    (performed : perform config world label.operation label.now label.storage = some next)
    (member : disk ∈ interruptions config world.manager label.operation label.now label.storage)
    {after : Manager} (views : after.byID = fun _ => none)
    (rows : after.events.disk.codexes = disk.codexes) : Effect config world label after := by
  have crash : ∀ codexID view, world.manager.byID codexID = some view →
      (∀ lease, Settled world.manager codexID lease → Shows view codexID lease →
        ∃ changed, Reason config world label codexID view lease changed ∧
          Stores world.manager disk codexID changed ∧
          Once config world label codexID lease changed) →
      Effect config world label after := by
    intro codexID view remembered changes
    obtain ⟨lease, settled, shows⟩ := aligned.memory codexID view remembered
    obtain ⟨changed, reason, stored, once⟩ := changes lease settled shows
    exact .crashed codexID view lease changed disk after remembered settled shows reason stored
      once views rows
  have performs := perform_performs performed
  generalize operation : label.operation = op at performs member
  -- Only a sweep warns.
  have silent : (∀ id, op ≠ .sweep id) → ∀ {codexID lease changed},
      Once config world label codexID lease changed :=
    fun other => .silent (silent_of_operation (operation ▸ other))
  cases performs with
  | setRunning call accepted waits =>
    simp only [interruptions] at member
    split at member
    · cases member
    next view remembered =>
    refine crash call.codexID view remembered fun lease settled shows => ?_
    exact ⟨_, .started call operation accepted rfl (by simp [assigns, operation]),
      storedPoints_stores _ label.storage (Sets.mark settled 0)
      (runningView_shows config call.turnID label.now _ shows)
      (by simp) storage.writes disk member, silent nofun⟩
  | userMessage call accepted running =>
    simp only [interruptions] at member
    split at member
    · cases member
    next view codex found =>
    refine crash call.codexID view (known_remembered found) fun lease settled shows => ?_
    have kept : Shows (acceptedView label.now call.turnID
      (acceptedItem config.sizes config.contentBudget call.turnID call.parts) view)
        call.codexID lease := shows
    exact ⟨lease, .kept, storedPoints_stores [] label.storage settled kept (by simp)
      storage.writes disk member, silent nofun⟩
  | notify event =>
    simp only [interruptions] at member
    split at member
    · cases member
    next codexID thread =>
    split at member
    · cases member
    next old remembered =>
    split at member
    · cases member
    next view published applied =>
    refine crash codexID old remembered fun lease settled shows => ?_
    exact ⟨lease, .kept, storedPoints_stores [published] label.storage settled
      (applyEvent_shows shows applied)
      (by simpa using applyEvent_codexId applied) storage.writes disk member, silent nofun⟩
  | resolve codexID pendingID resolved requestID saves =>
    cases saves with
    | false => cases member
    | true =>
      simp only [interruptions] at member
      split at member
      · cases member
      next view remembered =>
      refine crash codexID view remembered fun lease settled shows => ?_
      exact ⟨lease, .kept, storedPoints_stores [] label.storage settled
        (resolvedView_shows config pendingID label.now shows) (by simp) storage.writes disk
        member, silent nofun⟩
  | renew codexID =>
    obtain ⟨draft, drafted, member⟩ := mem_draftPoints.mp member
    obtain ⟨view, codex, found, managed, rfl⟩ := draft_renew drafted
    refine crash codexID view (known_remembered found) fun lease settled shows => ?_
    have renewed : Shows (renewedView label.now (label.now + config.leaseDuration) view) codexID
        ⟨.managed, label.now + config.leaseDuration, 0⟩ :=
      shows.onCodex _ ⟨.managed, _, 0⟩ (fun _ => rfl) (fun _ _ => rfl) fun _ _ => rfl
    have state := known_state found shows
    have assigned : assigns config world label codexID = true := by
      simp [assigns, operation, crashes,
        managed_of_settled (known_remembered found) shows (state ▸ managed)]
    exact ⟨_, .renewed operation (state ▸ managed) assigned, lifecyclePoints_stores settled renewed
      storage.writes member, silent nofun⟩
  | unmanage codexID requestID =>
    obtain ⟨draft, drafted, member⟩ := mem_draftPoints.mp member
    obtain ⟨view, codex, found, leased, notBusy, rfl⟩ := draft_unmanage drafted
    refine crash codexID view (known_remembered found) fun lease settled shows => ?_
    have assigned : assigns config world label codexID = true := by
      simp [assigns, operation, crashes, managed_of_settled (known_remembered found) shows
        (known_state found shows ▸ leased)]
    exact ⟨_, .unmanaged requestID operation notBusy assigned, lifecyclePoints_stores settled
      (unmanagedFrom_shows label.now shows) storage.writes member, silent nofun⟩
  | sweep codexID =>
    cases remembered : world.manager.byID codexID with
    | none => simp [interruptions, sweepPoints, known_none remembered] at member
    | some view =>
      refine crash codexID view remembered fun lease settled shows => ?_
      have only : warns config world label codexID = true →
          sweepWarns config world.manager codexID label.now label.storage = true := by
        simp only [warns, operation, decide_true, Bool.true_and, Bool.and_eq_true]
        exact And.left
      have others := warns_others config world operation
      obtain ⟨elapsed, safe, ends, silent, ended⟩ | ⟨managed, positive, first, expiring⟩ :=
        sweepPoints_stores settled remembered shows storage.writes storage.rewrites member
      · refine ⟨_, .swept operation elapsed safe (by simp [assigns, operation, crashes, ends]),
          ended, ?_, others⟩
        intro committed
        rw [only committed] at silent
        cases silent
      · exact ⟨_, .expiring operation managed positive lease.deadline fun _ => rfl, expiring,
          fun committed => ⟨first (only committed), rfl, rfl⟩, others⟩
  | rename codexID title requestID =>
    simp only [interruptions] at member
    split at member
    · cases member
    next view codex found =>
    split at member
    · cases member
    refine crash codexID view (known_remembered found) fun lease settled shows => ?_
    have renamed := shows.renamed (known_codex found) (text (trimSpace title)) label.now
    exact ⟨lease, .kept, storedPoints_stores [] label.storage (Sets.frame settled
        { world.manager with manualTitle := update world.manager.manualTitle codexID true }
        rfl rfl rfl) renamed (by simp) storage.writes disk member,
      silent nofun⟩
  | _ => cases member

theorem step_effect (stepped : step config world label = some next) :
    Effect config world label next.manager := by
  unfold step at stepped
  split at stepped
  · cases stepped
  · next performed runs =>
    cases stepped
    exact perform_effect aligned storage runs performed
  · next performed crashes =>
    obtain ⟨disk, listed, rfl⟩ := map_eq_some_iff.mp stepped
    exact crash_effect aligned storage (by simp [crashes]) performed (mem_of_getElem? listed)
      rfl rfl

theorem step_aligned (stepped : step config world label = some next) : Aligned next.manager := by
  have effect := step_effect aligned storage stepped
  generalize next.manager = after at effect
  cases effect with
  | same _ views markers rows => exact aligned.unchanged views markers rows
  | sets _ _ _ _ _ _ _ _ _ set | created _ _ _ _ _ set | restored _ _ _ _ set =>
    exact aligned.sets set
  | dropped _ _ view row others => exact aligned.dropped view row others
  | restarted _ views rows => exact Aligned.rowsOnly views (rows ▸ aligned.rows)
  | crashed codexID view lease changed disk _ _ _ _ _ stored _ views rows =>
    refine Aligned.rowsOnly views ?_
    rw [rows]
    intro other row present
    by_cases same : other = codexID
    · subst same
      obtain ⟨found, again, own, -⟩ := rowShows_own stored.row
      cases present.symm.trans again
      exact own
    · rw [stored.others other same] at present
      exact aligned.rows other row present

end

end Runs

/-- The lease of a Codex as clients see it: the one in memory, or of a Codex that is not
restored yet the row's. -/
def shown (m : Manager) (codexID : String) : Option Lease :=
  match m.byID codexID with
  | some view => view.codex.map fun codex =>
      ⟨codex.managementState, codex.managedUntilUnixMs, m.warningDeadline codexID⟩
  | none => (m.events.disk.codexes codexID).map rowLease

theorem Aligned.shown_eq (aligned : Aligned m) (codexID : String) :
    shown m codexID = (m.events.disk.codexes codexID).map rowLease := by
  unfold shown
  split
  · next view remembered =>
    obtain ⟨lease, settled, shows⟩ := aligned.memory codexID view remembered
    obtain ⟨row, present, -, leased⟩ := rowShows_own settled.row
    obtain ⟨codex, found, -, state, deadline⟩ := shows.codex
    simp [present, leased, found, state, deadline, settled.marker]
  · rfl

theorem Aligned.shown_row (aligned : Aligned m) (shows : RowShows m.events.disk codexID lease) :
    shown m codexID = some lease := by
  obtain ⟨row, present, -, leased⟩ := rowShows_own shows
  rw [aligned.shown_eq, present, map_some, leased]

/-- What a step does to one Codex, as clients see its lease. -/
inductive Change (config : Config) (world : World) (label : Label) (next : World)
    (codexID : String) : Prop
  | kept (same : shown next.manager codexID = shown world.manager codexID)
      (silent : warns config world label codexID = false)
  | reasoned (view : CurrentView) (lease changed : Lease)
      (remembered : world.manager.byID codexID = some view) (shows : Shows view codexID lease)
      (was : shown world.manager codexID = some lease)
      (is : shown next.manager codexID = some changed)
      (reason : Reason config world label codexID view lease changed)
      (once : Once config world label codexID lease changed)
  | created (was : shown world.manager codexID = none)
      (is : shown next.manager codexID = some ⟨.managed, label.now + config.leaseDuration, 0⟩)
      (assigned : assigns config world label codexID = true)
      (silent : warns config world label codexID = false)
  | leased (lease : Lease) (was : shown world.manager codexID = some lease)
      (first : lease.state = .unspecified)
      (is : shown next.manager codexID = some ⟨.managed, label.now + config.leaseDuration, 0⟩)
      (assigned : assigns config world label codexID = true)
      (silent : warns config world label codexID = false)
  | dropped (is : shown next.manager codexID = none)
      (silent : warns config world label codexID = false)

section Changes

variable {config : Config} {world next : World} {label : Label}

/-- Every step changes the lease of a Codex in one of these ways. The cases of `Effect` are
read at one Codex: the one that is touched, or another. -/
theorem step_change (aligned : Aligned world.manager) (storage : Stored label)
    (stepped : step config world label = some next) (codexID : String) :
    Change config world label next codexID := by
  have effect := step_effect aligned storage stepped
  have after := step_aligned aligned storage stepped
  have untouched : next.manager.events.disk.codexes codexID =
      world.manager.events.disk.codexes codexID →
      shown next.manager codexID = shown world.manager codexID := by
    intro same
    rw [after.shown_eq, aligned.shown_eq, same]
  generalize named : next.manager = manager at effect
  cases effect with
  | same _ _ _ rows silent | restarted _ _ rows silent =>
    exact .kept (untouched (by rw [named, rows])) (silent codexID)
  | sets id view lease changed _ remembered settled shows reason set once =>
    subst named
    by_cases touched : codexID = id
    · subst touched
      exact .reasoned view lease changed remembered shows (aligned.shown_row settled.row)
        (after.shown_row set.row) reason once
    · exact .kept (untouched (set.others codexID touched).2.2) (once.others codexID touched)
  | created id _ _ _ absent set assigned silent =>
    subst named
    by_cases touched : codexID = id
    · subst touched
      refine .created ?_ (after.shown_row set.row) assigned (silent codexID)
      rw [aligned.shown_eq, absent, map_none]
    · exact .kept (untouched (set.others codexID touched).2.2) (silent codexID)
  | restored id row _ stored set assigned silent =>
    subst named
    by_cases touched : codexID = id
    · subst touched
      have was : shown world.manager codexID = some (rowLease row) := by
        rw [aligned.shown_eq, stored, map_some]
      have is := after.shown_row set.row
      by_cases first : row.managementState = .unspecified
      · refine .leased (rowLease row) was first ?_ (assigned first) (silent codexID)
        rw [is]
        simp [leased, first, rowLease]
      · refine .kept ?_ (silent codexID)
        rw [is, was]
        simp [leased, first]
    · exact .kept (untouched (set.others codexID touched).2.2) (silent codexID)
  | dropped id _ _ row others silent =>
    subst named
    by_cases touched : codexID = id
    · subst touched
      refine .dropped ?_ (silent codexID)
      rw [after.shown_eq, row, map_none]
    · exact .kept (untouched (others codexID touched).2.2) (silent codexID)
  | crashed id view lease changed disk _ remembered settled shows reason stored once _ rows =>
    subst named
    by_cases touched : codexID = id
    · subst touched
      have written : RowShows next.manager.events.disk codexID changed := by
        simpa only [RowShows, rows] using stored.row
      exact .reasoned view lease changed remembered shows (aligned.shown_row settled.row)
        (after.shown_row written) reason once
    · refine .kept (untouched ?_) (once.others codexID touched)
      rw [rows, stored.others codexID touched]

end Changes

/-- A deadline is absent exactly from what is unmanaged. Rows from before leases say
nothing. -/
def Proper (lease : Lease) : Prop :=
  lease.state ≠ .unspecified → (lease.state = .unmanaged ↔ lease.deadline = 0)

/-- An aligned Manager all of whose leases are proper. -/
structure Lawful (m : Manager) : Prop extends Aligned m where
  proper : ∀ codexID lease, shown m codexID = some lease → Proper lease

theorem Reason.proper (reason : Reason config world label codexID view lease changed)
    (clock : 0 < label.now) (proper : Proper lease) : Proper changed := by
  cases reason with
  | kept => exact proper
  | started | renewed => simp [Proper]; omega
  | unmanaged | swept => simp [Proper, unmanagedLease]
  | expiring operation managed positive => simp [Proper]; omega

/-- One step keeps all leases lawful. -/
theorem step_lawful {next : World} (lawful : Lawful world.manager) (regular : Regular label)
    (stepped : step config world label = some next) : Lawful next.manager := by
  refine ⟨step_aligned lawful.toAligned regular.toStored stepped, ?_⟩
  intro codexID lease found
  have clock := regular.clock
  have fresh : Proper ⟨.managed, label.now + config.leaseDuration, 0⟩ := by
    simp [Proper]
    omega
  cases step_change lawful.toAligned regular.toStored stepped codexID with
  | kept same => exact lawful.proper codexID lease (same ▸ found)
  | reasoned view old changed _ _ was is reason =>
    cases found.symm.trans is
    exact reason.proper clock (lawful.proper codexID old was)
  | created _ is | leased _ _ _ is => exact some.inj (is.symm.trans found) ▸ fresh
  | dropped is =>
    rw [is] at found
    cases found

/-- A Host before its first restore: whatever is in the database is under its own id and
proper. -/
structure Start (world : World) : Prop where
  views : world.manager.byID = fun _ => none
  rows : ∀ codexID row, world.manager.events.disk.codexes codexID = some row →
    Own row codexID ∧ Proper (rowLease row)

/-- An operation that may end the management of a Codex: `UnmanageCodex` while the Codex
is not busy, or a sweep at or behind the deadline that finds it idle, with no turn and no
request open. -/
inductive Ends (world : World) (label : Label) (codexID : String) : Prop
  | unmanage (requestID : String) (view : CurrentView)
      (operation : label.operation = .unmanage codexID requestID)
      (remembered : world.manager.byID codexID = some view)
      (free : manualUnmanageBusy view = false)
  | sweep (view : CurrentView) (codex : Codex) (operation : label.operation = .sweep codexID)
      (remembered : world.manager.byID codexID = some view) (present : view.codex = some codex)
      (elapsed : codex.managedUntilUnixMs ≤ label.now) (idle : codex.status = .idle)
      (noTurn : codex.activeTurnId = "" ∧ view.activeTurn = none)
      (noRequest : view.pendingRequests = [])

/-- The accepted turn whose start a step completes. -/
def Starts (world : World) (label : Label) (codexID : String) : Prop :=
  ∃ call ∈ world.calls, label.operation = .setRunning call ∧ call.codexID = codexID

section Rules

variable {config : Config} {world next : World} {label : Label} {codexID : String}
  {view : CurrentView} {lease changed : Lease}

theorem safe_idle (safe : automaticUnmanageSafe view = true) :
    ∃ codex, view.codex = some codex ∧ codex.status = .idle ∧ codex.activeTurnId = "" ∧
      view.activeTurn = none ∧ view.pendingRequests = [] := by
  unfold automaticUnmanageSafe at safe
  split at safe
  · cases safe
  next codex present =>
  simp [manualUnmanageBusy, present] at safe
  obtain ⟨idle, ⟨⟨-, noTurnID⟩, noTurn⟩, noRequest⟩ := safe
  exact ⟨codex, present, idle, noTurnID, noTurn, noRequest⟩

theorem Reason.enters (reason : Reason config world label codexID view lease changed)
    (remembered : world.manager.byID codexID = some view) (shows : Shows view codexID lease)
    (before : lease.state ≠ .unmanaged) (after : changed.state = .unmanaged) :
    Ends world label codexID := by
  cases reason with
  | kept => exact absurd after before
  | started | renewed => cases after
  | unmanaged requestID operation free => exact .unmanage requestID view operation remembered free
  | swept operation elapsed safe =>
    obtain ⟨codex, present, idle, noTurnID, noTurn, noRequest⟩ := safe_idle safe
    obtain ⟨other, again, -, -, deadline⟩ := shows.codex
    cases present.symm.trans again
    exact .sweep view codex operation remembered present (deadline ▸ elapsed) idle
      ⟨noTurnID, noTurn⟩ noRequest
  | expiring => cases after

theorem Reason.leaves (reason : Reason config world label codexID view lease changed)
    (before : lease.state = .unmanaged) (after : changed.state ≠ .unmanaged) :
    Starts world label codexID := by
  cases reason with
  | kept => exact absurd before after
  | started call operation accepted named => exact ⟨call, accepted, operation, named⟩
  | renewed operation managed => exact absurd before managed
  | unmanaged | swept => exact absurd rfl after
  | expiring operation managed => exact absurd before managed

/-- The rules for one step. -/
structure Obeys (world : World) (label : Label) (next : World) (codexID : String) : Prop where
  leaves : ∀ before after, shown world.manager codexID = some before →
    shown next.manager codexID = some after → before.state = .unmanaged →
    after.state ≠ .unmanaged → Starts world label codexID
  enters : ∀ before after, shown world.manager codexID = some before →
    shown next.manager codexID = some after → before.state ≠ .unmanaged →
    after.state = .unmanaged → Ends world label codexID
  appears : ∀ after, shown world.manager codexID = none →
    shown next.manager codexID = some after → after.state ≠ .unmanaged

/-- A Codex whose row has not changed its lease. -/
theorem Obeys.same (same : shown next.manager codexID = shown world.manager codexID) :
    Obeys world label next codexID := by
  constructor
  · intro before after was is unmanaged managed
    cases was.symm.trans (same.symm.trans is)
    exact absurd unmanaged managed
  · intro before after was is managed unmanaged
    cases was.symm.trans (same.symm.trans is)
    exact absurd unmanaged managed
  · intro after was is
    rw [same, was] at is
    cases is

theorem Obeys.reason (reason : Reason config world label codexID view lease changed)
    (remembered : world.manager.byID codexID = some view) (shows : Shows view codexID lease)
    (was : shown world.manager codexID = some lease)
    (is : shown next.manager codexID = some changed) : Obeys world label next codexID := by
  constructor
  · intro before after wasThis isThis unmanaged managed
    cases wasThis.symm.trans was
    cases isThis.symm.trans is
    exact reason.leaves unmanaged managed
  · intro before after wasThis isThis managed unmanaged
    cases wasThis.symm.trans was
    cases isThis.symm.trans is
    exact reason.enters remembered shows managed unmanaged
  · intro after absent
    rw [was] at absent
    cases absent

theorem step_obeys (aligned : Aligned world.manager) (storage : Stored label)
    (stepped : step config world label = some next) (codexID : String) :
    Obeys world label next codexID := by
  cases step_change aligned storage stepped codexID with
  | kept same => exact Obeys.same same
  | reasoned view lease changed remembered shows was is reason =>
    exact Obeys.reason reason remembered shows was is
  | created was is =>
    refine ⟨fun _ _ found => ?_, fun _ _ found => ?_, fun after _ found => ?_⟩
    · rw [was] at found
      cases found
    · rw [was] at found
      cases found
    · cases is.symm.trans found
      nofun
  | leased lease was first is =>
    refine ⟨fun before _ found _ unmanaged => ?_, fun _ after _ found _ unmanaged => ?_,
      fun _ absent => ?_⟩
    · cases was.symm.trans found
      rw [first] at unmanaged
      cases unmanaged
    · cases is.symm.trans found
      cases unmanaged
    · rw [was] at absent
      cases absent
  | dropped is =>
    refine ⟨fun _ _ _ found => ?_, fun _ _ _ found => ?_, fun _ _ found => ?_⟩ <;>
      · rw [is] at found
        cases found

end Rules

theorem Start.lawful (start : Start world) : Lawful world.manager := by
  have aligned : Aligned world.manager :=
    Aligned.rowsOnly start.views fun codexID row present => (start.rows codexID row present).1
  refine ⟨aligned, ?_⟩
  intro codexID lease found
  rw [aligned.shown_eq] at found
  obtain ⟨row, present, rfl⟩ := map_eq_some_iff.mp found
  exact (start.rows codexID row present).2

/-- An event commit writes no column of the lease, and nothing into memory. -/
theorem publishEvent_shown (m : Manager) (event : Event) (view : CurrentView) (commit : Commit)
    (codexID : String) :
    shown (publishEvent m event view commit).1 codexID = shown m codexID := by
  have leases : ((publishEvent m event view commit).1.events.disk.codexes codexID).map rowLease =
      (m.events.disk.codexes codexID).map rowLease := by
    obtain same | ⟨old, seq, present, written⟩ := publish_disk m.events event view commit.now
      commit.marshals commit.outcome commit.answers commit.reloads
    · exact congrArg (fun disk : Disk => (disk.codexes codexID).map rowLease) same
    have disk : (publishEvent m event view commit).1.events.disk = m.events.disk.writeEvent
        commit.now event.codexId old seq (.readable { view with headEventSeq := seq }) := written
    rw [disk]
    by_cases own : codexID = event.codexId
    · subst own
      simp [Disk.writeEvent, present, rowLease]
    · rw [(writeEvent_other _ _ _ _ _ own).1]
  change (match m.byID codexID with
    | some view => view.codex.map fun codex =>
        (⟨codex.managementState, codex.managedUntilUnixMs, m.warningDeadline codexID⟩ : Lease)
    | none => _) = shown m codexID
  rw [leases]
  rfl

/-- The clock is positive, rows are written, and no announcement comes late: it commits the
view that memory still shows. -/
def Ordinary (world : Announcements.World) (label : Announcements.Label) : Prop :=
  Announcements.Timely world label ∧
    ∀ performed, label.onHost = some performed → Regular performed

/-- The rules for one step, with announcements in two steps. Neither of them is an operation
that may change a lease. -/
def Rules (world : Announcements.World) (label : Announcements.Label)
    (next : Announcements.World) (codexID : String) : Prop :=
  match label with
  | .host performed => Obeys world.host performed next.host codexID
  | .read .. | .commit .. => shown next.host.manager codexID = shown world.host.manager codexID

theorem step_rules {config : Config} {world next : Announcements.World}
    {label : Announcements.Label} (aligned : Aligned world.host.manager)
    (ordinary : Ordinary world label)
    (stepped : Announcements.step config world label = some next) (codexID : String) :
    Rules world label next codexID := by
  cases label with
  | host performed =>
    obtain ⟨host, taken, rfl⟩ := map_eq_some_iff.mp stepped
    exact step_obeys aligned (ordinary.2 performed rfl).toStored taken codexID
  | read codex requestID =>
    simp only [Announcements.step] at stepped
    split at stepped <;> cases stepped
    rfl
  | commit announcement now commit =>
    simp only [Announcements.step] at stepped
    split at stepped <;> cases stepped
    exact publishEvent_shown ..

/-- In every run of a Host whose clock is positive, whose rows can be written and whose
announcements do not come late, a lease has no deadline exactly when the Codex is unmanaged; a
Codex leaves that state only by a turn that the app-server accepted, and enters it only by
`UnmanageCodex` while it is not busy or by a sweep of an idle Codex at or behind its
deadline. -/
theorem unmanaged_rules (config : Config) (start last : Announcements.World)
    (labels : List Announcements.Label) (starts : Start start.host)
    (ordinary : Runs.Meets (Announcements.step config) Ordinary start labels)
    (ran : Runs.run (Announcements.step config) start labels = some last) :
    (∀ codexID lease, shown last.host.manager codexID = some lease →
      lease.state ≠ .unspecified → (lease.state = .unmanaged ↔ lease.deadline = 0)) ∧
    ∀ label next, Ordinary last label → Announcements.step config last label = some next →
      ∀ codexID, Rules last label next codexID := by
  have lawful : Lawful last.host.manager := by
    refine Runs.run_invariant (fun world => Lawful world.host.manager) ?_ starts.lawful ordinary
      ran
    intro world label next holds condition stepped
    exact Announcements.step_keeps config Lawful (fun _ performed => Regular performed)
      (fun _ _ _ => step_lawful) world next label holds condition.1 condition.2 stepped
  constructor
  · exact lawful.proper
  · intro label next condition stepped codexID
    exact step_rules lawful.toAligned condition stepped codexID

/-- A label whose storage calls succeed, other than a `ForgetCodex`. -/
theorem regular_of_stored (clock : 0 < label.now) (writes : label.storage.writes = true)
    (rewrites : label.storage.rewrites = true)
    (outcome : label.storage.commit.outcome = .committed) : Regular label :=
  ⟨⟨writes, rewrites, fun _ _ _ _ => by simp [outcome]⟩, clock⟩

def sampleCall : Call := { codexID := "cdx", turnID := "turn", requestID := "turn", parts := [] }

theorem sampleHost_start : Start sampleHost := by
  refine ⟨rfl, ?_⟩
  intro codexID row present
  simp [sampleHost, restartHost, withDisk, newStore, Disk.empty] at present

/-- A Codex is created and announced, given up and asked for a turn, which the app-server
accepts. -/
def sampleLife : List Announcements.Label :=
  Announcements.sampleReading ++ [.commit Announcements.sampleRead 6 {},
    .host { operation := .unmanage "cdx" "end", now := 7 },
    .host { operation := .startTurn "cdx" "turn" [] (some "turn"), now := 8 }]

def sampleStart : Label := { operation := .setRunning sampleCall, now := 9 }

/-- The Codex is unmanaged before the accepted turn starts and managed behind it. -/
theorem unmanaged_rules_started : ∃ last next before after,
    Runs.run (Announcements.step sampleConfig) ⟨sampleHost, []⟩ sampleLife = some last ∧
    Announcements.step sampleConfig last (.host sampleStart) = some next ∧
    shown last.host.manager "cdx" = some before ∧ before.state = .unmanaged ∧
    shown next.host.manager "cdx" = some after ∧ after.state = .managed ∧
    Starts last.host sampleStart "cdx" := by
  have timely : Runs.Meets (Announcements.step sampleConfig) Announcements.Timely
      ⟨sampleHost, []⟩ sampleLife := by decide +kernel
  have regular : ∀ label ∈ sampleLife, ∀ performed, label.onHost = some performed →
      Regular performed := by
    intro label member
    simp only [sampleLife, Announcements.sampleReading, sampleCreate, cons_append, nil_append,
      mem_cons, not_mem_nil, or_false] at member
    obtain rfl | rfl | rfl | rfl | rfl := member <;> rintro performed ⟨⟩ <;>
      exact regular_of_stored (by decide) rfl rfl rfl
  have states : (Runs.run (Announcements.step sampleConfig) ⟨sampleHost, []⟩ sampleLife).map
      (fun last => (shown last.host.manager "cdx",
        (Announcements.step sampleConfig last (.host sampleStart)).map fun next =>
          shown next.host.manager "cdx")) =
      some (some ⟨.unmanaged, 0, 0⟩, some (some ⟨.managed, 19, 0⟩)) := by
    decide +kernel
  obtain ⟨last, ran, both⟩ := map_eq_some_iff.mp states
  obtain ⟨was, stepped⟩ := Prod.mk.inj both
  obtain ⟨next, taken, is⟩ := map_eq_some_iff.mp stepped
  refine ⟨last, next, _, _, ran, taken, was, rfl, is, rfl, ?_⟩
  have rules := (unmanaged_rules sampleConfig ⟨sampleHost, []⟩ last sampleLife sampleHost_start
    (Runs.meets_and _ _ _ _ _ timely (Runs.meets_of_forall _ _ regular)) ran).2 (.host sampleStart)
    next ⟨trivial, by rintro performed ⟨⟩; exact regular_of_stored (by decide) rfl rfl rfl⟩ taken
    "cdx"
  exact rules.leaves _ _ was is rfl nofun

/-- The access state behind a new file. -/
def advancedAccess : WorkspaceAccessState :=
  { sampleAccess with generation := 2, quiescenceToken := "r", observedAtUnixMs := 9 }

/-- A workspace commit that does not take place, and whose outcome nobody knows. -/
def lostCommit (now : Int) : Announcements.Label :=
  .host { operation := .workspace "cdx" advancedAccess, now := now
          storage := { commit := { outcome := .unknown false } } }

/-- The Codex is given up while its announcement has read the view and not committed it. -/
def sampleOvertaken : List Announcements.Label :=
  Announcements.sampleReading ++ [.host { operation := .unmanage "cdx" "end", now := 6 },
    .commit Announcements.sampleRead 7 {}]

/-- The late announcement has stored the old lease again, and a workspace commit of unknown
outcome takes the stored view over: the Codex is managed without a turn. -/
theorem late_announcement_renews_lease : ∃ last next,
    Start sampleHost ∧
    Runs.run (Announcements.step sampleConfig) ⟨sampleHost, []⟩ sampleOvertaken = some last ∧
    Announcements.step sampleConfig last (lostCommit 8) = some next ∧
    shown last.host.manager "cdx" = some ⟨.unmanaged, 0, 0⟩ ∧
    shown next.host.manager "cdx" = some ⟨.managed, 15, 0⟩ ∧
    ¬ Rules last (lostCommit 8) next "cdx" := by
  have states : (Runs.run (Announcements.step sampleConfig) ⟨sampleHost, []⟩ sampleOvertaken).map
      (fun last => (shown last.host.manager "cdx",
        (Announcements.step sampleConfig last (lostCommit 8)).map fun next =>
          shown next.host.manager "cdx")) =
      some (some ⟨.unmanaged, 0, 0⟩, some (some ⟨.managed, 15, 0⟩)) := by
    decide +kernel
  obtain ⟨last, ran, both⟩ := map_eq_some_iff.mp states
  obtain ⟨was, stepped⟩ := Prod.mk.inj both
  obtain ⟨next, taken, is⟩ := map_eq_some_iff.mp stepped
  refine ⟨last, next, sampleHost_start, ran, taken, was, is, ?_⟩
  intro rules
  obtain ⟨call, -, operation, -⟩ := rules.leaves _ _ was is rfl nofun
  cases operation

end CodexRemote.Host
