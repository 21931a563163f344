import CodexRemote.Effects

/-!
# Where a Codex sits

The source, the thread and the logical owner of a Codex stand in several places: in the tables of
the Manager, in the columns of its row and, as for the thread, in the view that is stored in the
row. Here is what each operation does to them.

Most operations leave the tables alone. They write a row, if at all, from the tables, and they may
store a view of the thread that the tables have. A registration and a restore seat a Codex; the
end of a Codex takes its seat away. `Frame` and `RowsFrom` are for the first kind, `Seated` for
the second.
-/
namespace CodexRemote.Host

open Protocol Persistence Activity Budget Codexes Leases Function List Option
open Option (map_eq_some_iff map_some)

variable {view : CurrentView} {row : CodexRecord} {now : Int} {owner : String} {read : ThreadRead}
  {plan : RestorePlan}

/-- Source, thread and owner of a Codex. -/
structure Seat where
  source : String
  threadID : String
  owner : String
  deriving DecidableEq

/-- The thread of a view's Codex. -/
def viewThread (view : CurrentView) : Option String := view.codex.map Codex.threadId

/-- The thread that the tables have for a registered Codex. -/
def threadIn (m : Manager) (codexID : String) : Option String :=
  (m.byID codexID).bind viewThread

def seatAt (m : Manager) (codexID threadID : String) : Seat :=
  ⟨normalizeSessionSource (m.sources codexID), threadID, m.logicalOwners codexID⟩

/-- The seat of a registered Codex. -/
def seat (m : Manager) (codexID : String) : Option Seat :=
  (threadIn m codexID).map (seatAt m codexID)

/-- The seat that the columns of a row show. -/
def rowSeat (row : CodexRecord) : Seat :=
  ⟨normalizeSessionSource row.sessionSource, row.threadID, row.logicalOwnerID⟩

/-- The thread that the stored view of a row shows. -/
def storedThread (row : CodexRecord) : Option String :=
  (unmarshalCurrentView row.currentViewJSON).bind viewThread

section Views

variable {m : Manager} {codexID : String} {place : Seat}

theorem viewThread_core (view : CurrentView) : viewThread view = (core view).1.map Prod.snd := by
  unfold viewThread core
  cases view.codex <;> rfl

theorem Edits.thread (edits : Edits old view) :
    viewThread view = viewThread old := by
  rw [viewThread_core, viewThread_core, edits]

theorem Edited.thread (edited : Edited m codexID view) : viewThread view = threadIn m codexID := by
  obtain ⟨old, remembered, edits⟩ := edited
  rw [edits.thread, threadIn, remembered, bind_some]

theorem threadIn_of_seat (sits : seat m codexID = some place) :
    threadIn m codexID = some place.threadID := by
  obtain ⟨threadID, found, rfl⟩ := map_eq_some_iff.mp sits
  exact found

theorem seat_congr (shown : threadIn n codexID = threadIn m codexID)
    (source : n.sources codexID = m.sources codexID)
    (owner : n.logicalOwners codexID = m.logicalOwners codexID) :
    seat n codexID = seat m codexID := by
  have same : seatAt n codexID = seatAt m codexID := by
    funext threadID
    simp only [seatAt, source, owner]
  rw [seat, seat, shown, same]

theorem seat_eq_none : seat m codexID = none ↔ threadIn m codexID = none := map_eq_none_iff

end Views

/-- The row that `persistState` writes, and what it leaves alone. -/
theorem persistState_seat {next : Manager} (done : persistState n view writes = some next) :
    ∃ codex row, view.codex = some codex ∧
      next.events.disk.codexes codex.codexId = some row ∧
      rowSeat row = seatAt n codex.codexId codex.threadId ∧
      row.managementState = codex.managementState ∧ row.currentViewJSON = .readable view ∧
      ∀ other, other ≠ codex.codexId →
        next.events.disk.codexes other = n.events.disk.codexes other := by
  unfold persistState at done
  split at done
  · cases done
  next codex present =>
  split at done <;> cases done
  obtain ⟨created, written⟩ := upsertCodex_written n.events.disk (stateRecord n view codex)
  refine ⟨codex, _, present, written, ?_, rfl, rfl, ?_⟩
  · simp [rowSeat, seatAt, stateRecord, recordFromCodex, normalizeSessionSource_idem]
  · intro other distinct
    exact update_of_ne distinct _ _

/-! ## The operations that leave the tables alone -/

/-- Registry and lookup tables are as they were. -/
structure Frame (m n : Manager) : Prop where
  sources : n.sources = m.sources
  owners : n.logicalOwners = m.logicalOwners
  threads : n.byThread = m.byThread
  sessions : n.bySession = m.bySession
  shown : ∀ codexID, threadIn n codexID = threadIn m codexID

/-- A row comes from the one that was there, perhaps with a view of the registered thread, or was
written from the tables. -/
def RowFrom (m : Manager) (codexID : String) (row : CodexRecord) : Prop :=
  (∃ old, m.events.disk.codexes codexID = some old ∧ rowSeat row = rowSeat old ∧
    row.managementState = old.managementState ∧
    (storedThread row = storedThread old ∨ storedThread row = threadIn m codexID)) ∨
  seat m codexID = some (rowSeat row) ∧ storedThread row = threadIn m codexID

/-- The rows of a database come from those of the Manager, and none is lost. -/
structure RowsFrom (m : Manager) (disk : Disk) : Prop where
  rows : ∀ codexID row, disk.codexes codexID = some row → RowFrom m codexID row
  kept : ∀ codexID row, m.events.disk.codexes codexID = some row →
    ∃ after, disk.codexes codexID = some after

/-- A view of the registered Codex on its thread. -/
structure OfThread (m : Manager) (codexID : String) (view : CurrentView) : Prop where
  registered : (m.byID codexID).isSome = true
  named : Names codexID view
  thread : viewThread view = threadIn m codexID

section Frames

variable {m n : Manager} {codexID : String}

theorem Acts.ofThread (acts : Acts (Edited m) m n) (filed : Filed m) : Acts (OfThread m) m n := by
  refine acts.mono ?_
  intro id view edited
  have registered : (m.byID id).isSome = true := by
    obtain ⟨old, remembered, -⟩ := edited
    simp [remembered]
  exact ⟨registered, Edited.names filed id view edited, edited.thread⟩

theorem Frame.seat_eq (frame : Frame m n) (codexID : String) : seat n codexID = seat m codexID :=
  seat_congr (frame.shown codexID) (congrFun frame.sources codexID) (congrFun frame.owners codexID)

theorem Acts.frame (acts : Acts (OfThread m) m n) : Frame m n := by
  induction acts with
  | start => exact ⟨rfl, rfl, rfl, rfl, fun _ => rfl⟩
  | tables _ _ _ _ ih => exact { ih with }
  | @remember n id view allowed _ ih =>
    refine { ih with shown := ?_ }
    intro codexID
    by_cases same : codexID = id
    · subst same
      simpa [threadIn, Manager.remember] using allowed.thread
    · simpa [threadIn, Manager.remember, update_of_ne same] using ih.shown codexID
  | persist _ done _ ih =>
    obtain ⟨events, rfl⟩ := persistState_events done
    exact { ih with }
  | publish _ _ _ _ ih | reload _ _ _ ih | watch _ _ _ _ _ ih | read _ _ _ ih => exact { ih with }

theorem RowsFrom.refl (m : Manager) : RowsFrom m m.events.disk :=
  ⟨fun _ row present => .inl ⟨row, present, rfl, rfl, .inl rfl⟩,
    fun _ row present => ⟨row, present⟩⟩

/-- A row that gets a view of the registered thread. -/
theorem RowFrom.commit (rowFrom : RowFrom m codexID row) (view : CurrentView)
    (thread : viewThread view = threadIn m codexID) (seq : Nat) (now : Int) :
    RowFrom m codexID { row with
      currentViewJSON := .readable { view with headEventSeq := seq }
      lastActivityAtUnixMS := now } := by
  rcases rowFrom with ⟨old, present, same, state, -⟩ | ⟨sits, -⟩
  · exact .inl ⟨old, present, same, state, .inr thread⟩
  · exact .inr ⟨sits, thread⟩

/-- An event that is published with a view of the registered thread. -/
theorem publishEvent_rowsFrom (before : RowsFrom m n.events.disk)
    (thread : viewThread view = threadIn m event.codexId) (commit : Commit) :
    RowsFrom m (publishEvent n event view commit).1.events.disk := by
  constructor
  · intro codexID row found
    obtain same | ⟨rfl, old, seq, present, written⟩ :=
      publishEvent_codexes n event view commit codexID
    · exact before.rows codexID row (same ▸ found)
    · cases written.symm.trans found
      exact (before.rows _ old present).commit view thread seq commit.now
  · intro codexID row found
    obtain same | ⟨rfl, old, seq, present, written⟩ :=
      publishEvent_codexes n event view commit codexID
    · rw [same]
      exact before.kept codexID row found
    · exact ⟨_, written⟩

/-- Proof: induction on the actions. A row is written from tables that have not changed. -/
theorem Acts.rowsFrom (acts : Acts (OfThread m) m n) : RowsFrom m n.events.disk := by
  induction acts with
  | start => exact RowsFrom.refl m
  | tables _ _ _ _ ih | remember _ _ ih => exact ih
  | @persist n next id view answers allowed done before ih =>
    obtain ⟨codex, row, present, written, seated, -, encoded, others⟩ := persistState_seat done
    have named : codex.codexId = id := allowed.named codex present
    have thread := allowed.thread
    have frame := before.frame
    have stored : storedThread row = viewThread view := by simp [storedThread, encoded,
      unmarshalCurrentView]
    constructor
    · intro codexID found shown
      by_cases same : codexID = codex.codexId
      · subst same
        cases written.symm.trans shown
        refine .inr ⟨?_, stored.trans (named ▸ thread)⟩
        have shownThread : threadIn m codex.codexId = some codex.threadId := by
          rw [named, ← thread, viewThread, present, map_some]
        rw [seat, shownThread, map_some, seated]
        simp only [seatAt, frame.sources, frame.owners]
      · exact ih.rows codexID found (others codexID same ▸ shown)
    · intro codexID found shown
      by_cases same : codexID = codex.codexId
      · exact ⟨row, same ▸ written⟩
      · rw [others codexID same]
        exact ih.kept codexID found shown
  | publish event commit allowed _ ih => exact publishEvent_rowsFrom ih allowed.thread commit
  | reload reloads _ _ ih =>
    rw [reload_disk]
    exact ih
  | watch id after queue answers _ ih =>
    rw [watch_disk_kept]
    exact ih
  | read id answers _ ih =>
    rw [currentView_disk_kept]
    exact ih

/-- Every Codex that is registered was so before, in the same seat, and the rows come from those
that were there. -/
structure Stays (m n : Manager) : Prop where
  seats : ∀ codexID place, seat n codexID = some place → seat m codexID = some place
  rows : ∀ codexID row, n.events.disk.codexes codexID = some row → RowFrom m codexID row

theorem Acts.stays (acts : Acts (OfThread m) m n) : Stays m n := by
  refine ⟨?_, acts.rowsFrom.rows⟩
  intro codexID place sits
  exact acts.frame.seat_eq codexID ▸ sits

/-- Behind a restart nothing is registered. -/
theorem restartHost_stays (filed : Filed m) (stops : Stops (Edited m) m disk) (replayCapacity : Int) :
    Stays m (restartHost (withDisk m disk) replayCapacity) := by
  obtain ⟨n, acts, rfl⟩ := stops
  refine ⟨?_, (acts.ofThread filed).rowsFrom.rows⟩
  intro codexID place sits
  have nothing : seat (restartHost (withDisk m n.events.disk) replayCapacity) codexID = none := rfl
  cases nothing.symm.trans sits

/-- Proof: a forget that fails changes the event store at most; one that succeeds takes the Codex
out of the tables. -/
theorem forgetCodex_stays (m : Manager) (id requestID : String) (now : Int) (records : Bool)
    (outcome : CommitOutcome) (answers : Bool) :
    Stays m (forgetCodex m id requestID now records outcome answers).1 := by
  have rows : ∀ disk : Disk, (disk = m.events.disk ∨ disk = m.events.disk.remove id) →
      ∀ codexID row, disk.codexes codexID = some row → RowFrom m codexID row := by
    rintro disk (rfl | rfl) codexID row present
    · exact (RowsFrom.refl m).rows codexID row present
    · exact (RowsFrom.refl m).rows codexID row (remove_codexes present)
  obtain ⟨events, error, same, disk⟩ | ⟨events, view, codex, found, -, same, removed, -⟩ :=
    forgetCodex_cases m id requestID now records outcome answers
  · rw [same]
    exact ⟨fun _ _ sits => sits, rows events.disk (disk.imp_right And.right)⟩
  rw [same]
  refine ⟨?_, rows events.disk (.inr removed)⟩
  intro codexID place sits
  by_cases is : codexID = id
  · subst is
    have gone : threadIn ({ m with events := events }.drop codexID codex.threadId) codexID =
        none := by
      simp [threadIn, Manager.drop]
    cases (seat_eq_none.mpr gone).symm.trans sits
  · rw [← sits]
    refine (seat_congr ?_ ?_ ?_).symm
    · simp [threadIn, Manager.drop, update_of_ne is]
    · exact update_of_ne is _ _
    · exact update_of_ne is _ _

/-- The operations that seat nobody and read no stored view back into memory. -/
def Operation.staying : Operation → Bool
  | .forget .. | .restart _ => true
  | operation => operation.plain

theorem step_stays {next : World} (filed : Filed world.manager)
    (staying : label.operation.staying = true) (stepped : step config world label = some next) :
    Stays world.manager next.manager := by
  unfold step at stepped
  split at stepped
  · cases stepped
  · next performed _ =>
    cases stepped
    have performs := perform_performs performed
    cases operation : label.operation with
    | forget id requestID records =>
      rw [operation] at performs
      cases performs
      exact forgetCodex_stays ..
    | restart replayCapacity =>
      rw [operation] at performs
      cases performs
      exact restartHost_stays filed ⟨_, .start, rfl⟩ replayCapacity
    | _ =>
      refine ((perform_edits performs ?_).ofThread filed).stays
      rw [operation] at staying ⊢
      exact staying
  · obtain ⟨disk, at_point, rfl⟩ := map_eq_some_iff.mp stepped
    exact restartHost_stays filed (interruptions_edits _ _ disk (mem_of_getElem? at_point)) _

end Frames

/-! ## The operations that seat a Codex -/

/-- The Codex has this seat, in memory at least; the other Codexes are left alone. -/
structure Seated (m n : Manager) (codexID : String) (place : Seat) : Prop where
  seat : seat n codexID = some place
  others : ∀ other, other ≠ codexID → Host.seat n other = Host.seat m other
  rows : ∀ other, other ≠ codexID →
    n.events.disk.codexes other = m.events.disk.codexes other
  row : n.events.disk.codexes codexID = m.events.disk.codexes codexID ∨
    ∃ row, n.events.disk.codexes codexID = some row ∧ rowSeat row = place ∧
      storedThread row = some place.threadID

section Seating

variable {config : Config} {m : Manager}

/-- A registration that succeeds. -/
theorem saveCodex_seated (codex : Codex) (session : Session) (state : WorkspaceAccessState)
    (now : Int) :
    let n := (saveCodex config m codex session (some state) now true).1
    let place : Seat := ⟨normalizeSessionSource session.source, codex.threadId, session.ownerID⟩
    Seated m n codex.codexId place ∧
      n.byThread = update m.byThread codex.threadId (some codex.codexId) ∧
      n.bySession = update m.bySession (sessionKey session.source codex.threadId)
        (some codex.codexId) ∧
      ∃ row, n.events.disk.codexes codex.codexId = some row ∧ rowSeat row = place ∧
        storedThread row = some place.threadID := by
  intro n place
  have edits := edits_bound config.sizes config.contentBudget
    { codex := some codex, workspaceAccessState := some state, generatedAtUnixMs := now }
  have thread : viewThread (boundCurrentView config.sizes config.contentBudget
      { codex := some codex, workspaceAccessState := some state, generatedAtUnixMs := now }) =
        some codex.threadId := edits.thread
  have written : ∃ row, n.events.disk.codexes codex.codexId = some row ∧ rowSeat row = place ∧
      storedThread row = some place.threadID := by
    obtain ⟨created, written⟩ := upsertCodex_written m.events.disk
      { recordFromCodex codex session.source with
        logicalOwnerID := session.ownerID
        currentViewJSON := .readable (boundCurrentView config.sizes config.contentBudget
          { codex := some codex, workspaceAccessState := some state, generatedAtUnixMs := now }) }
    refine ⟨_, written, ?_, thread⟩
    simp [rowSeat, recordFromCodex, place, normalizeSessionSource_idem]
  refine ⟨⟨?_, ?_, ?_, .inr written⟩, rfl, ?_, written⟩
  · have shown : threadIn n codex.codexId = some codex.threadId := by
      simp only [threadIn, n, saveCodex, update_self, bind_some]
      exact thread
    rw [seat, shown, map_some]
    simp [seatAt, n, saveCodex, place, normalizeSessionSource_idem]
  · intro other distinct
    refine seat_congr ?_ ?_ ?_
    · simp [threadIn, n, saveCodex, update_of_ne distinct]
    · exact update_of_ne distinct _ _
    · exact update_of_ne distinct _ _
  · intro other distinct
    exact update_of_ne distinct _ _
  · simp [n, saveCodex, sessionKey, normalizeSessionSource_idem]

theorem saveCodex_refused (codex : Codex) (session : Session) (now : Int)
    (refused : access = none ∨ writes = false) :
    (saveCodex config m codex session access now writes).1 = m := by
  cases access with
  | none => rfl
  | some state =>
    cases writes with
    | false => rfl
    | true => cases refused with
      | inl absent => cases absent
      | inr failed => cases failed

/-- The Codex, the session and the access state of a registration. -/
def Operation.registers :
    Operation → Option (String × Session × Option WorkspaceAccessState)
  | .create codexID session access _ => some (codexID, session, access)
  | .importSession codexID session _ _ access _ => some (codexID, session, access)
  | _ => none

section Registrations

variable {world next : World} {label : Label} {codexID : String} {session : Session}
  {access : Option WorkspaceAccessState}

section

variable (registers : label.operation.registers = some (codexID, session, access))
  (stepped : step config world label = some next)
include registers stepped

/-- A registration saves a Codex under a fresh id. -/
theorem step_registers :
    world.Fresh codexID ∧ ∃ codex, codex.codexId = codexID ∧
      codex.threadId = session.threadID ∧ codex.codexId ∈ next.issued ∧
      next.manager = (saveCodex config world.manager codex session access label.now
        label.storage.writes).1 := by
  have issued : ∀ codex requestID, codex.codexId ∈ (world.save config codex session access
      requestID label.now label.storage).issued := by
    intro codex requestID
    unfold World.save
    split <;> exact mem_cons_self
  unfold step at stepped
  split at stepped
  · cases stepped
  · next performed _ =>
    cases stepped
    have performs := perform_performs performed
    cases operation : label.operation with
    | create =>
      rw [operation] at performs registers
      cases registers
      cases performs with
      | create _ _ _ _ fresh => exact ⟨fresh, _, rfl, rfl, issued _ _, save_manager ..⟩
    | importSession =>
      rw [operation] at performs registers
      cases registers
      cases performs with
      | importSession _ _ _ _ _ _ fresh => exact ⟨fresh, _, rfl, rfl, issued _ _, save_manager ..⟩
    | _ =>
      rw [operation] at registers
      cases registers
  · obtain ⟨disk, at_point, -⟩ := map_eq_some_iff.mp stepped
    have plain := interruptions_plain (mem_of_getElem? at_point)
    cases operation : label.operation <;> simp_all [Operation.registers, Operation.plain]

/-- A registration seats the Codex of a fresh id and writes its row, or is refused. -/
theorem step_registered :
    next.manager = world.manager ∨
      world.Fresh codexID ∧
      Seated world.manager next.manager codexID
        ⟨normalizeSessionSource session.source, session.threadID, session.ownerID⟩ ∧
      label.storage.writes = true ∧
      next.manager.byThread =
        update world.manager.byThread session.threadID (some codexID) ∧
      next.manager.bySession = update world.manager.bySession
        (sessionKey session.source session.threadID) (some codexID) ∧
      ∃ row, next.manager.events.disk.codexes codexID = some row ∧
        rowSeat row =
          ⟨normalizeSessionSource session.source, session.threadID, session.ownerID⟩ ∧
        storedThread row = some session.threadID := by
  obtain ⟨fresh, codex, rfl, thread, -, manager⟩ := step_registers registers stepped
  rw [manager]
  by_cases refused : access = none ∨ label.storage.writes = false
  · exact .inl (saveCodex_refused codex session label.now refused)
  obtain ⟨given, written⟩ := not_or.mp refused
  obtain ⟨state, rfl⟩ := ne_none_iff_exists'.mp given
  have writes : label.storage.writes = true := by simpa using written
  rw [writes, ← thread]
  obtain ⟨seated, threads, sessions, row⟩ := saveCodex_seated codex session state label.now
  exact .inr ⟨fresh, seated, rfl, threads, sessions, row⟩

end

end Registrations

/-- The seat a plan gives. -/
def planSeat (plan : RestorePlan) : Seat := rowSeat plan.record

/-- The end of a restore. -/
theorem finishRestore_seated (access : WorkspaceAccessState) (writes : Bool)
    (named : Names plan.record.codexID plan.view)
    (thread : viewThread plan.view = some plan.record.threadID) :
    let n := (finishRestore m plan access writes).1
    let dropped := m.dropThread plan.record.codexID plan.dropped
    Seated m n plan.record.codexID (planSeat plan) ∧
      n.byThread = update dropped.byThread plan.record.threadID
        (some plan.record.codexID) ∧
      n.bySession = update dropped.bySession
        (sessionKey plan.record.sessionSource plan.record.threadID)
        (some plan.record.codexID) ∧
      (writes = true → ∃ row, n.events.disk.codexes plan.record.codexID = some row ∧
        rowSeat row = planSeat plan ∧ storedThread row = some row.threadID) := by
  intro n dropped
  obtain ⟨threads, sessions, same⟩ := dropThread_tables m plan.record.codexID plan.dropped
  let view : CurrentView := { plan.view with workspaceAccessState := some access }
  let registered := registerRestored dropped plan.record view
  have shown : viewThread view = some plan.record.threadID := thread
  have place : seatAt registered plan.record.codexID plan.record.threadID = planSeat plan := by
    simp [seatAt, registered, registerRestored, planSeat, rowSeat, normalizeSessionSource_idem]
  have seated : Host.seat registered plan.record.codexID = some (planSeat plan) := by
    have found : threadIn registered plan.record.codexID = some plan.record.threadID := by
      simpa [threadIn, registered, registerRestored] using shown
    rw [Host.seat, found, map_some, place]
  have others : ∀ other, other ≠ plan.record.codexID →
      Host.seat registered other = Host.seat m other := by
    intro other distinct
    refine seat_congr ?_ ?_ ?_
    · simp [threadIn, registered, registerRestored, update_of_ne distinct, dropped, same]
    · simp [registered, registerRestored, update_of_ne distinct, dropped, same]
    · simp [registered, registerRestored, update_of_ne distinct, dropped, same]
  have disk : registered.events.disk = m.events.disk := by
    simp [registered, registerRestored, dropped, same]
  have outcome : n = (persistState registered view writes).getD registered := by
    simp only [n, finishRestore]
    cases persistState registered view writes <;> rfl
  rw [outcome]
  cases persisted : persistState registered view writes with
  | none =>
    refine ⟨⟨seated, others, fun other _ => congrFun (congrArg Disk.codexes disk) other,
      .inl (congrFun (congrArg Disk.codexes disk) _)⟩, rfl, rfl, ?_⟩
    rintro rfl
    obtain ⟨codex, present, -⟩ := map_eq_some_iff.mp shown
    rw [persistState_done registered view codex present] at persisted
    cases persisted
  | some stored =>
    obtain ⟨codex, row, present, written, seats, -, encoded, rest⟩ := persistState_seat persisted
    have own : codex.codexId = plan.record.codexID := named codex present
    rw [own] at written seats rest
    have threadID : codex.threadId = plan.record.threadID := by
      simpa [viewThread, present] using shown
    have columns : rowSeat row = planSeat plan := by rw [seats, threadID, place]
    have kept : storedThread row = some plan.record.threadID := by
      simpa [storedThread, encoded, unmarshalCurrentView] using shown
    have column : row.threadID = plan.record.threadID := congrArg Seat.threadID columns
    obtain ⟨machine, rfl⟩ := persistState_events persisted
    refine ⟨⟨seated, others, ?_, .inr ⟨row, written, columns, kept⟩⟩, rfl, rfl, ?_⟩
    · intro other distinct
      exact (rest other distinct).trans (by rw [disk])
    · exact fun _ => ⟨row, written, columns, column ▸ kept⟩

theorem viewThread_noted (stored : Snapshot) (codex : Codex) (view : CurrentView) :
    viewThread (noteUnrecoverablePending stored codex view) = some codex.threadId := by
  unfold noteUnrecoverablePending
  split
  · rfl
  · dsimp only
    split <;> rfl

theorem viewThread_unmanaged (now : Int)
    (stored : ∀ threadID, storedThread row = some threadID → threadID = row.threadID) :
    viewThread (unmanagedView now row) = some row.threadID := by
  unfold unmanagedView
  cases decoded : unmarshalCurrentView row.currentViewJSON with
  | none => rfl
  | some view =>
    cases shown : view.codex with
    | none => simp [viewThread, shown, codexFromRecord]
    | some codex =>
      have thread : storedThread row = some codex.threadId := by
        simp [storedThread, decoded, viewThread, shown]
      rw [← stored codex.threadId thread]
      simp [viewThread, shown]

/-- What a row keeps when it gets an owner and a lease. -/
theorem preparedRow_columns (now : Int) (row : CodexRecord) (owner : String) :
    let r := preparedRow config now row owner
    r.logicalOwnerID = (if row.logicalOwnerID = "" then owner else row.logicalOwnerID) ∧
      r.sessionSource = row.sessionSource ∧ r.threadID = row.threadID ∧
      r.currentViewJSON = row.currentViewJSON ∧
      (r.managementState = .unmanaged ↔ row.managementState = .unmanaged) := by
  by_cases state : row.managementState = .unspecified <;> simp [preparedRow, leased, state]

/-- What a plan takes from its row. -/
theorem restorePlan_columns (planned : restorePlan config now row owner read reads = some plan) :
    plan.record.logicalOwnerID = (if row.logicalOwnerID = "" then owner else row.logicalOwnerID) ∧
      (plan.dropped = none →
        plan.record.sessionSource = row.sessionSource ∧ plan.record.threadID = row.threadID) ∧
      (row.managementState = .unmanaged → plan.dropped = none) ∧
      ∀ pair, plan.dropped = some pair →
        pair = (normalizeSessionSource row.sessionSource, row.threadID) := by
  obtain ⟨own, source, thread, -, state⟩ := preparedRow_columns now row owner
  have branch := restorePlan_branch planned
  generalize preparedRow config now row owner = r at branch own source thread state
  cases branch with
  | unmanaged | resumed | kept | unavailable =>
    exact ⟨own, fun _ => ⟨source, thread⟩, fun _ => rfl, nofun⟩
  | replaced answer managed =>
    refine ⟨own, nofun, fun unmanaged => absurd (state.mpr unmanaged) managed, ?_⟩
    rintro pair ⟨⟩
    rw [source, thread]

/-- The view of a plan is of the thread the plan registers. -/
theorem restorePlan_thread (stored : row.managementState = .unmanaged →
      ∀ threadID, storedThread row = some threadID → threadID = row.threadID)
    (planned : restorePlan config now row owner read reads = some plan) :
    viewThread plan.view = some plan.record.threadID := by
  obtain ⟨-, -, thread, view, state⟩ := preparedRow_columns now row owner
  have branch := restorePlan_branch planned
  generalize preparedRow config now row owner = r at branch thread view state
  cases branch with
  | unmanaged unmanaged =>
    refine viewThread_unmanaged now ?_
    rw [storedThread, view, thread]
    exact stored (state.mp unmanaged)
  | resumed thread =>
    refine (viewThread_noted ..).trans (congrArg some ?_)
    split <;> rfl
  | kept | replaced => rfl
  | unavailable => exact viewThread_noted ..

/-- The Manager behind the restore of a row. -/
theorem restore_step {next : World} (present : world.manager.events.disk.codexes codexID = some row)
    (planned : restorePlan config now row owner read storage.reads = some plan)
    (stepped : step config world
      { operation := .restore codexID owner read access, now := now, storage := storage } =
        some next) :
    next.manager = world.manager ∨ ∃ state,
      next.manager = (finishRestore world.manager plan state storage.writes).1 := by
  simp only [step, perform, present, map_some, some.injEq] at stepped
  subst stepped
  unfold restoreCodex
  rw [planned]
  cases access with
  | none => exact .inl rfl
  | some state => exact .inr ⟨state, rfl⟩

end Seating

end CodexRemote.Host
