import CodexRemote.Library.Runs
import CodexRemote.Lifecycle

/-!
# The rules of a lease

A Codex is managed until a deadline, or unmanaged with none. Three places hold the pair:
the view in memory, the columns of the row and the view stored in the row. An operation
writes them one after the other, and a failed event commit sends it back or stops it in
between, so the first half of this module follows the pair through an operation: `Sets`
says what memory and row show at each point, and that nothing else has changed.

At the end of an operation the three agree again. That is the invariant of the system of
all operations, and from it the rules follow: when a deadline is absent, and which
operations take a Codex into and out of the unmanaged state.

`publishCodex` at the end of `CreateCodex` and `ImportSession` runs outside the commit
lock. Its reading of memory and its commit are one step here.
-/
namespace CodexRemote.Leases

open Protocol Persistence Activity Budget Codexes Function

variable {view : CurrentView} {codexID : String} {row : CodexRecord} {storage : Storage}
  {config : Config} {now : Int}

/-- The management state of a Codex, its deadline, and the deadline that clients were
last warned of. -/
structure Lease where
  state : ManagementState
  deadline : Int
  warned : Int
  deriving DecidableEq

/-- Which Codex a view is of, with its state and deadline. -/
def face (view : CurrentView) : Option (String × ManagementState × Int) :=
  view.codex.map fun codex => (codex.codexId, codex.managementState, codex.managedUntilUnixMs)

def rowLease (row : CodexRecord) : Lease :=
  ⟨row.managementState, row.managedUntilUnixMS, row.warningDeadlineUnixMS⟩

/-- The view is of this Codex and shows this lease. No view shows the last warning. -/
def Shows (view : CurrentView) (codexID : String) (lease : Lease) : Prop :=
  face view = some (codexID, lease.state, lease.deadline)

variable {lease : Lease}

theorem Shows.codex (shows : Shows view codexID lease) :
    ∃ codex, view.codex = some codex ∧ codex.codexId = codexID ∧
      codex.managementState = lease.state ∧ codex.managedUntilUnixMs = lease.deadline := by
  obtain ⟨codex, present, same⟩ := Option.map_eq_some_iff.mp shows
  obtain ⟨named, rest⟩ := Prod.mk.inj same
  obtain ⟨state, deadline⟩ := Prod.mk.inj rest
  exact ⟨codex, present, named, state, deadline⟩

/-- No title is looked at. -/
theorem Shows.renamed {codex : Codex} (shows : Shows view codexID lease)
    (present : view.codex = some codex) (title : Text) (now : Int) :
    Shows { view with codex := some { codex with title := title }, generatedAtUnixMs := now }
      codexID lease := by
  simpa [Shows, face, present] using shows

/-- Clipping leaves the lease alone. -/
theorem face_of_bare (bare : after.codex.map bareCodex = view.codex.map bareCodex) :
    face after = face view := by
  have through : ∀ shown : CurrentView, face shown = (shown.codex.map bareCodex).map fun codex =>
        (codex.codexId, codex.managementState, codex.managedUntilUnixMs) := by
    intro shown
    cases codex : shown.codex <;> simp [face, codex, bareCodex]
  rw [through after, bare, ← through view]

theorem face_bound (config : Config) (view : CurrentView) :
    face (boundCurrentView config.sizes config.contentBudget view) = face view :=
  face_of_bare (boundCurrentView_keeps ..).codex

/-- A change of the Codex that keeps its id shows the changed lease. -/
theorem Shows.onCodex (shows : Shows view codexID lease) (change : Codex → Codex)
    (changed : Lease) (named : ∀ codex, (change codex).codexId = codex.codexId)
    (state : ∀ codex, codex.managementState = lease.state →
      (change codex).managementState = changed.state)
    (deadline : ∀ codex, codex.managedUntilUnixMs = lease.deadline →
      (change codex).managedUntilUnixMs = changed.deadline) :
    Shows (onCodex change view) codexID changed := by
  obtain ⟨codex, present, rfl, sameState, sameDeadline⟩ := shows.codex
  simp [Shows, face, Budget.onCodex, present, named, state codex sameState,
    deadline codex sameDeadline]

/-- The row of a Codex and the view stored in it show this lease. -/
def RowShows (disk : Disk) (codexID : String) (lease : Lease) : Prop :=
  ∃ row durable, disk.codexes codexID = some row ∧ row.codexID = codexID ∧
    rowLease row = lease ∧ row.currentViewJSON = .readable durable ∧
    Shows durable codexID lease

/-- From one Manager to the other, memory and row of one Codex have come to show these
leases, and every other Codex is as it was. -/
structure Sets (m next : Manager) (codexID : String) (memory stored : Lease) : Prop where
  view : ∃ view, next.byID codexID = some view ∧ Shows view codexID memory
  marker : next.warningDeadline codexID = memory.warned
  row : RowShows next.events.disk codexID stored
  others : ∀ other, other ≠ codexID → next.byID other = m.byID other ∧
    next.warningDeadline other = m.warningDeadline other ∧
    next.events.disk.codexes other = m.events.disk.codexes other

/-- Memory, row and stored view of a Codex show this lease. -/
def Settled (m : Manager) (codexID : String) (lease : Lease) : Prop :=
  Sets m m codexID lease lease

theorem Sets.settled (sets : Sets m next codexID lease lease) :
    Settled next codexID lease :=
  { sets with others := fun _ _ => ⟨rfl, rfl, rfl⟩ }

section Sets

variable {m next : Manager} {codexID : String} {memory stored lease : Lease}

section

variable (sets : Sets m next codexID memory stored)
include sets

/-- What touches neither the views and markers in memory nor the rows. -/
theorem Sets.frame (after : Manager) (sameViews : after.byID = next.byID)
    (sameMarkers : after.warningDeadline = next.warningDeadline)
    (sameRows : after.events.disk.codexes = next.events.disk.codexes) :
    Sets m after codexID memory stored := by
  obtain ⟨view, marker, row, others⟩ := sets
  refine ⟨sameViews ▸ view, sameMarkers ▸ marker, ?_, ?_⟩
  · simpa only [RowShows, sameRows] using row
  · simpa only [sameViews, sameMarkers, sameRows] using others

theorem Sets.mark (deadline : Int) :
    Sets m (next.mark codexID deadline) codexID { memory with warned := deadline } stored := by
  refine ⟨sets.view, update_self .., sets.row, ?_⟩
  intro other distinct
  obtain ⟨views, markers, rows⟩ := sets.others other distinct
  exact ⟨views, (update_of_ne distinct _ _).trans markers, rows⟩

theorem Sets.reload (reloads : Bool) :
    Sets m (next.reload codexID reloads) codexID memory stored := by
  refine sets.frame (next.reload codexID reloads) rfl rfl ?_
  unfold Manager.reload reloadDurable
  split <;> rfl

theorem Sets.remember (view : CurrentView) (shows : Shows view codexID lease) :
    Sets m (next.remember codexID view) codexID { lease with warned := memory.warned }
      stored := by
  refine ⟨⟨view, update_self .., shows⟩, sets.marker, sets.row, ?_⟩
  intro other distinct
  obtain ⟨views, rest⟩ := sets.others other distinct
  exact ⟨(update_of_ne distinct _ _).trans views, rest⟩

end

/-- What an upsert leaves in the row. -/
theorem upsertCodex_row (disk : Disk) (encoded : row.currentViewJSON = .readable view)
    (shows : Shows view row.codexID (rowLease row)) :
    RowShows (upsertCodex disk row) row.codexID (rowLease row) := by
  refine ⟨_, view, update_self .., ?_⟩
  split <;> exact ⟨rfl, rfl, encoded, shows⟩

/-- A view that can be stored is, under the marker in memory, and memory stays. -/
theorem persistState_rows (m : Manager) (shows : Shows view codexID lease) :
    ∃ disk, persistState m view true = some { m with events := { m.events with disk := disk } } ∧
      RowShows disk codexID { lease with warned := m.warningDeadline codexID } ∧
      ∀ other, other ≠ codexID → disk.codexes other = m.events.disk.codexes other := by
  obtain ⟨codex, present, rfl, state, deadline⟩ := shows.codex
  have leased : rowLease (stateRecord m view codex) =
      { lease with warned := m.warningDeadline codex.codexId } := by
    simp [rowLease, stateRecord, recordFromCodex, state, deadline]
  refine ⟨upsertCodex m.events.disk (stateRecord m view codex), by simp [persistState, present],
    ?_, ?_⟩
  · rw [← leased]
    refine upsertCodex_row m.events.disk rfl ?_
    rw [leased]
    exact shows
  · intro other distinct
    exact update_of_ne distinct _ _

/-- Storing a view succeeds and leaves memory behind. -/
theorem Sets.persist (sets : Sets m next codexID memory stored) (view : CurrentView)
    (shows : Shows view codexID lease) :
    ∃ after, persistState next view true = some after ∧
      Sets m after codexID memory { lease with warned := memory.warned } := by
  obtain ⟨disk, done, row, others⟩ := persistState_rows next shows
  rw [sets.marker] at row
  refine ⟨_, done, sets.view, sets.marker, row, ?_⟩
  intro other distinct
  obtain ⟨views, markers, rows⟩ := sets.others other distinct
  exact ⟨views, markers, (others other distinct).trans rows⟩

/-- An event commit, however it ends, leaves a lease that its view shows. -/
theorem Sets.publish (sets : Sets m next codexID memory stored) (event : Event) (view : CurrentView)
    (commit : Commit) (named : event.codexId = codexID) (shows : Shows view codexID stored) :
    Sets m (publishEvent next event view commit).1 codexID memory stored := by
  subst named
  have written := publish_disk next.events event view commit.now commit.marshals commit.outcome
    commit.answers commit.reloads
  obtain same | ⟨row, seq, present, same⟩ := written
  · exact sets.frame _ rfl rfl (congrArg Disk.codexes same)
  obtain ⟨old, -, oldPresent, oldNamed, oldLease, -⟩ := sets.row
  cases present.symm.trans oldPresent
  refine ⟨sets.view, sets.marker, ?_, ?_⟩
  · refine ⟨{ row with
        currentViewJSON := .readable { view with headEventSeq := seq }
        lastActivityAtUnixMS := commit.now }, { view with headEventSeq := seq }, ?_, oldNamed,
      oldLease, rfl, shows⟩
    exact (congrArg (fun disk => disk.codexes event.codexId) same).trans (update_self ..)
  · intro other distinct
    obtain ⟨views, markers, rows⟩ := sets.others other distinct
    refine ⟨views, markers, (congrArg (fun disk => disk.codexes other) same).trans ?_⟩
    exact (update_of_ne distinct _ _).trans rows

theorem Sets.publishCodex (sets : Sets m next codexID lease lease) (config : Config) (codex : Codex)
    (requestID : String) (now : Int) (commit : Commit) (named : codex.codexId = codexID) :
    Sets m (publishCodex config next codex requestID now commit).1 codexID lease lease := by
  subst named
  obtain ⟨view, remembered, shows⟩ := sets.view
  simp only [Codexes.publishCodex, remembered]
  exact sets.publish _ view commit (boundCanonicalEvent_codexId ..) shows

end Sets

section Lifecycle

variable {m next : Manager} {codexID : String} {memory stored lease changed : Lease}
  {view original snapshot : CurrentView}

theorem Sets.rollback (sets : Sets m next codexID memory stored)
    (shows : Shows original codexID lease) (storage : Storage)
    (rewrites : storage.rewrites = true) :
    Sets m (rollbackLifecycleState next codexID original lease.warned storage) codexID lease
      lease := by
  obtain ⟨after, done, settled⟩ :=
    ((sets.mark lease.warned).remember original shows).persist original shows
  simp only [rollbackLifecycleState, rewrites, done]
  exact settled.reload storage.reloads

/-- Keeping a view that is stored already, or storing it once more. A marker that is not
stored again is the stored one. -/
theorem Sets.preserve (sets : Sets m next codexID memory stored)
    (shows : Shows snapshot codexID lease) (persist : Bool) (storage : Storage)
    (rewrites : storage.rewrites = true) (kept : persist = false → stored = lease) :
    Sets m (preserveLifecycleState next codexID snapshot lease.warned persist storage) codexID
      lease lease := by
  have remembered := (sets.mark lease.warned).remember snapshot shows
  cases persist with
  | false => exact kept rfl ▸ remembered.reload storage.reloads
  | true =>
    obtain ⟨after, done, settled⟩ := remembered.persist snapshot shows
    simp only [preserveLifecycleState, rewrites, done, if_true]
    exact settled.reload storage.reloads

/-- The caller has to take the change as made: there was no error, or one that leaves it
open. -/
def stays : Except ManagerError Unit → Bool
  | .ok _ => true
  | .error error => error.outcomeUnknown

/-- How a change that is announced ends: it takes place; it is kept for an unknown
outcome, with a marker of its own if it is stored again; or it is undone. The last two are
reported. -/
theorem announceLifecycle_sets (config : Config) (requestID : String) (now keptMarker : Int)
    (persist : Bool) (settled : Settled m codexID lease) (before : Shows original codexID lease)
    (after : Shows snapshot codexID changed) (writes : storage.writes = true)
    (rewrites : storage.rewrites = true) (kept : persist = false → keptMarker = changed.warned) :
    let result := announceLifecycle config m codexID requestID now original snapshot
      changed.warned lease.warned keptMarker persist storage
    (result.2 = .ok () ∧ Sets m result.1 codexID changed changed) ∨
      ∃ error, result.2 = .error error ∧
        (error.outcomeUnknown = true ∧
            Sets m result.1 codexID { changed with warned := keptMarker }
              { changed with warned := keptMarker } ∨
          Sets m result.1 codexID lease lease) := by
  obtain ⟨codex, present, named, -⟩ := after.codex
  obtain ⟨persisted, done, written⟩ := (Sets.mark settled changed.warned).persist snapshot after
  have published := (written.remember snapshot after).publishCodex config codex requestID now
    storage.commit named
  simp only [announceLifecycle, writes, done, present]
  generalize publishCodex config _ codex requestID now storage.commit = announced at published ⊢
  obtain ⟨last, outcome⟩ := announced
  cases outcome with
  | ok event => exact .inl ⟨rfl, published⟩
  | error error =>
    refine .inr ⟨error, rfl, ?_⟩
    dsimp only
    cases error.outcomeUnknown with
    | true =>
      have again : Shows snapshot codexID { changed with warned := keptMarker } := after
      refine .inl ⟨rfl, published.preserve again persist storage rewrites ?_⟩
      intro notStored
      rw [kept notStored]
    | false => exact .inr (published.rollback before storage rewrites)

theorem known_eq (remembered : m.byID codexID = some view) (shows : Shows view codexID lease) :
    ∃ codex, known m codexID = .ok (view, codex) ∧ view.codex = some codex ∧
      codex.managementState = lease.state ∧ codex.managedUntilUnixMs = lease.deadline := by
  obtain ⟨codex, present, -, leased⟩ := shows.codex
  exact ⟨codex, by simp [known, remembered, present], present, leased⟩

/-- The lease of a Codex that nobody manages. -/
def unmanagedLease : Lease := ⟨.unmanaged, 0, 0⟩

theorem unmanagedFrom_shows (now : Int) (shows : Shows view codexID lease) :
    Shows (unmanagedFrom now view) codexID unmanagedLease :=
  shows.onCodex _ unmanagedLease (fun _ => rfl) (fun _ _ => rfl) fun _ _ => rfl

/-- The event is in the database afterwards, whatever is reported. -/
def commits (m : Manager) (event : Event) (view : CurrentView) (commit : Commit) : Bool :=
  decide ((publishEvent m event view commit).1.events.disk.head event.codexId ≠
    m.events.disk.head event.codexId)

/-- The sweep commits the event of a warning. -/
def sweepWarns (config : Config) (m : Manager) (codexID : String) (now : Int)
    (storage : Storage) : Bool :=
  match known m codexID with
  | .error _ => false
  | .ok (view, codex) =>
      match sweepPlan config view codex (m.warningDeadline codexID) now with
      | none => false
      | some plan =>
          match announceLifecycle config m codexID "" now view plan.snapshot plan.marker
              (m.warningDeadline codexID) (if plan.due then 0 else plan.marker) plan.due
              storage with
          | (after, .ok _) =>
              plan.due && commits after (warningEvent codexID now codex.managedUntilUnixMs)
                plan.snapshot storage.second
          | (_, .error _) => false

/-- The sweep finds a lease that is to be given up. -/
def sweepEnds (config : Config) (m : Manager) (codexID : String) (now : Int) : Bool :=
  match known m codexID with
  | .error _ => false
  | .ok (view, codex) =>
      match sweepPlan config view codex (m.warningDeadline codexID) now with
      | none => false
      | some plan => decide (face plan.snapshot = some (codexID, .unmanaged, 0))

/-- A definite failure commits nothing. -/
theorem commits_of_failed (m : Manager) (event : Event) (view : CurrentView) (commit : Commit)
    (error : ManagerError) (failed : (publishEvent m event view commit).2 = .error error)
    (definite : error.outcomeUnknown = false) : commits m event view commit = false := by
  have kept := publish_failed m.events event view commit.now commit.marshals commit.outcome
    commit.answers commit.reloads
  simp only [publishEvent] at failed
  cases result : (publish m.events (some event) (some view) commit.now commit.marshals
      commit.outcome commit.answers commit.reloads).2 with
  | ok published => simp [result, Except.mapError] at failed
  | error refused =>
    obtain rfl : ManagerError.publish refused = error := by
      simpa [result, Except.mapError] using failed
    have same := kept refused result (by rintro rfl; cases definite)
    simp [commits, publishEvent, same]

theorem raiseWarning_sets (now : Int) (sets : Sets m next codexID lease lease)
    (shows : Shows snapshot codexID lease) (warned : lease.warned = lease.deadline)
    (rewrites : storage.rewrites = true) :
    let result := raiseWarning next codexID now lease.deadline snapshot storage
    Sets m result.1 codexID lease lease ∨
      commits next (warningEvent codexID now lease.deadline) snapshot storage.second = false ∧
        Sets m result.1 codexID { lease with warned := 0 } { lease with warned := 0 } := by
  have published := sets.publish (warningEvent codexID now lease.deadline) snapshot
    storage.second rfl shows
  have uncommitted := commits_of_failed next (warningEvent codexID now lease.deadline) snapshot
    storage.second
  simp only [raiseWarning]
  generalize commits next _ snapshot storage.second = committed at uncommitted ⊢
  generalize publishEvent next _ snapshot storage.second = raised at published uncommitted ⊢
  obtain ⟨after, outcome⟩ := raised
  cases outcome with
  | ok event => exact .inl published
  | error error =>
    dsimp only
    cases unknown : error.outcomeUnknown with
    | true =>
      have kept := published.preserve shows false storage rewrites fun _ => rfl
      exact .inl (warned ▸ kept)
    | false =>
      have again : Shows snapshot codexID { lease with warned := 0 } := shows
      exact .inr ⟨uncommitted error rfl unknown,
        published.preserve again true storage rewrites nofun⟩

/-- What a sweep plans: to end a lease that is over, or to show that it is about to end,
with a warning unless this deadline was warned of. -/
theorem sweepPlan_cases (shows : Shows view codexID lease)
    (state : codex.managementState = lease.state)
    (deadline : codex.managedUntilUnixMs = lease.deadline)
    (planned : sweepPlan config view codex lease.warned now = some plan) :
    (lease.deadline ≤ now ∧ automaticUnmanageSafe view = true ∧
        Shows plan.snapshot codexID unmanagedLease ∧ plan.marker = 0 ∧ plan.due = false) ∨
      lease.state ≠ .unmanaged ∧ 0 < lease.deadline ∧
        Shows plan.snapshot codexID ⟨.expiringSoon, lease.deadline, lease.deadline⟩ ∧
        plan.marker = lease.deadline ∧ (plan.due = true ↔ lease.warned ≠ lease.deadline) := by
  have expiring : ∀ due, Shows (expiringView now lease.deadline due view) codexID
      ⟨.expiringSoon, lease.deadline, lease.deadline⟩ := fun due =>
    shows.onCodex _ ⟨.expiringSoon, lease.deadline, lease.deadline⟩ (fun _ => rfl)
      (fun _ _ => rfl) fun _ same => same
  simp only [sweepPlan, state, deadline] at planned
  split at planned
  · cases planned
  next leased =>
  have managed : lease.state ≠ .unmanaged := by
    intro unmanaged
    exact leased (.inl (by simp [unmanaged]))
  have positive : 0 < lease.deadline := by
    by_contra elapsed
    exact leased (.inr (by omega))
  split at planned
  · next elapsed =>
    cases planned
    exact .inl ⟨elapsed.1, elapsed.2, unmanagedFrom_shows now shows, rfl, rfl⟩
  refine .inr ⟨managed, positive, ?_⟩
  split at planned
  · cases planned
  split at planned
  · next due =>
    cases planned
    exact ⟨expiring true, rfl, by simp [due]⟩
  · next done =>
    split at planned <;> cases planned
    exact ⟨expiring false, not_not.mp done, by simpa using done⟩

end Lifecycle

section Views

variable {m : Manager} {codexID : String} {lease : Lease} {view : CurrentView}

theorem applyEvent_shows (shows : Shows view codexID lease)
    (applied : applyEvent config.sizes config.contentBudget manualTitle chunk now codexID event
      view = some (after, published)) : Shows after codexID lease := by
  have fixed := applyEvent_fixed applied
  have through : ∀ shown : CurrentView, face shown = (shown.codex.map fixedCodex).map fun codex =>
        (codex.codexId, codex.managementState, codex.managedUntilUnixMs) := by
    intro shown
    cases codex : shown.codex <;> simp [face, codex, fixedCodex, bareCodex]
  unfold Shows
  rw [through after, fixed, ← through view]
  exact shows

theorem runningView_shows (config : Config) (turnID : String) (now deadline : Int)
    (shows : Shows view codexID lease) :
    Shows (runningView config.sizes config.contentBudget turnID now deadline view) codexID
      ⟨.managed, deadline, 0⟩ := by
  refine (face_bound ..).trans ?_
  exact shows.onCodex _ ⟨.managed, deadline, 0⟩ (fun _ => rfl) (fun _ _ => rfl) fun _ _ => rfl

theorem commitWorkspaceState_sets (state : WorkspaceAccessState) (now : Int)
    (storage : Storage) (settled : Settled m codexID lease)
    (remembered : m.byID codexID = some view) (shows : Shows view codexID lease) :
    Sets m (commitWorkspaceState m codexID state now storage.commit storage.reads
      storage.reloads).1 codexID lease lease := by
  have moves := commitWorkspaceState_moves m codexID state now storage.commit storage.reads
    storage.reloads
  generalize commitWorkspaceState m _ _ _ _ _ _ = result at moves ⊢
  cases moves with
  | passed | absent => exact settled
  | published old codex _ found behind settles =>
    cases remembered.symm.trans (known_remembered found)
    have snapshot : Shows (accessView state now view) codexID lease := shows
    have committed := Sets.publish settled (accessEvent codexID state now) _ storage.commit rfl
      snapshot
    generalize publishEvent m _ _ storage.commit = answer at committed settles
    cases settles with
    | told | unread => exact committed.remember _ snapshot
    | reread error durable failed unknown read =>
      -- The stored view that replaces the one in memory shows the same lease.
      obtain ⟨row, stored, present, -, -, encoded, kept⟩ := committed.row
      obtain ⟨again, there, decoded⟩ := durableView_row read
      cases present.symm.trans there
      rw [encoded] at decoded
      cases decoded
      exact (committed.remember durable kept).reload storage.reloads
    | refused => exact committed

end Views

/-- The lease a Codex is saved with. -/
def savedLease (codex : Codex) : Lease := ⟨codex.managementState, codex.managedUntilUnixMs, 0⟩

/-- A new Codex appears in memory and row at once. -/
theorem saveCodex_sets (config : Config) (m : Manager) (codex : Codex) (session : Session)
    (access : Option WorkspaceAccessState) (now : Int) (writes : Bool) :
    let result := saveCodex config m codex session access now writes
    result.1 = m ∨
      result.2 = .ok () ∧ Sets m result.1 codex.codexId (savedLease codex) (savedLease codex) := by
  intro result
  cases access with
  | none => exact .inl rfl
  | some state =>
    cases writes with
    | false => exact .inl rfl
    | true =>
      have shows : Shows (boundCurrentView config.sizes config.contentBudget
          { codex := some codex, workspaceAccessState := some state
            generatedAtUnixMs := now }) codex.codexId (savedLease codex) :=
        (face_bound ..).trans rfl
      refine .inr ⟨rfl, ⟨_, update_self .., shows⟩, update_self .., ?_, ?_⟩
      · exact upsertCodex_row m.events.disk rfl shows
      · intro other distinct
        exact ⟨update_of_ne distinct _ _, update_of_ne distinct _ _, update_of_ne distinct _ _⟩

section Restore

variable {codexID : String} {lease : Lease}

/-- A row that stands under its own id, and whose stored view is of the same Codex. -/
structure Own (row : CodexRecord) (codexID : String) : Prop where
  named : row.codexID = codexID
  stored : ∀ view codex, unmarshalCurrentView row.currentViewJSON = some view →
    view.codex = some codex → codex.codexId = codexID

theorem unmanagedView_shows (now : Int) (own : Own row codexID) :
    Shows (unmanagedView now row) codexID (rowLease row) := by
  have named := own.named
  unfold unmanagedView Shows face
  cases stored : unmarshalCurrentView row.currentViewJSON with
  | none => simp [codexFromRecord, rowLease, named]
  | some view =>
    cases present : view.codex with
    | none => simp [present, codexFromRecord, rowLease, named]
    | some codex => simp [present, rowLease, own.stored view codex stored present]

theorem noteUnrecoverablePending_face (stored : Snapshot) (codex : Codex) (view : CurrentView) :
    face (noteUnrecoverablePending stored codex view) =
      some (codex.codexId, codex.managementState, codex.managedUntilUnixMs) := by
  unfold noteUnrecoverablePending
  split
  · rfl
  · dsimp only
    split <;> rfl

theorem preparedRow_own (config : Config) (now : Int) (owner : String) (own : Own row codexID) :
    Own (preparedRow config now row owner) codexID ∧
      rowLease (preparedRow config now row owner) = rowLease (leased config now row) := by
  obtain ⟨named, stored⟩ := own
  by_cases first : row.managementState = .unspecified
  · simp only [preparedRow, leased, first, if_true]
    exact ⟨⟨named, stored⟩, rfl⟩
  · simp only [preparedRow, leased, first, if_false]
    exact ⟨⟨named, stored⟩, rfl⟩

/-- Whatever the app-server answers, the plan is for the Codex of the row and has the
row's lease, or a first one. -/
theorem restorePlan_shows {read : ThreadRead} (own : Own row codexID)
    (planned : restorePlan config now row owner read reads = some plan) :
    plan.record.codexID = codexID ∧ rowLease plan.record = rowLease (leased config now row) ∧
      Shows plan.view codexID (rowLease (leased config now row)) := by
  obtain ⟨prepared, same⟩ := preparedRow_own config now owner own
  have branch := restorePlan_branch planned
  rw [← same]
  generalize preparedRow config now row owner = r at prepared branch
  have named := prepared.named
  cases branch with
  | unmanaged => exact ⟨named, rfl, unmanagedView_shows now prepared⟩
  | resumed thread =>
    refine ⟨named, rfl, (noteUnrecoverablePending_face ..).trans ?_⟩
    split <;> simp [codexFromRecord, rowLease, named]
  | kept => exact ⟨named, rfl, by simp [freshPlan, Shows, face, codexFromRecord, rowLease, named]⟩
  | replaced answer =>
    exact ⟨named, rfl, by
      simp [replacedPlan, freshPlan, Shows, face, codexFromRecord, rowLease, named]⟩
  | unavailable =>
    refine ⟨named, rfl, (noteUnrecoverablePending_face ..).trans ?_⟩
    simp [codexFromRecord, rowLease, named]

theorem finishRestore_sets (m : Manager) (access : WorkspaceAccessState)
    (named : plan.record.codexID = codexID) (recorded : rowLease plan.record = lease)
    (shows : Shows plan.view codexID lease) :
    Sets m (finishRestore m plan access true).1 codexID lease lease := by
  subst named
  have shown : Shows { plan.view with workspaceAccessState := some access } plan.record.codexID
      lease := shows
  obtain ⟨threads, sessions, dropped⟩ := dropThread_tables m plan.record.codexID plan.dropped
  let registered := registerRestored { m with byThread := threads, bySession := sessions }
    plan.record { plan.view with workspaceAccessState := some access }
  have marker : registered.warningDeadline plan.record.codexID = lease.warned := by
    rw [← recorded]
    exact update_self ..
  obtain ⟨disk, done, row, others⟩ := persistState_rows registered shown
  rw [marker] at row
  simp only [finishRestore, dropped]
  rw [done]
  refine ⟨⟨_, update_self .., shown⟩, marker, row, ?_⟩
  intro other distinct
  exact ⟨update_of_ne distinct _ _, update_of_ne distinct _ _, others other distinct⟩

theorem restoreCodex_sets (config : Config) (m : Manager) (now : Int) (owner : String)
    (read : ThreadRead) (reads : Bool) (access : Option WorkspaceAccessState)
    (own : Own row codexID) :
    let restored := restoreCodex config m row now owner read reads access true
    restored = m ∨ Sets m restored codexID (rowLease (leased config now row))
      (rowLease (leased config now row)) := by
  intro restored
  simp only [restored, restoreCodex]
  cases planned : restorePlan config now row owner read reads with
  | none => exact .inl rfl
  | some plan =>
    obtain ⟨named, recorded, shows⟩ := restorePlan_shows own planned
    cases access with
    | none => exact .inl rfl
    | some state => exact .inr (finishRestore_sets m state named recorded shows)

end Restore

section Operations

variable {m : Manager} {codexID : String} {lease : Lease} {view : CurrentView}

theorem resolvedView_shows (config : Config) (pendingID : String) (now : Int)
    (shows : Shows view codexID lease) : Shows (resolvedView config pendingID now view) codexID
      lease := by
  refine (face_bound ..).trans ?_
  unfold face
  split
  · exact shows.onCodex _ lease (fun _ => rfl) (fun _ same => same) fun _ same => same
  · exact shows

/-! Operations on a Codex in memory whose view, row and marker show its lease. -/

variable (config) (settled : Settled m codexID lease)
  (remembered : m.byID codexID = some view) (shows : Shows view codexID lease)
  (writes : storage.writes = true)
include config settled remembered shows writes

theorem unmanageCodex_sets (requestID : String) (now : Int) (rewrites : storage.rewrites = true) :
    let result := unmanageCodex config m codexID requestID now storage
    Sets m result.1 codexID lease lease ∨
      lease.state ≠ .unmanaged ∧ manualUnmanageBusy view = false ∧ stays result.2 = true ∧
        Sets m result.1 codexID unmanagedLease unmanagedLease := by
  obtain ⟨codex, found, -, state, -⟩ := known_eq remembered shows
  simp only [unmanageCodex, found, settled.marker]
  split
  · exact .inl settled
  split
  · exact .inl settled
  next managed =>
  split
  · exact .inl settled
  next busy =>
  have free : manualUnmanageBusy view = false := by simpa using busy
  obtain ⟨ok, done⟩ | ⟨error, failed, ⟨unknown, done⟩ | undone⟩ := announceLifecycle_sets config
    requestID now 0 false settled shows (unmanagedFrom_shows now shows) writes rewrites
    fun _ => rfl
  · exact .inr ⟨state ▸ managed, free, congrArg stays ok, done⟩
  · exact .inr ⟨state ▸ managed, free, (congrArg stays failed).trans unknown, done⟩
  · exact .inl undone

theorem renewLease_sets (now : Int) (rewrites : storage.rewrites = true) :
    let result := renewLease config m codexID now storage
    let renewed : Lease := ⟨.managed, now + config.leaseDuration, 0⟩
    Sets m result.1 codexID lease lease ∨
      lease.state ≠ .unmanaged ∧ stays result.2 = true ∧
        Sets m result.1 codexID renewed renewed := by
  intro result renewed
  obtain ⟨codex, found, -, state, -⟩ := known_eq remembered shows
  simp only [result, renewLease, found, settled.marker]
  split
  · exact .inl settled
  next managed =>
  have after : Shows (renewedView now (now + config.leaseDuration) view) codexID renewed :=
    shows.onCodex _ renewed (fun _ => rfl) (fun _ _ => rfl) fun _ _ => rfl
  obtain ⟨ok, done⟩ | ⟨error, failed, ⟨unknown, done⟩ | undone⟩ := announceLifecycle_sets config
    "" now 0 false settled shows after writes rewrites fun _ => rfl
  · exact .inr ⟨state ▸ managed, congrArg stays ok, done⟩
  · exact .inr ⟨state ▸ managed, (congrArg stays failed).trans unknown, done⟩
  · exact .inl undone

/-- A sweep that changes the lease ends it or shows that it is about to end. A warning is
committed only for a deadline that was not warned of, and that is remembered. -/
theorem sweepLease_sets (now : Int) (rewrites : storage.rewrites = true) :
    let result := sweepLease config m codexID now storage
    let warns := sweepWarns config m codexID now storage
    (warns = false ∧ Sets m result.1 codexID lease lease) ∨
      (warns = false ∧ sweepEnds config m codexID now = true ∧ stays result.2 = true ∧
        lease.deadline ≤ now ∧ automaticUnmanageSafe view = true ∧
        Sets m result.1 codexID unmanagedLease unmanagedLease) ∨
      lease.state ≠ .unmanaged ∧ 0 < lease.deadline ∧ ∃ warned,
        Sets m result.1 codexID ⟨.expiringSoon, lease.deadline, warned⟩
          ⟨.expiringSoon, lease.deadline, warned⟩ ∧
        (lease.warned = lease.deadline → warned = lease.deadline ∧ warns = false) ∧
        (warns = true → warned = lease.deadline) := by
  intro result warns
  obtain ⟨codex, found, -, state, deadline⟩ := known_eq remembered shows
  simp only [result, warns, sweepLease, sweepWarns, sweepEnds, found, settled.marker]
  cases planned : sweepPlan config view codex lease.warned now with
  | none => exact .inl ⟨rfl, settled⟩
  | some plan =>
    obtain ⟨elapsed, safe, ended, marker, due⟩ | ⟨managed, positive, expiring, marker, due⟩ :=
      sweepPlan_cases shows state deadline planned
    · have announced := announceLifecycle_sets config "" now 0 false settled shows ended writes
        rewrites fun _ => rfl
      simp only [marker, due, Bool.false_and, Bool.false_eq_true, if_false]
      simp only [unmanagedLease] at announced
      generalize announceLifecycle config m codexID "" now view plan.snapshot _ _ _ _ storage =
        answer at announced ⊢
      obtain ⟨last, outcome⟩ := answer
      have ends : decide (face plan.snapshot = some (codexID, .unmanaged, 0)) = true :=
        decide_eq_true ended
      cases outcome with
      | ok _ =>
        obtain ⟨-, done⟩ | ⟨error, failed, -⟩ := announced
        · exact .inr (.inl ⟨rfl, ends, rfl, elapsed, safe, done⟩)
        · cases failed
      | error error =>
        obtain ⟨failed, -⟩ | ⟨other, failed, ⟨unknown, done⟩ | undone⟩ := announced
        · cases failed
        · cases failed
          exact .inr (.inl ⟨rfl, ends, unknown, elapsed, safe, done⟩)
        · exact .inl ⟨rfl, undone⟩
    · have announced := announceLifecycle_sets config "" now (if plan.due then 0 else plan.marker)
        plan.due settled shows expiring writes rewrites (by intro done; simp [done, marker])
      simp only [marker, deadline] at announced ⊢
      generalize announceLifecycle config m codexID "" now view plan.snapshot _ _ _ _ storage =
        answer at announced ⊢
      obtain ⟨last, outcome⟩ := answer
      cases outcome with
      | ok _ =>
        obtain ⟨-, done⟩ | ⟨error, failed, -⟩ := announced
        · refine .inr (.inr ⟨managed, positive, ?_⟩)
          cases again : plan.due with
          | false => exact ⟨lease.deadline, done, fun _ => ⟨rfl, rfl⟩, fun _ => rfl⟩
          | true =>
            have first : lease.warned ≠ lease.deadline := due.mp again
            obtain kept | ⟨uncommitted, cleared⟩ := raiseWarning_sets now done expiring rfl rewrites
            · exact ⟨lease.deadline, kept, fun warned => absurd warned first, fun _ => rfl⟩
            · refine ⟨0, cleared, fun warned => absurd warned first, ?_⟩
              intro committed
              simp [uncommitted] at committed
        · cases failed
      | error error =>
        obtain ⟨failed, -⟩ | ⟨other, -, ⟨-, done⟩ | undone⟩ := announced
        · cases failed
        · refine .inr (.inr ⟨managed, positive, _, done, ?_, by simp⟩)
          intro warned
          have notDue : plan.due = false := by simpa [warned] using due
          exact ⟨by simp [notDue], rfl⟩
        · exact .inl ⟨rfl, undone⟩

theorem setRunning_sets (turnID requestID : String) (now : Int) :
    let result := setRunning config m codexID turnID requestID now storage.writes storage.commit
      storage.second
    let started : Lease := ⟨.managed, now + config.leaseDuration, 0⟩
    Sets m result.1 codexID started started := by
  intro result started
  have running := runningView_shows config turnID now (now + config.leaseDuration) shows
  obtain ⟨codex, present, named, -⟩ := running.codex
  obtain ⟨persisted, done, written⟩ := (Sets.mark settled 0).persist _ running
  have published := (written.remember _ running).publish
    { codexId := codexID, occurredAtUnixMs := now, causedByRequestId := requestID
      body := .turnUpdated turnID .running now 0 none } _ storage.commit rfl running
  simp only [result, setRunning, remembered, writes, done, present]
  generalize publishEvent _ _ _ storage.commit = answer at published ⊢
  obtain ⟨after, outcome⟩ := answer
  cases outcome with
  | error error => exact published
  | ok event => exact published.publishCodex config codex requestID now storage.second named

theorem publishAcceptedUserMessage_sets (turnID requestID : String)
    (parts : List UserMessagePart) (now : Int) :
    Sets m (publishAcceptedUserMessage config m codexID turnID parts requestID now
      storage.writes storage.commit).1 codexID lease lease := by
  obtain ⟨codex, found, -, -⟩ := known_eq remembered shows
  have accepted : Shows (acceptedView now turnID
      (acceptedItem config.sizes config.contentBudget turnID parts) view) codexID lease := shows
  obtain ⟨persisted, done, written⟩ := Sets.persist settled _ accepted
  simp only [publishAcceptedUserMessage, found, writes, done]
  exact (written.remember _ accepted).publish _ _ storage.commit
    (boundCanonicalEvent_codexId ..) accepted

theorem applyAdapterEventLocked_sets (now : Int)
    (thread : m.byThread event.threadID = some codexID) :
    Sets m (applyAdapterEventLocked config m event now storage.writes storage.commit
      storage.second).1 codexID lease lease := by
  obtain ⟨chunks, counted⟩ := countChunk_fields m codexID event
  have frame : Sets m { m with chunks := chunks } codexID lease lease :=
    Sets.frame settled { m with chunks := chunks } rfl rfl rfl
  simp only [applyAdapterEventLocked, thread, remembered, counted, writes]
  cases applied : applyEvent config.sizes config.contentBudget (m.manualTitle codexID)
      (countChunk m codexID event).2 now codexID event view with
  | none => exact frame
  | some pair =>
    obtain ⟨after, published⟩ := pair
    have named := applyEvent_codexId applied
    have kept := applyEvent_shows shows applied
    obtain ⟨persisted, done, written⟩ := (frame.remember after kept).persist after kept
    have committed := written.publish published after storage.commit named kept
    dsimp only
    rw [done]
    dsimp only
    generalize publishEvent persisted published after storage.commit = answer at committed ⊢
    obtain ⟨last, outcome⟩ := answer
    obtain ⟨codex, present, identified, -⟩ := kept.codex
    simp only [present]
    cases outcome with
    | error error => exact committed
    | ok _ =>
      have announced := committed.publishCodex config codex "" now storage.second identified
      cases event.body with
      | turnUpdated => exact announced
      | _ => exact committed

theorem renameCodex_sets (title requestID : String) (now : Int) :
    Sets m (renameCodex config m codexID title requestID now storage).1 codexID lease lease := by
  obtain ⟨codex, found, present, -, -⟩ := known_eq remembered shows
  obtain ⟨other, again, named, -⟩ := shows.codex
  obtain rfl : other = codex := Option.some.inj (again.symm.trans present)
  have renamed := shows.renamed present (text (trimSpace title)) now
  have titled : Sets m { m with manualTitle := update m.manualTitle codexID true }
      codexID lease lease := .frame settled _ rfl rfl rfl
  obtain ⟨persisted, done, written⟩ := titled.persist _ renamed
  simp only [renameCodex, found, writes, done]
  split
  · exact settled
  · exact (written.remember _ renamed).publishCodex config _ requestID now storage.commit named

theorem resolvePending_sets (pendingID requestID : String) (resolved : PendingRequest)
    (now : Int) (saves : Bool) :
    Sets m (resolvePending config m codexID pendingID resolved requestID now saves storage).1
      codexID lease lease := by
  have kept := resolvedView_shows config pendingID now shows
  obtain ⟨persisted, done, written⟩ := (Sets.remember settled _ kept).persist _ kept
  simp only [resolvePending, remembered, writes, done]
  split
  · exact written.publish _ _ storage.commit (boundCanonicalEvent_codexId ..) kept
  · exact settled

end Operations

end CodexRemote.Leases
