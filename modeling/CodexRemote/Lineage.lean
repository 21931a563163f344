import CodexRemote.Announcements
import CodexRemote.Seats
import CodexRemote.Translation

/-!
# Who owns a session

Attachments belong to a logical owner, and a logical owner outlives the Codexes and the threads
that stand for it. `session_logical_owners` binds the pair of a source and a session to an owner,
`forgotten_sessions` keeps the owner of a forgotten Codex, and the Codex itself carries it in its
row and in memory. An owner is bound in five places: `CreateCodex` and `ImportSession`, each
before the Codex is saved, `Restore` for every row, and once more for a replaced thread; and
`ForgetCodex` writes down the owner of what it forgets.

The Host is the system of `Operations`, without workspace commits; the statements above that it
leaves to its labels are added here, each with the outcome it meets. `CreateCodex` binds, saves
and announces; `ImportSession` reads the forgotten session, chooses the thread, binds, saves,
announces and deletes the forgotten session. Other operations may come between, also between the
two halves of an announcement, as in `Announcements`: a late one stores a view of a thread that
was replaced since, and the restore of an unmanaged row goes by the stored view. That the
requested session has no row yet is not looked at: a session that has one is answered from it,
and without the lock another import may save the session in the meantime anyway. `saveCodex`
would bind an owner itself for a caller that has none; neither of its callers is one.

An owner of a new session is any nonempty text, so fresh ones are included.
-/
namespace CodexRemote.Lineage

open Protocol Persistence Activity Budget Codexes Host Function List Option
open Option (bind_eq_some_iff ite_none_right_eq_some map_eq_some_iff)

variable {plan : RestorePlan} {newOpaqueID codexID requestID owner : String}
  {access : Option WorkspaceAccessState} {now : Int} {storage : Storage} {statement : Statement}
  {labels : List Label}

/-! ## The two tables -/

/-- A row of `forgotten_sessions`, which stands under its source and session. -/
structure ForgottenSession where
  logicalOwnerID : String
  cwd : String
  title : Text
  origin : CodexOrigin
  createdAtUnixMS : Int
  updatedAtUnixMS : Int
  materialized : Bool
  deriving DecidableEq

/-- `session_logical_owners` and `forgotten_sessions`, by normalized source and session. -/
structure Tables where
  owners : String × String → Option String
  forgotten : String × String → Option ForgottenSession

/-- How a call of the store goes: whether its write takes effect, and whether it answers. A
write that takes effect may still be reported as an error. -/
structure Statement where
  writes : Bool := true
  answers : Bool := true
  deriving DecidableEq

def sessionOf (source sessionID : String) : String × String :=
  (normalizeSessionSource source, sessionID)

def logicalOwnerForSession (tables : Tables) (source sessionID : String) : Option String :=
  tables.owners (sessionOf source sessionID)

/-- The insert of both calls below, which leaves an owner that is there. -/
def insertOwner (tables : Tables) (source sessionID ownerID : String) (writes : Bool) : Tables :=
  if writes ∧ tables.owners (sessionOf source sessionID) = none then
    { tables with
      owners := update tables.owners (sessionOf source sessionID) (some ownerID) }
  else tables

/-- `EnsureLogicalOwner`, with the id that `newOpaqueID` gives. -/
def ensureLogicalOwner (tables : Tables) (source sessionID newOpaqueID : String)
    (statement : Statement) : Tables × Option String :=
  if trimSpace sessionID = "" then (tables, none)
  else
    let inserted := insertOwner tables source sessionID newOpaqueID statement.writes
    (inserted, if statement.writes && statement.answers
      then logicalOwnerForSession inserted source sessionID else none)

/-- `BindLogicalOwner`. The answer is the bound owner. -/
def bindLogicalOwner (tables : Tables) (source sessionID ownerID : String)
    (statement : Statement) : Tables × Option String :=
  if trimSpace sessionID = "" ∨ trimSpace ownerID = "" then (tables, none)
  else
    let inserted := insertOwner tables source sessionID ownerID statement.writes
    (inserted, if (statement.writes && statement.answers) ∧
        logicalOwnerForSession inserted source sessionID = some ownerID
      then some ownerID else none)

/-- `ImportSession` and `Restore` bind the owner they have, or ensure that there is one. -/
def claimOwner (tables : Tables) (source sessionID ownerID newOpaqueID : String)
    (statement : Statement) : Tables × Option String :=
  if ownerID = "" then ensureLogicalOwner tables source sessionID newOpaqueID statement
  else bindLogicalOwner tables source sessionID ownerID statement

/-- `UpsertForgottenSession`; false stands for an error. -/
def upsertForgottenSession (tables : Tables) (source sessionID : String)
    (record : ForgottenSession) (statement : Statement) : Tables × Bool :=
  if trimSpace sessionID = "" ∨ trimSpace record.cwd = "" then (tables, false)
  else if statement.writes then
    ({ tables with
        forgotten := update tables.forgotten (sessionOf source sessionID) (some record) },
      statement.answers)
  else (tables, false)

/-- `DeleteForgottenSession`. -/
def deleteForgottenSession (tables : Tables) (source sessionID : String) (writes : Bool) :
    Tables :=
  if writes then
    { tables with
      forgotten := update tables.forgotten (sessionOf source sessionID) none }
  else tables

/-! ## The choice of a thread -/

/-- A thread of the app-server; a missing source is absent or null. -/
structure AppThread where
  id : String
  source : Option String
  cwd : String
  name : Option Text
  createdAt : Int
  deriving DecidableEq

/-- `normalizeSource`, behind the JSON decoder. -/
def normalizeSource (source : Option String) : String := normalizeSessionSource (source.getD "")

/-- An `ImportSession` that has read the forgotten session of its request. -/
structure Reading where
  source : String
  sessionID : String
  forgotten : Option ForgottenSession
  deriving DecidableEq

/-- What the app-server answers to an import: it has the thread, and `session.Import` returns it
again, or it has an error, which may be that of a thread without history or of one that is not
there. Then the thread may be resumed, or a new one started. -/
inductive ImportAnswer where
  | listed (listed : AppThread) (imported : Option AppThread)
  | failed (unmaterialized missing resumes : Bool) (started : Option AppThread)
  deriving DecidableEq

/-- `threadFromForgotten`. -/
def threadFromForgotten (reading : Reading) (record : ForgottenSession) : AppThread :=
  { id := reading.sessionID, source := some reading.source, cwd := record.cwd
    name := if record.title = [] then none else some record.title
    createdAt := record.createdAtUnixMS }

/-- What `ImportSession` fills in from the listed thread. -/
def fillFrom (listed thread : AppThread) : AppThread :=
  { thread with
    cwd := if thread.cwd = "" then listed.cwd else thread.cwd
    name := thread.name.or listed.name
    createdAt := if thread.createdAt = 0 then listed.createdAt else thread.createdAt }

/-- The thread that an import takes over, and its source. `session.Import` refuses a thread with
another id than the one it asked for. -/
def chooseThread (reading : Reading) : ImportAnswer → Option (AppThread × String)
  | .listed listed imported =>
      if normalizeSource listed.source = reading.source then
        imported.bind fun thread =>
          if thread.id = reading.sessionID then some (fillFrom listed thread, reading.source)
          else none
      else none
  | .failed unmaterialized missing resumes started =>
      reading.forgotten.bind fun record =>
        if record.materialized = false ∧ record.origin = .remoteCreated then
          if unmaterialized then
            if resumes then some (threadFromForgotten reading record, reading.source) else none
          else if missing then
            started.map fun thread =>
              (thread, normalizeSource (some (thread.source.getD reading.source)))
          else none
        else none

/-- The origin an imported Codex is shown with. -/
def importedOrigin (reading : Reading) : CodexOrigin :=
  match reading.forgotten with
  | none => .localExisting
  | some record => record.origin

/-! ## The system -/

/-- A session whose owner is bound and whose Codex is to be saved, by the import that has read
the given row or by a `CreateCodex`. -/
structure Grant where
  session : Session
  created : Int
  reading : Option Reading
  deriving DecidableEq

/-- The Host with the two tables, and the calls that are between two of their statements:
imports that have read, calls that have bound, and imports whose Codex is saved. -/
structure World where
  host : Host.World
  tables : Tables
  readings : List Reading := []
  grants : List Grant := []
  saved : List Reading := []
  announcing : List Announcements.Announcement := []

inductive Label where
  /-- `CreateCodex`, once the thread is started. -/
  | create (thread : AppThread) (title : Text) (newOpaqueID : String) (statement : Statement)
  /-- `ImportSession` reads the forgotten session. -/
  | lookup (source sessionID : String)
  /-- `ImportSession` chooses the thread and binds the owner. -/
  | bind (reading : Reading) (answer : ImportAnswer) (newOpaqueID : String)
      (statement : Statement)
  /-- Both save the Codex. -/
  | save (grant : Grant) (codexID : String) (access : Option WorkspaceAccessState)
      (requestID : String) (now : Int) (storage : Storage)
  /-- `ImportSession` deletes the forgotten session. -/
  | unrecord (reading : Reading) (writes : Bool)
  | forget (codexID requestID : String) (materialized : Bool) (statement : Statement) (now : Int)
      (storage : Storage)
  /-- `Restore`, for one row. The second statement is the one of a replaced thread. -/
  | restore (codexID newOpaqueID : String) (statement second : Statement) (read : ThreadRead)
      (access : Option WorkspaceAccessState) (now : Int) (storage : Storage)
  | restart (replayCapacity : Int)
  /-- Behind the save, `publishCodex` reads the view. -/
  | read (codex : Codex) (requestID : String)
  /-- It commits the view with the event. -/
  | commit (announcement : Announcements.Announcement) (now : Int) (commit : Commit)
  /-- A notification, an announcement, an operation on the lease and so on. -/
  | other (label : Host.Label)

/-- `CreateCodex` up to the owner. -/
def World.create (world : World) (thread : AppThread) (title : Text) (newOpaqueID : String)
    (statement : Statement) : World :=
  let source := normalizeSource thread.source
  let ensured := ensureLogicalOwner world.tables source thread.id newOpaqueID statement
  { world with
    tables := ensured.1
    grants := (ensured.2.map fun ownerID =>
      { session := { threadID := thread.id, source := source, cwd := thread.cwd
                     title := if title = [] then thread.name.getD [] else title
                     ownerID := ownerID }
        created := 0, reading := none }).toList ++ world.grants }

/-- `ImportSession` from the answer of the app-server to the owner. -/
def World.bind (world : World) (reading : Reading) (answer : ImportAnswer)
    (newOpaqueID : String) (statement : Statement) : World :=
  let rest := world.readings.erase reading
  match chooseThread reading answer with
  | none => { world with readings := rest }
  | some (thread, source) =>
      let claimed := claimOwner world.tables source thread.id
        ((reading.forgotten.map ForgottenSession.logicalOwnerID).getD "") newOpaqueID statement
      { world with
        tables := claimed.1
        readings := rest
        grants := (claimed.2.map fun ownerID =>
          { session := { threadID := thread.id, source := source, cwd := thread.cwd
                         title := thread.name.getD [], ownerID := ownerID }
            created := Translation.unixMillis thread.createdAt
            reading := some reading }).toList ++ world.grants }

/-- The operation of the Host that saves the Codex. -/
def Grant.operation (grant : Grant) (codexID : String) (access : Option WorkspaceAccessState)
    (requestID : String) : Operation :=
  match grant.reading with
  | none => .create codexID grant.session access requestID
  | some reading =>
      .importSession codexID grant.session (importedOrigin reading) grant.created access requestID

/-- The row that `ForgetCodex` writes for a Codex. -/
def forgottenRecord (m : Manager) (codexID : String) (codex : Codex) (materialized : Bool) :
    ForgottenSession :=
  { logicalOwnerID := m.logicalOwners codexID, cwd := codex.cwd, title := codex.title
    origin := codex.origin, createdAtUnixMS := codex.createdAtUnixMs
    updatedAtUnixMS := codex.lastActivityAtUnixMs, materialized := materialized }

/-- `ForgetCodex` up to the forgotten session. Nothing is written for a Codex that may not be
forgotten. -/
def recordForgotten (world : World) (codexID : String) (materialized : Bool)
    (statement : Statement) : Tables × Bool :=
  let m := world.host.manager
  match known m codexID with
  | .error _ => (world.tables, false)
  | .ok (_, codex) =>
      if codexID = "" ∨ codex.managementState ≠ .unmanaged then (world.tables, false)
      else upsertForgottenSession world.tables (m.sources codexID) codex.threadId
        (forgottenRecord m codexID codex materialized) statement

/-- The second binding of a restore: the thread that stands for a lost one. -/
def bindReplacement (tables : Tables) (plan : RestorePlan) (statement : Statement) :
    Tables × Bool :=
  match plan.dropped with
  | none => (tables, true)
  | some _ =>
      let bound := bindLogicalOwner tables plan.record.sessionSource plan.record.threadID
        plan.record.logicalOwnerID statement
      (bound.1, bound.2.isSome)

/-- `Restore` for one row. It ends at the first error. -/
def World.restore (config : Config) (world : World) (codexID newOpaqueID : String)
    (statement second : Statement) (read : ThreadRead) (access : Option WorkspaceAccessState)
    (now : Int) (storage : Storage) : Option World :=
  (world.host.manager.events.disk.codexes codexID).bind fun row =>
    match claimOwner world.tables row.sessionSource row.threadID row.logicalOwnerID newOpaqueID
        statement with
    | (tables, none) => some { world with tables := tables }
    | (tables, some owner) =>
        match restorePlan config now row owner read storage.reads with
        | none => some { world with tables := tables }
        | some plan =>
            match bindReplacement tables plan second with
            | (bound, false) => some { world with tables := bound }
            | (bound, true) =>
                (Host.step config world.host
                  { operation := .restore codexID owner read access, now := now
                    storage := storage }).map fun host =>
                  { world with host := host, tables := bound }

/-- One of the two halves of `publishCodex`. -/
def World.announce (config : Config) (world : World) (label : Announcements.Label) :
    Option World :=
  (Announcements.step config ⟨world.host, world.announcing⟩ label).map fun next =>
    { world with host := next.host, announcing := next.announcing }

/-- A step. Calls that are under way end with the process. -/
def step (config : Config) (world : World) : Label → Option World
  | .create thread title newOpaqueID statement =>
      if newOpaqueID = "" then none
      else some (world.create thread title newOpaqueID statement)
  | .lookup source sessionID =>
      if sessionID = "" ∨ trimSpace source = "" then none
      else
        let key := sessionOf source sessionID
        some { world with
          readings := ⟨key.1, key.2, world.tables.forgotten key⟩ :: world.readings }
  | .bind reading answer newOpaqueID statement =>
      if reading ∈ world.readings ∧ newOpaqueID ≠ "" then
        some (world.bind reading answer newOpaqueID statement)
      else none
  | .save grant codexID access requestID now storage =>
      if grant ∈ world.grants then
        (Host.step config world.host
          { operation := grant.operation codexID access requestID, now := now
            storage := storage }).map fun host =>
          { world with
            host := host, grants := world.grants.erase grant
            saved := grant.reading.toList ++ world.saved }
      else none
  | .unrecord reading writes =>
      if reading ∈ world.saved ∧ reading.forgotten.isSome then
        some { world with
          tables := deleteForgottenSession world.tables reading.source reading.sessionID writes
          saved := world.saved.erase reading }
      else none
  | .forget codexID requestID materialized statement now storage =>
      let recorded := recordForgotten world codexID materialized statement
      (Host.step config world.host
        { operation := .forget codexID requestID recorded.2, now := now
          storage := storage }).map fun host =>
        { world with host := host, tables := recorded.1 }
  | .restore codexID newOpaqueID statement second read access now storage =>
      if newOpaqueID = "" then none
      else world.restore config codexID newOpaqueID statement second read access now storage
  | .restart replayCapacity =>
      (Host.step config world.host { operation := .restart replayCapacity, now := 0 }).map
        fun host => { host := host, tables := world.tables }
  | .read codex requestID => world.announce config (.read codex requestID)
  | .commit announcement now commit => world.announce config (.commit announcement now commit)
  | .other label =>
      if label.operation.plain then
        (Host.step config world.host label).map fun host =>
          if label.crash.isSome then { host := host, tables := world.tables }
          else { world with host := host }
      else none

/-- An announcement that is committed over an unmanaged row shows the thread of the row. -/
def AnnouncesThread (world : World) : Label → Prop
  | .commit announcement _ _ => ∀ row,
      world.host.manager.events.disk.codexes announcement.codex.codexId = some row →
        row.managementState = .unmanaged → viewThread announcement.view = some row.threadID
  | _ => True

instance (world : World) (label : Label) : Decidable (AnnouncesThread world label) := by
  cases label <;> unfold AnnouncesThread <;> infer_instance

/-! ## The table of owners only grows -/

/-- Owners stay bound, and no new one is empty. -/
structure Extends (first second : Tables) : Prop where
  owners : ∀ key owner, first.owners key = some owner → second.owners key = some owner
  named : (∀ key owner, first.owners key = some owner → owner ≠ "") →
    ∀ key owner, second.owners key = some owner → owner ≠ ""

/-- The same, with the forgotten sessions left alone. -/
structure Grows (first second : Tables) : Prop extends Extends first second where
  forgotten : second.forgotten = first.forgotten

section Owners

variable {tables : Tables} {source sessionID ownerID newOpaqueID owner : String}
  {statement : Statement}

theorem extends_of_owners (same : second.owners = first.owners) :
    Extends first second :=
  ⟨fun _ _ bound => same ▸ bound, fun named => same ▸ named⟩

theorem Grows.refl (tables : Tables) : Grows tables tables := ⟨extends_of_owners rfl, rfl⟩

theorem Grows.trans (left : Grows first second) (right : Grows second third) : Grows first third :=
  ⟨⟨fun key owner bound => right.owners key owner (left.owners key owner bound),
    fun named => right.named (left.named named)⟩, right.forgotten.trans left.forgotten⟩

theorem insertOwner_grows (nonempty : ownerID ≠ "") (writes : Bool) :
    Grows tables (insertOwner tables source sessionID ownerID writes) := by
  unfold insertOwner
  split
  · next free =>
    refine ⟨⟨?_, ?_⟩, rfl⟩
    · intro key owner bound
      have distinct : key ≠ sessionOf source sessionID := by
        rintro rfl
        cases free.2.symm.trans bound
      exact (update_of_ne distinct _ _).trans bound
    · intro named key owner bound
      by_cases same : key = sessionOf source sessionID
      · subst same
        simp only [update_self, some.injEq] at bound
        exact bound ▸ nonempty
      · exact named key owner ((update_of_ne same _ _).symm.trans bound)
  · exact Grows.refl tables

theorem ensureLogicalOwner_grows (nonempty : newOpaqueID ≠ "") :
    Grows tables (ensureLogicalOwner tables source sessionID newOpaqueID statement).1 := by
  unfold ensureLogicalOwner
  split
  · exact Grows.refl tables
  · exact insertOwner_grows nonempty _

theorem bindLogicalOwner_grows :
    Grows tables (bindLogicalOwner tables source sessionID ownerID statement).1 := by
  unfold bindLogicalOwner
  split
  · exact Grows.refl tables
  next given =>
  refine insertOwner_grows ?_ _
  rintro rfl
  exact given (.inr rfl)

theorem ensureLogicalOwner_bound
    (done : (ensureLogicalOwner tables source sessionID newOpaqueID statement).2 = some owner) :
    (ensureLogicalOwner tables source sessionID newOpaqueID statement).1.owners
      (sessionOf source sessionID) = some owner := by
  unfold ensureLogicalOwner at done ⊢
  split at done
  · cases done
  · next given =>
    rw [if_neg given]
    exact (ite_none_right_eq_some.mp done).2

theorem bindLogicalOwner_bound
    (done : (bindLogicalOwner tables source sessionID ownerID statement).2 = some owner) :
    owner = ownerID ∧ (bindLogicalOwner tables source sessionID ownerID statement).1.owners
      (sessionOf source sessionID) = some owner := by
  unfold bindLogicalOwner at done ⊢
  split at done
  · cases done
  next given =>
  rw [if_neg given]
  obtain ⟨⟨-, bound⟩, same⟩ := ite_none_right_eq_some.mp done
  cases same
  exact ⟨rfl, bound⟩

theorem claimOwner_grows (nonempty : newOpaqueID ≠ "") :
    Grows tables (claimOwner tables source sessionID ownerID newOpaqueID statement).1 := by
  unfold claimOwner
  split
  · exact ensureLogicalOwner_grows nonempty
  · exact bindLogicalOwner_grows

/-- The owner that is claimed is bound to the session, and is the one that was given. -/
theorem claimOwner_bound
    (done : (claimOwner tables source sessionID ownerID newOpaqueID statement).2 = some owner) :
    (ownerID ≠ "" → owner = ownerID) ∧
      (claimOwner tables source sessionID ownerID newOpaqueID statement).1.owners
        (sessionOf source sessionID) = some owner := by
  unfold claimOwner at done ⊢
  split at done
  · next absent =>
    rw [if_pos absent]
    exact ⟨fun given => absurd absent given, ensureLogicalOwner_bound done⟩
  · next given =>
    rw [if_neg given]
    obtain ⟨same, bound⟩ := bindLogicalOwner_bound done
    exact ⟨fun _ => same, bound⟩

theorem bindReplacement_bound (dropped : plan.dropped = some (source, threadID))
    (done : (bindReplacement tables plan statement).2 = true) :
    (bindReplacement tables plan statement).1.owners
      (sessionOf plan.record.sessionSource plan.record.threadID) =
        some plan.record.logicalOwnerID := by
  simp only [bindReplacement, dropped] at done ⊢
  obtain ⟨owner, answered⟩ := isSome_iff_exists.mp done
  obtain ⟨rfl, bound⟩ := bindLogicalOwner_bound answered
  exact bound

theorem bindReplacement_grows : Grows tables (bindReplacement tables plan statement).1 := by
  unfold bindReplacement
  split
  · exact Grows.refl tables
  · dsimp only
    exact bindLogicalOwner_grows

end Owners

/-! ## Unmanaged rows

A managed Codex is restored from the columns of its row. An unmanaged one is restored with the
stored view, so this view must be of the thread in the column. -/

/-- The stored view is of the row's own thread, and a registered Codex sits where the row says. -/
structure RowSettled (m : Manager) (codexID : String) (row : CodexRecord) : Prop where
  stored : ∀ threadID, storedThread row = some threadID → threadID = row.threadID
  seat : ∀ place, seat m codexID = some place →
    place.source = (rowSeat row).source ∧ place.threadID = row.threadID

def Settled (m : Manager) : Prop :=
  ∀ codexID row, m.events.disk.codexes codexID = some row → row.managementState = .unmanaged →
    RowSettled m codexID row

section Settled

variable {m n : Manager} {codexID : String} {place : Seat}

/-- Proof: a row that becomes unmanaged is written from the tables; the view of one that is
unmanaged is replaced by one of the registered thread only. -/
theorem Settled.stays (settled : Settled m) (stays : Stays m n) : Settled n := by
  intro codexID row present state
  rcases stays.rows codexID row present with ⟨old, was, same, kept, stored⟩ | ⟨sits, stored⟩
  · have before := settled codexID old was (kept ▸ state)
    have thread : row.threadID = old.threadID := congrArg Seat.threadID same
    constructor
    · intro threadID shown
      rw [thread]
      rcases stored with unchanged | published
      · exact before.stored threadID (unchanged ▸ shown)
      · exact (before.seat (seatAt m codexID threadID)
          (by rw [Host.seat, ← published, shown, map_some])).2
    · intro place sits
      rw [thread, same]
      exact before.seat place (stays.seats codexID place sits)
  · have thread := threadIn_of_seat sits
    constructor
    · intro threadID shown
      exact some.inj (shown.symm.trans (stored.trans thread))
    · intro place after
      cases (stays.seats codexID place after).symm.trans sits
      exact ⟨rfl, rfl⟩

/-- A Codex is seated where its unmanaged row says, if it has one. -/
theorem Settled.seated (settled : Settled m) (seated : Seated m n codexID place)
    (agrees : ∀ row, m.events.disk.codexes codexID = some row →
      row.managementState = .unmanaged →
        place.source = (rowSeat row).source ∧ place.threadID = row.threadID) : Settled n := by
  intro other row present state
  by_cases same : other = codexID
  · subst same
    rcases seated.row with unchanged | ⟨written, found, columns, stored⟩
    · have before := unchanged ▸ present
      refine ⟨(settled other row before state).stored, ?_⟩
      intro shown sits
      cases sits.symm.trans seated.seat
      exact agrees row before state
    · cases present.symm.trans found
      constructor
      · intro threadID shown
        rw [some.inj (shown.symm.trans stored), ← columns]
        rfl
      · intro shown sits
        cases sits.symm.trans seated.seat
        exact ⟨by rw [columns], by rw [← columns]; rfl⟩
  · have before := settled other row (seated.rows other same ▸ present) state
    refine ⟨before.stored, ?_⟩
    intro shown sits
    exact before.seat shown (seated.others other same ▸ sits)

/-- An event is published with a view of the thread of its row, if this is unmanaged.

Proof: the columns of a row stay, and memory does. -/
theorem Settled.publish (settled : Settled m) (event : Event) (view : CurrentView)
    (commit : Commit) (thread : ∀ row, m.events.disk.codexes event.codexId = some row →
      row.managementState = .unmanaged → viewThread view = some row.threadID) :
    Settled (publishEvent m event view commit).1 := by
  intro codexID row found unmanaged
  obtain same | ⟨rfl, old, seq, present, written⟩ :=
    publishEvent_codexes m event view commit codexID
  · have before := settled codexID row (same ▸ found) unmanaged
    exact ⟨before.stored, before.seat⟩
  cases written.symm.trans found
  refine ⟨?_, (settled _ old present unmanaged).seat⟩
  intro threadID shown
  have stored : viewThread view = some threadID := shown
  exact some.inj (stored.symm.trans (thread old present unmanaged))

end Settled

/-! ## Each step -/

/-- The owners of registered Codexes and of the calls under way are bound to their sessions, and
the owner of a forgotten session is passed on by an import that has read its row. -/
structure Sound (world : World) : Prop where
  filed : Filed world.host.manager
  settled : Settled world.host.manager
  named : ∀ key owner, world.tables.owners key = some owner → owner ≠ ""
  seats : ∀ codexID place, seat world.host.manager codexID = some place →
    world.tables.owners (place.source, place.threadID) = some place.owner
  grants : ∀ grant ∈ world.grants,
    world.tables.owners (sessionOf grant.session.source grant.session.threadID) =
      some grant.session.ownerID
  follows : ∀ grant ∈ world.grants, ∀ reading record, grant.reading = some reading →
    reading.forgotten = some record → record.logicalOwnerID ≠ "" →
      grant.session.ownerID = record.logicalOwnerID
  announces : ∀ announcement ∈ world.announcing,
    Names announcement.codex.codexId announcement.view

/-- What a step does to owners and forgotten sessions. The row of a forgotten session that is
new has the owner that is bound to the session. -/
structure Kept (world next : World) : Prop where
  sound : Sound next
  owners : Extends world.tables next.tables
  records : ∀ key record, next.tables.forgotten key = some record →
    world.tables.forgotten key = some record ∨
      world.tables.owners key = some record.logicalOwnerID

/-- The owner of the call is bound to its session, and is the one of the forgotten session whose
row it has read. -/
structure Granted (tables : Tables) (grant : Grant) : Prop where
  bound : tables.owners (sessionOf grant.session.source grant.session.threadID) =
    some grant.session.ownerID
  follows : ∀ reading record, grant.reading = some reading → reading.forgotten = some record →
    record.logicalOwnerID ≠ "" → grant.session.ownerID = record.logicalOwnerID

section Steps

variable {config : Config} {world next : World}

/-- A step that seats nobody and under which the table of owners grows. -/
theorem Sound.kept (sound : Sound world) (filed : Filed next.host.manager)
    (settled : Settled next.host.manager) (grows : Extends world.tables next.tables)
    (seats : ∀ codexID place, seat next.host.manager codexID = some place →
      next.tables.owners (place.source, place.threadID) = some place.owner)
    (grants : ∀ grant ∈ next.grants, grant ∈ world.grants ∨ Granted next.tables grant)
    (announcing : ∀ announcement ∈ next.announcing, announcement ∈ world.announcing) :
    Sound next := by
  refine ⟨filed, settled, grows.named sound.named, seats, ?_, ?_,
    fun announcement member => sound.announces announcement (announcing announcement member)⟩
  · intro grant member
    rcases grants grant member with before | ⟨bound, -⟩
    · exact grows.owners _ _ (sound.grants grant before)
    · exact bound
  · intro grant member
    rcases grants grant member with before | ⟨-, follows⟩
    · exact sound.follows grant before
    · exact follows

theorem Sound.stays (sound : Sound world) (filed : Filed next.host.manager)
    (stays : Stays world.host.manager next.host.manager) (grows : Extends world.tables next.tables)
    (grants : ∀ grant ∈ next.grants, grant ∈ world.grants)
    (announcing : ∀ announcement ∈ next.announcing, announcement ∈ world.announcing) :
    Sound next := by
  refine sound.kept filed (sound.settled.stays stays) grows ?_ ?_ announcing
  · intro codexID place sits
    exact grows.owners _ _ (sound.seats codexID place (stays.seats codexID place sits))
  · intro grant member
    exact .inl (grants grant member)

/-- A new process. The calls that were under way are gone. -/
theorem Sound.restarted {host : Host.World} (sound : Sound world) (filed : Filed host.manager)
    (stays : Stays world.host.manager host.manager) :
    Kept world { host := host, tables := world.tables } := by
  have extended : Extends world.tables world.tables := extends_of_owners rfl
  refine ⟨sound.stays filed stays extended ?_ ?_, extended, fun _ _ => .inl⟩
  · intro grant member
    cases member
  · intro announcement member
    cases member

/-- A step of the tables only, with a call that may have got its owner. -/
theorem Sound.granted (sound : Sound world) (same : next.host = world.host)
    (grows : Grows world.tables next.tables) (grants : ∀ grant ∈ next.grants, grant ∈ world.grants ∨ Granted next.tables grant)
    (announcing : next.announcing = world.announcing) : Kept world next := by
  refine ⟨sound.kept ?_ ?_ grows.toExtends ?_ grants fun _ => announcing ▸ id,
    grows.toExtends, ?_⟩
  · rw [same]
    exact sound.filed
  · rw [same]
    exact sound.settled
  · rw [same]
    exact fun codexID place sits => grows.owners _ _ (sound.seats codexID place sits)
  · rw [grows.forgotten]
    exact fun _ _ => .inl

theorem create_kept (sound : Sound world) (thread : AppThread) (title : Text)
    (nonempty : newOpaqueID ≠ "") (statement : Statement) :
    Kept world (world.create thread title newOpaqueID statement) := by
  dsimp only [World.create]
  generalize normalizeSource thread.source = source
  have grows : Grows world.tables (ensureLogicalOwner world.tables source thread.id newOpaqueID
    statement).1 := ensureLogicalOwner_grows nonempty
  have bound := fun owner =>
    @ensureLogicalOwner_bound world.tables source thread.id newOpaqueID owner statement
  generalize ensureLogicalOwner world.tables source thread.id newOpaqueID statement = ensured at *
  refine sound.granted rfl grows ?_ rfl
  intro grant member
  rcases mem_append.mp member with made | before
  · obtain ⟨owner, done, rfl⟩ := map_eq_some_iff.mp (mem_toList.mp made)
    refine .inr ⟨bound owner done, ?_⟩
    intro reading record created
    cases created
  · exact .inl before

theorem bind_kept (sound : Sound world) (reading : Reading) (answer : ImportAnswer)
    (nonempty : newOpaqueID ≠ "") (statement : Statement) :
    Kept world (world.bind reading answer newOpaqueID statement) := by
  unfold World.bind
  split
  · exact sound.granted rfl (Grows.refl _) (fun grant => .inl) rfl
  refine sound.granted rfl (claimOwner_grows nonempty) ?_ rfl
  intro grant member
  rcases mem_append.mp member with made | before
  · obtain ⟨owner, done, rfl⟩ := map_eq_some_iff.mp (mem_toList.mp made)
    obtain ⟨passed, bound⟩ := claimOwner_bound done
    dsimp only
    refine .inr ⟨bound, ?_⟩
    rintro _ record ⟨⟩ recorded named
    rw [recorded] at passed
    exact passed named
  · exact .inl before

theorem Grant.registers (grant : Grant) (codexID : String) (access : Option WorkspaceAccessState)
    (requestID : String) :
    (grant.operation codexID access requestID).registers = some (codexID, grant.session, access) :=
  by
  unfold Grant.operation
  split <;> rfl

theorem save_kept (sound : Sound world) (member : grant ∈ world.grants)
    (stepped : Host.step config world.host
      { operation := grant.operation codexID access requestID, now := now
        storage := storage } = some host) :
    Kept world { world with
      host := host, grants := world.grants.erase grant
      saved := grant.reading.toList ++ world.saved } := by
  have filed := step_filed sound.filed stepped
  have rest : ∀ other ∈ world.grants.erase grant, other ∈ world.grants := fun _ =>
    mem_of_mem_erase
  have owners : Extends world.tables world.tables := extends_of_owners rfl
  refine ⟨?_, owners, fun _ _ => .inl⟩
  rcases step_registered (grant.registers codexID access requestID) stepped with
    same | ⟨fresh, seated, -⟩
  · refine sound.stays filed ?_ owners rest fun _ => id
    rw [same]
    exact Acts.start.stays
  · refine sound.kept filed (sound.settled.seated seated ?_) owners ?_
      (fun other left => .inl (rest other left)) fun _ => id
    · intro row present
      have absent := fresh.2.2.2
      rw [present] at absent
      cases absent
    · intro other place sits
      by_cases same : other = codexID
      · subst same
        cases seated.seat.symm.trans sits
        exact sound.grants grant member
      · exact sound.seats other place (seated.others other same ▸ sits)

/-- `ForgetCodex` writes the owner that the Codex has. -/
theorem recordForgotten_cases (world : World) (codexID : String) (materialized : Bool)
    (statement : Statement) :
    let recorded := recordForgotten world codexID materialized statement
    recorded.1.owners = world.tables.owners ∧
      (recorded = (world.tables, false) ∨
        ∃ place record, seat world.host.manager codexID = some place ∧
          record.logicalOwnerID = place.owner ∧
          recorded.1.forgotten = update world.tables.forgotten
            (place.source, place.threadID) (some record)) := by
  intro recorded
  cases found : known world.host.manager codexID with
  | error error =>
    have none : recorded = (world.tables, false) := by simp [recorded, recordForgotten, found]
    exact ⟨by rw [none], .inl none⟩
  | ok pair =>
    obtain ⟨view, codex⟩ := pair
    by_cases refused : codexID = "" ∨ codex.managementState ≠ .unmanaged
    · have none : recorded = (world.tables, false) := by
        simp [recorded, recordForgotten, found, refused]
      exact ⟨by rw [none], .inl none⟩
    have written : recorded = upsertForgottenSession world.tables
        (world.host.manager.sources codexID) codex.threadId
        (forgottenRecord world.host.manager codexID codex materialized) statement := by
      simp only [recorded, recordForgotten, found, if_neg refused]
    rw [written]
    unfold upsertForgottenSession
    split
    · exact ⟨rfl, .inl rfl⟩
    split
    · refine ⟨rfl, .inr ⟨seatAt world.host.manager codexID codex.threadId, _, ?_, rfl, rfl⟩⟩
      simp [seat, threadIn, known_remembered found, viewThread, known_codex found]
    · exact ⟨rfl, .inl rfl⟩

theorem forget_kept (sound : Sound world) (stepped : Host.step config world.host
      { operation := .forget codexID requestID
          (recordForgotten world codexID materialized statement).2
        now := now, storage := storage } = some host) :
    Kept world { world with
      host := host, tables := (recordForgotten world codexID materialized statement).1 } := by
  obtain ⟨owners, forgotten⟩ := recordForgotten_cases world codexID materialized statement
  have extended := extends_of_owners owners
  refine ⟨sound.stays (step_filed sound.filed stepped) (step_stays sound.filed rfl stepped)
    extended (fun _ => id) fun _ => id, extended, ?_⟩
  intro key record present
  rcases forgotten with same | ⟨place, written, sits, owner, updated⟩
  · rw [same] at present
    exact .inl present
  dsimp only at present
  rw [updated] at present
  by_cases here : key = (place.source, place.threadID)
  · subst here
    simp only [update_self, some.injEq] at present
    subst present
    exact .inr (owner ▸ sound.seats codexID place sits)
  · exact .inl ((update_of_ne here _ _).symm.trans present)

/-- The seat that a restore gives has the owner that is bound to it. -/
theorem planSeat_bound {read : ThreadRead}
    (claimed : (claimOwner tables row.sessionSource row.threadID row.logicalOwnerID newOpaqueID
      statement) = (claims, some owner))
    (planned : restorePlan config now row owner read reads = some plan)
    (rebound : bindReplacement claims plan second = (bound, true)) :
    bound.owners ((planSeat plan).source, (planSeat plan).threadID) =
      some (planSeat plan).owner := by
  have named := claimOwner_bound (congrArg Prod.snd claimed)
  rw [claimed] at named
  obtain ⟨given, here⟩ := named
  obtain ⟨own, columns, -⟩ := restorePlan_columns planned
  have owned : plan.record.logicalOwnerID = owner := by
    rw [own]
    split
    · rfl
    · next present => exact (given present).symm
  have grows : Grows claims (bindReplacement claims plan second).1 := bindReplacement_grows
  rw [rebound] at grows
  cases dropped : plan.dropped with
  | none =>
    obtain ⟨source, thread⟩ := columns dropped
    have same : ((planSeat plan).source, (planSeat plan).threadID) =
        sessionOf row.sessionSource row.threadID := by
      simp [planSeat, rowSeat, sessionOf, source, thread]
    rw [same, show (planSeat plan).owner = owner from owned]
    exact grows.owners _ _ here
  | some pair =>
    have done := bindReplacement_bound dropped (congrArg Prod.snd rebound)
    rw [rebound] at done
    exact done

/-- Proof: the owner of the row is bound to its session first, and that of a replaced thread to
the new one. Only then is the Codex registered. -/
theorem restore_kept (sound : Sound world) (nonempty : newOpaqueID ≠ "") {read : ThreadRead}
    (restored : world.restore config codexID newOpaqueID statement second read access now storage =
      some next) : Kept world next := by
  obtain ⟨row, present, rest⟩ := bind_eq_some_iff.mp restored
  have own := sound.filed.rows codexID row present
  have grows : Grows world.tables (claimOwner world.tables row.sessionSource row.threadID
    row.logicalOwnerID newOpaqueID statement).1 := claimOwner_grows nonempty
  have ended : ∀ tables, Grows world.tables tables →
      some { world with tables := tables } = some next → Kept world next := by
    rintro tables grows ⟨⟩
    exact sound.granted rfl grows (fun _ => .inl) rfl
  split at rest
  · next tables claimed =>
    rw [claimed] at grows
    exact ended tables grows rest
  next tables owner claimed =>
  rw [claimed] at grows
  split at rest
  · exact ended tables grows rest
  next plan planned =>
  have regrows : Grows tables (bindReplacement tables plan second).1 := bindReplacement_grows
  split at rest
  · next bound refused =>
    rw [refused] at regrows
    exact ended bound (grows.trans regrows) rest
  next bound rebound =>
  rw [rebound] at regrows
  obtain ⟨host, stepped, rfl⟩ := map_eq_some_iff.mp rest
  have whole := grows.trans regrows
  have filed := step_filed sound.filed stepped
  refine ⟨?_, whole.toExtends, fun key record found => .inl (whole.forgotten ▸ found)⟩
  rcases restore_step present planned stepped with same | ⟨state, finished⟩
  · refine sound.stays filed ?_ whole.toExtends (fun _ => id) fun _ => id
    rw [same]
    exact Acts.start.stays
  · obtain ⟨rfl, named⟩ := restorePlan_named own planned
    have seated : Seated world.host.manager host.manager plan.record.codexID (planSeat plan) := by
      rw [finished]
      exact (finishRestore_seated state storage.writes named (restorePlan_thread
        (fun unmanaged => (sound.settled _ row present unmanaged).stored) planned)).1
    obtain ⟨-, columns, kept, -⟩ := restorePlan_columns planned
    refine sound.kept filed (sound.settled.seated seated ?_) whole.toExtends ?_
      (fun _ => .inl) fun _ => id
    · intro found again unmanaged
      cases present.symm.trans again
      obtain ⟨source, thread⟩ := columns (kept unmanaged)
      simp [planSeat, rowSeat, source, thread]
    · intro other place sits
      by_cases same : other = plan.record.codexID
      · subst same
        cases seated.seat.symm.trans sits
        exact planSeat_bound claimed planned rebound
      · exact whole.owners _ _ (sound.seats other place (seated.others other same ▸ sits))

/-- The late half of an announcement. -/
theorem commit_kept (announcement : Announcements.Announcement) (now : Int) (commit : Commit)
    (sound : Sound world) (announces : AnnouncesThread world (.commit announcement now commit))
    (stepped : step config world (.commit announcement now commit) = some next) :
    Kept world next := by
  simp only [step, World.announce, Announcements.step] at stepped
  split at stepped
  · next member =>
    cases stepped
    have owned := boundCanonicalEvent_codexId config.sizes config.contentBudget
      { codexId := announcement.codex.codexId, occurredAtUnixMs := now
        causedByRequestId := announcement.requestID, body := .codexUpdated announcement.codex }
    have named := sound.announces announcement member
    have extended : Extends world.tables world.tables := extends_of_owners rfl
    refine ⟨sound.kept ?_ ?_ extended sound.seats (fun _ => .inl) fun _ => mem_of_mem_erase,
      extended, fun _ _ => .inl⟩
    · exact Acts.filed sound.filed (.publish _ commit (owned ▸ named) .start)
    · refine sound.settled.publish _ announcement.view commit ?_
      intro row present
      rw [owned] at present
      exact announces row present
  · cases stepped

theorem step_kept (sound : Sound world) (announces : AnnouncesThread world label)
    (stepped : step config world label = some next) : Kept world next := by
  cases label with
  | create thread title newOpaqueID statement =>
    obtain ⟨nonempty, taken⟩ := ite_none_left_eq_some.mp stepped
    cases taken
    exact create_kept sound thread title nonempty statement
  | lookup source sessionID =>
    obtain ⟨-, taken⟩ := ite_none_left_eq_some.mp stepped
    cases taken
    exact sound.granted rfl (Grows.refl _) (fun _ => .inl) rfl
  | bind reading answer newOpaqueID statement =>
    obtain ⟨⟨-, nonempty⟩, taken⟩ := ite_none_right_eq_some.mp stepped
    cases taken
    exact bind_kept sound reading answer nonempty statement
  | save grant codexID access requestID now storage =>
    obtain ⟨member, taken⟩ := ite_none_right_eq_some.mp stepped
    obtain ⟨host, moved, rfl⟩ := map_eq_some_iff.mp taken
    exact save_kept sound member moved
  | unrecord reading writes =>
    obtain ⟨-, taken⟩ := ite_none_right_eq_some.mp stepped
    cases taken
    have owners : (deleteForgottenSession world.tables reading.source reading.sessionID
        writes).owners = world.tables.owners := by
      unfold deleteForgottenSession
      split <;> rfl
    have extended := extends_of_owners owners
    refine ⟨sound.stays sound.filed Acts.start.stays extended (fun _ => id) fun _ => id,
      extended, ?_⟩
    intro key record present
    unfold deleteForgottenSession at present
    split at present
    · by_cases here : key = sessionOf reading.source reading.sessionID
      · simp [here] at present
      · exact .inl ((update_of_ne here _ _).symm.trans present)
    · exact .inl present
  | forget codexID requestID materialized statement now storage =>
    simp only [step, map_eq_some_iff] at stepped
    obtain ⟨host, moved, rfl⟩ := stepped
    exact forget_kept sound moved
  | restore codexID newOpaqueID statement second read access now storage =>
    obtain ⟨nonempty, taken⟩ := ite_none_left_eq_some.mp stepped
    exact restore_kept sound nonempty taken
  | restart replayCapacity =>
    simp only [step, map_eq_some_iff] at stepped
    obtain ⟨host, moved, rfl⟩ := stepped
    exact sound.restarted (step_filed sound.filed moved) (step_stays sound.filed rfl moved)
  | read codex requestID =>
    simp only [step, World.announce, Announcements.step] at stepped
    split at stepped
    · cases stepped
      have extended : Extends world.tables world.tables := extends_of_owners rfl
      refine ⟨{ sound with announces := ?_ }, extended, fun _ _ => .inl⟩
      intro announcement member
      rcases mem_append.mp member with made | before
      · obtain ⟨view, shown, rfl⟩ := map_eq_some_iff.mp (mem_toList.mp made)
        exact sound.filed.memory codex.codexId view shown
      · exact sound.announces announcement before
    · cases stepped
  | commit announcement now commit =>
    exact commit_kept announcement now commit sound announces stepped
  | other label =>
    obtain ⟨plain, taken⟩ := ite_none_right_eq_some.mp stepped
    obtain ⟨host, moved, rfl⟩ := map_eq_some_iff.mp taken
    have filed := step_filed sound.filed moved
    have staying : label.operation.staying = true := by
      cases operation : label.operation <;> simp_all [Operation.staying, Operation.plain]
    have stays := step_stays sound.filed staying moved
    split
    · exact sound.restarted filed stays
    · exact ⟨sound.stays filed stays (extends_of_owners rfl) (fun _ => id) fun _ => id,
        extends_of_owners rfl, fun _ _ => .inl⟩

section

variable (sound : Sound world) (meets : Runs.Meets (step config) AnnouncesThread world labels)
  (ran : Runs.run (step config) world labels = some next)
include sound meets ran

theorem run_sound : Sound next := by
  refine Runs.run_invariant Sound ?_ sound meets ran
  exact fun _ _ _ sound announces stepped => (step_kept sound announces stepped).sound

theorem run_owners (bound : world.tables.owners key = some owner) :
    next.tables.owners key = some owner := by
  refine (Runs.run_invariant (fun world => Sound world ∧ world.tables.owners key = some owner) ?_
    ⟨sound, bound⟩ meets ran).2
  rintro world label next ⟨sound, bound⟩ announces stepped
  have kept := step_kept sound announces stepped
  exact ⟨kept.sound, kept.owners.owners key owner bound⟩

/-- Once a session is bound, the rows of its forgotten session all have this owner, if the one
that is there has. -/
theorem run_records (bound : world.tables.owners key = some owner)
    (recorded : ∀ record, world.tables.forgotten key = some record →
      record.logicalOwnerID = owner) :
    ∀ record, next.tables.forgotten key = some record → record.logicalOwnerID = owner := by
  refine (Runs.run_invariant (fun world => Sound world ∧ world.tables.owners key = some owner ∧
      ∀ record, world.tables.forgotten key = some record → record.logicalOwnerID = owner) ?_
    ⟨sound, bound, recorded⟩ meets ran).2.2
  rintro world label next ⟨sound, bound, recorded⟩ announces stepped
  have kept := step_kept sound announces stepped
  refine ⟨kept.sound, kept.owners.owners key owner bound, ?_⟩
  intro record present
  rcases kept.records key record present with before | owned
  · exact recorded record before
  · exact some.inj (owned.symm.trans bound)

end

theorem forgetCodex_unrecorded (m : Manager) (codexID requestID : String) (now : Int)
    (outcome : CommitOutcome) (answers : Bool) :
    (forgetCodex m codexID requestID now false outcome answers).1 = m := by
  unfold forgetCodex
  split
  · rfl
  split
  · rfl
  · split <;> rfl

/-- A Codex that is gone from memory behind `ForgetCodex` is recorded with its owner. -/
theorem forget_recorded (sits : seat world.host.manager codexID = some place)
    (stepped : step config world
      (.forget codexID requestID materialized statement now storage) = some next)
    (gone : next.host.manager.byID codexID = none) :
    ∃ record, next.tables.forgotten (place.source, place.threadID) = some record ∧
      record.logicalOwnerID = place.owner := by
  simp only [step, map_eq_some_iff] at stepped
  obtain ⟨host, moved, rfl⟩ := stepped
  obtain ⟨-, none | ⟨shown, record, again, owner, updated⟩⟩ :=
    recordForgotten_cases world codexID materialized statement
  · -- without a record the Codex is still there
    simp only [Host.step, perform, none, some.injEq] at moved
    subst moved
    rw [put_manager, forgetCodex_unrecorded] at gone
    simp [seat, threadIn, gone] at sits
  · cases sits.symm.trans again
    exact ⟨record, by simp [updated], owner⟩

theorem save_owner
    (stepped : step config world (.save grant codexID access requestID now storage) = some next)
    (sits : seat next.host.manager codexID = some place) :
    grant ∈ world.grants ∧ place.owner = grant.session.ownerID := by
  obtain ⟨member, taken⟩ := ite_none_right_eq_some.mp stepped
  obtain ⟨host, moved, rfl⟩ := map_eq_some_iff.mp taken
  refine ⟨member, ?_⟩
  have registers := grant.registers codexID access requestID
  rcases step_registered registers moved with same | ⟨-, seated, -⟩
  · -- the id was fresh, so nothing is registered under it
    obtain ⟨fresh, -⟩ := step_registers registers moved
    have absent : world.host.manager.byID codexID = none := isNone_iff_eq_none.mp fresh.2.2.1
    rw [same] at sits
    simp [seat, threadIn, absent] at sits
  · cases seated.seat.symm.trans sits
    rfl

end Steps

/-! ## Every run -/

/-- A Host that has just started on a database, perhaps an old one without owners: nothing is
registered, no call is under way, every row stands under its id and has its own thread stored if
it is unmanaged, and the owners that are bound are not empty. -/
structure Starts (world : World) : Prop where
  filed : Filed world.host.manager
  stored : ∀ codexID row, world.host.manager.events.disk.codexes codexID = some row →
    row.managementState = .unmanaged →
      ∀ threadID, storedThread row = some threadID → threadID = row.threadID
  named : ∀ key owner, world.tables.owners key = some owner → owner ≠ ""
  empty : ∀ codexID, world.host.manager.byID codexID = none
  idle : world.grants = []
  quiet : world.announcing = []

theorem Starts.sound (starts : Starts world) : Sound world := by
  have nobody : ∀ codexID, seat world.host.manager codexID = none := by
    intro codexID
    simp [seat, threadIn, starts.empty codexID]
  refine ⟨starts.filed, ?_, starts.named, ?_, ?_, ?_, ?_⟩
  · intro codexID row present state
    refine ⟨starts.stored codexID row present state, ?_⟩
    intro place sits
    cases (nobody codexID).symm.trans sits
  · intro codexID place sits
    cases (nobody codexID).symm.trans sits
  · simp [starts.idle]
  · simp [starts.idle]
  · simp [starts.quiet]

/-- A run in which a Codex is forgotten and its session imported again: the import reads the row
that is there of the forgotten session, and saves a Codex under a new id. Whether the thread was
found or another one stands for it is left open. Every step meets the condition. -/
structure Reimport (config : Config) (start : World) where
  codexID : String
  newID : String
  place : Seat
  record : ForgottenSession
  grant : Grant
  before : World
  after : World
  asked : World
  late : World
  last : World
  history : List Label
  between : List Label
  during : List Label
  meetsHistory : Runs.Meets (step config) AnnouncesThread start history
  reached : Runs.run (step config) start history = some before
  sits : seat before.host.manager codexID = some place
  forgets : ∃ requestID materialized statement now storage,
    step config before (.forget codexID requestID materialized statement now storage) = some after
  gone : after.host.manager.byID codexID = none
  meetsBetween : Runs.Meets (step config) AnnouncesThread after between
  waits : Runs.run (step config) after between = some asked
  recorded : asked.tables.forgotten (place.source, place.threadID) = some record
  meetsDuring : Runs.Meets (step config) AnnouncesThread asked during
  binds : Runs.run (step config) asked during = some late
  reading : grant.reading = some ⟨place.source, place.threadID, some record⟩
  saves : ∃ access requestID now storage,
    step config late (.save grant newID access requestID now storage) = some last

/-- In every run from a start of the Host whose announcements show the threads of the unmanaged
rows they are stored in, the owner of a session never changes once it is bound, every registered Codex has the owner that is bound to its source and thread, and a Codex
of a session that is imported after it was forgotten has the owner of the forgotten one.

Proof: for the last part, the owner of the forgotten Codex is bound to its session, so it is the
owner of every row of the forgotten session from then on; it is not empty, so the import binds
it to the thread it has chosen, and saves the Codex with it. -/
theorem owners_follow_sessions (config : Config) (start : World) (starts : Starts start) :
    (∀ labels rest middle last, Runs.Meets (step config) AnnouncesThread start labels →
      Runs.run (step config) start labels = some middle →
      Runs.Meets (step config) AnnouncesThread middle rest →
      Runs.run (step config) middle rest = some last →
        ∀ source sessionID owner,
          logicalOwnerForSession middle.tables source sessionID = some owner →
            logicalOwnerForSession last.tables source sessionID = some owner) ∧
      (∀ labels last, Runs.Meets (step config) AnnouncesThread start labels →
        Runs.run (step config) start labels = some last → ∀ codexID place, seat last.host.manager codexID = some place →
          logicalOwnerForSession last.tables place.source place.threadID = some place.owner) ∧
      ∀ again : Reimport config start, ∀ place,
        seat again.last.host.manager again.newID = some place →
          place.owner = again.place.owner := by
  have sound : ∀ labels last, Runs.Meets (step config) AnnouncesThread start labels →
      Runs.run (step config) start labels = some last → Sound last :=
    fun labels last meets ran => run_sound starts.sound meets ran
  refine ⟨?_, ?_, ?_⟩
  · intro labels rest middle last meets ran continues runs source sessionID owner bound
    exact run_owners (sound labels middle meets ran) continues runs bound
  · intro labels last meets ran codexID place sits
    have normal : normalizeSessionSource place.source = place.source := by
      obtain ⟨threadID, -, rfl⟩ := map_eq_some_iff.mp sits
      exact normalizeSessionSource_idem _
    rw [logicalOwnerForSession, sessionOf, normal]
    exact (sound labels last meets ran).seats codexID place sits
  · intro again place sits
    have before := sound again.history again.before again.meetsHistory again.reached
    obtain ⟨requestID, materialized, statement, now, storage, forgets⟩ := again.forgets
    have met : AnnouncesThread again.before
        (.forget again.codexID requestID materialized statement now storage) := trivial
    have kept := step_kept before met forgets
    have owned := before.seats again.codexID again.place again.sits
    have bound := kept.owners.owners _ _ owned
    obtain ⟨first, present, owner⟩ := forget_recorded again.sits forgets again.gone
    have record : again.record.logicalOwnerID = again.place.owner := by
      refine run_records kept.sound again.meetsBetween again.waits bound ?_ again.record again.recorded
      intro other shown
      rw [← some.inj (present.symm.trans shown)]
      exact owner
    obtain ⟨access, saveID, savedAt, saving, saves⟩ := again.saves
    obtain ⟨member, same⟩ := save_owner saves sits
    have late := run_sound (run_sound kept.sound again.meetsBetween again.waits) again.meetsDuring
      again.binds
    rw [same, ← record]
    refine late.follows again.grant member _ again.record again.reading rfl ?_
    rw [record]
    exact before.named _ _ owned

/-- A Host on an empty database. -/
def sampleLineage : World :=
  { host := sampleHost, tables := ⟨fun _ => none, fun _ => none⟩ }

theorem sampleLineage_starts : Starts sampleLineage := by
  have noRows : ∀ codexID, sampleLineage.host.manager.events.disk.codexes codexID = none :=
    fun codexID => (sampleHost_empty codexID).2
  refine ⟨sampleHost_filed, ?_, ?_, fun codexID => (sampleHost_empty codexID).1, rfl, rfl⟩
  · intro codexID row present
    cases (noRows codexID).symm.trans present
  · intro key owner bound
    have unbound : sampleLineage.tables.owners key = none := rfl
    cases unbound.symm.trans bound

def sampleThread : AppThread :=
  { id := "thr", source := some "cli", cwd := "/w", name := none, createdAt := 0 }

/-- A Codex is created on the thread, and its announcement has read the view. -/
def sampleCreating : List Label :=
  [.create sampleThread [] "own" {},
    .save ⟨sampleSession, 0, none⟩ "cdx" (some sampleAccess) "create" 5 {},
    .read Announcements.sampleRead.codex "create"]

/-- The Codex is left unmanaged before it is announced. -/
def sampleHistory : List Label :=
  sampleCreating ++ [.other { operation := .unmanage "cdx" "unmanage", now := 6 },
    .commit Announcements.sampleRead 6 {}]

def sampleForget : Label := .forget "cdx" "forget" false {} 7 {}

def sampleRecord : ForgottenSession :=
  { logicalOwnerID := "own", cwd := "/w", title := [], origin := .remoteCreated
    createdAtUnixMS := 5, updatedAtUnixMS := 5, materialized := false }

/-- The app-server has lost the thread, and another one is started for it. -/
def sampleDuring : List Label :=
  [.lookup "cli" "thr",
    .bind ⟨"cli", "thr", some sampleRecord⟩
      (.failed false true false (some { sampleThread with id := "thr2", source := none })) "new" {}]

def sampleGrant : Grant :=
  ⟨{ sampleSession with threadID := "thr2" }, 0, some ⟨"cli", "thr", some sampleRecord⟩⟩

def sampleSave : Label := .save sampleGrant "cdx2" (some sampleAccess) "import" 9 {}

/-- The imported session stands on a new thread, with the owner of the forgotten Codex. -/
theorem owners_follow_sessions_replaced :
    Starts sampleLineage ∧ ∃ again : Reimport sampleConfig sampleLineage,
      again.place = ⟨"cli", "thr", "own"⟩ ∧ ∃ place,
        seat again.last.host.manager again.newID = some place ∧ place.threadID = "thr2" ∧
          place.owner = "own" := by
  have whole : ((Runs.run (step sampleConfig) sampleLineage sampleHistory).bind fun before =>
      (step sampleConfig before sampleForget).bind fun after =>
      (Runs.run (step sampleConfig) after sampleDuring).bind fun late =>
      (step sampleConfig late sampleSave).map fun last =>
        (seat before.host.manager "cdx", (after.host.manager.byID "cdx").isNone,
          after.tables.forgotten ("cli", "thr"),
          (seat last.host.manager "cdx2").map Seat.threadID)) =
      some (some ⟨"cli", "thr", "own"⟩, true, some sampleRecord, some "thr2") := by
    decide +kernel
  obtain ⟨before, reached, whole⟩ := bind_eq_some_iff.mp whole
  obtain ⟨after, forgets, whole⟩ := bind_eq_some_iff.mp whole
  obtain ⟨late, binds, whole⟩ := bind_eq_some_iff.mp whole
  obtain ⟨last, saves, facts⟩ := map_eq_some_iff.mp whole
  simp only [Prod.mk.injEq] at facts
  obtain ⟨sits, gone, recorded, thread⟩ := facts
  obtain ⟨place, seated, thread⟩ := map_eq_some_iff.mp thread
  let again : Reimport sampleConfig sampleLineage :=
    { codexID := "cdx", newID := "cdx2", place := ⟨"cli", "thr", "own"⟩
      record := sampleRecord, grant := sampleGrant, before := before, after := after
      asked := after, late := late, last := last, history := sampleHistory, between := []
      during := sampleDuring, meetsHistory := by decide +kernel, reached := reached, sits := sits
      forgets := ⟨_, _, _, _, _, forgets⟩, gone := isNone_iff_eq_none.mp gone
      meetsBetween := trivial, waits := rfl, recorded := recorded
      meetsDuring := ⟨trivial, fun _ _ => ⟨trivial, fun _ _ => trivial⟩⟩, binds := binds
      reading := rfl, saves := ⟨_, _, _, _, saves⟩ }
  have owner := (owners_follow_sessions sampleConfig sampleLineage sampleLineage_starts).2.2 again
    place seated
  exact ⟨sampleLineage_starts, again, rfl, place, seated, thread, owner⟩

/-- Before the announcement the thread is lost, and one of another source stands for it; and the
Codex is left unmanaged. The next restore goes by the view that the announcement has stored. -/
def sampleOvertaken : List Label :=
  sampleCreating ++
    [.restore "cdx" "new" {} {} (.failed false true (some ⟨"thr2", some "vscode", ""⟩))
      (some sampleAccess) 6 {},
    .other { operation := .unmanage "cdx" "unmanage", now := 7 },
    .commit Announcements.sampleRead 8 {},
    .restore "cdx" "new" {} {} (.failed false false none) (some sampleAccess) 9 {}]

/-- Every storage call succeeds, and yet the Codex is registered with a source and a thread to
which no owner is bound. -/
theorem late_announcement_loses_owner :
    Starts sampleLineage ∧ ∃ last,
      Runs.run (step sampleConfig) sampleLineage sampleOvertaken = some last ∧
      seat last.host.manager "cdx" = some ⟨"vscode", "thr", "own"⟩ ∧
      logicalOwnerForSession last.tables "vscode" "thr" = none := by
  have whole : (Runs.run (step sampleConfig) sampleLineage sampleOvertaken).map (fun last =>
      (seat last.host.manager "cdx", logicalOwnerForSession last.tables "vscode" "thr")) =
      some (some ⟨"vscode", "thr", "own"⟩, none) := by
    decide +kernel
  obtain ⟨last, ran, facts⟩ := map_eq_some_iff.mp whole
  simp only [Prod.mk.injEq] at facts
  exact ⟨sampleLineage_starts, last, ran, facts⟩

end CodexRemote.Lineage
