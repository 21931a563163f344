import Mathlib.Data.List.DropRight
import Mathlib.Logic.Function.Basic
import CodexRemote.Protocol

/-!
# Durable Codex rows and event heads

The SQLite tables `codexes` and `event_heads` as `internal/persistence/store.go`
reads and writes them. A table is a partial function from its primary key. One
statement or transaction is one atomic step; whether it takes effect is an
outcome supplied by the environment, because a driver error may or may not mean
that the transaction is durable.

Event numbers are natural numbers. The column holds a signed 64-bit integer; no
run reaches that many commits, and every comparison in the code precedes the one
addition that could wrap.
-/
namespace CodexRemote.Persistence

open Protocol Function List Option

variable {codexID : String} {now : Int}

/-- What the bytes of `current_view_json` are to a reader. `absent` is NULL or
empty; `legacy` is the first protocol's shape, which plain ProtoJSON rejects and
only the Manager's migrating reader accepts; `unreadable` is anything else. -/
inductive Snapshot where
  | absent
  | unreadable
  | legacy (view : CurrentView)
  | readable (view : CurrentView)
  deriving DecidableEq

/-- `protojson.Unmarshal` into a `CurrentView`, run only on nonempty bytes. -/
def Snapshot.decode : Snapshot → Option CurrentView
  | .readable view => some view
  | _ => none

/-- One row of `codexes`. Enumerations are stored by name and read back as
themselves; a name the program does not know reads as the default. -/
structure CodexRecord where
  codexID : String
  threadID : String
  sessionSource : String
  logicalOwnerID : String
  cwd : String
  title : Text
  origin : CodexOrigin
  status : CodexStatus
  activeTurnID : String
  runtimeVersion : String
  managementState : ManagementState
  createdAtUnixMS : Int
  importedAtUnixMS : Int
  lastActivityAtUnixMS : Int
  managedUntilUnixMS : Int
  warningDeadlineUnixMS : Int
  currentViewJSON : Snapshot
  manualTitleOverride : Bool
  deriving DecidableEq

/-- The tables the event path and the lifecycle path share. -/
structure Disk where
  codexes : String → Option CodexRecord
  eventHeads : String → Option Nat

/-- A database in which no Codex has been registered. -/
def Disk.empty : Disk := ⟨fun _ => none, fun _ => none⟩

/-- The head a query coalesces to zero when no event was ever committed. -/
def Disk.head (disk : Disk) (codexID : String) : Nat := (disk.eventHeads codexID).getD 0

/-- The code points `strings.TrimSpace` removes: Unicode's `White_Space`. -/
def isSpace (char : Char) : Bool :=
  let code := char.toNat
  (9 ≤ code && code ≤ 13) || code == 0x20 || code == 0x85 || code == 0xA0 || code == 0x1680 ||
    (0x2000 ≤ code && code ≤ 0x200A) || code == 0x2028 || code == 0x2029 || code == 0x202F ||
    code == 0x205F || code == 0x3000

/-- Text without space at both ends. -/
def trimmed (chars : List Char) : List Char := (chars.dropWhile isSpace).rdropWhile isSpace

/-- `normalizeSessionSource`: surrounding space is dropped and nothing is called
`unknown`. -/
def normalizeSessionSource (source : String) : String :=
  if trimmed source.toList = [] then "unknown" else String.ofList (trimmed source.toList)

theorem trimmed_idem (chars : List Char) : trimmed (trimmed chars) = trimmed chars := by
  have front : (trimmed chars).dropWhile isSpace = trimmed chars := by
    cases left : trimmed chars with
    | nil => rfl
    | cons first rest =>
      -- the first character is the first one that the front was cut to
      obtain ⟨tail, whole⟩ := List.rdropWhile_prefix isSpace (l := chars.dropWhile isSpace)
      have start : chars.dropWhile isSpace = first :: (rest ++ tail) := by
        rw [← whole, show rdropWhile isSpace _ = first :: rest from left]
        rfl
      have again := dropWhile_idempotent isSpace chars
      rw [start] at again
      by_cases space : isSpace first = true
      · have shorter := congrArg length again
        rw [dropWhile_cons_of_pos space] at shorter
        have bound := (dropWhile_suffix isSpace (l := rest ++ tail)).length_le
        simp only [length_cons] at shorter
        omega
      · exact dropWhile_cons_of_neg space
  unfold trimmed at front ⊢
  rw [front]
  exact rdropWhile_idempotent isSpace _

/-- A source that was normalized stays as it is. -/
theorem normalizeSessionSource_idem (source : String) :
    normalizeSessionSource (normalizeSessionSource source) = normalizeSessionSource source := by
  have unfolds : ∀ text : String, normalizeSessionSource text =
      if trimmed text.toList = [] then "unknown" else String.ofList (trimmed text.toList) := by
    intro text
    rfl
  by_cases blank : trimmed source.toList = []
  · rw [unfolds source, if_pos blank]
    decide +kernel
  have again := unfolds (normalizeSessionSource source)
  rw [unfolds source, if_neg blank, String.toList_ofList, trimmed_idem, if_neg blank] at again
  rw [unfolds source, if_neg blank]
  exact again

/-- `UpsertCodex`, when the statement succeeds: insert the row, or replace every
column of an existing one except its creation time. The statement can also fail,
for instance on the unique pair of source and thread; then nothing changes. -/
def upsertCodex (disk : Disk) (row : CodexRecord) : Disk :=
  let written := { row with sessionSource := normalizeSessionSource row.sessionSource }
  let stored := match disk.codexes row.codexID with
    | none => written
    | some old => { written with createdAtUnixMS := old.createdAtUnixMS }
  { disk with codexes := update disk.codexes row.codexID (some stored) }

/-- The row that a write leaves under its id. -/
theorem upsertCodex_written (disk : Disk) (row : CodexRecord) :
    ∃ created, (upsertCodex disk row).codexes row.codexID = some
      { row with
        sessionSource := normalizeSessionSource row.sessionSource
        createdAtUnixMS := created } := by
  unfold upsertCodex
  dsimp only
  rw [update_self]
  cases disk.codexes row.codexID with
  | none => exact ⟨row.createdAtUnixMS, rfl⟩
  | some old => exact ⟨old.createdAtUnixMS, rfl⟩

/-- `LoadEventState`: the event head and the stored view in one statement, or no
row at all. -/
def loadEventState (disk : Disk) (codexID : String) : Option (Nat × Snapshot) :=
  (disk.codexes codexID).map fun row => (disk.head codexID, row.currentViewJSON)

/-- How the transaction of an event commit ends. `unknown` is a commit whose
reported error leaves open whether it became durable; the flag says which. -/
inductive CommitOutcome where
  | committed
  | rolledBack
  | unknown (durable : Bool)
  deriving DecidableEq

/-- The transaction's changes are in the database afterwards. -/
def CommitOutcome.durable : CommitOutcome → Bool
  | .committed => true
  | .rolledBack => false
  | .unknown durable => durable

/-- What a caller can tell about a failed commit. Only an error of the final
`COMMIT` is `outcomeUnknown` (`ErrEventCommitOutcomeUnknown`). -/
inductive CommitError where
  | failed
  | outcomeUnknown
  deriving DecidableEq

/-- The two updates of an event transaction: the number becomes the head and the
view the row's snapshot. -/
def Disk.writeEvent (disk : Disk) (now : Int) (codexID : String) (row : CodexRecord)
    (seq : Nat) (view : Snapshot) : Disk :=
  { codexes := update disk.codexes codexID
      (some { row with currentViewJSON := view, lastActivityAtUnixMS := now })
    eventHeads := update disk.eventHeads codexID (some seq) }

/-- The transaction body of `CommitEvent`: the next number and the view built for
it, or nothing when the row is missing or the builder yields no view. -/
def nextEvent (disk : Disk) (now : Int) (codexID : String)
    (buildView : Nat → Option Snapshot) : Option (Nat × Disk) :=
  match disk.codexes codexID with
  | none => none
  | some row =>
      let seq := disk.head codexID + 1
      match buildView seq with
      | none => none
      | some view =>
          if view = .absent then none
          else some (seq, disk.writeEvent now codexID row seq view)

/-- `CommitEvent`: allocate the next number and write the matching view in one
transaction. -/
def commitEvent (disk : Disk) (now : Int) (codexID : String)
    (buildView : Nat → Option Snapshot) (outcome : CommitOutcome) :
    Disk × Except CommitError Nat :=
  if codexID = "" then (disk, .error .failed)
  else match nextEvent disk now codexID buildView with
    | none => (disk, .error .failed)
    | some (seq, written) =>
        match outcome with
        | .committed => (written, .ok seq)
        | .rolledBack => (disk, .error .failed)
        | .unknown durable => (if durable then written else disk, .error .outcomeUnknown)

/-- The deletions of `DeleteCodex`: row and event head disappear together. -/
def Disk.remove (disk : Disk) (codexID : String) : Disk :=
  { codexes := update disk.codexes codexID none
    eventHeads := update disk.eventHeads codexID none }

/-- The rows that are left were there. -/
theorem remove_codexes {disk : Disk} {codexID removed : String} {row : CodexRecord}
    (present : (disk.remove removed).codexes codexID = some row) : disk.codexes codexID = some row := by
  by_cases same : codexID = removed
  · simp [Disk.remove, same] at present
  · simpa [Disk.remove, update_of_ne same] using present

/-- `DeleteCodex`, which wants the row to exist. Unlike an event commit, every
failure is reported alike, also one that left the deletion durable. -/
def deleteCodex (disk : Disk) (codexID : String) (outcome : CommitOutcome) :
    Disk × Except CommitError Unit :=
  if codexID = "" then (disk, .error .failed)
  else match disk.codexes codexID with
    | none => (disk, .error .failed)
    | some _ =>
        (if outcome.durable then disk.remove codexID else disk,
          if outcome = .committed then .ok () else .error .failed)

variable {buildView : Nat → Option Snapshot}

/-- A transaction body that ran had its row, used the number after the head, and
wrote that number with the view built for it. -/
theorem nextEvent_exact (built : nextEvent disk now codexID buildView = some (seq, written)) :
    ∃ row view, disk.codexes codexID = some row ∧ seq = disk.head codexID + 1 ∧
      buildView seq = some view ∧ written = disk.writeEvent now codexID row seq view := by
  unfold nextEvent at built
  cases stored : disk.codexes codexID with
  | none => simp [stored] at built
  | some row =>
    cases encoded : buildView (disk.head codexID + 1) with
    | none => simp [stored, encoded] at built
    | some view =>
      simp only [stored, encoded] at built
      split at built <;> cases built
      exact ⟨row, view, rfl, rfl, encoded, rfl⟩

/-- How an event commit ends: without effect and with an error, or with the next number written
with the view built for it, and then either reported or reported as unknown. -/
inductive Commits (disk : Disk) (now : Int) (codexID : String)
    (buildView : Nat → Option Snapshot) : CommitOutcome → Disk × Except CommitError Nat → Prop
  | failed (outcome : CommitOutcome) :
      Commits disk now codexID buildView outcome (disk, .error .failed)
  | lost : Commits disk now codexID buildView (.unknown false) (disk, .error .outcomeUnknown)
  | unknown (row : CodexRecord) (view : Snapshot) (stored : disk.codexes codexID = some row)
      (built : buildView (disk.head codexID + 1) = some view) :
      Commits disk now codexID buildView (.unknown true)
        (disk.writeEvent now codexID row (disk.head codexID + 1) view, .error .outcomeUnknown)
  | done (row : CodexRecord) (view : Snapshot) (stored : disk.codexes codexID = some row)
      (built : buildView (disk.head codexID + 1) = some view) :
      Commits disk now codexID buildView .committed
        (disk.writeEvent now codexID row (disk.head codexID + 1) view,
          .ok (disk.head codexID + 1))

theorem commitEvent_commits (disk : Disk) (now : Int) (codexID : String)
    (buildView : Nat → Option Snapshot) (outcome : CommitOutcome) :
    Commits disk now codexID buildView outcome
      (commitEvent disk now codexID buildView outcome) := by
  unfold commitEvent
  split
  · exact .failed outcome
  split
  · exact .failed outcome
  next seq written built =>
  obtain ⟨row, view, stored, rfl, encoded, rfl⟩ := nextEvent_exact built
  split
  · exact .done row view stored encoded
  · exact .failed .rolledBack
  next durable =>
  cases durable with
  | false => exact .lost
  | true => exact .unknown row view stored encoded

@[simp]
theorem writeEvent_head (disk : Disk) (now : Int) (codexID : String) (row : CodexRecord) (seq : Nat)
    (view : Snapshot) : (disk.writeEvent now codexID row seq view).head codexID = seq := by
  simp [Disk.head, Disk.writeEvent]

/-- An event transaction leaves every other Codex alone. -/
theorem writeEvent_other (disk : Disk) (now : Int) (row : CodexRecord) (seq : Nat) (view : Snapshot)
    (distinct : other ≠ codexID) :
    (disk.writeEvent now codexID row seq view).codexes other = disk.codexes other ∧
      (disk.writeEvent now codexID row seq view).head other = disk.head other := by
  simp [Disk.writeEvent, Disk.head, update_of_ne distinct]

section Deduplication

variable {Digest Raw : Type}

/-- One row of `request_dedup`. A completed row carries its response. -/
structure DedupRecord (Digest Raw : Type) where
  operation : String
  fingerprint : Digest
  response : Option Raw := none
  deriving DecidableEq

/-- The table, by request id. -/
abbrev DedupTable (Digest Raw : Type) := String → Option (DedupRecord Digest Raw)

/-- What `BeginRequest` returns without an error. -/
inductive DedupResult (Raw : Type) where
  | started
  | completed (response : Raw)

/-- The errors of `BeginRequest` a caller tells apart. -/
inductive BeginError where
  | required
  | conflict
  | inProgress
  | storage
  deriving DecidableEq

/-- `BeginRequest`: reserve an unknown id, or report what is stored under a known
one. The transaction only reads when the id is known; then any storage failure
leaves the table alone. Digests are never empty, so that check is left out. -/
def beginRequest [DecidableEq Digest] (table : DedupTable Digest Raw)
    (requestID operation : String) (fingerprint : Digest) (outcome : CommitOutcome) :
    DedupTable Digest Raw × Except BeginError (DedupResult Raw) :=
  if requestID = "" ∨ operation = "" then (table, .error .required)
  else match table requestID with
    | none =>
        let reserved := update table requestID
          (some { operation := operation, fingerprint := fingerprint })
        (if outcome.durable then reserved else table,
          if outcome = .committed then .ok .started else .error .storage)
    | some record =>
        (table,
          if outcome ≠ .committed then .error .storage
          else if record.operation ≠ operation ∨ record.fingerprint ≠ fingerprint then
            .error .conflict
          else match record.response with
            | some response => .ok (.completed response)
            | none => .error .inProgress)

/-- `CompleteRequest`: store the response of a row that is in progress. The result
says whether the caller saw exactly one row change. -/
def completeRequest (table : DedupTable Digest Raw) (requestID : String) (response : Raw)
    (outcome : CommitOutcome) : DedupTable Digest Raw × Bool :=
  match table requestID with
  | some record =>
      if record.response.isSome then (table, false)
      else
        (if outcome.durable then
            update table requestID (some { record with response := some response })
          else table,
          decide (outcome = .committed))
  | none => (table, false)

end Deduplication

end CodexRemote.Persistence
