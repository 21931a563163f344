import CodexRemote.Library.Runs
import CodexRemote.Persistence

/-!
# Dispatching requests

`internal/gateway/dispatcher.go` answers a request. One that has a side effect
first reserves its id in the database, calls the backend only when it was the one
to reserve, and stores the response before handing it out. One without a side
effect goes straight to the backend.

Every connection runs its requests in goroutines of their own. A dispatch is
therefore a thread that moves from stage to stage: a stage ends where the
goroutine calls the database or the backend, and other threads may move in
between. Requests keep their envelope and payload; the backend's own messages are
opaque bytes. A restart loses every unfinished thread and keeps the table.
-/
namespace CodexRemote.Gateway

open Protocol Persistence List Option

/-- The payload kinds of a request. `unknown` is a kind this Host does not know. -/
inductive Operation where
  | getHost | listDirectories | listSessionCandidates | listCodexes
  | createCodex | importSession | watchCodex | unwatchCodex | listHistory
  | startTurn | interruptTurn | respondApproval | respondUserInput
  | unmanageCodex | renameCodex | forgetCodex
  | getWorkspace | listWorkspaceEntries | readWorkspaceTextFile | writeWorkspaceTextFile
  | uploadWorkspaceEntry | downloadWorkspaceEntry
  | uploadImageAttachment | downloadImageAttachment
  | unknown
  deriving DecidableEq

/-- The name `operation` stores and the side-effect flag it returns. -/
def Operation.entry : Operation → String × Bool
  | .getHost => ("get_host", false)
  | .listDirectories => ("list_directories", false)
  | .listSessionCandidates => ("list_session_candidates", false)
  | .listCodexes => ("list_codexes", false)
  | .createCodex => ("create_codex", true)
  | .importSession => ("import_session", true)
  | .watchCodex => ("watch_codex", false)
  | .unwatchCodex => ("unwatch_codex", false)
  | .listHistory => ("list_history", false)
  | .startTurn => ("start_turn", true)
  | .interruptTurn => ("interrupt_turn", true)
  | .respondApproval => ("respond_approval", true)
  | .respondUserInput => ("respond_user_input", true)
  | .unmanageCodex => ("unmanage_codex", true)
  | .renameCodex => ("rename_codex", true)
  | .forgetCodex => ("forget_codex", true)
  | .getWorkspace => ("get_workspace", false)
  | .listWorkspaceEntries => ("list_workspace_entries", false)
  | .readWorkspaceTextFile => ("read_workspace_text_file", false)
  | .writeWorkspaceTextFile => ("write_workspace_text_file", true)
  | .uploadWorkspaceEntry => ("upload_workspace_entry", true)
  | .downloadWorkspaceEntry => ("download_workspace_entry", false)
  | .uploadImageAttachment => ("upload_image_attachment", true)
  | .downloadImageAttachment => ("download_image_attachment", false)
  | .unknown => ("unknown", false)

def Operation.name (operation : Operation) : String := operation.entry.1

def Operation.sideEffect (operation : Operation) : Bool := operation.entry.2

/-- The result kinds `markDeduplicated` marks. -/
def Operation.carriesMark : Operation → Bool
  | .createCodex | .importSession | .startTurn | .interruptTurn | .respondApproval
  | .respondUserInput | .unmanageCodex | .renameCodex | .forgetCodex
  | .uploadImageAttachment | .writeWorkspaceTextFile | .uploadWorkspaceEntry => true
  | _ => false

structure Payload where
  operation : Operation
  body : List UInt8
  deriving DecidableEq

structure Request where
  requestId : String
  sentAtUnixMs : Int := 0
  deadlineUnixMs : Int := 0
  payload : Option Payload
  deriving DecidableEq

/-- The kind of a request; a missing payload has none and is refused earlier. -/
def Request.operation (request : Request) : Operation :=
  (request.payload.map Payload.operation).getD .unknown

inductive Result where
  | value (operation : Operation) (deduplicated : Bool) (body : List UInt8)
  | error (detail : Error)
  deriving DecidableEq

structure Response where
  requestId : String
  respondedAtUnixMs : Int
  result : Result
  deriving DecidableEq

def errorResponse (requestId : String) (now : Int) (code : ErrorCode) (message : Text)
    (retryable : Bool) : Response :=
  { requestId := requestId, respondedAtUnixMs := now
    result := .error { code := code, message := message, retryable := retryable } }

/-- `markDeduplicated`. -/
def markDeduplicated (response : Response) : Response :=
  match response.result with
  | .value operation _ body =>
      if operation.carriesMark then
        { response with result := .value operation true body }
      else response
  | .error _ => response

/-- `validateRequest`: the first of three refusals that applies. -/
def validateRequest (request : Request) (now : Int) : Option Response :=
  if request.requestId = "" then
    some (errorResponse "" now .invalidRequest (text "request_id is required") false)
  else if request.payload = none then
    some (errorResponse request.requestId now .invalidRequest
      (text "request payload is required") false)
  else if request.deadlineUnixMs < 0 ∨
      (0 < request.deadlineUnixMs ∧ request.deadlineUnixMs ≤ now) then
    some (errorResponse request.requestId now .deadlineExceeded
      (text "request deadline has elapsed") true)
  else none

/-- The part of a request its fingerprint covers: everything but id and times. -/
def Request.fingerprinted (request : Request) : Request :=
  { request with requestId := "", sentAtUnixMs := 0, deadlineUnixMs := 0 }

/-- The two encodings a dispatch relies on. Deterministic marshalling with SHA-256
identifies what it covers, and a response that could be marshalled reads back as
itself. Either encoding may refuse its argument. -/
structure Codec (Digest Raw : Type) where
  fingerprint : Request → Option Digest
  encode : Response → Option Raw
  decode : Raw → Option Response
  fingerprint_injective : ∀ left right digest, fingerprint left = some digest →
    fingerprint right = some digest → left = right
  decode_encode : ∀ response raw, encode response = some raw → decode raw = some response

/-- Errors a backend method can end with, as `call` tells them apart. -/
inductive BackendError where
  | deadlineExceeded
  | rpc (detail : Error)
  | other (message : Text)
  deriving DecidableEq

inductive BackendResult where
  | value (deduplicated : Bool) (body : List UInt8)
  | failed (error : BackendError)
  deriving DecidableEq

/-- Why a request's context ended: its deadline passed, or its connection closed. -/
inductive Expiry where
  | deadlineExceeded
  | canceled
  deriving DecidableEq

/-- The response `call` builds from what the backend returned. An error under a
passed deadline is reported as the deadline, whatever it was. -/
def callResponse (request : Request) (startedAt : Int) (expired : Option Expiry) :
    BackendResult → Response
  | .value deduplicated body =>
      { requestId := request.requestId, respondedAtUnixMs := startedAt
        result := .value request.operation deduplicated body }
  | .failed error =>
      { requestId := request.requestId, respondedAtUnixMs := startedAt
        result := .error (
          if error = .deadlineExceeded ∨ expired = some .deadlineExceeded then
            { code := .deadlineExceeded, message := text "request deadline has elapsed"
              retryable := true }
          else match error with
            | .rpc detail => detail
            | .other message =>
                { code := .internalError, message := message, retryable := true }
            | .deadlineExceeded =>
                { code := .deadlineExceeded, message := text "request deadline has elapsed"
                  retryable := true }) }

/-- The Go errors `Dispatch` returns in place of a response. -/
inductive DispatchError where
  | connectionScoped (operation : String)
  | fingerprint
  | decode
  | encode
  | complete
  deriving DecidableEq

variable {index : Nat}

section Threads

variable {Digest Raw : Type}

/-- Where a dispatch stands. `reserved` tells a call behind a reservation from one
of an operation without side effects. -/
inductive Stage (Digest : Type) where
  | waiting (fingerprint : Digest)
  | ready (reserved : Bool)
  | calling (reserved : Bool) (startedAt : Int)
  | answered (response : Response)
  | done (outcome : Except DispatchError Response)
  | lost

/-- One dispatch. The last three fields are history: whether its `BeginRequest`
wrote the row, which row it found there instead, and what its call returned. -/
structure Thread (Digest Raw : Type) where
  request : Request
  stage : Stage Digest
  expired : Option Expiry := none
  wrote : Bool := false
  met : Option (DedupRecord Digest Raw) := none
  response : Option Response := none

/-- The database table, the dispatches in order of arrival, and the threads that
called the backend, once for each call. -/
structure Host (Digest Raw : Type) where
  table : DedupTable Digest Raw
  threads : List (Thread Digest Raw)
  calls : List Nat

/-- A Host whose table is empty. -/
def Host.fresh : Host Digest Raw := ⟨fun _ => none, [], []⟩

/-- What `Dispatch` does before its first call of the database or the backend. The
flags say whether a backend and a dedup store are configured. -/
def enterDispatch (codec : Codec Digest Raw) (request : Request) (now : Int)
    (backend dedup : Bool) : Stage Digest :=
  match validateRequest request now with
  | some refusal => .done (.ok refusal)
  | none =>
      if backend = false then
        .done (.ok (errorResponse request.requestId now .hostNotReady
          (text "Host backend is not ready") true))
      else if request.operation = .watchCodex ∨ request.operation = .unwatchCodex then
        .done (.error (.connectionScoped request.operation.name))
      else if request.operation.sideEffect = false then
        if request.operation = .unknown then
          .done (.ok (errorResponse request.requestId now .invalidRequest
            (text "unsupported request") false))
        else .ready false
      else if dedup = false then
        .done (.ok (errorResponse request.requestId now .hostNotReady
          (text "request deduplication is unavailable") true))
      else match codec.fingerprint request.fingerprinted with
        | none => .done (.error .fingerprint)
        | some fingerprint => .waiting fingerprint

/-- The answer to a request whose id stands for another request. -/
def conflictResponse (requestId : String) (now : Int) : Response :=
  errorResponse requestId now .conflict (text "request_id was already used with different payload")
    false

/-- The answer to a request that was reserved but has no response on record. -/
def inProgressResponse (requestId : String) (now : Int) : Response :=
  errorResponse requestId now .conflict
    (text "request outcome is unknown; IN_PROGRESS operation will not be replayed") false

/-- What `Dispatch` does with the result of `BeginRequest`. A storage error is
passed on with the driver's text. -/
def afterBegin (codec : Codec Digest Raw) (requestId : String) (now : Int)
    (driver : Text) :
    Except BeginError (DedupResult Raw) → Stage Digest
  | .error .conflict => .done (.ok (conflictResponse requestId now))
  | .error .inProgress => .done (.ok (inProgressResponse requestId now))
  | .error .required =>
      .done (.ok (errorResponse requestId now .internalError
        (text "request id, operation and fingerprint are required") true))
  | .error .storage =>
      .done (.ok (errorResponse requestId now .internalError driver true))
  | .ok (.completed raw) =>
      match codec.decode raw with
      | none => .done (.error .decode)
      | some response => .done (.ok (markDeduplicated response))
  | .ok .started => .ready true

/-- One thread moves, a request arrives, a context ends, or the process restarts. -/
inductive Label where
  | arrive (request : Request) (now : Int) (backend dedup : Bool)
  | expire (thread : Nat) (expiry : Expiry)
  | reserve (thread : Nat) (now : Int) (outcome : CommitOutcome) (driver : Text)
  | invoke (thread : Nat) (now : Int)
  | finish (thread : Nat) (result : BackendResult)
  | complete (thread : Nat) (outcome : CommitOutcome)
  | restart

/-- A thread that was not done is gone with its process. -/
def Thread.interrupted (thread : Thread Digest Raw) : Thread Digest Raw :=
  match thread.stage with
  | .done _ => thread
  | _ => { thread with stage := .lost }

/-- Replace one thread. -/
def Host.put (host : Host Digest Raw) (index : Nat) (thread : Thread Digest Raw) :
    Host Digest Raw :=
  { host with threads := host.threads.set index thread }

/-- One step. A label whose thread is not at the stage it names is not enabled. -/
def step [DecidableEq Digest] (codec : Codec Digest Raw) (host : Host Digest Raw) :
    Label → Option (Host Digest Raw)
  | .arrive request now backend dedup =>
      some { host with threads := host.threads ++
        [{ request := request, stage := enterDispatch codec request now backend dedup }] }
  | .expire index expiry =>
      (host.threads[index]?).map fun thread =>
        host.put index { thread with expired := some (thread.expired.getD expiry) }
  | .reserve index now outcome driver =>
      (host.threads[index]?).bind fun thread =>
        match thread.stage with
        | .waiting fingerprint =>
            let id := thread.request.requestId
            let (table, result) := beginRequest host.table id thread.request.operation.name
              fingerprint outcome
            some ({ host with table := table }.put index
              { thread with
                stage := afterBegin codec id now driver result
                wrote := (host.table id).isNone && (table id).isSome
                met := if outcome = CommitOutcome.committed then host.table id else none })
        | _ => none
  | .invoke index now =>
      (host.threads[index]?).bind fun thread =>
        match thread.stage with
        | .ready reserved =>
            some ({ host with calls := host.calls ++ [index] }.put index
              { thread with stage := .calling reserved now })
        | _ => none
  | .finish index result =>
      (host.threads[index]?).bind fun thread =>
        match thread.stage with
        | .calling reserved startedAt =>
            let response := callResponse thread.request startedAt thread.expired result
            some (host.put index
              { thread with
                stage := if reserved then .answered response else .done (.ok response)
                response := some response })
        | _ => none
  | .complete index outcome =>
      (host.threads[index]?).bind fun thread =>
        match thread.stage with
        | .answered response =>
            match codec.encode response with
            | none => some (host.put index { thread with stage := .done (.error .encode) })
            | some raw =>
                let (table, stored) :=
                  completeRequest host.table thread.request.requestId raw outcome
                some ({ host with table := table }.put index
                  { thread with
                    stage := .done (if stored then .ok response else .error .complete) })
        | _ => none
  | .restart => some { host with threads := host.threads.map Thread.interrupted }

/-- A reservation is the step of a waiting thread. -/
theorem reserve_cases [DecidableEq Digest] {next : Host Digest Raw}
    (stepped : step codec host (.reserve index now outcome driver) = some next) :
    ∃ thread fingerprint, host.threads[index]? = some thread ∧
      thread.stage = .waiting fingerprint ∧
      let id := thread.request.requestId
      let begun := beginRequest host.table id thread.request.operation.name fingerprint outcome
      next = { host with table := begun.1 }.put index
        { thread with
          stage := afterBegin codec id now driver begun.2
          wrote := (host.table id).isNone && (begun.1 id).isSome
          met := if outcome = CommitOutcome.committed then host.table id else none } := by
  obtain ⟨thread, present, moved⟩ := bind_eq_some_iff.mp stepped
  cases stage : thread.stage with
  | waiting fingerprint =>
    simp only [stage] at moved
    exact ⟨thread, fingerprint, present, stage, (some.inj moved).symm⟩
  | _ => simp [stage] at moved

/-- A call is made by a thread that is ready. -/
theorem invoke_cases [DecidableEq Digest] {next : Host Digest Raw}
    (stepped : step codec host (.invoke index now) = some next) :
    ∃ thread reserved, host.threads[index]? = some thread ∧ thread.stage = .ready reserved ∧
      next = { host with calls := host.calls ++ [index] }.put index
        { thread with stage := .calling reserved now } := by
  obtain ⟨thread, present, moved⟩ := bind_eq_some_iff.mp stepped
  cases stage : thread.stage with
  | ready reserved =>
    simp only [stage] at moved
    exact ⟨thread, reserved, present, stage, (some.inj moved).symm⟩
  | _ => simp [stage] at moved

/-- A call returns to the thread that made it. -/
theorem finish_cases [DecidableEq Digest] {next : Host Digest Raw}
    (stepped : step codec host (.finish index result) = some next) :
    ∃ thread reserved startedAt, host.threads[index]? = some thread ∧
      thread.stage = .calling reserved startedAt ∧
      let response := callResponse thread.request startedAt thread.expired result
      next = host.put index
        { thread with
          stage := if reserved then .answered response else .done (.ok response)
          response := some response } := by
  obtain ⟨thread, present, moved⟩ := bind_eq_some_iff.mp stepped
  cases stage : thread.stage with
  | calling reserved startedAt =>
    simp only [stage] at moved
    exact ⟨thread, reserved, startedAt, present, stage, (some.inj moved).symm⟩
  | _ => simp [stage] at moved

/-- A completion is the step of a thread with a response: it fails to encode it, or
hands it to the store. -/
theorem complete_cases [DecidableEq Digest] {next : Host Digest Raw}
    (stepped : step codec host (.complete index outcome) = some next) :
    ∃ thread response, host.threads[index]? = some thread ∧
      thread.stage = .answered response ∧
      ((codec.encode response = none ∧
          next = host.put index { thread with stage := .done (.error .encode) }) ∨
        ∃ raw, codec.encode response = some raw ∧
          let completed := completeRequest host.table thread.request.requestId raw outcome
          next = { host with table := completed.1 }.put index
            { thread with
              stage := .done (if completed.2 then .ok response else .error .complete) }) := by
  obtain ⟨thread, present, moved⟩ := bind_eq_some_iff.mp stepped
  cases stage : thread.stage with
  | answered response =>
    refine ⟨thread, response, present, stage, ?_⟩
    simp only [stage] at moved
    cases encoded : codec.encode response with
    | none =>
      simp only [encoded] at moved
      exact .inl ⟨rfl, (some.inj moved).symm⟩
    | some raw =>
      simp only [encoded] at moved
      exact .inr ⟨raw, rfl, (some.inj moved).symm⟩
  | _ => simp [stage] at moved

/-- The response `handleRequest` enqueues for the client. A Go error is passed on
with its text. -/
def enqueued (requestId : String) (now : Int) (message : Text)
    (outcome : Except DispatchError Response) : Response :=
  match outcome with
  | .ok response => response
  | .error _ => errorResponse requestId now .internalError message true

end Threads

end CodexRemote.Gateway
