/-!
# Messages shared by the Host's modules

The wire protocol's generated package is not part of the repository; these
records hold the fields the Host's own code reads or writes. An optional message
pointer is an `Option`, a repeated field a list and a oneof an inductive type.

Identities are strings. Presentation text is a Go string, which is an arbitrary
byte sequence: a base64 delta may place bytes in a view that are not UTF-8, so
such fields are byte lists and validity is a property, not a typing fact.
-/
namespace CodexRemote.Protocol

/-- A Go string holding presentation content: any bytes, valid UTF-8 or not. -/
abbrev Text := List UInt8

/-- A literal as the bytes of a Go string. -/
def text (literal : String) : Text := literal.toUTF8.toList

/-- The lease state of a Codex. Rows migrated from the first schema carry no
management state and read back as `unspecified`. -/
inductive ManagementState where
  | unspecified
  | managed
  | expiringSoon
  | unmanaged
  deriving DecidableEq

/-- Activity status as the Host reports it. -/
inductive CodexStatus where
  | unspecified
  | idle
  | running
  | waitingForApproval
  | waitingForUserInput
  | interrupting
  | error
  | unavailable
  deriving DecidableEq

inductive CodexOrigin where
  | remoteCreated
  | localExisting
  deriving DecidableEq

inductive TurnStatus where
  | running
  | completed
  | failed
  | interrupted
  deriving DecidableEq

inductive ItemStatus where
  | unspecified
  | running
  | completed
  | failed
  | cancelled
  deriving DecidableEq

inductive WarningCode where
  | unspecified
  | managementExpiringSoon
  | historyImportIncomplete
  deriving DecidableEq

inductive ProvenanceKind where
  | unspecified
  | liveWire
  | importedHistory
  deriving DecidableEq

inductive WorkspaceMutationStatus where
  | unspecified
  | allowed
  | busy
  deriving DecidableEq

inductive FileChangeKind where
  | unspecified
  | added
  | deleted
  | renamed
  | modified
  deriving DecidableEq

inductive OutputStream where
  | stdout
  | stderr
  | combined
  deriving DecidableEq

inductive ApprovalDecision where
  | unspecified
  | allow
  | allowForSession
  | deny
  deriving DecidableEq

inductive ApprovalStatus where
  | pending
  | allowed
  | denied
  deriving DecidableEq

inductive ErrorCode where
  | invalidRequest
  | conflict
  | deadlineExceeded
  | hostNotReady
  | internalError
  | runtimeUnavailable
  | codexNotFound
  | codexBusy
  | turnAlreadyRunning
  | turnNotRunning
  | workspaceBusy
  | other (name : String)
  deriving DecidableEq

/-- A business error carried inside a response or a failed turn. -/
structure Error where
  code : ErrorCode
  message : Text
  retryable : Bool := false
  metadata : List (String × Text) := []
  deriving DecidableEq

/-- How far a message is a faithful copy of what it describes. -/
structure Completeness where
  truncated : Bool := false
  incomplete : Bool := false
  originalSizeBytes : Nat := 0
  reason : Text := []
  deriving DecidableEq

structure Warning where
  code : WarningCode
  message : Text
  managedUntilUnixMs : Int := 0
  metadata : List (String × Text) := []
  deriving DecidableEq

/-- A managed session as clients see it. -/
structure Codex where
  codexId : String
  threadId : String
  cwd : String
  title : Text
  origin : CodexOrigin
  status : CodexStatus
  activeTurnId : String
  managementState : ManagementState
  managedUntilUnixMs : Int
  createdAtUnixMs : Int
  importedAtUnixMs : Int
  lastActivityAtUnixMs : Int
  warnings : List Warning
  deriving DecidableEq

/-- The quiescence contract of one workspace. The empty string is no token. -/
structure WorkspaceAccessState where
  generation : Nat
  activeAgentCount : Nat
  mutationStatus : WorkspaceMutationStatus
  quiescenceToken : String
  observedAtUnixMs : Int
  deriving DecidableEq

structure ImageAttachment where
  attachmentId : String
  filename : Text
  mimeType : String
  sizeBytes : Nat
  sha256 : String
  widthPixels : Option Nat
  heightPixels : Option Nat
  deriving DecidableEq

inductive UserMessagePart where
  | text (content : Text)
  | image (descriptor : ImageAttachment)
  deriving DecidableEq

structure PlanStep where
  text : Text
  status : Text
  deriving DecidableEq

structure FileChange where
  path : Text
  oldPath : Text
  newPath : Text
  kind : FileChangeKind
  deriving DecidableEq

/-- The content kinds an item may carry. -/
inductive ItemContent where
  | userMessage (parts : List UserMessagePart)
  | agentMessage (text : Text)
  | reasoningSummary (text : Text)
  | plan (steps : List PlanStep)
  | command (argv : List Text) (cwd output : Text) (exitCode : Option Int)
  | tool (toolName summary resultSummary : Text)
  | fileChange (changes : List FileChange) (unifiedDiff : Text)
  deriving DecidableEq

structure Item where
  itemId : String
  turnId : String
  status : ItemStatus
  content : ItemContent
  completeness : Option Completeness
  provenance : ProvenanceKind
  deriving DecidableEq

structure TurnSnapshot where
  turnId : String
  status : TurnStatus
  startedAtUnixMs : Int
  completedAtUnixMs : Int := 0
  failure : Option Error := none
  items : List Item := []
  completeness : Option Completeness := none
  provenance : ProvenanceKind := .unspecified
  deriving DecidableEq

structure Approval where
  approvalId : String
  turnId : String
  itemId : String
  kind : String
  status : ApprovalStatus
  title : Text
  explanation : Text
  command : List Text
  allowedDecisions : List ApprovalDecision
  resolvedDecision : ApprovalDecision
  createdAtUnixMs : Int
  resolvedAtUnixMs : Int
  deriving DecidableEq

structure UserInputOption where
  optionId : String
  label : Text
  description : Text
  deriving DecidableEq

structure UserInputQuestion where
  questionId : String
  header : Text
  prompt : Text
  allowsMultiple : Bool
  allowsFreeForm : Bool
  options : List UserInputOption
  deriving DecidableEq

structure UserInputAnswer where
  questionId : String
  selectedOptionIds : List String
  freeFormText : Text
  deriving DecidableEq

structure UserInputRequestState where
  userInputRequestId : String
  turnId : String
  itemId : String
  questions : List UserInputQuestion
  createdAtUnixMs : Int
  resolved : Bool
  resolvedAtUnixMs : Int
  resolvedAnswers : List UserInputAnswer
  completeness : Option Completeness
  deriving DecidableEq

inductive PendingRequest where
  | approval (request : Approval)
  | userInput (request : UserInputRequestState)
  deriving DecidableEq

/-- The live state a RESET watch hands to a client. -/
structure CurrentView where
  headEventSeq : Nat := 0
  codex : Option Codex := none
  activeTurn : Option TurnSnapshot := none
  pendingRequests : List PendingRequest := []
  workspaceAccessState : Option WorkspaceAccessState := none
  generatedAtUnixMs : Int := 0
  completeness : Option Completeness := none
  deriving DecidableEq

inductive ItemDeltaContent where
  | text (content : Text)
  | commandOutput (stream : OutputStream) (content : Text)
  deriving DecidableEq

/-- The event kinds a Codex stream may carry. -/
inductive EventBody where
  | codexUpdated (codex : Codex)
  | turnUpdated (turnId : String) (status : TurnStatus)
      (startedAtUnixMs completedAtUnixMs : Int) (failure : Option Error)
  | itemStarted (item : Item)
  | itemUpdated (item : Item)
  | itemCompleted (item : Item)
  | itemDelta (turnId itemId : String) (chunkSeq : Nat) (content : ItemDeltaContent)
  | pendingRequestUpdated (request : PendingRequest)
  | warningRaised (warning : Warning)
  | workspaceAccessStateUpdated (accessState : WorkspaceAccessState)
  | codexForgotten
  deriving DecidableEq

/-- One canonical event of a Codex. Its number is zero until it is published. -/
structure Event where
  codexId : String
  eventSeq : Nat := 0
  occurredAtUnixMs : Int := 0
  causedByRequestId : String := ""
  completeness : Option Completeness := none
  body : EventBody
  deriving DecidableEq

end CodexRemote.Protocol
