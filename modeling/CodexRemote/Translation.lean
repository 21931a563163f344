import CodexRemote.Encoding
import CodexRemote.Lifecycle

/-!
# From the app-server's notifications to events

`internal/adapter/adapter.go` gives each notification a kind and a meaning, and
`internal/codex/translate.go` reads items, turns and texts out of its parameters. What JSON
decoding returns is the subject here, not the decoder: the strings of a decoded value are
strings, hence valid UTF-8. Two routes go around the decoder. The parameters themselves are
kept as bytes and shown where nothing better is found, and a delta may be given in base64,
whose decoded bytes are taken as they are.

The last section follows the Manager through any sequence of notifications. Storing is
possible only where the view encodes, so a text that is not valid stays in memory and keeps
every later view of its Codex from being written. Agent transitions around a notification
change the access state only, which has no texts.
-/
namespace CodexRemote.Adapter

open Protocol Codexes List Option

/-- A decoded JSON value. Numbers keep their literal. -/
inductive Json where
  | null
  | bool (value : Bool)
  | number (literal : String)
  | string (value : String)
  | array (values : List Json)
  | object (fields : List (String × Json))
  deriving Repr

/-- The members of an object in the order they were written. -/
abbrev Body := List (String × Json)

/-- A `json.RawMessage` with the value it decodes to, if it decodes. -/
structure Params where
  raw : Text
  value : Option Json

inductive EventKind where
  | vendor
  | codexUpdated
  | turnUpdated
  | itemStarted
  | itemDelta
  | itemUpdated
  | itemCompleted
  | pendingRequestUpdated
  | warningRaised
  deriving DecidableEq

structure Event where
  kind : EventKind
  semantic : Semantic
  method : String
  threadID : String
  turnID : String
  itemID : String
  params : Params
  text : String
  encoding : String
  stream : String

structure UserInputOption where
  label : String
  description : String

structure UserInputQuestion where
  id : String
  header : String
  question : String
  allowsMultiple : Bool
  isOther : Bool
  options : List UserInputOption

structure PendingRequest where
  id : String
  method : String
  turnID : String
  itemID : String
  params : Params
  questions : List UserInputQuestion

/-- Names of struct fields are matched without regard to case, which for these names includes
the long s and the Kelvin sign. -/
def foldName (name : String) : String :=
  name.map fun c =>
    if c = Char.ofNat 0x17F then 's' else if c = Char.ofNat 0x212A then 'k' else c.toLower

/-- The members that are decoded into the struct field. -/
def matching (name : String) (body : Body) : List Json :=
  (body.filter fun field => foldName field.1 = foldName name).map Prod.snd

/-- A string field after decoding: the last string given for it. -/
def stringField (name : String) (body : Body) : String :=
  (matching name body).foldl (fun kept value =>
    match value with
    | .string given => given
    | _ => kept) ""

/-- `json.Unmarshal` into a struct with one string field. A member of another type is an error,
but `null` is not. -/
def unmarshalString (name : String) : Option Json → Option String
  | some (.object body) =>
      if (matching name body).all fun value =>
          match value with
          | .string _ | .null => true
          | _ => false then
        some (stringField name body)
      else none
  | some .null => some ""
  | _ => none

/-- `rawObject`: the members of an object, none for anything else. -/
def rawObject (params : Params) : Body :=
  match params.value with
  | some (.object body) => body
  | _ => []

def eventKind (method : String) (serverRequest : Bool) : EventKind :=
  if serverRequest then .pendingRequestUpdated
  else if method ∈ ["thread/started", "thread/status/changed", "thread/name/updated",
      "thread/settings/updated"] then .codexUpdated
  else if method = "turn/started" ∨ method = "turn/completed" then .turnUpdated
  else if method = "item/started" then .itemStarted
  else if method = "item/completed" then .itemCompleted
  else if method = "turn/plan/updated" ∨ method = "turn/diff/updated" then .itemUpdated
  else if method ∈ ["error", "warning", "deprecationNotice"] then .warningRaised
  else if "/delta".toList <:+ method.toList ∨ "Delta".toList <:+ method.toList then .itemDelta
  else .vendor

def eventSemantic (method : String) : Semantic :=
  if method = "item/agentMessage/delta" then .agentText
  else if method = "item/reasoning/textDelta" then .reasoningText
  else if method = "item/reasoning/summaryTextDelta" then .reasoningSummary
  else if method ∈ ["item/commandExecution/outputDelta", "command/exec/outputDelta"] then
    .commandOutput
  else if method = "item/fileChange/outputDelta" then .fileChangeOutput
  else if method = "process/outputDelta" then .processOutput
  else if method = "item/plan/delta" then .planDelta
  else if method = "turn/plan/updated" then .planUpdated
  else if method = "turn/diff/updated" then .diffUpdated
  else .unknown

/-- `translateEvent`, without the plan and the diff, which the Manager reads from the
parameters. A type error in one field does not keep the others from being decoded. -/
def translateEvent (method : String) (serverRequest : Bool)
    (threadID turnID itemID : String) (params : Params) : Event :=
  let body := rawObject params
  let encoded := stringField "deltaBase64" body
  { kind := eventKind method serverRequest, semantic := eventSemantic method, method := method
    threadID := threadID, turnID := turnID, itemID := itemID, params := params
    text := if encoded ≠ "" then encoded else stringField "delta" body
    encoding := if encoded ≠ "" then "base64" else ""
    stream := stringField "stream" body }

end CodexRemote.Adapter

namespace CodexRemote.Translation

open Protocol Budget Codexes Adapter List Option

variable {event : Adapter.Event} {now : Int} {view : CurrentView}

/-- What the translation takes from Go's library: `strings.ToLower`, `json.Marshal`,
`fmt.Sprint`, and the conversions of a decoded number. -/
structure Library where
  lower : String → String
  marshal : Json → String
  sprint : Json → String
  int64 : String → Int
  int32 : String → Int

/-- `imageDescriptorResolver`. Uploading accepts only file names that are valid UTF-8. -/
structure Resolver where
  describe : String → Option ImageAttachment
  valid : ∀ path descriptor, describe path = some descriptor →
    Utf8.valid descriptor.filename = true

/-- `body[key]`: of two members with one key Go keeps the last. -/
def member (body : Body) (key : String) : Option Json :=
  (body.reverse.find? fun field => field.1 = key).map Prod.snd

def firstString (body : Body) (keys : List String) : String :=
  (keys.findSome? fun key =>
    match member body key with
    | some (.string value) => some value
    | _ => none).getD ""

/-- The first that is not empty. -/
def firstNonempty (values : List String) : String := (values.find? fun value => value ≠ "").getD ""

mutual

def textValue (library : Library) : Json → String
  | .string value => value
  | .array values => "\n".intercalate ((textValues library values).filter fun text => text ≠ "")
  | .object body =>
      let texts := fieldTexts library body
      let found := firstNonempty (["text", "content", "message", "summary", "output"].filterMap
        fun key => (texts.reverse.find? fun field => field.1 = key).map Prod.snd)
      if found ≠ "" then found else library.marshal (.object body)
  | .null | .bool _ | .number _ => ""

def textValues (library : Library) : List Json → List String
  | [] => []
  | value :: rest => textValue library value :: textValues library rest

def fieldTexts (library : Library) : List (String × Json) → List (String × String)
  | [] => []
  | (key, value) :: rest => (key, textValue library value) :: fieldTexts library rest

end

def firstText (library : Library) (body : Body) (keys : List String) : String :=
  firstNonempty ((keys.filterMap (member body)).map (textValue library))

def anySlice : Option Json → List Json
  | some (.array values) => values
  | _ => []

def objectSlice (value : Option Json) : List Body :=
  (anySlice value).filterMap fun
    | .object body => some body
    | _ => none

def stringSlice (value : Option Json) : List String :=
  (anySlice value).filterMap fun
    | .string text => some text
    | _ => none

def commandArgv : Option Json → List String
  | some (.string command) => [command]
  | value => stringSlice value

/-- The object under the key, or the body itself. -/
def within (body : Body) (key : String) : Body :=
  match member body key with
  | some (.object inner) => inner
  | _ => body

inductive InputPart where
  | text (content : String)
  | localImage (path : String)
  deriving DecidableEq

def inputPart (library : Library) : Json → Option InputPart
  | .string value => some (.text value)
  | .object body =>
      let typeName := firstString body ["type", "kind"]
      if typeName = "localImage" ∨ typeName = "local_image" then
        let path := firstString body ["path"]
        if path ≠ "" then some (.localImage path) else none
      else
        let content := firstText library body ["text", "content"]
        if content ≠ "" then some (.text content) else none
  | _ => none

def inputParts (library : Library) (body : Body) : List InputPart :=
  let listed := fun key => (anySlice (member body key)).filterMap (inputPart library)
  if listed "input" ≠ [] then listed "input"
  else if listed "content" ≠ [] then listed "content"
  else
    let content := firstText library body ["text", "message"]
    if content ≠ "" then [.text content] else []

def planStep (library : Library) : Json → Option (String × String)
  | .string step => some (step, "")
  | .object body =>
      some (firstText library body ["step", "text", "description"], firstString body ["status"])
  | _ => none

def planSteps (library : Library) (body : Body) : List (String × String) :=
  let value := match member body "steps" with
    | none | some .null => member body "plan"
    | steps => steps
  (anySlice value).filterMap (planStep library)

def fileChangeKind (library : Library) (value : String) : FileChangeKind :=
  let word := library.lower value
  if word ∈ ["add", "added", "create", "created"] then .added
  else if word ∈ ["delete", "deleted", "remove", "removed"] then .deleted
  else if word ∈ ["rename", "renamed", "move", "moved"] then .renamed
  else if word ∈ ["modify", "modified", "update", "updated"] then .modified
  else .unspecified

def itemStatus (library : Library) (value : String) : ItemStatus :=
  let word := library.lower value
  if word ∈ ["inprogress", "in_progress", "running", "started"] then .running
  else if word ∈ ["completed", "succeeded", "success"] then .completed
  else if word ∈ ["failed", "error"] then .failed
  else if word ∈ ["cancelled", "canceled", "interrupted"] then .cancelled
  else .unspecified

/-- A part of a user message, with what is missing of it. -/
def messagePart (resolve : Option Resolver) (budget : Nat) :
    InputPart → List UserMessagePart × Option Completeness
  | .text content =>
      let (bounded, complete) := boundString (text content) budget
      ([.text bounded], complete)
  | .localImage path =>
      match resolve with
      | some resolver =>
          match resolver.describe path with
          | some descriptor => ([.image descriptor], none)
          | none =>
              ([], some { incomplete := true
                          reason := text "local image descriptor is unavailable" })
      | none =>
          ([], some { incomplete := true
                      reason := text "local image descriptor resolver is unavailable" })

/-- The completeness of several parts. -/
def mergeAll (parts : List (Option Completeness)) : Option Completeness :=
  parts.foldl mergeCompleteness none

def userMessage (library : Library) (resolve : Option Resolver) (budget : Nat) (body : Body) :
    ItemContent × Option Completeness :=
  let parts := (inputParts library body).map (messagePart resolve budget)
  (.userMessage (parts.flatMap Prod.fst), mergeAll (parts.map Prod.snd))

def plan (library : Library) (budget : Nat) (body : Body) : ItemContent × Option Completeness :=
  let steps := planSteps library body
  (.plan (steps.map fun step =>
      { text := clip budget (text step.1), status := text step.2 }),
    mergeAll (steps.map fun step => (boundString (text step.1) budget).2))

def command (library : Library) (budget : Nat) (body : Body) :
    ItemContent × Option Completeness :=
  let argv := stringSlice (member body "argv")
  let argv := if argv = [] then commandArgv (member body "command") else argv
  let (output, complete) :=
    boundString (text (firstText library body ["aggregatedOutput", "output", "stdout", "text"]))
      budget
  let exitCode := match member body "exitCode" with
    | some (.number literal) => some (library.int32 literal)
    | _ => none
  (.command (argv.map text) (text (firstString body ["cwd"])) output exitCode, complete)

def fileChange (library : Library) (budget : Nat) (body : Body) :
    ItemContent × Option Completeness :=
  let (unifiedDiff, complete) :=
    boundString (text (firstText library body ["unifiedDiff", "diff", "output"])) budget
  (.fileChange ((objectSlice (member body "changes")).map fun change =>
      { path := text (firstString change ["path"])
        oldPath := text (firstString change ["oldPath", "old_path"])
        newPath := text (firstString change ["newPath", "new_path"])
        kind := fileChangeKind library (firstString change ["kind", "type", "status"]) })
    unifiedDiff, complete)

/-- Anything else is shown as a tool, and with its parameters as they came when it has neither
summary nor result. -/
def tool (library : Library) (budget : Nat) (params : Params) (body : Body)
    (typeName method : String) : ItemContent × Option Completeness :=
  let name := firstNonempty
    [firstString body ["toolName", "name", "tool", "server"], typeName, method]
  let summary := firstText library body ["summary", "input", "arguments", "query", "text"]
  let result := firstText library body ["resultSummary", "result", "output", "content"]
  let shown := if summary = "" ∧ result = "" then params.raw else text summary
  let (summary, complete) := boundString shown budget
  let (result, resultComplete) := boundString (text result) budget
  (.tool (text name) summary result, mergeCompleteness complete resultComplete)

def contains (whole part : String) : Bool := part.toList <:+: whole.toList

def translateContent (library : Library) (resolve : Option Resolver) (budget : Nat)
    (params : Params) (body : Body) (typeName method : String) (semantic : Semantic) :
    ItemContent × Option Completeness :=
  let method' := library.lower method
  let bounded := fun (wrap : Text → ItemContent) keys =>
    let (content, complete) := boundString (text (firstText library body keys)) budget
    (wrap content, complete)
  if typeName ∈ ["usermessage", "user_message"] ∨ contains method' "usermessage" then
    userMessage library resolve budget body
  else if semantic ∈ [.reasoningText, .reasoningSummary] ∨ contains typeName "reasoning" then
    bounded .reasoningSummary ["text", "summary", "content"]
  else if typeName ∈ ["agentmessage", "agent_message"] ∨ semantic = .agentText ∨
      contains method' "agentmessage" then
    bounded .agentMessage ["text", "content", "message"]
  else if semantic ∈ [.planDelta, .planUpdated] ∨ typeName ∈ ["plan", "todolist"] then
    plan library budget body
  else if typeName ∈ ["commandexecution", "command"] ∨
      semantic ∈ [.commandOutput, .processOutput] ∨ contains method' "commandexecution" then
    command library budget body
  else if typeName ∈ ["filechange", "file_change"] ∨
      semantic ∈ [.fileChangeOutput, .diffUpdated] ∨ contains method' "filechange" ∨
      contains method' "diff" then
    fileChange library budget body
  else tool library budget params body typeName method

def translateItem (library : Library) (resolve : Option Resolver) (params : Params)
    (turnID fallbackID method : String) (semantic : Semantic) (status : ItemStatus)
    (budget : Nat) (provenance : ProvenanceKind) : Item :=
  let body := within (rawObject params) "item"
  let parsed := itemStatus library (firstString body ["status"])
  let typeName := library.lower (firstString body ["type", "kind"])
  let (content, complete) :=
    translateContent library resolve budget params body typeName method semantic
  { itemId := firstNonempty [firstString body ["id", "itemId"], fallbackID]
    turnId := firstNonempty [firstString body ["turnId"], turnID]
    status := if parsed ≠ .unspecified then parsed else status
    content := content, completeness := complete, provenance := provenance }

def unixMillis (value : Int) : Int :=
  if -1000000000000 < value ∧ value < 1000000000000 then value * 1000 else value

def int64Number (library : Library) : Option Json → Int
  | some (.number literal) => library.int64 literal
  | _ => 0

def turnStatus (library : Library) (value : String) : TurnStatus :=
  let word := library.lower value
  if word = "completed" then .completed
  else if word = "failed" then .failed
  else if word = "interrupted" ∨ word = "cancelled" then .interrupted
  else .running

def turnFailure (library : Library) : Option Json → Option Error
  | none | some .null => none
  | some (.string message) => some { code := .internalError, message := text message }
  | some (.object failure) =>
      let message := firstNonempty [firstString failure ["message"], "turn failed"]
      let details := firstString failure ["additionalDetails"]
      some
        { code := .internalError, message := text message
          metadata :=
            (if details ≠ "" then [("additional_details", text details)] else []) ++
              ((member failure "codexErrorInfo").map fun info =>
                ("codex_error_info", text (library.marshal info))).toList }
  | some value => some { code := .internalError, message := text (library.sprint value) }

/-- `turnEvent` -/
def turnEvent (library : Library) (event : Adapter.Event) : AdapterBody :=
  let body := within (rawObject event.params) "turn"
  let reported := turnStatus library (firstString body ["status"])
  let status :=
    if reported = .running ∧ contains (library.lower event.method) "completed" then .completed
    else reported
  let failure := turnFailure library (member body "error")
  .turnUpdated (if failure.isSome ∧ status = .completed then .failed else status)
    (unixMillis (int64Number library (member body "startedAt")))
    (unixMillis (int64Number library (member body "completedAt"))) failure

/-- The value of a character of the standard base64 alphabet. -/
def sextet (c : UInt8) : Option Nat :=
  let n := c.toNat
  if 65 ≤ n ∧ n ≤ 90 then some (n - 65)
  else if 97 ≤ n ∧ n ≤ 122 then some (n - 71)
  else if 48 ≤ n ∧ n ≤ 57 then some (n + 4)
  else if n = 43 then some 62
  else if n = 47 then some 63
  else none

/-- Groups of four characters. Padding ends the text, and the bits it leaves over are dropped
unchecked. -/
def decodeQuanta : Text → Option Text
  | [] => some []
  | a :: b :: c :: d :: rest => do
      let first ← sextet a
      let second ← sextet b
      let high := UInt8.ofNat (first * 4 + second / 16)
      if c = 61 then
        if d = 61 ∧ rest = [] then some [high] else none
      else
        let third ← sextet c
        let middle := UInt8.ofNat (second * 16 + third / 4)
        if d = 61 then
          if rest = [] then some [high, middle] else none
        else
          let fourth ← sextet d
          let more ← decodeQuanta rest
          some (high :: middle :: UInt8.ofNat (third * 64 + fourth) :: more)
  | _ => none

/-- `base64.StdEncoding.DecodeString`. Line breaks are skipped wherever they stand. -/
def decodeString (value : Text) : Option Text :=
  decodeQuanta (value.filter fun c => c ≠ 10 ∧ c ≠ 13)

/-- The message that the parameters have under the name, or the parameters as they came. -/
def messageOrRaw (name : String) (params : Params) : Text :=
  match unmarshalString name params.value with
  | some message => if message ≠ "" then text message else params.raw
  | none => params.raw

def warningMessage : Params → Text := messageOrRaw "message"

def deltaText : Params → Text := messageOrRaw "delta"

/-- The text of a delta before decoding. -/
def givenText (event : Adapter.Event) : Text :=
  if event.text ≠ "" then text event.text else deltaText event.params

def eventText (event : Adapter.Event) : Text :=
  if event.encoding = "base64" then (decodeString (givenText event)).getD (givenText event)
  else givenText event

def outputStream (library : Library) (value : String) : OutputStream :=
  let word := library.lower value
  if word = "stdout" then .stdout else if word = "stderr" then .stderr else .combined

/-- What `applyCodexParams` takes from the parameters. -/
def codexParams (library : Library) (method : String) (params : Params) : CodexParams :=
  let body := rawObject params
  if method = "thread/name/updated" then
    { title := match member body "threadName" with
        | some .null => some []
        | some (.string name) => some (text name)
        | _ => none
      status := none }
  else
    let body := within body "thread"
    let title := firstString body ["name", "title"]
    let status := match member body "status" with
      | some (.object inner) => firstString inner ["type", "status", "kind"]
      | _ => firstString body ["status"]
    let word := library.lower status
    { title := if title ≠ "" then some (text title) else none
      status :=
        if word = "idle" ∨ word = "inactive" then some .idle
        else if word = "active" ∨ word = "running" then some .active
        else if word = "error" ∨ word = "failed" then some .error
        else none }

/-- A character of the URL alphabet. -/
def urlCharacter (value : Nat) : Char :=
  if value < 26 then Char.ofNat (value + 65)
  else if value < 52 then Char.ofNat (value + 71)
  else if value < 62 then Char.ofNat (value - 4)
  else if value = 62 then '-'
  else '_'

/-- `base64.RawURLEncoding.EncodeToString` -/
def encodeToString : Text → List Char
  | [] => []
  | [a] => [urlCharacter (a.toNat / 4), urlCharacter (a.toNat % 4 * 16)]
  | [a, b] =>
      [urlCharacter (a.toNat / 4), urlCharacter (a.toNat % 4 * 16 + b.toNat / 16),
        urlCharacter (b.toNat % 16 * 4)]
  | a :: b :: c :: rest =>
      urlCharacter (a.toNat / 4) :: urlCharacter (a.toNat % 4 * 16 + b.toNat / 16) ::
        urlCharacter (b.toNat % 16 * 4 + c.toNat / 64) :: urlCharacter (c.toNat % 64) ::
        encodeToString rest

def canonicalOptionID (index : Nat) (label : String) : String :=
  "option-" ++ toString (index + 1) ++ "-" ++ String.ofList (encodeToString (text label))

def pendingCreatedAt (library : Library) (params : Params) (now : Int) : Int :=
  let body := rawObject params
  let read := fun key => int64Number library (member body key)
  if read "startedAtMs" ≠ 0 then read "startedAtMs"
  else if read "createdAtMs" ≠ 0 then read "createdAtMs"
  else if read "createdAt" ≠ 0 then unixMillis (read "createdAt")
  else now

def canonicalQuestion (question : Adapter.UserInputQuestion) : Protocol.UserInputQuestion :=
  { questionId := question.id, header := text question.header, prompt := text question.question
    allowsMultiple := question.allowsMultiple, allowsFreeForm := question.isOther
    options := question.options.mapIdx fun index option =>
      { optionId := canonicalOptionID index option.label, label := text option.label
        description := text option.description } }

def pendingFromAdapter (library : Library) (request : Adapter.PendingRequest) (now : Int) :
    Protocol.PendingRequest :=
  let createdAt := pendingCreatedAt library request.params now
  if contains request.method "requestUserInput" then
    .userInput
      { userInputRequestId := request.id, turnId := request.turnID, itemId := request.itemID
        questions := request.questions.map canonicalQuestion, createdAtUnixMs := createdAt
        resolved := false, resolvedAtUnixMs := 0, resolvedAnswers := [], completeness := none }
  else
    let body := rawObject request.params
    .approval
      { approvalId := request.id, turnId := request.turnID, itemId := request.itemID
        kind := request.method, status := .pending
        title := text (firstString body ["title"])
        explanation := text (firstText library body ["reason", "explanation"])
        command := (commandArgv (member body "command")).map text
        allowedDecisions := [.allow, .allowForSession, .deny], resolvedDecision := .unspecified
        createdAtUnixMs := createdAt, resolvedAtUnixMs := 0 }

def canonicalEventItemID (event : Adapter.Event) : String :=
  if event.itemID ≠ "" then event.itemID
  else
    let turnID := firstNonempty [event.turnID, firstString (rawObject event.params) ["turnId"]]
    match event.semantic with
    | .planDelta | .planUpdated => turnID ++ ":plan"
    | .diffUpdated | .fileChangeOutput => turnID ++ ":diff"
    | _ => ""

/-- `canonicalItem` -/
def canonicalItem (library : Library) (resolver : Resolver) (budget : Nat)
    (event : Adapter.Event) (status : ItemStatus) : Item :=
  translateItem library (some resolver) event.params event.turnID (canonicalEventItemID event)
    event.method event.semantic status budget .liveWire

/-- What `applyAdapterEventLocked` reads out of a notification; `pending` is the request that
the adapter still has under its id. Without it the notification is refused. -/
def canonicalBody (library : Library) (resolver : Resolver) (budget : Nat) (now : Int)
    (event : Adapter.Event) (pending : Option Adapter.PendingRequest) : Option AdapterBody :=
  match event.kind with
  | .codexUpdated => some (.codexUpdated (codexParams library event.method event.params))
  | .turnUpdated => some (turnEvent library event)
  | .itemStarted => some (.itemStarted (canonicalItem library resolver budget event .running))
  | .itemUpdated => some (.itemUpdated (canonicalItem library resolver budget event .running))
  | .itemCompleted =>
      some (.itemCompleted (canonicalItem library resolver budget event .completed))
  | .itemDelta =>
      some (.itemDelta event.semantic event.method (outputStream library event.stream)
        (eventText event))
  | .pendingRequestUpdated =>
      pending.map fun request => .pendingRequestUpdated (pendingFromAdapter library request now)
  | .warningRaised => some (.warningRaised (warningMessage event.params) event.method)
  | .vendor =>
      some (.warningRaised
        (text ("unmapped app-server event " ++ event.method ++ ": ") ++
          warningMessage event.params) event.method)

def canonicalEvent (library : Library) (resolver : Resolver) (budget : Nat) (now : Int)
    (event : Adapter.Event) (pending : Option Adapter.PendingRequest) : Option AdapterEvent :=
  (canonicalBody library resolver budget now event pending).map fun body =>
    { threadID := event.threadID
      turnID := if event.kind = .turnUpdated then
          firstNonempty [event.turnID, firstString (rawObject event.params) ["turnId", "id"]]
        else event.turnID
      itemID := canonicalEventItemID event
      body := body }

section Valid

open Encoding

theorem valid_texts (values : List String) : Valid (values.map text) := by
  intro value among
  obtain ⟨literal, _, rfl⟩ := mem_map.mp among
  exact valid_literal literal

theorem bounded_valid {value : Text} (budget : Nat) (valid : Utf8.valid value = true) :
    Utf8.valid (boundString value budget).1 = true := by
  obtain same | cut := boundString_valid value budget
  · exact same ▸ valid
  · exact cut

/-- Content and the remark on what is missing of it, both valid. -/
def ValidContent (made : ItemContent × Option Completeness) : Prop :=
  Valid made.1.texts ∧ Valid (textsOf Completeness.texts made.2)

theorem mergeAll_valid (each : ∀ part ∈ parts, Valid (textsOf Completeness.texts part)) :
    Valid (textsOf Completeness.texts (mergeAll parts)) := by
  have folded : ∀ start, Valid (textsOf Completeness.texts start) →
      Valid (textsOf Completeness.texts (parts.foldl mergeCompleteness start)) := by
    induction parts with
    | nil => exact fun start valid => valid
    | cons part rest ih =>
      intro start valid
      apply ih fun other among => each other (mem_cons_of_mem _ among)
      exact mergeCompleteness_valid valid (each part mem_cons_self)
  apply folded none
  intro value among
  cases among

theorem messagePart_valid (resolve : Option Resolver) (budget : Nat) (part : InputPart) :
    Valid ((messagePart resolve budget part).1.flatMap UserMessagePart.texts) ∧
      Valid (textsOf Completeness.texts (messagePart resolve budget part).2) := by
  have missing : ∀ literal : String, Valid (textsOf Completeness.texts
      (some { incomplete := true, reason := text literal })) := by
    intro literal
    simpa [Valid, textsOf, Completeness.texts] using valid_literal literal
  have nothing : Valid [] := fun _ among => by cases among
  cases part with
  | text content =>
    constructor
    · have bounded := bounded_valid budget (valid_literal content)
      simpa [messagePart, Valid, UserMessagePart.texts] using bounded
    · exact boundString_remark (text content) budget
  | localImage path =>
    unfold messagePart
    cases resolve with
    | none => exact ⟨nothing, missing _⟩
    | some resolver =>
      cases found : resolver.describe path with
      | none =>
        simp only [found]
        exact ⟨nothing, missing _⟩
      | some descriptor =>
        constructor
        · simpa [found, Valid, UserMessagePart.texts] using resolver.valid path descriptor found
        · simpa [found, textsOf] using nothing

section

variable (library : Library)
include library

theorem userMessage_valid (resolve : Option Resolver) (budget : Nat)
    (body : Body) : ValidContent (userMessage library resolve budget body) := by
  constructor
  · intro value among
    obtain ⟨part, inside, shown⟩ := mem_flatMap.mp among
    obtain ⟨made, listed, kept⟩ := mem_flatMap.mp inside
    obtain ⟨given, _, rfl⟩ := mem_map.mp listed
    have valid := (messagePart_valid resolve budget given).1
    exact valid value (mem_flatMap.mpr ⟨part, kept, shown⟩)
  · apply mergeAll_valid
    intro remark among
    simp only [List.map_map, List.mem_map, Function.comp_apply] at among
    obtain ⟨given, _, rfl⟩ := among
    exact (messagePart_valid resolve budget given).2

theorem plan_valid (budget : Nat) (body : Body) : ValidContent (plan library budget body) := by
  constructor
  · intro value among
    obtain ⟨step, inside, shown⟩ := mem_flatMap.mp among
    obtain ⟨given, _, rfl⟩ := mem_map.mp inside
    simp only [PlanStep.texts, mem_cons, not_mem_nil, or_false] at shown
    rcases shown with rfl | rfl
    · exact bounded_valid budget (valid_literal given.1)
    · exact valid_literal given.2
  · apply mergeAll_valid
    intro remark among
    obtain ⟨given, _, rfl⟩ := mem_map.mp among
    exact boundString_remark (text given.1) budget

theorem command_valid (budget : Nat) (body : Body) :
    ValidContent (command library budget body) := by
  constructor
  · intro value among
    simp only [command, ItemContent.texts, mem_cons] at among
    rcases among with rfl | rfl | argument
    · exact valid_literal _
    · exact bounded_valid budget (valid_literal _)
    · exact valid_texts _ value argument
  · exact boundString_remark _ budget

theorem fileChange_valid (budget : Nat) (body : Body) :
    ValidContent (fileChange library budget body) := by
  constructor
  · intro value among
    simp only [fileChange, ItemContent.texts, mem_cons] at among
    rcases among with rfl | listed
    · exact bounded_valid budget (valid_literal _)
    obtain ⟨change, inside, shown⟩ := mem_flatMap.mp listed
    obtain ⟨given, _, rfl⟩ := mem_map.mp inside
    simp only [FileChange.texts, mem_cons, not_mem_nil, or_false] at shown
    rcases shown with rfl | rfl | rfl <;> exact valid_literal _
  · exact boundString_remark _ budget

/-- Here the parameters are shown as they came. -/
theorem tool_valid (budget : Nat) (body : Body) (typeName method : String)
    (valid : Utf8.valid params.raw = true) :
    ValidContent (tool library budget params body typeName method) := by
  constructor
  · intro value among
    simp only [tool, ItemContent.texts, mem_cons, not_mem_nil, or_false] at among
    rcases among with rfl | rfl | rfl
    · exact valid_literal _
    · apply bounded_valid
      split
      · exact valid
      · exact valid_literal _
    · exact bounded_valid budget (valid_literal _)
  · exact mergeCompleteness_valid (boundString_remark _ budget) (boundString_remark _ budget)

theorem translateContent_valid (resolve : Option Resolver) (budget : Nat) (body : Body)
    (typeName method : String) (semantic : Semantic) (valid : Utf8.valid params.raw = true) :
    ValidContent (translateContent library resolve budget params body typeName method
      semantic) := by
  have plain : ∀ (keys : List String), Valid
      [(boundString (text (firstText library body keys)) budget).1] := by
    intro keys
    simpa [Valid] using bounded_valid budget (valid_literal (firstText library body keys))
  unfold translateContent
  extract_lets method' bounded
  split
  · exact userMessage_valid library resolve budget body
  split
  · exact ⟨plain _, boundString_remark _ budget⟩
  split
  · exact ⟨plain _, boundString_remark _ budget⟩
  split
  · exact plan_valid library budget body
  split
  · exact command_valid library budget body
  split
  · exact fileChange_valid library budget body
  · exact tool_valid library budget body typeName method valid

theorem canonicalItem_valid (resolver : Resolver) (budget : Nat)
    (status : ItemStatus) (valid : Utf8.valid event.params.raw = true) :
    Valid (canonicalItem library resolver budget event status).texts := by
  obtain ⟨content, remark⟩ := translateContent_valid library (some resolver) budget
    (within (rawObject event.params) "item")
    (library.lower (firstString (within (rawObject event.params) "item") ["type", "kind"]))
    event.method event.semantic valid
  exact content.append remark

theorem codexParams_valid (method : String) (params : Params) :
    Valid (codexParams library method params).title.toList := by
  intro value among
  simp only [codexParams, mem_toList] at among
  split at among
  · split at among <;> cases among
    · exact Utf8.valid_nil
    · exact valid_literal _
  · split at among <;> cases among
    exact valid_literal _

theorem turnFailure_valid (value : Option Json) :
    Valid (textsOf Error.texts (turnFailure library value)) := by
  have plain : ∀ message : String, Valid (textsOf Error.texts
      (some { code := .internalError, message := text message })) := by
    intro message
    simpa [Valid, textsOf, Error.texts] using valid_literal message
  unfold turnFailure
  split
  · exact fun _ among => by cases among
  · exact fun _ among => by cases among
  · exact plain _
  · intro shown among
    simp only [textsOf, Error.texts, toList_some, flatMap_cons, flatMap_nil,
      append_nil, mem_cons, map_append, mem_append] at among
    rcases among with rfl | details | info
    · exact valid_literal _
    · split at details
      · simp only [map_cons, map_nil, mem_singleton] at details
        exact details ▸ valid_literal _
      · cases details
    · simp only [List.mem_map, mem_toList, map_eq_some_iff] at info
      obtain ⟨_, ⟨_, _, rfl⟩, rfl⟩ := info
      exact valid_literal _
  · exact plain _

theorem pendingFromAdapter_valid (request : Adapter.PendingRequest)
    (now : Int) : Valid (pendingFromAdapter library request now).texts := by
  unfold pendingFromAdapter
  extract_lets createdAt body
  split
  · intro value among
    simp only [PendingRequest.texts, UserInputRequestState.texts, textsOf, toList_none,
      flatMap_nil, map_nil, append_nil] at among
    obtain ⟨question, inside, shown⟩ := mem_flatMap.mp among
    obtain ⟨given, _, rfl⟩ := mem_map.mp inside
    simp only [UserInputQuestion.texts, canonicalQuestion, mem_cons] at shown
    rcases shown with rfl | rfl | option
    · exact valid_literal _
    · exact valid_literal _
    obtain ⟨choice, listed, text⟩ := mem_flatMap.mp option
    obtain ⟨index, _, rfl⟩ := mem_mapIdx.mp listed
    simp only [UserInputOption.texts, mem_cons, not_mem_nil, or_false] at text
    rcases text with rfl | rfl <;> exact valid_literal _
  · intro value among
    simp only [PendingRequest.texts, Approval.texts, mem_cons] at among
    rcases among with rfl | rfl | argument
    · exact valid_literal _
    · exact valid_literal _
    · exact valid_texts _ value argument

end

theorem messageOrRaw_valid (name : String) (valid : Utf8.valid params.raw = true) :
    Utf8.valid (messageOrRaw name params) = true := by
  unfold messageOrRaw
  split
  · split
    · exact valid_literal _
    · exact valid
  · exact valid

/-- The notification brings no bytes around the JSON decoder that are not UTF-8: its parameters
are, and what base64 makes of a delta is. -/
structure Clean (event : Adapter.Event) : Prop where
  params : Utf8.valid event.params.raw = true
  decoded : event.kind = .itemDelta → event.encoding = "base64" →
    ∀ bytes, decodeString (givenText event) = some bytes → Utf8.valid bytes = true

theorem eventText_valid (clean : Clean event) (delta : event.kind = .itemDelta) :
    Utf8.valid (eventText event) = true := by
  have given : Utf8.valid (givenText event) = true := by
    unfold givenText
    split
    · exact valid_literal _
    · exact messageOrRaw_valid "delta" clean.params
  unfold eventText
  split
  · next encoded =>
    cases bytes : decodeString (givenText event) with
    | none => exact given
    | some decoded => exact clean.decoded delta encoded decoded bytes
  · exact given

/-- What a clean notification brings is valid. -/
theorem canonicalEvent_valid (clean : Clean event)
    (read : canonicalEvent library resolver budget now event pending = some made) :
    Valid (AdapterBody.texts made.body) := by
  obtain ⟨body, found, rfl⟩ := map_eq_some_iff.mp read
  have message := messageOrRaw_valid "message" clean.params
  have single : ∀ value : Text, Utf8.valid value = true → Valid [value] := by
    intro value valid
    simpa [Valid] using valid
  unfold canonicalBody at found
  cases kind : event.kind <;> simp only [kind] at found
  case pendingRequestUpdated =>
    obtain ⟨request, _, rfl⟩ := map_eq_some_iff.mp found
    exact pendingFromAdapter_valid library request now
  all_goals obtain rfl := some.inj found
  case vendor => exact single _ (Utf8.valid_append (valid_literal _) message)
  case codexUpdated => exact codexParams_valid library event.method event.params
  case turnUpdated => exact turnFailure_valid library _
  case itemStarted | itemUpdated | itemCompleted =>
    exact canonicalItem_valid library resolver budget _ clean.params
  case itemDelta => exact single _ (eventText_valid clean kind)
  case warningRaised => exact single _ message

end Valid

section Notifications

open Encoding

/-- One notification, with the requests and images the Host finds for it and how its storage
calls end. -/
structure Notification where
  event : Adapter.Event
  pending : Option Adapter.PendingRequest := none
  resolver : Resolver
  now : Int
  storage : Storage := {}

/-- The Manager, and every event made for publication so far. -/
structure World where
  manager : Manager
  made : List Protocol.Event := []

/-- View and event of a notification before anything is stored. -/
def produced (config : Config) (m : Manager) (event : AdapterEvent) (now : Int) :
    Option (CurrentView × Protocol.Event) :=
  (m.byThread event.threadID).bind fun codexID =>
    (m.byID codexID).bind fun old =>
      applyEvent config.sizes config.contentBudget (m.manualTitle codexID)
        (countChunk m codexID event).2 now codexID event old

/-- The events a notification makes, whether or not storing lets them be published. The end or
the begin of a turn is followed by one that shows the Codex. -/
def eventsMade (config : Config) (event : AdapterEvent) (now : Int) (view : CurrentView)
    (made : Protocol.Event) : List Protocol.Event :=
  match event.body, view.codex with
  | .turnUpdated .., some codex =>
      [made, boundCanonicalEvent config.sizes config.contentBudget
        { codexId := codex.codexId, occurredAtUnixMs := now, body := .codexUpdated codex }]
  | _, _ => [made]

/-- `applyAdapterEventLocked` on a notification as the adapter hands it on. Row and event can be
written only if the view encodes. -/
def receive (config : Config) (library : Library) (world : World) (notice : Notification) :
    Option World :=
  match canonicalEvent library notice.resolver (contentBudget config.contentBudget) notice.now
      notice.event notice.pending with
  | none => some world
  | some event =>
      let result := produced config world.manager event notice.now
      let encodable := result.all fun (view, _) => encodes view
      let storage := notice.storage
      some
        { manager := (applyAdapterEventLocked config world.manager event notice.now
            (storage.writes && encodable)
            { storage.commit with marshals := storage.commit.marshals && encodable }
            { storage.second with marshals := storage.second.marshals && encodable }).1
          made := world.made ++ result.toList.flatMap fun (view, made) =>
            eventsMade config event notice.now view made }

/-- Every view in memory and every event made so far encodes. -/
structure Sound (world : World) : Prop where
  views : ∀ codexID view, world.manager.byID codexID = some view → Valid view.texts
  made : ∀ event ∈ world.made, Valid event.texts

/-- A notification changes at most one view in memory, to the one it produced. -/
theorem applyAdapterEventLocked_byID {event : AdapterEvent}
    (found : (applyAdapterEventLocked config m event now writes commit codexCommit).1.byID
      codexID = some view) :
    m.byID codexID = some view ∨ ∃ made, produced config m event now = some (view, made) := by
  have effect := applyAdapterEventLocked_applied config m event now writes commit codexCommit
  generalize (applyAdapterEventLocked config m event now writes commit codexCommit).1 = last
    at effect found
  cases effect with
  | kept events chunks => exact .inl found
  | changed id old shown made events chunks thread remembered applied =>
    by_cases same : codexID = id
    · subst same
      have held : view = shown := by simpa [Manager.remember] using found.symm
      exact .inr ⟨made, by simp [produced, thread, remembered, applied, held]⟩
    · have other : m.byID codexID = some view := by
        simpa [Manager.remember, Function.update_of_ne same] using found
      exact .inl other

theorem produced_valid {event : AdapterEvent}
    (views : ∀ codexID view, m.byID codexID = some view → Valid view.texts)
    (brought : Valid (AdapterBody.texts event.body))
    (result : produced config m event now = some (view, made)) :
    Valid view.texts ∧ Valid made.texts := by
  obtain ⟨codexID, _, rest⟩ := bind_eq_some_iff.mp result
  obtain ⟨old, remembered, applied⟩ := bind_eq_some_iff.mp rest
  exact applyEvent_valid (views codexID old remembered) brought applied

theorem eventsMade_valid (config : Config) (event : AdapterEvent) (now : Int)
    (viewValid : Valid view.texts) (madeValid : Valid made.texts) :
    ∀ other ∈ eventsMade config event now view made, Valid other.texts := by
  have single : ∀ other ∈ [made], Valid other.texts := by
    intro other among
    exact mem_singleton.mp among ▸ madeValid
  unfold eventsMade
  split
  · next codex _ found =>
    intro other among
    simp only [mem_cons, not_mem_nil, or_false] at among
    rcases among with rfl | rfl
    · exact madeValid
    · apply (boundCanonicalEvent_trims config.sizes config.contentBudget _).valid
      exact codex_valid viewValid found
  · exact single

theorem receive_sound (config : Config) (library : Library) (world next : World)
    (notice : Notification) (sound : Sound world) (clean : Clean notice.event)
    (received : receive config library world notice = some next) : Sound next := by
  unfold receive at received
  split at received
  · exact some.inj received ▸ sound
  next event read =>
  cases received
  have brought := canonicalEvent_valid clean read
  constructor
  · intro codexID view found
    obtain kept | ⟨made, result⟩ := applyAdapterEventLocked_byID found
    · exact sound.views codexID view kept
    · exact (produced_valid sound.views brought result).1
  · intro other among
    rcases mem_append.mp among with before | now
    · exact sound.made other before
    obtain ⟨⟨view, made⟩, result, inside⟩ := mem_flatMap.mp now
    obtain ⟨viewValid, madeValid⟩ := produced_valid sound.views brought
      (mem_toList.mp result)
    exact eventsMade_valid config event notice.now viewValid madeValid other inside

/-- Along any sequence of clean notifications, from views that encode, every view in memory and
every event made encodes, however the storage calls end. The view of a Codex can then be
written. -/
theorem texts_stay_valid (config : Config) (library : Library) (start last : World)
    (notices : List Notification) (sound : Sound start)
    (clean : ∀ notice ∈ notices, Clean notice.event)
    (ran : Runs.run (receive config library) start notices = some last) :
    (∀ codexID view, last.manager.byID codexID = some view →
      encodes view = true ∧
        (view.codex.isSome → (persistState last.manager view (encodes view)).isSome)) ∧
      ∀ event ∈ last.made, event.texts.all Utf8.valid = true := by
  have meets := Runs.meets_of_forall (receive config library) start clean
  have kept := Runs.run_invariant Sound (fun world notice next holds condition taken =>
      receive_sound config library world next notice holds condition taken) sound meets ran
  constructor
  · intro codexID view found
    have valid := (encodes_iff view).mpr (kept.views codexID view found)
    refine ⟨valid, ?_⟩
    intro owned
    obtain ⟨codex, owner⟩ := isSome_iff_exists.mp owned
    simp [persistState, owner, valid]
  · intro event among
    exact all_eq_true.mpr (kept.made event among)

def sampleLibrary : Library :=
  { lower := String.toLower, marshal := fun _ => "", sprint := fun _ => "", int64 := fun _ => 0
    int32 := fun _ => 0 }

/-- No image is found. -/
def sampleResolver : Resolver := ⟨fun _ => none, nofun⟩

/-- A delta of one command's output, given in base64. -/
def sampleDelta (encoded : String) : Notification :=
  { event := translateEvent "item/commandExecution/outputDelta" false "thr" "turn" "item"
      { raw := text ("\x7b\"deltaBase64\":\"" ++ encoded ++ "\"\x7d")
        value := some (.object [("deltaBase64", .string encoded)]) }
    resolver := sampleResolver, now := 2 }

theorem sampleDelta_clean (encoded : String) (bytes : Text)
    (decodes : decodeString (givenText (sampleDelta encoded).event) = some bytes)
    (valid : Utf8.valid bytes = true) : Clean (sampleDelta encoded).event := by
  constructor
  · exact valid_literal _
  · intro _ _ found decoded
    exact some.inj (decodes.symm.trans decoded) ▸ valid

theorem sampleManager_sound : Sound { manager := sampleManager } := by
  constructor
  · intro codexID view found
    have same : ({ codex := some sampleCodex } : CurrentView) = view := by
      have listed : (if codexID = "cdx" then some ({ codex := some sampleCodex } : CurrentView)
        else none) = some view := found
      split at listed
      · exact some.inj listed
      · cases listed
    exact same ▸ (encodes_iff _).mp (by decide)
  · intro event among
    cases among

/-- Two deltas that decode to a letter each. -/
theorem texts_stay_valid_letters :
    ∃ last, Runs.run (receive sampleConfig sampleLibrary) { manager := sampleManager }
        [sampleDelta "YQ==", sampleDelta "Yg=="] = some last ∧
      (∀ codexID view, last.manager.byID codexID = some view →
        encodes view = true ∧
          (view.codex.isSome → (persistState last.manager view (encodes view)).isSome)) ∧
        ∀ event ∈ last.made, event.texts.all Utf8.valid = true := by
  have finished : (Runs.run (receive sampleConfig sampleLibrary) { manager := sampleManager }
      [sampleDelta "YQ==", sampleDelta "Yg=="]).isSome = true := by decide +kernel
  obtain ⟨last, ran⟩ := isSome_iff_exists.mp finished
  refine ⟨last, ran, ?_⟩
  apply texts_stay_valid sampleConfig sampleLibrary _ last _ sampleManager_sound _ ran
  intro notice among
  simp only [mem_cons, not_mem_nil, or_false] at among
  rcases among with rfl | rfl
  · exact sampleDelta_clean _ [97] (by decide +kernel) (by decide)
  · exact sampleDelta_clean _ [98] (by decide +kernel) (by decide)

/-- A delta that decodes to the single byte 0xFF, behind one that is a letter. The byte is in
the view in memory and in the event, and the view cannot be written any more. -/
theorem invalid_byte_kept :
    ∃ last, Runs.run (receive sampleConfig sampleLibrary) { manager := sampleManager }
        [sampleDelta "YQ==", sampleDelta "/w=="] = some last ∧
      (∃ view, last.manager.byID "cdx" = some view ∧ encodes view = false ∧
        (persistState last.manager view (encodes view)).isNone) ∧
      ∃ event ∈ last.made, event.texts.all Utf8.valid = false := by
  have finished : (Runs.run (receive sampleConfig sampleLibrary) { manager := sampleManager }
      [sampleDelta "YQ==", sampleDelta "/w=="]).map (fun last =>
        decide (((last.manager.byID "cdx").map fun view =>
          (encodes view, (persistState last.manager view (encodes view)).isNone)) =
            some (false, true) ∧
          ∃ event ∈ last.made, event.texts.all Utf8.valid = false)) = some true := by
    decide +kernel
  obtain ⟨last, ran, shown⟩ := map_eq_some_iff.mp finished
  obtain ⟨memory, event⟩ := of_decide_eq_true shown
  obtain ⟨view, found, same⟩ := map_eq_some_iff.mp memory
  obtain ⟨broken, refused⟩ := Prod.mk.inj same
  exact ⟨last, ran, ⟨view, found, broken, refused⟩, event⟩

end Notifications

end CodexRemote.Translation
