import CodexRemote.Library.Utf8
import CodexRemote.Protocol

/-!
# Clipping views and events to the frame budget

`internal/codex/budget.go` and the bounding functions of `manager.go`. A message
that encodes to more bytes than its budget loses presentation text, then members
of presentation lists, and is marked as incomplete. The encoder is not part of the
repository: the encoded size of each message is a parameter, and nothing is assumed
of it.

The functions change messages in place; here they return the changed message with
the completeness the source returns. What clipping never touches is collected in
`boundCurrentView_keeps`: identities, status, lease, turn and workspace state.
-/
namespace CodexRemote.Budget

open Protocol

/-- `protoJSONSize` of each kind of message. -/
structure Sizes where
  item : Item → Nat
  pending : PendingRequest → Nat
  warning : Warning → Nat
  failure : Error → Nat
  codex : Codex → Nat
  event : Event → Nat
  view : CurrentView → Nat

/-- The loop of `validUTF8Prefix`: step back from a length to a valid boundary. -/
def stepBack (value : Text) : Nat → Text
  | 0 => []
  | length + 1 =>
      if Utf8.valid (value.take (length + 1)) then value.take (length + 1)
      else stepBack value length

def validUTF8Prefix (value : Text) (budget : Nat) : Text :=
  if value.length ≤ budget then value else stepBack value budget

def boundString (value : Text) (budget : Nat) : Text × Option Completeness :=
  let limit := max budget 1
  if value.length ≤ limit then (value, none)
  else
    (validUTF8Prefix value limit,
      some { truncated := true, incomplete := true, originalSizeBytes := value.length
             reason := text "content exceeds C/S frame budget" })

/-- The text of `boundString`, where its completeness is dropped. -/
def clip (budget : Nat) (value : Text) : Text := (boundString value budget).1

def mergeCompleteness (dst src : Option Completeness) : Option Completeness :=
  match src, dst with
  | none, dst => dst
  | some src, none => some src
  | some src, some dst =>
      some
        { truncated := dst.truncated || src.truncated
          incomplete := dst.incomplete || src.incomplete
          originalSizeBytes := max dst.originalSizeBytes src.originalSizeBytes
          reason := if dst.reason = [] then src.reason else dst.reason }

def budgetCompleteness (original : Nat) (reason : String) : Completeness :=
  { truncated := true, incomplete := true, originalSizeBytes := original
    reason := text reason }

/-- The limit on one text, with its default. -/
def contentBudget (configured : Int) : Nat :=
  if configured ≤ 0 then 256 * 1024 else configured.toNat

/-- The limit on a whole view or event. -/
def collectionBudget (configured : Int) : Nat :=
  let budget := contentBudget configured * 2
  max (budget - max (min (budget / 8) 1024) 128) 1

/-- The loop of `boundedProtoPrefix` between two lengths. The distance of the
lengths is fuel enough, since every round shortens it. -/
def widen (fits : Nat → Bool) : Nat → Nat → Nat → Nat
  | 0, low, _ => low
  | fuel + 1, low, high =>
      if low < high then
        let mid := low + (high - low + 1) / 2
        if fits mid then widen fits fuel mid high else widen fits fuel low (mid - 1)
      else low

def boundedProtoPrefix {Value : Type} (values : List Value) (minimum : Nat)
    (fits : List Value → Bool) : List Value :=
  if values.isEmpty ∨ fits values = true then values
  else
    let least := min minimum values.length
    if fits (values.take least) = false then values.take least
    else
      values.take (widen (fun length => fits (values.take length)) (values.length - least) least
        values.length)

/-- A part of a user message, its text clipped. -/
def clipPart (budget : Nat) : UserMessagePart → UserMessagePart
  | .text content => .text (clip budget content)
  | .image descriptor => .image descriptor

/-- The content of an item with every text clipped and its list cut to what fits,
one member at the least. -/
def clipContent (perField : Nat) (fits : ItemContent → Bool) : ItemContent → ItemContent
  | .userMessage parts =>
      .userMessage (boundedProtoPrefix (parts.map (clipPart perField)) 1
        fun values => fits (.userMessage values))
  | .agentMessage message => .agentMessage (clip perField message)
  | .reasoningSummary summary => .reasoningSummary (clip perField summary)
  | .plan steps =>
      .plan (boundedProtoPrefix
        (steps.map fun step =>
          { text := clip perField step.text, status := clip (max (perField / 2) 1) step.status })
        1 fun values => fits (.plan values))
  | .command argv cwd output exitCode =>
      let cwd := clip perField cwd
      let output := clip perField output
      .command (boundedProtoPrefix (argv.map (clip perField)) 1
        fun values => fits (.command values cwd output exitCode)) cwd output exitCode
  | .tool toolName summary resultSummary =>
      .tool (clip perField toolName) (clip perField summary) (clip perField resultSummary)
  | .fileChange changes unifiedDiff =>
      let unifiedDiff := clip perField unifiedDiff
      .fileChange (boundedProtoPrefix
        (changes.map fun change =>
          { change with
            path := clip perField change.path
            oldPath := clip perField change.oldPath
            newPath := clip perField change.newPath })
        1 fun values => fits (.fileChange values unifiedDiff)) unifiedDiff

def boundItem (sizes : Sizes) (item : Item) (budget : Nat) : Item × Option Completeness :=
  if sizes.item item ≤ budget then (item, none)
  else
    let complete := budgetCompleteness (sizes.item item)
      "item fields or collection exceed C/S frame budget"
    let marked := { item with completeness := mergeCompleteness item.completeness complete }
    let fits content := decide (sizes.item { marked with content := content } ≤ budget)
    ({ marked with content := clipContent (max (budget / 8) 1) fits item.content },
      some complete)

/-- At most the first byte, as the second pass leaves a presentation text. -/
def firstByte (value : Text) : Text := validUTF8Prefix value (min value.length 1)

/-- The first word of a command reduced to at most its first byte. -/
def firstWord : List Text → List Text
  | [] => []
  | word :: rest => firstByte word :: rest

/-- A question without its presentation texts; labels stay. -/
def bareQuestion (question : UserInputQuestion) : UserInputQuestion :=
  { question with
    header := [], prompt := []
    options := question.options.map fun option => { option with description := [] } }

def clipQuestion (budget : Nat) (question : UserInputQuestion) : UserInputQuestion :=
  { question with
    header := clip budget question.header
    prompt := clip budget question.prompt
    options := question.options.map fun option =>
      { option with
        label := clip budget option.label
        description := clip budget option.description } }

def boundApproval (sizes : Sizes) (request : Approval) (budget : Nat) : Approval :=
  let perField := max (budget / 16) 1
  let clipped :=
    { request with
      title := clip perField request.title
      explanation := clip perField request.explanation }
  let cut :=
    { clipped with
      command := boundedProtoPrefix (request.command.map (clip perField)) 1
        fun values =>
          decide (sizes.pending (.approval { clipped with command := values }) ≤ budget) }
  if sizes.pending (.approval cut) ≤ budget then cut
  else
    { cut with
      title := firstByte cut.title
      explanation := firstByte cut.explanation
      command := firstWord cut.command }

def boundUserInput (sizes : Sizes) (request : UserInputRequestState) (budget : Nat)
    (complete : Completeness) : UserInputRequestState :=
  let perField := max (budget / 16) 1
  let clipped :=
    { request with
      completeness := mergeCompleteness request.completeness complete
      questions := request.questions.map (clipQuestion perField)
      resolvedAnswers := request.resolvedAnswers.map fun answer =>
        { answer with freeFormText := clip perField answer.freeFormText } }
  let bare :=
    if sizes.pending (.userInput clipped) ≤ budget then clipped
    else { clipped with questions := clipped.questions.map bareQuestion }
  if sizes.pending (.userInput bare) ≤ budget then bare
  else
    { bare with
      completeness := bare.completeness.map fun complete =>
        { complete with reason := text "frame budget" } }

/-- `boundPendingRequest` keeps every request, question and option with its id. -/
def boundPendingRequest (sizes : Sizes) (pending : PendingRequest) (budget : Nat) :
    PendingRequest × Option Completeness :=
  if sizes.pending pending ≤ budget then (pending, none)
  else
    let complete := budgetCompleteness (sizes.pending pending)
      "pending request presentation fields exceed C/S frame budget"
    (match pending with
      | .approval request => .approval (boundApproval sizes request budget)
      | .userInput request => .userInput (boundUserInput sizes request budget complete),
      some complete)

def clipMetadata (budget : Nat) (metadata : List (String × Text)) : List (String × Text) :=
  metadata.map fun (key, value) => (key, clip budget value)

def boundWarning (sizes : Sizes) (warning : Warning) (budget : Nat) :
    Warning × Option Completeness :=
  if sizes.warning warning ≤ budget then (warning, none)
  else
    let clipped :=
      { warning with
        message := clip (max (budget / 3) 1) warning.message
        metadata := clipMetadata (max (budget / 8) 1) warning.metadata }
    (if sizes.warning clipped ≤ budget then clipped else { clipped with metadata := [] },
      some (budgetCompleteness (sizes.warning warning) "warning exceeds C/S frame budget"))

def boundError (sizes : Sizes) (failure : Error) (budget : Nat) :
    Error × Option Completeness :=
  if sizes.failure failure ≤ budget then (failure, none)
  else
    ({ failure with
        message := clip (max (budget / 3) 1) failure.message
        metadata := clipMetadata (max (budget / 8) 1) failure.metadata },
      some (budgetCompleteness (sizes.failure failure) "turn failure exceeds C/S frame budget"))

def boundCodex (sizes : Sizes) (codex : Codex) (budget : Nat) : Codex × Option Completeness :=
  if sizes.codex codex ≤ budget then (codex, none)
  else
    let clipped :=
      { codex with
        warnings := codex.warnings.map fun warning =>
          (boundWarning sizes warning (max (budget / 4) 1)).1 }
    let kept := if sizes.codex clipped ≤ budget then clipped else { clipped with warnings := [] }
    ({ kept with title := clip (max (budget / 8) 1) kept.title },
      some (budgetCompleteness (sizes.codex codex)
        "codex presentation fields exceed C/S frame budget"))

/-- The first pass of `boundCanonicalEvent` over a payload. -/
def boundBody (sizes : Sizes) (body : EventBody) (target : Nat) :
    EventBody × Option Completeness :=
  match body with
  | .itemStarted item =>
      let (item, complete) := boundItem sizes item target
      (.itemStarted item, complete)
  | .itemUpdated item =>
      let (item, complete) := boundItem sizes item target
      (.itemUpdated item, complete)
  | .itemCompleted item =>
      let (item, complete) := boundItem sizes item target
      (.itemCompleted item, complete)
  | .itemDelta turnId itemId chunkSeq (.commandOutput stream content) =>
      let (content, complete) := boundString content (max (target / 2) 1)
      (.itemDelta turnId itemId chunkSeq (.commandOutput stream content), complete)
  | .itemDelta turnId itemId chunkSeq (.text content) =>
      let (content, complete) := boundString content (max (target / 2) 1)
      (.itemDelta turnId itemId chunkSeq (.text content), complete)
  | .pendingRequestUpdated request =>
      let (request, complete) := boundPendingRequest sizes request target
      (.pendingRequestUpdated request, complete)
  | .warningRaised warning =>
      let (warning, complete) := boundWarning sizes warning target
      (.warningRaised warning, complete)
  | .turnUpdated turnId status started completed (some failure) =>
      let (failure, complete) := boundError sizes failure target
      (.turnUpdated turnId status started completed (some failure), complete)
  | .codexUpdated codex =>
      let (codex, complete) := boundCodex sizes codex target
      (.codexUpdated codex, complete)
  | body => (body, none)

/-- The payloads the second, strict pass visits again: not deltas, turns and
Codexes. -/
def strictBody (sizes : Sizes) (body : EventBody) (strict : Nat) :
    EventBody × Option Completeness :=
  match body with
  | .itemDelta .. | .turnUpdated .. | .codexUpdated .. => (body, none)
  | body => boundBody sizes body strict

/-- `boundCanonicalEvent`. The completeness it returns is the event's own. -/
def boundCanonicalEvent (sizes : Sizes) (configured : Int) (event : Event) : Event :=
  let budget := collectionBudget configured
  if sizes.event event ≤ budget then event
  else
    let (body, first) := boundBody sizes event.body (max (budget - 512) (budget / 2))
    let (body, complete) :=
      if sizes.event { event with body := body } ≤ budget then (body, first)
      else
        let (body, second) := strictBody sizes body (max (budget / 4) 1)
        (body, mergeCompleteness first second)
    let complete := mergeCompleteness complete
      (budgetCompleteness (sizes.event event) "canonical event exceeds C/S frame budget")
    let marked :=
      { event with body := body, completeness := mergeCompleteness event.completeness complete }
    if sizes.event marked ≤ budget then marked
    else
      { marked with
        completeness := marked.completeness.map fun complete =>
          { complete with reason := text "frame budget" } }

variable (sizes : Sizes)

theorem boundCanonicalEvent_codexId (configured : Int) (event : Event) :
    (boundCanonicalEvent sizes configured event).codexId = event.codexId := by
  dsimp only [boundCanonicalEvent]
  simp only [apply_ite Event.codexId, ite_self]

/-- The metadata key of the warnings that clipping adds. -/
def scopeKey : String := "codex_remote_budget_scope"

/-- The scope a warning was added for, empty when it was not added by clipping. -/
def Warning.scope (warning : Warning) : Text := (warning.metadata.lookup scopeKey).getD []

def addBudgetWarning (codex : Codex) (scope : String) : Codex :=
  if codex.warnings.any fun warning => Warning.scope warning = text scope then codex
  else
    { codex with
      warnings := codex.warnings ++
        [{ code := .unspecified
           message := text "Some fields were truncated to fit the C/S frame budget."
           metadata := [(scopeKey, text scope)] }] }

def removeNonBudgetWarnings (codex : Codex) : Codex :=
  { codex with warnings := codex.warnings.filter fun warning => Warning.scope warning ≠ [] }

/-- The last budget warning goes. -/
def removeBudgetWarning (codex : Codex) : Codex :=
  { codex with
    warnings := (codex.warnings.reverse.eraseP fun warning => Warning.scope warning ≠ []).reverse }

def minimizePendingPresentation : PendingRequest → PendingRequest
  | .approval request =>
      .approval
        { request with
          title := firstByte request.title
          explanation := firstByte request.explanation
          command := firstWord (request.command.take 1) }
  | .userInput request =>
      .userInput { request with questions := request.questions.map bareQuestion }

/-- The first member of a list emptied by the given function, the others dropped. -/
def onlyFirst {Value : Type} (empty : Value → Value) (values : List Value) : List Value :=
  (values.take 1).map empty

def minimizeContent : ItemContent → ItemContent
  | .userMessage parts =>
      .userMessage (onlyFirst (fun
        | .text _ => .text []
        | .image descriptor => .image descriptor) parts)
  | .agentMessage _ => .agentMessage []
  | .reasoningSummary _ => .reasoningSummary []
  | .plan steps => .plan (onlyFirst (fun step => { step with text := [] }) steps)
  | .command argv _ _ exitCode => .command (onlyFirst (fun _ => []) argv) [] [] exitCode
  | .tool toolName _ _ => .tool toolName [] []
  | .fileChange changes _ =>
      .fileChange (onlyFirst (fun change =>
        { change with path := [], oldPath := [], newPath := [] }) changes) []

def minimizeItemPresentation (item : Item) : Item :=
  { item with
    completeness := mergeCompleteness item.completeness
      (some { truncated := true, incomplete := true, reason := text "frame budget" })
    content := minimizeContent item.content }

/-- Bound the members of a list in order and merge what was lost. -/
def boundEach {Value : Type} (bound : Value → Value × Option Completeness) :
    List Value → Option Completeness → List Value × Option Completeness
  | [], complete => ([], complete)
  | value :: rest, complete =>
      let (value, lost) := bound value
      let (rest, complete) := boundEach bound rest (mergeCompleteness complete lost)
      (value :: rest, complete)

/-- A pass that is made only while the view is still too large. -/
def whileOver (sizes : Sizes) (budget : Nat) (pass : CurrentView → CurrentView)
    (view : CurrentView) : CurrentView :=
  if sizes.view view ≤ budget then view else pass view

/-- A change of the view's Codex, if it has one. -/
def onCodex (change : Codex → Codex) (view : CurrentView) : CurrentView :=
  { view with codex := view.codex.map change }

/-- The items of the active turn, each within an equal share. -/
def boundTurnItems (sizes : Sizes) (budget : Nat) (view : CurrentView) : CurrentView :=
  { view with
    activeTurn := view.activeTurn.map fun turn =>
      let share := max (budget / max (turn.items.length + view.pendingRequests.length) 1 - 256) 1
      let (items, complete) :=
        boundEach (fun item => boundItem sizes item share) turn.items turn.completeness
      { turn with items := items, completeness := complete } }

def boundPendings (bound : PendingRequest → PendingRequest × Option Completeness)
    (view : CurrentView) : CurrentView :=
  let (pendings, complete) := boundEach bound view.pendingRequests view.completeness
  { view with pendingRequests := pendings, completeness := complete }

/-- The share of one pending request. -/
def pendingShare (budget : Nat) (view : CurrentView) : Nat :=
  max (budget / max view.pendingRequests.length 1 - 256) 1

/-- The last resort: presentation is reduced to what a client needs to answer. -/
def minimizeView (sizes : Sizes) (budget original : Nat) (view : CurrentView) : CurrentView :=
  let answered := boundPendings (fun pending =>
    let (pending, complete) :=
      boundPendingRequest sizes pending (max (pendingShare budget view / 2) 1)
    (minimizePendingPresentation pending, complete)) view
  { answered with
    activeTurn := answered.activeTurn.map fun turn =>
      { turn with
        items := turn.items.map minimizeItemPresentation
        completeness := mergeCompleteness turn.completeness
          (budgetCompleteness original "frame budget") } }

def boundCurrentView (sizes : Sizes) (configured : Int) (view : CurrentView) : CurrentView :=
  let budget := collectionBudget configured
  if sizes.view view ≤ budget then view
  else
    let original := sizes.view view
    let marked :=
      { view with
        completeness := mergeCompleteness view.completeness
          (budgetCompleteness original "current view collection exceeds C/S frame budget") }
    let warned := onCodex (addBudgetWarning · "current_view") marked
    let items := boundTurnItems sizes budget warned
    let pendings := boundPendings
      (fun pending => boundPendingRequest sizes pending (pendingShare budget items)) items
    let warnings := whileOver sizes budget (onCodex removeNonBudgetWarnings) pendings
    let titled := whileOver sizes budget
      (onCodex fun codex => { codex with title := clip (max (budget / 8) 1) codex.title }) warnings
    let minimized := whileOver sizes budget (minimizeView sizes budget original) titled
    let silent := whileOver sizes budget (onCodex removeBudgetWarning) minimized
    whileOver sizes budget
      (fun view =>
        { view with
          completeness := view.completeness.map fun complete =>
            { complete with reason := text "frame budget" } }) silent

/-- A Codex without its presentation. -/
def bareCodex (codex : Codex) : Codex := { codex with title := [], warnings := [] }

/-- A turn without its items and what is said of their completeness. -/
def bareTurn (turn : TurnSnapshot) : TurnSnapshot := { turn with items := [], completeness := none }

/-- What clipping leaves alone. -/
structure Keeps (view after : CurrentView) : Prop where
  codex : after.codex.map bareCodex = view.codex.map bareCodex
  turn : after.activeTurn.map bareTurn = view.activeTurn.map bareTurn
  access : after.workspaceAccessState = view.workspaceAccessState
  pendings : after.pendingRequests.length = view.pendingRequests.length
  head : after.headEventSeq = view.headEventSeq
  generated : after.generatedAtUnixMs = view.generatedAtUnixMs

theorem Keeps.refl (view : CurrentView) : Keeps view view := ⟨rfl, rfl, rfl, rfl, rfl, rfl⟩

theorem Keeps.trans (left : Keeps first second) (right : Keeps second third) : Keeps first third :=
  ⟨right.codex.trans left.codex, right.turn.trans left.turn, right.access.trans left.access,
    right.pendings.trans left.pendings, right.head.trans left.head,
    right.generated.trans left.generated⟩

theorem whileOver_keeps (budget : Nat) {pass : CurrentView → CurrentView}
    (kept : Keeps view (pass view)) :
    Keeps view (whileOver sizes budget pass view) := by
  unfold whileOver
  split
  · exact Keeps.refl view
  · exact kept

theorem onCodex_keeps (change : Codex → Codex) (view : CurrentView)
    (bare : ∀ codex, bareCodex (change codex) = bareCodex codex) :
    Keeps view (onCodex change view) := by
  refine ⟨?_, rfl, rfl, rfl, rfl, rfl⟩
  cases codex : view.codex <;> simp [onCodex, codex, bare]

theorem boundEach_length (bound : Value → Value × Option Completeness) (values : List Value)
    (complete : Option Completeness) :
    (boundEach bound values complete).1.length = values.length := by
  induction values generalizing complete with
  | nil => rfl
  | cons value rest ih => simp [boundEach, ih]

theorem boundPendings_keeps (bound : PendingRequest → PendingRequest × Option Completeness)
    (view : CurrentView) : Keeps view (boundPendings bound view) :=
  ⟨rfl, rfl, rfl, boundEach_length bound view.pendingRequests view.completeness, rfl, rfl⟩

/-- A change of the active turn's items keeps the view. -/
theorem onTurn_keeps (view : CurrentView) (bare : ∀ turn, bareTurn (change turn) = bareTurn turn) :
    Keeps view { view with activeTurn := view.activeTurn.map change } := by
  refine ⟨rfl, ?_, rfl, rfl, rfl, rfl⟩
  cases turn : view.activeTurn <;> simp [bare]

theorem addBudgetWarning_bare (codex : Codex) (scope : String) :
    bareCodex (addBudgetWarning codex scope) = bareCodex codex := by
  unfold addBudgetWarning
  split <;> rfl

/-- Clipping changes presentation only. -/
theorem boundCurrentView_keeps (configured : Int) (view : CurrentView) :
    Keeps view (boundCurrentView sizes configured view) := by
  dsimp only [boundCurrentView]
  split
  · exact Keeps.refl view
  -- Each pass keeps the view that the one before it left.
  · refine Keeps.trans ?_ (whileOver_keeps _ _ ⟨rfl, rfl, rfl, rfl, rfl, rfl⟩)
    refine Keeps.trans ?_ (whileOver_keeps _ _ (onCodex_keeps _ _ fun _ => rfl))
    refine Keeps.trans ?_ (whileOver_keeps _ _
      (Keeps.trans (boundPendings_keeps _ _) (onTurn_keeps _ fun _ => rfl)))
    refine Keeps.trans ?_ (whileOver_keeps _ _ (onCodex_keeps _ _ fun _ => rfl))
    refine Keeps.trans ?_ (whileOver_keeps _ _ (onCodex_keeps _ _ fun _ => rfl))
    refine Keeps.trans ?_ (boundPendings_keeps _ _)
    refine Keeps.trans ?_ (onTurn_keeps _ fun _ => rfl)
    refine Keeps.trans ?_ (onCodex_keeps _ _ fun codex => addBudgetWarning_bare codex _)
    exact ⟨rfl, rfl, rfl, rfl, rfl, rfl⟩

end CodexRemote.Budget
