import CodexRemote.Budget

/-!
# What clipping leaves of a message

A client answers a request and asks for history by ids. Clipping rewrites a message in several
passes, and in each of them it searches for the longest prefix of a presentation list that fits,
with the candidate in place while its size is measured. None of this may lose an id.

The frame of a message is what has to survive: the ids and, for an item, its kind; for a request
everything that an answer refers to. Each routine keeps the frame, whatever the sizes are. Nothing
is assumed of the encoder, and nothing is said here of whether the result fits.
-/
namespace CodexRemote.Clipping

open Protocol Budget

/-! ## Frames -/

/-- The case of the content of an item. -/
inductive ContentKind where
  | userMessage
  | agentMessage
  | reasoningSummary
  | plan
  | command
  | tool
  | fileChange
  deriving DecidableEq

def contentKind : ItemContent → ContentKind
  | .userMessage _ => .userMessage
  | .agentMessage _ => .agentMessage
  | .reasoningSummary _ => .reasoningSummary
  | .plan _ => .plan
  | .command .. => .command
  | .tool .. => .tool
  | .fileChange .. => .fileChange

structure ItemFrame where
  itemId : String
  kind : ContentKind
  deriving DecidableEq

def itemFrame (item : Item) : ItemFrame := ⟨item.itemId, contentKind item.content⟩

structure QuestionFrame where
  questionId : String
  allowsMultiple : Bool
  allowsFreeForm : Bool
  optionIds : List String
  deriving DecidableEq

def questionFrame (question : UserInputQuestion) : QuestionFrame :=
  { questionId := question.questionId, allowsMultiple := question.allowsMultiple
    allowsFreeForm := question.allowsFreeForm
    optionIds := question.options.map UserInputOption.optionId }

/-- What an answer to a request refers to. -/
inductive PendingFrame where
  | approval (approvalId turnId itemId : String) (allowedDecisions : List ApprovalDecision)
  | userInput (userInputRequestId turnId itemId : String) (questions : List QuestionFrame)
  deriving DecidableEq

def pendingFrame : PendingRequest → PendingFrame
  | .approval request =>
      .approval request.approvalId request.turnId request.itemId request.allowedDecisions
  | .userInput request =>
      .userInput request.userInputRequestId request.turnId request.itemId
        (request.questions.map questionFrame)

structure CodexFrame where
  codexId : String
  threadId : String
  activeTurnId : String
  deriving DecidableEq

def codexFrame (codex : Codex) : CodexFrame := ⟨codex.codexId, codex.threadId, codex.activeTurnId⟩

structure TurnFrame where
  turnId : String
  items : List ItemFrame
  deriving DecidableEq

def turnFrame (turn : TurnSnapshot) : TurnFrame := ⟨turn.turnId, turn.items.map itemFrame⟩

structure ViewFrame where
  codex : Option CodexFrame
  activeTurn : Option TurnFrame
  pendingRequests : List PendingFrame
  deriving DecidableEq

def viewFrame (view : CurrentView) : ViewFrame :=
  { codex := view.codex.map codexFrame, activeTurn := view.activeTurn.map turnFrame
    pendingRequests := view.pendingRequests.map pendingFrame }

/-- The payload of an event with the frames of what it carries. -/
inductive BodyFrame where
  | codexUpdated (codex : CodexFrame)
  | turnUpdated (turnId : String)
  | itemStarted (item : ItemFrame)
  | itemUpdated (item : ItemFrame)
  | itemCompleted (item : ItemFrame)
  | itemDelta (turnId itemId : String)
  | pendingRequestUpdated (request : PendingFrame)
  | warningRaised
  | workspaceAccessStateUpdated
  | codexForgotten
  deriving DecidableEq

def bodyFrame : EventBody → BodyFrame
  | .codexUpdated codex => .codexUpdated (codexFrame codex)
  | .turnUpdated turnId .. => .turnUpdated turnId
  | .itemStarted item => .itemStarted (itemFrame item)
  | .itemUpdated item => .itemUpdated (itemFrame item)
  | .itemCompleted item => .itemCompleted (itemFrame item)
  | .itemDelta turnId itemId .. => .itemDelta turnId itemId
  | .pendingRequestUpdated request => .pendingRequestUpdated (pendingFrame request)
  | .warningRaised _ => .warningRaised
  | .workspaceAccessStateUpdated _ => .workspaceAccessStateUpdated
  | .codexForgotten => .codexForgotten

structure EventFrame where
  codexId : String
  body : BodyFrame
  deriving DecidableEq

def eventFrame (event : Event) : EventFrame := ⟨event.codexId, bodyFrame event.body⟩

/-! ## Items -/

theorem clipContent_kind (perField : Nat) (fits : ItemContent → Bool) (content : ItemContent) :
    contentKind (clipContent perField fits content) = contentKind content := by
  cases content <;> rfl

theorem minimizeContent_kind (content : ItemContent) :
    contentKind (minimizeContent content) = contentKind content := by
  cases content <;> rfl

variable (sizes : Sizes) (budget : Nat)

theorem boundItem_frame (item : Item) (budget : Nat) :
    itemFrame (boundItem sizes item budget).1 = itemFrame item := by
  dsimp only [boundItem]
  split
  · rfl
  · simp only [itemFrame, clipContent_kind]

theorem minimizeItemPresentation_frame (item : Item) :
    itemFrame (minimizeItemPresentation item) = itemFrame item :=
  congrArg (ItemFrame.mk item.itemId) (minimizeContent_kind item.content)

/-! ## Requests -/

theorem clipQuestion_frame (question : UserInputQuestion) :
    questionFrame (clipQuestion budget question) = questionFrame question := by
  simp [questionFrame, clipQuestion, Function.comp_def]

theorem bareQuestion_frame (question : UserInputQuestion) :
    questionFrame (bareQuestion question) = questionFrame question := by
  simp [questionFrame, bareQuestion, Function.comp_def]

/-- Questions that are changed one by one keep their frames in order. -/
theorem map_frame {Value Frame : Type} {frame : Value → Frame} {change : Value → Value}
    (kept : ∀ value, frame (change value) = frame value) (values : List Value) :
    (values.map change).map frame = values.map frame := by
  rw [List.map_map]
  exact List.map_congr_left fun value _ => kept value

theorem boundApproval_frame (request : Approval) (budget : Nat) :
    pendingFrame (.approval (boundApproval sizes request budget)) =
      pendingFrame (.approval request) := by
  dsimp only [boundApproval]
  split <;> rfl

/-- Proof: the first pass clips the questions, the second one strips them if that was not enough,
and the last one touches what is said of completeness only. -/
theorem boundUserInput_frame (request : UserInputRequestState) (budget : Nat)
    (complete : Completeness) :
    pendingFrame (.userInput (boundUserInput sizes request budget complete)) =
      pendingFrame (.userInput request) := by
  unfold boundUserInput
  extract_lets perField clipped bare
  have afterClip : pendingFrame (.userInput clipped) = pendingFrame (.userInput request) :=
    congrArg (PendingFrame.userInput _ _ _)
      (map_frame (clipQuestion_frame perField) request.questions)
  have afterStrip : pendingFrame (.userInput bare) = pendingFrame (.userInput clipped) := by
    unfold bare
    split
    · rfl
    · exact congrArg (PendingFrame.userInput _ _ _) (map_frame bareQuestion_frame clipped.questions)
  rw [← afterClip, ← afterStrip]
  split <;> rfl

theorem boundPendingRequest_frame (pending : PendingRequest) (budget : Nat) :
    pendingFrame (boundPendingRequest sizes pending budget).1 = pendingFrame pending := by
  unfold boundPendingRequest
  split
  · rfl
  · cases pending with
    | approval request => exact boundApproval_frame sizes request budget
    | userInput request => exact boundUserInput_frame sizes request budget _

theorem minimizePendingPresentation_frame (pending : PendingRequest) :
    pendingFrame (minimizePendingPresentation pending) = pendingFrame pending := by
  cases pending with
  | approval request => rfl
  | userInput request =>
    exact congrArg (PendingFrame.userInput _ _ _) (map_frame bareQuestion_frame request.questions)

/-! ## Views -/

/-- Proof: induction on the list; what is merged on the way is not part of a frame. -/
theorem boundEach_frame {Frame : Type} {frame : Value → Frame}
    (kept : ∀ value, frame (bound value).1 = frame value) (values : List Value)
    (complete : Option Completeness) :
    (boundEach bound values complete).1.map frame = values.map frame := by
  induction values generalizing complete with
  | nil => rfl
  | cons value rest ih =>
    change frame (bound value).1 :: (boundEach bound rest _).1.map frame = _
    rw [kept value, ih]
    rfl

theorem whileOver_frame {pass : CurrentView → CurrentView}
    (kept : ∀ view, viewFrame (pass view) = viewFrame view) (view : CurrentView) :
    viewFrame (whileOver sizes budget pass view) = viewFrame view := by
  unfold whileOver
  split
  · rfl
  · exact kept view

theorem onCodex_frame (kept : ∀ codex, codexFrame (change codex) = codexFrame codex)
    (view : CurrentView) :
    viewFrame (onCodex change view) = viewFrame view := by
  cases codex : view.codex <;> simp [viewFrame, onCodex, codex, kept]

theorem addBudgetWarning_frame (codex : Codex) (scope : String) :
    codexFrame (addBudgetWarning codex scope) = codexFrame codex := by
  unfold addBudgetWarning
  split <;> rfl

theorem boundTurnItems_frame (view : CurrentView) :
    viewFrame (boundTurnItems sizes budget view) = viewFrame view := by
  cases running : view.activeTurn with
  | none => simp [viewFrame, boundTurnItems, running]
  | some turn =>
    have items := boundEach_frame (fun item => boundItem_frame sizes item
      (max (budget / max (turn.items.length + view.pendingRequests.length) 1 - 256) 1))
      turn.items turn.completeness
    simp only [viewFrame, boundTurnItems, running, Option.map_some, turnFrame, items]

/-- Bounding requests that keep their frames keeps the frame of the view. -/
theorem boundPendings_frame {bound : PendingRequest → PendingRequest × Option Completeness}
    (kept : ∀ pending, pendingFrame (bound pending).1 = pendingFrame pending) (view : CurrentView) :
    viewFrame (boundPendings bound view) = viewFrame view :=
  congrArg (ViewFrame.mk _ _) (boundEach_frame kept view.pendingRequests view.completeness)

theorem minimizeView_frame (original : Nat) (view : CurrentView) :
    viewFrame (minimizeView sizes budget original view) = viewFrame view := by
  let bound : PendingRequest → PendingRequest × Option Completeness := fun pending =>
    let reduced := boundPendingRequest sizes pending (max (pendingShare budget view / 2) 1)
    (minimizePendingPresentation reduced.1, reduced.2)
  have kept : ∀ pending, pendingFrame (bound pending).1 = pendingFrame pending := fun pending =>
    (minimizePendingPresentation_frame _).trans (boundPendingRequest_frame sizes pending _)
  refine Eq.trans ?_ (boundPendings_frame kept view)
  cases running : view.activeTurn with
  | none =>
    simp only [viewFrame, minimizeView, boundPendings, running, Option.map_none]
    rfl
  | some turn =>
    simp only [viewFrame, minimizeView, boundPendings, running, Option.map_some, turnFrame,
      map_frame minimizeItemPresentation_frame]
    rfl

/-- Proof: each pass keeps the frame that the one before it left. -/
theorem boundCurrentView_frame (configured : Int) (view : CurrentView) :
    viewFrame (boundCurrentView sizes configured view) = viewFrame view := by
  dsimp only [boundCurrentView]
  split
  · rfl
  refine (whileOver_frame _ _ (fun _ => by rfl) _).trans ?_
  refine (whileOver_frame _ _ (onCodex_frame fun _ => by rfl) _).trans ?_
  refine (whileOver_frame _ _ (minimizeView_frame _ _ _) _).trans ?_
  refine (whileOver_frame _ _ (onCodex_frame fun _ => by rfl) _).trans ?_
  refine (whileOver_frame _ _ (onCodex_frame fun _ => by rfl) _).trans ?_
  refine (boundPendings_frame (fun pending => boundPendingRequest_frame sizes pending _) _).trans ?_
  refine (boundTurnItems_frame ..).trans ?_
  exact onCodex_frame (fun codex => addBudgetWarning_frame codex _) _

/-! ## Events -/

theorem boundCodex_frame (codex : Codex) (budget : Nat) :
    codexFrame (boundCodex sizes codex budget).1 = codexFrame codex := by
  dsimp only [boundCodex]
  split
  · rfl
  · split <;> rfl

/-- The first pass keeps the frame of every payload. -/
theorem boundBody_frame (body : EventBody) (target : Nat) :
    bodyFrame (boundBody sizes body target).1 = bodyFrame body := by
  cases body with
  | codexUpdated codex => exact congrArg BodyFrame.codexUpdated (boundCodex_frame ..)
  | turnUpdated turnId status started completed failure => cases failure <;> rfl
  | itemStarted item => exact congrArg BodyFrame.itemStarted (boundItem_frame ..)
  | itemUpdated item => exact congrArg BodyFrame.itemUpdated (boundItem_frame ..)
  | itemCompleted item => exact congrArg BodyFrame.itemCompleted (boundItem_frame ..)
  | itemDelta turnId itemId chunkSeq content => cases content <;> rfl
  | pendingRequestUpdated request =>
    exact congrArg BodyFrame.pendingRequestUpdated (boundPendingRequest_frame ..)
  | warningRaised warning | workspaceAccessStateUpdated state | codexForgotten => rfl

theorem strictBody_frame (body : EventBody) (strict : Nat) :
    bodyFrame (strictBody sizes body strict).1 = bodyFrame body := by
  unfold strictBody
  split
  · rfl
  · rfl
  · rfl
  · exact boundBody_frame sizes body strict

theorem boundCanonicalEvent_frame (configured : Int) (event : Event) :
    eventFrame (boundCanonicalEvent sizes configured event) = eventFrame event := by
  have once := boundBody_frame sizes event.body
    (max (collectionBudget configured - 512) (collectionBudget configured / 2))
  dsimp only [boundCanonicalEvent]
  split
  · rfl
  split <;> split
  · exact congrArg (EventFrame.mk _) once
  · exact congrArg (EventFrame.mk _) once
  · exact congrArg (EventFrame.mk _) ((strictBody_frame ..).trans once)
  · exact congrArg (EventFrame.mk _) ((strictBody_frame ..).trans once)

/-- Clipping a view or an event, to any budget and with any encoder, keeps the ids of Codex, thread
and turns, the items with their kinds, and the requests in order with everything an answer refers
to. -/
theorem clipping_keeps_frames (sizes : Sizes) (configured : Int) :
    (∀ view, viewFrame (boundCurrentView sizes configured view) = viewFrame view) ∧
      ∀ event, eventFrame (boundCanonicalEvent sizes configured event) = eventFrame event :=
  ⟨boundCurrentView_frame sizes configured, boundCanonicalEvent_frame sizes configured⟩

end CodexRemote.Clipping
