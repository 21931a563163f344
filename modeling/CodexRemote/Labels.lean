import CodexRemote.Deltas

/-!
# The labels of options

Clipping a user-input request cuts the labels of its options, too, at a sixteenth of the request's
share of the frame, and cuts whole characters. A label whose first character is longer than that is
left empty. In a view the share falls with the number of requests, down to a single byte.
-/
namespace CodexRemote.Labels

open Protocol Budget Codexes Deltas Function List Option

variable {sizes : Sizes} {budget limit : Nat} {label : Text} {pending : PendingRequest}

def labelsOf : PendingRequest → List Text
  | .approval _ => []
  | .userInput request => request.questions.flatMap fun question => question.options.map (·.label)

/-- The first character has at most so many bytes. -/
def FirstFits (limit : Nat) (label : Text) : Prop :=
  ∃ size, 0 < size ∧ size ≤ limit ∧ Utf8.valid (label.take size) = true

/-- The request is not clipped to the budget, or the cuts leave the first character of every
label. -/
def Readable (sizes : Sizes) (budget : Nat) (pending : PendingRequest) : Prop :=
  sizes.pending pending ≤ budget ∨ ∀ label ∈ labelsOf pending, FirstFits (max (budget / 16) 1) label

def Shown (pending : PendingRequest) : Prop :=
  ∀ label ∈ labelsOf pending, label ≠ []

def Whole (pending : PendingRequest) : Prop :=
  ∀ label ∈ labelsOf pending, Utf8.valid label = true

instance : Decidable (Shown pending) :=
  inferInstanceAs (Decidable (∀ label ∈ labelsOf pending, label ≠ []))

instance : Decidable (Whole pending) :=
  inferInstanceAs (Decidable (∀ label ∈ labelsOf pending, Utf8.valid label = true))

theorem stepBack_ge {length : Nat} (inside : size ≤ label.length)
    (whole : Utf8.valid (label.take size) = true) (within : size ≤ length) :
    size ≤ (stepBack label length).length := by
  induction length with
  | zero => exact within.trans (Nat.zero_le _)
  | succ length ih =>
    unfold stepBack
    split
    · rw [length_take]
      omega
    next cut =>
    refine ih (Nat.lt_succ_iff.mp (lt_of_le_of_ne within ?_))
    rintro rfl
    exact cut whole

/-- The longest valid beginning of a text within a limit, and the mark of a shortened one. -/
structure Longest (value : Text) (limit : Nat) (kept : Text × Option Completeness) : Prop where
  begins : kept.1 <+: value
  whole : Utf8.valid kept.1 = true
  within : kept.1.length ≤ limit
  longest : ∀ other, other <+: value → Utf8.valid other = true → other.length ≤ limit →
    other.length ≤ kept.1.length
  near : limit < value.length → limit < kept.1.length + 4
  mark : kept.2.map (·.originalSizeBytes) = if kept.1 = value then none else some value.length

theorem boundString_longest (value : Text) (budget : Nat) (valid : Utf8.valid value = true) :
    Longest value (max budget 1) (boundString value budget) := by
  unfold boundString
  generalize max budget 1 = limit
  dsimp only
  split
  · next fits =>
    exact ⟨List.prefix_rfl, valid, fits, fun _ begins _ _ => begins.length_le,
      fun long => absurd fits (Nat.not_le_of_lt long), by simp⟩
  next long =>
  have inside := Nat.le_of_not_le long
  simp only [validUTF8Prefix, long, if_false]
  obtain ⟨size, small, same⟩ := stepBack_take value limit
  have within : (stepBack value limit).length ≤ limit := by
    rw [same]
    exact (length_take_le _ _).trans small
  refine ⟨same ▸ List.take_prefix _ _, Encoding.stepBack_valid value limit, within, ?_, ?_, ?_⟩
  · intro other begins whole short
    exact stepBack_ge begins.length_le (List.prefix_iff_eq_take.mp begins ▸ whole) short
  · intro _
    obtain ⟨boundary, before, near, whole⟩ := Utf8.valid_near valid inside
    exact near.trans_le (Nat.add_le_add_right (stepBack_ge (before.trans inside) whole before) 4)
  · have cut : stepBack value limit ≠ value := fun all => long (all ▸ within)
    simp [cut]

theorem longest_text_kept (value : Text) (budget : Int) (valid : Utf8.valid value = true) :
    Longest value (max budget 1).toNat (boundString value budget.toNat) := by
  have limit : max budget.toNat 1 = (max budget 1).toNat := by omega
  exact limit ▸ boundString_longest value budget.toNat valid

theorem longest_text_kept_letter : Longest [0xc3, 0xa9] 1 (boundString [0xc3, 0xa9] 0) :=
  longest_text_kept [0xc3, 0xa9] 0 (by decide)

/-- A cut label is empty only if its first character does not fit. -/
theorem clip_ne_nil (shown : label ≠ []) (valid : Utf8.valid label = true) (positive : 0 < limit) :
    clip limit label ≠ [] ↔ FirstFits limit label := by
  have cut := boundString_longest label limit valid
  rw [max_eq_left (Nat.succ_le_of_lt positive)] at cut
  constructor
  · intro left
    refine ⟨(clip limit label).length, length_pos_iff.mpr left, cut.within, ?_⟩
    exact List.prefix_iff_eq_take.mp cut.begins ▸ cut.whole
  · rintro ⟨size, some_byte, within, whole⟩
    have longer := cut.longest _ (List.take_prefix size label) whole
      ((length_take_le _ _).trans within)
    rw [length_take] at longer
    have length := length_pos_iff.mpr shown
    exact length_pos_iff.mp (Nat.lt_of_lt_of_le (by omega) longer)

theorem bare_labels (questions : List UserInputQuestion) :
    (questions.map bareQuestion).flatMap (fun question => question.options.map (·.label)) =
      questions.flatMap fun question => question.options.map (·.label) := by
  simp [flatMap_map, bareQuestion, comp_def]

theorem boundPendingRequest_labels (sizes : Sizes) (pending : PendingRequest) (budget : Nat) :
    labelsOf (boundPendingRequest sizes pending budget).1 =
      if sizes.pending pending ≤ budget then labelsOf pending
      else (labelsOf pending).map (clip (max (budget / 16) 1)) := by
  unfold boundPendingRequest
  split
  · rfl
  cases pending with
  | approval request => rfl
  | userInput request =>
    have clipped : (request.questions.map (clipQuestion (max (budget / 16) 1))).flatMap
          (fun question => question.options.map (·.label)) =
        (labelsOf (.userInput request)).map (clip (max (budget / 16) 1)) := by
      simp [labelsOf, flatMap_map, map_flatMap, clipQuestion, comp_def]
    rw [← clipped]
    -- Dropping descriptions and shortening the reason leave the labels as they are.
    unfold boundUserInput
    dsimp only [labelsOf]
    split
    · rfl
    · split <;> exact bare_labels _

theorem minimizePendingPresentation_labels (pending : PendingRequest) :
    labelsOf (minimizePendingPresentation pending) = labelsOf pending := by
  cases pending with
  | approval request => rfl
  | userInput request => exact bare_labels request.questions

theorem minimizePendingPresentation_shown :
    Shown (minimizePendingPresentation pending) ↔ Shown pending := by
  unfold Shown
  rw [minimizePendingPresentation_labels]

theorem boundPendingRequest_whole (whole : Whole pending) :
    Whole (boundPendingRequest sizes pending budget).1 := by
  intro label member
  rw [boundPendingRequest_labels] at member
  split at member
  · exact whole label member
  obtain ⟨before, listed, rfl⟩ := mem_map.mp member
  obtain same | valid := Encoding.clip_valid (max (budget / 16) 1) before
  · exact same ▸ whole before listed
  · exact valid

/-- Clipping brings no label back. -/
theorem shown_of_boundPendingRequest
    (shown : Shown (boundPendingRequest sizes pending budget).1) : Shown pending := by
  intro label member empty
  subst empty
  refine shown [] ?_ rfl
  rw [boundPendingRequest_labels]
  split
  · exact member
  · exact mem_map.mpr ⟨[], member, by simp [clip, boundString]⟩

theorem boundPendingRequest_shown (shown : Shown pending) (whole : Whole pending) :
    Shown (boundPendingRequest sizes pending budget).1 ↔ Readable sizes budget pending := by
  unfold Shown Readable
  rw [boundPendingRequest_labels]
  split
  · next fits => exact iff_of_true shown (.inl fits)
  next long =>
  rw [or_iff_right long, List.forall_mem_map]
  refine forall₂_congr fun label member => ?_
  exact clip_ne_nil (shown label member) (whole label member) (by omega)

theorem boundEach_fst (bound : Value → Value × Option Completeness) (values : List Value)
    (complete : Option Completeness) :
    (boundEach bound values complete).1 = values.map fun value => (bound value).1 := by
  induction values generalizing complete with
  | nil => rfl
  | cons value rest ih => exact congrArg (_ :: ·) (ih _)

/-- A view that is too large, as the passes before the last one over its requests leave it. -/
def titledView (sizes : Sizes) (budget : Nat) (view : CurrentView) : CurrentView :=
  let marked :=
    { view with
      completeness := mergeCompleteness view.completeness
        (budgetCompleteness (sizes.view view)
          "current view collection exceeds C/S frame budget") }
  let items := boundTurnItems sizes budget (onCodex (addBudgetWarning · "current_view") marked)
  let pendings := boundPendings
    (fun pending => boundPendingRequest sizes pending (pendingShare budget items)) items
  whileOver sizes budget
    (onCodex fun codex => { codex with title := clip (max (budget / 8) 1) codex.title })
    (whileOver sizes budget (onCodex removeNonBudgetWarnings) pendings)

/-- A pass over other fields of the view leaves its requests. -/
theorem whileOver_pendings {pass : CurrentView → CurrentView}
    (kept : ∀ view, (pass view).pendingRequests = view.pendingRequests) (view : CurrentView) :
    (whileOver sizes budget pass view).pendingRequests = view.pendingRequests := by
  unfold whileOver
  split
  · rfl
  · exact kept view

theorem titledView_pendings (view : CurrentView) :
    (titledView sizes budget view).pendingRequests = view.pendingRequests.map fun pending =>
      (boundPendingRequest sizes pending (pendingShare budget view)).1 := by
  unfold titledView
  rw [whileOver_pendings, whileOver_pendings]
  · exact boundEach_fst ..
  · exact fun _ => rfl
  · exact fun _ => rfl

theorem boundCurrentView_pendings (long : ¬ sizes.view view ≤ collectionBudget configured) :
    (boundCurrentView sizes configured view).pendingRequests =
      (whileOver sizes (collectionBudget configured)
        (minimizeView sizes (collectionBudget configured) (sizes.view view))
        (titledView sizes (collectionBudget configured) view)).pendingRequests := by
  unfold boundCurrentView
  rw [if_neg long, whileOver_pendings, whileOver_pendings]
  · rfl
  · exact fun _ => rfl
  · exact fun _ => rfl

/-- What each pass that is made over the requests of a view leaves of the labels of one. -/
def ReadableIn (sizes : Sizes) (budget : Nat) (view : CurrentView) (pending : PendingRequest) :
    Prop :=
  let share := pendingShare budget view
  Readable sizes share pending ∧
    (¬ sizes.view (titledView sizes budget view) ≤ budget →
      Readable sizes (max (share / 2) 1) (boundPendingRequest sizes pending share).1)

/-- A label survives clipping exactly if its first character fits where it is cut: a sixteenth of
the request's budget, and in a view of the share, or half the share, that its requests have. -/
theorem labels_shown_iff (sizes : Sizes) :
    (∀ (pending : PendingRequest) (budget : Nat), Shown pending → Whole pending →
      (Shown (boundPendingRequest sizes pending budget).1 ↔ Readable sizes budget pending)) ∧
    ∀ (view : CurrentView) (configured : Int),
      (∀ pending ∈ view.pendingRequests, Shown pending ∧ Whole pending) →
      ((∀ pending ∈ (boundCurrentView sizes configured view).pendingRequests, Shown pending) ↔
        sizes.view view ≤ collectionBudget configured ∨
          ∀ pending ∈ view.pendingRequests,
            ReadableIn sizes (collectionBudget configured) view pending) := by
  refine ⟨fun pending budget => boundPendingRequest_shown, fun view configured labelled => ?_⟩
  by_cases fits : sizes.view view ≤ collectionBudget configured
  · simp only [boundCurrentView, fits, if_true, true_or, iff_true]
    exact fun pending member => (labelled pending member).1
  rw [or_iff_right fits, boundCurrentView_pendings fits]
  unfold whileOver
  split
  · next enough =>
    rw [titledView_pendings, List.forall_mem_map]
    refine forall₂_congr fun pending member => ?_
    obtain ⟨shown, whole⟩ := labelled pending member
    rw [boundPendingRequest_shown shown whole]
    exact (and_iff_left fun more => absurd enough more).symm
  · next more =>
    have share : pendingShare (collectionBudget configured)
        (titledView sizes (collectionBudget configured) view) =
        pendingShare (collectionBudget configured) view := by
      unfold pendingShare
      rw [titledView_pendings, length_map]
    unfold minimizeView boundPendings
    dsimp only
    rw [boundEach_fst, titledView_pendings, share, List.map_map, List.forall_mem_map]
    refine forall₂_congr fun pending member => ?_
    obtain ⟨shown, whole⟩ := labelled pending member
    dsimp only [comp_apply]
    dsimp only [ReadableIn]
    rw [minimizePendingPresentation_shown, forall_prop_of_true more,
      ← boundPendingRequest_shown shown whole]
    -- The second cut is of what the first one left, so it shows a label only if that did.
    constructor
    · intro twice
      have once := shown_of_boundPendingRequest twice
      exact ⟨once, (boundPendingRequest_shown once (boundPendingRequest_whole whole)).mp twice⟩
    · rintro ⟨once, readable⟩
      exact (boundPendingRequest_shown once (boundPendingRequest_whole whole)).mpr readable

/-- Requests of some 285 bytes, in a view of 8000. -/
def fullSizes : Sizes := { smallSizes with pending := fun _ => 285, view := fun _ => 8000 }

/-- A question with one option, whose label takes two bytes. -/
def accented : PendingRequest :=
  .userInput
    { userInputRequestId := "request", turnId := "turn", itemId := "item"
      questions :=
        [{ questionId := "question", header := [], prompt := [], allowsMultiple := false
           allowsFreeForm := false
           options := [{ optionId := "option", label := text "é", description := [] }] }]
      createdAtUnixMs := 0, resolved := false, resolvedAtUnixMs := 0, resolvedAnswers := []
      completeness := none }

def asking (count : Nat) : CurrentView := { pendingRequests := List.replicate count accented }

theorem labels_shown_iff_accented :
    Shown (boundPendingRequest fullSizes accented 32).1 ∧
      ∀ pending ∈ (boundCurrentView fullSizes 4096 (asking 1)).pendingRequests,
        Shown pending := by
  constructor
  · refine ((labels_shown_iff fullSizes).1 accented 32 (by decide +kernel) (by decide +kernel)).mpr
      (.inr fun label member => ?_)
    obtain rfl := mem_singleton.mp member
    exact ⟨2, by decide, by decide, by decide +kernel⟩
  · have share : pendingShare (collectionBudget 4096) (asking 1) = 6912 := by decide +kernel
    refine ((labels_shown_iff fullSizes).2 (asking 1) 4096 (by decide +kernel)).mpr
      (.inr fun pending _ => ⟨.inl ?_, fun _ => .inl ?_⟩)
    · exact share ▸ (by decide : 285 ≤ 6912)
    · exact share ▸ (by decide : 285 ≤ 3456)

/-- With 28 requests in a frame of 4096 bytes of content the share of each is one byte. -/
theorem labels_lost_crowded :
    (∀ pending ∈ (asking 28).pendingRequests, Shown pending ∧ Whole pending) ∧
    ¬ Shown (boundPendingRequest fullSizes accented 31).1 ∧
    ¬ ∀ pending ∈ (boundCurrentView fullSizes 4096 (asking 28)).pendingRequests,
      Shown pending := by
  decide +kernel

end CodexRemote.Labels
