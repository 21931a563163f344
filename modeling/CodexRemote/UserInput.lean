import CodexRemote.Clipping
import CodexRemote.Deltas
import CodexRemote.Translation

/-!
# Answers to questions

`RespondUserInput` of `internal/codex/manager.go` checks a client's answers against the questions
the adapter still has, unclipped, and hands the labels of the selected options on. A client has the
option ids from what it was shown. The lookup of the request and what follows the check are not
modelled here.
-/
namespace CodexRemote.UserInput

open Protocol Budget Clipping Translation Function List

/-- The options of a question under the ids that stand for them. -/
def optionIDs (question : Adapter.UserInputQuestion) : List (String × Text) :=
  question.options.mapIdx fun index option =>
    (canonicalOptionID index option.label, text option.label)

/-- The labels of the selected options: each is the first one whose id matches. -/
def selectedLabels (question : Adapter.UserInputQuestion) :
    List String → Except (ErrorCode × String) (List Text)
  | [] => .ok []
  | selected :: rest =>
      match (optionIDs question).find? (·.1 = selected) with
      | none => .error (.invalidRequest, "unknown option_id " ++ selected.quote)
      | some option => (selectedLabels question rest).map (option.2 :: ·)

def freeText (answer : UserInputAnswer) : List Text :=
  if answer.freeFormText = [] then [] else [answer.freeFormText]

/-- The loop of `RespondUserInput` over the answers; no texts stand for no entry. -/
def collectAnswers (questions : List Adapter.UserInputQuestion) :
    List UserInputAnswer → (String → List Text) → Except (ErrorCode × String) (String → List Text)
  | [], sent => .ok sent
  | answer :: rest, sent =>
      match questions.find? (·.id = answer.questionId) with
      | none => .error (.invalidRequest, "unknown question_id " ++ answer.questionId.quote)
      | some question =>
          match selectedLabels question answer.selectedOptionIds with
          | .error refusal => .error refusal
          | .ok labels =>
              collectAnswers questions rest (update sent answer.questionId
                (sent answer.questionId ++ labels ++ freeText answer))

/-- The labels of all options of a question under an id. -/
def labelsUnder (question : Adapter.UserInputQuestion) (id : String) : List Text :=
  ((optionIDs question).filter (·.1 = id)).map Prod.snd

/-- What an answer to the question says. -/
def said (question : Adapter.UserInputQuestion) (answer : UserInputAnswer) : List Text :=
  answer.selectedOptionIds.flatMap (labelsUnder question) ++ freeText answer

/-- The selected options are among those of the question. -/
def Known (question : Adapter.UserInputQuestion) (selected : List String) : Prop :=
  ∀ id ∈ selected, id ∈ (optionIDs question).map Prod.fst

/-- The question of the answer and the options it selects exist. -/
def Accepts (questions : List Adapter.UserInputQuestion) (answer : UserInputAnswer) : Prop :=
  ∃ question ∈ questions, question.id = answer.questionId ∧
    Known question answer.selectedOptionIds

/-- The ids a client can read off a request: of each question, and of its options. -/
def offered (pending : PendingRequest) : List (String × List String) :=
  match pendingFrame pending with
  | .approval .. => []
  | .userInput _ _ _ questions => questions.map fun frame => (frame.questionId, frame.optionIds)

/-- A request as a client may be shown it: clipped alone, or in a view that is clipped. -/
def Shows (sizes : Sizes) (pending shown : PendingRequest) : Prop :=
  (∃ budget, shown = (boundPendingRequest sizes pending budget).1) ∨
    ∃ (view : CurrentView) (configured : Int) (place : Nat),
      view.pendingRequests[place]? = some pending ∧
      (boundCurrentView sizes configured view).pendingRequests[place]? = some shown

variable {question : Adapter.UserInputQuestion} {questions : List Adapter.UserInputQuestion}
  {answer : UserInputAnswer} {answers : List UserInputAnswer} {sent result : String → List Text}

/-! ## Ids -/

/-- The digits of the number end at the next sign. -/
theorem canonicalOptionID_index {text : String}
    (same : canonicalOptionID one label = canonicalOptionID other text) : one = other := by
  have number : ∀ index label, ((canonicalOptionID index label).toList.drop 7).takeWhile
      Char.isDigit = Nat.toDigits 10 (index + 1) := by
    intro index label
    have start : "option-".toList = ['o', 'p', 't', 'i', 'o', 'n', '-'] := by decide
    have sign : "-".toList = ['-'] := by decide
    simp only [canonicalOptionID, String.toList_append, start, sign, Nat.toString_eq_repr,
      Nat.toList_repr, append_assoc, cons_append, nil_append, drop_succ_cons,
      drop_zero]
    rw [takeWhile_append_of_pos fun c member =>
      Nat.isDigit_of_mem_toDigits (by decide) (by decide) member]
    simp
  have digits := (number one label).symm.trans (same ▸ number other text)
  have read := congrArg (fun chars => Nat.ofDigitChars 10 chars 0) digits
  simpa only [Nat.ofDigitChars_ten_toDigits, Nat.add_right_cancel_iff] using read

/-- No two options of a question have one id. -/
theorem optionIDs_nodup (question : Adapter.UserInputQuestion) :
    ((optionIDs question).map Prod.fst).Nodup := by
  rw [List.Nodup, pairwise_iff_getElem]
  intro one other _ _ before same
  simp only [optionIDs, getElem_map, getElem_mapIdx] at same
  exact absurd (canonicalOptionID_index same) (Nat.ne_of_lt before)

/-- Where keys are distinct, the first entry under a key is the only one. -/
theorem filter_key {Entry : Type} {key : Entry → String} {entries : List Entry}
    (distinct : (entries.map key).Nodup) (id : String) :
    entries.filter (key · = id) = (entries.find? (key · = id)).toList := by
  induction entries with
  | nil => rfl
  | cons entry rest ih =>
    obtain ⟨fresh, later⟩ := nodup_cons.mp distinct
    by_cases here : key entry = id
    · have others : rest.filter (key · = id) = [] := by
        rw [filter_eq_nil_iff]
        intro other listed
        have apart : key other ≠ key entry := by
          intro same
          exact fresh (same ▸ mem_map.mpr ⟨other, listed, rfl⟩)
        simpa [← here] using apart
      simp [here, others]
    · simpa [here] using ih later

/-! ## The loop -/

theorem selectedLabels_known (known : Known question selected) :
    selectedLabels question selected = .ok (selected.flatMap (labelsUnder question)) := by
  induction selected with
  | nil => rfl
  | cons id rest ih =>
    obtain ⟨here, later⟩ := forall_mem_cons.mp known
    have under := congrArg (map Prod.snd) (filter_key (optionIDs_nodup question) id)
    obtain ⟨option, found⟩ : ∃ option, (optionIDs question).find? (·.1 = id) = some option := by
      simpa [← Option.isSome_iff_exists] using here
    rw [flatMap_cons, labelsUnder, under]
    simp [selectedLabels, found, ih later, Except.map]

theorem known_of_selectedLabels (found : selectedLabels question selected = .ok labels) :
    Known question selected := by
  induction selected generalizing labels with
  | nil => exact forall_mem_nil _
  | cons id rest ih =>
    unfold selectedLabels at found
    split at found
    · cases found
    next option listed =>
    cases later : selectedLabels question rest with
    | error refusal => simp [later, Except.map] at found
    | ok given =>
      refine forall_mem_cons.mpr ⟨?_, ih later⟩
      exact mem_map.mpr ⟨option, mem_of_find?_eq_some listed, by
        simpa using find?_some listed⟩

section

variable (distinct : (questions.map (·.id)).Nodup)
include distinct

theorem find_question (listed : question ∈ questions) :
    questions.find? (·.id = question.id) = some question := by
  have member : question ∈ questions.filter (·.id = question.id) := by simp [listed]
  rw [filter_key distinct] at member
  exact Option.mem_toList.mp member

theorem collectAnswers_accepted (accepted : ∀ answer ∈ answers, Accepts questions answer) :
    collectAnswers questions answers sent = .ok fun id =>
      sent id ++ (answers.filter (·.questionId = id)).flatMap fun answer =>
        (questions.filter (·.id = id)).flatMap (said · answer) := by
  induction answers generalizing sent with
  | nil => simp [collectAnswers]
  | cons answer rest ih =>
    obtain ⟨⟨question, listed, named, known⟩, later⟩ := forall_mem_cons.mp accepted
    have found := named ▸ find_question distinct listed
    simp only [collectAnswers, found, selectedLabels_known known, ih later]
    congr 1
    funext id
    by_cases here : answer.questionId = id
    · subst here
      simp [filter_key distinct, found, said]
    · simp [here, Ne.symm here]

end

theorem accepted_of_collectAnswers
    (collected : collectAnswers questions answers sent = .ok result) :
    ∀ answer ∈ answers, Accepts questions answer := by
  induction answers generalizing sent with
  | nil => exact forall_mem_nil _
  | cons answer rest ih =>
    unfold collectAnswers at collected
    split at collected
    · cases collected
    next question listed =>
    split at collected
    · cases collected
    next labels found =>
    exact forall_mem_cons.mpr ⟨⟨question, mem_of_find?_eq_some listed,
      by simpa using find?_some listed, known_of_selectedLabels found⟩, ih collected⟩

/-! ## What a client was shown -/

theorem Shows.offered (shows : Shows sizes pending shown) :
    offered shown = UserInput.offered pending := by
  have same : pendingFrame shown = pendingFrame pending := by
    rcases shows with ⟨budget, rfl⟩ | ⟨view, configured, place, here, there⟩
    · exact boundPendingRequest_frame sizes pending budget
    · have frames := congrArg ViewFrame.pendingRequests
        (boundCurrentView_frame sizes configured view)
      simpa [viewFrame, here, there] using congrArg (·[place]?) frames
  rw [UserInput.offered, same]
  rfl

/-- Answers pass exactly if they are to questions and options the client was shown, however
clipped. Then each question gets what its answers say, in the order given, where an option id
stands for one label. -/
theorem answers_sent (library : Library) (sizes : Sizes) (request : Adapter.PendingRequest)
    (now : Int) (shown : PendingRequest) (answers : List UserInputAnswer)
    (asks : contains request.method "requestUserInput" = true)
    (distinct : (request.questions.map (·.id)).Nodup)
    (shows : Shows sizes (pendingFromAdapter library request now) shown) :
    ((∃ sent, collectAnswers request.questions answers (fun _ => []) = .ok sent) ↔
      ∀ answer ∈ answers, ∃ ids, (answer.questionId, ids) ∈ offered shown ∧
        ∀ id ∈ answer.selectedOptionIds, id ∈ ids) ∧
    (∀ sent, collectAnswers request.questions answers (fun _ => []) = .ok sent →
      ∀ question ∈ request.questions,
        sent question.id = (answers.filter (·.questionId = question.id)).flatMap (said question)) ∧
    ∀ question ∈ request.questions, ((optionIDs question).map Prod.fst).Nodup := by
  have ids : offered shown = request.questions.map fun question =>
      (question.id, (optionIDs question).map Prod.fst) := by
    rw [shows.offered]
    simp only [offered, pendingFromAdapter, asks, if_true, pendingFrame, map_map]
    refine map_congr_left fun question _ => Prod.ext rfl (ext_getElem ?_ ?_) <;>
      simp [questionFrame, canonicalQuestion, optionIDs]
  have accepts : ∀ answer, (∃ ids, (answer.questionId, ids) ∈ offered shown ∧
      ∀ id ∈ answer.selectedOptionIds, id ∈ ids) ↔ Accepts request.questions answer := by
    intro answer
    rw [ids]
    constructor
    · rintro ⟨_, member, known⟩
      obtain ⟨question, listed, is⟩ := mem_map.mp member
      obtain ⟨named, rfl⟩ := Prod.mk.inj is
      exact ⟨question, listed, named, known⟩
    · rintro ⟨question, listed, named, known⟩
      exact ⟨_, mem_map.mpr ⟨question, listed, named ▸ rfl⟩, known⟩
  refine ⟨?_, ?_, fun question _ => optionIDs_nodup question⟩
  · simp only [accepts]
    constructor
    · rintro ⟨sent, collected⟩
      exact accepted_of_collectAnswers collected
    · exact fun accepted => ⟨_, collectAnswers_accepted distinct accepted⟩
  · intro sent collected question listed
    have accepted := accepted_of_collectAnswers collected
    rw [collectAnswers_accepted distinct accepted] at collected
    cases collected
    have only : request.questions.filter (·.id = question.id) = [question] := by
      rw [filter_key distinct, find_question distinct listed]
      rfl
    simp [only]

/-- A question with two options of one label. -/
def twinOptions : Adapter.UserInputQuestion :=
  { id := "q", header := "", question := "", allowsMultiple := true, isOther := true
    options := [⟨"yes", ""⟩, ⟨"yes", ""⟩] }

def twinRequest : Adapter.PendingRequest :=
  { id := "r", method := "requestUserInput", turnID := "", itemID := ""
    params := { raw := [], value := none }, questions := [twinOptions] }

def twinAnswer : UserInputAnswer :=
  { questionId := "q", selectedOptionIds := ["option-2-eWVz", "option-1-eWVz"]
    freeFormText := text "no" }

/-- Requests of two bytes, which do not fit into one. -/
def wideSizes : Sizes := { Deltas.smallSizes with pending := fun _ => 2 }

/-- Both options are selected, from a request whose labels are clipped to one byte. -/
theorem answers_sent_twins : ∃ sent,
    (boundPendingRequest wideSizes (pendingFromAdapter sampleLibrary twinRequest 0) 1).1 ≠
      pendingFromAdapter sampleLibrary twinRequest 0 ∧
    collectAnswers [twinOptions] [twinAnswer] (fun _ => []) = .ok sent ∧
      sent "q" = [text "yes", text "yes", text "no"] := by
  have result := answers_sent sampleLibrary wideSizes twinRequest 0 _ [twinAnswer]
    (by decide +kernel) (by decide) (.inl ⟨1, rfl⟩)
  obtain ⟨sent, collected⟩ := result.1.mpr (by
    intro answer listed
    obtain rfl := mem_singleton.mp listed
    exact ⟨["option-1-eWVz", "option-2-eWVz"], by decide +kernel, by decide⟩)
  refine ⟨sent, by decide +kernel, collected, (result.2.1 sent collected twinOptions ?_).trans (by decide +kernel)⟩
  simp [twinRequest]

end CodexRemote.UserInput
