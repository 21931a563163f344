import CodexRemote.Library.Runs
import CodexRemote.Protocol
import Mathlib.Logic.Function.Basic

/-!
# Answers to requests of the app-server

`RespondApproval`, `RespondUserInput`, `takePending` and `restorePending` of
`internal/adapter/adapter.go`, and `Respond` of `client.go`. An attempt takes the request out of
the table, checks that the answer is of its kind, writes without the lock, and puts the request
back if anything fails.

At any moment a request is in one place: in the table, with one attempt, or answered. `consume`
enters what the app-server asks; that no two requests have one id is the assumption under which
runs are considered.
-/
namespace CodexRemote.Answers

open Protocol List Option

variable {attempt other : Nat} {message : String}

/-- A request as it waits in the table. `permissions` is what decoding its parameters gives. -/
structure PendingRequest where
  id : String
  method : String
  rpcID : String
  permissions : Except String Text

/-- What a client of the Host answers. -/
inductive Answer where
  | approval (decision : String)
  | userInput (answers : List (String × List String))
  deriving DecidableEq

/-- The result that is sent. No permissions are an empty object. -/
inductive Payload where
  | permissions (granted : Option Text) (scope : String)
  | decision (decision : String)
  | answers (answers : List (String × List String))
  deriving DecidableEq

/-- Where an attempt is: before it takes the request, holding it unchecked, about to write, about
to put it back, returned. -/
inductive Attempt where
  | asked (id : String) (answer : Answer)
  | holding (request : PendingRequest) (answer : Answer)
  | writing (request : PendingRequest) (payload : Payload)
  | restoring (request : PendingRequest) (message : String)
  | succeeded
  | failed (message : String)

structure Adapter where
  pending : String → Option PendingRequest := fun _ => none
  attempts : Nat → Option Attempt := fun _ => none
  /-- The ids of the requests that were answered, with the results. -/
  sent : List (String × Payload) := []
  /-- The ids of all requests so far. -/
  announced : List String := []

/-- The request that an attempt has taken. -/
def Attempt.request : Attempt → Option PendingRequest
  | .holding request _ | .writing request _ | .restoring request _ => some request
  | .asked _ _ | .succeeded | .failed _ => none

/-- The checks of `RespondApproval` and `RespondUserInput` after the request was taken. -/
def prepare (request : PendingRequest) : Answer → Except String Payload
  | .approval decision =>
      if request.method = "item/permissions/requestApproval" then
        request.permissions.map fun granted =>
          .permissions
            (if decision = "accept" ∨ decision = "acceptForSession" then some granted else none)
            (if decision = "acceptForSession" then "session" else "turn")
      else if request.method ≠ "item/commandExecution/requestApproval" ∧
          request.method ≠ "item/fileChange/requestApproval" then
        .error ("pending request " ++ request.id.quote ++ " is not a supported approval")
      else .ok (.decision decision)
  | .userInput answers =>
      if request.method ≠ "item/tool/requestUserInput" then
        .error ("pending request " ++ request.id.quote ++ " is not user input")
      else .ok (.answers answers)

/-- The check of `RespondApproval` before the request is taken. -/
def refused : Answer → Option String
  | .approval decision =>
      if decision ∈ ["accept", "acceptForSession", "decline", "cancel"] then none
      else some ("unsupported approval decision " ++ decision.quote)
  | .userInput _ => none

/-- The error for a request that is not in the table. -/
def notPending : Answer → String
  | .approval _ => "approval request not pending"
  | .userInput _ => "user input request not pending"

def Adapter.at (adapter : Adapter) (attempt : Nat) (stage : Attempt) : Adapter :=
  { adapter with attempts := Function.update adapter.attempts attempt (some stage) }

def Adapter.put (adapter : Adapter) (id : String) (request : Option PendingRequest) : Adapter :=
  { adapter with pending := Function.update adapter.pending id request }

inductive Label where
  | announce (request : PendingRequest)
  | answer (attempt : Nat) (id : String) (answer : Answer)
  | take (attempt : Nat)
  | prepare (attempt : Nat)
  | write (attempt : Nat) (failure : Option String)
  | restore (attempt : Nat)

def step (adapter : Adapter) : Label → Option Adapter
  | .announce request =>
      some { adapter.put request.id (some request) with
             announced := adapter.announced ++ [request.id] }
  | .answer attempt id answer =>
      match adapter.attempts attempt, refused answer with
      | none, some message => some (adapter.at attempt (.failed message))
      | none, none => some (adapter.at attempt (.asked id answer))
      | some _, _ => none
  | .take attempt =>
      match adapter.attempts attempt with
      | some (.asked id answer) =>
          match adapter.pending id with
          | none => some (adapter.at attempt (.failed (notPending answer)))
          | some request => some ((adapter.put id none).at attempt (.holding request answer))
      | _ => none
  | .prepare attempt =>
      match adapter.attempts attempt with
      | some (.holding request answer) =>
          match prepare request answer with
          | .error message => some (adapter.at attempt (.restoring request message))
          | .ok payload => some (adapter.at attempt (.writing request payload))
      | _ => none
  | .write attempt failure =>
      match adapter.attempts attempt, failure with
      | some (.writing request payload), none =>
          if request.rpcID = "" then
            some (adapter.at attempt (.restoring request "missing server request id"))
          else
            some { adapter.at attempt .succeeded with
                   sent := adapter.sent ++ [(request.id, payload)] }
      | some (.writing request _), some message =>
          some (adapter.at attempt (.restoring request message))
      | _, _ => none
  | .restore attempt =>
      match adapter.attempts attempt with
      | some (.restoring request message) =>
          some ((adapter.put request.id (some request)).at attempt (.failed message))
      | _ => none

/-- No request is announced under an id that was used before. -/
def Distinct (adapter : Adapter) : Label → Prop
  | .announce request => request.id ∉ adapter.announced
  | _ => True

/-- An attempt has taken the request. -/
def Adapter.Holds (adapter : Adapter) (attempt : Nat) (request : PendingRequest) : Prop :=
  (adapter.attempts attempt).bind Attempt.request = some request

/-- The ids of the answered requests. -/
def Adapter.answered (adapter : Adapter) : List String := adapter.sent.map Prod.fst

/-- A request is in one place only. -/
structure Sound (adapter : Adapter) : Prop where
  keyed : ∀ id request, adapter.pending id = some request → request.id = id
  /-- What is in the table was announced and not answered. -/
  waiting : ∀ id, adapter.pending id ≠ none → id ∈ adapter.announced ∧ id ∉ adapter.answered
  /-- What an attempt holds was announced, is not in the table and not answered. -/
  held : ∀ attempt request, adapter.Holds attempt request →
    request.id ∈ adapter.announced ∧ adapter.pending request.id = none ∧
      request.id ∉ adapter.answered
  alone : ∀ one other first second, adapter.Holds one first → adapter.Holds other second →
    first.id = second.id → one = other
  known : ∀ id ∈ adapter.answered, id ∈ adapter.announced
  once : adapter.answered.Nodup

/-! ## One step -/

variable {stage : Attempt} {request : PendingRequest} {adapter : Adapter}

@[simp] theorem at_pending (attempt : Nat) (stage : Attempt) :
    (adapter.at attempt stage).pending = adapter.pending := rfl

@[simp] theorem put_pending (id : String) (request : Option PendingRequest) :
    (adapter.put id request).pending = Function.update adapter.pending id request := rfl

theorem holds_at_self :
    (adapter.at attempt stage).Holds attempt request ↔ stage.request = some request := by
  simp [Adapter.Holds, Adapter.at]

theorem holds_at_other (different : other ≠ attempt) :
    (adapter.at attempt stage).Holds other request ↔ adapter.Holds other request := by
  simp [Adapter.Holds, Adapter.at, different]

section

variable (sound : Sound adapter)
include sound

/-- An attempt goes on with what it held, or comes to hold nothing. -/
theorem Sound.at (kept : ∀ request, stage.request = some request → adapter.Holds attempt request) :
    Sound (adapter.at attempt stage) := by
  have before : ∀ other request, (adapter.at attempt stage).Holds other request →
      adapter.Holds other request := by
    intro other request holds
    by_cases same : other = attempt
    · subst same
      exact kept request (holds_at_self.mp holds)
    · exact (holds_at_other same).mp holds
  exact
    { sound with
      held := fun other request holds => sound.held other request (before other request holds)
      alone := fun one other first second left right =>
        sound.alone one other first second (before one first left) (before other second right) }

/-- A new request enters the table. -/
theorem Sound.announce (new : request.id ∉ adapter.announced) :
    Sound { adapter.put request.id (some request) with
            announced := adapter.announced ++ [request.id] } where
  keyed := by
    intro id other found
    by_cases same : id = request.id
    · subst same
      have here : request = other := by simpa using found
      rw [here]
    · exact sound.keyed id other (by simpa [same] using found)
  waiting := by
    intro id found
    by_cases same : id = request.id
    · subst same
      refine ⟨by simp, ?_⟩
      intro answered
      exact new (sound.known request.id answered)
    · obtain ⟨announced, open_⟩ := sound.waiting id (by simpa [same] using found)
      exact ⟨mem_append_left _ announced, open_⟩
  held := by
    intro attempt other holds
    obtain ⟨announced, out, open_⟩ := sound.held attempt other holds
    have different : other.id ≠ request.id := fun same => new (same ▸ announced)
    exact ⟨mem_append_left _ announced, by simpa [different] using out, open_⟩
  alone := sound.alone
  known := fun id answered => mem_append_left _ (sound.known id answered)
  once := sound.once

/-- A request goes from the table to an attempt. -/
theorem Sound.take {id : String} {answer : Answer}
    (asked : adapter.attempts attempt = some (.asked id answer))
    (found : adapter.pending id = some request) :
    Sound ((adapter.put id none).at attempt (.holding request answer)) := by
  have key : request.id = id := sound.keyed id request found
  obtain ⟨announced, unanswered⟩ := sound.waiting id (by simp [found])
  have others : ∀ other second, adapter.Holds other second → second.id ≠ id := by
    intro other second holds same
    have out := (sound.held other second holds).2.1
    rw [same, found] at out
    cases out
  constructor
  · intro other second listed
    by_cases same : other = id
    · simp [same] at listed
    · exact sound.keyed other second (by simpa [same] using listed)
  · intro other listed
    by_cases same : other = id
    · simp [same] at listed
    · exact sound.waiting other (by simpa [same] using listed)
  · intro other second holds
    by_cases same : other = attempt
    · subst same
      have here : request = second := some.inj (holds_at_self.mp holds)
      subst here
      rw [key]
      exact ⟨announced, by simp, unanswered⟩
    · have before := (holds_at_other same).mp holds
      obtain ⟨known, out, open_⟩ := sound.held other second before
      exact ⟨known, by simpa [others other second before] using out, open_⟩
  · intro one other first second left right ids
    by_cases here : one = attempt
    · by_cases there : other = attempt
      · rw [here, there]
      subst here
      have mine : request = first := some.inj (holds_at_self.mp left)
      subst mine
      exact absurd (ids.symm.trans key) (others other second ((holds_at_other there).mp right))
    · by_cases there : other = attempt
      · subst there
        have theirs : request = second := some.inj (holds_at_self.mp right)
        subst theirs
        exact absurd (ids.trans key) (others one first ((holds_at_other here).mp left))
      · exact sound.alone one other first second ((holds_at_other here).mp left)
          ((holds_at_other there).mp right) ids
  · exact sound.known
  · exact sound.once

/-- A request goes from its attempt back to the table. -/
theorem Sound.restore (restoring : adapter.attempts attempt = some (.restoring request message)) :
    Sound ((adapter.put request.id (some request)).at attempt (.failed message)) := by
  have holds : adapter.Holds attempt request := by simp [Adapter.Holds, restoring, Attempt.request]
  obtain ⟨announced, -, unanswered⟩ := sound.held attempt request holds
  have before : ∀ other second,
      ((adapter.put request.id (some request)).at attempt (.failed message)).Holds other second →
        other ≠ attempt ∧ adapter.Holds other second := by
    intro other second held
    have different : other ≠ attempt := by
      rintro rfl
      cases holds_at_self.mp held
    exact ⟨different, (holds_at_other different).mp held⟩
  constructor
  · intro id second found
    by_cases same : id = request.id
    · subst same
      have here : request = second := by simpa using found
      rw [here]
    · exact sound.keyed id second (by simpa [same] using found)
  · intro id found
    by_cases same : id = request.id
    · rw [same]
      exact ⟨announced, unanswered⟩
    · exact sound.waiting id (by simpa [same] using found)
  · intro other second held
    obtain ⟨different, held⟩ := before other second held
    obtain ⟨known, out, open_⟩ := sound.held other second held
    have elsewhere : second.id ≠ request.id :=
      fun same => different (sound.alone other attempt second request held holds same)
    exact ⟨known, by simpa [elsewhere] using out, open_⟩
  · intro one other first second left right
    exact sound.alone one other first second (before one first left).2 (before other second right).2
  · exact sound.known
  · exact sound.once

/-- A request is answered. -/
theorem Sound.sent (writing : adapter.attempts attempt = some (.writing request payload)) :
    Sound { adapter.at attempt .succeeded with
            sent := adapter.sent ++ [(request.id, payload)] } := by
  have holds : adapter.Holds attempt request := by simp [Adapter.Holds, writing, Attempt.request]
  obtain ⟨announced, out, unanswered⟩ := sound.held attempt request holds
  have answered : ∀ id, id ∈ Adapter.answered { adapter.at attempt .succeeded with
      sent := adapter.sent ++ [(request.id, payload)] } ↔
        id ∈ adapter.answered ∨ id = request.id := by
    intro id
    simp [Adapter.answered]
  have before : ∀ other second, Adapter.Holds { adapter.at attempt .succeeded with
      sent := adapter.sent ++ [(request.id, payload)] } other second →
        other ≠ attempt ∧ adapter.Holds other second := by
    intro other second held
    have held : (adapter.at attempt .succeeded).Holds other second := held
    have different : other ≠ attempt := by
      rintro rfl
      cases holds_at_self.mp held
    exact ⟨different, (holds_at_other different).mp held⟩
  constructor
  · exact sound.keyed
  · intro id found
    obtain ⟨known, open_⟩ := sound.waiting id found
    refine ⟨known, ?_⟩
    rw [answered]
    rintro (earlier | same)
    · exact open_ earlier
    · exact found (same ▸ out)
  · intro other second held
    obtain ⟨different, held⟩ := before other second held
    obtain ⟨known, out, open_⟩ := sound.held other second held
    refine ⟨known, out, ?_⟩
    rw [answered]
    rintro (earlier | same)
    · exact open_ earlier
    · exact different (sound.alone other attempt second request held holds same)
  · intro one other first second left right
    exact sound.alone one other first second (before one first left).2 (before other second right).2
  · intro id member
    rcases (answered id).mp member with earlier | same
    · exact sound.known id earlier
    · rw [same]
      exact announced
  · simp only [Adapter.answered, map_append, map_cons, map_nil]
    rw [nodup_append]
    refine ⟨sound.once, by simp, ?_⟩
    intro id earlier other last
    rw [mem_singleton] at last
    subst last
    rintro rfl
    exact unanswered earlier

end

/-- An attempt goes on with the request it has. -/
theorem Sound.goes (sound : Sound adapter) (here : adapter.attempts attempt = some before)
    (same : ∀ request, stage.request = some request → before.request = some request) :
    Sound (adapter.at attempt stage) :=
  sound.at fun request held => by simpa [Adapter.Holds, here] using same request held

/-- Every step keeps the invariant. -/
theorem step_sound {next : Adapter} (sound : Sound adapter) (label : Label)
    (distinct : Distinct adapter label) (taken : step adapter label = some next) : Sound next := by
  cases label with
  | announce request =>
    cases taken
    exact sound.announce distinct
  | answer attempt id answer =>
    simp only [step] at taken
    split at taken <;> cases taken <;> exact sound.at (fun _ held => by cases held)
  | take attempt =>
    simp only [step] at taken
    split at taken
    · rename_i id answer asked
      split at taken <;> cases taken
      · exact sound.at (fun _ held => by cases held)
      · rename_i request found
        exact sound.take asked found
    · cases taken
  | prepare attempt =>
    simp only [step] at taken
    split at taken
    · rename_i holding
      split at taken <;> cases taken <;> exact sound.goes holding fun _ => id
    · cases taken
  | write attempt failure =>
    simp only [step] at taken
    split at taken
    · rename_i writing
      split at taken <;> cases taken
      · exact sound.goes writing fun _ => id
      · exact sound.sent writing
    · rename_i writing
      cases taken
      exact sound.goes writing fun _ => id
    · cases taken
  | restore attempt =>
    simp only [step] at taken
    split at taken <;> cases taken
    rename_i request message restoring
    exact sound.restore restoring

/-! ## Every run -/

/-- Where an attempt has failed after a step, either the step made it fail or it had failed
before. -/
theorem failed_at (failed : (adapter.at other stage).attempts attempt = some (.failed message)) :
    attempt = other ∧ stage = .failed message ∨
      adapter.attempts attempt = some (.failed message) := by
  by_cases same : attempt = other
  · subst same
    exact .inl ⟨rfl, by simpa [Adapter.at] using failed⟩
  · exact .inr (by simpa [Adapter.at, same] using failed)

/-- A step that does not make an attempt fail leaves it unfailed. -/
theorem not_failed_at (sane : adapter.attempts attempt ≠ some (.failed message))
    (healthy : stage ≠ .failed message) :
    (adapter.at other stage).attempts attempt ≠ some (.failed message) := by
  intro failed
  rcases failed_at failed with ⟨-, same⟩ | already
  · exact healthy same
  · exact sane already

/-- An attempt that holds a request and fails has put it back. -/
theorem step_restores {next : Adapter} (holds : adapter.Holds attempt request)
    (taken : step adapter label = some next)
    (failed : next.attempts attempt = some (.failed message)) :
    next.pending request.id = some request := by
  have sane : adapter.attempts attempt ≠ some (.failed message) := by
    intro already
    simp [Adapter.Holds, already, Attempt.request] at holds
  cases label with
  | announce request =>
    cases taken
    exact absurd failed sane
  | answer other id answer =>
    simp only [step] at taken
    split at taken <;> cases taken
    · rename_i unused _
      rcases failed_at failed with ⟨rfl, -⟩ | already
      · simp [Adapter.Holds, unused] at holds
      · exact absurd already sane
    · exact absurd failed (not_failed_at sane (by simp))
  | take other =>
    simp only [step] at taken
    split at taken
    · rename_i id answer asked
      split at taken <;> cases taken
      · rcases failed_at failed with ⟨rfl, -⟩ | already
        · simp [Adapter.Holds, asked, Attempt.request] at holds
        · exact absurd already sane
      · exact absurd failed (not_failed_at sane (by simp))
    · cases taken
  | prepare other =>
    simp only [step] at taken
    split at taken
    · split at taken <;> cases taken <;> exact absurd failed (not_failed_at sane (by simp))
    · cases taken
  | write other failure =>
    simp only [step] at taken
    split at taken
    · split at taken <;> cases taken <;> exact absurd failed (not_failed_at sane (by simp))
    · cases taken
      exact absurd failed (not_failed_at sane (by simp))
    · cases taken
  | restore other =>
    simp only [step] at taken
    split at taken <;> cases taken
    rename_i mine text restoring
    rcases failed_at failed with ⟨rfl, -⟩ | already
    · have same : mine = request := by
        simpa [Adapter.Holds, restoring, Attempt.request] using holds
      rw [← same]
      simp [Adapter.at, Adapter.put]
    · exact absurd already sane

/-- What is guaranteed for every request. -/
structure Exact (adapter : Adapter) : Prop where
  /-- No request is answered twice. -/
  once : adapter.answered.Nodup
  /-- An attempt that fails after taking a request leaves it pending. -/
  restored : ∀ label next attempt request message, adapter.Holds attempt request →
    step adapter label = some next → next.attempts attempt = some (.failed message) →
    next.pending request.id = some request
  /-- Nobody has or finds a request that was answered, so nobody sends anything for it. -/
  silent : ∀ id ∈ adapter.answered, adapter.pending id = none ∧
    ∀ attempt request, adapter.Holds attempt request → request.id ≠ id

theorem Sound.exact (sound : Sound adapter) : Exact adapter where
  once := sound.once
  restored := fun label _ _ _ _ holds taken failed => step_restores holds taken failed
  silent := by
    intro id answered
    constructor
    · by_contra found
      exact (sound.waiting id found).2 answered
    · intro attempt request holds same
      exact (sound.held attempt request holds).2.2 (same ▸ answered)

theorem start_sound : Sound {} where
  keyed := fun _ _ found => by cases found
  waiting := fun _ found => absurd rfl found
  held := fun _ _ holds => by cases holds
  alone := fun _ _ _ _ holds => by cases holds
  known := fun _ member => absurd member not_mem_nil
  once := nodup_nil

/-- In every run of announcements and answers in which no id is announced twice, whatever the
answers are and whichever writes fail: a request is answered at most once, an attempt that fails
after taking it leaves it pending, and after it is answered no attempt has it. -/
theorem requests_answered_once (labels : List Label) (adapter : Adapter)
    (distinct : Runs.Meets step Distinct {} labels)
    (ran : Runs.run step {} labels = some adapter) : Exact adapter :=
  (Runs.run_invariant Sound
    (fun _ label _ sound distinct taken => step_sound sound label distinct taken) start_sound
    distinct ran).exact

instance (adapter : Adapter) (label : Label) : Decidable (Distinct adapter label) :=
  match label with
  | .announce request => inferInstanceAs (Decidable (request.id ∉ adapter.announced))
  | .answer _ _ _ | .take _ | .prepare _ | .write _ _ | .restore _ =>
      inferInstanceAs (Decidable True)

/-- One request, answered in the wrong way, with a broken write, and well. Two attempts start
before the first is done. -/
def contested : List Label :=
  [.announce { id := "r", method := "item/fileChange/requestApproval", rpcID := "7"
               permissions := .error "unexpected end of JSON input" },
    .answer 1 "r" (.userInput []), .answer 2 "r" (.approval "accept"), .take 1, .prepare 1,
    .restore 1, .take 2, .prepare 2, .write 2 (some "broken pipe"), .restore 2,
    .answer 3 "r" (.approval "decline"), .answer 4 "r" (.approval "accept"), .take 3, .take 4,
    .prepare 3, .write 3 none]

theorem requests_answered_once_contested : ∃ adapter,
    Runs.run step {} contested = some adapter ∧ Exact adapter ∧
      adapter.sent = [("r", .decision "decline")] := by
  have ran : (Runs.run step {} contested).map Adapter.sent =
      some [("r", .decision "decline")] := by
    decide +kernel
  obtain ⟨adapter, reached, sent⟩ := map_eq_some_iff.mp ran
  exact ⟨adapter, reached,
    requests_answered_once contested adapter (by decide +kernel) reached, sent⟩

end CodexRemote.Answers
