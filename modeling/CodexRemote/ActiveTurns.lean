import CodexRemote.Library.Runs
import Mathlib.Logic.Function.Basic

/-!
# The turns the adapter takes for active

The adapter records one active turn for each thread. The response to `turn/start` and the
notification `turn/started` record a turn; `turn/completed` removes what is recorded for its thread.
The response goes to the goroutine of the `StartTurn` call and the notifications go to `consume`, so
nothing orders the one after the other. Each of them changes the record in one locked section.
-/
namespace CodexRemote.ActiveTurns

open Function

inductive Notice where
  | responded
  | started
  | completed
  deriving DecidableEq

/-- A section of the adapter, for a turn of a thread. -/
structure Label where
  notice : Notice
  threadID : String
  turnID : String
  deriving DecidableEq

/-- The record, the sections so far, and of each completion its turn and the one it removed. -/
structure Adapter where
  active : String → Option String := fun _ => none
  processed : List Label := []
  cleared : List (String × String) := []

variable (adapter : Adapter)

def Adapter.markActive (threadID turnID : String) : Adapter :=
  { adapter with active := update adapter.active threadID (some turnID) }

def step (label : Label) : Option Adapter :=
  let seen := { adapter with processed := label :: adapter.processed }
  match label.notice with
  | .responded | .started => some (seen.markActive label.threadID label.turnID)
  | .completed =>
      some { seen with
        active := update adapter.active label.threadID none
        cleared := (adapter.active label.threadID).toList.map (label.turnID, ·) ++ adapter.cleared }

/-- Some section has recorded the turn. -/
def Adapter.Begun (threadID turnID : String) : Prop :=
  ⟨.responded, threadID, turnID⟩ ∈ adapter.processed ∨
    ⟨.started, threadID, turnID⟩ ∈ adapter.processed

def Adapter.Ended (threadID turnID : String) : Prop :=
  ⟨.completed, threadID, turnID⟩ ∈ adapter.processed

/-- A turn is recorded before it completes, while no other turn of its thread is; it completes once
and after it was recorded. -/
def Sequential (label : Label) : Prop :=
  ¬ adapter.Ended label.threadID label.turnID ∧
    if label.notice = .completed then adapter.Begun label.threadID label.turnID
    else (adapter.active label.threadID).all (· = label.turnID) = true

instance (label : Label) : Decidable (Sequential adapter label) := by
  unfold Sequential Adapter.Ended Adapter.Begun
  infer_instance

/-- A turn of which everything was processed is not recorded, and no completion removed a turn other
than its own. -/
structure Tracked : Prop where
  gone : ∀ threadID turnID, (∀ notice, ⟨notice, threadID, turnID⟩ ∈ adapter.processed) →
    adapter.active threadID ≠ some turnID
  own : ∀ pair ∈ adapter.cleared, pair.2 = pair.1

/-- The turns under way are recorded, and no others. -/
structure Sound : Prop where
  exact : ∀ threadID turnID, adapter.active threadID = some turnID ↔
    adapter.Begun threadID turnID ∧ ¬ adapter.Ended threadID turnID
  own : ∀ pair ∈ adapter.cleared, pair.2 = pair.1

theorem Sound.tracked {adapter : Adapter} (sound : Sound adapter) : Tracked adapter where
  gone := fun threadID turnID all recorded => ((sound.exact threadID turnID).mp recorded).2 (all _)
  own := sound.own

theorem step_sound (label : Label) (next : Adapter) (sound : Sound adapter)
    (sequential : Sequential adapter label) (stepped : step adapter label = some next) :
    Sound next := by
  obtain ⟨notice, threadID, turnID⟩ := label
  obtain ⟨running, orderly⟩ := sequential
  -- Whoever is recorded for the thread is the turn of this section.
  have alone : ∀ other, adapter.active threadID = some other → other = turnID := by
    intro other recorded
    cases notice with
    | responded | started => simpa [recorded] using orderly
    | completed =>
      have mine := (sound.exact threadID turnID).mpr ⟨by simpa using orderly, running⟩
      exact Option.some.inj (recorded.symm.trans mine)
  have rest : ∀ turn, turn ≠ turnID →
      ¬ (adapter.Begun threadID turn ∧ ¬ adapter.Ended threadID turn) :=
    fun turn other going => other (alone turn ((sound.exact threadID turn).mpr going))
  cases notice with
  | responded | started =>
    cases stepped
    refine ⟨?_, sound.own⟩
    intro thread turn
    by_cases same : thread = threadID
    · subst same
      by_cases mine : turn = turnID
      · subst mine
        simpa [Adapter.markActive, Adapter.Begun, Adapter.Ended] using running
      · simpa [Adapter.markActive, Adapter.Begun, Adapter.Ended, mine, Ne.symm mine] using
          rest turn mine
    · simpa [Adapter.markActive, Adapter.Begun, Adapter.Ended, same] using sound.exact thread turn
  | completed =>
    cases stepped
    constructor
    · intro thread turn
      by_cases same : thread = threadID
      · subst same
        by_cases mine : turn = turnID
        · simp [Adapter.Ended, mine]
        · simpa [Adapter.Begun, Adapter.Ended, mine] using rest turn mine
      · simpa [Adapter.Begun, Adapter.Ended, same] using sound.exact thread turn
    · intro pair member
      rcases List.mem_append.mp member with new | old
      · obtain ⟨other, recorded, rfl⟩ := List.mem_map.mp new
        exact alone other (Option.mem_toList.mp recorded)
      · exact sound.own pair old

theorem start_sound : Sound {} :=
  ⟨by simp [Adapter.Begun], by simp⟩

/-- In every run in which the turns of a thread follow each other, and each is recorded before it
completes, the record is right. -/
theorem turns_tracked (adapter : Adapter) (labels : List Label)
    (sequential : Runs.Meets step Sequential {} labels)
    (ran : Runs.run step {} labels = some adapter) : Tracked adapter :=
  (Runs.run_invariant Sound step_sound start_sound sequential ran).tracked

def sampleTurn (notice : Notice) : Label := ⟨notice, "thr", "one"⟩

theorem turns_tracked_once : ∃ adapter,
    Runs.run step {} ([.started, .responded, .completed].map sampleTurn) = some adapter ∧
      Tracked adapter :=
  ⟨_, rfl, turns_tracked _ ([.started, .responded, .completed].map sampleTurn) (by decide) rfl⟩

/-- The response is processed last: the turn stays recorded, and the completion of the next one
removes it in place of its own. -/
theorem response_comes_late : ∃ adapter after,
    Runs.run step {} [sampleTurn .started, sampleTurn .completed, ⟨.started, "thr", "two"⟩,
      sampleTurn .responded] = some adapter ∧
    (∀ notice, sampleTurn notice ∈ adapter.processed) ∧ adapter.active "thr" = some "one" ∧
    step adapter ⟨.completed, "thr", "two"⟩ = some after ∧ ("two", "one") ∈ after.cleared := by
  refine ⟨_, _, rfl, ?_, rfl, rfl, by decide⟩
  intro notice
  cases notice <;> decide

end CodexRemote.ActiveTurns
