import CodexRemote.AccessStates
import CodexRemote.Effects

/-!
# Generations of the access state, across restarts

The access state of a workspace is kept in three places: in the service, which counts its
generation up, in the Manager's view of the Codex, and in the stored view. A transition changes
the service first, then its sink stores the state and puts it into the Manager, and after a
definite failure the service goes back. A restore goes the other way: it hands the stored state
to the service and takes over what the service makes of it.

The system below is the Host of the module on operations together with the workspace service,
for one Codex. `Register` and each `RestoreAgent` of a restore are steps of their own, since
transitions go on under them; the operations that need the commit lock wait until the restore is
over. `publishCodex` at the end of `CreateCodex` and `ImportSession` has no lock: it reads the
view in one step and publishes it in another. The list of all durable states is kept beside the
system. A section under the commit lock is one step: a publication without the lock that falls
between the commit of a sink and its update of memory is not covered. `Unregister` at the end of `ForgetCodex` is left out, since nothing of the Codex can be
durable behind it.

The first part is about the states alone. `Ordered` says how those in the three places and the
durable ones follow each other, and each of its lemmas is one kind of step.
-/
namespace CodexRemote.Generations

open Protocol Persistence Activity Budget Codexes Workspace Function List Option AccessStates
open Option (bind_eq_some_iff ite_none_right_eq_some map_eq_some_iff some_ne_none)
open AccessStates (Task Change Token Answer)

variable {token : Token} {now : Int} {label : Host.Label} {task : Task} {tasks' tasks : Nat → Task}
  {memory' durable' : Option WorkspaceAccessState} {state : WorkspaceAccessState} {change : Change}
  {i : Nat} {view : CurrentView}

/-- The states are the same, or the second has a later generation. -/
def Precedes (earlier later : WorkspaceAccessState) : Prop :=
  earlier = later ∨ earlier.generation < later.generation

section Precedes

variable {a b c : WorkspaceAccessState}

theorem Precedes.generation (before : Precedes a b) : a.generation ≤ b.generation := by
  rcases before with rfl | less
  · exact Nat.le_refl _
  · exact Nat.le_of_lt less

theorem Precedes.trans (first : Precedes a b) (second : Precedes b c) : Precedes a c := by
  rcases first with rfl | less
  · exact second
  · exact .inr (Nat.lt_of_lt_of_le less second.generation)

theorem Precedes.eq (before : Precedes a b) (back : b.generation ≤ a.generation) : a = b := by
  rcases before with same | less
  · exact same
  · omega

end Precedes

/-- The state that a change is taken back to. -/
def previous : Change → WorkspaceAccessState
  | .agent change => change.previous
  | .mutation previous _ => previous

theorem undo_state (change : Change) (ws : WorkspaceState) :
    (change.undo ws).state = if ws.state = change.attempted then previous change else ws.state := by
  cases change with
  | agent change =>
    simp only [Change.undo, undoTransition, Change.attempted, previous]
    exact apply_ite WorkspaceState.state ..
  | mutation before attempted =>
    simp only [Change.undo, rollbackState, Change.attempted, previous]
    exact apply_ite WorkspaceState.state ..

/-- The states that are or were visible outside of the service. -/
inductive Seen (past : List WorkspaceAccessState)
    (memory restored : Option WorkspaceAccessState) (state : WorkspaceAccessState) : Prop
  | stored (member : state ∈ past)
  | shown (is : memory = some state)
  | restored (is : restored = some state)

/-- What an operation may count on. While its sink is called, each visible state is older than
its change or includes it. Once the sink has failed and as long as the change can be taken back,
each visible state is older, and no restore has taken the change over. -/
def Follows (past : List WorkspaceAccessState)
    (memory restored service : Option WorkspaceAccessState) : Task → Prop
  | .emitting change =>
      (previous change).generation < change.attempted.generation ∧
        (∀ state, service = some state → Precedes change.attempted state) ∧
        ∀ state, Seen past memory restored state →
          Precedes state (previous change) ∨ Precedes change.attempted state
  | .undoing change =>
      (∀ state, service = some state → Precedes change.attempted state) ∧
        (service = some change.attempted →
          restored = none ∧ ∀ state, Seen past memory restored state →
            Precedes state (previous change))
  | _ => True

/-- The durable states so far, the current one, those of the Manager, of a restore and of the
service, and the operations on their way. -/
structure Ordered (past : List WorkspaceAccessState)
    (durable memory restored service : Option WorkspaceAccessState) (tasks : Nat → Task) :
    Prop where
  sorted : past.Pairwise Precedes
  newest : ∀ state, durable = some state → state ∈ past ∧ ∀ x ∈ past, Precedes x state
  shown : ∀ state, memory = some state → ∀ x ∈ past, Precedes x state
  carried : ∀ state, restored = some state → ∀ x, x ∈ past ∨ memory = some x → Precedes x state
  above : ∀ state, service = some state → ∀ x, Seen past memory restored x → Precedes x state
  unknown : service = none → memory = none ∧ restored = none
  follows : ∀ i, Follows past memory restored service (tasks i)

variable {next : Option WorkspaceAccessState}

section Ordered

variable {past : List WorkspaceAccessState}
  {durable memory restored service : Option WorkspaceAccessState} {tasks : Nat → Task}

/-- No change is on its way to the sink or back. -/
def calm : Task → Bool
  | .emitting _ | .undoing _ => false
  | _ => true

theorem calm_of_idle (idle : task.idle = true) : calm task = true := by
  cases task with
  | emitting change | undoing change => cases idle
  | _ => rfl

theorem follows_of_calm (quiet : calm task = true) : Follows past memory restored service task := by
  cases task with
  | emitting change | undoing change => cases quiet
  | _ => trivial

/-- What an operation counts on depends on the visible states only. -/
theorem Follows.less (follows : Follows past memory restored service task)
    (fewer : ∀ x, Seen past' memory' restored' x → Seen past memory restored x)
    (left : restored = none → restored' = none) : Follows past' memory' restored' service task := by
  cases task with
  | emitting change =>
    obtain ⟨later, reached, apart⟩ := follows
    exact ⟨later, reached, fun x seen => apart x (fewer x seen)⟩
  | undoing change =>
    obtain ⟨reached, hidden⟩ := follows
    refine ⟨reached, ?_⟩
    intro same
    obtain ⟨none, older⟩ := hidden same
    exact ⟨left none, fun x seen => older x (fewer x seen)⟩
  | _ => trivial

theorem pairwise_toList (sorted : past.Pairwise Precedes)
    (newer : ∀ state, next = some state → ∀ x ∈ past, Precedes x state) :
    (past ++ next.toList).Pairwise Precedes := by
  cases next with
  | none => simpa using sorted
  | some state =>
    refine pairwise_append.mpr ⟨sorted, pairwise_singleton _ _, ?_⟩
    intro x member y last
    obtain rfl := mem_singleton.mp last
    exact newer _ rfl x member

theorem mem_toList (member : x ∈ past ++ next.toList) : x ∈ past ∨ next = some x := by
  rcases mem_append.mp member with before | last
  · exact .inl before
  · exact .inr (Option.mem_toList.mp last)

/-- What is stored last is behind nothing that was stored. -/
theorem newest_toList (newer : ∀ state, next = some state → ∀ x ∈ past, Precedes x state)
    (state : WorkspaceAccessState) (is : next = some state) :
    state ∈ past ++ next.toList ∧ ∀ x ∈ past ++ next.toList, Precedes x state := by
  subst is
  refine ⟨by simp, ?_⟩
  intro x member
  rcases mem_toList member with before | last
  · exact newer state rfl x before
  · exact .inl (some.inj last).symm

section

variable (ordered : Ordered past durable memory restored service tasks)
include ordered

/-- Nothing becomes visible: what is stored was durable or in memory, and memory may be read from
storage again. -/
theorem Ordered.stores
    (wrote : ∀ state, durable' = some state → durable = some state ∨ memory = some state)
    (shown : ∀ state, memory' = some state →
      memory = some state ∨ service ≠ none ∧ durable' = some state)
    (left : ∀ state, restored' = some state → restored = some state) :
    Ordered (past ++ durable'.toList) durable' memory' restored' service tasks := by
  have newer : ∀ state, durable' = some state → ∀ x ∈ past, Precedes x state := by
    intro state is
    rcases wrote state is with kept | written
    · exact (ordered.newest state kept).2
    · exact ordered.shown state written
  have known : ∀ x, x ∈ past ++ durable'.toList ∨ memory' = some x →
      x ∈ past ∨ memory = some x := by
    have written : ∀ x, durable' = some x → x ∈ past ∨ memory = some x := fun x is =>
      (wrote x is).imp_left fun kept => (ordered.newest x kept).1
    rintro x (member | is)
    · rcases mem_toList member with before | last
      · exact .inl before
      · exact written x last
    · rcases shown x is with kept | ⟨-, read⟩
      · exact .inr kept
      · exact written x read
  have fewer : ∀ x, Seen (past ++ durable'.toList) memory' restored' x →
      Seen past memory restored x := by
    rintro x (member | is | is)
    · exact (known x (.inl member)).elim .stored .shown
    · exact (known x (.inr is)).elim .stored .shown
    · exact .restored (left x is)
  have none_left : restored = none → restored' = none := by
    intro none
    refine eq_none_iff_forall_not_mem.mpr ?_
    intro x is
    exact absurd ((left x is).symm.trans none) (by simp)
  constructor
  · exact pairwise_toList ordered.sorted newer
  · exact newest_toList newer
  · intro state is x member
    rcases shown state is with kept | ⟨-, read⟩
    · rcases known x (.inl member) with before | last
      · exact ordered.shown state kept x before
      · exact .inl (some.inj (last.symm.trans kept))
    · exact (newest_toList newer state read).2 x member
  · intro state is x visible
    exact ordered.carried state (left state is) x (known x visible)
  · exact fun state is x seen => ordered.above state is x (fewer x seen)
  · intro none
    obtain ⟨no, nor⟩ := ordered.unknown none
    refine ⟨eq_none_iff_forall_not_mem.mpr ?_, none_left nor⟩
    intro x is
    rcases shown x is with kept | ⟨known, -⟩
    · exact absurd (kept.symm.trans no) (by simp)
    · exact known none
  · exact fun i => (ordered.follows i).less fewer none_left

/-- A step that leaves storage alone. -/
theorem Ordered.again : Ordered (past ++ durable.toList) durable memory restored service tasks :=
  ordered.stores (fun _ is => .inl is) (fun _ is => .inl is) fun _ is => is

theorem Ordered.steps (follows : ∀ i, Follows past memory restored service (tasks' i)) :
    Ordered past durable memory restored service tasks' :=
  { ordered with follows := follows }

end

/-- A new process knows no workspace and has nothing on its way. -/
theorem Ordered.restarts (ordered : Ordered past durable none none service tasks) :
    Ordered past durable none none none fun _ => .free :=
  { ordered with
    above := nofun
    unknown := fun _ => ⟨rfl, rfl⟩
    follows := fun _ => trivial }

/-- A change of the service, with nothing else on its way. -/
theorem Ordered.advances (ordered : Ordered past durable memory restored (some state) tasks)
    (from_ : previous change = state) (later : state.generation < change.attempted.generation)
    (others : ∀ j, tasks' j = .emitting change ∨ calm (tasks' j) = true) :
    Ordered past durable memory restored (some change.attempted) tasks' := by
  have behind : ∀ x, Seen past memory restored x → Precedes x state := ordered.above state rfl
  refine { ordered with above := ?_, unknown := nofun, follows := ?_ }
  · intro next is x seen
    cases is
    exact (behind x seen).trans (.inr later)
  · intro j
    rcases others j with is | quiet
    · rw [is]
      subst from_
      refine ⟨later, ?_, fun x seen => .inl (behind x seen)⟩
      intro next is
      exact .inl (some.inj is)
    · exact follows_of_calm quiet

/-- The operation whose sink has failed takes its change back, if it is still there. -/
theorem Ordered.undoes (ordered : Ordered past durable memory restored (some state) tasks)
    (task : tasks i = .undoing change) (quiet : ∀ j, calm (tasks' j) = true) :
    Ordered past durable memory restored
      (some (if state = change.attempted then previous change else state)) tasks' := by
  have follows := ordered.follows i
  rw [task] at follows
  refine { ordered with
    above := ?_, unknown := nofun, follows := fun j => follows_of_calm (quiet j) }
  intro next is x seen
  cases is
  split
  · next same => exact (follows.2 (congrArg some same)).2 x seen
  · exact ordered.above state rfl x seen

/-- The sink shows the state where memory is not ahead of it. -/
theorem Ordered.shows (ordered : Ordered past durable memory none service tasks)
    (task : tasks i = .emitting change) (shown : memory = some current)
    (behind : current.generation ≤ change.attempted.generation)
    (quiet : ∀ j, calm (tasks' j) = true) :
    Ordered past durable (some change.attempted) none service tasks' := by
  obtain ⟨later, reached, apart⟩ : Follows past memory none service (.emitting change) :=
    task ▸ ordered.follows i
  -- What memory shows is older than the change, or it is the change itself.
  have current_first : Precedes current change.attempted := by
    rcases apart current (.shown shown) with older | includes
    · exact older.trans (.inr later)
    · exact .inl (includes.eq behind).symm
  refine { ordered with
    shown := ?_, carried := nofun, above := ?_, unknown := ?_
    follows := fun j => follows_of_calm (quiet j) }
  · intro state is x member
    cases is
    exact (ordered.shown current shown x member).trans current_first
  · rintro state is x (member | same | none)
    · exact ordered.above state is x (.stored member)
    · exact some.inj same ▸ reached state is
    · cases none
  · intro none
    exact absurd ((ordered.unknown none).1.symm.trans shown) (by simp)

/-- The sink fails for certain, before anything shows the change. -/
theorem Ordered.refuses (ordered : Ordered past durable memory none service tasks)
    (task : tasks i = .emitting change) (hidden : memory ≠ some change.attempted)
    (never : change.attempted ∉ past)
    (others : ∀ j, tasks' j = .undoing change ∨ calm (tasks' j) = true) :
    Ordered past durable memory none service tasks' := by
  obtain ⟨-, reached, apart⟩ : Follows past memory none service (.emitting change) :=
    task ▸ ordered.follows i
  refine ordered.steps ?_
  intro j
  rcases others j with is | quiet
  · rw [is]
    refine ⟨reached, ?_⟩
    intro same
    refine ⟨rfl, ?_⟩
    intro x visible
    rcases apart x visible with older | includes
    · exact older
    -- It would be the change itself.
    have is := includes.eq (ordered.above _ same x visible).generation
    rcases visible with member | shown | none
    · exact absurd (is ▸ member) never
    · exact absurd (is ▸ shown) hidden
    · cases none
  · exact follows_of_calm quiet

/-- A Codex that nothing is known of is saved with the state of its new workspace. -/
theorem ordered_begins (stored : durable = none ∨ durable = some state)
    (shown : memory = none ∨ memory = some state) (quiet : ∀ j, calm (tasks j) = true) :
    Ordered durable.toList durable memory none (some state) tasks := by
  have only : ∀ x, Seen durable.toList memory none x → x = state := by
    rintro x (member | is | is)
    · have is : durable = some x := Option.mem_toList.mp member
      rcases stored with none | some <;> simp_all
    · rcases shown with none | some <;> simp_all
    · cases is
  constructor
  · cases durable <;> simp
  · rintro x rfl
    refine ⟨by simp, ?_⟩
    intro y member
    exact .inl (mem_singleton.mp member)
  · intro x is y member
    exact .inl ((only y (.stored member)).trans (only x (.shown is)).symm)
  · exact nofun
  · intro x is y seen
    cases is
    exact .inl (only y seen)
  · exact nofun
  · exact fun j => follows_of_calm (quiet j)

/-- `Register` where the service knows nothing, with the stored state. -/
theorem Ordered.registersFirst {stored : WorkspaceAccessState}
    (ordered : Ordered past durable memory restored none tasks) (is : durable = some stored)
    (later : Precedes stored state) (quiet : ∀ j, calm (tasks j) = true) :
    Ordered past durable memory (some state) (some state) tasks := by
  obtain ⟨rfl, -⟩ := ordered.unknown rfl
  have above : ∀ x ∈ past, Precedes x state := fun x member =>
    ((ordered.newest stored is).2 x member).trans later
  refine { ordered with
    carried := ?_, above := ?_, unknown := nofun, follows := fun j => follows_of_calm (quiet j) }
  · rintro x same y (member | none)
    · cases same
      exact above y member
    · cases none
  · rintro x same y (member | none | same')
    · cases same
      exact above y member
    · cases none
    · exact .inl (some.inj (same'.symm.trans same))

/-- `Register` or `RestoreAgent` of a restore, which takes over the state the service has then. No
operation is about to take that state back. -/
theorem Ordered.lifts {after : WorkspaceAccessState}
    (ordered : Ordered past durable memory restored (some state) tasks)
    (later : Precedes state after)
    (settled : ∀ i change, tasks i = .undoing change → state ≠ change.attempted) :
    Ordered past durable memory (some after) (some after) tasks := by
  have above : ∀ x, Seen past memory restored x → Precedes x after := fun x seen =>
    (ordered.above state rfl x seen).trans later
  refine { ordered with carried := ?_, above := ?_, unknown := nofun, follows := ?_ }
  · rintro x same y (member | shown)
    · cases same
      exact above y (.stored member)
    · cases same
      exact above y (.shown shown)
  · rintro x same y (member | shown | same')
    · cases same
      exact above y (.stored member)
    · cases same
      exact above y (.shown shown)
    · exact .inl (some.inj (same'.symm.trans same))
  · intro i
    have follows := ordered.follows i
    cases task : tasks i with
    | emitting change =>
      rw [task] at follows
      obtain ⟨next, reached, apart⟩ := follows
      have includes := (reached state rfl).trans later
      refine ⟨next, ?_, ?_⟩
      · intro x same
        exact some.inj same ▸ includes
      rintro x (member | shown | same)
      · exact apart x (.stored member)
      · exact apart x (.shown shown)
      · exact .inr (some.inj same ▸ includes)
    | undoing change =>
      rw [task] at follows
      have reached := follows.1 state rfl
      refine ⟨fun x same => some.inj same ▸ reached.trans later, ?_⟩
      intro same
      -- The state was behind the attempted one already, and does not come back to it.
      have is := some.inj same
      have back : state.generation ≤ change.attempted.generation := is ▸ later.generation
      exact absurd (reached.eq back).symm (settled i change task)
    | _ => trivial

/-- The end of a restore: memory has its state, and the row too unless it cannot be written. -/
theorem Ordered.finishes (ordered : Ordered past durable memory (some state) service tasks)
    (wrote : ∀ x, durable' = some x → durable = some x ∨ state = x) :
    Ordered (past ++ durable'.toList) durable' (some state) none service tasks := by
  have swapped : Ordered past durable (some state) none service tasks := by
    have fewer : ∀ x, Seen past (some state) none x → Seen past memory (some state) x := by
      rintro x (member | is | is)
      · exact .stored member
      · exact .restored is
      · cases is
    refine { ordered with
      shown := ?_, carried := nofun, above := ?_, unknown := ?_, follows := ?_ }
    · exact fun x is y member => ordered.carried x is y (.inl member)
    · exact fun x is y seen => ordered.above x is y (fewer y seen)
    · intro none
      cases (ordered.unknown none).2
    · exact fun i => (ordered.follows i).less fewer nofun
  exact swapped.stores (fun x is => (wrote x is).imp_right (congrArg some)) (fun _ is => .inl is)
    nofun

end Ordered

/-- A restore of the Codex that holds the commit lock: its plan, the access state it has got from
the service, and the agents it has still to put back. -/
structure Restoring where
  plan : RestorePlan
  access : Option WorkspaceAccessState := none
  agents : List String
  deriving DecidableEq

/-- The Host with the service's entry for the Codex, and the views that are about to be published
without the commit lock. -/
structure World where
  host : Host.World
  service : AccessStates.World := {}
  restoring : Option Restoring := none
  announcing : List (Event × CurrentView) := []

inductive Label where
  | host (label : Host.Label)
  | save (imported : Option (CodexOrigin × Int)) (session : Session)
      (requestID root resolved : String) (token : Token) (now : Int) (storage : Storage)
  | service (label : AccessStates.Label)
  | emit (task : Nat) (token : Token) (now : Int) (storage : Storage)
  | beginRestore (owner : String) (read : ThreadRead) (reads : Bool) (now : Int)
  | register (resolved : String) (token : Token) (now : Int)
  | restoreAgent (now : Int)
  | finishRestore (writes : Bool)
  | abandon
  | capture (codex : Codex) (requestID : String) (now : Int)
  | publish (event : Event) (view : CurrentView) (commit : Commit)

/-- The operations that take the Codex to the service, and the announcement of a new Codex. They
have labels of their own. -/
def separate (codexID : String) : Host.Operation → Bool
  | .create id _ access _ => id = codexID && access.isSome
  | .importSession id _ _ _ access _ => id = codexID && access.isSome
  | .announce codex _ => codex.codexId = codexID
  | .workspace id _ => id = codexID
  | .restore id _ _ _ => id = codexID
  | _ => false

/-- The operation needs the commit lock. -/
def locks : Host.Operation → Bool
  | .announce .. | .startTurn .. | .watch .. | .read _ | .restart _ => false
  | _ => true

/-- A section of the service that neither calls the sink nor belongs to a restore. -/
def internal (service : AccessStates.World) : AccessStates.Label → Bool
  | .register .. | .restoreAgent .. => false
  | .proceed task .. => match service.tasks task with
      | .emitting _ => false
      | _ => true
  | _ => true

/-- The state of the service's entry. -/
def stateOf (service : AccessStates.World) : Option WorkspaceAccessState :=
  service.workspace.map WorkspaceState.state

/-- `CreateCodex` or `ImportSession` with the state that `Register` has returned. -/
def saving (codexID : String) (imported : Option (CodexOrigin × Int)) (session : Session)
    (access : Option WorkspaceAccessState) (requestID : String) : Host.Operation :=
  match imported with
  | none => .create codexID session access requestID
  | some (origin, created) => .importSession codexID session origin created access requestID

/-- What the service makes of the sink's result. -/
def answerOf : Except ManagerError Unit → Answer
  | .ok _ => .stored
  | .error error => if error.outcomeUnknown then .unknown else .failed

/-- The sink for the state of an operation. -/
def sink (codexID : String) (m : Manager) (change : Change) (now : Int) (storage : Storage) :
    Manager × Except ManagerError Unit :=
  commitWorkspaceState m codexID change.attempted now storage.commit storage.reads
    storage.reloads

def step (config : Config) (codexID : String) (world : World) : Label → Option World
  | .host label =>
      if separate codexID label.operation = true ∨
          world.restoring.isSome = true ∧ locks label.operation = true then none
      else (Host.step config world.host label).map fun next =>
        if label.endsProcess then { host := next } else { world with host := next }
  | .save imported session requestID root resolved token now storage =>
      if world.restoring.isSome then none
      else (AccessStates.step world.service (.register root resolved none token now)).bind
        fun service =>
          (Host.perform config world.host (saving codexID imported session
            (stateOf service) requestID) now storage).map fun next =>
              { world with host := next, service := service }
  | .service label =>
      if internal world.service label then
        (AccessStates.step world.service label).map fun service => { world with service := service }
      else none
  | .emit task token now storage =>
      match world.restoring, world.service.tasks task with
      | none, .emitting change =>
          let (m, result) := sink codexID world.host.manager change now storage
          (AccessStates.step world.service (.proceed task true (answerOf result) token now)).map
            fun service => { world with host := world.host.put m, service := service }
      | _, _ => none
  | .beginRestore owner read reads now =>
      if world.restoring.isSome then none
      else (world.host.manager.events.disk.codexes codexID).bind fun row =>
        (restorePlan config now row owner read reads).map fun plan =>
          { world with restoring := some { plan := plan, agents := plan.agents } }
  | .register resolved token now =>
      match world.restoring with
      | some { plan := plan, access := none, agents := agents } =>
          (AccessStates.step world.service (.register plan.record.cwd resolved
            plan.view.workspaceAccessState token now)).map fun service =>
              { world with
                service := service
                restoring := some
                  { plan := plan, access := stateOf service, agents := agents } }
      | _ => none
  | .restoreAgent now =>
      match world.restoring with
      | some { plan := plan, access := some _, agents := agent :: rest } =>
          (AccessStates.step world.service (.restoreAgent agent now)).map fun service =>
            { world with
              service := service
              restoring := some
                { plan := plan, access := stateOf service, agents := rest } }
      | _ => none
  | .finishRestore writes =>
      match world.restoring with
      | some { plan := plan, access := some access, agents := [] } =>
          some { world with
            host := world.host.put (finishRestore world.host.manager plan access writes).1
            restoring := none }
      | _ => none
  | .abandon => if world.restoring.isSome then some { world with restoring := none } else none
  | .capture codex requestID now =>
      if (codex, requestID) ∈ world.host.saved ∧ codex.codexId = codexID then
        some { world with
          host := { world.host with saved := world.host.saved.erase (codex, requestID) }
          announcing := match world.host.manager.byID codexID with
            | none => world.announcing
            | some view =>
                (boundCanonicalEvent config.sizes config.contentBudget
                  { codexId := codexID, occurredAtUnixMs := now, causedByRequestId := requestID
                    body := .codexUpdated codex }, view) :: world.announcing }
      else none
  | .publish event view commit =>
      if (event, view) ∈ world.announcing then
        some { world with
          host := world.host.put (publishEvent world.host.manager event view commit).1
          announcing := world.announcing.erase (event, view) }
      else none

/-- The stored access state. -/
def durableAccess (m : Manager) (codexID : String) : Option WorkspaceAccessState :=
  (m.events.disk.codexes codexID).bind fun row =>
    (unmarshalCurrentView row.currentViewJSON).bind CurrentView.workspaceAccessState

/-- The access state in the Manager's view. -/
def memoryAccess (m : Manager) (codexID : String) : Option WorkspaceAccessState :=
  (m.byID codexID).bind CurrentView.workspaceAccessState

/-- A step, with the durable access states so far. -/
def pastStep (config : Config) (codexID : String)
    (state : World × List WorkspaceAccessState) (label : Label) :
    Option (World × List WorkspaceAccessState) :=
  (step config codexID state.1 label).map fun next =>
    (next, state.2 ++ (durableAccess next.host.manager codexID).toList)

section Managers

variable {m n : Manager} {codexID : String} {Given : CurrentView → Prop} {Rereads : Prop}

theorem durableAccess_readable (present : m.events.disk.codexes codexID = some row)
    (encoded : row.currentViewJSON = .readable view) :
    durableAccess m codexID = view.workspaceAccessState := by
  simp [durableAccess, present, encoded, unmarshalCurrentView]

theorem durableAccess_decoded (present : m.events.disk.codexes codexID = some row)
    (decoded : row.currentViewJSON.decode = some view) :
    durableAccess m codexID = view.workspaceAccessState := by
  simp [durableAccess, present, Host.decode_unmarshal decoded]

theorem durableAccess_congr (same : n.events.disk.codexes codexID = m.events.disk.codexes codexID) :
    durableAccess n codexID = durableAccess m codexID := by
  simp only [durableAccess, same]

theorem brings_durable (brings : Host.Brings m n codexID Given Rereads)
    (is : durableAccess n codexID = some state) :
    durableAccess m codexID = some state ∨
      ∃ view, Given view ∧ view.workspaceAccessState = some state := by
  obtain ⟨row, present, shown⟩ := bind_eq_some_iff.mp is
  rcases brings.row row present with before | ⟨-, view, encoded, given⟩
  · exact .inl (bind_eq_some_iff.mpr ⟨row, before, shown⟩)
  · exact .inr ⟨view, given, (durableAccess_readable present encoded).symm.trans is⟩

theorem brings_memory (brings : Host.Brings m n codexID Given False)
    (is : memoryAccess n codexID = some state) :
    memoryAccess m codexID = some state ∨
      ∃ view, Given view ∧ view.workspaceAccessState = some state := by
  obtain ⟨view, found, shown⟩ := bind_eq_some_iff.mp is
  rcases brings.memory view found with before | given | ⟨reread, -⟩
  · exact .inl (bind_eq_some_iff.mpr ⟨view, before, shown⟩)
  · exact .inr ⟨view, given, shown⟩
  · exact reread.elim

theorem edited_access (edited : Host.Edited m codexID view)
    (shown : view.workspaceAccessState = some state) : memoryAccess m codexID = some state := by
  obtain ⟨old, remembered, edits⟩ := edited
  have same : view.workspaceAccessState = old.workspaceAccessState := congrArg Prod.snd edits
  exact bind_eq_some_iff.mpr ⟨old, remembered, same.symm.trans shown⟩

/-- Every view of the Codex has an access state. -/
structure Full (m : Manager) (codexID : String) : Prop where
  memory : ∀ view, m.byID codexID = some view → view.workspaceAccessState.isSome
  row : ∀ row view, m.events.disk.codexes codexID = some row →
    row.currentViewJSON.decode = some view → view.workspaceAccessState.isSome

theorem Full.kept (full : Full m codexID) (brings : Host.Brings m n codexID Given Rereads)
    (given : ∀ view, Given view → view.workspaceAccessState.isSome) : Full n codexID := by
  have row : ∀ row view, n.events.disk.codexes codexID = some row →
      row.currentViewJSON.decode = some view → view.workspaceAccessState.isSome := by
    intro row view present decoded
    rcases brings.row row present with before | ⟨-, stored, encoded, is⟩
    · exact full.row row view before decoded
    · rw [encoded] at decoded
      cases decoded
      exact given _ is
  refine ⟨?_, row⟩
  intro view found
  rcases brings.memory view found with before | is | ⟨-, stored, present, decoded⟩
  · exact full.memory view before
  · exact given view is
  · exact row stored view present decoded

theorem edited_full (full : Full m codexID) (edited : Host.Edited m codexID view) :
    view.workspaceAccessState.isSome := by
  obtain ⟨old, remembered, edits⟩ := edited
  have same : view.workspaceAccessState = old.workspaceAccessState := congrArg Prod.snd edits
  rw [same]
  exact full.memory old remembered

/-- What the sink can do: pass over a state that is overtaken or durable already; store it, or
perhaps so, and then show it or what is stored; or fail for certain and store nothing. -/
inductive Sinks (m n : Manager) (codexID : String) (state : WorkspaceAccessState) :
    Except ManagerError Unit → Prop
  | passed (same : n = m) : Sinks m n codexID state (.ok ())
  | committed (result : Except ManagerError Unit) (kept : answerOf result ≠ .failed)
      (view : CurrentView) (remembered : m.byID codexID = some view)
      (behind : ∀ current, view.workspaceAccessState = some current →
        current.generation ≤ state.generation)
      (durable : durableAccess n codexID = durableAccess m codexID ∨
        durableAccess n codexID = some state)
      (memory : memoryAccess n codexID = some state ∨
        memoryAccess n codexID = durableAccess n codexID) : Sinks m n codexID state result
  | refused (result : Except ManagerError Unit) (fails : answerOf result = .failed)
      (durable : durableAccess n codexID = durableAccess m codexID)
      (memory : memoryAccess n codexID = memoryAccess m codexID ∨
        memoryAccess n codexID = durableAccess m codexID) : Sinks m n codexID state result

theorem memoryAccess_remember (m : Manager) (codexID : String) (view : CurrentView) :
    memoryAccess (m.remember codexID view) codexID = view.workspaceAccessState := by
  simp [memoryAccess, Manager.remember]

theorem sink_sinks (codexID : String) (m : Manager) (change : Change) (now : Int)
    (storage : Storage) :
    Sinks m (sink codexID m change now storage).1 codexID change.attempted
      (sink codexID m change now storage).2 := by
  unfold sink
  have moves := commitWorkspaceState_moves m codexID change.attempted now storage.commit
    storage.reads storage.reloads
  generalize commitWorkspaceState m _ _ _ _ _ _ = result at moves ⊢
  cases moves with
  | passed => exact .passed rfl
  | absent => exact .refused _ rfl rfl (.inl rfl)
  | published view codex _ found behind settles =>
    have remembered := known_remembered found
    have rows := Host.publishEvent_codexes m (accessEvent codexID change.attempted now)
      (accessView change.attempted now view) storage.commit codexID
    generalize tells : publishEvent m _ _ storage.commit = answer at rows settles
    have durable : durableAccess answer.1 codexID = durableAccess m codexID ∨
        durableAccess answer.1 codexID = some change.attempted := by
      obtain same | ⟨-, old, seq, -, written⟩ := rows
      · exact .inl (durableAccess_congr same)
      · exact .inr ((durableAccess_readable written rfl).trans rfl)
    cases settles with
    | told event =>
      exact .committed _ nofun view remembered behind durable
        (.inl (memoryAccess_remember _ codexID _))
    | reread error stored failed unknown read =>
      obtain ⟨row, present, decoded⟩ := durableView_row read
      have shown := (durableAccess_decoded present decoded).symm
      have memory := (memoryAccess_remember answer.1 codexID stored).trans shown
      have disk := durableAccess_congr (congrFun (congrArg Disk.codexes
        (Host.reload_disk (answer.1.remember codexID stored) codexID storage.reloads)) codexID)
      dsimp only
      split
      · exact .committed _ nofun view remembered behind (disk ▸ durable)
          (.inr (memory.trans disk.symm))
      next differs =>
      have kept := durable.resolve_right fun written => differs (shown.trans written)
      exact .refused _ rfl (disk.trans kept) (.inr (memory.trans kept))
    | unread error failed unknown =>
      exact .committed _ (by simp [answerOf, unknown]) view remembered behind durable
        (.inl (memoryAccess_remember _ codexID _))
    | refused error failed definite =>
      subst tells
      obtain ⟨cause, result, rfl⟩ := Host.publish_error failed
      have kept := publish_failed _ _ _ _ _ _ _ _ cause result (by
        rintro rfl
        cases definite)
      refine .refused _ (by simp [answerOf, definite]) ?_ (.inl rfl)
      exact durableAccess_congr (congrFun (congrArg Disk.codexes kept) codexID)

end Managers

section Service

variable {service next : AccessStates.World}

/-- What a section of the service does that neither calls the sink nor belongs to a restore. -/
inductive Internal (service next : AccessStates.World) : Prop
  | goes (state : stateOf next = stateOf service)
      (tasks : ∀ j, next.tasks j = service.tasks j ∨ calm (next.tasks j) = true)
  | advances (state : WorkspaceAccessState) (change : Change) (was : stateOf service = some state)
      (before : previous change = state)
      (later : state.generation < change.attempted.generation)
      (is : stateOf next = some change.attempted)
      (tasks : ∀ j, next.tasks j = .emitting change ∨ calm (next.tasks j) = true)
  | undoes (i : Nat) (state : WorkspaceAccessState) (change : Change)
      (was : stateOf service = some state) (task : service.tasks i = .undoing change)
      (is : stateOf next = some (if state = change.attempted then previous change else state))
      (tasks : ∀ j, calm (next.tasks j) = true)

theorem update_tasks (tasks : Nat → Task) (i : Nat) (quiet : calm task = true) (j : Nat) :
    update tasks i task j = tasks j ∨ calm (update tasks i task j) = true := by
  by_cases same : j = i
  · subst same
    exact .inr (by rwa [update_self])
  · exact .inl (update_of_ne same _ _)

theorem update_quiet (quiet : calm task = true) (others : ∀ j, j ≠ i → calm (tasks j) = true)
    (j : Nat) : calm (update tasks i task j) = true := by
  by_cases same : j = i
  · subst same
    rwa [update_self]
  · rw [update_of_ne same]
    exact others j same

theorem update_only (others : ∀ j, j ≠ i → calm (tasks j) = true) (j : Nat) :
    update tasks i task j = task ∨ calm (update tasks i task j) = true := by
  by_cases same : j = i
  · subst same
    exact .inl (update_self ..)
  · exact .inr (by
      rw [update_of_ne same]
      exact others j same)

/-- While one operation is on its way, the others are calm. -/
theorem others_calm (steady : AccessStates.Steady service) (active : (service.tasks i).idle = false)
    (j : Nat) (different : j ≠ i) : calm (service.tasks j) = true :=
  calm_of_idle (steady.alone active different)

theorem proceed_internal (steady : AccessStates.Steady service)
    (known : service.workspace = some ws) {succeeds : Bool} {answer : Answer}
    (quiet : ∀ change, service.tasks i ≠ .emitting change)
    (moved : AccessStates.proceed service ws i succeeds answer token now (service.tasks i) =
      some next) : Internal service next := by
  have active := proceed_active moved
  have others := others_calm steady active
  have was : stateOf service = some ws.state := by simp [stateOf, known]
  cases task : service.tasks i with
  | free | ended => simp [proceed, task] at moved
  | emitting change => exact absurd task (quiet change)
  | entered presented =>
    rw [task] at moved
    simp only [proceed] at moved
    split at moved <;> obtain rfl := some.inj moved
    · exact .goes rfl (update_tasks _ i rfl)
    · exact .goes rfl (update_tasks _ i rfl)
  | admitted =>
    rw [task] at moved
    simp only [proceed] at moved
    split at moved <;> obtain rfl := some.inj moved
    · exact .advances ws.state (.mutation ws.state (advanceMutation ws i token.1 now).state) was rfl
        (Nat.lt_succ_self _) rfl (update_only others)
    · exact .goes rfl (update_tasks _ i rfl)
  | undoing change =>
    rw [task] at moved
    simp only [proceed] at moved
    cases moved
    exact .undoes i ws.state change was task (congrArg some (undo_state change ws))
      (update_quiet rfl others)
  | finishing =>
    rw [task] at moved
    simp only [proceed] at moved
    cases moved
    refine .goes ?_ (update_tasks _ i rfl)
    rw [was]
    simp [stateOf, AccessStates.World.put, finishPending_eq]

theorem step_internal (steady : AccessStates.Steady service) {label : AccessStates.Label}
    (inside : internal service label = true)
    (stepped : AccessStates.step service label = some next) : Internal service next := by
  cases known : service.workspace with
  | none =>
    cases label with
    | register => cases inside
    | _ => simp [AccessStates.step, known] at stepped
  | some ws =>
    have was : stateOf service = some ws.state := by simp [stateOf, known]
    cases label with
    | register | restoreAgent => cases inside
    | agent agentID started token now =>
      simp only [AccessStates.step, known] at stepped
      split at stepped
      · next guard =>
        have quiet : ∀ j, j ≠ service.begun → calm (service.tasks j) = true := fun j _ =>
          calm_of_idle (steady.quiet known guard.1 guard.2.1 j)
        split at stepped
        · cases stepped
          exact .goes rfl (update_tasks _ _ rfl)
        next changed change entered =>
        cases stepped
        obtain ⟨-, -, state, -, -, rfl⟩ := transition_some ws changed agentID started
          service.begun token.1 now change entered
        refine .advances ws.state _ was rfl ?_ rfl (update_only quiet)
        rw [state]
        exact Nat.lt_succ_self _
      · cases stepped
    | mutate token =>
      simp only [AccessStates.step, known] at stepped
      split at stepped <;> cases stepped
      refine .goes ?_ (update_tasks _ _ rfl)
      rw [was]
      rfl
    | proceed i succeeds answer token now =>
      simp only [AccessStates.step, known] at stepped
      refine proceed_internal steady known ?_ stepped
      intro change task
      simp [internal, task] at inside

/-- A persisted state is taken over or followed by a later one. -/
theorem registeredState_follows (state : WorkspaceAccessState) (token : String) (now : Int) :
    Precedes state (registeredState (some state) token now) := by
  simp only [registeredState]
  split
  · next zero =>
    refine .inr ?_
    show state.generation < 1
    omega
  split
  · exact .inr (Nat.lt_succ_self _)
  · exact .inl rfl

theorem lifts_precedes {after : WorkspaceState} (lifts : AccessStates.Lifts ws after) :
    Precedes ws.state after.state := by
  rcases lifts with ⟨same, -⟩ | later
  · exact .inl same.symm
  · exact .inr later

theorem register_moves
    (stepped : AccessStates.step service (.register root resolved persisted token now) =
      some next) :
    next.tasks = service.tasks ∧ ∃ after, stateOf next = some after ∧
      (stateOf service = none ∧ after = registeredState persisted token.1 now ∨
        ∃ state, stateOf service = some state ∧ Precedes state after) := by
  cases known : service.workspace with
  | none =>
    simp only [AccessStates.step, known] at stepped
    cases stepped
    exact ⟨rfl, _, rfl, .inl ⟨by simp [stateOf, known], rfl⟩⟩
  | some ws =>
    simp only [AccessStates.step, known] at stepped
    split at stepped <;> cases stepped
    refine ⟨rfl, _, rfl, .inr ⟨ws.state, by simp [stateOf, known], ?_⟩⟩
    exact lifts_precedes (register_lifts ws root resolved persisted token.1 now)

theorem restoreAgent_moves
    (stepped : AccessStates.step service (.restoreAgent agentID now) = some next) :
    next.tasks = service.tasks ∧ ∃ state after, stateOf service = some state ∧
      stateOf next = some after ∧ Precedes state after := by
  cases known : service.workspace with
  | none => simp [AccessStates.step, known] at stepped
  | some ws =>
    simp only [AccessStates.step, known] at stepped
    split at stepped <;> cases stepped
    refine ⟨rfl, ws.state, _, by simp [stateOf, known], rfl, ?_⟩
    exact lifts_precedes (restoreAgent_lifts ws agentID now)

/-- Where the service knows no workspace, no change is on its way. -/
theorem unknown_calm (steady : AccessStates.Steady service) (none : service.workspace = none)
    (j : Nat) : calm (service.tasks j) = true := by
  have fits := steady.fits j
  cases task : service.tasks j with
  | emitting change | undoing change =>
    rw [task, none] at fits
    obtain ⟨-, ws, known, -⟩ := fits
    cases known
  | _ => rfl

end Service

/-- Nothing is there of the Codex. -/
structure Unborn (codexID : String) (world : World) (past : List WorkspaceAccessState) : Prop where
  past : past = []
  service : stateOf world.service = none
  memory : world.host.manager.byID codexID = none
  row : world.host.manager.events.disk.codexes codexID = none
  restoring : world.restoring = none
  announcing : world.announcing = []

/-- What is kept along a run: the states are in order, and before the Codex is saved for the first
time there is nothing of it. -/
structure Kept (codexID : String) (world : World) (past : List WorkspaceAccessState) : Prop where
  filed : Host.Filed world.host.manager
  steady : AccessStates.Steady world.service
  full : Full world.host.manager codexID
  planned : ∀ restoring, world.restoring = some restoring →
    restoring.plan.record.codexID = codexID ∧ Host.Names codexID restoring.plan.view
  captured : ∀ event view, (event, view) ∈ world.announcing →
    event.codexId = codexID ∧ Host.Names codexID view ∧ view.workspaceAccessState.isSome
  unborn : codexID ∉ world.host.issued → Unborn codexID world past
  ordered : Ordered past (durableAccess world.host.manager codexID)
    (memoryAccess world.host.manager codexID) (world.restoring.bind Restoring.access)
    (stateOf world.service) world.service.tasks

/-- What is kept once the step has left its state in the database. -/
abbrev KeptBy (codexID : String) (past : List WorkspaceAccessState) (next : World) : Prop :=
  Kept codexID next (past ++ (durableAccess next.host.manager codexID).toList)

/-- A failed operation is about to take back the state that the service has. -/
def takesBack (service : AccessStates.World) : Task → Bool
  | .undoing change => stateOf service = some change.attempted
  | _ => false

/-- The runs in which generations are in order. The sink fails for certain only where its state
is neither in memory nor was ever durable. A restore does not register the workspace while a
failed operation is about to take its state back, and where the service does not know the
workspace, the restore hands it the stored state. A new Codex is announced with the access state
that memory has then. -/
def Sound (codexID : String) (state : World × List WorkspaceAccessState) : Label → Prop
  | .emit task _ now storage => match state.1.service.tasks task with
      | .emitting change =>
          answerOf (sink codexID state.1.host.manager change now storage).2 = .failed →
            memoryAccess state.1.host.manager codexID ≠ some change.attempted ∧
              change.attempted ∉ state.2
      | _ => True
  | .register .. => match state.1.restoring with
      | some restoring =>
          (∀ i < state.1.service.begun,
            takesBack state.1.service (state.1.service.tasks i) = false) ∧
          (stateOf state.1.service = none →
            (durableAccess state.1.host.manager codexID).isSome ∧
              restoring.plan.view.workspaceAccessState =
                durableAccess state.1.host.manager codexID)
      | none => True
  | .publish _ view _ =>
      memoryAccess state.1.host.manager codexID = view.workspaceAccessState
  | _ => True

section Steps

variable {config : Config} {codexID : String} {world next : World}
  {past : List WorkspaceAccessState}

/-- Nothing is in the memory of a new process. -/
theorem step_restarted {world next : Host.World}
    (stepped : Host.step config world label = some next) (new : label.endsProcess = true)
    (codexID : String) : next.manager.byID codexID = none := by
  unfold Host.step at stepped
  split at stepped
  · cases stepped
  · next performed none =>
    cases stepped
    simp only [Host.Label.endsProcess, none, isSome_none, Bool.false_or] at new
    split at new
    · next replayCapacity operation =>
      rw [operation] at performed
      cases performed
      rfl
    · cases new
  · obtain ⟨disk, -, rfl⟩ := map_eq_some_iff.mp stepped
    rfl

/-- The other operations give the Codex edits of its own view. -/
theorem host_brings (filed : Host.Filed world.host.manager) {after : Host.World}
    (apart : ¬ separate codexID label.operation = true)
    (stepped : Host.step config world.host label = some after) :
    Host.Brings world.host.manager after.manager codexID
      (Host.Edited world.host.manager codexID) False := by
  refine (Host.step_brings filed stepped codexID).mono ?_ ?_
  · rintro view (edited | ⟨access, given, operation, -⟩ | ⟨state, operation, -⟩ |
      ⟨owner, read, access, operation, -⟩)
    · exact edited
    · obtain ⟨session, requestID, is⟩ | ⟨session, origin, created, requestID, is⟩ := operation
      · exact absurd (by simp [is, separate, given]) apart
      · exact absurd (by simp [is, separate, given]) apart
    · exact absurd (by simp [operation, separate]) apart
    · exact absurd (by simp [operation, separate]) apart
  · rintro ⟨state, operation⟩
    exact apart (by simp [operation, separate])

/-- A step of the Host that has nothing to do with the service. -/
theorem host_kept (kept : Kept codexID world past)
    (stepped : step config codexID world (.host label) = some next) : KeptBy codexID past next := by
  simp only [step, ite_none_left_eq_some] at stepped
  obtain ⟨guard, taken⟩ := stepped
  obtain ⟨after, performed, same⟩ := map_eq_some_iff.mp taken
  have brings := host_brings kept.filed (fun apart => guard (.inl apart)) performed
  have filed := Host.step_filed kept.filed performed
  have full := kept.full.kept brings fun _ => edited_full kept.full
  have ordered : ∀ restored, (restored = none ∨ restored = world.restoring.bind Restoring.access) →
      Ordered (past ++ (durableAccess after.manager codexID).toList)
        (durableAccess after.manager codexID) (memoryAccess after.manager codexID) restored
        (stateOf world.service) world.service.tasks := by
    intro restored left
    refine kept.ordered.stores ?_ ?_ ?_
    · intro state is
      refine (brings_durable brings is).imp_right ?_
      rintro ⟨view, edited, shown⟩
      exact edited_access edited shown
    · intro state is
      rcases brings_memory brings is with before | ⟨view, edited, shown⟩
      · exact .inl before
      · exact .inl (edited_access edited shown)
    · rintro state is
      rcases left with none | same
      · cases none.symm.trans is
      · exact same ▸ is
  have unborn : codexID ∉ after.issued → Unborn codexID { world with host := after }
      (past ++ (durableAccess after.manager codexID).toList) := by
    intro fresh
    obtain ⟨empty, unknown, forgotten, gone, idle, silent⟩ :=
      kept.unborn fun issued => fresh (Host.step_issued performed issued)
    have never : ∀ view, ¬ Host.Edited world.host.manager codexID view := by
      rintro view ⟨old, remembered, -⟩
      cases forgotten.symm.trans remembered
    have row : after.manager.events.disk.codexes codexID = none := by
      refine eq_none_iff_forall_not_mem.mpr ?_
      intro row present
      rcases brings.row row present with before | ⟨-, view, -, edited⟩
      · cases gone.symm.trans before
      · exact never view edited
    have memory : after.manager.byID codexID = none := by
      refine eq_none_iff_forall_not_mem.mpr ?_
      intro view found
      rcases brings.memory view found with before | edited | ⟨reread, -⟩
      · cases forgotten.symm.trans before
      · exact never view edited
      · exact reread
    exact ⟨by simp [empty, durableAccess, row], unknown, memory, row, idle, silent⟩
  cases new : label.endsProcess with
  | true =>
    rw [if_pos new] at same
    subst same
    have memory : memoryAccess after.manager codexID = none := by
      simp [memoryAccess, step_restarted performed new codexID]
    have anew := ordered none (.inl rfl)
    rw [memory] at anew
    exact {
      filed := filed
      steady := start_steady
      full := full
      planned := fun _ is => (some_ne_none _ is.symm).elim
      captured := fun _ _ member => (not_mem_nil member).elim
      unborn := fun fresh =>
        ⟨(unborn fresh).past, rfl, (unborn fresh).memory, (unborn fresh).row, rfl, rfl⟩
      ordered := by
        rw [memory]
        exact anew.restarts }
  | false =>
    simp only [new, Bool.false_eq_true, if_false] at same
    subst same
    exact { kept with
      filed := filed
      full := full
      unborn := unborn
      ordered := ordered _ (.inr rfl) }

theorem perform_saving {after : Host.World}
    (performed : Host.perform config host (saving codexID imported session access requestID) now
      storage = some after) :
    codexID ∉ host.issued ∧ codexID ∈ after.issued ∧
      ∃ codex, codex.codexId = codexID ∧ after.manager =
        (saveCodex config host.manager codex session access now storage.writes).1 := by
  have issued : ∀ codex : Codex, codex.codexId = codexID →
      codexID ∈ (host.save config codex session access requestID now storage).issued := by
    rintro codex rfl
    unfold Host.World.save
    split <;> exact mem_cons_self
  cases imported with
  | none | some pair =>
    simp only [saving, Host.perform, ite_none_right_eq_some] at performed
    obtain ⟨fresh, same⟩ := performed
    cases same
    exact ⟨fresh.2.1, issued _ rfl, _, rfl, Host.save_manager ..⟩

/-- The first state of a Codex. -/
theorem save_kept (kept : Kept codexID world past) (imported : Option (CodexOrigin × Int))
    (session : Session) (requestID root resolved : String) (token : Token) (now : Int)
    (storage : Storage) (stepped : step config codexID world
      (.save imported session requestID root resolved token now storage) = some next) :
    KeptBy codexID past next := by
  simp only [step, ite_none_left_eq_some] at stepped
  obtain ⟨-, taken⟩ := stepped
  obtain ⟨service, registered, taken⟩ := bind_eq_some_iff.mp taken
  obtain ⟨after, performed, rfl⟩ := map_eq_some_iff.mp taken
  obtain ⟨fresh, issued, codex, named, manager⟩ := perform_saving performed
  obtain ⟨rfl, unknown, forgotten, gone, idle, -⟩ := kept.unborn fresh
  obtain ⟨tasks, state, is, -⟩ := register_moves registered
  have brings := Host.saveCodex_brings config world.host.manager codex session (stateOf service)
    now storage.writes
  rw [← manager] at brings
  have given : ∀ found, (∃ view : CurrentView, (codexID = codex.codexId ∧
      Host.Names codexID view ∧ (stateOf service).isSome ∧
        view.workspaceAccessState = stateOf service) ∧ view.workspaceAccessState = some found) →
      found = state := by
    rintro found ⟨view, ⟨-, -, -, shown⟩, same⟩
    exact some.inj (same.symm.trans (shown.trans is))
  have durable : durableAccess after.manager codexID = none ∨
      durableAccess after.manager codexID = some state := by
    cases found : durableAccess after.manager codexID with
    | none => exact .inl rfl
    | some other =>
      rcases brings_durable (brings codexID) found with before | shown
      · simp [durableAccess, gone] at before
      · exact .inr (congrArg some (given other shown))
  have memory : memoryAccess after.manager codexID = none ∨
      memoryAccess after.manager codexID = some state := by
    cases found : memoryAccess after.manager codexID with
    | none => exact .inl rfl
    | some other =>
      rcases brings_memory (brings codexID) found with before | shown
      · simp [memoryAccess, forgotten] at before
      · exact .inr (congrArg some (given other shown))
  have workspace : world.service.workspace = none := map_eq_none_iff.mp unknown
  exact { kept with
    filed := kept.filed.kept _ _ brings fun _ _ given => given.2.1
    steady := step_steady kept.steady registered
    full := kept.full.kept (brings codexID) fun view given => given.2.2.2 ▸ given.2.2.1
    unborn := fun never => absurd issued never
    ordered := by
      simp only [idle, bind_none, is, nil_append, tasks]
      exact ordered_begins durable memory (unknown_calm kept.steady workspace) }

/-- A section of the service alone. -/
theorem service_kept (kept : Kept codexID world past) {label : AccessStates.Label}
    (stepped : step config codexID world (.service label) = some next) :
    KeptBy codexID past next := by
  simp only [step, ite_none_right_eq_some] at stepped
  obtain ⟨inside, taken⟩ := stepped
  obtain ⟨service, moved, rfl⟩ := map_eq_some_iff.mp taken
  have internal := step_internal kept.steady inside moved
  have ordered : Ordered past (durableAccess world.host.manager codexID)
      (memoryAccess world.host.manager codexID) (world.restoring.bind Restoring.access)
      (stateOf service) service.tasks := by
    cases internal with
    | goes state tasks =>
      rw [state]
      refine kept.ordered.steps ?_
      intro j
      rcases tasks j with same | quiet
      · rw [same]
        exact kept.ordered.follows j
      · exact follows_of_calm quiet
    | advances state change was before later is tasks =>
      have ordered := kept.ordered
      rw [was] at ordered
      rw [is]
      exact ordered.advances before later tasks
    | undoes i state change was task is tasks =>
      have ordered := kept.ordered
      rw [was] at ordered
      rw [is]
      exact ordered.undoes task tasks
  have never : codexID ∉ world.host.issued → stateOf service = none := by
    intro fresh
    have unknown := (kept.unborn fresh).service
    cases internal with
    | goes state => exact state.trans unknown
    | advances state change was | undoes i state change was => cases unknown.symm.trans was
  exact { kept with
    steady := step_steady kept.steady moved
    unborn := fun fresh => by
      obtain ⟨empty, -, forgotten, gone, idle, silent⟩ := kept.unborn fresh
      exact ⟨by simp [empty, durableAccess, gone], never fresh, forgotten, gone, idle, silent⟩
    ordered := ordered.again }

theorem emit_moves {after : AccessStates.World} {answer : Answer}
    (task : service.tasks i = .emitting change)
    (moved : AccessStates.step service (.proceed i true answer token now) = some after) :
    stateOf service ≠ none ∧ stateOf after = stateOf service ∧
      after.tasks = update service.tasks i
        (if answer = .failed then .undoing change else .finishing) := by
  cases known : service.workspace with
  | none => simp [AccessStates.step, known] at moved
  | some ws =>
    simp only [AccessStates.step, known, task, AccessStates.proceed] at moved
    cases moved
    exact ⟨by simp [stateOf, known], rfl, rfl⟩

theorem Sinks.ordered {after : Manager} (sinks : Sinks m after codexID change.attempted result)
    (full : Full m codexID)
    (ordered : Ordered past (durableAccess m codexID) (memoryAccess m codexID) none service tasks)
    (task : tasks i = .emitting change) (known : service ≠ none)
    (others : ∀ j, j ≠ i → calm (tasks j) = true) (hidden : answerOf result = .failed →
      memoryAccess m codexID ≠ some change.attempted ∧ change.attempted ∉ past) :
    Ordered (past ++ (durableAccess after codexID).toList) (durableAccess after codexID)
      (memoryAccess after codexID) none service
      (update tasks i
        (if answerOf result = .failed then .undoing change else .finishing)) := by
  cases sinks with
  | passed same =>
    subst same
    refine (ordered.steps ?_).again
    exact fun j => follows_of_calm (update_quiet rfl others j)
  | committed _ goes view remembered behind durable memory =>
    obtain ⟨current, shown⟩ := isSome_iff_exists.mp (full.memory view remembered)
    rw [if_neg goes]
    have present := bind_eq_some_iff.mpr ⟨view, remembered, shown⟩
    refine (ordered.shows task present (behind current shown) (update_quiet rfl others)).stores
      ?_ ?_ nofun
    · intro state is
      exact durable.imp (·.symm.trans is) (·.symm.trans is)
    · intro state is
      exact memory.imp (·.symm.trans is) fun read => ⟨known, read.symm.trans is⟩
  | refused _ fails durable memory =>
    obtain ⟨unseen, never⟩ := hidden fails
    rw [if_pos fails, durable]
    refine (ordered.refuses task unseen never (update_only others)).stores (fun _ is => .inl is)
      ?_ nofun
    intro state is
    exact memory.imp (·.symm.trans is) fun read => ⟨known, read.symm.trans is⟩

section

variable (kept : Kept codexID world past)
include kept

/-- The call of the sink. -/
theorem emit_kept {task : Nat} (sound : Sound codexID (world, past) (.emit task token now storage))
    (stepped : step config codexID world (.emit task token now storage) = some next) :
    KeptBy codexID past next := by
  simp only [step] at stepped
  split at stepped
  case h_2 => cases stepped
  next change idle emitting =>
  obtain ⟨service, moved, rfl⟩ := map_eq_some_iff.mp stepped
  obtain ⟨known, state, tasks⟩ := emit_moves emitting moved
  have others := others_calm kept.steady (i := task) (by rw [emitting]; rfl)
  have brings := Host.commitWorkspaceState_brings kept.filed codexID change.attempted now
    storage.commit storage.reads storage.reloads
  have sinks := sink_sinks codexID world.host.manager change now storage
  have hidden : answerOf (sink codexID world.host.manager change now storage).2 = .failed →
      memoryAccess world.host.manager codexID ≠ some change.attempted ∧
        change.attempted ∉ past := by
    simpa only [Sound, emitting] using sound
  have ordered := kept.ordered
  rw [idle] at ordered
  exact { kept with
    filed := kept.filed.kept _ _ brings (by
      rintro id view ⟨rfl, old, remembered, same, -⟩ codex present
      exact kept.filed.memory _ old remembered codex (same ▸ present))
    steady := step_steady kept.steady moved
    full := kept.full.kept (brings codexID) (by
      rintro view ⟨-, old, -, -, shown⟩
      simp [shown])
    unborn := fun fresh => absurd (kept.unborn fresh).service known
    ordered := by
      have result := sinks.ordered kept.full ordered emitting known others hidden
      rw [← tasks, ← state] at result
      exact idle ▸ result }

/-- A restore begins with a plan for the Codex. -/
theorem beginRestore_kept {read : ThreadRead}
    (stepped : step config codexID world (.beginRestore owner read reads now) = some next) :
    KeptBy codexID past next := by
  simp only [step, ite_none_left_eq_some] at stepped
  obtain ⟨-, taken⟩ := stepped
  obtain ⟨row, stored, taken⟩ := bind_eq_some_iff.mp taken
  obtain ⟨plan, planned, rfl⟩ := map_eq_some_iff.mp taken
  obtain ⟨named, -, shows⟩ := Leases.restorePlan_shows (kept.filed.rows codexID row stored) planned
  exact { kept with
    planned := by
      intro restoring is
      cases is
      refine ⟨named, ?_⟩
      intro codex present
      obtain ⟨other, same, of, -⟩ := shows.codex
      cases present.symm.trans same
      exact of
    unborn := fun fresh => by
      cases (kept.unborn fresh).row.symm.trans stored
    ordered := kept.ordered.stores (fun _ is => .inl is) (fun _ is => .inl is) nofun }

/-- `Register` of a restore. -/
theorem register_kept (sound : Sound codexID (world, past) (.register resolved token now))
    (stepped : step config codexID world (.register resolved token now) = some next) :
    KeptBy codexID past next := by
  simp only [step] at stepped
  split at stepped
  case h_2 => cases stepped
  next plan agents restoring =>
  obtain ⟨service, moved, rfl⟩ := map_eq_some_iff.mp stepped
  have named := kept.planned _ restoring
  obtain ⟨settled, handed⟩ : (∀ i < world.service.begun,
      takesBack world.service (world.service.tasks i) = false) ∧
      (stateOf world.service = none → (durableAccess world.host.manager codexID).isSome ∧
        plan.view.workspaceAccessState = durableAccess world.host.manager codexID) := by
    simpa only [Sound, restoring] using sound
  obtain ⟨tasks, after, is, cases⟩ := register_moves moved
  have ordered : Ordered past (durableAccess world.host.manager codexID)
      (memoryAccess world.host.manager codexID) (some after) (some after)
      world.service.tasks := by
    have ordered := kept.ordered
    rcases cases with ⟨unknown, rfl⟩ | ⟨state, was, later⟩
    · obtain ⟨present, same⟩ := handed unknown
      obtain ⟨stored, durable⟩ := isSome_iff_exists.mp present
      rw [same.trans durable]
      rw [unknown] at ordered
      refine ordered.registersFirst durable (registeredState_follows stored token.1 now) ?_
      exact unknown_calm kept.steady (map_eq_none_iff.mp unknown)
    · rw [was] at ordered
      refine ordered.lifts later ?_
      rintro i change task rfl
      by_cases begun : i < world.service.begun
      · have back := settled i begun
        simp [task, takesBack, was] at back
      · have free := kept.steady.fresh i (by omega)
        rw [task] at free
        cases free
  exact { kept with
    steady := step_steady kept.steady moved
    planned := by
      intro other same
      cases same
      exact named
    unborn := fun fresh => by
      cases (kept.unborn fresh).restoring.symm.trans restoring
    ordered := by
      simp only [is, tasks, bind_some]
      exact ordered.again }

/-- `RestoreAgent` of a restore. -/
theorem restoreAgent_kept (stepped : step config codexID world (.restoreAgent now) = some next) :
    KeptBy codexID past next := by
  simp only [step] at stepped
  split at stepped
  case h_2 => cases stepped
  next plan access agent rest restoring =>
  obtain ⟨service, moved, rfl⟩ := map_eq_some_iff.mp stepped
  have named := kept.planned _ restoring
  obtain ⟨tasks, state, after, was, is, later⟩ := restoreAgent_moves moved
  have ordered : Ordered past (durableAccess world.host.manager codexID)
      (memoryAccess world.host.manager codexID) (some after) (some after)
      world.service.tasks := by
    have ordered := kept.ordered
    rw [was, restoring] at ordered
    refine ordered.lifts later ?_
    rintro i change task rfl
    have follows := ordered.follows i
    rw [task] at follows
    cases (follows.2 rfl).1
  exact { kept with
    steady := step_steady kept.steady moved
    planned := by
      intro other same
      cases same
      exact named
    unborn := fun fresh => by
      cases (kept.unborn fresh).restoring.symm.trans restoring
    ordered := by
      simp only [is, tasks, bind_some]
      exact ordered.again }

end

theorem finishRestore_memory (m : Manager) (plan : RestorePlan) (access : WorkspaceAccessState)
    (writes : Bool) :
    memoryAccess (finishRestore m plan access writes).1 plan.record.codexID = some access := by
  obtain ⟨threads, sessions, events, same⟩ := finishRestore_registers m plan access writes
  rw [same]
  simp [memoryAccess, registerRestored]

section

variable (kept : Kept codexID world past)
include kept

/-- The end of a restore. -/
theorem finishRestore_kept
    (stepped : step config codexID world (.finishRestore writes) = some next) :
    KeptBy codexID past next := by
  simp only [step] at stepped
  split at stepped
  case h_2 => cases stepped
  next plan access restoring =>
  cases stepped
  obtain ⟨rfl, named⟩ := kept.planned _ restoring
  have brings := Host.finishRestore_brings world.host.manager access writes named
  have ordered := kept.ordered
  rw [restoring] at ordered
  exact { kept with
    filed := kept.filed.kept _ _ brings (by
      rintro id view ⟨rfl, rfl⟩
      exact named)
    full := kept.full.kept (brings _) (by
      rintro view ⟨-, rfl⟩
      rfl)
    planned := fun _ is => (some_ne_none _ is.symm).elim
    unborn := fun fresh => by
      cases (kept.unborn fresh).restoring.symm.trans restoring
    ordered := by
      simp only [Host.put_manager, finishRestore_memory]
      refine ordered.finishes ?_
      intro x is
      refine (brings_durable (brings _) is).imp_right ?_
      rintro ⟨view, ⟨-, rfl⟩, shown⟩
      exact some.inj shown }

/-- A restore that ends with an error. -/
theorem abandon_kept (stepped : step config codexID world .abandon = some next) :
    KeptBy codexID past next := by
  simp only [step, ite_none_right_eq_some] at stepped
  obtain ⟨busy, same⟩ := stepped
  cases same
  exact { kept with
    planned := fun _ is => (some_ne_none _ is.symm).elim
    unborn := fun fresh => by
      rw [(kept.unborn fresh).restoring] at busy
      cases busy
    ordered := kept.ordered.stores (fun _ is => .inl is) (fun _ is => .inl is) nofun }

/-- `publishCodex` reads the view of a new Codex. -/
theorem capture_kept
    (stepped : step config codexID world (.capture codex requestID now) = some next) :
    KeptBy codexID past next := by
  simp only [step, ite_none_right_eq_some] at stepped
  obtain ⟨-, same⟩ := stepped
  cases same
  exact { kept with
    captured := by
      intro event view member
      split at member
      · exact kept.captured event view member
      next found =>
      rcases mem_cons.mp member with same | before
      · cases same
        exact ⟨boundCanonicalEvent_codexId .., kept.filed.memory codexID view found,
          kept.full.memory view found⟩
      · exact kept.captured event view before
    unborn := fun fresh => by
      obtain ⟨empty, unknown, forgotten, gone, idle, silent⟩ := kept.unborn fresh
      refine ⟨by simp [empty, durableAccess, gone], unknown, forgotten, gone, idle, ?_⟩
      simp [forgotten, silent]
    ordered := kept.ordered.again }

/-- `publishCodex` publishes what it has read. -/
theorem publish_kept (sound : Sound codexID (world, past) (.publish event view commit))
    (stepped : step config codexID world (.publish event view commit) = some next) :
    KeptBy codexID past next := by
  simp only [step, ite_none_right_eq_some] at stepped
  obtain ⟨announced, same⟩ := stepped
  cases same
  obtain ⟨rfl, named, full⟩ := kept.captured event view announced
  have brings := Host.publishEvent_brings kept.filed event view commit
  have shown : memoryAccess world.host.manager event.codexId = view.workspaceAccessState := sound
  exact { kept with
    filed := kept.filed.kept _ _ brings (by
      rintro id other ⟨rfl, seq, rfl⟩
      exact named)
    full := kept.full.kept (brings _) (by
      rintro other ⟨-, seq, rfl⟩
      exact full)
    captured := fun other shown member => kept.captured other shown (mem_of_mem_erase member)
    unborn := fun fresh => by
      rw [(kept.unborn fresh).announcing] at announced
      cases announced
    ordered := by
      refine kept.ordered.stores ?_ (fun _ is => .inl is) fun _ is => is
      intro state is
      refine (brings_durable (brings _) is).imp_right ?_
      rintro ⟨other, ⟨-, seq, rfl⟩, same⟩
      exact shown.trans same }

theorem step_kept (label : Label) (sound : Sound codexID (world, past) label)
    (stepped : step config codexID world label = some next) : KeptBy codexID past next := by
  cases label with
  | host label => exact host_kept kept stepped
  | save imported session requestID root resolved token now storage =>
    exact save_kept kept imported session requestID root resolved token now storage stepped
  | service label => exact service_kept kept stepped
  | emit task token now storage => exact emit_kept kept sound stepped
  | beginRestore owner read reads now => exact beginRestore_kept kept stepped
  | register resolved token now => exact register_kept kept sound stepped
  | restoreAgent now => exact restoreAgent_kept kept stepped
  | finishRestore writes => exact finishRestore_kept kept stepped
  | abandon => exact abandon_kept kept stepped
  | capture codex requestID now => exact capture_kept kept stepped
  | publish event view commit => exact publish_kept kept sound stepped

end

end Steps

/-- A Host before its first restore, with rows under their own ids and none of this Codex. -/
structure Begins (codexID : String) (host : Host.World) : Prop where
  views : host.manager.byID = fun _ => none
  rows : ∀ id row, host.manager.events.disk.codexes id = some row → Leases.Own row id
  absent : host.manager.events.disk.codexes codexID = none

theorem Begins.kept (begins : Begins codexID host) :
    Kept codexID { host := host } [] := by
  have memory : host.manager.byID codexID = none := congrFun begins.views codexID
  have nowhere : ∀ id view, host.manager.byID id ≠ some view := by
    intro id view found
    rw [begins.views] at found
    exact some_ne_none _ found.symm
  exact {
    filed := ⟨fun id view found => absurd found (nowhere id view), begins.rows⟩
    steady := start_steady
    full := by
      refine ⟨fun view found => absurd found (nowhere codexID view), ?_⟩
      intro row view present
      exact absurd (begins.absent.symm.trans present) (by simp)
    planned := fun _ is => (some_ne_none _ is.symm).elim
    captured := fun _ _ member => (not_mem_nil member).elim
    unborn := fun _ => ⟨rfl, rfl, memory, begins.absent, rfl, rfl⟩
    ordered := by
      have durable : durableAccess host.manager codexID = none := by
        simp [durableAccess, begins.absent]
      have shown : memoryAccess host.manager codexID = none := by simp [memoryAccess, memory]
      rw [durable, shown]
      exact ⟨.nil, nofun, nofun, nofun, nofun, fun _ => ⟨rfl, rfl⟩, fun _ => trivial⟩ }

/-- In every run whose steps are sound, with restarts of the Host and restores of every kind, the
durable access states of the Codex have generations that never decrease, and two of the same
generation agree in agent count, status and token.

Each step keeps the states of the service, of memory and of storage in order, so each new durable
state is one of an earlier step or has a later generation. -/
theorem generations_in_order (config : Config) (codexID : String) (start : Host.World)
    (last : World) (past : List WorkspaceAccessState) (labels : List Label)
    (begins : Begins codexID start)
    (sound : Runs.Meets (pastStep config codexID) (Sound codexID) ({ host := start }, []) labels)
    (ran : Runs.run (pastStep config codexID) ({ host := start }, []) labels =
      some (last, past)) :
    past.Pairwise fun earlier later => earlier.generation ≤ later.generation ∧
      (earlier.generation = later.generation →
        earlier.activeAgentCount = later.activeAgentCount ∧
        earlier.mutationStatus = later.mutationStatus ∧
        earlier.quiescenceToken = later.quiescenceToken) := by
  have kept := Runs.run_invariant (fun state => Kept codexID state.1 state.2) (by
      rintro ⟨world, before⟩ label ⟨next, after⟩ holds condition taken
      obtain ⟨reached, stepped, same⟩ := map_eq_some_iff.mp taken
      cases same
      exact step_kept holds label condition stepped) begins.kept sound ran
  refine kept.ordered.sorted.imp ?_
  intro earlier later before
  refine ⟨before.generation, ?_⟩
  intro same
  obtain rfl := before.eq (Nat.le_of_eq same.symm)
  exact ⟨rfl, rfl, rfl⟩

instance (codexID : String) (state : World × List WorkspaceAccessState) (label : Label) :
    Decidable (Sound codexID state label) := by
  unfold Sound
  split
  · split <;> infer_instance
  · split <;> infer_instance
  · infer_instance
  · infer_instance

/-- A Codex is created, a file is written, and the Host restarts before the first turn. -/
def sampleWrite : List Label :=
  [.save none Host.sampleSession "create" "/w" "/w" firstToken 5 {}, .service (.mutate "first"),
    .service (.proceed 0 true .stored sampleToken 6),
    .service (.proceed 0 true .stored sampleToken 6), .emit 0 sampleToken 7 {},
    .service (.proceed 0 true .stored sampleToken 8),
    .host { operation := .restart 8, now := 9 }]

/-- The restore that follows, with the given answer of the app-server. -/
def sampleRestore (read : ThreadRead) : List Label :=
  [.beginRestore "own" read true 10, .register "/w" ⟨"third", by decide⟩ 11, .finishRestore true]

/-- The generations and tokens that were durable behind each step. -/
def durableTokens (state : World × List WorkspaceAccessState) : List (Nat × String) :=
  state.2.map fun access => (access.generation, access.quiescenceToken)

theorem sampleHost_begins : Begins "cdx" Host.sampleHost :=
  ⟨rfl, fun _ _ present => (some_ne_none _ present.symm).elim, rfl⟩

/-- A thread that can be resumed keeps the state of the write. -/
theorem generations_in_order_resumed : ∃ last past,
    Runs.run (pastStep sampleConfig "cdx") ({ host := Host.sampleHost }, [])
        (sampleWrite ++ sampleRestore (.found {} true)) = some (last, past) ∧
      durableTokens (last, past) =
        List.replicate 4 (1, "first") ++ List.replicate 6 (2, "second") ∧
      past.Pairwise fun earlier later => earlier.generation ≤ later.generation ∧
        (earlier.generation = later.generation →
          earlier.activeAgentCount = later.activeAgentCount ∧
          earlier.mutationStatus = later.mutationStatus ∧
          earlier.quiescenceToken = later.quiescenceToken) := by
  have finished : (Runs.run (pastStep sampleConfig "cdx") ({ host := Host.sampleHost }, [])
      (sampleWrite ++ sampleRestore (.found {} true))).map durableTokens =
        some (replicate 4 (1, "first") ++ replicate 6 (2, "second")) := by
    decide +kernel
  obtain ⟨⟨last, past⟩, ran, tokens⟩ := map_eq_some_iff.mp finished
  refine ⟨last, past, ran, tokens, ?_⟩
  exact generations_in_order sampleConfig "cdx" Host.sampleHost last past _ sampleHost_begins
    (by decide +kernel) ran

/-- A thread without a history is restored with a fresh view, and the service, which has forgotten
the workspace, starts over at generation 1: below what was durable after a write, and without one
at the same generation with another token. -/
theorem restore_starts_over :
    (∃ last past, Runs.run (pastStep sampleConfig "cdx") ({ host := Host.sampleHost }, [])
        (sampleWrite ++ sampleRestore (.failed true false none)) = some (last, past) ∧
      durableTokens (last, past) =
        List.replicate 4 (1, "first") ++ List.replicate 5 (2, "second") ++ [(1, "third")]) ∧
    ∃ last past, Runs.run (pastStep sampleConfig "cdx") ({ host := Host.sampleHost }, [])
        (sampleWrite.head?.toList ++ sampleWrite.getLast?.toList ++
          sampleRestore (.failed true false none)) = some (last, past) ∧
      durableTokens (last, past) = List.replicate 4 (1, "first") ++ [(1, "third")] := by
  have finished : ∀ labels tokens,
      (Runs.run (pastStep sampleConfig "cdx") ({ host := Host.sampleHost }, []) labels).map
        durableTokens = some tokens →
      ∃ last past, Runs.run (pastStep sampleConfig "cdx") ({ host := Host.sampleHost }, []) labels =
        some (last, past) ∧ durableTokens (last, past) = tokens := by
    intro labels tokens mapped
    obtain ⟨⟨last, past⟩, ran, same⟩ := map_eq_some_iff.mp mapped
    exact ⟨last, past, ran, same⟩
  constructor
  · apply finished
    decide +kernel
  · apply finished
    decide +kernel

end CodexRemote.Generations
