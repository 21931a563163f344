import CodexRemote.AppServer
import Mathlib.Algebra.BigOperators.Group.Finset.Basic
import Mathlib.Algebra.Order.BigOperators.Group.Finset

/-!
# Calls under the commit lock

Restore or `ForgetCodex` waits for an answer while it holds the commit lock. `RunEvents`
waits for the lock, the queues behind it fill up, and once all of them are full `readLoop`
can no longer read the answer.

All that is needed for this is enough notifications ahead of the answer: the three queues,
one message in each goroutine between them, and one each in `readLoop` and `RunEvents`.
With fewer than that on their way the cycle cannot close. With that many it does, and then
nothing but the end of the caller's context, of the connection or of the runtime opens it.
-/
namespace CodexRemote.AppServer

open Function BoundedQueue Finset World Connection
open List (length_nil length_singleton)
open Option (toList_none toList_some)

variable {connection : Connection} {next world : World} {c i c' j : Nat}

/-- Messages of the connection that are on their way to the event loop. -/
def Connection.load (connection : Connection) : Nat :=
  connection.wire.countP (fun message => !message.isResponse) +
    connection.reading.toList.length + connection.incoming.length +
    connection.consuming.toList.length + connection.events.length +
    connection.forwarding.toList.length

def EventLoop.load : EventLoop → Nat
  | .handling _ | .locking _ | .committing _ => 1
  | .unstarted | .idle | .ended => 0

/-- Messages that were sent and are not handled yet. -/
def World.inFlight (world : World) : Nat :=
  ∑ c ∈ Finset.range world.opened, (world.connections c).load + world.events.length +
    world.eventLoop.load

def Move.sends : Move → Nat
  | .send message => if message.isResponse then 0 else 1
  | _ => 0

/-- Messages for the event loop that the app-server sends with a step. -/
def Label.sends : Label → Nat
  | .move _ taken => taken.sends
  | _ => 0

/-- The app-server sends a message for the event loop only while fewer than `bound` of
them are on their way. -/
def Throttled (bound : Nat) (world : World) (label : Label) : Prop :=
  label.sends = 0 ∨ world.inFlight < bound

instance (bound : Nat) (world : World) (label : Label) :
    Decidable (Throttled bound world label) :=
  inferInstanceAs (Decidable (_ ∨ _))

theorem Connection.close_load (connection : Connection) :
    connection.close.load ≤ connection.load := by
  simp only [load, close, List.countP_nil]
  omega

/-- On the way through a connection nothing is added but what is sent. -/
theorem Connection.Moves.load_le {next : Connection} {stopped : Bool} {move : Move}
    (moves : connection.Moves stopped move next) : next.load ≤ connection.load + move.sends := by
  cases moves with
  | sent message isOpen =>
    simp only [load, Move.sends, List.countP_append, List.countP_singleton]
    cases message.isResponse
    all_goals
      simp only [Bool.not_true, Bool.not_false, if_true, Bool.false_eq_true, if_false]
      omega
  | dropped isDone | abandoned isStopped =>
    simp only [load, toList_none, length_nil]
    omega
  | enqueued message incoming held pushed | emitted message events held pushed =>
    have longer := push_length pushed
    simp only [load, held, longer, toList_some, toList_none,
      length_singleton, length_nil]
    omega
  | consumed message incoming free popped | forwarded message events free popped =>
    have shorter := pop_length popped
    simp only [load, free, shorter, toList_some, toList_none,
      length_singleton, length_nil]
    omega
  | closed => exact connection.close_load.trans (Nat.le_add_right _ _)

/-- Connections that are not made yet are empty, and calls are on those that are. -/
structure Sound (world : World) : Prop where
  fresh : ∀ c, world.opened ≤ c → world.connections c = {}
  calls : ∀ i operation calls c id answered,
    world.tasks i = .calling operation calls c id answered → c < world.opened

theorem Sound.known (sound : Sound world) (used : world.connections c ≠ {}) : c < world.opened := by
  by_contra unknown
  exact used (sound.fresh c (not_lt.mp unknown))

/-- A connection that exists changes, and a task that calls, calls on one that exists. -/
theorem Sound.set (sound : Sound world) (known : c < world.opened)
    (opened : next.opened = world.opened)
    (connections : next.connections = update world.connections c connection)
    (calls : ∀ i operation calls c id answered,
      next.tasks i = .calling operation calls c id answered → c < world.opened) : Sound next := by
  constructor
  · intro c' unknown
    rw [opened] at unknown
    rw [connections, update_of_ne (known.trans_le unknown).ne']
    exact sound.fresh c' unknown
  · rw [opened]
    exact calls

/-- The connections stay, and a task that calls, calls on one that exists. -/
theorem Sound.frame (sound : Sound world) (opened : world.opened ≤ next.opened)
    (connections : next.connections = world.connections) (calls : ∀ i operation calls c id answered,
      next.tasks i = .calling operation calls c id answered → c < world.opened) : Sound next := by
  constructor
  · intro c unknown
    rw [connections]
    exact sound.fresh c (opened.trans unknown)
  · intro i operation count c id answered task
    exact (calls i operation count c id answered task).trans_le opened

/-- Another task does not call. -/
theorem Sound.calls_set (sound : Sound world)
    (known : ∀ operation calls c id answered, task = .calling operation calls c id answered →
      c < world.opened) (j : Nat) (operation : Operation) (calls c : Nat) (id : String)
    (answered : Bool)
    (found : update world.tasks i task j = .calling operation calls c id answered) :
    c < world.opened := by
  by_cases same : j = i
  · rw [same, update_self] at found
    exact known operation calls c id answered found
  · rw [update_of_ne same] at found
    exact sound.calls j operation calls c id answered found

/-- `Client.Call` changes its connection and its task. -/
theorem call_eq (world : World) (i : Nat) (operation : Operation) (calls c : Nat)
    (writes : Bool) : ∃ connection task,
      world.call i operation calls c writes = (world.setConnection c connection).setTask i task ∧
      connection.load ≤ (world.connections c).load ∧
      ∀ operation' calls' c' id answered,
        task = .calling operation' calls' c' id answered → c' = c := by
  unfold call
  dsimp only
  split
  · refine ⟨world.connections c, .working operation (calls + 1), ?_, le_rfl, by simp⟩
    rw [setConnection, update_eq_self]
  split
  · refine ⟨_, _, rfl, le_rfl, ?_⟩
    rintro operation' calls' c' id answered ⟨⟩
    rfl
  · exact ⟨_, _, rfl, close_load _, by simp⟩

theorem Sound.taskMoves {step : TaskStep} (sound : Sound world)
    (moves : TaskMoves world i step next) : Sound next := by
  cases moves with
  | locking | acquired | resumed | finished =>
    exact sound.frame le_rfl rfl (sound.calls_set (by simp))
  | released operation =>
    refine sound.frame le_rfl rfl (sound.calls_set ?_)
    cases operation <;> simp [Operation.released]
  | called operation calls c writes was known may =>
    obtain ⟨connection, task, effect, -, same⟩ := call_eq world i operation calls c writes
    rw [effect]
    refine sound.set known rfl rfl (sound.calls_set ?_)
    intro operation' calls' c' id answered called
    rw [same operation' calls' c' id answered called]
    exact known
  | canceled operation calls c id answered was | disconnected operation calls c id answered was =>
    exact sound.set (sound.calls i operation calls c id answered was) rfl rfl
      (sound.calls_set (by simp))

theorem Sound.delivered (sound : Sound world) (known : c < world.opened) (id : String) :
    Sound (world.deliver c id) := by
  rcases deliver_cases world c id with same | removed | ⟨i, operation, calls, was, answered⟩
  · rw [same]
    exact sound
  · rw [removed]
    exact sound.set known rfl rfl sound.calls
  rw [answered]
  refine sound.set known rfl rfl (sound.calls_set ?_)
  rintro operation' calls' c' id' answered' ⟨⟩
  exact known

theorem step_sound (world : World) (label : Label) (next : World) (sound : Sound world)
    (stepped : step world label = some next) : Sound next := by
  cases step_moves world next label stepped with
  | connected => exact sound.frame (Nat.le_succ _) rfl sound.calls
  | moved c move connection known moves => exact sound.set known rfl rfl sound.calls
  | answered c message rest free wire response =>
    have known : c < world.opened := sound.known fun fresh => by simp [fresh] at wire
    have read : Sound (world.setConnection c { world.connections c with wire := rest }) :=
      sound.set known rfl rfl sound.calls
    exact read.delivered known _
  | received c message rest free wire event =>
    have known : c < world.opened := sound.known fun fresh => by simp [fresh] at wire
    exact sound.set known rfl rfl sound.calls
  | published c event events held pushed =>
    have known : c < world.opened := sound.known fun fresh => by simp [fresh] at held
    exact sound.set known rfl rfl sound.calls
  | events step next moves => cases moves <;> exact sound.frame le_rfl rfl sound.calls
  | spawned i operation unused => exact sound.frame le_rfl rfl (sound.calls_set (by simp))
  | task i step next moves => exact sound.taskMoves moves
  | stopped => exact sound.frame le_rfl rfl sound.calls

/-- One connection changes, and the rest of the way by what it passes on. -/
theorem inFlight_set (sent : Nat) (known : c < world.opened) (opened : next.opened = world.opened)
    (connections : next.connections = update world.connections c connection)
    (less : connection.load + next.events.length + next.eventLoop.load ≤
      (world.connections c).load + world.events.length + world.eventLoop.load + sent) :
    next.inFlight ≤ world.inFlight + sent := by
  have member : c ∈ range world.opened := mem_range.mpr known
  have others : ∑ other ∈ (range world.opened).erase c, (next.connections other).load =
      ∑ other ∈ (range world.opened).erase c, (world.connections other).load := by
    apply sum_congr rfl
    intro other erased
    rw [connections, update_of_ne (ne_of_mem_erase erased)]
  have before := add_sum_erase _ (fun other => (world.connections other).load) member
  have after := add_sum_erase _ (fun other => (next.connections other).load) member
  have itself : next.connections c = connection := by rw [connections, update_self]
  rw [itself, others] at after
  simp only [inFlight, opened]
  omega

/-- The connections stay. -/
theorem inFlight_frame (opened : next.opened = world.opened)
    (connections : next.connections = world.connections)
    (less : next.events.length + next.eventLoop.load ≤
      world.events.length + world.eventLoop.load) : next.inFlight ≤ world.inFlight := by
  simp only [inFlight, opened, connections]
  omega

theorem taskMoves_inFlight {step : TaskStep} (sound : Sound world)
    (moves : TaskMoves world i step next) : next.inFlight ≤ world.inFlight := by
  cases moves with
  | locking | acquired | released | resumed | finished => exact inFlight_frame rfl rfl le_rfl
  | called operation calls c writes was known may =>
    obtain ⟨connection, task, effect, less, -⟩ := call_eq world i operation calls c writes
    rw [effect]
    refine inFlight_set 0 known rfl rfl ?_
    change connection.load + world.events.length + world.eventLoop.load ≤ _
    omega
  | canceled operation calls c id answered was | disconnected operation calls c id answered was =>
    exact inFlight_set 0 (sound.calls i operation calls c id answered was) rfl rfl le_rfl

theorem deliver_inFlight (world : World) (c : Nat) (known : c < world.opened) (id : String) :
    (world.deliver c id).inFlight ≤ world.inFlight := by
  rcases deliver_cases world c id with same | removed | ⟨i, operation, calls, was, answered⟩
  · rw [same]
  · rw [removed]
    exact inFlight_set 0 known rfl rfl le_rfl
  · rw [answered]
    exact inFlight_set 0 known rfl rfl le_rfl

theorem eventMoves_inFlight {step : EventStep} (moves : EventMoves world step next) :
    next.inFlight ≤ world.inFlight := by
  cases moves with
  | taken event events was popped =>
    have shorter := pop_length popped
    refine inFlight_frame rfl rfl ?_
    rw [was, shorter]
    rfl
  | started was | locking event was | acquired event was | released event was
  | handled event was | stopped was =>
    refine inFlight_frame rfl rfl ?_
    rw [was]
    simp [EventLoop.load]

variable {world : World}

/-- Nothing gets on its way but what the app-server sends. -/
theorem step_inFlight {next : World} (sound : Sound world)
    (stepped : step world label = some next) :
    next.inFlight ≤ world.inFlight + label.sends := by
  cases step_moves world next label stepped with
  | connected =>
    have empty : (world.connections world.opened).load = 0 := by
      rw [sound.fresh _ le_rfl]
      rfl
    simp only [inFlight, sum_range_succ, empty]
    exact Nat.le_add_right _ _
  | moved c move connection known moves =>
    refine inFlight_set _ known rfl rfl ?_
    have less := moves.load_le
    change connection.load + world.events.length + world.eventLoop.load ≤
      (world.connections c).load + world.events.length + world.eventLoop.load + move.sends
    omega
  | answered c message rest free wire response =>
    have known : c < world.opened := sound.known fun fresh => by simp [fresh] at wire
    have read : (world.setConnection c { world.connections c with wire := rest }).inFlight ≤
        world.inFlight := by
      refine inFlight_set 0 known rfl rfl ?_
      simp [setConnection, load, wire, response]
    have delivered := deliver_inFlight
      (world.setConnection c { world.connections c with wire := rest }) c known
      (message.id.getD "")
    exact Nat.le_add_right_of_le (delivered.trans read)
  | received c message rest free wire event =>
    have known : c < world.opened := sound.known fun fresh => by simp [fresh] at wire
    refine Nat.le_add_right_of_le (inFlight_set 0 known rfl rfl ?_)
    simp only [setConnection, load, wire, free, event, List.countP_cons,
      toList_some, toList_none, length_singleton, length_nil,
      Bool.not_false, if_true]
    omega
  | published c event events held pushed =>
    have known : c < world.opened := sound.known fun fresh => by simp [fresh] at held
    have longer := push_length pushed
    refine Nat.le_add_right_of_le (inFlight_set 0 known rfl rfl ?_)
    simp only [setConnection, load, held, longer, toList_some,
      toList_none, length_singleton, length_nil]
    omega
  | events step next moves => exact Nat.le_add_right_of_le (eventMoves_inFlight moves)
  | task i step next moves => exact Nat.le_add_right_of_le (taskMoves_inFlight sound moves)
  | spawned | stopped => exact Nat.le_add_right_of_le (inFlight_frame rfl rfl le_rfl)

/-- `readLoop` is blocked on a full queue, and the one behind `consume` is full as well. -/
structure Connection.Jammed (connection : Connection) : Prop where
  reading : connection.reading.isSome
  incoming : connection.incoming.Full
  adapter : connection.events.Full

/-- The goroutines between the queues are blocked as well, and the connection is not
closed. -/
structure Connection.Blocked (connection : Connection) : Prop extends connection.Jammed where
  consuming : connection.consuming.isSome
  forwarding : connection.forwarding.isSome
  isOpen : connection.done = false

/-- Restore or `ForgetCodex` holds the commit lock and waits for an answer on the
connection. `RunEvents` waits for the lock in front of a full queue. -/
structure WaitsAt (world : World) (i c : Nat) : Prop where
  held : world.lock = some (.task i)
  calling : ∃ operation calls id, (operation = .restore ∨ operation = .forgetCodex) ∧
    world.tasks i = .calling operation calls c id false
  runtime : world.events.Full
  waiting : ∃ event, world.eventLoop = .locking event

/-- The cycle of waits is closed as far as locks and queues go. -/
def Jammed (world : World) : Prop :=
  ∃ i c, WaitsAt world i c ∧ (world.connections c).Jammed

/-- No goroutine of the cycle can go on. -/
structure StuckAt (world : World) (i c : Nat) : Prop where
  waits : WaitsAt world i c
  blocked : (world.connections c).Blocked
  running : world.stopped = false

def Stuck (world : World) : Prop := ∃ i c, StuckAt world i c

theorem load_le_inFlight (known : c < world.opened) :
    (world.connections c).load + world.events.length + world.eventLoop.load ≤
      world.inFlight := by
  have single : (world.connections c).load ≤
      ∑ c ∈ range world.opened, (world.connections c).load :=
    single_le_sum (f := fun c => (world.connections c).load) (fun _ _ => Nat.zero_le _)
      (mem_range.mpr known)
  unfold inFlight
  omega

theorem length_toList_of_isSome {held : Option Message} (isSome : held.isSome) :
    held.toList.length = 1 := by
  obtain ⟨message, rfl⟩ := Option.isSome_iff_exists.mp isSome
  rfl

/-- The queues and those who wait hold this many messages, not counting the goroutines
between the queues. -/
theorem WaitsAt.inFlight (waits : WaitsAt world i c) (sound : Sound world)
    (jammed : (world.connections c).Jammed) :
    514 + (world.connections c).consuming.toList.length +
      (world.connections c).forwarding.toList.length ≤ world.inFlight := by
  obtain ⟨operation, calls, id, -, task⟩ := waits.calling
  obtain ⟨event, waiting⟩ := waits.waiting
  have total := load_le_inFlight (sound.calls i operation calls c id false task)
  have reading := length_toList_of_isSome jammed.reading
  have incoming : (world.connections c).incoming.length = 128 := jammed.incoming
  have adapter : (world.connections c).events.length = 128 := jammed.adapter
  have runtime : world.events.length = 256 := waits.runtime
  have loop : (EventLoop.locking event).load = 1 := rfl
  rw [waiting, runtime, load, reading, incoming, adapter, loop] at total
  omega

theorem Label.sends_le_one (label : Label) : label.sends ≤ 1 := by
  cases label with
  | move c taken =>
    cases taken with
    | send message =>
      simp only [Label.sends, Move.sends]
      split
      · exact Nat.zero_le _
      · exact le_rfl
    | enqueue | drop | consume | emit | forward | abandon | close => exact Nat.zero_le _
  | connect | read | publish | events | spawn | task | stop => exact Nat.zero_le _

/-- The Host before it connects. -/
def initial : World := {}

/-- Throttled sending bounds what is on its way. -/
theorem throttled_inFlight (reached : Runs.Reaches step (Throttled bound) initial world) :
    Sound world ∧ world.inFlight ≤ bound := by
  refine reached.invariant (fun world => Sound world ∧ world.inFlight ≤ bound) ?_ ?_
  · rintro world label next ⟨sound, below⟩ throttled stepped
    refine ⟨step_sound world label next sound stepped, ?_⟩
    have grows := step_inFlight sound stepped
    rcases throttled with silent | room
    · omega
    · have one := label.sends_le_one
      omega
  · refine ⟨⟨fun _ _ => rfl, ?_⟩, Nat.zero_le _⟩
    simp [initial]

/-- The steps that end a caller's context, a connection or the runtime. -/
def Label.interrupts : Label → Bool
  | .task _ .cancel | .task _ (.call _ false) | .move _ .close | .stop => true
  | _ => false

/-- A step that leaves the lock, the caller and the runtime's queue alone. -/
theorem StuckAt.put {connections : Nat → Connection} {opened : Nat} {tasks : Nat → Task}
    (stuck : StuckAt world i c) (task : tasks i = world.tasks i)
    (blocked : (connections c).Blocked) :
    StuckAt { world with connections := connections, opened := opened, tasks := tasks } i c := by
  refine ⟨{ stuck.waits with calling := ?_ }, blocked, stuck.running⟩
  simpa only [task] using stuck.waits.calling

theorem blocked_update {connections : Nat → Connection} (blocked : (connections c).Blocked)
    (changed : c' = c → connection.Blocked) : (update connections c' connection c).Blocked := by
  by_cases same : c' = c
  · subst same
    rw [update_self]
    exact changed rfl
  · rw [update_of_ne (Ne.symm same)]
    exact blocked

/-- All that can happen on a blocked connection is that it is closed or that more is
sent. -/
theorem Connection.Blocked.moves {next : Connection} {move : Move} (blocked : connection.Blocked)
    (moves : connection.Moves false move next) (stays : move ≠ .close) : next.Blocked := by
  cases moves with
  | sent message isOpen =>
    exact ⟨{ blocked with }, blocked.consuming,
      blocked.forwarding, blocked.isOpen⟩
  | enqueued message incoming held pushed =>
    rw [push_of_full _ blocked.incoming] at pushed
    cases pushed
  | dropped isDone =>
    rw [blocked.isOpen] at isDone
    cases isDone
  | consumed message incoming free popped =>
    have holds := blocked.consuming
    rw [free] at holds
    cases holds
  | emitted message events held pushed =>
    rw [push_of_full _ blocked.adapter] at pushed
    cases pushed
  | forwarded message events free popped =>
    have holds := blocked.forwarding
    rw [free] at holds
    cases holds
  | abandoned isStopped => cases isStopped
  | closed => exact absurd rfl stays

/-- The entries of waiting calls play no part in a blocked connection. -/
theorem Connection.Blocked.pending (blocked : connection.Blocked) (pending : String → Option Nat)
    (nextID : Nat) : Connection.Blocked { connection with pending := pending, nextID := nextID } :=
  ⟨{ blocked with }, blocked.consuming,
    blocked.forwarding, blocked.isOpen⟩

section

variable (stuck : StuckAt world i c)
include stuck

/-- Another task and its connection change. -/
theorem StuckAt.setTask (other : i ≠ j) (changed : c' = c → connection.Blocked) :
    StuckAt ((world.setConnection c' connection).setTask j task) i c :=
  stuck.put (update_of_ne other _ _) (blocked_update stuck.blocked changed)

theorem StuckAt.called (other : i ≠ j) : StuckAt (world.call j operation calls c' true) i c := by
  unfold call
  dsimp only
  split
  · exact stuck.put (update_of_ne other _ _) stuck.blocked
  rw [if_pos rfl]
  apply stuck.setTask other
  rintro rfl
  exact stuck.blocked.pending _ _

theorem StuckAt.gaveUp {id : String} (other : i ≠ j) :
    StuckAt (world.giveUp j operation calls c' id) i c := by
  apply stuck.setTask other
  rintro rfl
  exact stuck.blocked.pending _ _

theorem StuckAt.taskMoves {step : TaskStep}
    (moves : TaskMoves world j step next) (stays : (Label.task j step).interrupts = false) :
    StuckAt next i c := by
  obtain ⟨operation, calls, id, -, task⟩ := stuck.waits.calling
  -- Whoever does something else than wait for an answer is not the caller.
  have other : world.tasks j ≠ world.tasks i → i ≠ j := by
    rintro different rfl
    exact different rfl
  cases moves with
  | locking _ _ was | resumed _ _ _ _ was | finished _ _ was =>
    have apart := other (by simp [was, task])
    exact stuck.put (update_of_ne apart _ _) stuck.blocked
  | acquired _ _ was free =>
    rw [stuck.waits.held] at free
    cases free
  | released _ _ was held =>
    rw [stuck.waits.held] at held
    cases held
    simp [was] at task
  | called _ _ c' writes was known may =>
    have apart := other (by simp [was, task])
    cases writes with
    | true => exact stuck.called apart
    | false => cases stays
  | canceled => cases stays
  | disconnected _ _ c' _ _ was isDone =>
    have apart : i ≠ j := by
      rintro rfl
      rw [task] at was
      cases was
      rw [stuck.blocked.isOpen] at isDone
      cases isDone
    exact stuck.gaveUp apart

theorem StuckAt.delivered (other : c' ≠ c) (id : String) :
    StuckAt (world.deliver c' id) i c := by
  rcases deliver_cases world c' id with same | removed | ⟨j, operation, calls, was, answered⟩
  · rw [same]
    exact stuck
  · rw [removed]
    exact stuck.put rfl (blocked_update stuck.blocked fun same => absurd same other)
  · rw [answered]
    refine stuck.setTask ?_ fun same => absurd same other
    rintro rfl
    obtain ⟨operation', calls', id', -, task⟩ := stuck.waits.calling
    rw [task] at was
    cases was
    exact other rfl

end

/-- Once it is closed, the cycle stays closed until a context, the connection or the
runtime ends. -/
theorem step_stuck {next : World} (stuck : StuckAt world i c) (stays : label.interrupts = false)
    (stepped : step world label = some next) :
    StuckAt next i c := by
  have elsewhere : ∀ c', (world.connections c').reading = none → c' ≠ c := by
    rintro c' free rfl
    have holds := stuck.blocked.reading
    rw [free] at holds
    cases holds
  cases step_moves world next label stepped with
  | connected => exact stuck.put rfl stuck.blocked
  | moved c' move connection known moves =>
    refine stuck.put rfl (blocked_update stuck.blocked ?_)
    rintro rfl
    rw [stuck.running] at moves
    apply stuck.blocked.moves moves
    rintro rfl
    cases stays
  | answered c' message rest free wire response =>
    have apart := elsewhere c' free
    have read : StuckAt (world.setConnection c' { world.connections c' with wire := rest }) i c :=
      stuck.put rfl (blocked_update stuck.blocked fun same => absurd same apart)
    exact read.delivered apart _
  | received c' message rest free wire event =>
    have apart := elsewhere c' free
    exact stuck.put rfl (blocked_update stuck.blocked fun same => absurd same apart)
  | published c' event events held pushed =>
    rw [push_of_full _ stuck.waits.runtime] at pushed
    cases pushed
  | events step next moves =>
    obtain ⟨event, waiting⟩ := stuck.waits.waiting
    cases moves with
    | acquired _ _ free =>
      rw [stuck.waits.held] at free
      cases free
    | started was | taken _ _ was | locking _ was | released _ was | handled _ was
    | stopped was =>
      rw [waiting] at was
      cases was
  | spawned j operation unused =>
    obtain ⟨operation', calls, id, -, task⟩ := stuck.waits.calling
    have apart : i ≠ j := by
      rintro rfl
      rw [task] at unused
      cases unused
    exact stuck.put (update_of_ne apart _ _) stuck.blocked
  | task j step next moves => exact stuck.taskMoves moves stays
  | stopped => cases stays

/-- A piece of an answer as it is written. -/
def delta : Message := { id := none, method := "item/agentMessage/delta" }

/-- How far the way is filled with deltas. -/
structure Flow where
  wire : List Message := []
  reading : Option Message := none
  incoming : Nat := 0
  consuming : Option Message := none
  adapter : Nat := 0
  forwarding : Option Message := none
  runtime : Nat := 0

/-- The first connection of a world, filled. -/
def World.flowing (base : World) (flow : Flow) : World :=
  { base.setConnection 0 { base.connections 0 with
      wire := flow.wire
      reading := flow.reading
      incoming := .copies flow.incoming delta
      consuming := flow.consuming
      events := .copies flow.adapter delta
      forwarding := flow.forwarding
      returned := false
      done := false } with
    events := .copies flow.runtime delta }

/-- Restore waits for its first answer on the only connection, and `RunEvents` for the
lock. -/
structure Waiting (base : World) : Prop where
  opened : base.opened = 1
  held : base.lock = some (.task 1)
  calling : ∃ id, base.tasks 1 = .calling .restore 1 0 id false
  eventLoop : base.eventLoop = .locking delta
  running : base.stopped = false

section Filling

variable {base : World} (waiting : Waiting base) (flow : Flow) {bound : Nat}
include waiting

theorem flowing_inFlight (incoming : flow.incoming ≤ incomingCapacity)
    (adapter : flow.adapter ≤ adapterCapacity) (runtime : flow.runtime ≤ runtimeCapacity) :
    (base.flowing flow).inFlight = flow.wire.countP (fun message => !message.isResponse) +
      flow.reading.toList.length + flow.incoming + flow.consuming.toList.length +
      flow.adapter + flow.forwarding.toList.length + flow.runtime + 1 := by
  have opened : (base.flowing flow).opened = 1 := waiting.opened
  have loop : (base.flowing flow).eventLoop.load = 1 := by
    change base.eventLoop.load = 1
    rw [waiting.eventLoop]
    rfl
  have queue : (base.flowing flow).events.length = flow.runtime :=
    length_copies _ runtime
  have connection : ((base.flowing flow).connections 0).load =
      flow.wire.countP (fun message => !message.isResponse) + flow.reading.toList.length +
      flow.incoming + flow.consuming.toList.length + flow.adapter +
      flow.forwarding.toList.length := by
    simp only [flowing, setConnection, update_self, load,
      length_copies _ incoming, length_copies _ adapter]
  rw [inFlight, opened, sum_range_one, connection, loop, queue]

/-- A move of the first connection. -/
theorem flowing_move (move : Move) (next : Flow)
    (moved : ((base.flowing flow).connections 0).move false move =
      some ((base.flowing next).connections 0)) (runtime : next.runtime = flow.runtime) :
    step (base.flowing flow) (.move 0 move) = some (base.flowing next) := by
  have known : 0 < (base.flowing flow).opened := by
    change 0 < base.opened
    rw [waiting.opened]
    exact Nat.zero_lt_one
  have running : (base.flowing flow).stopped = false := waiting.running
  simp only [step]
  rw [if_pos known, running, moved, Option.map_some]
  simp only [flowing, setConnection, update_self, update_idem, runtime]

theorem flowing_send :
    step (base.flowing flow) (.move 0 (.send delta)) =
      some (base.flowing { flow with wire := flow.wire ++ [delta] }) := by
  apply flowing_move waiting
  · simp [flowing, setConnection, move]
  · rfl

omit waiting in
theorem flowing_read (wire : flow.wire = [delta]) (free : flow.reading = none) :
    step (base.flowing flow) (.read 0) =
      some (base.flowing { flow with wire := [], reading := some delta }) := by
  have event : delta.isResponse = false := by decide
  simp [step, World.read, World.flowing, World.setConnection, wire, free, event]

theorem flowing_enqueue (held : flow.reading = some delta)
    (room : flow.incoming < incomingCapacity) :
    step (base.flowing flow) (.move 0 .enqueue) =
      some (base.flowing { flow with reading := none, incoming := flow.incoming + 1 }) := by
  apply flowing_move waiting
  · simp [flowing, setConnection, move, held, push_copies _ room]
  · rfl

theorem flowing_consume (incoming : Nat) (some_incoming : flow.incoming = incoming + 1)
    (fits : incoming < incomingCapacity) (free : flow.consuming = none) :
    step (base.flowing flow) (.move 0 .consume) =
      some (base.flowing { flow with consuming := some delta, incoming := incoming }) := by
  apply flowing_move waiting
  · simp [flowing, setConnection, move, free, some_incoming,
      pop_copies _ fits]
  · rfl

theorem flowing_emit (held : flow.consuming = some delta) (room : flow.adapter < adapterCapacity) :
    step (base.flowing flow) (.move 0 .emit) =
      some (base.flowing { flow with consuming := none, adapter := flow.adapter + 1 }) := by
  apply flowing_move waiting
  · simp [flowing, setConnection, move, held, push_copies _ room]
  · rfl

theorem flowing_forward (adapter : Nat) (some_adapter : flow.adapter = adapter + 1)
    (fits : adapter < adapterCapacity) (free : flow.forwarding = none) :
    step (base.flowing flow) (.move 0 .forward) =
      some (base.flowing { flow with forwarding := some delta, adapter := adapter }) := by
  apply flowing_move waiting
  · simp [flowing, setConnection, move, free, some_adapter,
      pop_copies _ fits]
  · rfl

omit waiting in
theorem flowing_publish (held : flow.forwarding = some delta)
    (room : flow.runtime < runtimeCapacity) :
    step (base.flowing flow) (.publish 0) =
      some (base.flowing { flow with forwarding := none, runtime := flow.runtime + 1 }) := by
  simp [step, publish, flowing, setConnection, held, push_copies _ room]

/-- One more delta arrives. -/
theorem reaches_reading (incoming adapter runtime : Nat) (consuming forwarding : Option Message)
    (room : (base.flowing ⟨[], none, incoming, consuming, adapter, forwarding,
      runtime⟩).inFlight < bound) :
    Runs.Reaches step (Throttled bound)
      (base.flowing ⟨[], none, incoming, consuming, adapter, forwarding, runtime⟩)
      (base.flowing ⟨[], some delta, incoming, consuming, adapter, forwarding, runtime⟩) :=
  .head _ (.inr room) (flowing_send waiting _)
    (.head _ (.inl rfl) (flowing_read _ rfl rfl) (.refl _))

/-- One more delta comes to lie in `incoming`. -/
theorem reaches_incoming (incoming adapter runtime : Nat) (consuming forwarding : Option Message)
    (fits : incoming < 128)
    (room : (base.flowing ⟨[], none, incoming, consuming, adapter, forwarding,
      runtime⟩).inFlight < bound) :
    Runs.Reaches step (Throttled bound)
      (base.flowing ⟨[], none, incoming, consuming, adapter, forwarding, runtime⟩)
      (base.flowing ⟨[], none, incoming + 1, consuming, adapter, forwarding, runtime⟩) :=
  (reaches_reading waiting incoming adapter runtime consuming forwarding room).trans
    (.head _ (.inl rfl) (flowing_enqueue waiting _ rfl fits) (.refl _))

/-- One more delta comes to lie in the adapter's queue. -/
theorem reaches_adapter (adapter runtime : Nat) (fits : adapter < 128)
    (room : (base.flowing ⟨[], none, 0, none, adapter, none, runtime⟩).inFlight < bound) :
    Runs.Reaches step (Throttled bound)
      (base.flowing ⟨[], none, 0, none, adapter, none, runtime⟩)
      (base.flowing ⟨[], none, 0, none, adapter + 1, none, runtime⟩) :=
  (reaches_incoming waiting 0 adapter runtime none none (by decide) room).trans
    (.head _ (.inl rfl) (flowing_consume waiting _ 0 rfl (by decide) rfl)
      (.head _ (.inl rfl) (flowing_emit waiting _ rfl fits) (.refl _)))

/-- One more delta comes to lie in the runtime's queue. -/
theorem reaches_runtime (runtime : Nat) (fits : runtime < 256)
    (room : (base.flowing ⟨[], none, 0, none, 0, none, runtime⟩).inFlight < bound) :
    Runs.Reaches step (Throttled bound) (base.flowing ⟨[], none, 0, none, 0, none, runtime⟩)
      (base.flowing ⟨[], none, 0, none, 0, none, runtime + 1⟩) :=
  (reaches_adapter waiting 0 runtime (by decide) room).trans
    (.head _ (.inl rfl) (flowing_forward waiting _ 0 rfl (by decide) rfl)
      (.head _ (.inl rfl) (flowing_publish _ rfl fits) (.refl _)))

/-- The queues fill up one after the other, the last one first. -/
theorem reaches_jam (enough : 514 ≤ bound) :
    Runs.Reaches step (Throttled bound) (base.flowing {})
      (base.flowing ⟨[], some delta, 128, none, 128, none, 256⟩) := by
  have last : Runs.Reaches step (Throttled bound) (base.flowing ⟨[], none, 0, none, 0, none, 0⟩)
      (base.flowing ⟨[], none, 0, none, 0, none, 256⟩) := by
    apply Runs.Reaches.iterate fun runtime =>
      base.flowing ⟨[], none, 0, none, 0, none, runtime⟩
    intro runtime fits
    apply reaches_runtime waiting runtime fits
    rw [flowing_inFlight waiting _ (Nat.zero_le _) (Nat.zero_le _) fits.le]
    change 0 + 0 + 0 + 0 + 0 + 0 + runtime + 1 < bound
    omega
  have middle : Runs.Reaches step (Throttled bound) (base.flowing ⟨[], none, 0, none, 0, none, 256⟩)
      (base.flowing ⟨[], none, 0, none, 128, none, 256⟩) := by
    apply Runs.Reaches.iterate fun adapter =>
      base.flowing ⟨[], none, 0, none, adapter, none, 256⟩
    intro adapter fits
    apply reaches_adapter waiting adapter 256 fits
    rw [flowing_inFlight waiting _ (Nat.zero_le _) fits.le le_rfl]
    change 0 + 0 + 0 + 0 + adapter + 0 + 256 + 1 < bound
    omega
  have first : Runs.Reaches step (Throttled bound)
      (base.flowing ⟨[], none, 0, none, 128, none, 256⟩)
      (base.flowing ⟨[], none, 128, none, 128, none, 256⟩) := by
    apply Runs.Reaches.iterate fun incoming =>
      base.flowing ⟨[], none, incoming, none, 128, none, 256⟩
    intro incoming fits
    apply reaches_incoming waiting incoming 128 256 none none fits
    rw [flowing_inFlight waiting _ fits.le le_rfl le_rfl]
    change 0 + 0 + incoming + 0 + 128 + 0 + 256 + 1 < bound
    omega
  refine ((last.trans middle).trans first).trans (reaches_reading waiting 128 128 256 none none ?_)
  rw [flowing_inFlight waiting _ le_rfl le_rfl le_rfl]
  change 0 + 0 + 128 + 0 + 128 + 0 + 256 + 1 < bound
  omega

/-- The goroutines between the queues take one message each, and two more arrive. -/
theorem reaches_stuck (enough : 516 ≤ bound) :
    Runs.Reaches step (Throttled bound) (base.flowing {})
      (base.flowing ⟨[], some delta, 128, some delta, 128, some delta, 256⟩) := by
  have moved : Runs.Reaches step (Throttled bound)
      (base.flowing ⟨[], some delta, 128, none, 128, none, 256⟩)
      (base.flowing ⟨[], none, 127, some delta, 128, some delta, 256⟩) :=
    .head _ (.inl rfl) (flowing_forward waiting _ 127 rfl (by decide) rfl)
      (.head _ (.inl rfl) (flowing_consume waiting _ 127 rfl (by decide) rfl)
        (.head _ (.inl rfl) (flowing_emit waiting _ rfl (by decide))
          (.head _ (.inl rfl) (flowing_consume waiting _ 126 rfl (by decide) rfl)
            (.head _ (.inl rfl) (flowing_enqueue waiting _ rfl (by decide)) (.refl _)))))
  refine (((reaches_jam waiting (by omega)).trans moved).trans
    (reaches_incoming waiting 127 128 256 (some delta) (some delta) (by decide) ?_)).trans
    (reaches_reading waiting 128 128 256 (some delta) (some delta) ?_)
  · rw [flowing_inFlight waiting _ (by decide) le_rfl le_rfl]
    change 0 + 0 + 127 + 1 + 128 + 1 + 256 + 1 < bound
    omega
  · rw [flowing_inFlight waiting _ le_rfl le_rfl le_rfl]
    change 0 + 0 + 128 + 1 + 128 + 1 + 256 + 1 < bound
    omega

/-- Whatever the goroutines hold, the waits are in place once the runtime's queue is
full. -/
theorem flowing_waits (full : flow.runtime = 256) : WaitsAt (base.flowing flow) 1 0 := by
  obtain ⟨id, calling⟩ := waiting.calling
  refine ⟨waiting.held, ⟨.restore, 1, id, .inl rfl, calling⟩, ?_, delta, waiting.eventLoop⟩
  exact (length_copies _ full.le).trans full

omit waiting in
theorem flowing_jammed (reading : flow.reading = some delta) (incoming : flow.incoming = 128)
    (adapter : flow.adapter = 128) : ((base.flowing flow).connections 0).Jammed := by
  simp only [flowing, setConnection, update_self]
  refine ⟨by simp [reading], ?_, ?_⟩
  · exact (length_copies _ incoming.le).trans incoming
  · exact (length_copies _ adapter.le).trans adapter

end Filling

/-- The Host restores, starts its event loop and restores again because the runtime is
ready. The second restore calls, a delta gets through, and its handling waits for the
lock. -/
def opening : List Label :=
  [.connect, .spawn 0 .restore, .task 0 .lock, .task 0 .acquire, .task 0 .release,
    .task 0 .finish, .events .start, .spawn 1 .restore, .task 1 .lock, .task 1 .acquire,
    .task 1 (.call 0 true), .move 0 (.send delta), .read 0, .move 0 .enqueue,
    .move 0 .consume, .move 0 .emit, .move 0 .forward, .publish 0, .events .take,
    .events .lock]

def afterOpening : World := (Runs.run step initial opening).getD initial

theorem afterOpening_waiting : Waiting afterOpening :=
  ⟨rfl, rfl, ⟨_, rfl⟩, rfl, rfl⟩

/-- A connection through which nothing is on its way. -/
structure Connection.Drained (connection : Connection) : Prop where
  wire : connection.wire = []
  reading : connection.reading = none
  incoming : connection.incoming.items = []
  consuming : connection.consuming = none
  adapter : connection.events.items = []
  forwarding : connection.forwarding = none
  returned : connection.returned = false
  done : connection.done = false

theorem flowing_drained {base : World} (drained : (base.connections 0).Drained)
    (events : base.events.items = []) : base.flowing {} = base := by
  have queue : ∀ {capacity : Nat} (queue : BoundedQueue Message capacity), queue.items = [] →
      .copies 0 delta = queue := by
    rintro capacity ⟨items, bounded⟩ rfl
    exact copies_zero delta
  have connection : (base.flowing {}).connections 0 = base.connections 0 := by
    simp only [flowing, setConnection, update_self,
      queue _ drained.incoming, queue _ drained.adapter]
    generalize base.connections 0 = connection at drained
    obtain ⟨wire, reading, incoming, consuming, adapter, forwarding, returned, done⟩ := drained
    cases connection
    simp_all
  have same : base.flowing {} = { base.setConnection 0 ((base.flowing {}).connections 0) with
      events := .copies 0 delta } := by
    simp only [flowing, setConnection, update_self]
  rw [same, connection, queue _ events, setConnection, update_eq_self]

theorem reaches_afterOpening (bound : Nat) (room : 0 < bound) :
    Runs.Reaches step (Throttled bound) initial (afterOpening.flowing {}) := by
  have once : Runs.Reaches step (Throttled 1) initial afterOpening := ⟨opening, by decide, rfl⟩
  rw [flowing_drained ⟨rfl, rfl, rfl, rfl, rfl, rfl, rfl, rfl⟩ rfl]
  apply once.mono
  rintro world label (silent | below)
  · exact .inl silent
  · exact .inr (below.trans_le room)

theorem StuckAt.jammed (stuck : StuckAt world i c) : Jammed world :=
  ⟨i, c, stuck.waits, stuck.blocked.toJammed⟩

/-- The way is filled up to the last place. -/
def filledUp : World :=
  afterOpening.flowing ⟨[], some delta, 128, some delta, 128, some delta, 256⟩

theorem filledUp_stuck : StuckAt filledUp 1 0 := by
  have jammed : (filledUp.connections 0).Jammed := flowing_jammed _ rfl rfl rfl
  refine ⟨flowing_waits afterOpening_waiting _ rfl, ⟨jammed, ?_, ?_, ?_⟩, ?_⟩
  · simp [filledUp, flowing, setConnection]
  · simp [filledUp, flowing, setConnection]
  · simp [filledUp, flowing, setConnection]
  · exact afterOpening_waiting.running

theorem reaches_filledUp (enough : 516 ≤ bound) :
    Runs.Reaches step (Throttled bound) initial filledUp :=
  (reaches_afterOpening bound (by omega)).trans (reaches_stuck afterOpening_waiting enough)

/-- Locks and queues cannot close the cycle if and only if at most 513 messages are on
their way at a time, and no goroutine of it gets stuck if and only if at most 515 are. -/
theorem cycle_open_iff (bound : Nat) :
    ((∀ world, Runs.Reaches step (Throttled bound) initial world → ¬ Jammed world) ↔
      bound ≤ 513) ∧
    ((∀ world, Runs.Reaches step (Throttled bound) initial world → ¬ Stuck world) ↔
      bound ≤ 515) := by
  refine ⟨⟨?_, ?_⟩, ⟨?_, ?_⟩⟩
  · intro never
    by_contra enough
    have reached := (reaches_afterOpening bound (by omega)).trans
      (reaches_jam afterOpening_waiting (by omega))
    exact never _ reached
      ⟨1, 0, flowing_waits afterOpening_waiting _ rfl, flowing_jammed _ rfl rfl rfl⟩
  · rintro few world reached ⟨i, c, waits, jammed⟩
    obtain ⟨sound, below⟩ := throttled_inFlight reached
    have many := waits.inFlight sound jammed
    omega
  · intro never
    by_contra enough
    exact never _ (reaches_filledUp (by omega)) ⟨1, 0, filledUp_stuck⟩
  · rintro few world reached ⟨i, c, stuck⟩
    obtain ⟨sound, below⟩ := throttled_inFlight reached
    have many := stuck.waits.inFlight sound stuck.blocked.toJammed
    rw [length_toList_of_isSome stuck.blocked.consuming,
      length_toList_of_isSome stuck.blocked.forwarding] at many
    omega

/-- With 516 notifications ahead of the answer, a restore and the event loop wait for each
other, and no step that leaves contexts, connection and runtime alone ends that. -/
theorem restore_waits_forever : ∃ labels world,
    Runs.run step initial labels = some world ∧ world.inFlight = 516 ∧ Jammed world ∧
    ∀ more last, (∀ label ∈ more, label.interrupts = false) →
      Runs.run step world more = some last → StuckAt last 1 0 := by
  obtain ⟨labels, -, ran⟩ := reaches_filledUp le_rfl
  refine ⟨labels, filledUp, ran, ?_, filledUp_stuck.jammed, ?_⟩
  · exact flowing_inFlight afterOpening_waiting _ le_rfl le_rfl le_rfl
  intro more last quiet ran
  refine Runs.run_invariant (StuckAt · 1 0) ?_ filledUp_stuck
    (Runs.meets_of_forall step filledUp quiet) ran
  intro world label next stuck stays stepped
  exact step_stuck stuck stays stepped

end CodexRemote.AppServer
