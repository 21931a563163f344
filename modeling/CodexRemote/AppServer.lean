import CodexRemote.Library.BoundedQueue
import CodexRemote.Library.Runs
import Mathlib.Logic.Function.Basic

/-!
# The way from the app-server to the event loop

`internal/adapter`, `internal/runtime` and the event loop of `internal/codex/manager.go`.
A message of the app-server is read by the connection's `readLoop`. The answer to a call
goes to the caller at once. Everything else passes four goroutines and three bounded
queues:

    readLoop → incoming → consume → events → forwardEvents → events → RunEvents

Each of the four holds at most one message while it waits for room behind it. `RunEvents`
takes the commit lock for every event.

Restore and `ForgetCodex` call the app-server while they hold the commit lock. Every other
operation calls without the lock, or locks without a call.

Connections are numbered in the order they are made. The forwarders of all of them put
into the one queue of the runtime. What a step leaves to its surroundings is part of its
label: what the app-server sends, whether a request can be written, and when contexts end.
-/
namespace CodexRemote.AppServer

open Function

/-- What `readLoop` and `consume` look at. -/
structure Message where
  id : Option String
  method : String
  deriving DecidableEq

/-- `readLoop` takes the message for the answer to a call. -/
def Message.isResponse (message : Message) : Bool := message.id.isSome ∧ message.method = ""

def incomingCapacity : Nat := 128

def adapterCapacity : Nat := 128

def runtimeCapacity : Nat := 256

/-- A `Client`, its `Adapter` and the runtime's forwarder. The wire holds what the
app-server has sent and `readLoop` has not read. -/
structure Connection where
  wire : List Message := []
  reading : Option Message := none
  incoming : BoundedQueue Message incomingCapacity := .empty
  consuming : Option Message := none
  events : BoundedQueue Message adapterCapacity := .empty
  forwarding : Option Message := none
  /-- `forwardEvents` has returned. -/
  returned : Bool := false
  pending : String → Option Nat := fun _ => none
  nextID : Nat := 0
  done : Bool := false

/-- `closeWithError`. -/
def Connection.close (connection : Connection) : Connection :=
  { connection with wire := [], pending := fun _ => none, done := true }

def Connection.removePending (connection : Connection) (id : String) : Connection :=
  { connection with pending := update connection.pending id none }

/-- One step on a connection alone. -/
inductive Move where
  | send (message : Message)
  | enqueue
  | drop
  | consume
  | emit
  | forward
  | abandon
  | close
  deriving DecidableEq

/-- The selects of `readLoop` and `forwardEvents`, one move for each case. `stopped` says
that the runtime's context is over. -/
def Connection.move (connection : Connection) (stopped : Bool) : Move → Option Connection
  | .send message =>
      if connection.done then none
      else some { connection with wire := connection.wire ++ [message] }
  | .enqueue =>
      match connection.reading with
      | none => none
      | some message => (connection.incoming.push message).map fun incoming =>
          { connection with reading := none, incoming := incoming }
  | .drop =>
      if connection.done ∧ connection.reading.isSome then
        some { connection with reading := none }
      else none
  | .consume =>
      match connection.consuming, connection.incoming.pop with
      | none, some (message, incoming) =>
          some { connection with consuming := some message, incoming := incoming }
      | _, _ => none
  | .emit =>
      match connection.consuming with
      | none => none
      | some message => (connection.events.push message).map fun events =>
          { connection with consuming := none, events := events }
  | .forward =>
      match connection.returned, connection.forwarding, connection.events.pop with
      | false, none, some (message, events) =>
          some { connection with forwarding := some message, events := events }
      | _, _, _ => none
  | .abandon =>
      if stopped ∧ connection.forwarding.isSome then
        some { connection with forwarding := none, returned := true }
      else none
  | .close => some connection.close

/-- What an operation of the Manager does with commit lock and app-server. -/
inductive Operation where
  /-- Any number of calls inside the lock; `sweepLeases` follows. -/
  | restore
  /-- At most one call inside the lock. -/
  | forgetCodex
  /-- Locks, and never calls. -/
  | commit
  /-- Calls outside the lock. -/
  | remote
  deriving DecidableEq

def Operation.mayCall (operation : Operation) (holds : Bool) (calls : Nat) : Bool :=
  match operation with
  | .restore => holds
  | .forgetCodex => holds && calls == 0
  | .commit => false
  | .remote => !holds

/-- A goroutine in an operation, with the number of its calls so far. A call is in the
select of `Client.Call`; `answered` says that its channel holds the answer. -/
inductive Task where
  | free
  | working (operation : Operation) (calls : Nat)
  | locking (operation : Operation) (calls : Nat)
  | calling (operation : Operation) (calls connection : Nat) (id : String) (answered : Bool)
  | ended
  deriving DecidableEq

/-- What is left of an operation when it gives the lock back. -/
def Operation.released : Operation → Nat → Task
  | .restore, _ => .working .commit 0
  | .forgetCodex, _ => .ended
  | .commit, calls => .working .commit calls
  | .remote, calls => .working .remote calls

/-- `RunEvents`, with the event it handles. -/
inductive EventLoop where
  | unstarted
  | idle
  | handling (event : Message)
  | locking (event : Message)
  | committing (event : Message)
  | ended
  deriving DecidableEq

inductive Owner where
  | task (i : Nat)
  | eventLoop
  deriving DecidableEq

structure World where
  connections : Nat → Connection := fun _ => {}
  opened : Nat := 0
  events : BoundedQueue Message runtimeCapacity := .empty
  eventLoop : EventLoop := .unstarted
  lock : Option Owner := none
  tasks : Nat → Task := fun _ => .free
  stopped : Bool := false

inductive EventStep where
  | start
  | take
  | lock
  | acquire
  | release
  | handled
  | stop
  deriving DecidableEq

inductive TaskStep where
  | lock
  | acquire
  | release
  | call (connection : Nat) (writes : Bool)
  | resume
  | cancel
  | disconnected
  | finish
  deriving DecidableEq

inductive Label where
  | connect
  | move (connection : Nat) (move : Move)
  | read (connection : Nat)
  | publish (connection : Nat)
  | events (step : EventStep)
  | spawn (i : Nat) (operation : Operation)
  | task (i : Nat) (step : TaskStep)
  | stop
  deriving DecidableEq

def World.setConnection (world : World) (c : Nat) (connection : Connection) : World :=
  { world with connections := update world.connections c connection }

def World.setTask (world : World) (i : Nat) (task : Task) : World :=
  { world with tasks := update world.tasks i task }

def World.holds (world : World) (i : Nat) : Bool := world.lock = some (.task i)

/-- `RunEvents`. An event is handled in any number of locked sections: agent transitions
before, `applyAdapterEventLocked`, and the end of an agent after it. -/
def World.eventStep (world : World) : EventStep → Option World
  | .start =>
      match world.eventLoop with
      | .unstarted => some { world with eventLoop := .idle }
      | _ => none
  | .take =>
      match world.eventLoop, world.events.pop with
      | .idle, some (event, events) =>
          some { world with events := events, eventLoop := .handling event }
      | _, _ => none
  | .lock =>
      match world.eventLoop with
      | .handling event => some { world with eventLoop := .locking event }
      | _ => none
  | .acquire =>
      match world.eventLoop, world.lock with
      | .locking event, none =>
          some { world with eventLoop := .committing event, lock := some .eventLoop }
      | _, _ => none
  | .release =>
      match world.eventLoop with
      | .committing event => some { world with eventLoop := .handling event, lock := none }
      | _ => none
  | .handled =>
      match world.eventLoop with
      | .handling _ => some { world with eventLoop := .idle }
      | _ => none
  | .stop =>
      match world.eventLoop with
      | .idle => some { world with eventLoop := .ended }
      | _ => none

/-- The id of a connection's next request. -/
def Connection.requestID (connection : Connection) : String :=
  "remote-" ++ toString (connection.nextID + 1)

/-- `Client.Call` up to its select. A failed write closes the connection. -/
def World.call (world : World) (i : Nat) (operation : Operation) (calls c : Nat)
    (writes : Bool) : World :=
  let connection := world.connections c
  if connection.done then world.setTask i (.working operation (calls + 1))
  else if writes then
    (world.setConnection c { connection with
      nextID := connection.nextID + 1
      pending := update connection.pending connection.requestID (some i) }).setTask i
        (.calling operation (calls + 1) c connection.requestID false)
  else (world.setConnection c connection.close).setTask i (.working operation (calls + 1))

/-- A call returns without an answer. -/
def World.giveUp (world : World) (i : Nat) (operation : Operation) (calls c : Nat)
    (id : String) : World :=
  (world.setConnection c ((world.connections c).removePending id)).setTask i
    (.working operation calls)

def World.taskStep (world : World) (i : Nat) : TaskStep → Option World
  | .lock =>
      match world.tasks i with
      | .working operation calls =>
          if world.holds i then none else some (world.setTask i (.locking operation calls))
      | _ => none
  | .acquire =>
      match world.tasks i, world.lock with
      | .locking operation calls, none =>
          some ({ world with lock := some (.task i) }.setTask i (.working operation calls))
      | _, _ => none
  | .release =>
      match world.tasks i with
      | .working operation calls =>
          if world.holds i then
            some ({ world with lock := none }.setTask i (operation.released calls))
          else none
      | _ => none
  | .call c writes =>
      match world.tasks i with
      | .working operation calls =>
          if c < world.opened ∧ operation.mayCall (world.holds i) calls then
            some (world.call i operation calls c writes)
          else none
      | _ => none
  | .resume =>
      match world.tasks i with
      | .calling operation calls _ _ true => some (world.setTask i (.working operation calls))
      | _ => none
  | .cancel =>
      match world.tasks i with
      | .calling operation calls c id _ => some (world.giveUp i operation calls c id)
      | _ => none
  | .disconnected =>
      match world.tasks i with
      | .calling operation calls c id _ =>
          if (world.connections c).done then some (world.giveUp i operation calls c id) else none
      | _ => none
  | .finish =>
      match world.tasks i with
      | .working _ _ => if world.holds i then none else some (world.setTask i .ended)
      | _ => none

/-- The caller whose request has the id gets its answer. -/
def World.deliver (world : World) (c : Nat) (id : String) : World :=
  match (world.connections c).pending id with
  | none => world
  | some i =>
      let removed := world.setConnection c ((world.connections c).removePending id)
      match world.tasks i with
      | .calling operation calls c' id' false =>
          if c' = c ∧ id' = id then removed.setTask i (.calling operation calls c id true)
          else removed
      | _ => removed

/-- `readLoop` reads a message. An answer is delivered at once, anything else is held
until `incoming` has room. -/
def World.read (world : World) (c : Nat) : Option World :=
  let connection := world.connections c
  match connection.reading, connection.done, connection.wire with
  | none, false, message :: rest =>
      if message.isResponse then
        some ((world.setConnection c { connection with wire := rest }).deliver c
          (message.id.getD ""))
      else
        some (world.setConnection c { connection with wire := rest, reading := some message })
  | _, _, _ => none

/-- `forwardEvents` puts its event into the runtime's queue. -/
def World.publish (world : World) (c : Nat) : Option World :=
  let connection := world.connections c
  match connection.forwarding with
  | none => none
  | some event => (world.events.push event).map fun events =>
      { world.setConnection c { connection with forwarding := none } with events := events }

def step (world : World) : Label → Option World
  | .connect => some { world with opened := world.opened + 1 }
  | .move c move =>
      if c < world.opened then
        ((world.connections c).move world.stopped move).map (world.setConnection c)
      else none
  | .read c => world.read c
  | .publish c => world.publish c
  | .events step => world.eventStep step
  | .spawn i operation =>
      if world.tasks i = .free then some (world.setTask i (.working operation 0)) else none
  | .task i step => world.taskStep i step
  | .stop => some { world with stopped := true }

/-- What a move of a connection can be. -/
inductive Connection.Moves (connection : Connection) (stopped : Bool) : Move → Connection → Prop
  | sent (message : Message) (isOpen : connection.done = false) :
      Moves connection stopped (.send message)
        { connection with wire := connection.wire ++ [message] }
  | enqueued (message : Message) (incoming : BoundedQueue Message incomingCapacity)
      (held : connection.reading = some message)
      (pushed : connection.incoming.push message = some incoming) :
      Moves connection stopped .enqueue
        { connection with reading := none, incoming := incoming }
  | dropped (isDone : connection.done = true) :
      Moves connection stopped .drop { connection with reading := none }
  | consumed (message : Message) (incoming : BoundedQueue Message incomingCapacity)
      (free : connection.consuming = none)
      (popped : connection.incoming.pop = some (message, incoming)) :
      Moves connection stopped .consume
        { connection with consuming := some message, incoming := incoming }
  | emitted (message : Message) (events : BoundedQueue Message adapterCapacity)
      (held : connection.consuming = some message)
      (pushed : connection.events.push message = some events) :
      Moves connection stopped .emit { connection with consuming := none, events := events }
  | forwarded (message : Message) (events : BoundedQueue Message adapterCapacity)
      (free : connection.forwarding = none)
      (popped : connection.events.pop = some (message, events)) :
      Moves connection stopped .forward
        { connection with forwarding := some message, events := events }
  | abandoned (isStopped : stopped = true) :
      Moves connection stopped .abandon { connection with forwarding := none, returned := true }
  | closed : Moves connection stopped .close connection.close

theorem Connection.move_moves (connection next : Connection) (stopped : Bool) (move : Move)
    (moved : connection.move stopped move = some next) : connection.Moves stopped move next := by
  cases move with
  | send message =>
    simp only [Connection.move] at moved
    split at moved <;> cases moved
    next isOpen =>
    exact .sent message (by simpa using isOpen)
  | enqueue | emit =>
    simp only [Connection.move] at moved
    split at moved
    · cases moved
    · obtain ⟨queue, pushed, rfl⟩ := Option.map_eq_some_iff.mp moved
      constructor <;> assumption
  | drop | abandon =>
    simp only [Connection.move] at moved
    split at moved <;> cases moved
    next guard =>
    constructor
    exact guard.1
  | consume | forward =>
    simp only [Connection.move] at moved
    split at moved <;> cases moved
    constructor <;> assumption
  | close =>
    cases moved
    exact .closed

/-- What a step of the event loop can be. -/
inductive EventMoves (world : World) : EventStep → World → Prop
  | started (was : world.eventLoop = .unstarted) :
      EventMoves world .start { world with eventLoop := .idle }
  | taken (event : Message) (events : BoundedQueue Message runtimeCapacity)
      (was : world.eventLoop = .idle) (popped : world.events.pop = some (event, events)) :
      EventMoves world .take { world with events := events, eventLoop := .handling event }
  | locking (event : Message) (was : world.eventLoop = .handling event) :
      EventMoves world .lock { world with eventLoop := .locking event }
  | acquired (event : Message) (was : world.eventLoop = .locking event)
      (free : world.lock = none) :
      EventMoves world .acquire
        { world with eventLoop := .committing event, lock := some .eventLoop }
  | released (event : Message) (was : world.eventLoop = .committing event) :
      EventMoves world .release { world with eventLoop := .handling event, lock := none }
  | handled (event : Message) (was : world.eventLoop = .handling event) :
      EventMoves world .handled { world with eventLoop := .idle }
  | stopped (was : world.eventLoop = .idle) :
      EventMoves world .stop { world with eventLoop := .ended }

theorem eventStep_moves {next : World} {step : EventStep}
    (stepped : world.eventStep step = some next) : EventMoves world step next := by
  cases step
  all_goals
    simp only [World.eventStep] at stepped
    split at stepped <;> cases stepped
    constructor <;> assumption

/-- What a step of an operation can be. -/
inductive TaskMoves (world : World) (i : Nat) : TaskStep → World → Prop
  | locking (operation : Operation) (calls : Nat)
      (was : world.tasks i = .working operation calls) :
      TaskMoves world i .lock (world.setTask i (.locking operation calls))
  | acquired (operation : Operation) (calls : Nat)
      (was : world.tasks i = .locking operation calls) (free : world.lock = none) :
      TaskMoves world i .acquire
        ({ world with lock := some (.task i) }.setTask i (.working operation calls))
  | released (operation : Operation) (calls : Nat)
      (was : world.tasks i = .working operation calls) (held : world.lock = some (.task i)) :
      TaskMoves world i .release
        ({ world with lock := none }.setTask i (operation.released calls))
  | called (operation : Operation) (calls c : Nat) (writes : Bool)
      (was : world.tasks i = .working operation calls) (known : c < world.opened)
      (may : operation.mayCall (world.holds i) calls = true) :
      TaskMoves world i (.call c writes) (world.call i operation calls c writes)
  | resumed (operation : Operation) (calls c : Nat) (id : String)
      (was : world.tasks i = .calling operation calls c id true) :
      TaskMoves world i .resume (world.setTask i (.working operation calls))
  | canceled (operation : Operation) (calls c : Nat) (id : String) (answered : Bool)
      (was : world.tasks i = .calling operation calls c id answered) :
      TaskMoves world i .cancel (world.giveUp i operation calls c id)
  | disconnected (operation : Operation) (calls c : Nat) (id : String) (answered : Bool)
      (was : world.tasks i = .calling operation calls c id answered)
      (isDone : (world.connections c).done = true) :
      TaskMoves world i .disconnected (world.giveUp i operation calls c id)
  | finished (operation : Operation) (calls : Nat)
      (was : world.tasks i = .working operation calls) :
      TaskMoves world i .finish (world.setTask i .ended)

theorem taskStep_moves {next : World} {step : TaskStep}
    (stepped : world.taskStep i step = some next) : TaskMoves world i step next := by
  cases step with
  | acquire | resume | cancel =>
    simp only [World.taskStep] at stepped
    split at stepped <;> cases stepped
    constructor <;> assumption
  | lock | finish =>
    simp only [World.taskStep] at stepped
    split at stepped
    · split at stepped <;> cases stepped
      constructor
      assumption
    · cases stepped
  | release =>
    simp only [World.taskStep] at stepped
    split at stepped
    · next operation calls was =>
      split at stepped <;> cases stepped
      next holds =>
      exact .released operation calls was (by simpa [World.holds] using holds)
    · cases stepped
  | call c writes =>
    simp only [World.taskStep] at stepped
    split at stepped
    · next operation calls was =>
      split at stepped <;> cases stepped
      next guard =>
      exact .called operation calls c writes was guard.1 guard.2
    · cases stepped
  | disconnected =>
    simp only [World.taskStep] at stepped
    split at stepped
    · next operation calls c id answered was =>
      split at stepped <;> cases stepped
      next isDone =>
      exact .disconnected operation calls c id answered was isDone
    · cases stepped

/-- What a step can be. -/
inductive Moves (world : World) : Label → World → Prop
  | connected : Moves world .connect { world with opened := world.opened + 1 }
  | moved (c : Nat) (move : Move) (connection : Connection) (known : c < world.opened)
      (moves : (world.connections c).Moves world.stopped move connection) :
      Moves world (.move c move) (world.setConnection c connection)
  | answered (c : Nat) (message : Message) (rest : List Message)
      (free : (world.connections c).reading = none)
      (wire : (world.connections c).wire = message :: rest)
      (response : message.isResponse = true) :
      Moves world (.read c) ((world.setConnection c
        { world.connections c with wire := rest }).deliver c (message.id.getD ""))
  | received (c : Nat) (message : Message) (rest : List Message)
      (free : (world.connections c).reading = none)
      (wire : (world.connections c).wire = message :: rest)
      (event : message.isResponse = false) :
      Moves world (.read c) (world.setConnection c
        { world.connections c with wire := rest, reading := some message })
  | published (c : Nat) (event : Message) (events : BoundedQueue Message runtimeCapacity)
      (held : (world.connections c).forwarding = some event)
      (pushed : world.events.push event = some events) :
      Moves world (.publish c)
        { world.setConnection c { world.connections c with forwarding := none } with
          events := events }
  | events (step : EventStep) (next : World) (moves : EventMoves world step next) :
      Moves world (.events step) next
  | spawned (i : Nat) (operation : Operation) (unused : world.tasks i = .free) :
      Moves world (.spawn i operation) (world.setTask i (.working operation 0))
  | task (i : Nat) (step : TaskStep) (next : World) (moves : TaskMoves world i step next) :
      Moves world (.task i step) next
  | stopped : Moves world .stop { world with stopped := true }

theorem step_moves (world next : World) (label : Label)
    (stepped : step world label = some next) : Moves world label next := by
  cases label with
  | connect =>
    cases stepped
    exact .connected
  | move c move =>
    simp only [step] at stepped
    split at stepped
    · next known =>
      obtain ⟨connection, moved, rfl⟩ := Option.map_eq_some_iff.mp stepped
      exact .moved c move connection known (Connection.move_moves _ _ _ _ moved)
    · cases stepped
  | read c =>
    simp only [step, World.read] at stepped
    split at stepped
    · next message rest free isOpen wire =>
      split at stepped <;> cases stepped
      · next response =>
        exact .answered c message rest free wire response
      · next event =>
        exact .received c message rest free wire (by simpa using event)
    · cases stepped
  | publish c =>
    simp only [step, World.publish] at stepped
    split at stepped
    · cases stepped
    · next event held =>
      obtain ⟨events, pushed, rfl⟩ := Option.map_eq_some_iff.mp stepped
      exact .published c event events held pushed
  | events step => exact .events step next (eventStep_moves stepped)
  | spawn i operation =>
    simp only [step] at stepped
    split at stepped <;> cases stepped
    next unused =>
    exact .spawned i operation unused
  | task i step => exact .task i step next (taskStep_moves stepped)
  | stop =>
    cases stepped
    exact .stopped

/-- An answer that nobody waits for is thrown away. Otherwise only the caller's state and
the entry of its request change. -/
theorem deliver_cases (world : World) (c : Nat) (id : String) :
    world.deliver c id = world ∨
      world.deliver c id = world.setConnection c ((world.connections c).removePending id) ∨
      ∃ i operation calls, world.tasks i = .calling operation calls c id false ∧
        world.deliver c id =
          (world.setConnection c ((world.connections c).removePending id)).setTask i
            (.calling operation calls c id true) := by
  unfold World.deliver
  split
  · exact .inl rfl
  next i _ =>
  right
  split
  · next operation calls c' id' was =>
    split
    · next same =>
      obtain ⟨rfl, rfl⟩ := same
      exact .inr ⟨i, operation, calls, was, rfl⟩
    · exact .inl rfl
  · exact .inl rfl

end CodexRemote.AppServer
