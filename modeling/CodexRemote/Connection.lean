import CodexRemote.Channels
import CodexRemote.Dispatcher

/-!
# Watches of one connection

`internal/gateway/server.go` keeps, for each connection, a map from Codex ids to
watches behind the mutex `watchesMu`. A Watch request replaces the watch of its
Codex, queues its response and its replay while it holds the mutex, and then leaves
a goroutine behind that moves live events from the watch's channel to the send
queue. That goroutine takes an event without the mutex and asks only afterwards
whether its watch is still the one in the map.

A goroutine inside the mutex is kept in the mutex, so there is never more than one;
a request outside it is a label that may come at any time. Between two accesses to
the store, to the send queue or to the mutex anyone else may move. Queued frames are
remembered in the order of the queue, with the watch each one is queued for, which
the frames on the wire do not carry. Close frames take another queue and end the
connection; they and the audit log are left out.
-/
namespace CodexRemote.Forwarding

open Protocol
open Activity (World Watch Action StoreError Start Labelled Unused Handle Registry handed)
open Gateway (Response errorResponse)

/-- The settings of a server that its connections read here. -/
structure ServerConfig where
  sendQueueSize : Nat := 256
  watchQueueSize : Int := 128
  maxWatches : Nat := 64
  hostRunID : String
  hasEvents : Bool := true

structure WatchCodexRequest where
  codexID : String
  afterEventSeq : Option Nat := none
  afterHostRunID : String := ""
  deriving DecidableEq

/-- A frame in the send queue. A Watch response is kept with the whole watch, an event
with the address of the watch it is queued for. `other` stands for hellos, pings and
pongs. -/
inductive Frame where
  | watchCodex (requestID : String) (respondedAtUnixMs : Int) (watch : Watch)
  | unwatchCodex (requestID : String) (respondedAtUnixMs : Int) (codexID : String)
  | response (response : Response)
  | event (address : Nat) (event : Event)
  | other
  deriving DecidableEq

/-- An error response a request has still to queue; it is stamped when it is. -/
structure Refusal where
  requestID : String
  code : ErrorCode
  message : Text
  retryable : Bool
  deriving DecidableEq

def Refusal.response (refusal : Refusal) (now : Int) : Response :=
  errorResponse refusal.requestID now refusal.code refusal.message refusal.retryable

/-- Where the goroutine inside `watchesMu` is: a Watch request that has dropped the old
watch, one whose new watch is in the map, one with this much replay left to queue, one
that found the send queue full; an Unwatch request; a shutdown. -/
inductive Section where
  | opening (requestID : String) (request : WatchCodexRequest)
  | responding (requestID codexID : String) (watch : Watch)
  | replaying (codexID : String) (watch : Watch) (rest : List Event)
  | abandoning (codexID : String) (watch : Watch)
  | unwatching (requestID codexID : String)
  | shuttingDown

/-- Where `forwardWatch` is: in its select, behind it with an event, or behind it with a
closed channel. -/
inductive Forwarder where
  | selecting (codexID : String) (watch : Watch)
  | holding (codexID : String) (watch : Watch) (event : Event)
  | closing (codexID : String) (watch : Watch)

def Forwarder.codexID : Forwarder → String
  | .selecting codexID _ | .holding codexID _ _ | .closing codexID _ => codexID

def Forwarder.watch : Forwarder → Watch
  | .selecting _ watch | .holding _ watch _ | .closing _ watch => watch

/-- One connection beside the store. A watch is the address of its channel, which no
other watch has; `forwarder` gives the goroutine of each watch. `enqueued` is everything
the send queue ever accepted, oldest first, and `opened` every watch the connection was
handed. -/
structure Connection where
  store : World
  watches : List (String × Nat) := []
  watchesMu : Option Section := none
  forwarder : Nat → Option Forwarder := fun _ => none
  pending : List Refusal := []
  queued : Nat := 0
  enqueued : List Frame := []
  opened : List Nat := []

/-- `delete` on the map of watches. -/
def remove (watches : List (String × Nat)) (codexID : String) : List (String × Nat) :=
  watches.filter fun entry => entry.1 ≠ codexID

/-- Assignment to the map of watches. -/
def assign (watches : List (String × Nat)) (codexID : String) (address : Nat) :
    List (String × Nat) :=
  (codexID, address) :: remove watches codexID

/-- `enqueue`: a full queue accepts nothing. -/
def enqueue (config : ServerConfig) (conn : Connection) (frame : Frame) : Connection × Bool :=
  if conn.queued < config.sendQueueSize then
    ({ conn with queued := conn.queued + 1, enqueued := conn.enqueued ++ [frame] }, true)
  else (conn, false)

/-- A watch's `Cancel`. -/
def Connection.cancel (conn : Connection) (codexID : String) (address : Nat) : Connection :=
  { conn with
    store := { conn.store with machine := Activity.cancel conn.store.machine codexID address } }

/-- The start of both critical sections: the watch of the Codex, if there is one, is
cancelled and leaves the map. -/
def Connection.dropOld (conn : Connection) (codexID : String) : Connection :=
  match conn.watches.lookup codexID with
  | none => conn
  | some old => { conn.cancel codexID old with watches := remove conn.watches codexID }

/-- The refusals of `handleWatch` ahead of its critical section, in their order. -/
def watchRefusal (config : ServerConfig) (requestID : String) (request : WatchCodexRequest)
    (expired : Bool) : Option Refusal :=
  if request.codexID = "" then
    some ⟨requestID, .invalidRequest, text "codex_id is required", false⟩
  else if expired then
    some ⟨requestID, .deadlineExceeded, text "request deadline has elapsed", true⟩
  else if config.hasEvents = false then
    some ⟨requestID, .hostNotReady, text "event store unavailable", true⟩
  else if request.afterEventSeq.isSome ∧ request.afterHostRunID = "" then
    some ⟨requestID, .invalidRequest,
      text "after_host_run_id is required with after_event_seq", false⟩
  else if request.afterEventSeq.isNone ∧ request.afterHostRunID ≠ "" then
    some ⟨requestID, .invalidRequest, text "after_host_run_id requires after_event_seq", false⟩
  else none

/-- The refusals of `handleUnwatch`, which asks for the deadline first. -/
def unwatchRefusal (requestID codexID : String) (expired : Bool) : Option Refusal :=
  if expired then
    some ⟨requestID, .deadlineExceeded, text "request deadline has elapsed", true⟩
  else if codexID = "" then
    some ⟨requestID, .invalidRequest, text "codex_id is required", false⟩
  else none

/-- `watchError`. A read that failed because the request's context ended is told apart
from one that failed by itself. -/
def watchError (expired : Bool) : StoreError → ErrorCode × Bool
  | .codexNotFound _ => (.codexNotFound, false)
  | .load .failed => if expired then (.deadlineExceeded, true) else (.internalError, true)
  | _ => (.internalError, true)

/-- The text of a store error. That of a failed read is the database's own. -/
def errorText (failure : Text) : StoreError → Text
  | .invalid message => text message
  | .codexNotFound codexID => text ("codex not found: " ++ codexID)
  | _ => failure

/-- The store call of `handleWatch`: a cursor of another run of the Host forces a reset. -/
def openStore (config : ServerConfig) (machine : Activity.Machine) (request : WatchCodexRequest)
    (answers : Bool) : Activity.Machine × Except StoreError Watch :=
  if request.afterEventSeq.isSome ∧ request.afterHostRunID ≠ config.hostRunID then
    Activity.forceReset machine request.codexID .hostRestarted config.watchQueueSize answers
  else
    Activity.watch machine request.codexID request.afterEventSeq config.watchQueueSize answers

/-- A request that passed its checks waits for the mutex; one that did not is answered. -/
def handleWatch (config : ServerConfig) (conn : Connection) (requestID : String)
    (request : WatchCodexRequest) (expired : Bool) (now : Int) : Option Connection :=
  match watchRefusal config requestID request expired with
  | some refusal => some (enqueue config conn (.response (refusal.response now))).1
  | none =>
      match conn.watchesMu with
      | some _ => none
      | none => some
          { conn.dropOld request.codexID with watchesMu := some (.opening requestID request) }

def handleUnwatch (config : ServerConfig) (conn : Connection) (requestID codexID : String)
    (expired : Bool) (now : Int) : Option Connection :=
  match unwatchRefusal requestID codexID expired with
  | some refusal => some (enqueue config conn (.response (refusal.response now))).1
  | none =>
      match conn.watchesMu with
      | some _ => none
      | none => some
          { conn.dropOld codexID with watchesMu := some (.unwatching requestID codexID) }

/-- The middle of `handleWatch`: the bound on watches and the store's answer. Both errors
are answered outside the mutex. -/
def openWatch (config : ServerConfig) (conn : Connection) (requestID : String)
    (request : WatchCodexRequest) (answers expired : Bool) (failure : Text) : Connection :=
  if config.maxWatches ≤ conn.watches.length then
    { conn with
      watchesMu := none
      pending := ⟨requestID, .conflict, text "maximum watches reached", false⟩ :: conn.pending }
  else
    let result := openStore config conn.store.machine request answers
    let called := { conn with store := conn.store.opened request.codexID result }
    match result.2 with
    | .error error =>
        { called with
          watchesMu := none
          pending := ⟨requestID, (watchError expired error).1, errorText failure error,
            (watchError expired error).2⟩ :: conn.pending }
    | .ok watch =>
        { called with
          watches := assign conn.watches request.codexID watch.address
          watchesMu := some (.responding requestID request.codexID watch)
          opened := watch.address :: conn.opened }

/-- The next access of the goroutine inside the mutex. -/
def proceed (config : ServerConfig) (conn : Connection) (now : Int) : Section → Option Connection
  | .opening _ _ => none
  | .responding requestID codexID watch =>
      match enqueue config conn (.watchCodex requestID now watch) with
      | (conn, true) => some
          { conn with watchesMu := some (.replaying codexID watch watch.replay) }
      | (conn, false) => some { conn with watchesMu := some (.abandoning codexID watch) }
  | .replaying codexID watch [] => some
      { conn with
        watchesMu := none
        forwarder := Function.update conn.forwarder watch.address
          (some (.selecting codexID watch)) }
  | .replaying codexID watch (event :: rest) =>
      match enqueue config conn (.event watch.address event) with
      | (conn, true) => some { conn with watchesMu := some (.replaying codexID watch rest) }
      | (conn, false) => some { conn with watchesMu := some (.abandoning codexID watch) }
  | .abandoning codexID watch => some
      { conn.cancel codexID watch.address with
        watches := remove conn.watches codexID, watchesMu := none }
  | .unwatching requestID codexID => some
      { (enqueue config conn (.unwatchCodex requestID now codexID)).1 with watchesMu := none }
  | .shuttingDown =>
      match conn.watches with
      | [] => some { conn with watchesMu := none }
      | (codexID, address) :: _ => some
          { conn.cancel codexID address with watches := remove conn.watches codexID }

/-- Give a watch's goroutine its next place, or end it. -/
def Connection.place (conn : Connection) (address : Nat) (forwarder : Option Forwarder) :
    Connection :=
  { conn with forwarder := Function.update conn.forwarder address forwarder }

/-- The first case of `forwardWatch`'s select, up to the mutex. A channel that is empty
and open blocks. -/
def take (conn : Connection) (address : Nat) : Option Connection :=
  match conn.forwarder address with
  | some (.selecting codexID watch) =>
      match (conn.store.machine.heap address).events with
      | event :: _ => (Activity.step conn.store (.receive address)).map fun store =>
          { conn with store := store }.place address (some (.holding codexID watch event))
      | [] =>
          if (conn.store.machine.heap address).closed then
            some (conn.place address (some (.closing codexID watch)))
          else none
  | _ => none

/-- The rest of that case, all of it inside the mutex. -/
def forward (config : ServerConfig) (conn : Connection) (address : Nat) : Option Connection :=
  if conn.watchesMu.isSome then none
  else match conn.forwarder address with
    | some (.holding codexID watch event) =>
        if conn.watches.lookup codexID = some watch.address then
          match enqueue config conn (.event watch.address event) with
          | (conn, true) => some (conn.place address (some (.selecting codexID watch)))
          | (conn, false) => some (conn.place address none)
        else some (conn.place address none)
    | some (.closing codexID watch) => some
        { conn.place address none with
          watches :=
            if conn.watches.lookup codexID = some watch.address then remove conn.watches codexID
            else conn.watches }
    | _ => none

/-- The other two cases of the select end the goroutine. The slow signal needs the mutex
once, to ask whether to close the connection. -/
def leave (conn : Connection) (address : Nat) (slow : Bool) : Option Connection :=
  match conn.forwarder address with
  | some (.selecting _ _) =>
      if slow = true ∧ (conn.watchesMu.isSome ∨ (conn.store.machine.heap address).slow = false) then
        none
      else some (conn.place address none)
  | _ => none

/-- What can happen next on a connection: a call of the store by anyone else, a response
to another request or a frame without one, a write to the network, a request, a step of
the goroutine inside the mutex, a late error response, a step of a forwarding goroutine,
or the end of the connection. -/
inductive Label where
  | store (action : Action)
  | respond (response : Response)
  | signal
  | write
  | handleWatch (requestID : String) (request : WatchCodexRequest) (expired : Bool) (now : Int)
  | handleUnwatch (requestID codexID : String) (expired : Bool) (now : Int)
  | openWatch (answers expired : Bool) (failure : Text)
  | proceed (now : Int)
  | refuse (refusal : Refusal) (now : Int)
  | take (address : Nat)
  | forward (address : Nat)
  | leave (address : Nat) (slow : Bool)
  | shutdown

/-- Whom the store may serve beside this connection: nobody else reads its channels, and
a restart of the Host would end it. -/
def Connection.foreign (conn : Connection) : Action → Bool
  | .receive address => decide (address ∉ conn.opened)
  | .restart _ => false
  | _ => true

def step (config : ServerConfig) (conn : Connection) : Label → Option Connection
  | .store action =>
      if conn.foreign action then
        (Activity.step conn.store action).map fun store => { conn with store := store }
      else none
  | .respond response => some (enqueue config conn (.response response)).1
  | .signal => some (enqueue config conn .other).1
  | .write => if conn.queued = 0 then none else some { conn with queued := conn.queued - 1 }
  | .handleWatch requestID request expired now =>
      handleWatch config conn requestID request expired now
  | .handleUnwatch requestID codexID expired now =>
      handleUnwatch config conn requestID codexID expired now
  | .openWatch answers expired failure =>
      match conn.watchesMu with
      | some (.opening requestID request) =>
          some (openWatch config conn requestID request answers expired failure)
      | _ => none
  | .proceed now => conn.watchesMu.bind (proceed config conn now)
  | .refuse refusal now =>
      if refusal ∈ conn.pending then
        some { (enqueue config conn (.response (refusal.response now))).1 with
          pending := conn.pending.erase refusal }
      else none
  | .take address => take conn address
  | .forward address => forward config conn address
  | .leave address slow => leave conn address slow
  | .shutdown =>
      if conn.watchesMu.isSome then none
      else some { conn with watchesMu := some .shuttingDown }

/-- A connection nothing has been asked of. -/
def connect (store : World) : Connection := { store := store }

/-! ## The map of watches and the send queue -/

theorem lookup_remove (watches : List (String × Nat)) (codexID other : String) :
    (remove watches codexID).lookup other =
      if other = codexID then none else watches.lookup other := by
  induction watches with
  | nil => simp [remove]
  | cons entry rest ih =>
    obtain ⟨key, address⟩ := entry
    unfold remove at ih ⊢
    by_cases removed : key = codexID
    · subst removed
      rw [List.filter_cons_of_neg (by simp), ih]
      by_cases same : other = key
      · simp [same]
      · simp [same, List.lookup_cons, beq_false_of_ne same]
    · rw [List.filter_cons_of_pos (by simpa using removed), List.lookup_cons, List.lookup_cons, ih]
      by_cases same : other = codexID
      · simp [same, beq_false_of_ne (Ne.symm removed)]
      · simp [same]

theorem lookup_assign (watches : List (String × Nat)) (codexID other : String) (address : Nat) :
    (assign watches codexID address).lookup other =
      if other = codexID then some address else watches.lookup other := by
  unfold assign
  rw [List.lookup_cons, lookup_remove]
  by_cases same : other = codexID
  · simp [same]
  · simp [same, beq_false_of_ne same]

/-- Only the entry of another Codex survives a removal. -/
theorem lookup_remove_some (found : (remove watches codexID).lookup other = some address) :
    watches.lookup other = some address := by
  rw [lookup_remove] at found
  split at found
  · cases found
  · exact found

theorem dropOld_lookup (conn : Connection) (codexID other : String) :
    (conn.dropOld codexID).watches.lookup other =
      if other = codexID then none else conn.watches.lookup other := by
  unfold Connection.dropOld
  cases found : conn.watches.lookup codexID with
  | none =>
    by_cases same : other = codexID
    · simp [same, found]
    · simp [same]
  | some old => exact lookup_remove conn.watches codexID other

/-- The connection behind an accepted frame. -/
def Connection.accept (conn : Connection) (frame : Frame) : Connection :=
  { conn with queued := conn.queued + 1, enqueued := conn.enqueued ++ [frame] }

/-- The send queue takes the frame or changes nothing. -/
theorem enqueue_cases (config : ServerConfig) (conn : Connection) (frame : Frame) :
    enqueue config conn frame = (conn.accept frame, true) ∨
      enqueue config conn frame = (conn, false) := by
  unfold enqueue
  split
  · exact .inl rfl
  · exact .inr rfl

end CodexRemote.Forwarding
