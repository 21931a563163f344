import CodexRemote.Library.BoundedQueue
import CodexRemote.Library.Runs
import CodexRemote.Protocol
import Mathlib.Logic.Function.Basic

/-!
# Calls to the app-server

`Call`, `readLoop` and `closeWithError` of `internal/adapter/client.go`. A call draws a number,
enters a channel with one slot under its id, writes its request and waits. `readLoop` looks up
the id of a response, takes the channel out of the table and puts the response in. A call may
also end because it could not write, was cancelled or the connection is gone; it then takes
itself out of the table. The table is emptied once, after the connection is marked as done.

Every goroutine is cut at its locked sections and channel operations. A step is taken by one of
them; which one, and what is read from the connection, is part of the label. The state keeps
every message that was read, so that a response is the place where it stands there.

A caller sees nothing of a response but its error, or its result decoded, so the response itself
is what a call returns here. Call numbers do not wrap.
-/
namespace CodexRemote.Calls

open Protocol Function Option List
open List (prefix_refl)

/-- The text of an id. What is neither a string nor `null` is a number, a word, an array or an
object, and does not start as a request's id does. -/
inductive RawID where
  | null
  | string (value : String)
  | other (raw : String) (start : raw.toList.head? ≠ some 'r')
  deriving DecidableEq

/-- The string an id decodes to, or its text. -/
def requestIDKey : RawID → String
  | .null => ""
  | .string value => value
  | .other raw _ => raw

structure RPCError where
  code : Int
  message : String
  deriving DecidableEq

structure Message where
  id : Option RawID := none
  method : String := ""
  result : Text := []
  error : Option RPCError := none
  deriving DecidableEq

/-- Why a call ends without a response. -/
inductive Failure where
  | disconnected
  | cancelled
  | write (message : String)
  deriving DecidableEq

/-- Where a call is: it has its number; it is in the table; its write broke the connection and
it waits for the closing; it is in its select; it is about to take itself out of the table; it
has returned, with the response of this place or without one. -/
inductive Stage where
  | drawn
  | registered
  | breaking (message : String)
  | waiting
  | leaving (cause : Failure)
  | answered (place : Nat) (message : Message)
  | failed (cause : Failure)
  deriving DecidableEq

/-- Where `readLoop` is. It hands a response to a call after it gave up the lock. -/
inductive Reader where
  | reading
  | looking (place : Nat) (message : Message)
  | handing (place : Nat) (message : Message) (call : Nat)
  | forwarding (message : Message)
  | stopped
  deriving DecidableEq

/-- The body of `closeOnce`: the connection is done first, and then the table is emptied. -/
inductive Closing where
  | unbegun
  | begun
  | finished
  deriving DecidableEq

structure Client where
  nextID : Nat := 0
  calls : Nat → Option Stage := fun _ => none
  /-- The channel of each call, which has one slot. -/
  channels : Nat → BoundedQueue (Nat × Message) 1 := fun _ => .empty
  pending : String → Option Nat := fun _ => none
  closing : Closing := .unbegun
  reader : Reader := .reading
  incoming : BoundedQueue Message 128 := .empty
  /-- Every message that was read. -/
  received : List Message := []

/-- The channel `done` is closed. -/
def Client.done (client : Client) : Bool := client.closing ≠ .unbegun

def requestID (call : Nat) : String := "remote-" ++ toString call

/-- `readLoop` takes the message for the answer to a call. -/
def Message.isResponse (message : Message) : Bool := message.id.isSome ∧ message.method = ""

def Client.at (client : Client) (call : Nat) (stage : Stage) : Client :=
  { client with calls := update client.calls call (some stage) }

def Client.enter (client : Client) (call : Nat) : Client :=
  { client with pending := update client.pending (requestID call) (some call) }

def Client.removePending (client : Client) (id : String) : Client :=
  { client with pending := update client.pending id none }

def Client.setChannel (client : Client) (call : Nat) (slot : BoundedQueue (Nat × Message) 1) :
    Client :=
  { client with channels := update client.channels call slot }

/-- How `write` ends for a request. -/
inductive Written where
  | sent
  | disconnected
  | broken (message : String)
  deriving DecidableEq

/-- The steps of a call. -/
inductive CallStep where
  | register
  | write (written : Written)
  | broke
  | take
  | cancel
  | drop
  | remove
  deriving DecidableEq

inductive Label where
  | call
  | proceed (call : Nat) (step : CallStep)
  | close
  | reset
  | read (message : Option Message)
  | lookup
  | hand
  | forward
  | consume
  | abandon
  | stop
  deriving DecidableEq

/-- `Call`, from its number to its return. -/
def Client.proceed (client : Client) (call : Nat) : CallStep → Option Client
  | .register =>
      match client.calls call with
      | some .drawn =>
          if client.done then some (client.at call (.failed .disconnected))
          else some ((client.enter call).at call .registered)
      | _ => none
  | .write written =>
      match client.calls call, written with
      | some .registered, .sent => some (client.at call .waiting)
      | some .registered, .disconnected =>
          if client.done then some (client.at call (.leaving .disconnected)) else none
      | some .registered, .broken message => some (client.at call (.breaking message))
      | _, _ => none
  | .broke =>
      match client.calls call with
      | some (.breaking message) =>
          if client.closing = .finished then some (client.at call (.leaving (.write message)))
          else none
      | _ => none
  | .take =>
      match client.calls call, (client.channels call).pop with
      | some .waiting, some ((place, message), rest) =>
          some ((client.setChannel call rest).at call (.answered place message))
      | _, _ => none
  | .cancel =>
      match client.calls call with
      | some .waiting => some (client.at call (.leaving .cancelled))
      | _ => none
  | .drop =>
      match client.calls call with
      | some .waiting =>
          if client.done then some (client.at call (.leaving .disconnected)) else none
      | _ => none
  | .remove =>
      match client.calls call with
      | some (.leaving cause) =>
          some ((client.removePending (requestID call)).at call (.failed cause))
      | _ => none

/-- The lookup of `readLoop` under the lock. -/
def Client.lookup (client : Client) (place : Nat) (message : Message) (id : RawID) : Client :=
  match client.pending (requestIDKey id) with
  | none => { client.removePending (requestIDKey id) with reader := .reading }
  | some call =>
      { client.removePending (requestIDKey id) with reader := .handing place message call }

def step (client : Client) : Label → Option Client
  | .call => some ({ client with nextID := client.nextID + 1 }.at (client.nextID + 1) .drawn)
  | .proceed call move => client.proceed call move
  | .close =>
      match client.closing with
      | .unbegun => some { client with closing := .begun }
      | _ => none
  | .reset =>
      match client.closing with
      | .begun => some { client with closing := .finished, pending := fun _ => none }
      | _ => none
  | .read none =>
      match client.reader with
      | .reading => some client
      | _ => none
  | .read (some message) =>
      match client.reader with
      | .reading =>
          some
            { client with
              received := client.received ++ [message]
              reader := if message.isResponse then .looking client.received.length message
                else .forwarding message }
      | _ => none
  | .lookup =>
      match client.reader with
      | .looking place message => message.id.map (client.lookup place message)
      | _ => none
  | .hand =>
      match client.reader with
      | .handing place message call =>
          ((client.channels call).push (place, message)).map fun slot =>
            { client.setChannel call slot with reader := .reading }
      | _ => none
  | .forward =>
      match client.reader with
      | .forwarding message => (client.incoming.push message).map fun incoming =>
          { client with incoming := incoming, reader := .reading }
      | _ => none
  | .consume => client.incoming.pop.map fun (_, incoming) => { client with incoming := incoming }
  | .abandon =>
      match client.reader with
      | .forwarding _ => if client.done then some { client with reader := .stopped } else none
      | _ => none
  | .stop =>
      match client.reader with
      | .reading => some { client with reader := .stopped }
      | _ => none

/-! ## What a call holds -/

/-- The response that `readLoop` has in hand for a call. -/
def Reader.handed (reader : Reader) (call : Nat) : List (Nat × Message) :=
  match reader with
  | .handing place message other => if other = call then [(place, message)] else []
  | _ => []

/-- The response that a call returned. -/
def returned : Option Stage → List (Nat × Message)
  | some (.answered place message) => [(place, message)]
  | _ => []

/-- Every response on its way to a call or returned by it. -/
def Client.handed (client : Client) (call : Nat) : List (Nat × Message) :=
  client.reader.handed call ++ (client.channels call).items ++ returned (client.calls call)

/-- The call is not in the table yet. -/
def fresh : Option Stage → Bool
  | none | some .drawn => true
  | _ => false

/-- The message of a place is a response that carries the call's id. -/
def Own (client : Client) (call place : Nat) (message : Message) : Prop :=
  client.received[place]? = some message ∧ message.id = some (.string (requestID call)) ∧
    message.method = ""

/-- What holds of every call and of the table. -/
structure Sound (client : Client) : Prop where
  /-- Numbers beyond the counter are not in use. -/
  numbered : ∀ call, client.nextID < call → client.calls call = none
  /-- A channel stands under the id of its call, which has entered it. -/
  keyed : ∀ key call, client.pending key = some call →
    key = requestID call ∧ fresh (client.calls call) = false
  /-- While a call is in the table, it was handed nothing. -/
  awaited : ∀ call, client.pending (requestID call) = some call → client.handed call = []
  unstarted : ∀ call, fresh (client.calls call) = true → client.handed call = []
  /-- A call is handed one response at most. -/
  single : ∀ call, (client.handed call).length ≤ 1
  own : ∀ call place message, (place, message) ∈ client.handed call →
    Own client call place message
  looking : ∀ place message, client.reader = .looking place message →
    client.received[place]? = some message ∧ message.isResponse = true

theorem requestID_inj : requestID one = requestID other ↔ one = other := by
  constructor
  · intro same
    have written : toString one = toString other := by simpa [requestID] using same
    have digits : Nat.toDigits 10 one = Nat.toDigits 10 other := by
      simpa only [Nat.toString_eq_repr, Nat.toList_repr] using congrArg String.toList written
    have read := congrArg (fun chars => Nat.ofDigitChars 10 chars 0) digits
    simpa only [Nat.ofDigitChars_ten_toDigits] using read
  · intro same
    rw [same]

variable {client next : Client}

/-- A step that moves no response to another call keeps everything, if it enters only calls
that were handed nothing. -/
theorem Sound.moved (sound : Sound client)
    (numbered : ∀ call, next.nextID < call → next.calls call = none)
    (pending : ∀ key call, next.pending key = some call →
      client.pending key = some call ∨
        key = requestID call ∧ client.handed call = [] ∧ fresh (next.calls call) = false)
    (handed : ∀ call, next.handed call = client.handed call)
    (unstarted : ∀ call, fresh (next.calls call) = true → fresh (client.calls call) = true)
    (received : client.received <+: next.received)
    (looking : ∀ place message, next.reader = .looking place message →
      next.received[place]? = some message ∧ message.isResponse = true) : Sound next where
  numbered := numbered
  keyed := by
    intro key call entered
    rcases pending key call entered with before | new
    · obtain ⟨named, entered⟩ := sound.keyed key call before
      refine ⟨named, ?_⟩
      cases started : fresh (next.calls call) with
      | true => rw [unstarted call started] at entered; cases entered
      | false => rfl
    · exact ⟨new.1, new.2.2⟩
  awaited := by
    intro call entered
    rw [handed]
    rcases pending _ call entered with before | new
    · exact sound.awaited call before
    · exact new.2.1
  unstarted := by
    intro call started
    rw [handed]
    exact sound.unstarted call (unstarted call started)
  single := by
    intro call
    rw [handed]
    exact sound.single call
  own := by
    intro call place message member
    rw [handed] at member
    obtain ⟨there, rest⟩ := sound.own call place message member
    obtain ⟨later, same⟩ := received
    obtain ⟨within, -⟩ := List.getElem?_eq_some_iff.mp there
    exact ⟨by rw [← same, getElem?_append_left within, there], rest⟩
  looking := looking

/-! ## One step -/

variable {client : Client}

theorem handed_at (before : returned (client.calls call) = []) (after : returned (some stage) = [])
    (other : Nat) : (client.at call stage).handed other = client.handed other := by
  by_cases same : other = call
  · subst same
    simp [Client.handed, Client.at, before, after]
  · simp [Client.handed, Client.at, same]

theorem fresh_at (after : fresh (some stage) = true → fresh (client.calls call) = true)
    (other : Nat) (started : fresh ((client.at call stage).calls other) = true) :
    fresh (client.calls other) = true := by
  by_cases same : other = call
  · subst same
    apply after
    simpa [Client.at] using started
  · simpa [Client.at, same] using started

theorem numbered_at (numbered : ∀ call, client.nextID < call → client.calls call = none)
    (stage : Stage) (was : client.calls call = some before) (other : Nat)
    (beyond : client.nextID < other) : (client.at call stage).calls other = none := by
  have different : other ≠ call := by
    rintro rfl
    rw [numbered other beyond] at was
    cases was
  simp [Client.at, different, numbered other beyond]

/-- A call goes on without a response. -/
theorem Sound.at {after : Stage} (sound : Sound client) (was : client.calls call = some before)
    (holding : returned (some before) = []) (holds : returned (some after) = [])
    (started : fresh (some after) = false) :
    Sound (client.at call after) := by
  apply sound.moved
  · exact numbered_at sound.numbered after was
  · exact fun _ _ entered => .inl entered
  · exact handed_at (by rw [was, holding]) holds
  · exact fresh_at (by simp [started])
  · exact prefix_refl _
  · exact sound.looking

/-- A call that was handed nothing enters the table. -/
theorem Sound.register (sound : Sound client) (drawn : client.calls call = some .drawn) :
    Sound ((client.enter call).at call .registered) := by
  have nothing : client.handed call = [] := sound.unstarted call (by rw [drawn]; rfl)
  apply sound.moved
  · exact numbered_at sound.numbered _ drawn
  · intro key other entered
    by_cases same : key = requestID call
    · have named : call = other := by simpa [Client.at, Client.enter, same] using entered
      subst named
      exact .inr ⟨same, nothing, by simp [Client.at, fresh]⟩
    · exact .inl (by simpa [Client.at, Client.enter, same] using entered)
  · intro other
    have before : returned ((client.enter call).calls call) = [] := by
      rw [Client.enter, drawn]
      rfl
    exact handed_at before rfl other
  · exact fresh_at (by simp [fresh])
  · exact prefix_refl _
  · exact sound.looking

theorem removePending_pending {id : String} {call : Nat}
    (entered : (client.removePending id).pending key = some call) :
    client.pending key = some call := by
  by_cases same : key = id
  · simp [Client.removePending, same] at entered
  · simpa [Client.removePending, same] using entered

theorem Sound.removePending (sound : Sound client) (id : String) :
    Sound (client.removePending id) := by
  apply sound.moved
  · exact sound.numbered
  · exact fun _ _ entered => .inl (removePending_pending entered)
  · exact fun _ => rfl
  · exact fun _ started => started
  · exact prefix_refl _
  · exact sound.looking

variable {message : Message}

/-- A call takes the only response it was handed. -/
theorem Sound.take (sound : Sound client) (waiting : client.calls call = some .waiting)
    (popped : (client.channels call).pop = some ((place, message), rest)) :
    Sound ((client.setChannel call rest).at call (.answered place message)) := by
  have slot : (client.channels call).items = (place, message) :: rest.items :=
    BoundedQueue.pop_items popped
  have before : client.handed call =
      client.reader.handed call ++ (place, message) :: rest.items := by
    simp [Client.handed, slot, waiting, returned]
  have only : client.reader.handed call = [] ∧ rest.items = [] := by
    have single := sound.single call
    rw [before, length_append, length_cons] at single
    exact ⟨length_eq_zero_iff.mp (by omega), length_eq_zero_iff.mp (by omega)⟩
  apply sound.moved
  · exact numbered_at sound.numbered _ waiting
  · exact fun _ _ entered => .inl entered
  · intro other
    by_cases same : other = call
    · subst same
      simp [Client.handed, Client.at, Client.setChannel, only, slot, waiting, returned]
    · simp [Client.handed, Client.at, Client.setChannel, same]
  · exact fresh_at (by simp [fresh])
  · exact prefix_refl _
  · exact sound.looking

/-- `readLoop` goes on without a response in hand. -/
theorem Sound.reads (sound : Sound client)
    (frame : next.nextID = client.nextID ∧ next.calls = client.calls ∧
      next.channels = client.channels)
    (pending : ∀ key call, next.pending key = some call → client.pending key = some call)
    (before : ∀ call, client.reader.handed call = []) (after : ∀ call, next.reader.handed call = [])
    (received : client.received <+: next.received)
    (looking : ∀ place message, next.reader = .looking place message →
      next.received[place]? = some message ∧ message.isResponse = true) : Sound next := by
  obtain ⟨nextID, calls, channels⟩ := frame
  apply sound.moved
  · rw [nextID, calls]
    exact sound.numbered
  · exact fun key call entered => .inl (pending key call entered)
  · intro call
    simp only [Client.handed, before, after, calls, channels]
  · rw [calls]
    exact fun _ started => started
  · exact received
  · exact looking

/-- The id of a response under which a call was found is a string. -/
theorem rawID_of_key {id : RawID} {call : Nat} (same : requestIDKey id = requestID call) :
    id = .string (requestID call) := by
  have start : (requestID call).toList.head? = some 'r' := by
    rw [requestID, String.toList_append]
    rfl
  cases id with
  | null =>
    rw [← same] at start
    cases start
  | string value => exact congrArg RawID.string same
  | other raw plain =>
    rw [← same] at start
    exact absurd start plain

section

variable (sound : Sound client)
include sound

/-- The response goes to the call that stands under its id, and the call leaves the table. -/
theorem Sound.lookup {id : RawID} (looking : client.reader = .looking place message)
    (carries : message.id = some id) : Sound (client.lookup place message id) := by
  obtain ⟨there, response⟩ := sound.looking place message looking
  have idle : ∀ call, client.reader.handed call = [] := by
    intro call
    rw [looking]
    rfl
  unfold Client.lookup
  split
  · exact sound.reads ⟨rfl, rfl, rfl⟩ (fun _ _ later => removePending_pending later) idle
      (fun _ => rfl) (prefix_refl _) (fun _ _ same => by cases same)
  rename_i call found
  obtain ⟨key, entered⟩ := sound.keyed _ call found
  have nothing : client.handed call = [] := sound.awaited call (key ▸ found)
  have mine : Client.handed { client.removePending (requestIDKey id) with
      reader := .handing place message call } call = [(place, message)] := by
    simp only [Client.handed, idle, nil_append] at nothing
    simp only [Client.handed, Client.removePending, Reader.handed, if_true]
    rw [append_assoc, nothing, append_nil]
  have theirs : ∀ other, other ≠ call → Client.handed
      { client.removePending (requestIDKey id) with
        reader := .handing place message call } other = client.handed other := by
    intro other different
    have missed : (Reader.handing place message call).handed other = [] :=
      if_neg (Ne.symm different)
    simp only [Client.handed, Client.removePending, missed, idle]
  have carried : Own client call place message := by
    have response : message.id.isSome ∧ message.method = "" := by
      simpa [Message.isResponse] using response
    exact ⟨there, by rw [carries, rawID_of_key key], response.2⟩
  constructor
  · exact sound.numbered
  · exact fun _ _ later => sound.keyed _ _ (removePending_pending later)
  · intro other later
    have different : other ≠ call := by
      rintro rfl
      simp [Client.removePending, key] at later
    rw [theirs other different]
    exact sound.awaited other (removePending_pending later)
  · intro other started
    have different : other ≠ call := by
      rintro rfl
      exact Bool.false_ne_true (entered.symm.trans started)
    rw [theirs other different]
    exact sound.unstarted other started
  · intro other
    by_cases same : other = call
    · rw [same, mine]
      exact Nat.le_refl _
    · rw [theirs other same]
      exact sound.single other
  · intro other position response member
    by_cases same : other = call
    · rw [same, mine, mem_singleton] at member
      cases member
      rw [same]
      exact carried
    · rw [theirs other same] at member
      exact sound.own other position response member
  · exact fun _ _ same => by cases same

/-- A channel has room for the response in hand. -/
theorem Sound.room (handing : client.reader = .handing place message call) :
    (client.channels call).items = [] := by
  have single := sound.single call
  simp only [Client.handed, handing, Reader.handed, if_true, length_append, length_cons] at single
  exact length_eq_zero_iff.mp (by omega)

/-- The response in hand is put into the channel. -/
theorem Sound.hand (handing : client.reader = .handing place message call)
    (pushed : (client.channels call).push (place, message) = some slot) :
    Sound { client.setChannel call slot with reader := .reading } := by
  have filled : slot.items = [(place, message)] := by
    rw [BoundedQueue.push_items pushed, sound.room handing]
    rfl
  apply sound.moved
  · exact sound.numbered
  · exact fun _ _ entered => .inl entered
  · intro other
    by_cases same : other = call
    · subst same
      simp [Client.handed, Client.setChannel, Reader.handed, handing, filled, sound.room handing]
    · simp [Client.handed, Client.setChannel, Reader.handed, handing, same, Ne.symm same]
  · exact fun _ started => started
  · exact prefix_refl _
  · exact fun _ _ same => by cases same

end

/-- Every step of a call keeps the invariant. -/
theorem proceed_sound (sound : Sound client) (call : Nat)
    (move : CallStep) (taken : client.proceed call move = some next) : Sound next := by
  cases move with
  | register =>
    simp only [Client.proceed] at taken
    split at taken
    · rename_i drawn
      split at taken <;> cases taken
      · exact sound.at drawn rfl rfl rfl
      · exact sound.register drawn
    · cases taken
  | write written =>
    simp only [Client.proceed] at taken
    split at taken
    · rename_i registered
      cases taken
      exact sound.at registered rfl rfl rfl
    · rename_i registered
      split at taken <;> cases taken
      exact sound.at registered rfl rfl rfl
    · rename_i registered
      cases taken
      exact sound.at registered rfl rfl rfl
    · cases taken
  | broke =>
    simp only [Client.proceed] at taken
    split at taken
    · rename_i breaking
      split at taken <;> cases taken
      exact sound.at breaking rfl rfl rfl
    · cases taken
  | take =>
    simp only [Client.proceed] at taken
    split at taken <;> cases taken
    rename_i waiting popped
    exact sound.take waiting popped
  | cancel =>
    simp only [Client.proceed] at taken
    split at taken <;> cases taken
    rename_i waiting
    exact sound.at waiting rfl rfl rfl
  | drop =>
    simp only [Client.proceed] at taken
    split at taken
    · rename_i waiting
      split at taken <;> cases taken
      exact sound.at waiting rfl rfl rfl
    · cases taken
  | remove =>
    simp only [Client.proceed] at taken
    split at taken <;> cases taken
    rename_i leaving
    exact (sound.removePending (requestID call)).at leaving rfl rfl rfl

/-- A new call is not in the table. -/
theorem Sound.call (sound : Sound client) :
    Sound ({ client with nextID := client.nextID + 1 }.at (client.nextID + 1) .drawn) := by
  have unused : client.calls (client.nextID + 1) = none := sound.numbered _ (Nat.lt_succ_self _)
  apply sound.moved
  · intro call beyond
    have later : client.nextID + 1 < call := beyond
    have different : call ≠ client.nextID + 1 := by omega
    simp [Client.at, different, sound.numbered call (by omega)]
  · exact fun _ _ entered => .inl entered
  · exact handed_at (by rw [unused]; rfl) rfl
  · exact fresh_at (by simp [unused, fresh])
  · exact prefix_refl _
  · exact sound.looking

/-- Every step keeps the invariant. -/
theorem step_sound (sound : Sound client) (label : Label)
    (taken : step client label = some next) : Sound next := by
  cases label with
  | call =>
    cases taken
    exact sound.call
  | proceed call move => exact proceed_sound sound call move taken
  | close =>
    simp only [step] at taken
    split at taken <;> cases taken
    exact { sound with }
  | reset =>
    simp only [step] at taken
    split at taken <;> cases taken
    apply sound.moved
    · exact sound.numbered
    · exact fun _ _ entered => by cases entered
    · exact fun _ => rfl
    · exact fun _ started => started
    · exact prefix_refl _
    · exact sound.looking
  | read message =>
    cases message with
    | none =>
      simp only [step] at taken
      split at taken <;> cases taken
      exact sound
    | some message =>
      simp only [step] at taken
      split at taken <;> cases taken
      rename_i reading
      refine sound.reads ⟨rfl, rfl, rfl⟩ (fun _ _ entered => entered) ?_ ?_ ?_ ?_
      · intro call
        rw [reading]
        rfl
      · intro call
        split
        · rfl
        · rfl
      · exact List.prefix_append _ _
      · intro place response looking
        by_cases answer : message.isResponse = true
        · simp only [answer, if_true, Reader.looking.injEq] at looking
          obtain ⟨rfl, rfl⟩ := looking
          exact ⟨getElem?_concat_length, answer⟩
        · simp [answer] at looking
  | lookup =>
    simp only [step] at taken
    split at taken
    · rename_i place message looking
      obtain ⟨id, carries, rfl⟩ := map_eq_some_iff.mp taken
      exact sound.lookup looking carries
    · cases taken
  | hand =>
    simp only [step] at taken
    split at taken
    · rename_i place message call handing
      obtain ⟨slot, pushed, rfl⟩ := map_eq_some_iff.mp taken
      exact sound.hand handing pushed
    · cases taken
  | forward =>
    simp only [step] at taken
    split at taken
    · rename_i message forwarding
      obtain ⟨incoming, -, rfl⟩ := map_eq_some_iff.mp taken
      exact sound.reads ⟨rfl, rfl, rfl⟩ (fun _ _ entered => entered)
        (fun _ => by rw [forwarding]; rfl) (fun _ => rfl) (prefix_refl _)
        (fun _ _ same => by cases same)
    · cases taken
  | consume =>
    obtain ⟨popped, -, rfl⟩ := map_eq_some_iff.mp taken
    exact { sound with }
  | abandon =>
    simp only [step] at taken
    split at taken
    · rename_i message forwarding
      split at taken <;> cases taken
      exact sound.reads ⟨rfl, rfl, rfl⟩ (fun _ _ entered => entered)
        (fun _ => by rw [forwarding]; rfl) (fun _ => rfl) (prefix_refl _)
        (fun _ _ same => by cases same)
    · cases taken
  | stop =>
    simp only [step] at taken
    split at taken <;> cases taken
    rename_i reading
    exact sound.reads ⟨rfl, rfl, rfl⟩ (fun _ _ entered => entered)
      (fun _ => by rw [reading]; rfl) (fun _ => rfl) (prefix_refl _)
      (fun _ _ same => by cases same)

theorem start_sound : Sound {} where
  numbered := fun _ _ => rfl
  keyed := fun _ _ entered => by cases entered
  awaited := fun _ _ => rfl
  unstarted := fun _ _ => rfl
  single := fun _ => Nat.zero_le 1
  own := fun _ _ _ member => absurd member not_mem_nil
  looking := fun _ _ same => by cases same

/-! ## Every run -/

/-- What a client guarantees its callers. -/
structure Correct (client : Client) : Prop where
  /-- A call returns a response only if it carries the call's own id. -/
  own : ∀ call place message, client.calls call = some (.answered place message) →
    Own client call place message
  /-- No two calls return the same response. -/
  consumed : ∀ one other place message response,
    client.calls one = some (.answered place message) →
    client.calls other = some (.answered place response) → one = other
  /-- A call that was handed a response is not found under its id again. -/
  repeated : ∀ call, client.handed call ≠ [] → client.pending (requestID call) = none
  /-- A response whose id nobody stands under changes nothing. -/
  ignored : ∀ place message id, client.reader = .looking place message → message.id = some id →
    client.pending (requestIDKey id) = none →
    step client .lookup = some { client with reader := .reading }
  /-- Handing a response to its call is always possible. -/
  prompt : ∀ place message call, client.reader = .handing place message call →
    ∃ next, step client .hand = some next

theorem Sound.correct (sound : Sound client) : Correct client where
  own := by
    intro call place message answered
    apply sound.own call place message
    simp [Client.handed, answered, returned]
  consumed := by
    intro one other place message response first second
    have mine := sound.own one place message (by simp [Client.handed, first, returned])
    have theirs := sound.own other place response (by simp [Client.handed, second, returned])
    have same : message = response := some.inj (mine.1.symm.trans theirs.1)
    subst same
    have ids := some.inj (mine.2.1.symm.trans theirs.2.1)
    exact requestID_inj.mp (RawID.string.inj ids)
  repeated := by
    intro call handed
    cases found : client.pending (requestID call) with
    | none => rfl
    | some other =>
      have same : call = other := requestID_inj.mp (sound.keyed _ other found).1
      exact absurd (sound.awaited call (same ▸ found)) handed
  ignored := by
    intro place message id looking carries unknown
    have unchanged : update client.pending (requestIDKey id) none = client.pending := by
      rw [← unknown, update_eq_self]
    simp only [step, looking, carries, map_some, Client.lookup, unknown,
      Client.removePending, unchanged]
  prompt := by
    intro place message call handing
    have room : (client.channels call).length < 1 := by
      rw [BoundedQueue.length, sound.room handing]
      exact Nat.zero_lt_one
    simp only [step, handing, BoundedQueue.push, dif_pos room, map_some]
    exact ⟨_, rfl⟩

/-- Whatever the order of calls, responses, cancellations and the end of the connection: a call
returns a response only if it carries its own id, no response is returned by two calls, a
repeated or unknown response changes no call, and `readLoop` never waits to hand one over. -/
theorem responses_reach_their_calls (labels : List Label) (client : Client)
    (ran : Runs.run step {} labels = some client) : Correct client :=
  (Runs.run_kept Sound (fun _ label _ sound taken => step_sound sound label taken) start_sound
    ran).correct

/-- A response to a call. -/
def answerTo (call : Nat) : Message := { id := some (.string (requestID call)) }

/-- Two calls, the second answered first and once more. -/
def outOfOrder : List Label :=
  [.call, .call, .proceed 1 .register, .proceed 2 .register, .proceed 1 (.write .sent),
    .proceed 2 (.write .sent), .read (some (answerTo 2)), .lookup, .hand,
    .read (some (answerTo 1)), .lookup, .hand, .read (some (answerTo 2)), .lookup,
    .proceed 1 .take, .proceed 2 .take]

theorem responses_reach_their_calls_out_of_order : ∃ client,
    Runs.run step {} outOfOrder = some client ∧ Correct client ∧
      client.calls 1 = some (.answered 1 (answerTo 1)) ∧
      client.calls 2 = some (.answered 0 (answerTo 2)) := by
  have ran : (Runs.run step {} outOfOrder).map (fun client => (client.calls 1, client.calls 2)) =
      some (some (.answered 1 (answerTo 1)), some (.answered 0 (answerTo 2))) := by
    decide +kernel
  obtain ⟨client, reached, returned⟩ := map_eq_some_iff.mp ran
  obtain ⟨first, second⟩ := Prod.mk.inj returned
  exact ⟨client, reached, responses_reach_their_calls outOfOrder client reached, first, second⟩

end CodexRemote.Calls
