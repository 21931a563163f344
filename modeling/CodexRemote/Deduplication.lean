import CodexRemote.Dispatcher

/-!
# A side effect happens at most once

The thread whose `BeginRequest` wrote the row of a request id is the only one that
may call the backend for that id, and it calls once. This holds for every order of
threads, every failure of the database, also one that leaves a row behind, and
every restart, because the row is written before the call and is never removed.

A later dispatch of the same request finds the row and ends there: with the stored
response, or with the statement that no response is on record. A dispatch of a
different request under the same id ends with CONFLICT. Operations without side
effects do not consult the table at all; a query may reuse the id of a command and
is passed to the backend.
-/
namespace CodexRemote.Gateway

open Protocol Persistence Function List

variable {Digest Raw : Type}
  {host next : Host Digest Raw} {table : DedupTable Digest Raw} {calls : List Nat}
  {index : Nat} {old new : Thread Digest Raw} {codec : Codec Digest Raw} {now : Int}

theorem name_nonempty (operation : Operation) : operation.name ≠ "" := by
  cases operation <;> decide

/-- A Go error, or a response that carries an error. -/
def IsError : Except DispatchError Response → Prop
  | .error _ => True
  | .ok response => ∃ detail, response.result = .error detail

/-- The row describes the request: same operation, same fingerprint. -/
def Matches (codec : Codec Digest Raw) (request : Request)
    (record : DedupRecord Digest Raw) : Prop :=
  record.operation = request.operation.name ∧
    codec.fingerprint request.fingerprinted = some record.fingerprint

/-- What a dispatch that found a row must answer. -/
structure Answers (codec : Codec Digest Raw) (request : Request)
    (record : DedupRecord Digest Raw) (outcome : Except DispatchError Response) : Prop where
  other : ¬ Matches codec request record →
    ∃ now, outcome = .ok (conflictResponse request.requestId now)
  unanswered : Matches codec request record → record.response = none →
    ∃ now, outcome = .ok (inProgressResponse request.requestId now)
  answered : Matches codec request record → ∀ raw response, record.response = some raw →
    codec.decode raw = some response → outcome = .ok (markDeduplicated response)

/-- What a thread at a stage has and has not done. -/
def StageOk (codec : Codec Digest Raw) (calls : List Nat) (index : Nat)
    (thread : Thread Digest Raw) : Prop :=
  match thread.stage with
  | .waiting fingerprint =>
      thread.request.operation.sideEffect = true ∧ thread.request.requestId ≠ "" ∧
        codec.fingerprint thread.request.fingerprinted = some fingerprint ∧
        index ∉ calls ∧ thread.wrote = false ∧ thread.met = none
  | .ready reserved =>
      reserved = thread.request.operation.sideEffect ∧
        (reserved = true → thread.wrote = true) ∧ index ∉ calls ∧ thread.met = none
  | .calling reserved _ =>
      reserved = thread.request.operation.sideEffect ∧
        (reserved = true → thread.wrote = true) ∧ thread.met = none
  | .answered response =>
      thread.wrote = true ∧ thread.response = some response ∧ thread.met = none
  | .done outcome =>
      (index ∈ calls → thread.request.operation.sideEffect = true → thread.wrote = true) ∧
        (thread.request.operation.sideEffect = true → thread.wrote = false →
          (thread.met = none → IsError outcome) ∧
          ∀ record, thread.met = some record → Answers codec thread.request record outcome)
  | .lost =>
      index ∈ calls → thread.request.operation.sideEffect = true → thread.wrote = true

def Stage.unfinished : Stage Digest → Bool
  | .done _ | .lost => false
  | _ => true

/-- The row of a thread that wrote one: it describes the thread's request, it is
open until the thread is finished, and a response on it is the thread's own. -/
def OwnRow (codec : Codec Digest Raw) (table : DedupTable Digest Raw)
    (thread : Thread Digest Raw) : Prop :=
  ∃ record, table thread.request.requestId = some record ∧
    record.operation = thread.request.operation.name ∧
    codec.fingerprint thread.request.fingerprinted = some record.fingerprint ∧
    (thread.stage.unfinished = true → record.response = none) ∧
    ∀ raw, record.response = some raw →
      ∃ response, thread.response = some response ∧ codec.encode response = some raw

/-- A row that was found is still there, at most completed since. -/
def RowKept (table : DedupTable Digest Raw) (requestId : String)
    (record : DedupRecord Digest Raw) : Prop :=
  ∃ row, table requestId = some row ∧ row.operation = record.operation ∧
    row.fingerprint = record.fingerprint ∧
    ∀ raw, record.response = some raw → row.response = some raw

/-- The law of the table, the threads and the calls. -/
structure Consistent (codec : Codec Digest Raw) (host : Host Digest Raw) : Prop where
  own_row : ∀ (index : Nat) thread, host.threads[index]? = some thread → thread.wrote = true →
    OwnRow codec host.table thread
  owned : ∀ id record, host.table id = some record →
    ∃ (index : Nat) (thread : Thread Digest Raw), host.threads[index]? = some thread ∧
      thread.wrote = true ∧ thread.request.requestId = id
  single : ∀ (left right : Nat) (first second : Thread Digest Raw),
    host.threads[left]? = some first → host.threads[right]? = some second →
    first.wrote = true → second.wrote = true →
    first.request.requestId = second.request.requestId → left = right
  found : ∀ (index : Nat) thread record, host.threads[index]? = some thread →
    thread.met = some record → RowKept host.table thread.request.requestId record
  stages : ∀ (index : Nat) thread, host.threads[index]? = some thread →
    StageOk codec host.calls index thread
  called : ∀ index ∈ host.calls, index < host.threads.length
  once : host.calls.Nodup

theorem fresh_consistent (codec : Codec Digest Raw) :
    Consistent codec (Host.fresh : Host Digest Raw) := by
  constructor
  case once => exact nodup_nil
  all_goals simp [Host.fresh]

/-- Reading a thread after one was replaced. -/
theorem put_thread (host : Host Digest Raw) (index other : Nat)
    (old thread : Thread Digest Raw) (present : host.threads[index]? = some old) :
    (host.put index thread).threads[other]? =
      if other = index then some thread else host.threads[other]? := by
  have inside : index < host.threads.length := (List.getElem?_eq_some_iff.mp present).1
  by_cases same : other = index
  · subst same
    simp [Host.put, inside]
  · have apart : index ≠ other := fun equal => same equal.symm
    simp [Host.put, apart, same]

/-- A thread read after one was replaced is the new one, or was there before. -/
theorem put_cases (present : host.threads[index]? = some old)
    (there : ({ host with table := table, calls := calls }.put index new).threads[other]? =
      some thread) :
    (other = index ∧ thread = new) ∨ (other ≠ index ∧ host.threads[other]? = some thread) := by
  rw [put_thread { host with table := table, calls := calls } index other old new present] at there
  split at there
  · next same => exact .inl ⟨same, (Option.some.inj there).symm⟩
  · next distinct => exact .inr ⟨distinct, there⟩

/-- What `Dispatch` lets past its first checks. -/
theorem enterDispatch_stage (codec : Codec Digest Raw) (request : Request) (now : Int)
    (backend dedup : Bool) (unused : index ∉ calls) :
    StageOk codec calls index
      { request := request, stage := enterDispatch codec request now backend dedup } := by
  have ends : ∀ outcome, IsError outcome →
      StageOk codec calls index { request := request, stage := .done outcome } :=
    fun _ error => ⟨fun member => (unused member).elim, fun _ _ => ⟨fun _ => error, by simp⟩⟩
  unfold enterDispatch
  cases refused : validateRequest request now with
  | some refusal =>
    have error : ∃ detail, refusal.result = .error detail := by
      unfold validateRequest at refused
      split at refused
      · cases refused
        exact ⟨_, rfl⟩
      split at refused
      · cases refused
        exact ⟨_, rfl⟩
      split at refused <;> cases refused
      exact ⟨_, rfl⟩
    exact ends _ error
  | none =>
    have named : request.requestId ≠ "" := by
      intro blank
      simp [validateRequest, blank] at refused
    simp only
    split
    · exact ends _ ⟨_, rfl⟩
    split
    · exact ends _ trivial
    split
    · next query =>
      split
      · exact ends _ ⟨_, rfl⟩
      · exact ⟨query.symm, by simp, unused, rfl⟩
    next effect =>
    split
    · exact ends _ ⟨_, rfl⟩
    cases digest : codec.fingerprint request.fingerprinted with
    | none => exact ends _ trivial
    | some fingerprint => exact ⟨by simpa using effect, named, digest, unused, rfl, rfl⟩

/-- A call of one thread changes no other thread's standing. -/
theorem stageOk_calls (distinct : other ≠ index) (standing : StageOk codec calls other thread) :
    StageOk codec (calls ++ [index]) other thread := by
  have absent : other ∉ calls → other ∉ calls ++ [index] := by
    intro outside member
    rcases mem_append.mp member with earlier | last
    · exact outside earlier
    · exact distinct (mem_singleton.mp last)
  have earlier : other ∈ calls ++ [index] → other ∈ calls := by
    intro member
    by_contra outside
    exact absent outside member
  unfold StageOk at standing ⊢
  cases stage : thread.stage with
  | waiting fingerprint =>
    simp only [stage] at standing ⊢
    exact ⟨standing.1, standing.2.1, standing.2.2.1, absent standing.2.2.2.1, standing.2.2.2.2⟩
  | ready reserved =>
    simp only [stage] at standing ⊢
    exact ⟨standing.1, standing.2.1, absent standing.2.2.1, standing.2.2.2⟩
  | calling reserved startedAt | answered response =>
    simp only [stage] at standing ⊢
    exact standing
  | done outcome =>
    simp only [stage] at standing ⊢
    exact ⟨fun member => standing.1 (earlier member), standing.2⟩
  | lost =>
    simp only [stage] at standing ⊢
    exact fun member => standing (earlier member)

/-- The rule for a step of one thread. It keeps the law when the thread's own row
and stage are in order and it touches no row but that of its id, and that one only
as its owner.

Proof: other threads keep their rows. A row that changed is the moving thread's;
if it was new, no thread owned it before, and if not, its owner is unique. -/
theorem consistent_put (kept : Consistent codec host) (present : host.threads[index]? = some old)
    (request : new.request = old.request) (keeps : old.wrote = true → new.wrote = true)
    (fresh : new.wrote = true → old.wrote = false →
      host.table old.request.requestId = none)
    (elsewhere : ∀ id, id ≠ old.request.requestId → table id = host.table id)
    (unchanged : new.wrote = false → table = host.table)
    (own : new.wrote = true → OwnRow codec table new)
    (grown : ∀ record, RowKept host.table old.request.requestId record →
      RowKept table old.request.requestId record) (met : ∀ record, new.met = some record →
      RowKept table old.request.requestId record) (stage : StageOk codec calls index new)
    (called : calls = host.calls ∨ (index ∉ host.calls ∧ calls = host.calls ++ [index])) :
    Consistent codec ({ host with table := table, calls := calls }.put index new) := by
  have inside : index < host.threads.length := (List.getElem?_eq_some_iff.mp present).1
  have reads : ∀ other : Nat,
      ({ host with table := table, calls := calls }.put index new).threads[other]? =
        if other = index then some new else host.threads[other]? :=
    fun other => put_thread { host with table := table, calls := calls } index other old new
      present
  have alone : new.wrote = true → ∀ (other : Nat) (thread : Thread Digest Raw),
      host.threads[other]? = some thread → thread.wrote = true → other ≠ index →
      thread.request.requestId ≠ old.request.requestId := by
    intro writes other thread there owns distinct same
    cases before : old.wrote with
    | true => exact distinct (kept.single other index thread old there present owns before same)
    | false =>
      obtain ⟨record, row, -⟩ := kept.own_row other thread there owns
      rw [same, fresh writes before] at row
      cases row
  constructor
  · intro other thread there owns
    rw [reads] at there
    split at there
    · cases there
      exact own owns
    next distinct =>
    have before := kept.own_row other thread there owns
    cases writes : new.wrote with
    | false =>
      rw [unchanged writes]
      exact before
    | true =>
      obtain ⟨record, row, rest⟩ := before
      have apart := alone writes other thread there owns distinct
      exact ⟨record, (elsewhere _ apart).trans row, rest⟩
  · intro id record row
    change table id = some record at row
    have owner_before : host.table id = some record → ∃ (other : Nat) (thread : Thread Digest Raw),
          ({ host with table := table, calls := calls }.put index new).threads[other]? =
            some thread ∧ thread.wrote = true ∧ thread.request.requestId = id := by
      intro earlier
      obtain ⟨other, thread, there, owns, named⟩ := kept.owned id record earlier
      by_cases same : other = index
      · subst same
        cases present.symm.trans there
        exact ⟨other, new, by rw [reads, if_pos rfl], keeps owns, by rw [request, named]⟩
      · exact ⟨other, thread, by rw [reads, if_neg same, there], owns, named⟩
    cases writes : new.wrote with
    | false => exact owner_before (by rw [← unchanged writes, row])
    | true =>
      by_cases named : id = old.request.requestId
      · exact ⟨index, new, by rw [reads, if_pos rfl], writes, by rw [request, named]⟩
      · exact owner_before ((elsewhere id named).symm.trans row)
  · intro left right first second left_there right_there left_owns right_owns same
    rw [reads] at left_there right_there
    split at left_there <;> split at right_there
    · next one two => rw [one, two]
    · next one two =>
      cases left_there
      rw [request] at same
      exact (alone left_owns right second right_there right_owns two same.symm).elim
    · next one two =>
      cases right_there
      rw [request] at same
      exact (alone right_owns left first left_there left_owns one same).elim
    · exact kept.single left right first second left_there right_there left_owns right_owns same
  · intro other thread record there finds
    rw [reads] at there
    split at there
    · cases there
      rw [request]
      exact met record finds
    · have before := kept.found other thread record there finds
      by_cases named : thread.request.requestId = old.request.requestId
      · rw [named] at before ⊢
        exact grown record before
      · obtain ⟨row, stored, rest⟩ := before
        exact ⟨row, (elsewhere _ named).trans stored, rest⟩
  · intro other thread there
    rw [reads] at there
    split at there
    · next same =>
      cases there
      rw [same]
      exact stage
    · next distinct =>
      have before := kept.stages other thread there
      rcases called with rfl | ⟨-, rfl⟩
      · exact before
      · exact stageOk_calls distinct before
  · intro other member
    have length : ({ host with table := table, calls := calls }.put index new).threads.length =
        host.threads.length := length_set
    rw [length]
    rcases called with rfl | ⟨-, rfl⟩
    · exact kept.called other member
    rcases mem_append.mp member with earlier | last
    · exact kept.called other earlier
    · rw [mem_singleton.mp last]
      exact inside
  · rcases called with rfl | ⟨outside, rfl⟩
    · exact kept.once
    refine nodup_append.mpr ⟨kept.once, by simp, ?_⟩
    intro first earlier second last same
    rw [mem_singleton.mp last] at same
    exact outside (same ▸ earlier)

/-- An arrival adds a thread that has touched nothing. -/
theorem arrive_consistent [DecidableEq Digest] {dedup : Bool} (kept : Consistent codec host)
    (stepped : step codec host (.arrive request now backend dedup) = some next) :
    Consistent codec next := by
  cases stepped
  have reads : ∀ (index : Nat) thread, (host.threads ++
      [{ request := request, stage := enterDispatch codec request now backend dedup }])[index]? =
        some thread →
      host.threads[index]? = some thread ∨ (index = host.threads.length ∧
        thread =
          { request := request, stage := enterDispatch codec request now backend dedup }) := by
    intro index thread there
    by_cases inside : index < host.threads.length
    · rw [getElem?_append_left inside] at there
      exact .inl there
    rw [getElem?_append_right (by omega)] at there
    obtain ⟨bound, same⟩ := List.getElem?_eq_some_iff.mp there
    simp only [length_singleton] at bound
    exact .inr ⟨by omega, by simpa using same.symm⟩
  have writer : ∀ (index : Nat) thread, (host.threads ++
      [{ request := request, stage := enterDispatch codec request now backend dedup }])[index]? =
        some thread → thread.wrote = true → host.threads[index]? = some thread := by
    intro index thread there owns
    rcases reads index thread there with earlier | ⟨-, rfl⟩
    · exact earlier
    · cases owns
  constructor
  · intro index thread there owns
    exact kept.own_row index thread (writer index thread there owns) owns
  · intro id record row
    obtain ⟨index, thread, there, rest⟩ := kept.owned id record row
    have inside : index < host.threads.length := (List.getElem?_eq_some_iff.mp there).1
    exact ⟨index, thread, (getElem?_append_left inside).trans there, rest⟩
  · intro left right first second left_there right_there left_owns right_owns
    exact kept.single left right first second (writer left first left_there left_owns)
      (writer right second right_there right_owns) left_owns right_owns
  · intro index thread record there finds
    rcases reads index thread there with earlier | ⟨-, rfl⟩
    · exact kept.found index thread record earlier finds
    · cases finds
  · intro index thread there
    rcases reads index thread there with earlier | ⟨rfl, rfl⟩
    · exact kept.stages index thread earlier
    · refine enterDispatch_stage codec request now backend dedup ?_
      intro member
      exact Nat.lt_irrefl _ (kept.called _ member)
  · intro index member
    have inside := kept.called index member
    simp only [length_append]
    omega
  · exact kept.once

/-- A row that is kept stays as it is. -/
theorem rowKept_refl (row : table requestId = some record) : RowKept table requestId record :=
  ⟨record, row, rfl, rfl, fun _ stored => stored⟩

/-- A thread that ends at its reservation, leaving the table alone, keeps the law
when its answer is in order. -/
theorem ended_consistent (outcome : Except DispatchError Response)
    (met : Option (DedupRecord Digest Raw)) (kept : Consistent codec host)
    (present : host.threads[index]? = some old) (clean : old.wrote = false)
    (uncalled : index ∉ host.calls) (silent : met = none → IsError outcome)
    (answers : ∀ record, met = some record →
      host.table old.request.requestId = some record ∧
        Answers codec old.request record outcome) :
    Consistent codec (host.put index
      { old with stage := .done outcome, wrote := false, met := met }) := by
  refine consistent_put kept present rfl ?_ ?_ ?_
    (fun _ => rfl) ?_ (fun _ row => row) ?_ ?_ (.inl rfl)
  · intro owns
    rw [clean] at owns
    cases owns
  · intro owns
    cases owns
  · exact fun _ _ => rfl
  · intro owns
    cases owns
  · intro record finds
    exact rowKept_refl (answers record finds).1
  · exact ⟨fun member => (uncalled member).elim,
      fun _ _ => ⟨silent, fun record finds => (answers record finds).2⟩⟩

/-- A thread that wrote its row keeps the law, whether or not it learned of it. -/
theorem written_consistent (codec : Codec Digest Raw) (host : Host Digest Raw) (index : Nat)
    (old : Thread Digest Raw) (stage : Stage Digest) (fingerprint : Digest)
    (kept : Consistent codec host) (present : host.threads[index]? = some old)
    (free : host.table old.request.requestId = none)
    (digest : codec.fingerprint old.request.fingerprinted = some fingerprint)
    (standing : StageOk codec host.calls index
      { old with stage := stage, wrote := true, met := none }) :
    Consistent codec ({ host with
      table := update host.table old.request.requestId (some
        { operation := old.request.operation.name, fingerprint := fingerprint }) }.put index
      { old with stage := stage, wrote := true, met := none }) := by
  refine consistent_put kept present rfl ?_ ?_ ?_ ?_ ?_ ?_ ?_ standing (.inl rfl)
  · exact fun _ => rfl
  · exact fun _ _ => free
  · intro id distinct
    exact update_of_ne distinct _ _
  · intro owns
    cases owns
  · intro _
    refine ⟨_, update_self .., rfl, digest, fun _ => rfl, ?_⟩
    intro raw stored
    cases stored
  · rintro record ⟨row, stored, -⟩
    rw [free] at stored
    cases stored
  · intro record finds
    cases finds

/-- A reservation keeps the law, for every outcome of its transaction. -/
theorem reserve_consistent [DecidableEq Digest] (kept : Consistent codec host)
    (stepped : step codec host (.reserve index now outcome driver) = some next) :
    Consistent codec next := by
  obtain ⟨old, fingerprint, present, stage, rfl⟩ := reserve_cases stepped
  have standing := kept.stages index old present
  simp only [StageOk, stage] at standing
  obtain ⟨effect, named, digest, uncalled, clean, -⟩ := standing
  have fails := ended_consistent
    (.ok (errorResponse old.request.requestId now .internalError driver true)) none kept present
    clean uncalled (fun _ => ⟨_, rfl⟩) (by simp)
  simp only [beginRequest, named, name_nonempty, or_self, if_false]
  cases row : host.table old.request.requestId with
  | none =>
    have written := fun stage => written_consistent codec host index old stage fingerprint kept
      present row digest
    cases outcome with
    | committed =>
      simpa [row, afterBegin, CommitOutcome.durable] using
        written (.ready true) ⟨effect.symm, fun _ => rfl, uncalled, rfl⟩
    | rolledBack => simpa [row, afterBegin, CommitOutcome.durable] using fails
    | unknown durable =>
      cases durable with
      | false => simpa [row, afterBegin, CommitOutcome.durable] using fails
      | true =>
        simpa [row, afterBegin, CommitOutcome.durable] using written (.done (.ok _))
          ⟨fun member => (uncalled member).elim, fun _ owns => by cases owns⟩
  | some record =>
    by_cases committed : outcome = .committed
    case neg => simpa [row, committed, afterBegin] using fails
    -- The thread meets the row and ends with the answer that the row gives it.
    have ends := fun outcome (answers : Answers codec old.request record outcome) =>
      ended_consistent outcome (some record) kept present clean uncalled (by simp)
        (by rintro _ ⟨⟩; exact ⟨row, answers⟩)
    have matches_iff : Matches codec old.request record ↔
        record.operation = old.request.operation.name ∧ record.fingerprint = fingerprint := by
      unfold Matches
      rw [digest, Option.some.injEq]
      exact and_congr_right fun _ => eq_comm
    by_cases fits : Matches codec old.request record
    case neg =>
      have differs := not_and_or.mp (mt matches_iff.mpr fits)
      simpa [row, committed, differs, afterBegin] using ends (.ok (conflictResponse _ now))
        ⟨fun _ => ⟨now, rfl⟩, fun same => (fits same).elim, fun same => (fits same).elim⟩
    have same := matches_iff.mp fits
    cases stored : record.response with
    | none =>
      simpa [row, committed, same, stored, afterBegin] using ends (.ok (inProgressResponse _ now))
        ⟨fun other => (other fits).elim, fun _ _ => ⟨now, rfl⟩, by simp [stored]⟩
    | some raw =>
      have answers : ∀ outcome, (∀ given, codec.decode raw = some given →
          outcome = .ok (markDeduplicated given)) → Answers codec old.request record outcome := by
        intro outcome told
        refine ⟨fun other => (other fits).elim, by simp [stored], ?_⟩
        intro _ found given is reads
        cases stored.symm.trans is
        exact told given reads
      cases decoded : codec.decode raw with
      | none =>
        simpa [row, committed, same, stored, afterBegin, decoded] using
          ends _ (answers (.error .decode) (by simp [decoded]))
      | some response =>
        simpa [row, committed, same, stored, afterBegin, decoded] using
          ends _ (answers (.ok (markDeduplicated response)) (by simp [decoded]))

/-- A thread that moves without touching table, history of rows or calls keeps the
law when its new stage is in order and its row, if it has one, still fits. -/
theorem moved_consistent (kept : Consistent codec host) (present : host.threads[index]? = some old)
    (request : new.request = old.request) (wrote : new.wrote = old.wrote) (met : new.met = old.met)
    (own : OwnRow codec host.table old → OwnRow codec host.table new)
    (stage : StageOk codec calls index new)
    (called : calls = host.calls ∨ (index ∉ host.calls ∧ calls = host.calls ++ [index])) :
    Consistent codec ({ host with calls := calls }.put index new) := by
  refine consistent_put kept present request ?_ ?_ ?_
    (fun _ => rfl) ?_ (fun _ row => row) ?_ stage called
  · exact fun owns => wrote.trans owns
  · intro owns clean
    rw [wrote, clean] at owns
    cases owns
  · exact fun _ _ => rfl
  · exact fun owns => own (kept.own_row index old present (wrote ▸ owns))
  · intro record finds
    exact kept.found index old record present (met ▸ finds)

/-- The rest of a row's law when its thread stays unfinished and keeps its
response. -/
theorem ownRow_congr (request : new.request = old.request) (response : new.response = old.response)
    (unfinished : new.stage.unfinished = true → old.stage.unfinished = true)
    (own : OwnRow codec table old) : OwnRow codec table new := by
  obtain ⟨record, row, operation, digest, open_row, answered⟩ := own
  refine ⟨record, ?_, ?_, ?_, fun going => open_row (unfinished going), ?_⟩
  · rw [request, row]
  · rw [request, operation]
  · rw [request, digest]
  · intro raw stored
    rw [response]
    exact answered raw stored

/-- A response given while the row is open cannot contradict it. -/
theorem ownRow_answer (request : new.request = old.request) (going : old.stage.unfinished = true)
    (own : OwnRow codec table old) : OwnRow codec table new := by
  obtain ⟨record, row, operation, digest, open_row, -⟩ := own
  refine ⟨record, ?_, ?_, ?_, fun _ => open_row going, ?_⟩
  · rw [request, row]
  · rw [request, operation]
  · rw [request, digest]
  · intro raw stored
    rw [open_row going] at stored
    cases stored

section

variable (kept : Consistent codec host)
include kept

theorem invoke_consistent [DecidableEq Digest] (stepped : step codec host
    (.invoke index now) = some next) : Consistent codec next := by
  obtain ⟨old, reserved, present, stage, rfl⟩ := invoke_cases stepped
  have standing := kept.stages index old present
  simp only [StageOk, stage] at standing
  obtain ⟨kind, writes, uncalled, unmet⟩ := standing
  exact moved_consistent kept present rfl rfl rfl
    (ownRow_congr rfl rfl fun _ => by rw [stage]; rfl) ⟨kind, writes, unmet⟩
    (.inr ⟨uncalled, rfl⟩)

theorem finish_consistent [DecidableEq Digest] (stepped : step codec host
    (.finish index result) = some next) : Consistent codec next := by
  obtain ⟨old, reserved, startedAt, present, stage, rfl⟩ := finish_cases stepped
  have standing := kept.stages index old present
  simp only [StageOk, stage] at standing
  obtain ⟨kind, writes, unmet⟩ := standing
  refine moved_consistent kept present rfl rfl rfl
    (ownRow_answer rfl (by rw [stage]; rfl)) ?_ (.inl rfl)
  cases reserved with
  | true => exact ⟨writes rfl, rfl, unmet⟩
  | false =>
    refine ⟨?_, ?_⟩
    · intro _ effect
      rw [← kind] at effect
      cases effect
    · intro effect
      rw [← kind] at effect
      cases effect

/-- A completion stores the owner's own response in its own open row, or nothing. -/
theorem complete_consistent [DecidableEq Digest]
    (stepped : step codec host (.complete index outcome) = some next) :
    Consistent codec next := by
  obtain ⟨old, response, present, stage, body⟩ := complete_cases stepped
  have standing := kept.stages index old present
  simp only [StageOk, stage] at standing
  obtain ⟨writes, given, unmet⟩ := standing
  have finished : ∀ result : Except DispatchError Response,
      StageOk codec host.calls index { old with stage := .done result } := by
    intro result
    refine ⟨fun _ _ => writes, ?_⟩
    intro _ clean
    rw [writes] at clean
    cases clean
  obtain ⟨record, row, operation, digest, open_row, -⟩ := kept.own_row index old present writes
  have empty : record.response = none := open_row (by rw [stage]; rfl)
  obtain ⟨-, rfl⟩ | ⟨raw, encoded, rfl⟩ := body
  · exact moved_consistent kept present rfl rfl rfl
      (ownRow_congr rfl rfl fun going => by cases going) (finished _)
      (.inl rfl)
  · by_cases durable : outcome.durable = true
    · have stored : (completeRequest host.table old.request.requestId raw outcome).1 =
          update host.table old.request.requestId
            (some { record with response := some raw }) := by
        simp [completeRequest, row, empty, durable]
      refine consistent_put kept present rfl
        (fun owns => owns) ?_ ?_ ?_ ?_ ?_ ?_ (finished _) (.inl rfl)
      · intro _ clean
        rw [writes] at clean
        cases clean
      · intro id distinct
        rw [stored, update_of_ne distinct]
      · intro clean
        rw [writes] at clean
        cases clean
      · intro _
        refine ⟨{ record with response := some raw }, ?_, operation, digest, ?_, ?_⟩
        · rw [stored, update_self]
        · intro going
          cases going
        · intro raw' same
          cases same
          exact ⟨response, given, encoded⟩
      · rintro earlier ⟨found, there, same_operation, same_print, completed⟩
        cases row.symm.trans there
        refine ⟨{ record with response := some raw }, ?_, same_operation, same_print, ?_⟩
        · rw [stored, update_self]
        · intro raw' answered
          rw [empty] at completed
          cases completed raw' answered
      · intro record' finds
        rw [unmet] at finds
        cases finds
    · have untouched : (completeRequest host.table old.request.requestId raw outcome).1 =
          host.table := by
        simp [completeRequest, row, empty, durable]
      simp only [untouched]
      exact moved_consistent kept present rfl rfl rfl
        (ownRow_congr rfl rfl fun going => by cases going) (finished _)
        (.inl rfl)

theorem expire_consistent [DecidableEq Digest] (stepped : step codec host
    (.expire index expiry) = some next) : Consistent codec next := by
  obtain ⟨old, present, rfl⟩ := Option.map_eq_some_iff.mp stepped
  exact moved_consistent kept present rfl rfl rfl (ownRow_congr rfl rfl id)
    (kept.stages index old present) (.inl rfl)

end

theorem interrupted_fields (thread : Thread Digest Raw) :
    thread.interrupted.request = thread.request ∧ thread.interrupted.wrote = thread.wrote ∧
      thread.interrupted.met = thread.met ∧ thread.interrupted.response = thread.response ∧
      thread.interrupted.stage.unfinished = false := by
  cases stage : thread.stage <;> simp [Thread.interrupted, stage, Stage.unfinished]

/-- A restart loses unfinished threads and nothing else.

Proof: rows, owners and calls are as before. An unfinished thread that called the
backend for a side effect is one that wrote its row. -/
theorem restart_consistent [DecidableEq Digest] (kept : Consistent codec host)
    (stepped : step codec host .restart = some next) : Consistent codec next := by
  cases stepped
  have reads : ∀ (index : Nat) thread, (host.threads.map Thread.interrupted)[index]? = some thread →
      ∃ old, host.threads[index]? = some old ∧ old.interrupted = thread := by
    intro index thread there
    rw [getElem?_map] at there
    exact Option.map_eq_some_iff.mp there
  constructor
  · intro index thread there owns
    obtain ⟨old, present, rfl⟩ := reads index thread there
    obtain ⟨request, wrote, -, response, elapsed⟩ := interrupted_fields old
    exact ownRow_congr request response (fun going => by rw [elapsed] at going; cases going)
      (kept.own_row index old present (wrote ▸ owns))
  · intro id record row
    obtain ⟨index, thread, there, owns, named⟩ := kept.owned id record row
    obtain ⟨request, wrote, -⟩ := interrupted_fields thread
    refine ⟨index, thread.interrupted, ?_, wrote.trans owns, by rw [request, named]⟩
    rw [getElem?_map, there]
    rfl
  · intro left right first second left_there right_there left_owns right_owns same
    obtain ⟨one, one_there, rfl⟩ := reads left first left_there
    obtain ⟨two, two_there, rfl⟩ := reads right second right_there
    obtain ⟨one_request, one_wrote, -⟩ := interrupted_fields one
    obtain ⟨two_request, two_wrote, -⟩ := interrupted_fields two
    exact kept.single left right one two one_there two_there (one_wrote ▸ left_owns)
      (two_wrote ▸ right_owns) (by rw [← one_request, ← two_request, same])
  · intro index thread record there finds
    obtain ⟨old, present, rfl⟩ := reads index thread there
    obtain ⟨request, -, met, -⟩ := interrupted_fields old
    rw [request]
    exact kept.found index old record present (met ▸ finds)
  · intro index thread there
    obtain ⟨old, present, rfl⟩ := reads index thread there
    have standing := kept.stages index old present
    cases stage : old.stage <;> simp only [StageOk, Thread.interrupted, stage] at standing ⊢
    case waiting fingerprint =>
      exact fun member => (standing.2.2.2.1 member).elim
    case ready reserved =>
      exact fun member => (standing.2.2.1 member).elim
    case calling reserved startedAt =>
      exact fun _ effect => standing.2.1 (standing.1.trans effect)
    case answered response =>
      exact fun _ _ => standing.1
    case done outcome | lost =>
      exact standing
  · intro index member
    simpa using kept.called index member
  · exact kept.once

/-- Every step keeps the law. -/
theorem step_consistent [DecidableEq Digest] (codec : Codec Digest Raw) (host : Host Digest Raw)
    (label : Label) (next : Host Digest Raw) (kept : Consistent codec host)
    (stepped : step codec host label = some next) : Consistent codec next := by
  cases label with
  | arrive request now backend dedup => exact arrive_consistent kept stepped
  | expire index expiry => exact expire_consistent kept stepped
  | reserve index now outcome driver => exact reserve_consistent kept stepped
  | invoke index now => exact invoke_consistent kept stepped
  | finish index result => exact finish_consistent kept stepped
  | complete index outcome => exact complete_consistent kept stepped
  | restart => exact restart_consistent kept stepped

theorem run_consistent [DecidableEq Digest]
    (ran : Runs.run (step codec) Host.fresh labels = some host) :
    Consistent codec host :=
  Runs.run_kept (Consistent codec) (step_consistent codec) (fresh_consistent codec) ran

/-- The call was made for a side effect under the given id. -/
def Host.effectful (host : Host Digest Raw) (requestId : String) (index : Nat) : Bool :=
  match host.threads[index]? with
  | some thread =>
      thread.request.operation.sideEffect && decide (thread.request.requestId = requestId)
  | none => false

/-- Two calls for side effects under one id are the same call. -/
theorem effectful_single (kept : Consistent codec host) (left_called : left ∈ host.calls)
    (right_called : right ∈ host.calls) (left_effect : host.effectful requestId left = true)
    (right_effect : host.effectful requestId right = true) : left = right := by
  have owner : ∀ index, index ∈ host.calls → host.effectful requestId index = true →
      ∃ thread, host.threads[index]? = some thread ∧ thread.wrote = true ∧
        thread.request.requestId = requestId := by
    intro index called effect
    cases present : host.threads[index]? with
    | none => simp [Host.effectful, present] at effect
    | some thread =>
      simp only [Host.effectful, present, Bool.and_eq_true, decide_eq_true_eq] at effect
      refine ⟨thread, rfl, ?_, effect.2⟩
      have standing := kept.stages index thread present
      unfold StageOk at standing
      split at standing
      · exact (standing.2.2.2.1 called).elim
      · exact (standing.2.2.1 called).elim
      · exact standing.2.1 (standing.1.trans effect.1)
      · exact standing.1
      · exact standing.1 called effect.1
      · exact standing called effect.1
  obtain ⟨first, first_there, first_owns, first_named⟩ := owner left left_called left_effect
  obtain ⟨second, second_there, second_owns, second_named⟩ := owner right right_called right_effect
  exact kept.single left right first second first_there second_there first_owns second_owns
    (first_named.trans second_named.symm)

/-- A response without its mark. -/
def Response.unmarked (response : Response) : Response :=
  match response.result with
  | .value operation _ body => { response with result := .value operation false body }
  | .error _ => response

/-- Marking changes the mark only. -/
theorem mark_unmarked (response : Response) :
    (markDeduplicated response).unmarked = response.unmarked := by
  obtain ⟨requestId, respondedAt, ⟨operation, deduplicated, body⟩ | detail⟩ := response
  · by_cases marked : operation.carriesMark = true
    · simp [markDeduplicated, Response.unmarked, marked]
    · simp [markDeduplicated, Response.unmarked, marked]
  · rfl

/-- A row that was found describes a request exactly when its owner's request has
the same operation and payload. -/
theorem matches_owner {owner : Request} (request : Request) {row : DedupRecord Digest Raw}
    (operation : row.operation = record.operation) (print : row.fingerprint = record.fingerprint)
    (owner_operation : row.operation = owner.operation.name)
    (owner_print : codec.fingerprint owner.fingerprinted = some row.fingerprint) :
    Matches codec request record ↔ request.fingerprinted = owner.fingerprinted := by
  constructor
  · rintro ⟨-, digest⟩
    rw [← print] at digest
    exact codec.fingerprint_injective _ _ _ digest owner_print
  · intro same
    have payload : request.fingerprinted.payload = owner.fingerprinted.payload := by
      rw [same]
    change request.payload = owner.payload at payload
    refine ⟨?_, ?_⟩
    · rw [← operation, owner_operation, Request.operation, Request.operation, payload]
    · rw [same, owner_print, print]

/-- An operation without side effects that `Dispatch` takes. -/
def Query (request : Request) : Prop :=
  request.operation.sideEffect = false ∧
    request.operation ∉ [.watchCodex, .unwatchCodex, .unknown]

/-- The steps are taken, one more dispatch calls the backend, and the table is left alone. -/
def Passed [DecidableEq Digest] (codec : Codec Digest Raw) (host : Host Digest Raw)
    (labels : List Label) : Prop :=
  ∃ next, Runs.run (step codec) host labels = some next ∧
    next.calls = host.calls ++ [host.threads.length] ∧ next.table = host.table

/-- A valid query that arrives is ready to call the backend. -/
theorem query_passed [DecidableEq Digest] (codec : Codec Digest Raw) (host : Host Digest Raw)
    (now later : Int) (dedup : Bool) {request : Request} (query : Query request)
    (valid : validateRequest request now = none) :
    Passed codec host [.arrive request now true dedup, .invoke host.threads.length later] := by
  obtain ⟨effect, taken⟩ := query
  simp only [mem_cons, not_mem_nil, or_false, not_or] at taken
  have ready : enterDispatch codec request now true dedup = .ready false := by
    simp [enterDispatch, valid, effect, taken]
  simp [Passed, Runs.run, step, ready, Host.put]

/-- In every run the backend is called at most once for the side effects of a
request id. Every other dispatch of a side effect that ends has not called it. One
that the table answered finds the id's first dispatch: with the same operation and
payload it returns the first response, marked, or reports that none is on record;
with any other it returns CONFLICT. One that never got an answer from the table
ends with an error. A query is passed to the backend, whatever the table has under its id. -/
theorem side_effects_at_most_once [DecidableEq Digest] (codec : Codec Digest Raw)
    (labels : List Label) (host : Host Digest Raw)
    (ran : Runs.run (step codec) Host.fresh labels = some host) :
    (∀ requestId, (host.calls.filter (host.effectful requestId)).length ≤ 1) ∧
    (∀ (index : Nat) thread outcome, host.threads[index]? = some thread →
      thread.request.operation.sideEffect = true → thread.stage = .done outcome →
      thread.wrote = false →
      index ∉ host.calls ∧ (thread.met = none → IsError outcome) ∧
      ∀ record, thread.met = some record →
        ∃ (earlier : Nat) (first : Thread Digest Raw),
          host.threads[earlier]? = some first ∧ first.wrote = true ∧
          first.request.requestId = thread.request.requestId ∧
          (thread.request.fingerprinted = first.request.fingerprinted →
            (∃ response answer, first.response = some response ∧ outcome = .ok answer ∧
              answer.unmarked = response.unmarked) ∨
            ∃ now, outcome = .ok (inProgressResponse thread.request.requestId now)) ∧
          (thread.request.fingerprinted ≠ first.request.fingerprinted →
            ∃ now, outcome = .ok (conflictResponse thread.request.requestId now))) ∧
    ∀ request now later dedup, Query request → validateRequest request now = none →
      Passed codec host [.arrive request now true dedup, .invoke host.threads.length later] := by
  have kept := run_consistent ran
  refine ⟨?_, ?_, fun request now later dedup => query_passed codec host now later dedup⟩
  · intro requestId
    have distinct : (host.calls.filter (host.effectful requestId)).Nodup := kept.once.filter _
    have single : ∀ left ∈ host.calls.filter (host.effectful requestId),
        ∀ right ∈ host.calls.filter (host.effectful requestId), left = right := by
      intro left left_member right right_member
      obtain ⟨left_called, left_effect⟩ := mem_filter.mp left_member
      obtain ⟨right_called, right_effect⟩ := mem_filter.mp right_member
      exact effectful_single kept left_called right_called left_effect right_effect
    match listed : host.calls.filter (host.effectful requestId) with
    | [] | [_] => simp
    | left :: right :: rest =>
      rw [listed] at distinct single
      have same := single left (by simp) right (by simp)
      simp [same] at distinct
  · intro index thread outcome present effect finished clean
    have standing := kept.stages index thread present
    simp only [StageOk, finished] at standing
    obtain ⟨called, verdict⟩ := standing
    obtain ⟨silent, answers⟩ := verdict effect clean
    refine ⟨?_, silent, ?_⟩
    · intro member
      rw [called member effect] at clean
      cases clean
    · intro record finds
      obtain ⟨row, there, operation, print, completed⟩ :=
        kept.found index thread record present finds
      obtain ⟨earlier, first, first_there, owns, named⟩ := kept.owned _ row there
      obtain ⟨own, own_there, own_operation, own_print, -, own_response⟩ :=
        kept.own_row earlier first first_there owns
      rw [named, there] at own_there
      cases own_there
      have described := matches_owner thread.request operation print own_operation own_print
      have answer := answers record finds
      refine ⟨earlier, first, first_there, owns, named, ?_, ?_⟩
      · intro same
        have fits := described.mpr same
        cases stored : record.response with
        | none => exact .inr (answer.unanswered fits stored)
        | some raw =>
          obtain ⟨response, given, encoded⟩ := own_response raw (completed raw stored)
          exact .inl ⟨response, markDeduplicated response, given,
            answer.answered fits raw response stored (codec.decode_encode response raw encoded),
            mark_unmarked response⟩
      · intro differs
        exact answer.other fun fits => differs (described.mp fits)

/-- Requests and responses as their own encodings. -/
def plainCodec : Codec Request Response where
  fingerprint := some
  encode := some
  decode := some
  fingerprint_injective := by
    intro left right digest first second
    exact (Option.some.inj first).trans (Option.some.inj second).symm
  decode_encode := by
    intro response raw encoded
    rw [encoded]

/-- A request for worked runs. -/
def sampleRequest (operation : Operation) (body : List UInt8) : Request :=
  { requestId := "req", payload := some { operation := operation, body := body } }

/-- A first dispatch from arrival to its stored response. -/
def sampleFirst : List Label :=
  [.arrive (sampleRequest .createCodex [1]) 1 true true, .reserve 0 1 .committed [],
    .invoke 0 1, .finish 0 (.value false [7]), .complete 0 .committed]

/-- A retry of a completed command returns its response and calls nothing. -/
theorem side_effects_at_most_once_retry : ∃ host,
    Runs.run (step plainCodec) Host.fresh (sampleFirst ++
      [.arrive (sampleRequest .createCodex [1]) 2 true true, .reserve 1 2 .committed []]) =
        some host ∧
    host.calls = [0] ∧ (host.calls.filter (host.effectful "req")).length ≤ 1 :=
  ⟨_, rfl, rfl, (side_effects_at_most_once plainCodec (sampleFirst ++
    [.arrive (sampleRequest .createCodex [1]) 2 true true, .reserve 1 2 .committed []]) _
    rfl).1 "req"⟩

/-- A query under the id of a completed command is a different operation, and it is
passed to the backend and answered without CONFLICT. -/
theorem query_reuses_request_id : ∃ host thread,
    Runs.run (step plainCodec) Host.fresh (sampleFirst ++
      [.arrive (sampleRequest .getHost []) 2 true true, .invoke 1 2,
        .finish 1 (.value false [9])]) = some host ∧
    host.threads[1]? = some thread ∧ thread.request.requestId = "req" ∧
    thread.request.operation ≠ .createCodex ∧ 1 ∈ host.calls ∧
    thread.stage = .done (.ok
      { requestId := "req", respondedAtUnixMs := 2, result := .value .getHost false [9] }) := by
  refine ⟨_, _, rfl, rfl, rfl, ?_, ?_, rfl⟩
  · decide
  · decide

end CodexRemote.Gateway
