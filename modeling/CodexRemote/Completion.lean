import CodexRemote.Deduplication

/-!
# A returned call is recorded

`handleRequest` derives one context from the connection and the request's deadline
and passes it to the backend and to both calls of the dedup store. When it ends
after the backend has acted and before the response is stored, the store refuses,
the client is told of an internal error, and the row stays without a response: no
retry ever learns what happened.

The law is proved for a Host that does not crash and whose storage is healthy, in
runs in which every completion is attempted in time and its response can be
encoded. One run shows the loss when a connection closes in between.
-/
namespace CodexRemote.Gateway

open Protocol Persistence Function List Option

variable {Digest Raw : Type}

/-- The Host keeps running, and its database refuses exactly the calls whose
context has ended. -/
def Healthy (host : Host Digest Raw) : Label → Prop
  | .restart => False
  | .reserve index _ outcome _ | .complete index outcome =>
      ∀ thread, host.threads[index]? = some thread →
        outcome = if thread.expired = none then .committed else .rolledBack
  | _ => True

/-- A completion is attempted before its context ends, with a response that can be
encoded. -/
def InTime (codec : Codec Digest Raw) (host : Host Digest Raw) : Label → Prop
  | .complete index _ =>
      ∀ thread, host.threads[index]? = some thread → thread.expired = none ∧
        ∀ response, thread.stage = .answered response → (codec.encode response).isSome
  | _ => True

variable {id : String} {record : DedupRecord Digest Raw}

theorem beginRequest_rowKept [DecidableEq Digest] (requestID operation : String)
    (fingerprint : Digest) (outcome : CommitOutcome) (kept : RowKept table id record) :
    RowKept (beginRequest table requestID operation fingerprint outcome).1 id record := by
  unfold beginRequest
  split
  · exact kept
  split
  · next free =>
    simp only
    split
    · obtain ⟨row, there, rest⟩ := kept
      have distinct : id ≠ requestID := by
        rintro rfl
        rw [free] at there
        cases there
      exact ⟨row, (update_of_ne distinct _ _).trans there, rest⟩
    · exact kept
  · exact kept

theorem completeRequest_rowKept (requestID : String) (raw : Raw) (outcome : CommitOutcome)
    (kept : RowKept table id record) :
    RowKept (completeRequest table requestID raw outcome).1 id record := by
  unfold completeRequest
  split
  · next found there =>
    split
    · exact kept
    next open_row =>
    simp only
    split
    · by_cases same : id = requestID
      · subst same
        obtain ⟨row, present, operation, print, answered⟩ := kept
        cases there.symm.trans present
        refine ⟨_, update_self .., operation, print, ?_⟩
        intro stored given
        rw [answered stored given] at open_row
        exact (open_row rfl).elim
      · obtain ⟨row, present, rest⟩ := kept
        exact ⟨row, (update_of_ne same _ _).trans present, rest⟩
    · exact kept
  · exact kept

variable {codec : Codec Digest Raw} {label : Label}

/-- No step takes back a row or a response on it. -/
theorem step_rowKept [DecidableEq Digest] {next : Host Digest Raw}
    (stepped : step codec host label = some next)
    (kept : RowKept host.table id record) : RowKept next.table id record := by
  cases label with
  | arrive request now backend dedup =>
    cases stepped
    exact kept
  | expire index expiry =>
    obtain ⟨old, -, rfl⟩ := map_eq_some_iff.mp stepped
    exact kept
  | reserve index now outcome driver =>
    obtain ⟨old, fingerprint, -, -, rfl⟩ := reserve_cases stepped
    exact beginRequest_rowKept _ _ fingerprint outcome kept
  | invoke index now =>
    obtain ⟨old, reserved, -, -, rfl⟩ := invoke_cases stepped
    exact kept
  | finish index result =>
    obtain ⟨old, reserved, startedAt, -, -, rfl⟩ := finish_cases stepped
    exact kept
  | complete index outcome =>
    obtain ⟨old, response, -, -, ⟨-, rfl⟩ | ⟨raw, -, rfl⟩⟩ := complete_cases stepped
    · exact kept
    · exact completeRequest_rowKept _ raw outcome kept
  | restart =>
    cases stepped
    exact kept

/-- The row of a request id holds the response. -/
def OnRecord (codec : Codec Digest Raw) (table : DedupTable Digest Raw) (requestId : String)
    (response : Response) : Prop :=
  ∃ record raw, table requestId = some record ∧ record.response = some raw ∧
    codec.encode response = some raw

variable {response : Response}

theorem step_onRecord [DecidableEq Digest] {next : Host Digest Raw}
    (stepped : step codec host label = some next)
    (recorded : OnRecord codec host.table requestId response) :
    OnRecord codec next.table requestId response := by
  obtain ⟨record, raw, row, stored, encoded⟩ := recorded
  obtain ⟨later, there, -, -, answered⟩ := step_rowKept stepped (rowKept_refl row)
  exact ⟨later, raw, there, answered raw stored, encoded⟩

/-- Where a thread stands once its call has returned: about to complete, or done
with the response on record. -/
def Settled (codec : Codec Digest Raw) (table : DedupTable Digest Raw)
    (thread : Thread Digest Raw) (response : Response) : Prop :=
  thread.stage = .answered response ∨
    thread.stage = .done (.ok response) ∧
      OnRecord codec table thread.request.requestId response

/-- Every side effect that returned is settled by the thread that reserved it. -/
structure Recorded (codec : Codec Digest Raw) (host : Host Digest Raw) : Prop where
  consistent : Consistent codec host
  settled : ∀ (index : Nat) thread response, host.threads[index]? = some thread →
    thread.request.operation.sideEffect = true → thread.response = some response →
    thread.wrote = true ∧ Settled codec host.table thread response

theorem fresh_recorded (codec : Codec Digest Raw) :
    Recorded codec (Host.fresh : Host Digest Raw) := by
  refine ⟨fresh_consistent codec, ?_⟩
  intro index thread response present
  simp [Host.fresh] at present

/-- A thread before the end of its call has no response yet. -/
theorem Recorded.unanswered {index : Nat} (kept : Recorded codec host)
    (present : host.threads[index]? = some thread)
    (effect : thread.request.operation.sideEffect = true)
    (not_answered : ∀ response, thread.stage ≠ .answered response)
    (not_done : ∀ outcome, thread.stage ≠ .done outcome) : thread.response ≠ some response := by
  intro given
  obtain ⟨-, stage | ⟨stage, -⟩⟩ := kept.settled index thread response present effect given
  · exact not_answered _ stage
  · exact not_done _ stage

variable {host : Host Digest Raw}

/-- A completion in time puts the response on record and ends the thread with it. -/
theorem complete_records {index : Nat} (kept : Consistent codec host)
    (present : host.threads[index]? = some thread) (stage : thread.stage = .answered response)
    (encoded : codec.encode response = some raw) :
    let completed := completeRequest host.table thread.request.requestId raw .committed
    completed.2 = true ∧ OnRecord codec completed.1 thread.request.requestId response := by
  have standing := kept.stages index thread present
  simp only [StageOk, stage] at standing
  obtain ⟨record, row, -, -, open_row, -⟩ := kept.own_row index thread present standing.1
  have empty : record.response = none := open_row (by rw [stage]; rfl)
  refine ⟨?_, { record with response := some raw }, raw, ?_, rfl, encoded⟩
  · simp [completeRequest, row, empty]
  · simp [completeRequest, row, empty, CommitOutcome.durable]

/-- Every healthy step in time keeps returned calls settled.

Proof: a thread that does not move keeps its stage, and a response on record stays.
A thread that moves before its call returned has no response. The call's return
answers it, and the completion that follows is committed. -/
theorem step_recorded [DecidableEq Digest] {next : Host Digest Raw} (kept : Recorded codec host)
    (fine : Healthy host label ∧ InTime codec host label)
    (stepped : step codec host label = some next) : Recorded codec next := by
  refine ⟨step_consistent codec host label next kept.consistent stepped, ?_⟩
  intro index thread response present effect given
  have carried : ∀ old, host.threads[index]? = some old → old.request = thread.request →
      old.response = thread.response → old.wrote = thread.wrote → old.stage = thread.stage →
      thread.wrote = true ∧ Settled codec next.table thread response := by
    intro old there request same wrote stage
    obtain ⟨owns, settled⟩ := kept.settled index old response there (request ▸ effect)
      (same.trans given)
    refine ⟨wrote ▸ owns, ?_⟩
    rcases settled with answered | ⟨done, recorded⟩
    · exact .inl (stage ▸ answered)
    · exact .inr ⟨stage ▸ done, step_onRecord stepped (request ▸ recorded)⟩
  cases label with
  | arrive request now backend dedup =>
    cases stepped
    by_cases inside : index < host.threads.length
    · rw [getElem?_append_left inside] at present
      exact carried thread present rfl rfl rfl rfl
    · rw [getElem?_append_right (by omega)] at present
      obtain ⟨bound, rfl⟩ := List.getElem?_eq_some_iff.mp present
      simp at given
  | expire moved expiry =>
    obtain ⟨old, there, rfl⟩ := map_eq_some_iff.mp stepped
    rcases put_cases there present with ⟨rfl, rfl⟩ | ⟨-, present⟩
    · exact carried old there rfl rfl rfl rfl
    · exact carried thread present rfl rfl rfl rfl
  | reserve moved now outcome driver =>
    obtain ⟨old, fingerprint, there, stage, rfl⟩ := reserve_cases stepped
    rcases put_cases there present with ⟨rfl, rfl⟩ | ⟨-, present⟩
    · exact (kept.unanswered there effect (by simp [stage]) (by simp [stage]) given).elim
    · exact carried thread present rfl rfl rfl rfl
  | invoke moved now =>
    obtain ⟨old, reserved, there, stage, rfl⟩ := invoke_cases stepped
    rcases put_cases there present with ⟨rfl, rfl⟩ | ⟨-, present⟩
    · exact (kept.unanswered there effect (by simp [stage]) (by simp [stage]) given).elim
    · exact carried thread present rfl rfl rfl rfl
  | finish moved result =>
    obtain ⟨old, reserved, startedAt, there, stage, rfl⟩ := finish_cases stepped
    rcases put_cases there present with ⟨rfl, rfl⟩ | ⟨-, present⟩
    · have standing := kept.consistent.stages index old there
      simp only [StageOk, stage] at standing
      have held : reserved = true := standing.1.trans effect
      cases given
      exact ⟨standing.2.1 held, .inl (by simp [held])⟩
    · exact carried thread present rfl rfl rfl rfl
  | complete moved outcome =>
    obtain ⟨old, answer, there, stage, body⟩ := complete_cases stepped
    obtain ⟨unexpired, encodes⟩ := fine.2 old there
    have committed : outcome = .committed := by
      have decided := fine.1 old there
      rwa [if_pos unexpired] at decided
    obtain ⟨raw, encoded⟩ := isSome_iff_exists.mp (encodes answer stage)
    obtain ⟨refused, -⟩ | ⟨_, same, rfl⟩ := body
    · rw [encoded] at refused
      cases refused
    cases encoded.symm.trans same
    subst committed
    rcases put_cases there present with ⟨rfl, rfl⟩ | ⟨-, present⟩
    · have standing := kept.consistent.stages index old there
      simp only [StageOk, stage] at standing
      obtain ⟨stored, recorded⟩ := complete_records kept.consistent there stage encoded
      cases standing.2.1.symm.trans given
      exact ⟨standing.1, .inr ⟨by simp [stored], recorded⟩⟩
    · exact carried thread present rfl rfl rfl rfl
  | restart => exact fine.1.elim

/-- A retry of a request whose response is on record ends with that response. -/
theorem retry_answered [DecidableEq Digest] {index : Nat} (now : Int) (driver : Text)
    (kept : Consistent codec host)
    (present : host.threads[index]? = some thread) (owns : thread.wrote = true)
    (recorded : OnRecord codec host.table thread.request.requestId response)
    (there : host.threads[later]? = some retry) (stage : retry.stage = .waiting fingerprint)
    (named : retry.request.requestId = thread.request.requestId)
    (same : retry.request.fingerprinted = thread.request.fingerprinted) :
    ∃ next ended answer, step codec host (.reserve later now .committed driver) = some next ∧
      next.threads[later]? = some ended ∧ ended.stage = .done (.ok answer) ∧
      answer.unmarked = response.unmarked := by
  obtain ⟨record, raw, row, stored, encoded⟩ := recorded
  obtain ⟨own, own_row, operation, print, -⟩ := kept.own_row index thread present owns
  cases row.symm.trans own_row
  have fits : Matches codec retry.request record :=
    (matches_owner retry.request rfl rfl operation print).mpr same
  have standing := kept.stages later retry there
  simp only [StageOk, stage] at standing
  obtain ⟨-, nonempty, digest, -⟩ := standing
  have equal : record.fingerprint = fingerprint := some.inj (fits.2.symm.trans digest)
  rw [← named] at row
  have begun : beginRequest host.table retry.request.requestId retry.request.operation.name
      fingerprint .committed = (host.table, .ok (.completed raw)) := by
    simp [beginRequest, nonempty, name_nonempty, row, fits.1, equal, stored]
  have decoded := codec.decode_encode response raw encoded
  let ended : Thread Digest Raw :=
    { retry with
      stage := .done (.ok (markDeduplicated response))
      wrote := false
      met := some record }
  have taken : step codec host (.reserve later now .committed driver) =
      some (host.put later ended) := by
    simp [step, there, stage, begun, afterBegin, decoded, row, ended]
  have reads : (host.put later ended).threads[later]? = some ended := by
    rw [put_thread host later later retry _ there, if_pos rfl]
  exact ⟨_, ended, markDeduplicated response, taken, reads, rfl, mark_unmarked response⟩

/-- In a healthy Host that completes in time, a side effect that returned is about
to be recorded, or it is done: its response is on record, it is what the client is
sent, and every retry from then on ends with it, up to the mark. -/
theorem returned_calls_recorded [DecidableEq Digest] (codec : Codec Digest Raw)
    (labels : List Label) (host : Host Digest Raw) (index : Nat)
    (thread : Thread Digest Raw) (response : Response)
    (meets : Runs.Meets (step codec)
      (fun before label => Healthy before label ∧ InTime codec before label) Host.fresh labels)
    (ran : Runs.run (step codec) Host.fresh labels = some host)
    (present : host.threads[index]? = some thread)
    (effect : thread.request.operation.sideEffect = true)
    (returned : thread.response = some response) :
    (thread.stage = .answered response ∧
      ((codec.encode response).isSome → ∃ next ended,
        step codec host (.complete index .committed) = some next ∧
        next.threads[index]? = some ended ∧ ended.stage = .done (.ok response) ∧
        OnRecord codec next.table thread.request.requestId response)) ∨
    ∃ outcome, thread.stage = .done outcome ∧
      OnRecord codec host.table thread.request.requestId response ∧
      (∀ now message, enqueued thread.request.requestId now message outcome = response) ∧
      ∀ (later : Nat) retry fingerprint now driver, host.threads[later]? = some retry →
        retry.stage = .waiting fingerprint →
        retry.request.requestId = thread.request.requestId →
        retry.request.fingerprinted = thread.request.fingerprinted →
        ∃ next ended answer,
          step codec host (.reserve later now .committed driver) = some next ∧
          next.threads[later]? = some ended ∧ ended.stage = .done (.ok answer) ∧
          answer.unmarked = response.unmarked := by
  have kept : Recorded codec host := Runs.run_invariant (Recorded codec)
    (fun _ _ _ => step_recorded) (fresh_recorded codec) meets ran
  obtain ⟨owns, answered | ⟨done, recorded⟩⟩ :=
    kept.settled index thread response present effect returned
  · refine .inl ⟨answered, ?_⟩
    intro encodes
    obtain ⟨raw, encoded⟩ := isSome_iff_exists.mp encodes
    obtain ⟨stored, recorded⟩ := complete_records kept.consistent present answered encoded
    let ended : Thread Digest Raw := { thread with stage := .done (.ok response) }
    let next : Host Digest Raw := { host with
      table := (completeRequest host.table thread.request.requestId raw .committed).1 }
    have taken : step codec host (.complete index .committed) = some (next.put index ended) := by
      simp [step, present, answered, encoded, stored, next, ended]
    have reads : (next.put index ended).threads[index]? = some ended := by
      rw [put_thread next index index thread _ present, if_pos rfl]
    exact ⟨_, ended, taken, reads, rfl, recorded⟩
  · refine .inr ⟨_, done, recorded, fun _ _ => rfl, ?_⟩
    intro later retry fingerprint now driver there stage named same
    exact retry_answered now driver kept.consistent present owns recorded there stage named same

/-- A completed command and a retry of it that is about to look the response up. -/
theorem returned_calls_recorded_retry : ∃ host thread response,
    Runs.run (step plainCodec) Host.fresh
      (sampleFirst ++ [.arrive (sampleRequest .createCodex [1]) 2 true true]) = some host ∧
    host.threads[0]? = some thread ∧ thread.response = some response ∧
    (thread.stage = .answered response ∨
      ∃ outcome, thread.stage = .done outcome ∧
        OnRecord plainCodec host.table thread.request.requestId response) := by
  refine ⟨_, _, _, rfl, rfl, rfl, ?_⟩
  have law := returned_calls_recorded plainCodec
    (sampleFirst ++ [.arrive (sampleRequest .createCodex [1]) 2 true true]) _ 0 _ _ ?_ rfl rfl
    (by decide) rfl
  · rcases law with ⟨answered, -⟩ | ⟨outcome, done, recorded, -⟩
    · exact .inl answered
    · exact .inr ⟨outcome, done, recorded⟩
  · refine ⟨⟨trivial, trivial⟩, ?_⟩
    rintro _ ⟨⟩
    refine ⟨⟨by rintro _ ⟨⟩; rfl, trivial⟩, ?_⟩
    rintro _ ⟨⟩
    refine ⟨⟨trivial, trivial⟩, ?_⟩
    rintro _ ⟨⟩
    refine ⟨⟨trivial, trivial⟩, ?_⟩
    rintro _ ⟨⟩
    refine ⟨⟨by rintro _ ⟨⟩; rfl, by rintro _ ⟨⟩; exact ⟨rfl, fun _ _ => rfl⟩⟩, ?_⟩
    rintro _ ⟨⟩
    exact ⟨⟨trivial, trivial⟩, fun _ _ => trivial⟩

/-- The connection closes after the backend acted: the healthy store refuses the
completion, the client is sent an error instead of the response, the row stays
open, and a retry learns only that the outcome is unknown. -/
theorem closed_connection_loses_response : ∃ host thread retry record response,
    Runs.Meets (step plainCodec) Healthy Host.fresh
      [.arrive (sampleRequest .createCodex [1]) 1 true true, .reserve 0 1 .committed [],
        .invoke 0 1, .finish 0 (.value false [7]), .expire 0 .canceled,
        .complete 0 .rolledBack, .arrive (sampleRequest .createCodex [1]) 2 true true,
        .reserve 1 2 .committed []] ∧
    Runs.run (step plainCodec) Host.fresh
      [.arrive (sampleRequest .createCodex [1]) 1 true true, .reserve 0 1 .committed [],
        .invoke 0 1, .finish 0 (.value false [7]), .expire 0 .canceled,
        .complete 0 .rolledBack, .arrive (sampleRequest .createCodex [1]) 2 true true,
        .reserve 1 2 .committed []] = some host ∧
    host.threads[0]? = some thread ∧ thread.response = some response ∧
    response.result = .value .createCodex false [7] ∧
    host.table "req" = some record ∧ record.response = none ∧
    thread.stage = .done (.error .complete) ∧
    (∀ now message, enqueued "req" now message (.error .complete) ≠ response) ∧
    host.threads[1]? = some retry ∧ retry.request = thread.request ∧
    retry.stage = .done (.ok (inProgressResponse "req" 2)) := by
  refine ⟨_, _, _, _, _, ?_, rfl, rfl, rfl, rfl, rfl, rfl, rfl, ?_, rfl, rfl, rfl⟩
  · refine ⟨trivial, ?_⟩
    rintro _ ⟨⟩
    refine ⟨by rintro _ ⟨⟩; rfl, ?_⟩
    rintro _ ⟨⟩
    refine ⟨trivial, ?_⟩
    rintro _ ⟨⟩
    refine ⟨trivial, ?_⟩
    rintro _ ⟨⟩
    refine ⟨trivial, ?_⟩
    rintro _ ⟨⟩
    refine ⟨by rintro _ ⟨⟩; rfl, ?_⟩
    rintro _ ⟨⟩
    refine ⟨trivial, ?_⟩
    rintro _ ⟨⟩
    exact ⟨by rintro _ ⟨⟩; rfl, fun _ _ => trivial⟩
  · intro now message equal
    have results := congrArg Response.result equal
    cases results

/-- Through every run, restarts and failures included, a row keeps its operation and fingerprint,
and once it has a response, that. -/
theorem rows_last [DecidableEq Digest] (codec : Codec Digest Raw) (host last : Host Digest Raw)
    (labels : List Label) (requestId : String) (record : DedupRecord Digest Raw)
    (present : host.table requestId = some record)
    (ran : Runs.run (step codec) host labels = some last) :
    RowKept last.table requestId record :=
  Runs.run_kept (fun host => RowKept host.table requestId record)
    (fun _ _ _ kept stepped => step_rowKept stepped kept) (rowKept_refl present) ran

theorem rows_last_restarted : ∃ host last record,
    Runs.run (step plainCodec) Host.fresh sampleFirst =
      some host ∧ host.table "req" = some record ∧
    Runs.run (step plainCodec) host [.restart] = some last ∧ RowKept last.table "req" record :=
  ⟨_, _, _, rfl, rfl, rfl, rows_last plainCodec _ _ [.restart] "req" _ rfl rfl⟩

end CodexRemote.Gateway
