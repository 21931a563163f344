import CodexRemote.LeaseRules

/-!
# Lease warnings

A sweep marks a deadline as warned of before it publishes anything, and takes the mark back
when it knows that the warning was not committed. Two results follow.

For each Codex the warnings committed since its deadline was last assigned are counted
beside the run. The mark is what bounds the count: while it is one, the lease shown by
memory and row is marked with its own deadline, and a sweep warns only of a deadline that
is not marked. The clock is arbitrary here, and the Host may stop between any two writes. An
announcement that comes late breaks this: with a workspace commit of unknown outcome behind it
the old deadline is back in memory, which is not the one that is marked.

A sweep that reports no error leaves every Codex it visited at rest, so a second one at the
same time changes nothing, not even an event number.
-/
namespace CodexRemote.Host

open Protocol Persistence Activity Budget Codexes Leases Function List Option

variable {config : Config} {label : Label} {view : CurrentView} {storage : Storage}

/-- The warnings committed for each Codex since its deadline was assigned, behind a step. -/
def recount (config : Config) (world : World) (label : Label) (counts : String → Nat)
    (codexID : String) : Nat :=
  (if assigns config world label codexID then 0 else counts codexID) +
    if warns config world label codexID then 1 else 0

/-- A step with the count. An announcement neither assigns a deadline nor warns of one. -/
def countedStep (config : Config) (state : Announcements.World × (String → Nat))
    (label : Announcements.Label) : Option (Announcements.World × (String → Nat)) :=
  (Announcements.step config state.1 label).map fun next =>
    (next, match label with
      | .host performed => recount config state.1.host performed state.2
      | .read .. | .commit .. => state.2)

/-- A deadline that was warned of is marked. -/
structure Marked (m : Manager) (counts : String → Nat) : Prop where
  aligned : Aligned m
  bounded : ∀ codexID, counts codexID ≤ 1
  marked : ∀ codexID lease, counts codexID = 1 → shown m codexID = some lease →
    lease.warned = lease.deadline

/-- Only an assignment takes the mark from a deadline. -/
theorem Reason.marked (reason : Reason config world label codexID view lease changed)
    (unassigned : assigns config world label codexID = false)
    (marked : lease.warned = lease.deadline) : changed.warned = changed.deadline := by
  cases reason with
  | kept => exact marked
  | started _ _ _ _ assigned | renewed _ _ assigned | unmanaged _ _ _ assigned =>
    simp [assigned] at unassigned
  | swept _ _ _ assigned => simp [assigned] at unassigned
  | expiring _ _ _ warned kept => exact kept marked

/-- What one step does to the count and the mark of one Codex. -/
theorem Change.marked {next : World} (change : Change config world label next codexID) (count : Nat)
    (bounded : count ≤ 1) (marked : ∀ lease, count = 1 → shown world.manager codexID = some lease →
      lease.warned = lease.deadline) :
    let after := recount config world label (fun _ => count) codexID
    after ≤ 1 ∧ ∀ lease, after = 1 → shown next.manager codexID = some lease →
      lease.warned = lease.deadline := by
  intro after
  -- Without a warning the count does not grow, and it is one only where it was one before.
  have quiet : warns config world label codexID = false →
      after ≤ 1 ∧ (after = 1 → count = 1 ∧ assigns config world label codexID = false) := by
    intro silent
    cases assigned : assigns config world label codexID <;>
      simp [after, recount, silent, assigned, bounded]
  cases change with
  | kept same silent =>
    obtain ⟨least, once⟩ := quiet silent
    refine ⟨least, ?_⟩
    intro lease one found
    exact marked lease (once one).1 (same ▸ found)
  | reasoned view old changed _ _ was is reason once =>
    cases warned : warns config world label codexID with
    | false =>
      obtain ⟨least, before⟩ := quiet warned
      refine ⟨least, ?_⟩
      intro lease one found
      obtain ⟨counted, unassigned⟩ := before one
      cases found.symm.trans is
      exact reason.marked unassigned (marked old counted was)
    | true =>
      obtain ⟨unmarked, marks, same⟩ := once.first warned
      have none : count = 0 := by
        have : count ≠ 1 := fun one => unmarked (marked old one was)
        omega
      refine ⟨by simp [after, recount, none, warned], ?_⟩
      intro lease _ found
      cases found.symm.trans is
      exact marks.trans same.symm
  | created _ _ assigned silent | leased _ _ _ _ assigned silent =>
    obtain ⟨least, once⟩ := quiet silent
    refine ⟨least, ?_⟩
    intro lease one
    have unassigned := (once one).2
    simp [assigned] at unassigned
  | dropped is silent =>
    refine ⟨(quiet silent).1, ?_⟩
    intro lease _ found
    rw [is] at found
    cases found

/-- An operation of the Host. -/
theorem step_marked {next : World} (holds : Marked world.manager counts) (storage : Stored label)
    (stepped : step config world label = some next) :
    Marked next.manager (recount config world label counts) := by
  have changes : ∀ codexID, _ := fun codexID =>
    (step_change holds.aligned storage stepped codexID).marked (counts codexID)
      (holds.bounded codexID) (holds.marked codexID)
  refine ⟨step_aligned holds.aligned storage stepped, ?_, ?_⟩
  · intro codexID
    exact (changes codexID).1
  · intro codexID
    exact (changes codexID).2

/-- Rows are written, and no announcement comes late. -/
def Punctual (state : Announcements.World × (String → Nat)) (label : Announcements.Label) : Prop :=
  Announcements.Timely state.1 label ∧
    ∀ performed, label.onHost = some performed → Stored performed

theorem countedStep_marked {state next : Announcements.World × (String → Nat)}
    {label : Announcements.Label} (holds : Marked state.1.host.manager state.2)
    (punctual : Punctual state label) (stepped : countedStep config state label = some next) :
    Marked next.1.host.manager next.2 := by
  obtain ⟨world, taken, rfl⟩ := map_eq_some_iff.mp stepped
  cases label with
  | host performed =>
    obtain ⟨host, done, rfl⟩ := map_eq_some_iff.mp taken
    exact step_marked holds (punctual.2 performed rfl) done
  | read codex requestID =>
    simp only [Announcements.step] at taken
    split at taken <;> cases taken
    exact holds
  | commit announcement now commit =>
    have aligned : Aligned world.host.manager :=
      Announcements.step_keeps config Aligned (fun _ performed => Stored performed)
        (fun _ _ _ => step_aligned) state.1 world _ holds.aligned punctual.1 punctual.2 taken
    simp only [Announcements.step] at taken
    split at taken <;> cases taken
    refine ⟨aligned, holds.bounded, ?_⟩
    intro codexID lease one found
    exact holds.marked codexID lease one ((publishEvent_shown ..).symm.trans found)

/-- A sweep finds nothing to do for this Codex. -/
def AtRest (config : Config) (m : Manager) (codexID : String) (now : Int) : Prop :=
  ∀ view codex, known m codexID = .ok (view, codex) →
    sweepPlan config view codex (m.warningDeadline codexID) now = none

section Rest

variable {config : Config} {m after : Manager} {codexID : String} {now : Int}

theorem publishCodex_views (config : Config) (m : Manager) (codex : Codex) (requestID : String)
    (now : Int) (commit : Commit) :
    (publishCodex config m codex requestID now commit).1.byID = m.byID ∧
      (publishCodex config m codex requestID now commit).1.warningDeadline =
        m.warningDeadline := by
  unfold publishCodex
  split <;> exact ⟨rfl, rfl⟩

theorem persistState_views {stored : Manager} {writes : Bool}
    (done : persistState m view writes = some stored) :
    stored.byID = m.byID ∧ stored.warningDeadline = m.warningDeadline := by
  unfold persistState at done
  split at done
  · cases done
  split at done <;> cases done
  exact ⟨rfl, rfl⟩

/-- A change that was announced is in memory, and nothing else has changed there. -/
theorem announceLifecycle_ok
    (done : announceLifecycle config m codexID requestID now original snapshot marker oldMarker
      keptMarker persist storage = (after, .ok ())) :
    after.byID = update m.byID codexID (some snapshot) ∧
      after.warningDeadline = update m.warningDeadline codexID marker := by
  unfold announceLifecycle at done
  dsimp only at done
  split at done
  · next stored codex persisted present =>
    obtain ⟨views, markers⟩ := persistState_views persisted
    have published := publishCodex_views config (stored.remember codexID snapshot) codex requestID
      now storage.commit
    split at done
    · next last event result =>
      cases done
      rw [result] at published
      obtain ⟨sameViews, sameMarkers⟩ := published
      exact ⟨by rw [sameViews, Manager.remember, views]; rfl,
        by rw [sameMarkers, Manager.remember, markers]; rfl⟩
    · cases (Prod.mk.inj done).2
  · cases (Prod.mk.inj done).2

theorem raiseWarning_ok
    (done : raiseWarning m codexID now deadline snapshot storage = (after, .ok ())) :
    after.byID = m.byID ∧ after.warningDeadline = m.warningDeadline := by
  unfold raiseWarning at done
  split at done
  · next last event published =>
    cases done
    obtain rfl := (Prod.mk.inj published).1
    exact ⟨rfl, rfl⟩
  · cases (Prod.mk.inj done).2

/-- A sweep that reports no error has found nothing to do, or has done what it planned. -/
theorem sweepLease_ok (done : sweepLease config m codexID now storage = (after, .ok ())) :
    (after = m ∧ AtRest config m codexID now) ∨
      ∃ view codex plan, known m codexID = .ok (view, codex) ∧
        sweepPlan config view codex (m.warningDeadline codexID) now = some plan ∧
        after.byID = update m.byID codexID (some plan.snapshot) ∧
        after.warningDeadline = update m.warningDeadline codexID plan.marker := by
  unfold sweepLease at done
  split at done
  · next error unknown =>
    refine .inl ⟨(Prod.mk.inj done).1.symm, ?_⟩
    intro view codex found
    rw [unknown] at found
    cases found
  next view codex found =>
  split at done
  · next planned =>
    refine .inl ⟨(Prod.mk.inj done).1.symm, ?_⟩
    intro other again same
    obtain ⟨rfl, rfl⟩ := Prod.mk.inj (Except.ok.inj (found.symm.trans same))
    exact planned
  next plan planned =>
  refine .inr ⟨view, codex, plan, found, planned, ?_⟩
  split at done
  · next last _ announced =>
    obtain ⟨views, markers⟩ := announceLifecycle_ok announced
    split at done
    · obtain ⟨sameViews, sameMarkers⟩ := raiseWarning_ok done
      exact ⟨sameViews.trans views, sameMarkers.trans markers⟩
    · cases done
      exact ⟨views, markers⟩
  · cases (Prod.mk.inj done).2

theorem expiringView_safe (now deadline : Int) (due : Bool) (view : CurrentView) :
    automaticUnmanageSafe (expiringView now deadline due view) = automaticUnmanageSafe view := by
  cases present : view.codex <;>
    simp [automaticUnmanageSafe, manualUnmanageBusy, expiringView, onCodex, present]

/-- A plan that was carried out leaves nothing to plan at the same time: the lease is given
up, or it is shown as expiring and marked. -/
theorem sweepPlan_again (present : view.codex = some codex)
    (planned : sweepPlan config view codex marker now = some plan)
    (shown : plan.snapshot.codex = some again) :
    sweepPlan config plan.snapshot again plan.marker now = none := by
  unfold sweepPlan at planned
  dsimp only at planned
  split at planned
  · cases planned
  split at planned
  · cases planned
    obtain rfl : _ = again := by simpa [unmanagedFrom, onCodex, present] using shown
    simp [sweepPlan]
  next notOver =>
  split at planned
  · cases planned
  split at planned
  · cases planned
    obtain rfl : _ = again := by simpa [expiringView, onCodex, present] using shown
    simp_all [sweepPlan, expiringView_safe]
  next marked =>
  split at planned <;> cases planned
  obtain rfl : _ = again := by simpa [expiringView, onCodex, present] using shown
  simp_all [sweepPlan, expiringView_safe]

/-- A sweep without error brings its Codex to rest. -/
theorem sweepLease_rests (done : sweepLease config m codexID now storage = (after, .ok ())) :
    AtRest config after codexID now := by
  obtain ⟨rfl, rests⟩ | ⟨view, codex, plan, found, planned, views, markers⟩ := sweepLease_ok done
  · exact rests
  intro snapshot again seen
  obtain rfl : plan.snapshot = snapshot := by
    have remembered := known_remembered seen
    rw [views, update_self] at remembered
    exact some.inj remembered
  rw [markers, update_self]
  exact sweepPlan_again (known_codex found) planned (known_codex seen)

/-- What is at rest stays so while another Codex is swept. -/
theorem AtRest.swept (rests : AtRest config m other now)
    (done : sweepLease config m codexID now storage = (after, .ok ())) :
    AtRest config after other now := by
  by_cases same : other = codexID
  · exact same ▸ sweepLease_rests done
  obtain ⟨rfl, -⟩ | ⟨view, codex, plan, -, -, views, markers⟩ := sweepLease_ok done
  · exact rests
  intro view codex found
  have unchanged : after.byID other = m.byID other := by
    rw [views, update_of_ne same]
  rw [markers, update_of_ne same]
  exact rests view codex (by simpa only [known, unchanged] using found)

/-- A Codex at rest is left as it is. -/
theorem AtRest.sweepLease_eq (rests : AtRest config m codexID now) (storage : Storage) :
    sweepLease config m codexID now storage = (m, .ok ()) := by
  cases found : known m codexID with
  | error error => simp [sweepLease, found]
  | ok pair =>
    obtain ⟨view, codex⟩ := pair
    simp [sweepLease, found, rests view codex found]

/-- Induction on the ids: each sweep brings its own Codex to rest and keeps the others
there. -/
theorem sweepLeases_rests (done : sweepLeases config now m swept = (after, .ok ()))
    (visited : AtRest config m other now ∨ other ∈ swept.map Prod.fst) :
    AtRest config after other now := by
  induction swept generalizing m with
  | nil =>
    cases done
    simpa using visited
  | cons first rest ih =>
    unfold sweepLeases at done
    split at done
    · next middle _ swept =>
      refine ih done ?_
      obtain rests | listed := visited
      · exact .inl (rests.swept swept)
      obtain rfl | later := mem_cons.mp listed
      · exact .inl (sweepLease_rests swept)
      · exact .inr later
    · cases (Prod.mk.inj done).2

theorem sweepLeases_of_rest (rests : ∀ codexID ∈ again.map Prod.fst, AtRest config m codexID now) :
    sweepLeases config now m again = (m, .ok ()) := by
  induction again with
  | nil => rfl
  | cons first rest ih =>
    obtain ⟨codexID, storage⟩ := first
    rw [sweepLeases, (rests codexID (by simp)).sweepLease_eq storage]
    exact ih fun other later => rests other (mem_cons_of_mem _ later)

end Rest

/-- In every run of a Host whose rows can be written and whose announcements do not come late, at
most one lease warning of a Codex is committed between two assignments of its deadline. Wherever
any run has led, a second sweep of Codexes that were swept at the same time without error changes
nothing. -/
theorem warned_once (config : Config) (start last : Announcements.World) (counts : String → Nat)
    (labels : List Announcements.Label) (views : start.host.manager.byID = fun _ => none)
    (rows : ∀ codexID row, start.host.manager.events.disk.codexes codexID = some row →
      Own row codexID)
    (ran : Runs.run (countedStep config) (start, fun _ => 0) labels = some (last, counts)) :
    (Runs.Meets (countedStep config) Punctual (start, fun _ => 0) labels →
      ∀ codexID, counts codexID ≤ 1) ∧
    ∀ now swept again after, sweepLeases config now last.host.manager swept = (after, .ok ()) →
      again.map Prod.fst ⊆ swept.map Prod.fst →
      sweepLeases config now after again = (after, .ok ()) := by
  constructor
  · intro punctual
    have initially : Marked start.host.manager (fun _ => 0) := by
      refine ⟨Aligned.rowsOnly views rows, fun _ => Nat.zero_le 1, ?_⟩
      intro codexID lease one
      cases one
    have marked : Marked last.host.manager counts :=
      Runs.run_invariant (fun state => Marked state.1.host.manager state.2)
        (fun _ _ _ => countedStep_marked) initially punctual ran
    exact marked.bounded
  intro now swept again after done listed
  refine sweepLeases_of_rest ?_
  intro codexID visited
  exact sweepLeases_rests done (.inr (listed visited))

/-- A Codex is created and swept twice shortly before its deadline. The first time the warning
cannot be committed, and the Host stops after the second. -/
def sampleWarnings : List Announcements.Label :=
  Announcements.sampleReading ++ [.commit Announcements.sampleRead 6 {},
    .host { operation := .sweep "cdx", now := 14
            storage := { second := { outcome := .rolledBack } } },
    .host { operation := .sweep "cdx", now := 14, crash := some (2, 8) },
    .host { operation := .restore "cdx" "own" (.found {} true) (some sampleAccess), now := 14 },
    .host { operation := .sweep "cdx", now := 14 }]

/-- One warning is committed, and at the deadline the lease is given up once. -/
theorem warned_once_swept : ∃ last counts after,
    Runs.run (countedStep sampleConfig) (⟨sampleHost, []⟩, fun _ => 0) sampleWarnings =
      some (last, counts) ∧
    counts "cdx" = 1 ∧ (∀ codexID, counts codexID ≤ 1) ∧
    sweepLeases sampleConfig 15 last.host.manager [("cdx", {})] = (after, .ok ()) ∧
    shown after "cdx" = some unmanagedLease ∧
    sweepLeases sampleConfig 15 after [("cdx", {})] = (after, .ok ()) := by
  have stored : ∀ label ∈ sampleWarnings, ∀ performed, label.onHost = some performed →
      Stored performed := by
    intro label member
    simp only [sampleWarnings, Announcements.sampleReading, sampleCreate, cons_append, nil_append,
      mem_cons, not_mem_nil, or_false] at member
    obtain rfl | rfl | rfl | rfl | rfl | rfl | rfl := member <;> rintro performed ⟨⟩ <;>
      exact ⟨rfl, rfl, fun _ _ _ forgets => by cases forgets⟩
  have timely : Runs.Meets (countedStep sampleConfig)
      (fun state label => Announcements.Timely state.1 label) (⟨sampleHost, []⟩, fun _ => 0)
      sampleWarnings := by decide +kernel
  have results : (Runs.run (countedStep sampleConfig) (⟨sampleHost, []⟩, fun _ => 0)
      sampleWarnings).map (fun state =>
        let swept := sweepLeases sampleConfig 15 state.1.host.manager [("cdx", {})]
        (state.2 "cdx", swept.2.toBool, shown swept.1 "cdx")) =
      some (1, true, some unmanagedLease) := by decide +kernel
  obtain ⟨⟨last, counts⟩, ran, facts⟩ := map_eq_some_iff.mp results
  obtain ⟨one, succeeded, gone⟩ : counts "cdx" = 1 ∧
      (sweepLeases sampleConfig 15 last.host.manager [("cdx", {})]).2.toBool = true ∧
      shown (sweepLeases sampleConfig 15 last.host.manager [("cdx", {})]).1 "cdx" =
        some unmanagedLease := by simpa using facts
  cases swept : sweepLeases sampleConfig 15 last.host.manager [("cdx", {})] with
  | mk after outcome =>
  rw [swept] at succeeded gone
  obtain rfl : outcome = .ok () := by
    cases outcome with
    | error error => cases succeeded
    | ok _ => rfl
  obtain ⟨least, again⟩ := warned_once sampleConfig ⟨sampleHost, []⟩ last counts sampleWarnings rfl
    (fun codexID row present => (sampleHost_start.rows codexID row present).1) ran
  exact ⟨last, counts, after, ran, one,
    least (Runs.meets_and _ _ _ _ _ timely (Runs.meets_of_forall _ _ stored)), swept, gone,
    again 15 _ _ _ swept (by simp)⟩

/-- A Host that warns four units of time before the deadline. -/
def earlyConfig : Config := { sampleConfig with leaseWarningBefore := 4 }

/-- The lease is renewed and warned of while the announcement has read the view. The announcement
stores the old deadline, a workspace commit of unknown outcome takes it over, and the Codex is
swept again. -/
def sampleWarnedTwice : List Announcements.Label :=
  Announcements.sampleReading ++ [.host { operation := .renew "cdx", now := 6 },
    .host { operation := .sweep "cdx", now := 12 }, .commit Announcements.sampleRead 12 {},
    lostCommit 13, .host { operation := .sweep "cdx", now := 13 }]

/-- Two warnings are committed, and the deadline was not assigned between them. -/
theorem late_announcement_warns_twice : ∃ last counts,
    Start sampleHost ∧
    Runs.run (countedStep earlyConfig) (⟨sampleHost, []⟩, fun _ => 0) sampleWarnedTwice =
      some (last, counts) ∧ counts "cdx" = 2 := by
  have counted : (Runs.run (countedStep earlyConfig) (⟨sampleHost, []⟩, fun _ => 0)
      sampleWarnedTwice).map (fun state => state.2 "cdx") = some 2 := by decide +kernel
  obtain ⟨⟨last, counts⟩, ran, twice⟩ := map_eq_some_iff.mp counted
  exact ⟨last, counts, sampleHost_start, ran, twice⟩

end CodexRemote.Host
