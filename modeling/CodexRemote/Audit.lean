import CodexRemote.Library.Runs
import CodexRemote.Library.Utf8
import CodexRemote.Protocol
import Mathlib.Logic.Function.Basic

/-!
# Audit journals

`Record` of `internal/audit/recorder.go` appends a record as one line to the journal of its kind,
and begins the next part of a journal when the line would make it too long. The old part is closed
first and stays in the table until the next one is open: one part that cannot be opened is the end
of its journal. A raw text is cut at a number of bytes, wherever a character ends.

The raw text is the only string of a record here; paths, ids and times are left out. `written` has
the lines of all parts.
-/
namespace CodexRemote.Audit

open Protocol Function

/-- The kinds with a journal of their own, and the others. -/
inductive AuditKind where
  | csWireFrame
  | rpc
  | canonicalActivity
  | appServerWire
  | hostAction
  | runtimeLog
  | other

def journalKey : AuditKind → String
  | .csWireFrame => "cs-wire"
  | .rpc => "rpc"
  | .canonicalActivity => "activities"
  | .appServerWire => "app-server-wire"
  | .hostAction => "host-actions"
  | .runtimeLog => "runtime"
  | .other => "host"

structure AuditRecord where
  kind : AuditKind
  localSeq : Nat := 0
  rawText : Text := []
  rawSha256 : Text := []
  rawSizeBytes : Nat := 0
  rawTruncated : Bool := false

/-- SHA-256 in hexadecimal digits, the length of a record's line, and the limits. -/
structure Config where
  sha256 : Text → Text
  digits : ∀ raw, (sha256 raw).length = 64
  lineBytes : AuditRecord → Nat
  maxFileBytes : Nat
  maxRawBytes : Nat

structure Journal where
  isOpen : Bool := true
  size : Nat
  part : Nat

inductive Failure where
  | encoding
  | closed
  | directory
  | file

/-- A recorder, degraded once it has an error. -/
structure Recorder where
  seq : Nat := 0
  files : String → Option Journal := fun _ => none
  lastErr : Option Failure := none
  written : String → List AuditRecord := fun _ => []

def markFailed (recorder : Recorder) (failure : Failure) : Recorder × Except Failure Unit :=
  ({ recorder with lastErr := some failure }, .error failure)

/-- The end of `ensureJournal`. The file system answers with the size of the file. -/
def openPart (recorder : Recorder) (key : String) (part : Nat) :
    Except Failure Nat → Recorder × Except Failure Journal
  | .error failure => (recorder, .error failure)
  | .ok size =>
      let journal := { size := size, part := part }
      ({ recorder with files := update recorder.files key (some journal) }, .ok journal)

section

variable (config : Config) (recorder : Recorder)

/-- What `Record` fills in ahead of the encoding. -/
def prepare (entry : AuditRecord) : AuditRecord :=
  let filled := { entry with localSeq := recorder.seq + 1 }
  if entry.rawText = [] then filled
  else
    let hashed := { filled with
      rawSha256 := config.sha256 entry.rawText, rawSizeBytes := entry.rawText.length }
    if config.maxRawBytes < entry.rawText.length then
      { hashed with rawText := entry.rawText.take config.maxRawBytes, rawTruncated := true }
    else hashed

def ensureJournal (key : String) (incoming : Nat) (answer : Except Failure Nat) :
    Recorder × Except Failure Journal :=
  match recorder.files key with
  | none => openPart recorder key 0 answer
  | some journal =>
      if journal.size + incoming ≤ config.maxFileBytes then (recorder, .ok journal)
      -- Closed, a part stays in the table if the next one does not open.
      else if journal.isOpen = false then (recorder, .error .closed)
      else openPart { recorder with
        files := update recorder.files key (some { journal with isOpen := false }) } key
        (journal.part + 1) answer

/-- ProtoJSON takes valid UTF-8 only. -/
def record (entry : AuditRecord) (answer : Except Failure Nat) :
    Recorder × Except Failure Unit :=
  let line := prepare config recorder entry
  let key := journalKey entry.kind
  let numbered := { recorder with seq := recorder.seq + 1 }
  if Utf8.valid line.rawText = false then markFailed numbered .encoding
  else
    match ensureJournal config numbered key (config.lineBytes line) answer with
    | (after, .error failure) => markFailed after failure
    | (after, .ok journal) =>
        if journal.isOpen = false then markFailed after .closed
        else
          ({ after with
            files := update after.files key
              (some { journal with size := journal.size + config.lineBytes line })
            written := update after.written key (after.written key ++ [line]) }, .ok ())

def step (label : AuditRecord × Except Failure Nat) : Option Recorder :=
  some (record config recorder label.1 label.2).1

/-- Where a part is full, the next one can be opened. -/
def OpensNext (label : AuditRecord × Except Failure Nat) : Prop :=
  ∀ journal, recorder.files (journalKey label.1.kind) = some journal → label.2.isOk = true ∨
    journal.size + config.lineBytes (prepare config recorder label.1) ≤ config.maxFileBytes

end

variable {config : Config} {recorder : Recorder} {entry : AuditRecord}
  {answer : Except Failure Nat}

/-- Every part in the table is open. -/
def Usable (recorder : Recorder) : Prop :=
  ∀ key journal, recorder.files key = some journal → journal.isOpen = true

/-- A table of open parts gives an open part, unless the first one cannot be opened. -/
theorem ensureJournal_cases (usable : Usable recorder)
    (next : ∀ journal, recorder.files key = some journal →
      answer.isOk = true ∨ journal.size + incoming ≤ config.maxFileBytes) :
    (answer.isOk = false ∧ ∃ failure,
        ensureJournal config recorder key incoming answer = (recorder, .error failure)) ∨
      ∃ files journal, ensureJournal config recorder key incoming answer =
          ({ recorder with files := files }, .ok journal) ∧ journal.isOpen = true ∧
        ∀ other, other ≠ key → files other = recorder.files other := by
  unfold ensureJournal
  cases found : recorder.files key with
  | none =>
    cases answer with
    | error failure => exact .inl ⟨rfl, failure, rfl⟩
    | ok size => exact .inr ⟨_, _, rfl, rfl, fun other distinct => update_of_ne distinct _ _⟩
  | some journal =>
    have isOpen := usable key journal found
    by_cases fits : journal.size + incoming ≤ config.maxFileBytes
    · exact .inr ⟨recorder.files, journal, by simp [fits], isOpen, fun _ _ => rfl⟩
    · have opens := (next journal found).resolve_right fits
      cases answer with
      | error failure => cases opens
      | ok size =>
        simp only [fits, isOpen, openPart, Bool.true_eq_false, if_false]
        exact .inr ⟨_, _, rfl, rfl, fun other distinct => by simp [distinct]⟩

/-- A record leaves open parts behind. Where the file system works, one that can be encoded is the
last line. -/
theorem record_spec (usable : Usable recorder)
    (next : OpensNext config recorder (entry, answer)) :
    let line := prepare config recorder entry
    let result := record config recorder entry answer
    Usable result.1 ∧ (answer.isOk = true →
      (result.2 = .ok () ↔ Utf8.valid line.rawText = true) ∧
      (Utf8.valid line.rawText = true → result.1.written (journalKey entry.kind) =
        recorder.written (journalKey entry.kind) ++ [line])) := by
  intro line result
  simp only [result, record]
  split
  · next refused => exact ⟨usable, fun _ => by simp [line, refused, markFailed]⟩
  next encodes =>
  have numbered : Usable { recorder with seq := recorder.seq + 1 } := usable
  obtain ⟨fails, failure, same⟩ | ⟨files, journal, same, isOpen, others⟩ :=
    ensureJournal_cases numbered next
  · rw [same]
    exact ⟨usable, fun works => by cases works.symm.trans fails⟩
  · simp only [same, isOpen, Bool.true_eq_false, if_false]
    refine ⟨?_, fun _ => ⟨by simpa [line] using encodes, fun _ => update_self _ _ _⟩⟩
    intro other found present
    by_cases distinct : other = journalKey entry.kind
    · subst distinct
      cases (update_self _ _ _).symm.trans present
      rfl
    · refine usable other found ((others other distinct).symm.trans ?_)
      exact (update_of_ne distinct _ _).symm.trans present

/-- In every run in which a full part always finds the next one, a record that can be encoded is
appended to the journal of its kind as soon as the file system works. -/
theorem journals_recover (config : Config) (labels : List (AuditRecord × Except Failure Nat))
    (recorder : Recorder) (meets : Runs.Meets (step config) (OpensNext config) {} labels)
    (ran : Runs.run (step config) {} labels = some recorder) (entry : AuditRecord)
    (answer : Except Failure Nat) (works : answer.isOk = true)
    (encodes : Utf8.valid (prepare config recorder entry).rawText = true) :
    (record config recorder entry answer).2 = .ok () ∧
      (record config recorder entry answer).1.written (journalKey entry.kind) =
        recorder.written (journalKey entry.kind) ++ [prepare config recorder entry] := by
  have usable : Usable recorder := by
    refine Runs.run_invariant Usable ?_ (fun _ _ is => by cases is) meets ran
    rintro before ⟨entry, answer⟩ after usable next stepped
    cases stepped
    exact (record_spec usable next).1
  obtain ⟨done, appended⟩ := (record_spec usable fun _ _ => .inl works).2 works
  exact ⟨done.mpr encodes, appended encodes⟩

/-- One byte a line, a part and a raw text. -/
def sampleConfig : Config :=
  { sha256 := fun _ => List.replicate 64 48, digits := fun _ => rfl, lineBytes := fun _ => 1
    maxFileBytes := 1, maxRawBytes := 1 }

theorem journals_recover_directory :
    (record sampleConfig { seq := 1, lastErr := some .directory } { kind := .rpc }
      (.ok 0)).2 = .ok () :=
  (journals_recover sampleConfig [({ kind := .rpc }, .error .directory)] _
    ⟨fun _ => nofun, fun _ _ => trivial⟩ rfl _ (.ok 0) rfl rfl).1

/-- The second record finds its part full and cannot open the next one. -/
theorem failed_rotation_sticks : ∃ recorder,
    Runs.run (step sampleConfig) {}
      [({ kind := .rpc }, .ok 0), ({ kind := .rpc }, .error .file)] = some recorder ∧
    (record sampleConfig recorder { kind := .rpc } (.ok 0)).2 = .error .closed :=
  ⟨_, rfl, rfl⟩

/-- The line has what is to be kept of a raw text. -/
structure Keeps (config : Config) (raw : Text) (line : AuditRecord) : Prop where
  cut : line.rawText <+: raw
  short : line.rawText.length ≤ config.maxRawBytes
  size : line.rawSizeBytes = raw.length
  hash : line.rawSha256 = config.sha256 raw
  mark : line.rawTruncated = true ↔ line.rawText ≠ raw

/-- A valid raw text is kept exactly if it is not blank and not cut within a character. -/
theorem raw_text_kept_iff (usable : Usable recorder) (works : answer.isOk = true)
    (kind : AuditKind) (raw : Text) (valid : Utf8.valid raw = true) :
    let result := record config recorder { kind := kind, rawText := raw } answer
    (result.2 = .ok () ∧ ∃ line, result.1.written (journalKey kind) =
        recorder.written (journalKey kind) ++ [line] ∧ Keeps config raw line) ↔
      raw ≠ [] ∧ (raw.length ≤ config.maxRawBytes ∨
        Utf8.valid (raw.take config.maxRawBytes) = true) := by
  intro result
  let line := prepare config recorder { kind := kind, rawText := raw }
  obtain ⟨done, appended⟩ := (record_spec usable fun _ _ => .inl works).2 works
  have stored : (Utf8.valid line.rawText = true ∧ ∃ other, result.1.written (journalKey kind) =
        recorder.written (journalKey kind) ++ [other] ∧ Keeps config raw other) ↔
      Utf8.valid line.rawText = true ∧ Keeps config raw line := by
    refine and_congr_right fun encodes => ?_
    rw [show result.1.written (journalKey kind) = _ from appended encodes]
    simp [line]
  rw [done, stored]
  simp only [line, prepare]
  split
  · next blank =>
    refine iff_of_false ?_ fun kept => kept.1 blank
    rintro ⟨-, keeps⟩
    have digits := config.digits raw
    rw [← keeps.hash] at digits
    cases digits
  next nonblank =>
  split
  · next long =>
    have proper : raw.take config.maxRawBytes ≠ raw := by
      intro same
      have shorter := congrArg List.length same
      rw [List.length_take] at shorter
      omega
    simp only [nonblank, Nat.not_le.mpr long, false_or, ne_eq, not_false_eq_true, true_and,
      and_iff_left_iff_imp]
    intro _
    exact ⟨List.take_prefix _ _, List.length_take_le _ _, rfl, rfl, by simp [proper]⟩
  · next short =>
    refine iff_of_true ⟨valid, List.prefix_refl _, Nat.not_lt.mp short, rfl, rfl, by simp⟩ ?_
    exact ⟨nonblank, .inl (Nat.not_lt.mp short)⟩

theorem raw_text_kept_letter :
    (record sampleConfig {} { kind := .rpc, rawText := [97] } (.ok 0)).2 = .ok () :=
  ((raw_text_kept_iff (fun _ _ is => by cases is) rfl .rpc [97] rfl).mpr
    ⟨by decide, .inl (by decide)⟩).1

/-- A letter of two bytes under a limit of one. -/
theorem split_letter_refused : Utf8.valid [0xc3, 0xa9] = true ∧
    (record sampleConfig {} { kind := .rpc, rawText := [0xc3, 0xa9] } (.ok 0)).2 =
      .error .encoding :=
  ⟨by decide, rfl⟩

end CodexRemote.Audit
