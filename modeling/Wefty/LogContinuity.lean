/-
Log ingest at L1 (`AppendLogs` in `l1/store.go`, `l1/log_continuity.go`).

A batch is scanned event by event against the continuity record of each stream: an event at or
below the recorded mark is a replay and is compared with the rows still retained, an event above
it must continue the stream exactly. Nothing is written until the whole batch has been scanned.

The rows are not the stream: retention may delete any of them, in the very transaction that
stored them. So nothing about acceptance can be read off the rows, and the history of a stream,
the ranges it has ever accepted, is in no table. [`History`] carries it beside the store, and the
invariant ties it to the mark (the ranges tile everything up to it) and to the rows (each row is
one of them).
-/
import Mathlib.Data.List.MinMax
import Wefty.LogTables
import Wefty.Runs

set_option autoImplicit false

namespace Wefty.LogContinuity

open Tables Ranges LogEvents Rows Runs LogTables

variable {es : List LogEvent} {e : LogEvent} {next : LogStream → Option Nat} {attemptID : Nat}
variable {late : Bool} {stream : LogStream}
variable {t : Table Continuity.key}

/-! ## 1. Validation -/

/-- `contract.ErrorCode`, as far as this file uses it. -/
inductive ErrorCode
  | invalidRequest
  | attemptNotFound
  | attemptMismatch
  | conflict
  | idempotencyConflict
  | internal

/-- What `AppendLogs` refuses with. `guard` is a refusal decided before the batch is read. -/
inductive LogError
  | batchSize
  | attemptNotFound
  | guard (code : ErrorCode)
  | attemptMismatch
  | sequenceRange
  | timestampRequired
  | bytesRange
  | bytesAndGap
  | gapInconsistent
  | gapHash
  | lateGapHash
  | batchConflict (stream : LogStream) (sequence : Nat)
  | extendsPast (stream : LogStream) (sequence last : Nat) (through : Int)
  | replayConflict (stream : LogStream) (sequence last : Nat)
  | outOfSequence (stream : LogStream) (expected : Int) (got : Nat)
  | terminal
  | storeLogEvent

def maxLogBatchEvents : Nat := 256

def maxLogEventBytes : Nat := 4 * 2 ^ 20

/-- 64 lower-case hexadecimal digits. -/
def validSHA256 (value : String) : Bool :=
  value.utf8ByteSize == 64 && value.toList.all fun c =>
    (decide ('0' ≤ c) && decide (c ≤ '9')) || (decide ('a' ≤ c) && decide (c ≤ 'f'))

/-- Streams and gap reasons are enumerations here, so the two checks that they are known ones are in
the types. -/
def validateLogEvent (attemptID : Nat) (event : LogEvent) : Except LogError Unit :=
  if event.attemptID ≠ attemptID then .error .attemptMismatch
  else if maxInt64 < event.sequence ∨ maxInt64 < event.endSequence then .error .sequenceRange
  else if event.timestamp = 0 then .error .timestampRequired
  else
    match event.gap with
    | none =>
      if event.bytes.length = 0 ∨ maxLogEventBytes < event.bytes.length then .error .bytesRange
      else .ok ()
    | some gap =>
      if event.bytes.length ≠ 0 then .error .bytesAndGap
      else if gap.throughSequence < event.sequence ∨
          gap.lostEventCount ≠ gap.throughSequence - event.sequence + 1 ∨ gap.lostByteCount = 0 then
        .error .gapInconsistent
      else if gap.sourceEventSHA256 ≠ "" ∧ validSHA256 gap.sourceEventSHA256 = false then
        .error .gapHash
      else if gap.reason = .lateEvidenceWindowExpired ∧ gap.sourceEventSHA256 = "" then
        .error .lateGapHash
      else .ok ()

/-- What an accepted event satisfies, as far as it is needed. -/
theorem validateLogEvent_ok (h : validateLogEvent attemptID e = .ok ()) :
    e.attemptID = attemptID ∧ e.sequence ≤ e.endSequence := by
  unfold validateLogEvent at h
  split at h
  · cases h
  rename_i hatt
  refine ⟨by simpa using hatt, ?_⟩
  split at h
  · cases h
  split at h
  · cases h
  unfold LogEvent.endSequence
  split at h
  · rename_i hgap
    rw [hgap]
  rename_i gap hgap
  rw [hgap]
  split at h
  · cases h
  · split at h
    · cases h
    · rename_i hrange
      rw [not_or, Nat.not_lt] at hrange
      exact hrange.1

/-! ## 2. The late-evidence gap -/

section Late
variable (sha256 : LogEvent → String)

/-- After its window has closed a lost attempt's event is kept as a gap that names the event it
stands for. -/
def lateEvidenceGap (event : LogEvent) : LogEvent :=
  { event with
    bytes := []
    gap := some
      { throughSequence := event.endSequence
        lostEventCount := match event.gap with | some gap => gap.lostEventCount | none => 1
        lostByteCount := match event.gap with
          | some gap => gap.lostByteCount
          | none => event.bytes.length
        reason := .lateEvidenceWindowExpired
        sourceEventSHA256 := sha256 event } }

def storedForm (late : Bool) (event : LogEvent) : LogEvent :=
  if late then lateEvidenceGap sha256 event else event

variable {sha256}

@[simp]
theorem storedForm_attemptID : (storedForm sha256 late e).attemptID = e.attemptID := by
  unfold storedForm
  split <;> rfl

@[simp]
theorem storedForm_stream (late : Bool) (e : LogEvent) :
    (storedForm sha256 late e).stream = e.stream := by
  unfold storedForm
  split <;> rfl

@[simp]
theorem storedForm_sequence : (storedForm sha256 late e).sequence = e.sequence := by
  unfold storedForm
  split <;> rfl

@[simp]
theorem storedForm_endSequence : (storedForm sha256 late e).endSequence = e.endSequence := by
  unfold storedForm
  split <;> rfl

end Late

/-! ## 3. The scan -/

/-- The highest accepted sequence, or -1. -/
def readLogContinuity (s : LogStore) (attemptID : Nat) (stream : LogStream) : Int :=
  match s.continuity.find (attemptID, stream) with
  | some c => c.acceptedThrough
  | none => -1

/-- The first sequence number a continuity record leaves open. -/
def openedAt (t : Table Continuity.key) (attemptID : Nat) (stream : LogStream) : Nat :=
  match t.find (attemptID, stream) with
  | some c => c.acceptedThrough + 1
  | none => 0

/-- The first sequence number not accepted yet. -/
def nextSequence (s : LogStore) (attemptID : Nat) (stream : LogStream) : Nat :=
  openedAt s.continuity attemptID stream

theorem nextSequence_deleteAttempts {s : LogStore} {p : LogAttempt → Bool} {a : LogAttempt}
    (h : (deleteAttempts s p).attempts.table.find attemptID = some a) (stream : LogStream) :
    nextSequence (deleteAttempts s p) attemptID stream = nextSequence s attemptID stream := by
  unfold nextSequence openedAt
  rw [deleteAttempts_continuity h]

theorem readLogContinuity_eq (s : LogStore) (attemptID : Nat) (stream : LogStream) :
    readLogContinuity s attemptID stream = (nextSequence s attemptID stream : Int) - 1 := by
  unfold readLogContinuity nextSequence openedAt
  cases s.continuity.find (attemptID, stream) with
  | none => rfl
  | some c => simp

/-- The nearest row before the event must end before it, and of the rows that start inside it there
is none, or one that is the event. -/
def checkRetainedLogReplay (s : LogStore) (attemptID : Nat) (original event : LogEvent) : Bool :=
  let rows := s.events.table.rows.filter fun r => r.at? attemptID event.stream
  let previous := (rows.filter fun r => r.event.sequence < event.sequence).argmax fun r =>
    r.event.sequence
  let clear := match previous with
    | some r => decide (r.sequenceEnd < event.sequence)
    | none => true
  clear &&
    match rows.filter fun r =>
      decide (event.sequence ≤ r.event.sequence ∧ r.event.sequence ≤ event.endSequence) with
    | [] => true
    | [r] => r.event.sequence = event.sequence && r.sequenceEnd = event.endSequence &&
        (decide (r.event = original) || decide (r.event = event))
    | _ => false

structure Scan where
  seen : List LogEvent
  recorded : LogStream → Option Int
  next : LogStream → Option Nat
  newEvents : List LogEvent

variable {scan scan' : Scan}

def Scan.start : Scan := ⟨[], fun _ => none, fun _ => none, []⟩

def sameKey (e e' : LogEvent) : Bool := e.stream = e'.stream && e.sequence = e'.sequence

/-- `next[event.Stream]`, or the mark plus one. At the largest sequence number the source's
addition wraps to a negative number, which like the one here no event equals. -/
def Scan.expected (scan : Scan) (stream : LogStream) (through : Int) : Int :=
  match scan.next stream with
  | some n => n
  | none => through + 1

section Scan
variable (sha256 : LogEvent → String) (s : LogStore) (attemptID : Nat) (late : Bool)

/-- A new position of the batch: a replay is compared, a new event must continue its stream. -/
def scanNew (scan : Scan) (original event : LogEvent) : Except LogError Scan :=
  let through := readLogContinuity s attemptID event.stream
  let scan := { scan with
    seen := event :: scan.seen
    recorded := Function.update scan.recorded event.stream (some through) }
  if (event.sequence : Int) ≤ through then
    if through < event.endSequence then
      .error (.extendsPast event.stream event.sequence event.endSequence through)
    else if checkRetainedLogReplay s attemptID original event then .ok scan
    else .error (.replayConflict event.stream event.sequence event.endSequence)
  else if (event.sequence : Int) ≠ scan.expected event.stream through then
    .error (.outOfSequence event.stream (scan.expected event.stream through) event.sequence)
  else
    .ok { scan with
      next := Function.update scan.next event.stream (some (event.endSequence + 1))
      newEvents := scan.newEvents ++ [event] }

/-- One round of the loop over `request.Events`. -/
def scanEvent (scan : Scan) (original : LogEvent) : Except LogError Scan :=
  match validateLogEvent attemptID original with
  | .error err => .error err
  | .ok () =>
    let event := storedForm sha256 late original
    match scan.seen.find? (sameKey event) with
    | some prior =>
      if prior = event then .ok scan
      else .error (.batchConflict event.stream event.sequence)
    | none => scanNew s attemptID scan original event

def scanEvents (scan : Scan) : List LogEvent → Except LogError Scan
  | [] => .ok scan
  | e :: es =>
    match scanEvent sha256 s attemptID late scan e with
    | .error err => .error err
    | .ok scan' => scanEvents scan' es

end Scan

/-! ## 4. The append -/

/-- `SET accepted_through=MAX(accepted_through, excluded.accepted_through)`. -/
def Continuity.raise (through : Nat) (c : Continuity) : Continuity :=
  { c with acceptedThrough := max c.acceptedThrough through }

theorem Continuity.raise_key (through : Nat) (c : Continuity) :
    (Continuity.raise through c).key = c.key := rfl

def recordLogContinuity (t : Table Continuity.key) (attemptID : Nat) (stream : LogStream)
    (through : Nat) : Table Continuity.key :=
  match t.find (attemptID, stream) with
  | some _ =>
    t.update (attemptID, stream) (Continuity.raise through) (Continuity.raise_key through)
  | none => t.insert ⟨attemptID, stream, through⟩

def recordStream (next : LogStream → Option Nat) (attemptID : Nat) (t : Table Continuity.key)
    (stream : LogStream) : Table Continuity.key :=
  match next stream with
  | some following => recordLogContinuity t attemptID stream (following - 1)
  | none => t

/-- The rows of the new events. `UNIQUE(attempt_id, stream, sequence)` refuses a second one. -/
def insertLogs (jobID : Nat) (t : LogRows) :
    List LogEvent → Except LogError LogRows
  | [] => .ok t
  | e :: es =>
    if t.table.any fun r => r.at? e.attemptID e.stream && r.event.sequence = e.sequence then
      .error .storeLogEvent
    else
      insertLogs jobID
        (t.insert (fun ordinal => ⟨ordinal, jobID, e, e.endSequence⟩) fun _ => rfl) es

/-- A request, with what the rest of the store decides about it: the refusal of its guards if
there is one, whether the lease has expired, whether the attempt is promoted to running,
whether the job is a service, its current attempt, and the attempts below the summary
floor. -/
structure AppendCall where
  jobID : Nat
  attemptID : Nat
  events : List LogEvent
  now : Int
  refused : Option ErrorCode
  leaseExpired : Bool
  promotes : Bool
  service : Bool
  current : Option Nat
  listed : List Nat

structure Appended where
  store : LogStore
  acknowledged : LogStream → Option Int
  attemptState : AttemptState
  accepted : List LogEvent

def LogAttempt.expire (expired : Bool) (now : Int) (a : LogAttempt) : LogAttempt :=
  if expired && a.state.active then { a with state := .lost, updatedAt := now } else a

theorem LogAttempt.expire_attemptID (expired : Bool) (now : Int) (a : LogAttempt) :
    (LogAttempt.expire expired now a).attemptID = a.attemptID := by
  unfold LogAttempt.expire
  split <;> rfl

def LogAttempt.promote (promotes : Bool) (now : Int) (a : LogAttempt) : LogAttempt :=
  if promotes && a.state = .claimed then { a with state := .running, updatedAt := now } else a

theorem LogAttempt.promote_attemptID (promotes : Bool) (now : Int) (a : LogAttempt) :
    (LogAttempt.promote promotes now a).attemptID = a.attemptID := by
  unfold LogAttempt.promote
  split <;> rfl

def expireInline (s : LogStore) (c : AppendCall) : LogStore :=
  { s with
    attempts := s.attempts.update c.attemptID (LogAttempt.expire c.leaseExpired c.now)
      (LogAttempt.expire_attemptID c.leaseExpired c.now) }

/-- The mark of every stream of the batch, as the batch leaves it. -/
def Scan.acknowledged (scan : Scan) (stream : LogStream) : Option Int :=
  (scan.recorded stream).map fun through =>
    match scan.next stream with
    | some following => (following : Int) - 1
    | none => through

section Append
variable (sha256 : LogEvent → String) (cfg : LogConfig)

/-- What follows the scan: a pure replay commits as it is; new events are stored, the marks
recorded, the attempt promoted, and retention applied. -/
def storeScan (s : LogStore) (c : AppendCall) (attempt : LogAttempt) (scan : Scan) :
    Except LogError Appended :=
  if scan.newEvents = [] then .ok ⟨s, scan.acknowledged, attempt.state, []⟩
  else if attempt.state ≠ .lost ∧ attempt.state.active = false then .error .terminal
  else
    match insertLogs c.jobID s.events scan.newEvents with
    | .error err => .error err
    | .ok events =>
      let stored : LogStore :=
        { attempts := s.attempts.update c.attemptID (LogAttempt.promote c.promotes c.now)
            (LogAttempt.promote_attemptID c.promotes c.now)
          events := enforceJobLogByteRetention cfg events c.jobID c.service appendEvictionBudget
          continuity := [.stdout, .stderr].foldl (recordStream scan.next c.attemptID)
            s.continuity }
      .ok ⟨pruneListedAttemptSummaries cfg stored c.jobID c.service c.current c.listed c.now,
        scan.acknowledged, (LogAttempt.promote c.promotes c.now attempt).state, scan.newEvents⟩

/-- The events of a batch are stored as gaps once the late-evidence window has closed. -/
def lateWindowExpired (attempt : LogAttempt) (now : Int) : Bool :=
  attempt.state = .lost && decide (attempt.updatedAt + cfg.lateEvidenceWindow < now)

def appendLogs (s : LogStore) (c : AppendCall) : Except LogError Appended :=
  if c.events.length = 0 ∨ maxLogBatchEvents < c.events.length then .error .batchSize
  else
    match s.attempts.table.find c.attemptID with
    | none => .error .attemptNotFound
    | some attempt =>
      match c.refused with
      | some code => .error (.guard code)
      | none =>
        let attempt := LogAttempt.expire c.leaseExpired c.now attempt
        let s := expireInline s c
        match scanEvents sha256 s c.attemptID (lateWindowExpired cfg attempt c.now) Scan.start
            c.events with
        | .error err => .error err
        | .ok scan => storeScan cfg s c attempt scan

end Append

/-! ## 5. What a replay check decides -/

/-- The retained rows of one stream: each is a range, no two overlap, and a sequence number
starts at most one. -/
structure Separate (t : Table LogRow.ordinal) (attemptID : Nat) (stream : LogStream) : Prop where
  ordered : ∀ r ∈ t.rows, r.at? attemptID stream = true → r.event.sequence ≤ r.sequenceEnd
  disjoint : ∀ r ∈ t.rows, r.at? attemptID stream = true →
    ∀ r' ∈ t.rows, r'.at? attemptID stream = true →
      r.event.sequence < r'.event.sequence → r.sequenceEnd < r'.event.sequence
  unique : ∀ r ∈ t.rows, r.at? attemptID stream = true →
    ∀ r' ∈ t.rows, r'.at? attemptID stream = true →
      r.event.sequence = r'.event.sequence → r = r'

def Meets (r : LogRow) (e : LogEvent) : Prop :=
  r.event.sequence ≤ e.endSequence ∧ e.sequence ≤ r.sequenceEnd

/-- The row is the event: the same range, and one of the two contents. -/
def Keeps (r : LogRow) (original event : LogEvent) : Prop :=
  r.event.sequence = event.sequence ∧ r.sequenceEnd = event.endSequence ∧
    (r.event = original ∨ r.event = event)

section Replay
variable {s : LogStore} {original event : LogEvent}

theorem checkRetainedLogReplay_sound (hsep : Separate s.events.table attemptID event.stream)
    (h : checkRetainedLogReplay s attemptID original event = true) {r : LogRow}
    (hr : r ∈ s.events.table.rows) (hat : r.at? attemptID event.stream = true)
    (hmeets : Meets r event) : Keeps r original event := by
  unfold checkRetainedLogReplay at h
  rw [Bool.and_eq_true] at h
  obtain ⟨hclear, hinside⟩ := h
  have hrow : r ∈ s.events.table.rows.filter fun r => r.at? attemptID event.stream :=
    List.mem_filter.mpr ⟨hr, hat⟩
  rcases Nat.lt_or_ge r.event.sequence event.sequence with hlt | hge
  · -- the nearest row before the event starts no earlier than this one, and ends before it
    exfalso
    have hbef : r ∈ (s.events.table.rows.filter fun r => r.at? attemptID event.stream).filter
        fun r => r.event.sequence < event.sequence :=
      List.mem_filter.mpr ⟨hrow, decide_eq_true hlt⟩
    cases hprev : ((s.events.table.rows.filter fun r => r.at? attemptID event.stream).filter
        fun r => r.event.sequence < event.sequence).argmax fun r => r.event.sequence with
    | none =>
      rw [List.argmax_eq_none] at hprev
      rw [hprev] at hbef
      cases hbef
    | some p =>
      rw [hprev] at hclear
      have hp := List.mem_filter.mp (List.argmax_mem hprev)
      have hprow := List.mem_filter.mp hp.1
      have hle := List.le_of_mem_argmax (f := fun r : LogRow => r.event.sequence) hbef hprev
      have hend : p.sequenceEnd < event.sequence := of_decide_eq_true hclear
      rcases Nat.lt_or_ge r.event.sequence p.event.sequence with hlt' | hge'
      · have := hsep.disjoint r hr hat p hprow.1 hprow.2 hlt'
        have := hsep.ordered p hprow.1 hprow.2
        have := hmeets.2
        omega
      · have hsame := hsep.unique r hr hat p hprow.1 hprow.2 (by omega)
        rw [← hsame] at hend
        have := hmeets.2
        omega
  · have hin : r ∈ (s.events.table.rows.filter fun r => r.at? attemptID event.stream).filter
        fun r => decide (event.sequence ≤ r.event.sequence ∧
          r.event.sequence ≤ event.endSequence) :=
      List.mem_filter.mpr ⟨hrow, decide_eq_true ⟨hge, hmeets.1⟩⟩
    split at hinside
    · rename_i hnil
      rw [hnil] at hin
      cases hin
    · rename_i r' hone
      rw [hone, List.mem_singleton] at hin
      subst hin
      simp only [Bool.and_eq_true, Bool.or_eq_true, decide_eq_true_eq] at hinside
      exact ⟨hinside.1.1, hinside.1.2, hinside.2⟩
    · cases hinside

theorem checkRetainedLogReplay_complete (hsep : Separate s.events.table attemptID event.stream)
    (hrange : event.sequence ≤ event.endSequence)
    (h : ∀ r ∈ s.events.table.rows, r.at? attemptID event.stream = true → Meets r event →
      Keeps r original event) : checkRetainedLogReplay s attemptID original event = true := by
  unfold checkRetainedLogReplay
  rw [Bool.and_eq_true]
  constructor
  · split
    · rename_i p hprev
      have hp := List.mem_filter.mp (List.argmax_mem hprev)
      have hprow := List.mem_filter.mp hp.1
      have hlt : p.event.sequence < event.sequence := of_decide_eq_true hp.2
      apply decide_eq_true
      by_contra hnot
      have := h p hprow.1 hprow.2 ⟨by omega, by omega⟩
      have := this.1
      omega
    · rfl
  · -- every row inside starts where the event does, so there is at most one
    generalize hrows : ((s.events.table.rows.filter fun r => r.at? attemptID event.stream).filter
      fun r => decide (event.sequence ≤ r.event.sequence ∧
        r.event.sequence ≤ event.endSequence)) = inside
    have hkeeps : ∀ r ∈ inside, r ∈ s.events.table.rows ∧
        r.at? attemptID event.stream = true ∧ Keeps r original event := by
      intro r hr
      rw [← hrows] at hr
      obtain ⟨hrow, hin⟩ := List.mem_filter.mp hr
      obtain ⟨hmem, hat⟩ := List.mem_filter.mp hrow
      have hin' := of_decide_eq_true hin
      have hord := hsep.ordered r hmem hat
      exact ⟨hmem, hat, h r hmem hat ⟨hin'.2, by omega⟩⟩
    have hnd : inside.Nodup := by
      rw [← hrows]
      exact (s.events.table.nodup.of_map _).filter _ |>.filter _
    match inside, hkeeps, hnd with
    | [], _, _ => rfl
    | [r], hk, _ =>
      obtain ⟨-, -, h1, h2, h3⟩ := hk r List.mem_cons_self
      simp [h1, h2, h3]
    | r :: r' :: _, hk, hnd =>
      exfalso
      obtain ⟨hm, hat, h1, -⟩ := hk r List.mem_cons_self
      obtain ⟨hm', hat', h1', -⟩ := hk r' (List.mem_cons_of_mem _ List.mem_cons_self)
      have hsame := hsep.unique r hm hat r' hm' hat' (h1.trans h1'.symm)
      rw [List.nodup_cons] at hnd
      apply hnd.1
      rw [hsame]
      exact List.mem_cons_self

end Replay

/-! ## 6. What a scan establishes -/

def ranges (es : List LogEvent) (stream : LogStream) : List (Nat × Nat) :=
  (es.filter fun e => e.stream = stream).map fun e => (e.sequence, e.endSequence)

theorem ranges_append {es' : List LogEvent} :
    ranges (es ++ es') stream = ranges es stream ++ ranges es' stream := by
  unfold ranges
  rw [List.filter_append, List.map_append]

theorem ranges_singleton :
    ranges [e] stream = if e.stream = stream then [(e.sequence, e.endSequence)] else [] := by
  unfold ranges
  by_cases h : e.stream = stream <;> simp [h]

section Scanned
variable (sha256 : LogEvent → String) (s : LogStore) (attemptID : Nat) (late : Bool)

def Scan.reached (scan : Scan) (stream : LogStream) : Nat :=
  match scan.next stream with
  | some n => n
  | none => nextSequence s attemptID stream

theorem expected_eq :
    scan.expected stream (readLogContinuity s attemptID stream) =
      (scan.reached s attemptID stream : Int) := by
  unfold Scan.expected Scan.reached
  cases scan.next stream with
  | some n => rfl
  | none =>
    dsimp only
    rw [readLogContinuity_eq]
    omega

/-- The events `done` have been scanned: what was seen are their stored forms, and what was taken
are those above the marks. -/
structure Scanned (done : List LogEvent) (scan : Scan) : Prop where
  seen : ∀ p, p ∈ scan.seen ↔ ∃ e ∈ done, storedForm sha256 late e = p
  taken : ∀ p, p ∈ scan.newEvents ↔
    p ∈ scan.seen ∧ nextSequence s attemptID p.stream ≤ p.sequence
  tiles : ∀ stream, Tiles (nextSequence s attemptID stream) (ranges scan.newEvents stream)
    (scan.reached s attemptID stream)
  valid : ∀ p ∈ scan.seen, p.attemptID = attemptID
  recorded : ∀ p ∈ scan.seen,
    scan.recorded p.stream = some (readLogContinuity s attemptID p.stream)
  unread : ∀ stream, (∀ p ∈ scan.seen, p.stream ≠ stream) → scan.recorded stream = none
  origin : ∀ stream n, scan.next stream = some n → nextSequence s attemptID stream < n ∧
    ∃ p ∈ scan.seen, p.stream = stream ∧ p.endSequence + 1 = n
  continues : ∀ p ∈ scan.seen, nextSequence s attemptID p.stream ≤ p.sequence →
    p.sequence = nextSequence s attemptID p.stream ∨
      ∃ q ∈ scan.seen, q.stream = p.stream ∧ q.endSequence + 1 = p.sequence
  replays : ∀ p ∈ scan.seen, p.sequence < nextSequence s attemptID p.stream →
    p.endSequence < nextSequence s attemptID p.stream ∧
      ∃ e ∈ done, storedForm sha256 late e = p ∧ checkRetainedLogReplay s attemptID e p = true

/-- **What one round of the scan can do**: repeat an event of the batch, compare a replay, or
take a new event that continues its stream. -/
theorem scanEvent_cases (h : scanEvent sha256 s attemptID late scan e = .ok scan') :
    validateLogEvent attemptID e = .ok () ∧
      ((storedForm sha256 late e ∈ scan.seen ∧ scan' = scan) ∨
        (e.endSequence < nextSequence s attemptID e.stream ∧
          checkRetainedLogReplay s attemptID e (storedForm sha256 late e) = true ∧
          scan' = { scan with
            seen := storedForm sha256 late e :: scan.seen
            recorded := Function.update scan.recorded e.stream
              (some (readLogContinuity s attemptID e.stream)) }) ∨
        (nextSequence s attemptID e.stream ≤ e.sequence ∧
          e.sequence = scan.reached s attemptID e.stream ∧
          scan' =
            { seen := storedForm sha256 late e :: scan.seen
              recorded := Function.update scan.recorded e.stream
                (some (readLogContinuity s attemptID e.stream))
              next := Function.update scan.next e.stream (some (e.endSequence + 1))
              newEvents := scan.newEvents ++ [storedForm sha256 late e] })) := by
  unfold scanEvent at h
  cases hval : validateLogEvent attemptID e with
  | error err =>
    rw [hval] at h
    cases h
  | ok u =>
    refine ⟨rfl, ?_⟩
    rw [hval] at h
    dsimp only at h
    cases hfind : scan.seen.find? (sameKey (storedForm sha256 late e)) with
    | some prior =>
      rw [hfind] at h
      dsimp only at h
      split at h
      · rename_i hprior
        cases h
        left
        rw [← hprior]
        exact ⟨List.mem_of_find?_eq_some hfind, rfl⟩
      · cases h
    | none =>
      rw [hfind] at h
      unfold scanNew at h
      simp only [storedForm_stream, storedForm_sequence, storedForm_endSequence] at h
      have hthrough := readLogContinuity_eq s attemptID e.stream
      split at h
      · split at h
        · cases h
        split at h
        · rename_i hle hend hcheck
          cases h
          right
          left
          exact ⟨by omega, hcheck, rfl⟩
        · cases h
      · split at h
        · cases h
        rename_i hle hexp
        cases h
        right
        right
        have hreach : (e.sequence : Int) = (scan.reached s attemptID e.stream : Int) := by
          rw [← expected_eq]
          exact not_not.mp hexp
        exact ⟨by omega, by omega, rfl⟩

variable {sha256 s attemptID late}

theorem Scanned.start : Scanned sha256 s attemptID late [] Scan.start := by
  refine ⟨fun p => by simp [Scan.start], fun p => by simp [Scan.start], fun _ => rfl, ?_, ?_,
    fun _ _ => rfl, ?_, ?_, ?_⟩
  all_goals
    intros
    contradiction

variable {done : List LogEvent}

theorem Scanned.step (hs : Scanned sha256 s attemptID late done scan)
    (h : scanEvent sha256 s attemptID late scan e = .ok scan') :
    Scanned sha256 s attemptID late (done ++ [e]) scan' := by
  obtain ⟨hval, hcases⟩ := scanEvent_cases sha256 s attemptID late h
  obtain ⟨hatt, hrange⟩ := validateLogEvent_ok hval
  have hdone : ∀ p, (∃ x ∈ done ++ [e], storedForm sha256 late x = p) ↔
      p = storedForm sha256 late e ∨ p ∈ scan.seen := by
    intro p
    rw [hs.seen p]
    constructor
    · rintro ⟨x, hx, rfl⟩
      rcases List.mem_append.mp hx with hx | hx
      · exact .inr ⟨x, hx, rfl⟩
      · rw [List.mem_singleton.mp hx]
        exact .inl rfl
    · rintro (rfl | ⟨x, hx, rfl⟩)
      · exact ⟨e, by simp, rfl⟩
      · exact ⟨x, List.mem_append_left _ hx, rfl⟩
  have hreplays : ∀ p ∈ scan.seen, p.sequence < nextSequence s attemptID p.stream →
      p.endSequence < nextSequence s attemptID p.stream ∧ ∃ x ∈ done ++ [e],
        storedForm sha256 late x = p ∧ checkRetainedLogReplay s attemptID x p = true := by
    intro p hp hlt
    obtain ⟨hend, x, hx, hx'⟩ := hs.replays p hp hlt
    exact ⟨hend, x, List.mem_append_left _ hx, hx'⟩
  rcases hcases with ⟨hrepeat, rfl⟩ | hcases
  · refine { hs with seen := fun p => Iff.trans ?_ (hdone p).symm, replays := hreplays }
    exact ⟨.inr, fun hp => hp.elim (fun heq => heq ▸ hrepeat) id⟩
  -- what refers to the events seen so far also holds with one more
  have hmore : ∀ {P : LogEvent → Prop}, (∃ p ∈ scan.seen, P p) →
      ∃ p ∈ storedForm sha256 late e :: scan.seen, P p :=
    fun ⟨p, hp, hP⟩ => ⟨p, List.mem_cons_of_mem _ hp, hP⟩
  have hvalid : ∀ p ∈ storedForm sha256 late e :: scan.seen, p.attemptID = attemptID := by
    refine List.forall_mem_cons.mpr ⟨?_, hs.valid⟩
    rw [storedForm_attemptID]
    exact hatt
  have hrecorded : ∀ p ∈ storedForm sha256 late e :: scan.seen,
      Function.update scan.recorded e.stream
        (some (readLogContinuity s attemptID e.stream)) p.stream =
          some (readLogContinuity s attemptID p.stream) := by
    intro p hp
    by_cases hstr : p.stream = e.stream
    · rw [hstr, Function.update_self]
    · rw [Function.update_of_ne hstr]
      rcases List.mem_cons.mp hp with rfl | hp
      · exact absurd (storedForm_stream late e) hstr
      · exact hs.recorded p hp
  have hunread : ∀ stream, (∀ p ∈ storedForm sha256 late e :: scan.seen, p.stream ≠ stream) →
      Function.update scan.recorded e.stream
        (some (readLogContinuity s attemptID e.stream)) stream = none := by
    intro stream hnone
    have hne := hnone _ List.mem_cons_self
    rw [storedForm_stream] at hne
    rw [Function.update_of_ne hne.symm]
    exact hs.unread stream fun p hp => hnone p (List.mem_cons_of_mem _ hp)
  have hcont := fun p hp hle => (hs.continues p hp hle).imp_right hmore
  rcases hcases with ⟨hend, hcheck, rfl⟩ | ⟨hle, hreach, rfl⟩
  · refine ⟨fun p => List.mem_cons.trans (hdone p).symm, fun p => ?_, hs.tiles, hvalid, hrecorded,
      hunread, fun stream n hn => (hs.origin stream n hn).imp_right hmore,
      List.forall_mem_cons.mpr ⟨fun hle => ?_, hcont⟩,
      List.forall_mem_cons.mpr ⟨fun _ => ?_, hreplays⟩⟩
    · rw [hs.taken p, List.mem_cons, or_and_right]
      refine ⟨.inr, fun hp => hp.resolve_left ?_⟩
      rintro ⟨rfl, hnew⟩
      rw [storedForm_stream, storedForm_sequence] at hnew
      omega
    · rw [storedForm_stream, storedForm_sequence] at hle
      omega
    · rw [storedForm_stream, storedForm_endSequence]
      exact ⟨hend, e, by simp, rfl, hcheck⟩
  · refine ⟨fun p => List.mem_cons.trans (hdone p).symm, fun p => ?_, fun stream => ?_, hvalid,
      hrecorded, hunread, fun stream n hn => ?_,
      List.forall_mem_cons.mpr ⟨fun _ => ?_, hcont⟩,
      List.forall_mem_cons.mpr ⟨fun hlt => ?_, hreplays⟩⟩
    · rw [List.mem_append, List.mem_singleton, List.mem_cons, hs.taken p, or_and_right, or_comm]
      refine or_congr_left ⟨fun hp => ⟨hp, ?_⟩, And.left⟩
      rw [hp, storedForm_stream, storedForm_sequence]
      exact hle
    · -- the new event is laid at the end of its stream's ranges
      rw [ranges_append, ranges_singleton, storedForm_stream, storedForm_sequence,
        storedForm_endSequence]
      by_cases hstr : e.stream = stream
      · subst hstr
        rw [if_pos rfl]
        have hsnoc := (hs.tiles e.stream).snoc (b := e.endSequence) (hreach ▸ hrange)
        rw [← hreach] at hsnoc
        simpa [Scan.reached] using hsnoc
      · rw [if_neg hstr, List.append_nil]
        have hsame := hs.tiles stream
        unfold Scan.reached at hsame ⊢
        dsimp only
        rw [Function.update_of_ne (Ne.symm hstr)]
        exact hsame
    · dsimp only at hn
      by_cases hstr : stream = e.stream
      · subst hstr
        rw [Function.update_self] at hn
        have hn' := Option.some.inj hn
        refine ⟨by omega, _, List.mem_cons_self, storedForm_stream late e, ?_⟩
        rw [storedForm_endSequence]
        exact hn'
      · rw [Function.update_of_ne hstr] at hn
        exact (hs.origin stream n hn).imp_right hmore
    · -- the stream had been taken here by the mark or by an earlier event of the batch
      rw [storedForm_stream, storedForm_sequence]
      unfold Scan.reached at hreach
      split at hreach
      · rename_i n hn
        rw [hreach]
        exact .inr (hmore (hs.origin e.stream n hn).2)
      · exact .inl hreach
    · rw [storedForm_stream, storedForm_sequence] at hlt
      omega

theorem scanEvents_cons (h : scanEvents sha256 s attemptID late scan (e :: es) = .ok scan') :
    ∃ mid, scanEvent sha256 s attemptID late scan e = .ok mid ∧
      scanEvents sha256 s attemptID late mid es = .ok scan' := by
  unfold scanEvents at h
  cases hstep : scanEvent sha256 s attemptID late scan e with
  | error err =>
    rw [hstep] at h
    cases h
  | ok mid =>
    rw [hstep] at h
    exact ⟨mid, rfl, h⟩

/-- **What a scan that succeeds has established** about its whole batch. -/
theorem scanEvents_scanned (h : scanEvents sha256 s attemptID late Scan.start es = .ok scan') :
    Scanned sha256 s attemptID late es scan' := by
  suffices hall : ∀ {done scan}, Scanned sha256 s attemptID late done scan →
      scanEvents sha256 s attemptID late scan es = .ok scan' →
      Scanned sha256 s attemptID late (done ++ es) scan' from hall .start h
  clear h
  induction es with
  | nil =>
    intro done scan hs h
    cases h
    rw [List.append_nil]
    exact hs
  | cons e es ih =>
    intro done scan hs h
    obtain ⟨mid, hmid, hrest⟩ := scanEvents_cons h
    have hdone := ih (hs.step hmid) hrest
    rwa [List.append_assoc] at hdone

/-- The number acknowledged for a stream of the batch is the last before the one it has reached. -/
theorem Scanned.acknowledged_eq (hs : Scanned sha256 s attemptID late done scan) (he : e ∈ done) :
    scan.acknowledged e.stream = some ((scan.reached s attemptID e.stream : Int) - 1) := by
  have hrec := hs.recorded _ ((hs.seen _).mpr ⟨e, he, rfl⟩)
  rw [storedForm_stream] at hrec
  unfold Scan.acknowledged Scan.reached
  rw [hrec, Option.map_some]
  cases scan.next e.stream with
  | some n => rfl
  | none => exact congrArg some (readLogContinuity_eq s attemptID e.stream)

/-- A scan that has taken nothing has moved no stream. -/
theorem Scanned.next_of_nil
    (hs : Scanned sha256 s attemptID late done scan) (hnil : scan.newEvents = []) :
    scan.next = fun _ => none := by
  funext stream
  cases hnext : scan.next stream with
  | none => rfl
  | some n =>
    have htiles := hs.tiles stream
    have hlt := (hs.origin stream n hnext).1
    unfold Scan.reached at htiles
    rw [hnil, hnext] at htiles
    have heq : nextSequence s attemptID stream = n := htiles
    omega

theorem scanEvents_split {pre post : List LogEvent}
    (h : scanEvents sha256 s attemptID late scan (pre ++ e :: post) = .ok scan') :
    ∃ mid next, scanEvents sha256 s attemptID late scan pre = .ok mid ∧
      scanEvent sha256 s attemptID late mid e = .ok next := by
  induction pre generalizing scan with
  | nil =>
    obtain ⟨next, hstep, -⟩ := scanEvents_cons h
    exact ⟨scan, next, rfl, hstep⟩
  | cons x pre ih =>
    obtain ⟨mid, hstep, hrest⟩ := scanEvents_cons h
    unfold scanEvents
    rw [hstep]
    exact ih hrest

/-- **No sequence number is skipped**: an event above the mark follows it, or follows an earlier
event of its batch. -/
theorem scanEvents_no_skip {pre post : List LogEvent}
    (h : scanEvents sha256 s attemptID late Scan.start (pre ++ e :: post) = .ok scan')
    (hnew : nextSequence s attemptID e.stream ≤ e.sequence) :
    e.sequence = nextSequence s attemptID e.stream ∨
      ∃ x ∈ pre, x.stream = e.stream ∧ x.endSequence + 1 = e.sequence := by
  obtain ⟨mid, next, hpre, hstep⟩ := scanEvents_split h
  have hval := (scanEvent_cases sha256 s attemptID late hstep).1
  have hrange := (validateLogEvent_ok hval).2
  have hnext := (scanEvents_scanned hpre).step hstep
  have hseen := (hnext.seen _).mpr ⟨e, by simp, rfl⟩
  rcases hnext.continues _ hseen (by simpa using hnew) with heq | ⟨q, hq, hxs, hxe⟩
  · left
    simpa using heq
  right
  obtain ⟨x, hx, rfl⟩ := (hnext.seen q).mp hq
  rw [storedForm_stream, storedForm_stream] at hxs
  rw [storedForm_endSequence, storedForm_sequence] at hxe
  rcases List.mem_append.mp hx with hx | hx
  · exact ⟨x, hx, hxs, hxe⟩
  · rw [List.mem_singleton.mp hx] at hxe
    omega

/-- **An accepted range is not overlapped by other content**: an event that starts at or below
the mark ends there too, and every retained row it meets is that event. -/
theorem scanEvents_replays (h : scanEvents sha256 s attemptID late Scan.start es = .ok scan')
    (he : e ∈ es) (hsep : Separate s.events.table attemptID e.stream)
    (hold : e.sequence < nextSequence s attemptID e.stream) :
    e.endSequence < nextSequence s attemptID e.stream ∧
      ∀ r ∈ s.events.table.rows, r.at? attemptID e.stream = true → Meets r e →
        r.event.sequence = e.sequence ∧ r.sequenceEnd = e.endSequence ∧
          (r.event = storedForm sha256 late e ∨
            ∃ x ∈ es, storedForm sha256 late x = storedForm sha256 late e ∧ r.event = x) := by
  have hscan := scanEvents_scanned h
  obtain ⟨hend, x, hx, hform, hcheck⟩ :=
    hscan.replays _ ((hscan.seen _).mpr ⟨e, he, rfl⟩) (by simpa using hold)
  rw [storedForm_endSequence, storedForm_stream] at hend
  refine ⟨hend, ?_⟩
  intro r hr hat hmeets
  have hmeets' : Meets r (storedForm sha256 late e) := by
    unfold Meets at hmeets ⊢
    simpa using hmeets
  have hkeeps := checkRetainedLogReplay_sound (by rwa [storedForm_stream]) hcheck hr
    (by rwa [storedForm_stream]) hmeets'
  unfold Keeps at hkeeps
  rw [storedForm_sequence, storedForm_endSequence] at hkeeps
  refine ⟨hkeeps.1, hkeeps.2.1, ?_⟩
  rcases hkeeps.2.2 with horig | hstore
  · exact Or.inr ⟨x, hx, hform, horig⟩
  · exact Or.inl hstore

/-- A replay that is the event seen before, or the one retained, is noted and nothing more. -/
theorem scanEvent_replay (scan : Scan) (hval : validateLogEvent attemptID e = .ok ())
    (hend : e.endSequence < nextSequence s attemptID e.stream)
    (hcheck : checkRetainedLogReplay s attemptID e (storedForm sha256 late e) = true)
    (hseen : ∀ p ∈ scan.seen, sameKey (storedForm sha256 late e) p = true →
      p = storedForm sha256 late e) :
    ∃ mid, scanEvent sha256 s attemptID late scan e = .ok mid ∧ mid.newEvents = scan.newEvents ∧
      mid.next = scan.next ∧ ∀ p ∈ mid.seen, p = storedForm sha256 late e ∨ p ∈ scan.seen := by
  have hrange := (validateLogEvent_ok hval).2
  have hthrough := readLogContinuity_eq s attemptID e.stream
  unfold scanEvent
  rw [hval]
  dsimp only
  cases hfind : scan.seen.find? (sameKey (storedForm sha256 late e)) with
  | some prior =>
    have hprior := hseen prior (List.mem_of_find?_eq_some hfind) (List.find?_some hfind)
    exact ⟨scan, if_pos hprior, rfl, rfl, fun _ => .inr⟩
  | none =>
    refine ⟨{ scan with
      seen := storedForm sha256 late e :: scan.seen
      recorded := Function.update scan.recorded e.stream
        (some (readLogContinuity s attemptID e.stream)) }, ?_, rfl, rfl, fun _ => List.mem_cons.mp⟩
    unfold scanNew
    simp only [storedForm_stream, storedForm_sequence, storedForm_endSequence]
    rw [if_pos (by omega), if_neg (by omega), if_pos hcheck]

theorem scanEvents_replay (scan : Scan)
    (hseen : ∀ p ∈ scan.seen, ∃ x, storedForm sha256 late x = p ∧
      ∀ e ∈ es, sameKey e x = true → storedForm sha256 late e = p)
    (hself : ∀ e ∈ es, ∀ e' ∈ es, sameKey e e' = true →
      storedForm sha256 late e = storedForm sha256 late e')
    (hvalid : ∀ e ∈ es, validateLogEvent attemptID e = .ok ())
    (hbelow : ∀ e ∈ es, e.endSequence < nextSequence s attemptID e.stream)
    (hcheck : ∀ e ∈ es, checkRetainedLogReplay s attemptID e (storedForm sha256 late e) = true) :
    ∃ scan', scanEvents sha256 s attemptID late scan es = .ok scan' ∧
      scan'.newEvents = scan.newEvents ∧ scan'.next = scan.next := by
  induction es generalizing scan with
  | nil => exact ⟨scan, rfl, rfl, rfl⟩
  | cons e es ih =>
    have hrest : ∀ x ∈ es, x ∈ e :: es := fun x hx => List.mem_cons_of_mem _ hx
    obtain ⟨mid, hstep, hnew, hnext, hmid⟩ := scanEvent_replay scan
      (hvalid e List.mem_cons_self) (hbelow e List.mem_cons_self) (hcheck e List.mem_cons_self)
      (fun p hp hkey => by
        -- the position was seen before: the same event again
        obtain ⟨x, hx, hsame⟩ := hseen p hp
        refine (hsame e List.mem_cons_self ?_).symm
        rw [← hx] at hkey
        simpa [sameKey] using hkey)
    obtain ⟨scan', h', hnew', hnext'⟩ := ih mid
      (fun p hp => by
        rcases hmid p hp with rfl | hp
        · exact ⟨e, rfl, fun y hy hk => hself y (hrest y hy) e List.mem_cons_self hk⟩
        · obtain ⟨x, hx, hsame⟩ := hseen p hp
          exact ⟨x, hx, fun y hy => hsame y (hrest y hy)⟩)
      (fun y hy y' hy' => hself y (hrest y hy) y' (hrest y' hy'))
      (fun y hy => hvalid y (hrest y hy)) (fun y hy => hbelow y (hrest y hy))
      (fun y hy => hcheck y (hrest y hy))
    refine ⟨scan', ?_, hnew'.trans hnew, hnext'.trans hnext⟩
    unfold scanEvents
    rw [hstep]
    exact h'

end Scanned

/-! ## 7. What an append writes -/

/-- **What a committed append can have done**: it was a replay and only the inline expiry is
written, or its new events were stored, their marks recorded, and retention applied. -/
theorem appendLogs_cases {sha256 : LogEvent → String} {cfg : LogConfig} {s : LogStore}
    {c : AppendCall} {r : Appended} (h : appendLogs sha256 cfg s c = .ok r) :
    ∃ attempt scan, s.attempts.table.find c.attemptID = some attempt ∧
      scanEvents sha256 (expireInline s c) c.attemptID
        (lateWindowExpired cfg (LogAttempt.expire c.leaseExpired c.now attempt) c.now) Scan.start
        c.events = .ok scan ∧ r.accepted = scan.newEvents ∧ r.acknowledged = scan.acknowledged ∧
      ((scan.newEvents = [] ∧ r.store = expireInline s c) ∨
        ∃ events, insertLogs c.jobID s.events scan.newEvents = .ok events ∧
          r.store = pruneListedAttemptSummaries cfg
            { attempts := (expireInline s c).attempts.update c.attemptID
                (LogAttempt.promote c.promotes c.now)
                (LogAttempt.promote_attemptID c.promotes c.now)
              events := enforceJobLogByteRetention cfg events c.jobID c.service
                appendEvictionBudget
              continuity := [.stdout, .stderr].foldl (recordStream scan.next c.attemptID)
                s.continuity } c.jobID c.service c.current c.listed c.now) := by
  unfold appendLogs at h
  split at h
  · cases h
  cases hfind : s.attempts.table.find c.attemptID with
  | none =>
    rw [hfind] at h
    cases h
  | some attempt =>
    rw [hfind] at h
    dsimp only at h
    split at h
    · cases h
    split at h
    · cases h
    rename_i scan hscan
    refine ⟨attempt, scan, rfl, hscan, ?_⟩
    unfold storeScan at h
    split at h
    · rename_i hnil
      cases h
      exact ⟨hnil.symm, rfl, Or.inl ⟨hnil, rfl⟩⟩
    · split at h
      · cases h
      · split at h
        · cases h
        · rename_i events hins
          cases h
          exact ⟨rfl, rfl, Or.inr ⟨events, hins, rfl⟩⟩

variable {st : LogStream}

theorem openedAt_recordLogContinuity {through a : Nat} :
    openedAt (recordLogContinuity t attemptID stream through) a st =
      if (a, st) = (attemptID, stream) then max (openedAt t a st) (through + 1)
      else openedAt t a st := by
  unfold openedAt recordLogContinuity
  cases hf : t.find (attemptID, stream) with
  | some c =>
    rw [Table.find_update]
    by_cases hk : (a, st) = (attemptID, stream)
    · rw [if_pos hk, if_pos hk, hk, hf]
      simp only [Option.map_some, Continuity.raise]
      omega
    · rw [if_neg hk, if_neg hk]
  | none =>
    rw [Table.find_insert _ _ hf]
    by_cases hk : (a, st) = (attemptID, stream)
    · have hkey : Continuity.key ⟨attemptID, stream, through⟩ = (a, st) := hk.symm
      rw [if_pos hkey, if_pos hk, hk, hf]
      simp
    · have hkey : ¬ Continuity.key ⟨attemptID, stream, through⟩ = (a, st) :=
        fun h => hk h.symm
      rw [if_neg hkey, if_neg hk]

theorem openedAt_recordStream (stream : LogStream)
    (hpos : ∀ n, next stream = some n → openedAt t attemptID stream < n) (a : Nat)
    (st : LogStream) :
    openedAt (recordStream next attemptID t stream) a st =
      if (a, st) = (attemptID, stream) then (next st).getD (openedAt t a st)
      else openedAt t a st := by
  unfold recordStream
  cases hn : next stream with
  | none =>
    by_cases hk : (a, st) = (attemptID, stream)
    · cases hk
      rw [if_pos rfl, hn, Option.getD_none]
    · rw [if_neg hk]
  | some n =>
    rw [openedAt_recordLogContinuity]
    by_cases hk : (a, st) = (attemptID, stream)
    · cases hk
      have := hpos n hn
      rw [if_pos rfl, if_pos rfl, hn, Option.getD_some]
      omega
    · rw [if_neg hk, if_neg hk]

theorem openedAt_record (hpos : ∀ st n, next st = some n → openedAt t attemptID st < n) (a : Nat)
    (st : LogStream) :
    openedAt ([.stdout, .stderr].foldl (recordStream next attemptID) t) a st =
      if a = attemptID then (next st).getD (openedAt t a st) else openedAt t a st := by
  have hout := openedAt_recordStream .stdout (hpos .stdout)
  have herr := openedAt_recordStream (t := recordStream next attemptID t .stdout) .stderr (by
      intro n hn
      rw [hout, if_neg (by simp)]
      exact hpos .stderr n hn) a st
  rw [List.foldl_cons, List.foldl_cons, List.foldl_nil, herr, hout]
  by_cases ha : a = attemptID
  · cases st <;> simp [ha]
  · simp [ha]

theorem find_recordStream {a : Nat}
    (h : (recordStream next attemptID t stream).find (a, st) ≠ none) :
    a = attemptID ∨ t.find (a, st) ≠ none := by
  unfold recordStream at h
  split at h
  · unfold recordLogContinuity at h
    split at h
    · rw [Table.find_update] at h
      split at h
      · rename_i hk
        exact Or.inl (congrArg Prod.fst hk)
      · exact Or.inr h
    · rename_i hnone
      rw [Table.find_insert _ _ hnone] at h
      split at h
      · rename_i hk
        exact Or.inl (congrArg Prod.fst hk).symm
      · exact Or.inr h
  · exact Or.inr h

theorem insertLogs_rows {jobID : Nat} {t t' : LogRows}
    (h : insertLogs jobID t es = .ok t')
    (hu : ∀ r ∈ t.table.rows, ∀ r' ∈ t.table.rows, r.event.attemptID = r'.event.attemptID →
      r.event.stream = r'.event.stream → r.event.sequence = r'.event.sequence → r = r') :
    (∀ r ∈ t'.table.rows, r ∈ t.table.rows ∨ (r.event ∈ es ∧ r.sequenceEnd = r.event.endSequence)) ∧
      ∀ r ∈ t'.table.rows, ∀ r' ∈ t'.table.rows, r.event.attemptID = r'.event.attemptID →
        r.event.stream = r'.event.stream → r.event.sequence = r'.event.sequence → r = r' := by
  induction es generalizing t with
  | nil =>
    cases h
    exact ⟨fun r hr => Or.inl hr, hu⟩
  | cons e es ih =>
    unfold insertLogs at h
    split at h
    · cases h
    rename_i hany
    rw [Bool.not_eq_true, Table.any_eq_false_iff] at hany
    have hrows : (t.insert (fun ordinal => ⟨ordinal, jobID, e, e.endSequence⟩)
        fun _ => rfl).table.rows = t.table.rows ++ [⟨t.next, jobID, e, e.endSequence⟩] :=
      Table.rows_insert t.find_next
    -- no old row is where the new one goes
    have hnew : ∀ r ∈ t.table.rows, e.attemptID = r.event.attemptID →
        e.stream = r.event.stream → e.sequence = r.event.sequence → False := by
      intro r hr h1 h2 h3
      have := hany _ r (Table.mem_rows_iff.mp hr)
      simp [LogRow.at?, h1, h2, h3] at this
    obtain ⟨hmem, huniq⟩ := ih h (by
      intro r hr r' hr' h1 h2 h3
      rw [hrows, List.mem_append, List.mem_singleton] at hr hr'
      rcases hr with hr | rfl <;> rcases hr' with hr' | rfl
      · exact hu r hr r' hr' h1 h2 h3
      · exact (hnew r hr h1.symm h2.symm h3.symm).elim
      · exact (hnew r' hr' h1 h2 h3).elim
      · rfl)
    refine ⟨?_, huniq⟩
    intro r hr
    rcases hmem r hr with hr | hr
    · rw [hrows, List.mem_append, List.mem_singleton] at hr
      rcases hr with hr | rfl
      · exact Or.inl hr
      · exact Or.inr ⟨List.mem_cons_self, rfl⟩
    · exact Or.inr ⟨List.mem_cons_of_mem _ hr.1, hr.2⟩

end Wefty.LogContinuity
