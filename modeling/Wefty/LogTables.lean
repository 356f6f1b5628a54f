/-
The log tables of the L1 store, and everything that deletes from them
(`l1/log_retention.go`, `l1/retention_sweep.go`, the schema in `l1/store.go`).

Retention deletes rows of `log_events` oldest first, within a budget; pruning deletes the
summaries of old attempts, and a foreign key deletes their rows with them. Neither touches the
continuity record of an attempt that stays, and that is all the continuity proofs need from
this file: [`evictLogEvents_subset`] and [`deleteAttempts_continuity`].
-/
import Wefty.LogEvents
import Wefty.Rows

set_option autoImplicit false

namespace Wefty.LogTables

open Tables LogEvents Rows

/-! ## 1. Tables -/

/-- What the log paths read of a row of `attempts`. -/
structure LogAttempt where
  attemptID : Nat
  jobID : Nat
  state : AttemptState
  updatedAt : Int

/-- A row of `log_events`. -/
structure LogRow where
  ordinal : Nat
  jobID : Nat
  event : LogEvent
  sequenceEnd : Nat

/-- The table `log_events`. -/
abbrev LogRows := AutoTable LogRow.ordinal

variable {events : LogRows} {r : LogRow}

/-- `LENGTH(bytes)`. -/
def LogRow.size (r : LogRow) : Nat := r.event.bytes.length

def LogRow.at? (r : LogRow) (attemptID : Nat) (stream : LogStream) : Bool :=
  r.event.attemptID = attemptID && r.event.stream = stream

/-- A row of `log_stream_continuity`. -/
structure Continuity where
  attemptID : Nat
  stream : LogStream
  acceptedThrough : Nat

def Continuity.key (c : Continuity) : Nat × LogStream := (c.attemptID, c.stream)

structure LogStore where
  attempts : AutoTable LogAttempt.attemptID
  events : LogRows
  continuity : Table Continuity.key

structure LogConfig where
  lateEvidenceWindow : Int
  serviceLogRetentionBytes : Int
  oneshotBytes : Int
  totalBytes : Int

/-! ## 2. Retention -/

/-- How many rows and bytes a pass may still delete. -/
structure EvictionBudget where
  events : Int
  bytes : Int

variable {budget : EvictionBudget}

def EvictionBudget.exhausted (b : EvictionBudget) : Bool :=
  decide (b.events ≤ 0) || decide (b.bytes ≤ 0)

def appendEvictionBudget : EvictionBudget := ⟨2 * 256, 2 * (20 * 2 ^ 20)⟩

structure Evicting where
  events : LogRows
  budget : EvictionBudget
  freed : Int

/-- The loop of `evictLogEvents` over its candidates. A row is deleted whole or not at all, and
one that does not fit what is left of the budget ends the pass. -/
def evictScan (byteTarget : Int) : List LogRow → Evicting → Evicting
  | [], e => e
  | r :: rs, e =>
    if e.budget.exhausted || (decide (0 ≤ byteTarget) && decide (byteTarget ≤ e.freed)) then e
    else if e.budget.bytes < r.size then { e with budget := { e.budget with bytes := 0 } }
    else
      evictScan byteTarget rs
        { events := e.events.delete r.ordinal fun _ => true
          budget := ⟨e.budget.events - 1, e.budget.bytes - r.size⟩
          freed := e.freed + r.size }

/-- One job in insertion order, or every job by event timestamp. The source reads them in pages; a
page starts where the one before stopped, its rows being gone. -/
def logEvictionCandidates (events : LogRows) (jobID : Option Nat)
    (extra : LogRow → Bool) : List LogRow :=
  match jobID with
  | some jobID => events.table.rows.filter fun r => r.jobID = jobID && extra r
  | none =>
    (events.table.rows.filter extra).mergeSort fun r r' =>
      decide (r.event.timestamp < r'.event.timestamp) ||
        (decide (r.event.timestamp = r'.event.timestamp) && decide (r.ordinal ≤ r'.ordinal))

def evictLogEvents (events : LogRows) (jobID : Option Nat)
    (extra : LogRow → Bool) (budget : EvictionBudget) (byteTarget : Int) : Evicting :=
  evictScan byteTarget (logEvictionCandidates events jobID extra) ⟨events, budget, 0⟩

def logByteLimit (cfg : LogConfig) (service : Bool) : Int :=
  if service then cfg.serviceLogRetentionBytes else cfg.oneshotBytes

def enforceJobLogByteRetention (cfg : LogConfig) (events : LogRows)
    (jobID : Nat) (service : Bool) (budget : EvictionBudget) : LogRows :=
  let limit := logByteLimit cfg service
  let retained : Int := events.table.total fun r => if r.jobID = jobID then r.size else 0
  if retained ≤ limit then events
  else (evictLogEvents events (some jobID) (fun _ => true) budget (retained - limit)).events

/-- The oldest events of all jobs go until the rest is within the limit. -/
def enforceLogRetentionTotal (cfg : LogConfig) (events : LogRows)
    (budget : EvictionBudget) : LogRows :=
  let excess := (events.table.total LogRow.size : Int) - cfg.totalBytes
  if excess ≤ 0 then events
  else (evictLogEvents events none (fun _ => true) budget excess).events

theorem evictScan_subset {byteTarget : Int} {rows : List LogRow} {e : Evicting}
    (hr : r ∈ (evictScan byteTarget rows e).events.table.rows) : r ∈ e.events.table.rows := by
  induction rows generalizing e with
  | nil => exact hr
  | cons r' rows ih =>
    unfold evictScan at hr
    split at hr
    · exact hr
    · split at hr
      · exact hr
      · have hdel := ih hr
        exact (List.mem_filter.mp hdel).1

/-- **Retention only deletes.** -/
theorem evictLogEvents_subset {jobID : Option Nat} {extra : LogRow → Bool} {byteTarget : Int}
    (hr : r ∈ (evictLogEvents events jobID extra budget byteTarget).events.table.rows) :
    r ∈ events.table.rows :=
  evictScan_subset hr

theorem enforceJobLogByteRetention_subset {cfg : LogConfig} {jobID : Nat} {service : Bool}
    (hr : r ∈ (enforceJobLogByteRetention cfg events jobID service budget).table.rows) :
    r ∈ events.table.rows := by
  unfold enforceJobLogByteRetention at hr
  dsimp only at hr
  split at hr
  · exact hr
  · exact evictLogEvents_subset hr

theorem enforceLogRetentionTotal_subset {cfg : LogConfig}
    (hr : r ∈ (enforceLogRetentionTotal cfg events budget).table.rows) : r ∈ events.table.rows := by
  unfold enforceLogRetentionTotal at hr
  dsimp only at hr
  split at hr
  · exact hr
  · exact evictLogEvents_subset hr

/-! ## 3. Pruning -/

/-- `DELETE FROM attempts WHERE p`, with `ON DELETE CASCADE` on the log tables. -/
def deleteAttempts (s : LogStore) (p : LogAttempt → Bool) : LogStore :=
  let doomed (attemptID : Nat) : Bool := (s.attempts.table.find attemptID).any p
  { attempts := s.attempts.deleteWhere p
    events := s.events.deleteWhere fun r => doomed r.event.attemptID
    continuity := s.continuity.deleteWhere fun c => doomed c.attemptID }

/-- `pruneListedAttemptSummariesSQL`: of the listed attempts of a service, those that are not
current, can send no more evidence and have no retained row. -/
def pruneListedAttemptSummaries (cfg : LogConfig) (s : LogStore) (jobID : Nat) (service : Bool)
    (current : Option Nat) (listed : List Nat) (now : Int) : LogStore :=
  deleteAttempts s fun a =>
    a.attemptID ∈ listed && a.jobID = jobID && service && current ≠ some a.attemptID &&
      !a.state.active &&
      !(a.state = .lost && decide (now - cfg.lateEvidenceWindow ≤ a.updatedAt)) &&
      !s.events.table.any fun r => r.event.attemptID = a.attemptID

def deleteJobLogs (s : LogStore) (jobID : Nat) : LogStore :=
  deleteAttempts { s with events := s.events.deleteWhere fun r => r.jobID = jobID } fun a =>
    a.jobID = jobID

section Delete
variable {s : LogStore} {p : LogAttempt → Bool} {attemptID : Nat}

theorem deleteAttempts_attempt {a : LogAttempt}
    (h : (deleteAttempts s p).attempts.table.find attemptID = some a) :
    s.attempts.table.find attemptID = some a ∧ p a = false := by
  have hfind : (s.attempts.table.deleteWhere p).find attemptID = some a := h
  rw [Table.find_deleteWhere, Option.filter_eq_some_iff] at hfind
  exact ⟨hfind.1, by simpa using hfind.2⟩

/-- **The continuity record of an attempt that stays is kept.** -/
theorem deleteAttempts_continuity {a : LogAttempt}
    (h : (deleteAttempts s p).attempts.table.find attemptID = some a) (stream : LogStream) :
    (deleteAttempts s p).continuity.find (attemptID, stream) =
      s.continuity.find (attemptID, stream) := by
  obtain ⟨hfind, hp⟩ := deleteAttempts_attempt h
  show (s.continuity.deleteWhere _).find _ = _
  rw [Table.find_deleteWhere]
  cases hc : s.continuity.find (attemptID, stream) with
  | none => rfl
  | some c =>
    have hkey := Table.key_of_find hc
    have hid : c.attemptID = attemptID := congrArg Prod.fst hkey
    simp [Option.filter, hid, hfind, hp]

theorem deleteAttempts_continuity_some {c : Continuity} {k : Nat × LogStream}
    (h : (deleteAttempts s p).continuity.find k = some c) :
    s.continuity.find k = some c ∧ ((s.attempts.table.find c.attemptID).any p) = false := by
  have hfind : (s.continuity.deleteWhere _).find k = some c := h
  rw [Table.find_deleteWhere, Option.filter_eq_some_iff] at hfind
  exact ⟨hfind.1, by simpa using hfind.2⟩

theorem deleteAttempts_subset (hr : r ∈ (deleteAttempts s p).events.table.rows) :
    r ∈ s.events.table.rows :=
  (List.mem_filter.mp hr).1

end Delete

end Wefty.LogTables
