/-
The agent's durable log spool (`agent/log_spool.go`).

Output is appended to a SQLite spool and uploaded from it in batches; L1's acknowledgement
releases rows by sequence number. The service class has a byte budget: an append that would
exceed it evicts the oldest service payloads of *any* attempt, and each run of consecutive
evicted events becomes one gap row in place of its first event. A batch L1 permanently
refuses is replaced by one gap row per stream.

Coverage is counted: `hits` is the number of rows whose range holds a sequence number. Eviction
leaves every count as it was. The two operations that act on a batch read *earlier* do not, so
their lemmas carry a hypothesis on the rows they find; `SpoolRuns` takes it up over whole runs.
-/
import Mathlib.Data.List.SplitBy
import Wefty.Tables
import Wefty.LogEvents
import Wefty.Runs

set_option autoImplicit false

namespace Wefty.LogSpool

open Tables Ranges LogEvents Runs

variable {required : Int} {e : LogEvent} {st : LogStream} {ack : LogStream × Nat}
variable {stream : LogStream}
variable {a attemptID k n : Nat} {next : Nat → LogStream → Nat}

/-! ## 1. The spool -/

inductive JobClass
  | oneShot
  | service
  deriving DecidableEq

/-- A row of `spool_events`: `durableSpoolEvent` with its accounted payload. -/
structure SpoolEvent where
  ordinal : Nat
  event : LogEvent
  payloadBytes : Nat
  deriving DecidableEq

/-- The table `spool_events`. -/
abbrev SpoolEvents := AutoTable SpoolEvent.ordinal

variable {run : List SpoolEvent} {r : SpoolEvent} {t : Table SpoolEvent.ordinal}

structure SpoolAttempt where
  attemptID : Nat
  jobClass : JobClass

structure SpoolAck where
  attemptID : Nat
  stream : LogStream
  sequence : Nat
  deriving DecidableEq

def SpoolAck.key (a : SpoolAck) : Nat × LogStream := (a.attemptID, a.stream)

structure Spool where
  attempts : Table SpoolAttempt.attemptID
  events : SpoolEvents
  acks : Table SpoolAck.key
  maxOneShotBytes : Int
  maxServiceBytes : Int

variable {s s' : Spool}

inductive SpoolError
  | sequenceRange
  | attemptMissing
  | conflict
  | spoolFull
  | cannotRelease
  | gapReplaced
  | notContiguous

/-- The largest sequence number the spool stores, `math.MaxInt64`. -/
def maxSequence : Nat := 2 ^ 63 - 1

def SpoolEvent.at? (r : SpoolEvent) (attemptID : Nat) (stream : LogStream) : Bool :=
  r.event.attemptID = attemptID && r.event.stream = stream

theorem SpoolEvent.at?_iff : r.at? attemptID stream = true ↔
    r.event.attemptID = attemptID ∧ r.event.stream = stream := by
  simp [SpoolEvent.at?]

def Spool.classOf (s : Spool) (attemptID : Nat) : Option JobClass :=
  (s.attempts.find attemptID).map SpoolAttempt.jobClass

/-- `SELECT SUM(payload_bytes) ... WHERE a.class=?`. -/
def Spool.used (s : Spool) (c : JobClass) : Nat :=
  s.events.table.total fun r => if s.classOf r.event.attemptID = some c then r.payloadBytes else 0

/-! ## 2. Eviction -/

/-- The gap row that takes the place of a run's first event. -/
def gapOver (reason : LogGapReason) (last lostEvents lostBytes : Nat) (r : SpoolEvent) :
    SpoolEvent :=
  { r with
    event := { r.event with bytes := [], gap := some ⟨last, lostEvents, lostBytes, reason, ""⟩ }
    payloadBytes := 0 }

/-- `DELETE FROM spool_events WHERE ordinal=? AND attempt_id=?`, for each ordinal. -/
def deleteAll (attemptID : Nat) (ordinals : List Nat) (t : SpoolEvents) : SpoolEvents :=
  ordinals.foldl (fun t ordinal => t.delete ordinal fun r => r.event.attemptID = attemptID) t

/-- The row becomes the gap if it is still at this attempt and stream. -/
def gapAt (attemptID : Nat) (stream : LogStream) (reason : LogGapReason)
    (last lostEvents lostBytes : Nat) (r : SpoolEvent) : SpoolEvent :=
  if r.at? attemptID stream then gapOver reason last lostEvents lostBytes r else r

theorem gapAt_ordinal (attemptID : Nat) (stream : LogStream) (reason : LogGapReason)
    (last n b : Nat) (r : SpoolEvent) :
    (gapAt attemptID stream reason last n b r).ordinal = r.ordinal := by
  unfold gapAt
  split <;> rfl

/-- The writes `replaceEvictedServiceRun` and `replaceBatchWithReplayGaps` share: the row under
the first ordinal, if it is still at this attempt and stream, becomes the gap; the rows under
the other ordinals, if still of this attempt, are deleted. -/
def replaceRun (events : SpoolEvents) (attemptID : Nat) (stream : LogStream)
    (first : Nat) (rest : List Nat) (reason : LogGapReason) (last lostEvents lostBytes : Nat) :
    SpoolEvents :=
  deleteAll attemptID rest
    (events.update first (gapAt attemptID stream reason last lostEvents lostBytes)
      (gapAt_ordinal attemptID stream reason last lostEvents lostBytes))

/-- `replaceEvictedServiceRun` on a nonempty run. -/
def replaceEvictedServiceRun (events : SpoolEvents) : List SpoolEvent → SpoolEvents
  | [] => events
  | first :: rest =>
    let run := first :: rest
    let last := (run.getLast (by simp [run])).event.sequence
    let lostBytes := (run.map SpoolEvent.payloadBytes).sum
    replaceRun events first.event.attemptID first.event.stream first.ordinal
      (rest.map SpoolEvent.ordinal) .spoolEviction last run.length lostBytes

/-- The candidate scan: rows in ordinal order until enough bytes are released. -/
def releasePrefix : List SpoolEvent → Int → List SpoolEvent × Int
  | [], _ => ([], 0)
  | r :: rs, required =>
    if 0 < required then
      let out := releasePrefix rs (required - r.payloadBytes)
      (r :: out.1, r.payloadBytes + out.2)
    else ([], 0)

def runsOf (candidates : List SpoolEvent) (attemptID : Nat) (stream : LogStream) :
    List (List SpoolEvent) :=
  (candidates.filter fun r => r.at? attemptID stream).splitBy fun r r' =>
    r'.event.sequence == r.event.sequence + 1

def keyOrder (candidates : List SpoolEvent) : List (Nat × LogStream) :=
  candidates.foldl (fun keys r =>
    let key := (r.event.attemptID, r.event.stream)
    if key ∈ keys then keys else keys ++ [key]) []

/-- Rows are stored in ordinal order, as the query returns them. -/
def evictServicePrefix (s : Spool) (required : Int) : Except SpoolError Spool :=
  let rows := s.events.table.rows.filter fun r =>
    s.classOf r.event.attemptID = some .service && decide (0 < r.payloadBytes)
  let (candidates, released) := releasePrefix rows required
  if released < required then .error .cannotRelease
  else
    let runs := (keyOrder candidates).flatMap fun k => runsOf candidates k.1 k.2
    .ok { s with events := runs.foldl replaceEvictedServiceRun s.events }

/-! ## 3. Append, read, acknowledge, replace -/

/-- What `append` stores of an event: a service event above the whole budget becomes a gap. -/
def storedEvent (s : Spool) (c : JobClass) (e : LogEvent) : LogEvent :=
  if c = .service ∧ e.gap = none ∧ s.maxServiceBytes < e.bytes.length then
    { e with bytes := [], gap := some ⟨e.sequence, 1, e.bytes.length, .oversizedEvent, ""⟩ }
  else e

/-- The `INSERT` at the end of `append`. -/
def insertEvent (s : Spool) (e : LogEvent) : Spool :=
  { s with events := s.events.insert (fun ordinal => ⟨ordinal, e, e.bytes.length⟩) fun _ => rfl }

def append (s : Spool) (e : LogEvent) : Except SpoolError Spool :=
  if maxSequence < e.sequence then .error .sequenceRange
  else
    match s.classOf e.attemptID with
    | none => .error .attemptMissing
    | some c =>
      let stored := storedEvent s c e
      match s.events.table.rows.find? fun r =>
          r.at? e.attemptID e.stream && r.event.sequence = e.sequence with
      | some r => if r.event = stored then .ok s else .error .conflict
      | none =>
        match c with
        | .oneShot =>
          if s.maxOneShotBytes - s.used .oneShot < stored.bytes.length then .error .spoolFull
          else .ok (insertEvent s stored)
        | .service =>
          let required := s.used .service + stored.bytes.length - s.maxServiceBytes
          if 0 < required then (evictServicePrefix s required).map fun s' => insertEvent s' stored
          else .ok (insertEvent s stored)

/-- The attempt's first rows in ordinal order. -/
def pendingBatch (s : Spool) (attemptID limit : Nat) : List SpoolEvent :=
  (s.events.table.rows.filter fun r => r.event.attemptID = attemptID).take limit

/-- `SET sequence=MAX(sequence, excluded.sequence)`. -/
def SpoolAck.raise (sequence : Nat) (a : SpoolAck) : SpoolAck :=
  { a with sequence := max a.sequence sequence }

theorem SpoolAck.raise_key (sequence : Nat) (a : SpoolAck) : (a.raise sequence).key = a.key := rfl

/-- `INSERT ... ON CONFLICT(attempt_id, stream) DO UPDATE`. -/
def upsertAck (acks : Table SpoolAck.key) (attemptID : Nat) (stream : LogStream) (sequence : Nat) :
    Table SpoolAck.key :=
  match acks.find (attemptID, stream) with
  | some _ =>
    acks.update (attemptID, stream) (SpoolAck.raise sequence) (SpoolAck.raise_key sequence)
  | none => acks.insert ⟨attemptID, stream, sequence⟩

/-- The writes of `acknowledge` for one stream. -/
def acknowledgeStream (s : Spool) (attemptID : Nat) (ack : LogStream × Nat) : Spool :=
  { s with
    acks := upsertAck s.acks attemptID ack.1 ack.2
    events := s.events.deleteWhere fun r =>
      r.at? attemptID ack.1 && decide (r.event.sequence ≤ ack.2) }

def acknowledge (s : Spool) (attemptID : Nat) (acked : List (LogStream × Nat)) :
    Except SpoolError Spool :=
  if acked.any fun a => decide (maxSequence < a.2) then .error .sequenceRange
  else .ok (acked.foldl (fun s ack => acknowledgeStream s attemptID ack) s)

def batchStream (batch : List SpoolEvent) (stream : LogStream) : List SpoolEvent :=
  batch.filter fun r => r.event.stream = stream

/-- `stored.event.Sequence != first.event.Sequence+uint64(index)`, for no index. -/
def contiguous (first : Nat) : List SpoolEvent → Bool
  | [] => true
  | r :: rs => r.event.sequence = first && contiguous (first + 1) rs

/-- The writes of `replaceBatchWithReplayGaps` for one stream. -/
def replaceStream (events : SpoolEvents) (attemptID : Nat) (stream : LogStream) :
    List SpoolEvent → SpoolEvents
  | [] => events
  | first :: rest =>
    let run := first :: rest
    let last := (run.getLast (by simp [run])).event.sequence
    let lostBytes := (run.map fun r => r.event.bytes.length).sum
    replaceRun events attemptID stream first.ordinal (rest.map SpoolEvent.ordinal)
      .replayRejected last (last - first.event.sequence + 1) lostBytes

/-- The source visits the streams in map order; the writes of two streams touch different rows, and
a refusal in either rolls back both. -/
def replaceBatchWithReplayGaps (s : Spool) (attemptID : Nat) (batch : List SpoolEvent) :
    Except SpoolError Spool :=
  if batch.any fun r => r.event.gap.isSome then .error .gapReplaced
  else
    let out := batchStream batch .stdout
    let err := batchStream batch .stderr
    if contiguous (out.headD ⟨0, ⟨0, .stdout, 0, 0, [], none⟩, 0⟩).event.sequence out &&
        contiguous (err.headD ⟨0, ⟨0, .stderr, 0, 0, [], none⟩, 0⟩).event.sequence err then
      .ok { s with
        events := replaceStream (replaceStream s.events attemptID .stdout out)
          attemptID .stderr err }
    else .error .notContiguous

/-- Every stream of the batch is acknowledged through its largest end sequence. -/
def validateLogAcknowledgement (batch : List SpoolEvent) (acked : List (LogStream × Nat)) : Bool :=
  batch.all fun r => acked.any fun a => a.1 = r.event.stream && decide (r.event.endSequence ≤ a.2)

/-! ## 4. Coverage

`hits` counts the rows whose range holds a sequence number of a stream. It is a total over
the table, so each single-row write changes it by that row's own weight. -/

/-- The row's range holds sequence number `n` of the stream. -/
def SpoolEvent.covers (attemptID : Nat) (stream : LogStream) (n : Nat) (r : SpoolEvent) : Bool :=
  r.at? attemptID stream && decide (r.event.sequence ≤ n ∧ n ≤ r.event.endSequence)

/-- The number of rows that account for sequence number `n`. -/
def hits (t : Table SpoolEvent.ordinal) (attemptID : Nat) (stream : LogStream) (n : Nat) : Nat :=
  t.count (SpoolEvent.covers attemptID stream n)

def weight (attemptID : Nat) (stream : LogStream) (n : Nat) (r : SpoolEvent) : Nat :=
  if r.covers attemptID stream n then 1 else 0

theorem hits_eq_total : hits t attemptID stream n = t.total (weight attemptID stream n) :=
  Table.count_eq_total

theorem weight_eq :
    weight attemptID stream n r =
      if r.at? attemptID stream then hit r.event.sequence r.event.endSequence n else 0 := by
  unfold weight SpoolEvent.covers hit
  by_cases h : r.at? attemptID stream <;> simp [h]

/-- The rows of a run are in the table as they were read: plain events of one stream with
consecutive sequence numbers. -/
structure Intact (t : Table SpoolEvent.ordinal) (attemptID : Nat) (stream : LogStream)
    (run : List SpoolEvent) : Prop where
  find : ∀ r ∈ run, t.find r.ordinal = some r
  stream : ∀ r ∈ run, r.at? attemptID stream = true
  plain : ∀ r ∈ run, r.event.gap = none
  nodup : (run.map SpoolEvent.ordinal).Nodup
  consecutive : List.IsChain (fun r r' => r'.event.sequence = r.event.sequence + 1) run

section Deletes
variable (attemptID : Nat) (ordinals : List Nat) (t : SpoolEvents)

theorem deleteAll_cons : deleteAll attemptID (k :: ordinals) t =
    deleteAll attemptID ordinals (t.delete k fun r => r.event.attemptID = attemptID) := rfl

theorem deleteAll_find (hk : k ∉ ordinals) :
    (deleteAll attemptID ordinals t).table.find k = t.table.find k := by
  induction ordinals generalizing t with
  | nil => rfl
  | cons j ordinals ih =>
    rw [List.mem_cons, not_or] at hk
    rw [deleteAll_cons, ih _ hk.2]
    exact AutoTable.find_delete_of_ne hk.1

theorem deleteAll_total (f : SpoolEvent → Nat) (rest : List SpoolEvent)
    (hnd : (rest.map SpoolEvent.ordinal).Nodup)
    (hfind : ∀ r ∈ rest, t.table.find r.ordinal = some r ∧ r.event.attemptID = attemptID) :
    (deleteAll attemptID (rest.map SpoolEvent.ordinal) t).table.total f + (rest.map f).sum =
      t.table.total f := by
  induction rest generalizing t with
  | nil => rfl
  | cons r rest ih =>
    obtain ⟨hr, hatt⟩ := hfind r List.mem_cons_self
    have htable : (t.delete r.ordinal fun r => r.event.attemptID = attemptID).table =
        t.table.delete r.ordinal := AutoTable.delete_table hr (by simp [hatt])
    rw [List.map_cons, List.nodup_cons] at hnd
    -- the other rows are still there after the first delete, their ordinals being different
    have hrest := ih (t.delete r.ordinal fun r => r.event.attemptID = attemptID) hnd.2 (by
      intro r' hr'
      obtain ⟨hf, ha⟩ := hfind r' (List.mem_cons_of_mem _ hr')
      have hne : r'.ordinal ≠ r.ordinal := fun heq => hnd.1 (heq ▸ List.mem_map_of_mem hr')
      rw [AutoTable.find_delete_of_ne hne]
      exact ⟨hf, ha⟩)
    have hdel := Table.total_delete hr f
    rw [htable] at hrest
    rw [List.map_cons, List.map_cons, deleteAll_cons, List.sum_cons]
    omega

theorem deleteAll_of_none (hnone : ∀ k ∈ ordinals, t.table.find k = none) :
    (deleteAll attemptID ordinals t).table = t.table := by
  induction ordinals generalizing t with
  | nil => rfl
  | cons k ordinals ih =>
    have htable := AutoTable.delete_table_of_none (fun r => r.event.attemptID = attemptID)
      (hnone k List.mem_cons_self)
    rw [deleteAll_cons, ih _ (by
      intro k' hk'
      rw [htable]
      exact hnone k' (List.mem_cons_of_mem _ hk')), htable]

theorem mem_deleteAll (hr : r ∈ (deleteAll attemptID ordinals t).table.rows) :
    r ∈ t.table.rows := by
  induction ordinals generalizing t with
  | nil => exact hr
  | cons k ordinals ih => exact (List.mem_filter.mp (ih _ hr)).1

end Deletes

/-- A run of consecutive plain events weighs what one range from its first to its last does. -/
theorem sum_weight_run {first : SpoolEvent} {rest : List SpoolEvent} {last : Nat}
    (h : Intact t attemptID stream (first :: rest))
    (hlast : ((first :: rest).getLast (by simp)).event.sequence = last) :
    ((first :: rest).map (weight attemptID stream n)).sum = hit first.event.sequence last n := by
  have hweight : (first :: rest).map (weight attemptID stream n) =
      (((first :: rest).map fun r => r.event.sequence).map fun x => (x, x)).map
        fun r => hit r.1 r.2 n := by
    rw [List.map_map, List.map_map]
    apply List.map_congr_left
    intro r hr
    rw [weight_eq, if_pos (h.stream r hr)]
    simp [LogEvent.endSequence, h.plain r hr]
  have hchain : List.IsChain (fun x y => y = x + 1)
      ((first :: rest).map fun r => r.event.sequence) := by
    rw [List.isChain_map]
    exact h.consecutive
  have hsum := (tiles_of_consecutive hchain).sum_hit n
  rw [hweight]
  refine hsum.trans ?_
  have hend : (first.event.sequence :: rest.map fun r => r.event.sequence).getLast (by simp) =
      last :=
    (List.getLast_map (f := fun r : SpoolEvent => r.event.sequence) (l := first :: rest)
      (by simp)).trans hlast
  rw [hend]
  unfold hit
  simp only [Nat.lt_succ_iff]

/-- A row with a payload is no gap. -/
def Plain (t : Table SpoolEvent.ordinal) : Prop :=
  ∀ r ∈ t.rows, 0 < r.payloadBytes → r.event.gap = none

section ReplaceRun
variable {t : SpoolEvents} {first : SpoolEvent} {rest : List SpoolEvent} {reason : LogGapReason}
  {last lostEvents lostBytes : Nat}

theorem replaceRun_find (hk : k ∉ (first :: rest).map SpoolEvent.ordinal) :
    (replaceRun t attemptID stream first.ordinal (rest.map SpoolEvent.ordinal) reason last
      lostEvents lostBytes).table.find k = t.table.find k := by
  rw [List.map_cons, List.mem_cons, not_or] at hk
  unfold replaceRun
  rw [deleteAll_find _ _ _ hk.2, AutoTable.update_table, Table.find_update, if_neg hk.1]

variable {ordinals : List Nat}

/-- Every row of a replacement is an old one or the gap in place of one. -/
theorem mem_replaceRun (hr : r ∈ (replaceRun t attemptID stream k ordinals reason last lostEvents
      lostBytes).table.rows) :
    r ∈ t.table.rows ∨ ∃ r' ∈ t.table.rows, r = gapOver reason last lostEvents lostBytes r' := by
  have hr' := mem_deleteAll _ _ _ hr
  obtain ⟨r', hmem, heq⟩ := List.mem_map.mp hr'
  by_cases hgap : r'.ordinal = k ∧ r'.at? attemptID stream = true
  · right
    simp only [hgap.1, decide_true, if_true, gapAt, hgap.2] at heq
    exact ⟨r', hmem, heq.symm⟩
  · left
    have hsame : r' = r := by
      rw [← heq]
      by_cases hk : r'.ordinal = k
      · have hat : ¬ r'.at? attemptID stream = true := fun hat => hgap ⟨hk, hat⟩
        simp [hk, gapAt, hat]
      · simp [hk]
    rw [← hsame]
    exact hmem

theorem replaceRun_plain (h : Plain t.table) :
    Plain (replaceRun t attemptID stream k ordinals reason last lostEvents lostBytes).table := by
  intro r hr hpay
  rcases mem_replaceRun hr with hold | ⟨r', -, rfl⟩
  · exact h r hold hpay
  · exact absurd hpay (Nat.lt_irrefl 0)

theorem weight_of_other (hr : r.at? attemptID stream = true)
    (hoth : ¬ (attemptID = a ∧ stream = st)) : weight a st n r = 0 := by
  rw [weight_eq, if_neg]
  intro hr'
  rw [SpoolEvent.at?_iff] at hr hr'
  exact hoth ⟨hr.1.symm.trans hr'.1, hr.2.symm.trans hr'.2⟩

variable (h : Intact t.table attemptID stream (first :: rest))
  (hlast : ((first :: rest).getLast (by simp)).event.sequence = last) (a : Nat) (st : LogStream)
  (n : Nat)
include h hlast

theorem weight_gapOver : weight a st n (gapOver reason last lostEvents lostBytes first) =
    ((first :: rest).map (weight a st n)).sum := by
  have hat : (gapOver reason last lostEvents lostBytes first).at? attemptID stream = true :=
    h.stream first List.mem_cons_self
  by_cases hstr : attemptID = a ∧ stream = st
  · obtain ⟨rfl, rfl⟩ := hstr
    rw [sum_weight_run h hlast, weight_eq]
    exact if_pos hat
  · rw [weight_of_other hat hstr]
    symm
    rw [List.sum_eq_zero_iff_forall_eq_nat]
    intro w hw
    obtain ⟨r, hr, rfl⟩ := List.mem_map.mp hw
    exact weight_of_other (h.stream r hr) hstr

/-- **Replacing a run by its gap loses no range.** -/
theorem replaceRun_hits :
    hits (replaceRun t attemptID stream first.ordinal (rest.map SpoolEvent.ordinal) reason last
      lostEvents lostBytes).table a st n = hits t.table a st n := by
  have hnd := h.nodup
  rw [List.map_cons, List.nodup_cons] at hnd
  have hgap : gapAt attemptID stream reason last lostEvents lostBytes first =
      gapOver reason last lostEvents lostBytes first :=
    if_pos (h.stream first List.mem_cons_self)
  have hkey := gapAt_ordinal attemptID stream reason last lostEvents lostBytes
  -- the first row becomes the gap, the others are still there and then go
  have hupd := Table.total_update (h.find first List.mem_cons_self) _ hkey (weight a st n)
  have hdel := deleteAll_total attemptID (t.update first.ordinal _ hkey) (weight a st n) rest
    hnd.2 (by
    intro r hr
    have hne : r.ordinal ≠ first.ordinal := fun heq => hnd.1 (heq ▸ List.mem_map_of_mem hr)
    have hr := List.mem_cons_of_mem first hr
    rw [AutoTable.update_table, Table.find_update, if_neg hne]
    exact ⟨h.find r hr, (SpoolEvent.at?_iff.mp (h.stream r hr)).1⟩)
  rw [AutoTable.update_table] at hdel
  rw [hgap, weight_gapOver h hlast, List.map_cons, List.sum_cons] at hupd
  rw [hits_eq_total, hits_eq_total]
  unfold replaceRun
  omega

omit h hlast

theorem replaceRun_of_none (h : ∀ j ∈ k :: ordinals, t.table.find j = none) :
    (replaceRun t attemptID stream k ordinals reason last lostEvents lostBytes).table =
      t.table := by
  have hupd := Table.update_of_none
    (gapAt_ordinal attemptID stream reason last lostEvents lostBytes) (h k List.mem_cons_self)
  unfold replaceRun
  rw [deleteAll_of_none, AutoTable.update_table, hupd]
  intro j hj
  rw [AutoTable.update_table, hupd]
  exact h j (List.mem_cons_of_mem _ hj)

end ReplaceRun

/-! ## 5. Eviction keeps every count -/

def Evictable (t : Table SpoolEvent.ordinal) (run : List SpoolEvent) : Prop :=
  ∃ attemptID stream, Intact t attemptID stream run

theorem replaceEvictedServiceRun_hits {t : SpoolEvents} (h : Evictable t.table run)
    (a : Nat) (st : LogStream) (n : Nat) :
    hits (replaceEvictedServiceRun t run).table a st n = hits t.table a st n := by
  obtain ⟨attemptID, stream, hrun⟩ := h
  cases run with
  | nil => rfl
  | cons first rest =>
    obtain ⟨rfl, rfl⟩ := SpoolEvent.at?_iff.mp (hrun.stream first List.mem_cons_self)
    exact replaceRun_hits hrun rfl a st n

theorem replaceEvictedServiceRun_find {t : SpoolEvents}
    (hk : k ∉ run.map SpoolEvent.ordinal) :
    (replaceEvictedServiceRun t run).table.find k = t.table.find k := by
  cases run with
  | nil => rfl
  | cons first rest => exact replaceRun_find hk

/-- Runs with pairwise different rows can be replaced one after another. -/
theorem foldl_replaceEvictedServiceRun_hits (runs : List (List SpoolEvent))
    (t : SpoolEvents) (hnd : (runs.flatten.map SpoolEvent.ordinal).Nodup)
    (h : ∀ run ∈ runs, Evictable t.table run) (a : Nat) (st : LogStream) (n : Nat) :
    hits (runs.foldl replaceEvictedServiceRun t).table a st n = hits t.table a st n := by
  induction runs generalizing t with
  | nil => rfl
  | cons run runs ih =>
    rw [List.flatten_cons, List.map_append, List.nodup_append] at hnd
    rw [List.foldl_cons, ih _ hnd.2.1, replaceEvictedServiceRun_hits (h run List.mem_cons_self)]
    intro run' hrun'
    obtain ⟨attemptID, stream, hi⟩ := h run' (List.mem_cons_of_mem _ hrun')
    refine ⟨attemptID, stream, ?_, hi.stream, hi.plain, hi.nodup, hi.consecutive⟩
    intro r hr
    rw [replaceEvictedServiceRun_find, hi.find r hr]
    intro hmem
    have hr' : r.ordinal ∈ runs.flatten.map SpoolEvent.ordinal :=
      List.mem_map_of_mem (List.mem_flatten_of_mem hrun' hr)
    exact hnd.2.2 _ hmem _ hr' rfl

theorem releasePrefix_sublist (rows : List SpoolEvent) (required : Int) :
    (releasePrefix rows required).1.Sublist rows := by
  induction rows generalizing required with
  | nil => exact List.Sublist.slnil
  | cons r rows ih =>
    unfold releasePrefix
    split
    · exact (ih _).cons_cons r
    · exact List.nil_sublist _

theorem flatten_runsOf (candidates : List SpoolEvent) (keys : List (Nat × LogStream)) :
    (keys.flatMap fun k => runsOf candidates k.1 k.2).flatten =
      keys.flatMap fun k => candidates.filter fun r => r.at? k.1 k.2 := by
  induction keys with
  | nil => rfl
  | cons k keys ih =>
    rw [List.flatMap_cons, List.flatMap_cons, List.flatten_append, ih]
    unfold runsOf
    rw [List.flatten_splitBy]

variable {candidates : List SpoolEvent}

theorem keyOrder_nodup : (keyOrder candidates).Nodup := by
  unfold keyOrder
  apply List.foldlRecOn
  · exact List.nodup_nil
  intro keys hkeys r _
  dsimp only
  split
  · exact hkeys
  · rw [← List.concat_eq_append]
    exact List.Nodup.concat ‹_› hkeys

theorem nodup_streams
    (hnd : (candidates.map SpoolEvent.ordinal).Nodup) {keys : List (Nat × LogStream)}
    (hkeys : keys.Nodup) :
    ((keys.flatMap fun k => candidates.filter fun r => r.at? k.1 k.2).map
      SpoolEvent.ordinal).Nodup := by
  induction keys with
  | nil => exact List.nodup_nil
  | cons k keys ih =>
    rw [List.nodup_cons] at hkeys
    rw [List.flatMap_cons, List.map_append, List.nodup_append]
    refine ⟨hnd.sublist (List.filter_sublist.map _), ih hkeys.2, ?_⟩
    -- one row cannot be in two streams
    intro x hx y hy hxy
    obtain ⟨r, hr, rfl⟩ := List.mem_map.mp hx
    obtain ⟨r', hr', rfl⟩ := List.mem_map.mp hy
    obtain ⟨k', hk', hrk'⟩ := List.mem_flatMap.mp hr'
    rw [List.mem_filter] at hr hrk'
    have heq : r = r' := List.inj_on_of_nodup_map hnd hr.1 hrk'.1 hxy
    subst heq
    obtain ⟨hid, hst⟩ := SpoolEvent.at?_iff.mp hr.2
    obtain ⟨hid', hst'⟩ := SpoolEvent.at?_iff.mp hrk'.2
    have hkey : k = k' := Prod.ext (hid.symm.trans hid') (hst.symm.trans hst')
    exact hkeys.1 (hkey ▸ hk')

theorem runsOf_evictable (hnd : (candidates.map SpoolEvent.ordinal).Nodup)
    (hfind : ∀ r ∈ candidates, t.find r.ordinal = some r)
    (hplain : ∀ r ∈ candidates, r.event.gap = none)
    (hrun : run ∈ runsOf candidates attemptID stream) : Evictable t run := by
  have hflat : (runsOf candidates attemptID stream).flatten =
      candidates.filter fun r => r.at? attemptID stream := List.flatten_splitBy _ _
  have hsub : run.Sublist (candidates.filter fun r => r.at? attemptID stream) := by
    rw [← hflat]
    exact List.sublist_flatten_of_mem hrun
  have hmem : ∀ r ∈ run, r ∈ candidates ∧ r.at? attemptID stream = true := by
    intro r hr
    exact List.mem_filter.mp (hsub.subset hr)
  refine ⟨attemptID, stream, ?_, ?_, ?_, ?_, ?_⟩
  · exact fun r hr => hfind r (hmem r hr).1
  · exact fun r hr => (hmem r hr).2
  · exact fun r hr => hplain r (hmem r hr).1
  · exact hnd.sublist ((hsub.trans List.filter_sublist).map _)
  · have hchain := List.isChain_of_mem_splitBy hrun
    exact hchain.imp fun r r' h => by simpa using h

theorem foldl_replaceEvictedServiceRun_plain (runs : List (List SpoolEvent))
    (t : SpoolEvents) (h : Plain t.table) :
    Plain (runs.foldl replaceEvictedServiceRun t).table := by
  induction runs generalizing t with
  | nil => exact h
  | cons run runs ih =>
    refine ih _ ?_
    cases run with
    | nil => exact h
    | cons first rest => exact replaceRun_plain h

theorem evictServicePrefix_eq (h : evictServicePrefix s required = .ok s') :
    ∃ candidates, candidates.Sublist (s.events.table.rows.filter fun r =>
        s.classOf r.event.attemptID = some .service && decide (0 < r.payloadBytes)) ∧
      s' = { s with events := ((keyOrder candidates).flatMap fun k =>
        runsOf candidates k.1 k.2).foldl replaceEvictedServiceRun s.events } := by
  unfold evictServicePrefix at h
  simp only at h
  split at h
  · cases h
  · refine ⟨_, releasePrefix_sublist _ required, ?_⟩
    cases h
    rfl

/-- **Eviction keeps every count**: whatever is evicted, each sequence number of each stream of
each attempt is accounted for by as many rows as before. -/
theorem evictServicePrefix_hits (hplain : Plain s.events.table)
    (h : evictServicePrefix s required = .ok s') (a : Nat) (st : LogStream) (n : Nat) :
    hits s'.events.table a st n = hits s.events.table a st n := by
  obtain ⟨candidates, hsub, rfl⟩ := evictServicePrefix_eq h
  have hmem : ∀ r ∈ candidates, r ∈ s.events.table.rows ∧ 0 < r.payloadBytes := by
    intro r hr
    have hf := List.mem_filter.mp (hsub.subset hr)
    simp only [Bool.and_eq_true, decide_eq_true_eq] at hf
    exact ⟨hf.1, hf.2.2⟩
  have hnd : (candidates.map SpoolEvent.ordinal).Nodup :=
    s.events.table.nodup.sublist ((hsub.trans List.filter_sublist).map _)
  apply foldl_replaceEvictedServiceRun_hits
  · rw [flatten_runsOf]
    exact nodup_streams hnd keyOrder_nodup
  · intro run hrun
    obtain ⟨k, -, hk⟩ := List.mem_flatMap.mp hrun
    refine runsOf_evictable hnd ?_ ?_ hk
    · exact fun r hr => Table.mem_rows_iff.mp (hmem r hr).1
    · exact fun r hr => hplain r (hmem r hr).1 (hmem r hr).2

theorem evictServicePrefix_plain (hplain : Plain s.events.table)
    (h : evictServicePrefix s required = .ok s') : Plain s'.events.table := by
  obtain ⟨candidates, -, rfl⟩ := evictServicePrefix_eq h
  exact foldl_replaceEvictedServiceRun_plain _ _ hplain

/-! ## 6. One step

What each operation does to the counts. `acked` is the part of a stream L1 has taken over. -/

/-- Sequence number `n` is at or below the stored acknowledgement. -/
def acked (s : Spool) (attemptID : Nat) (stream : LogStream) (n : Nat) : Prop :=
  ∃ k, s.acks.find (attemptID, stream) = some k ∧ n ≤ k.sequence

instance (s : Spool) (attemptID : Nat) (stream : LogStream) (n : Nat) :
    Decidable (acked s attemptID stream n) :=
  decidable_of_iff ((s.acks.find (attemptID, stream)).any fun k => decide (n ≤ k.sequence)) (by
    rw [Option.any_eq_true]
    simp [acked])

theorem storedEvent_bounds (s : Spool) (c : JobClass) (e : LogEvent) :
    (storedEvent s c e).attemptID = e.attemptID ∧ (storedEvent s c e).stream = e.stream ∧
      (storedEvent s c e).sequence = e.sequence ∧
      (storedEvent s c e).endSequence = e.endSequence := by
  unfold storedEvent
  split
  · rename_i h
    simp [LogEvent.endSequence, h.2.1]
  · exact ⟨rfl, rfl, rfl, rfl⟩

def GapEmpty (e : LogEvent) : Prop := ∀ g, e.gap = some g → e.bytes = []

theorem storedEvent_gapEmpty {c : JobClass} (h : GapEmpty e) : GapEmpty (storedEvent s c e) := by
  unfold storedEvent
  split
  · exact fun _ _ => rfl
  · exact h

theorem insertEvent_hits :
    hits (insertEvent s e).events.table a st n = hits s.events.table a st n +
      weight a st n ⟨s.events.next, e, e.bytes.length⟩ := by
  rw [hits_eq_total, hits_eq_total]
  exact Table.total_insert s.events.find_next

theorem insertEvent_plain (hplain : Plain s.events.table) (he : GapEmpty e)
    : Plain (insertEvent s e).events.table := by
  intro r hr hpay
  have hrows : (insertEvent s e).events.table.rows =
      s.events.table.rows ++ [⟨s.events.next, e, e.bytes.length⟩] :=
    Table.rows_insert s.events.find_next
  rw [hrows, List.mem_append, List.mem_singleton] at hr
  rcases hr with hr | rfl
  · exact hplain r hr hpay
  · cases hgap : e.gap with
    | none => rfl
    | some g =>
      rw [he g hgap] at hpay
      exact absurd hpay (Nat.lt_irrefl 0)

/-- What a successful append has written: nothing, or the event, after an eviction if it had to
make room. -/
theorem append_cases (h : append s e = .ok s') :
    (s' = s ∧ ∃ r ∈ s.events.table.rows, r.at? e.attemptID e.stream = true ∧
      r.event.sequence = e.sequence ∧ r.event.endSequence = e.endSequence) ∨
    ∃ s₁ c, (s₁ = s ∨ ∃ required, evictServicePrefix s required = .ok s₁) ∧
      s' = insertEvent s₁ (storedEvent s c e) := by
  unfold append at h
  split at h
  · cases h
  split at h
  · cases h
  rename_i c _
  dsimp only at h
  split at h
  · rename_i r hfind
    split at h
    · rename_i hstore
      cases h
      have hat := List.find?_some hfind
      simp only [Bool.and_eq_true, decide_eq_true_eq] at hat
      refine .inl ⟨rfl, r, List.mem_of_find?_eq_some hfind, hat.1, hat.2, ?_⟩
      rw [hstore]
      exact (storedEvent_bounds s c e).2.2.2
    · cases h
  · split at h
    · split at h
      · cases h
      · cases h
        exact .inr ⟨s, .oneShot, .inl rfl, rfl⟩
    · split at h
      · cases hev : evictServicePrefix s
          (s.used .service + (storedEvent s .service e).bytes.length - s.maxServiceBytes) with
        | error x =>
          rw [hev] at h
          cases h
        | ok s₁ =>
          rw [hev] at h
          cases h
          exact .inr ⟨s₁, .service, .inr ⟨_, hev⟩, rfl⟩
      · cases h
        exact .inr ⟨s, .service, .inl rfl, rfl⟩

/-- **What a successful append does to the counts**: the event is already stored, or its own
range is added, whatever was evicted to make room. -/
theorem append_hits (hplain : Plain s.events.table) (he : GapEmpty e) (h : append s e = .ok s') :
    Plain s'.events.table ∧ s'.acks = s.acks ∧
      ((∃ r ∈ s.events.table.rows, r.at? e.attemptID e.stream = true ∧
          r.event.sequence = e.sequence ∧ r.event.endSequence = e.endSequence) ∨
        ∀ a st n, hits s'.events.table a st n = hits s.events.table a st n +
          if e.attemptID = a ∧ e.stream = st then hit e.sequence e.endSequence n else 0) := by
  rcases append_cases h with ⟨rfl, hstored⟩ | ⟨s₁, c, hroom, rfl⟩
  · exact ⟨hplain, rfl, .inl hstored⟩
  obtain ⟨hplain₁, hacks, hhits⟩ : Plain s₁.events.table ∧ s₁.acks = s.acks ∧
      ∀ a st n, hits s₁.events.table a st n = hits s.events.table a st n := by
    rcases hroom with rfl | ⟨required, hev⟩
    · exact ⟨hplain, rfl, fun _ _ _ => rfl⟩
    · refine ⟨evictServicePrefix_plain hplain hev, ?_, evictServicePrefix_hits hplain hev⟩
      obtain ⟨_, -, rfl⟩ := evictServicePrefix_eq hev
      rfl
  refine ⟨insertEvent_plain hplain₁ (storedEvent_gapEmpty he), hacks, .inr fun a st n => ?_⟩
  -- an inserted event weighs what its range does
  obtain ⟨h1, h2, h3, h4⟩ := storedEvent_bounds s c e
  rw [insertEvent_hits, weight_eq, hhits]
  simp only [SpoolEvent.at?_iff, h1, h2, h3, h4]

theorem upsertAck_find {acks : Table SpoolAck.key} {q : Nat} {k : Nat × LogStream} :
    ((upsertAck acks attemptID stream q).find k).map SpoolAck.sequence =
      if k = (attemptID, stream) then
        some (max (((acks.find k).map SpoolAck.sequence).getD 0) q)
      else (acks.find k).map SpoolAck.sequence := by
  unfold upsertAck
  cases hf : acks.find (attemptID, stream) with
  | some r =>
    rw [Table.find_update]
    by_cases hk : k = (attemptID, stream)
    · subst hk
      simp [hf, SpoolAck.raise]
    · rw [if_neg hk, if_neg hk]
  | none =>
    rw [Table.find_insert _ _ hf]
    by_cases hk : k = (attemptID, stream)
    · subst hk
      simp [hf, SpoolAck.key]
    · rw [if_neg hk, if_neg]
      exact fun h => hk h.symm

theorem acked_iff :
    acked s a st n ↔ ∃ q, (s.acks.find (a, st)).map SpoolAck.sequence = some q ∧ n ≤ q := by
  unfold acked
  simp [Option.map_eq_some_iff]

theorem acknowledgeStream_acked (h : acked s a st n ∨ (a = attemptID ∧ st = ack.1 ∧ n ≤ ack.2)) :
    acked (acknowledgeStream s attemptID ack) a st n := by
  rw [acked_iff]
  show ∃ q, ((upsertAck s.acks attemptID ack.1 ack.2).find (a, st)).map SpoolAck.sequence =
    some q ∧ n ≤ q
  rw [upsertAck_find]
  by_cases hk : (a, st) = (attemptID, ack.1)
  · rw [if_pos hk]
    refine ⟨_, rfl, ?_⟩
    rcases h with h | ⟨-, -, h⟩
    · obtain ⟨q, hq, hn⟩ := acked_iff.mp h
      rw [hq, Option.getD_some]
      omega
    · omega
  · rw [if_neg hk]
    rcases h with h | ⟨rfl, rfl, -⟩
    · exact acked_iff.mp h
    · exact absurd rfl hk

/-- Every row the acknowledgement deletes ends inside it. -/
def Contains (attemptID : Nat) (ack : LogStream × Nat) (s : Spool) : Prop :=
  ∀ r ∈ s.events.table.rows, r.at? attemptID ack.1 = true →
    r.event.sequence ≤ ack.2 → r.event.endSequence ≤ ack.2

/-- A sequence number an acknowledgement leaves out is accounted for as before. -/
theorem acknowledgeStream_hits (hin : Contains attemptID ack s)
    (h : ¬ (a = attemptID ∧ st = ack.1 ∧ n ≤ ack.2)) :
    hits (acknowledgeStream s attemptID ack).events.table a st n = hits s.events.table a st n := by
  rw [hits_eq_total, hits_eq_total]
  apply Table.total_deleteWhere
  intro r hr hdel
  rw [Bool.and_eq_true, decide_eq_true_eq] at hdel
  by_cases hstr : attemptID = a ∧ ack.1 = st
  · obtain ⟨rfl, rfl⟩ := hstr
    have hend := hin r hr hdel.1 hdel.2
    have hn : ack.2 < n := by
      by_contra hle
      exact h ⟨rfl, rfl, by omega⟩
    rw [weight_eq, if_pos hdel.1]
    unfold hit
    rw [if_neg (by omega)]
  · exact weight_of_other hdel.1 hstr

theorem mem_acknowledgeStream (hr : r ∈ (acknowledgeStream s attemptID ack).events.table.rows) :
    r ∈ s.events.table.rows :=
  (List.mem_filter.mp hr).1

/-- Every sequence number below the next one to be appended is acknowledged or in exactly one
row, and no row reaches further. -/
structure Covered (s : Spool) (next : Nat → LogStream → Nat) : Prop where
  plain : Plain s.events.table
  below : ∀ a st n, n < next a st → acked s a st n ∨ hits s.events.table a st n = 1
  above : ∀ a st n, next a st ≤ n → hits s.events.table a st n = 0

theorem hits_eq_zero_of_mem {t' : Table SpoolEvent.ordinal} (hsub : ∀ r ∈ t'.rows, r ∈ t.rows)
    (h : hits t a st n = 0) : hits t' a st n = 0 := by
  rw [hits_eq_total, Table.total_eq_zero_iff] at h ⊢
  exact fun r hr => h r (hsub r hr)

/-- **Appending keeps the stream covered.** -/
theorem Covered.append (hc : Covered s next) (hseq : e.sequence = next e.attemptID e.stream)
    (hend : e.sequence ≤ e.endSequence) (hgap : GapEmpty e) (h : LogSpool.append s e = .ok s') :
    Covered s' fun a st =>
      if e.attemptID = a ∧ e.stream = st then e.endSequence + 1 else next a st := by
  obtain ⟨hplain, hacks, hrow | hadd⟩ := append_hits hc.plain hgap h
  · -- nothing is stored yet at the next sequence number
    obtain ⟨r, hr, hat, hs, he⟩ := hrow
    have hzero := hc.above e.attemptID e.stream e.sequence (by omega)
    rw [hits_eq_total, Table.total_eq_zero_iff] at hzero
    have hw := hzero r hr
    rw [weight_eq, if_pos hat, hs, he] at hw
    unfold hit at hw
    rw [if_pos ⟨Nat.le_refl _, hend⟩] at hw
    exact absurd hw (by decide)
  · refine ⟨hplain, ?_, ?_⟩
    · intro a st n hn
      have hacked : acked s a st n → acked s' a st n := by
        unfold acked
        rw [hacks]
        exact id
      rw [hadd]
      by_cases hstr : e.attemptID = a ∧ e.stream = st
      · obtain ⟨rfl, rfl⟩ := hstr
        rw [if_pos ⟨rfl, rfl⟩] at hn ⊢
        unfold hit
        rcases Nat.lt_or_ge n e.sequence with hlt | hge
        · rw [if_neg (by omega), Nat.add_zero]
          exact (hc.below _ _ n (by omega)).imp_left hacked
        · right
          rw [hc.above _ _ n (by omega), if_pos ⟨hge, by omega⟩]
      · rw [if_neg hstr] at hn ⊢
        exact (hc.below a st n hn).imp_left hacked
    · intro a st n hn
      rw [hadd]
      by_cases hstr : e.attemptID = a ∧ e.stream = st
      · obtain ⟨rfl, rfl⟩ := hstr
        rw [if_pos ⟨rfl, rfl⟩] at hn ⊢
        unfold hit
        rw [if_neg (by omega), hc.above _ _ n (by omega)]
      · rw [if_neg hstr] at hn ⊢
        exact hc.above a st n hn

theorem Covered.acknowledgeStream (hc : Covered s next) (hin : Contains attemptID ack s) :
    Covered (LogSpool.acknowledgeStream s attemptID ack) next := by
  refine ⟨fun r hr => hc.plain r (mem_acknowledgeStream hr), ?_, ?_⟩
  · intro a st n hn
    by_cases h : a = attemptID ∧ st = ack.1 ∧ n ≤ ack.2
    · exact Or.inl (acknowledgeStream_acked (Or.inr h))
    · rw [acknowledgeStream_hits hin h]
      exact (hc.below a st n hn).imp_left fun hacked => acknowledgeStream_acked (Or.inl hacked)
  · intro a st n hn
    exact hits_eq_zero_of_mem (fun r hr => mem_acknowledgeStream hr) (hc.above a st n hn)

theorem Covered.acknowledgeStreams (acks : List (LogStream × Nat)) (hc : Covered s next)
    (hin : ∀ ack ∈ acks, Contains attemptID ack s) :
    Covered (acks.foldl (fun s ack => LogSpool.acknowledgeStream s attemptID ack) s) next := by
  induction acks generalizing s with
  | nil => exact hc
  | cons ack acks ih =>
    apply ih (hc.acknowledgeStream (hin ack List.mem_cons_self))
    intro ack' hack' r hr
    exact hin ack' (List.mem_cons_of_mem _ hack') r (mem_acknowledgeStream hr)

/-- **Acknowledging keeps every stream covered**, where each deleted row ends inside its
acknowledgement. -/
theorem Covered.acknowledge {acks : List (LogStream × Nat)} (hc : Covered s next)
    (hin : ∀ ack ∈ acks, Contains attemptID ack s)
    (h : LogSpool.acknowledge s attemptID acks = .ok s') : Covered s' next := by
  unfold LogSpool.acknowledge at h
  split at h
  · cases h
  · cases h
    exact hc.acknowledgeStreams acks hin

/-- The rows of a batch are as they were read, or all gone. -/
def Unmoved (t : Table SpoolEvent.ordinal) (run : List SpoolEvent) : Prop :=
  (∀ r ∈ run, t.find r.ordinal = some r) ∨ ∀ r ∈ run, t.find r.ordinal = none

instance (t : Table SpoolEvent.ordinal) (run : List SpoolEvent) : Decidable (Unmoved t run) :=
  inferInstanceAs (Decidable ((∀ r ∈ run, t.find r.ordinal = some r) ∨
    ∀ r ∈ run, t.find r.ordinal = none))

theorem contiguous_isChain {first : Nat} (h : contiguous first run = true) :
    List.IsChain (fun r r' => r'.event.sequence = r.event.sequence + 1) run := by
  induction run generalizing first with
  | nil => exact List.isChain_nil
  | cons r run ih =>
    simp only [contiguous, Bool.and_eq_true, decide_eq_true_eq] at h
    cases run with
    | nil => exact List.isChain_singleton r
    | cons r' run =>
      refine List.isChain_cons_cons.mpr ⟨?_, ih h.2⟩
      have hnext := h.2
      simp only [contiguous, Bool.and_eq_true, decide_eq_true_eq] at hnext
      rw [hnext.1, h.1]

section ReplaceStream
variable {t : SpoolEvents}

theorem replaceStream_find (hk : k ∉ run.map SpoolEvent.ordinal) :
    (replaceStream t attemptID stream run).table.find k = t.table.find k := by
  cases run with
  | nil => rfl
  | cons first rest => exact replaceRun_find hk

theorem replaceStream_plain (h : Plain t.table) :
    Plain (replaceStream t attemptID stream run).table := by
  cases run with
  | nil => exact h
  | cons first rest => exact replaceRun_plain h

theorem replaceStream_hits (hmvd : Unmoved t.table run)
    (hstr : ∀ r ∈ run, r.at? attemptID stream = true) (hplain : ∀ r ∈ run, r.event.gap = none)
    (hnd : (run.map SpoolEvent.ordinal).Nodup)
    (hchain : List.IsChain (fun r r' => r'.event.sequence = r.event.sequence + 1) run) :
    hits (replaceStream t attemptID stream run).table a st n = hits t.table a st n := by
  cases run with
  | nil => rfl
  | cons first rest =>
    rcases hmvd with hfind | hnone
    · exact replaceRun_hits ⟨hfind, hstr, hplain, hnd, hchain⟩ rfl a st n
    have htable : (replaceStream t attemptID stream (first :: rest)).table = t.table := by
      apply replaceRun_of_none
      intro j hj
      rw [← List.map_cons] at hj
      obtain ⟨r, hr, rfl⟩ := List.mem_map.mp hj
      exact hnone r hr
    rw [htable]

end ReplaceStream

/-- **Replacing an unmoved batch keeps every count.** -/
theorem replaceBatchWithReplayGaps_hits {batch : List SpoolEvent}
    (hnd : (batch.map SpoolEvent.ordinal).Nodup) (hatt : ∀ r ∈ batch, r.event.attemptID = attemptID)
    (hmvd : ∀ stream, Unmoved s.events.table (batchStream batch stream))
    (h : replaceBatchWithReplayGaps s attemptID batch = .ok s') :
    s'.acks = s.acks ∧ (Plain s.events.table → Plain s'.events.table) ∧
      ∀ a st n, hits s'.events.table a st n = hits s.events.table a st n := by
  unfold replaceBatchWithReplayGaps at h
  split at h
  · cases h
  rename_i hgap
  dsimp only at h
  split at h
  · rename_i hcont
    cases h
    rw [Bool.and_eq_true] at hcont
    refine ⟨rfl, fun hp => replaceStream_plain (replaceStream_plain hp), ?_⟩
    intro a st n
    have hmem : ∀ stream, ∀ r ∈ batchStream batch stream,
        r ∈ batch ∧ r.event.stream = stream := by
      intro stream r hr
      obtain ⟨h1, h2⟩ := List.mem_filter.mp hr
      exact ⟨h1, of_decide_eq_true h2⟩
    have hat : ∀ stream, ∀ r ∈ batchStream batch stream, r.at? attemptID stream = true := by
      intro stream r hr
      obtain ⟨h1, h2⟩ := hmem stream r hr
      exact SpoolEvent.at?_iff.mpr ⟨hatt r h1, h2⟩
    have hplain : ∀ stream, ∀ r ∈ batchStream batch stream, r.event.gap = none := by
      intro stream r hr
      simp only [List.any_eq_true, not_exists, not_and, Bool.not_eq_true] at hgap
      simpa using hgap r (hmem stream r hr).1
    have hnds : ∀ stream, ((batchStream batch stream).map SpoolEvent.ordinal).Nodup :=
      fun stream => hnd.sublist (List.filter_sublist.map _)
    -- replacing stdout leaves the rows of stderr where they are
    have hoth : ∀ r ∈ batchStream batch .stderr,
        r.ordinal ∉ (batchStream batch .stdout).map SpoolEvent.ordinal := by
      intro r hr hin
      obtain ⟨r', hr', heq⟩ := List.mem_map.mp hin
      have hsame : r' = r :=
        List.inj_on_of_nodup_map hnd (hmem _ r' hr').1 (hmem _ r hr).1 heq
      have h1 := (hmem _ r' hr').2
      have h2 := (hmem _ r hr).2
      rw [hsame, h2] at h1
      cases h1
    have hmvd' : Unmoved (replaceStream s.events attemptID .stdout
        (batchStream batch .stdout)).table (batchStream batch .stderr) := by
      rcases hmvd .stderr with hfind | hnone
      · left
        intro r hr
        rw [replaceStream_find (hoth r hr), hfind r hr]
      · right
        intro r hr
        rw [replaceStream_find (hoth r hr), hnone r hr]
    rw [replaceStream_hits hmvd' (hat _) (hplain _) (hnds _) (contiguous_isChain hcont.2),
      replaceStream_hits (hmvd _) (hat _) (hplain _) (hnds _) (contiguous_isChain hcont.1)]
  · cases h

theorem Covered.of_hits (hc : Covered s next) (hplain : Plain s'.events.table)
    (hacks : s'.acks = s.acks)
    (hhits : ∀ a st n, hits s'.events.table a st n = hits s.events.table a st n) :
    Covered s' next := by
  refine ⟨hplain, ?_, ?_⟩
  · intro a st n hn
    unfold acked
    rw [hacks, hhits]
    exact hc.below a st n hn
  · intro a st n hn
    rw [hhits]
    exact hc.above a st n hn

end Wefty.LogSpool
