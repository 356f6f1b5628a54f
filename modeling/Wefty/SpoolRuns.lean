/-
Runs of the agent's log spool against L1.

`LogSpool.lean` says what one operation does to the counts. Here the operations interleave:
output is appended by one goroutine while another reads a batch, sends it, and later applies
L1's answer to a spool that has moved on. A run is any interleaving; the answers in flight are
part of its state, so an answer may be applied any number of operations after the batch was read.

L1 answers an upload with its continuity marks: for each stream of the batch the largest sequence
number it has accepted so far. Such a mark is at least the end of every row accepted in the stream
([`endSequence_le_mark`]) and never more than what L1 has accepted, by its definition.
-/
import Wefty.LogSpool

set_option autoImplicit false

namespace Wefty.SpoolRuns

open Tables Ranges LogEvents Runs LogSpool

/-! ## 1. L1's answer -/

/-- The largest sequence number L1 has accepted in a stream. -/
def mark (sent : List SpoolEvent) (stream : LogStream) : Nat :=
  (batchStream sent stream).foldr (fun r m => max r.event.endSequence m) 0

/-- `AppendLogsResponse.Acknowledged`, with the rows it answers for. -/
structure Answer where
  attemptID : Nat
  batch : List SpoolEvent
  acknowledged : List (LogStream × Nat)
  sent : List SpoolEvent
  deriving DecidableEq

/-- The answer to a batch, after everything already accepted: one mark for each stream of the
batch. -/
def answer (attemptID : Nat) (batch sent : List SpoolEvent) : Answer where
  attemptID := attemptID
  batch := batch
  acknowledged := ([.stdout, .stderr].filter fun stream => batchStream batch stream ≠ []).map
    fun stream => (stream, mark (batch ++ sent) stream)
  sent := batch ++ sent

theorem endSequence_le_mark {sent : List SpoolEvent} {r : SpoolEvent} (hr : r ∈ sent) :
    r.event.endSequence ≤ mark sent r.event.stream := by
  have hmem : r ∈ batchStream sent r.event.stream :=
    List.mem_filter.mpr ⟨hr, decide_eq_true rfl⟩
  unfold mark
  generalize batchStream sent r.event.stream = l at hmem ⊢
  induction l with
  | nil => cases hmem
  | cons r' l ih =>
    rw [List.foldr_cons]
    rcases List.mem_cons.mp hmem with rfl | hl
    · exact Nat.le_max_left _ _
    · exact Nat.le_trans (ih hl) (Nat.le_max_right _ _)

/-! ## 2. Runs -/

/-- The spool, the next sequence number of each stream, the batches read, the rows L1 has
accepted from each attempt, and L1's answers that may still be applied. -/
structure Trace where
  spool : Spool
  next : Nat → LogStream → Nat
  reads : List (Nat × List SpoolEvent)
  sent : Nat → List SpoolEvent
  answers : List Answer

inductive Op
  | append (e : LogEvent)
  | read (attemptID limit : Nat)
  | accept (attemptID : Nat) (batch : List SpoolEvent)
  | acknowledge (a : Answer)
  | replace (attemptID : Nat) (batch : List SpoolEvent)

def Trace.commit (x : Trace) : Except SpoolError Spool → Trace
  | .ok s => { x with spool := s }
  | .error _ => x

/-- The stream an event was appended to goes on after its end. -/
def Trace.appended (x : Trace) (e : LogEvent) : Except SpoolError Spool → Trace
  | .ok s =>
    { x with
      spool := s
      next := fun a st =>
        if e.attemptID = a ∧ e.stream = st then e.endSequence + 1 else x.next a st }
  | .error _ => x

def step (x : Trace) : Op → Trace
  | .append e => x.appended e (append x.spool e)
  | .read attemptID limit =>
    { x with reads := (attemptID, pendingBatch x.spool attemptID limit) :: x.reads }
  | .accept attemptID batch =>
    { x with
      sent := fun a => if attemptID = a then batch ++ x.sent a else x.sent a
      answers := answer attemptID batch (x.sent attemptID) :: x.answers }
  | .acknowledge a =>
    if validateLogAcknowledgement a.batch a.acknowledged then
      x.commit (acknowledge x.spool a.attemptID a.acknowledged)
    else x
  | .replace attemptID batch => x.commit (replaceBatchWithReplayGaps x.spool attemptID batch)

/-- What may happen next: events are appended in sequence order, L1 answers batches that were
read, and a batch read earlier may be replaced, at any later time. -/
def Possible (x : Trace) : Op → Prop
  | .append e =>
    e.sequence = x.next e.attemptID e.stream ∧ e.sequence ≤ e.endSequence ∧
      (e.gap.isSome = true → e.bytes = [])
  | .read _ _ => True
  | .accept attemptID batch => (attemptID, batch) ∈ x.reads
  | .acknowledge a => a ∈ x.answers
  | .replace attemptID batch => (attemptID, batch) ∈ x.reads

/-- The spool still holds what the operation is about: every row an acknowledgement is about to
release is one L1 had been sent, as it is now, when it answered; the rows of a stream of a
batch to be replaced are all as they were read, or all gone. -/
def Current (x : Trace) : Op → Prop
  | .acknowledge a => ∀ ack ∈ a.acknowledged, ∀ r ∈ x.spool.events.table.rows,
      r.at? a.attemptID ack.1 = true → r.event.sequence ≤ ack.2 → r ∈ a.sent
  | .replace _ batch => ∀ stream, Unmoved x.spool.events.table (batchStream batch stream)
  | _ => True

instance (x : Trace) : ∀ op, Decidable (Possible x op)
  | .append e => inferInstanceAs (Decidable (e.sequence = x.next e.attemptID e.stream ∧
      e.sequence ≤ e.endSequence ∧ (e.gap.isSome = true → e.bytes = [])))
  | .read _ _ => inferInstanceAs (Decidable True)
  | .accept attemptID batch => inferInstanceAs (Decidable ((attemptID, batch) ∈ x.reads))
  | .acknowledge a => inferInstanceAs (Decidable (a ∈ x.answers))
  | .replace attemptID batch => inferInstanceAs (Decidable ((attemptID, batch) ∈ x.reads))

instance (x : Trace) : ∀ op, Decidable (Current x op)
  | .append _ => inferInstanceAs (Decidable True)
  | .read _ _ => inferInstanceAs (Decidable True)
  | .accept _ _ => inferInstanceAs (Decidable True)
  | .acknowledge a => inferInstanceAs (Decidable (∀ ack ∈ a.acknowledged,
      ∀ r ∈ x.spool.events.table.rows, r.at? a.attemptID ack.1 = true →
        r.event.sequence ≤ ack.2 → r ∈ a.sent))
  | .replace _ batch => inferInstanceAs (Decidable (∀ stream,
      Unmoved x.spool.events.table (batchStream batch stream)))

def start (attempts : Table SpoolAttempt.attemptID) (maxOneShotBytes maxServiceBytes : Int) :
    Trace where
  spool := ⟨attempts, AutoTable.empty, Table.empty, maxOneShotBytes, maxServiceBytes⟩
  next := fun _ _ => 0
  reads := []
  sent := fun _ => []
  answers := []

/-! ## 3. The invariant -/

structure Inv (x : Trace) : Prop where
  covered : Covered x.spool x.next
  reads : ∀ b ∈ x.reads,
    (b.2.map SpoolEvent.ordinal).Nodup ∧ ∀ r ∈ b.2, r.event.attemptID = b.1
  answers : ∀ a ∈ x.answers, ∀ ack ∈ a.acknowledged, ∀ r ∈ a.sent, r.event.stream = ack.1 →
    r.event.endSequence ≤ ack.2

theorem inv_start (attempts : Table SpoolAttempt.attemptID)
    (maxOneShotBytes maxServiceBytes : Int) :
    Inv (start attempts maxOneShotBytes maxServiceBytes) := by
  refine ⟨⟨?_, ?_, ?_⟩, ?_, ?_⟩
  · intro r hr
    cases hr
  · intro a st n hn
    cases hn
  · intro a st n _
    rfl
  · intro b hb
    cases hb
  · intro a ha
    cases ha

theorem pendingBatch_read (s : Spool) (attemptID limit : Nat) :
    ((pendingBatch s attemptID limit).map SpoolEvent.ordinal).Nodup ∧
      ∀ r ∈ pendingBatch s attemptID limit, r.event.attemptID = attemptID := by
  have hsub : (pendingBatch s attemptID limit).Sublist
      (s.events.table.rows.filter fun r => r.event.attemptID = attemptID) :=
    List.take_sublist _ _
  constructor
  · exact s.events.table.nodup.sublist ((hsub.trans List.filter_sublist).map _)
  · intro r hr
    simpa using (List.mem_filter.mp (hsub.subset hr)).2

theorem answer_marks (attemptID : Nat) (batch sent : List SpoolEvent) :
    ∀ ack ∈ (answer attemptID batch sent).acknowledged,
      ∀ r ∈ (answer attemptID batch sent).sent, r.event.stream = ack.1 →
        r.event.endSequence ≤ ack.2 := by
  intro ack hack r hr hstr
  obtain ⟨stream, -, rfl⟩ := List.mem_map.mp hack
  have hmark := endSequence_le_mark hr
  rw [hstr] at hmark
  exact hmark

/-- **Every operation on a current spool keeps the streams covered.** -/
theorem Inv.step {x : Trace} (hi : Inv x) (op : Op) (hop : Possible x op) (hcur : Current x op) :
    Inv (SpoolRuns.step x op) := by
  cases op with
  | append e =>
    obtain ⟨hseq, hend, hgap⟩ := hop
    have hempty : GapEmpty e := by
      intro g hg
      apply hgap
      rw [hg]
      rfl
    show Inv (x.appended e (LogSpool.append x.spool e))
    cases happ : LogSpool.append x.spool e with
    | error err => exact hi
    | ok s => exact ⟨hi.covered.append hseq hend hempty happ, hi.reads, hi.answers⟩
  | read attemptID limit =>
    refine ⟨hi.covered, ?_, hi.answers⟩
    intro b hb
    rcases List.mem_cons.mp hb with rfl | hb
    · exact pendingBatch_read x.spool attemptID limit
    · exact hi.reads b hb
  | accept attemptID batch =>
    refine ⟨hi.covered, hi.reads, ?_⟩
    intro a ha
    rcases List.mem_cons.mp ha with rfl | ha
    · exact answer_marks attemptID batch (x.sent attemptID)
    · exact hi.answers a ha
  | acknowledge a =>
    show Inv (if validateLogAcknowledgement a.batch a.acknowledged then
      x.commit (LogSpool.acknowledge x.spool a.attemptID a.acknowledged) else x)
    split
    · -- a row as it was sent ends at or below the mark L1 answered with
      have hin : ∀ ack ∈ a.acknowledged, Contains a.attemptID ack x.spool := by
        intro ack hack r hr hat hle
        have hsent := hcur ack hack r hr hat hle
        exact hi.answers a hop ack hack r hsent (SpoolEvent.at?_iff.mp hat).2
      cases hack : LogSpool.acknowledge x.spool a.attemptID a.acknowledged with
      | error err => exact hi
      | ok s => exact ⟨hi.covered.acknowledge hin hack, hi.reads, hi.answers⟩
    · exact hi
  | replace attemptID batch =>
    show Inv (x.commit (replaceBatchWithReplayGaps x.spool attemptID batch))
    cases hrep : replaceBatchWithReplayGaps x.spool attemptID batch with
    | error err => exact hi
    | ok s =>
      obtain ⟨hnd, hatt⟩ := hi.reads _ hop
      obtain ⟨hacks, hplain, hhits⟩ := replaceBatchWithReplayGaps_hits hnd hatt hcur hrep
      exact ⟨hi.covered.of_hits (hplain hi.covered.plain) hacks hhits, hi.reads, hi.answers⟩

/-! ## 4. Coverage over runs -/

/-- **No range is lost.** In every run from the empty spool in which acknowledgements and
replacements find the rows they are about as those were sent or read, every sequence number
appended so far is at or below the stored acknowledgement or in the range of exactly one
row. -/
theorem spool_covers (attempts : Table SpoolAttempt.attemptID)
    (maxOneShotBytes maxServiceBytes : Int) (ops : List Op) (x : Trace)
    (hrun : Run (fun y op => Possible y op ∧ Current y op) step
      (start attempts maxOneShotBytes maxServiceBytes) ops x)
    (attemptID : Nat) (stream : LogStream) (n : Nat) (hn : n < x.next attemptID stream) :
    acked x.spool attemptID stream n ∨ hits x.spool.events.table attemptID stream n = 1 := by
  have hinv : Inv x := hrun.invariant (fun y op hy hop => hy.step op hop.1 hop.2)
    (inv_start attempts maxOneShotBytes maxServiceBytes)
  exact hinv.covered.below attemptID stream n hn

/-- One running service, its output budget six bytes. -/
def oneService : Trace := start (Table.empty.insert ⟨1, .service⟩) 0 6

/-- `count` bytes of standard output at one sequence number. -/
def line (sequence count : Nat) : LogEvent :=
  ⟨1, .stdout, sequence, 0, List.replicate count 120, none⟩

/-- The row of `line sequence 1`, appended as the row numbered `sequence + 1`. -/
def lineRow (sequence : Nat) : SpoolEvent := ⟨sequence + 1, line sequence 1, 1⟩

/-- Six lines, the first three of them uploaded and accepted. -/
def uploading : List Op :=
  [.append (line 0 1), .append (line 1 1), .append (line 2 1), .append (line 3 1),
    .append (line 4 1), .append (line 5 1), .read 1 3,
    .accept 1 [lineRow 0, lineRow 1, lineRow 2]]

def uploaded : Answer := answer 1 [lineRow 0, lineRow 1, lineRow 2] []

/-- Without an append in between, the answer releases the three lines and keeps the others. -/
theorem spool_covers_uploaded :
    Run (fun y op => Possible y op ∧ Current y op) step oneService
        (uploading ++ [.acknowledge uploaded]) (exec step oneService
          (uploading ++ [.acknowledge uploaded])) ∧
      (acked (exec step oneService (uploading ++ [.acknowledge uploaded])).spool 1 .stdout 3 ∨
        hits (exec step oneService (uploading ++ [.acknowledge uploaded])).spool.events.table
          1 .stdout 3 = 1) := by
  have hrun : Run (fun y op => Possible y op ∧ Current y op) step oneService
      (uploading ++ [.acknowledge uploaded])
      (exec step oneService (uploading ++ [.acknowledge uploaded])) := by
    apply Run.of_admitted
    decide +kernel
  exact ⟨hrun, spool_covers _ 0 6 _ _ hrun 1 .stdout 3 (by decide)⟩

/-- **A stale acknowledgement loses a range.** Six one-byte lines fill the budget; the first
three are uploaded and accepted; before the answer is applied a six-byte line is appended,
which evicts all six lines into one gap row `0` through `5`; the answer, sequence number 2,
deletes that row. Lines 3 to 5 are then neither acknowledged nor in the spool. -/
theorem stale_acknowledgement_loses_range :
    ∃ x, Run Possible step oneService
        (uploading ++ [.append (line 6 6), .acknowledge uploaded]) x ∧
      x.next 1 .stdout = 7 ∧ x.spool.acks.rows = [⟨1, .stdout, 2⟩] ∧
      ∀ n ∈ [3, 4, 5], ¬ acked x.spool 1 .stdout n ∧
        hits x.spool.events.table 1 .stdout n = 0 := by
  refine ⟨_, Run.of_admitted (by decide +kernel), by decide +kernel, by decide +kernel, ?_⟩
  decide +kernel

end Wefty.SpoolRuns
