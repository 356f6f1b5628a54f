/-
The recovery of durable evidence (`agent/evidence_outbox.go`; `sealIncomplete` of
`agent/log_spool.go`).

The evidence of an attempt is what the spool has of it: log events and a completion. Its lifecycle
owns the attempt until it releases it, and leaves appends that came too late to goroutines that are
counted. A recovery pass starts when nobody owns the attempt, uploads what is in the spool batch by
batch, and then sends the completion. An upgrade may hold the attempt meanwhile, which moves a
revision; a pass that read another revision keeps its hands off the evidence when an upload is
refused.
-/
import Wefty.LogSpool

set_option autoImplicit false

namespace Wefty.EvidenceOutbox

open Tables LogEvents LogSpool Runs

/-! ## 1. The outbox -/

/-- How `recoverLogsRetaining` takes an error reply: `permanentEvidenceRejection`, or the
destination of `classifyAgentProtocolError`. A reply that was lost is one of the others. -/
inductive Refusal
  | permanent
  | attemptAuthority
  | other
  deriving DecidableEq

/-- `incompleteEvidenceTombstone`. -/
structure Tombstone where
  reason : String
  errorCode : String
  lostEventCount : Nat
  lostByteCount : Nat
  completionUndelivered : Bool

/-- What the spool has. A completion is kept as the bytes of its result. -/
structure Evidence where
  spool : Spool
  completion : Nat → Option (List UInt8)
  incomplete : Nat → Option Tombstone

inductive Phase
  | launched
  | reading
  | uploading (batch : List SpoolEvent)
  | logsDone
  | sending
  | ended

/-- A call of `recoverLogsRetaining`. A pass of the recovery loop goes on to the completion. -/
structure Pass where
  attemptID : Nat
  recovers : Bool
  preserve : Bool
  revision : Nat := 0
  lostBatches : Nat := 0
  phase : Phase := .launched

structure Outbox where
  evidence : Evidence
  liveAttempts : List Nat := []
  upgradeAttempts : Nat → Bool := fun _ => false
  upgradeRevisions : Nat → Nat := fun _ => 0
  lateEvents : List LogEvent := []
  passes : List Pass := []

variable {s : Outbox} {p : Pass} {a i : Nat}

def maxEvidenceLogReplayBatchesPerPass : Nat := 8

def Outbox.attemptIsLive (s : Outbox) (attemptID : Nat) : Bool :=
  s.liveAttempts.contains attemptID || s.upgradeAttempts attemptID ||
    s.lateEvents.any fun e => e.attemptID = attemptID

/-- Ownership passes to an upgrade or back. The revisions stay when it is released. -/
def Outbox.transfer (s : Outbox) (attemptID : Nat) (held : Bool) : Outbox :=
  if s.upgradeAttempts attemptID = held then s
  else { s with
    upgradeAttempts := Function.update s.upgradeAttempts attemptID held
    upgradeRevisions := Function.update s.upgradeRevisions attemptID
      (s.upgradeRevisions attemptID + 1) }

def Outbox.holdUpgradeAttempt (s : Outbox) (attemptID : Nat) : Outbox := s.transfer attemptID true

def Outbox.releaseUpgradeAttempt (s : Outbox) (attemptID : Nat) : Outbox :=
  s.transfer attemptID false

/-- `pendingAttempts` lists the attempt. -/
def Evidence.pending (v : Evidence) (attemptID : Nat) : Bool :=
  (v.spool.attempts.find attemptID).isSome &&
    ((v.spool.events.table.any fun r => r.event.attemptID = attemptID) ||
      (v.completion attemptID).isSome)

def sealIncomplete (v : Evidence) (attemptID : Nat) (reason errorCode : String) : Evidence where
  spool := { v.spool with
    events := v.spool.events.deleteWhere fun r => r.event.attemptID = attemptID
    acks := v.spool.acks.deleteWhere fun ack => ack.attemptID = attemptID }
  completion := Function.update v.completion attemptID none
  incomplete := Function.update v.incomplete attemptID (some {
    reason, errorCode
    lostEventCount := v.spool.events.table.total fun r =>
      if r.event.attemptID = attemptID then (r.event.gap.map LogGap.lostEventCount).getD 1 else 0
    lostByteCount := v.spool.events.table.total fun r =>
      if r.event.attemptID = attemptID then
        (r.event.gap.map LogGap.lostByteCount).getD r.payloadBytes else 0
    completionUndelivered := (v.completion attemptID).isSome })

/-- What the section under `dispositionMu` does with an error reply, and whether the pass goes on. A
write of the database may fail. -/
def dispose (v : Evidence) (attemptID : Nat) (batch : List SpoolEvent) (refusal : Refusal)
    (code : String) (replaceFails sealFails : Bool) : Evidence × Bool :=
  let sealed := fun reason => if sealFails then v else sealIncomplete v attemptID reason code
  match refusal with
  | .permanent =>
    if batch.any fun r => r.event.gap.isSome then (sealed "replacement gap was rejected", false)
    else
      match if replaceFails then .error .conflict
          else replaceBatchWithReplayGaps v.spool attemptID batch with
      | .ok spool => ({ v with spool }, true)
      | .error _ => (sealed "rejected replay could not be replaced with a gap", false)
  | .attemptAuthority => (sealed "attempt authority no longer accepts evidence", false)
  | .other => (v, false)

/-- What the world answers a pass. -/
inductive Input
  | begin
  /-- `pendingBatch`, and the upload starts. The batch size is not 0. -/
  | read (more : Nat)
  | acknowledged (acked : List (LogStream × Nat)) (lost stored : Bool)
  | refused (refusal : Refusal) (code : String) (replaceFails sealFails : Bool)
  /-- `recoverCompletion` reads the completion and sends it, if the intent gate lets it. -/
  | complete (admitted : Bool)
  | settle (delivered : Bool) (sealed : Option (String × String))

def run (s : Outbox) (p : Pass) (input : Input) : Evidence × Pass :=
  match p.phase, input with
  | .launched, .begin =>
    (s.evidence, { p with revision := s.upgradeRevisions p.attemptID, phase := .reading })
  | .reading, .read more =>
    let batch := pendingBatch s.evidence.spool p.attemptID (more + 1)
    (s.evidence, { p with
      phase := if maxEvidenceLogReplayBatchesPerPass ≤ p.lostBatches ∨ batch = [] then
        .logsDone else .uploading batch })
  | .uploading batch, .acknowledged acked lost stored =>
    if validateLogAcknowledgement batch acked ∧ stored then
      match acknowledge s.evidence.spool p.attemptID acked with
      | .ok spool => ({ s.evidence with spool }, { p with
          lostBatches := p.lostBatches + if lost then 1 else 0
          phase := .reading })
      | .error _ => (s.evidence, { p with phase := .ended })
    else (s.evidence, { p with phase := .ended })
  | .uploading batch, .refused refusal code replaceFails sealFails =>
    if p.preserve = true ∨ s.upgradeAttempts p.attemptID = true ∨
        s.upgradeRevisions p.attemptID ≠ p.revision then (s.evidence, { p with phase := .ended })
    else
      let out := dispose s.evidence p.attemptID batch refusal code replaceFails sealFails
      (out.1, { p with phase := if out.2 then .reading else .ended })
  | .logsDone, .complete admitted =>
    (s.evidence, { p with
      phase := if p.recovers = true ∧ admitted = true ∧
        (s.evidence.completion p.attemptID).isSome then .sending else .ended })
  | .sending, .settle delivered sealed =>
    (match sealed with
      | some (reason, code) => sealIncomplete s.evidence p.attemptID reason code
      | none => { s.evidence with
          completion := if delivered then Function.update s.evidence.completion p.attemptID none
            else s.evidence.completion },
      { p with phase := .ended })
  | _, _ => (s.evidence, p)

inductive Event
  /-- A lifecycle starts, with the attempt's row in the spool. -/
  | own (attempt : SpoolAttempt)
  | append (e : LogEvent)
  | storeCompletion (attemptID : Nat) (result : List UInt8)
  /-- `retainLateEvent` registers an append; `late` ends it. -/
  | retain (e : LogEvent)
  | late (index : Nat) (stored : Bool)
  | release (attemptID : Nat)
  | hold (attemptID : Nat)
  | releaseUpgrade (attemptID : Nat)
  /-- The recovery loop starts a pass. -/
  | launch (attemptID : Nat)
  /-- A lifecycle or an upgrade replays the logs itself. -/
  | borrow (attemptID : Nat) (preserve : Bool)
  | run (index : Nat) (input : Input)
  | restart

def Evidence.append (v : Evidence) (e : LogEvent) : Evidence :=
  match LogSpool.append v.spool e with
  | .ok spool => { v with spool }
  | .error _ => v

def step (s : Outbox) : Event → Outbox
  | .own attempt =>
    if s.evidence.spool.attempts.find attempt.attemptID = none then
      { s with
        evidence := { s.evidence with spool := { s.evidence.spool with
          attempts := s.evidence.spool.attempts.insert attempt } }
        liveAttempts := attempt.attemptID :: s.liveAttempts }
    else s
  | .append e =>
    if e.attemptID ∈ s.liveAttempts then { s with evidence := s.evidence.append e } else s
  | .storeCompletion attemptID result =>
    if attemptID ∈ s.liveAttempts then
      { s with evidence := { s.evidence with
          completion := Function.update s.evidence.completion attemptID (some result) } }
    else s
  | .retain e =>
    if e.attemptID ∈ s.liveAttempts then { s with lateEvents := s.lateEvents ++ [e] } else s
  | .late index stored =>
    match s.lateEvents[index]? with
    | none => s
    | some e => { s with
        evidence := if stored then s.evidence.append e else s.evidence
        lateEvents := s.lateEvents.eraseIdx index }
  | .release attemptID => { s with liveAttempts := s.liveAttempts.filter (· ≠ attemptID) }
  | .hold attemptID => s.holdUpgradeAttempt attemptID
  | .releaseUpgrade attemptID => s.releaseUpgradeAttempt attemptID
  | .launch attemptID =>
    if s.evidence.pending attemptID ∧ s.attemptIsLive attemptID = false then
      { s with passes := s.passes ++ [{ attemptID, recovers := true, preserve := false }] }
    else s
  | .borrow attemptID preserve =>
    { s with passes := s.passes ++ [{ attemptID, recovers := false, preserve }] }
  | .run index input =>
    match s.passes[index]? with
    | none => s
    | some p => { s with
        evidence := (run s p input).1
        passes := s.passes.set index (run s p input).2 }
  | .restart =>
    { s with
      liveAttempts := [], upgradeAttempts := fun _ => false, upgradeRevisions := fun _ => 0
      lateEvents := [], passes := [] }

/-- The outbox of an empty spool with these byte budgets. -/
def start (maxOneShotBytes maxServiceBytes : Int) : Outbox where
  evidence := ⟨⟨Table.empty, AutoTable.empty, Table.empty, maxOneShotBytes, maxServiceBytes⟩,
    fun _ => none, fun _ => none⟩

/-! ## 2. Upgrade holds -/

/-- The event moves pass `i`, or ends the process. -/
def Touches (i : Nat) : Event → Prop
  | .run index _ => index = i
  | .restart => True
  | _ => False

/-- A held attempt has an odd revision, and no pass has read a later one. -/
structure Fenced (s : Outbox) : Prop where
  held : ∀ a, s.upgradeAttempts a = decide (s.upgradeRevisions a % 2 = 1)
  read : ∀ p ∈ s.passes, p.revision ≤ s.upgradeRevisions p.attemptID

theorem run_pass (s : Outbox) (p : Pass) (input : Input) :
    (run s p input).2.attemptID = p.attemptID ∧ (run s p input).2.recovers = p.recovers ∧
      p.lostBatches ≤ (run s p input).2.lostBatches := by
  unfold run
  split <;> repeat' split
  all_goals first | exact ⟨rfl, rfl, Nat.le_refl _⟩ | exact ⟨rfl, rfl, Nat.le_add_right _ _⟩

theorem run_revision (s : Outbox) (p : Pass) (input : Input) :
    (run s p input).2.revision = p.revision ∨
      (run s p input).2.revision = s.upgradeRevisions p.attemptID := by
  unfold run
  split <;> repeat' split
  all_goals first | exact .inl rfl | exact .inr rfl

/-- What a step does to the holds: the parity tells who owns, and no revision goes back. -/
structure Holds (s s' : Outbox) (a : Nat) : Prop where
  held : s'.upgradeAttempts a = decide (s'.upgradeRevisions a % 2 = 1)
  le : s.upgradeRevisions a ≤ s'.upgradeRevisions a

theorem holds_transfer (h : Fenced s) (b : Nat) (held : Bool) : Holds s (s.transfer b held) a := by
  unfold Outbox.transfer
  split
  · exact ⟨h.held a, Nat.le_refl _⟩
  next hne =>
    by_cases hab : a = b
    · subst hab
      rw [h.held] at hne
      refine ⟨?_, ?_⟩
      · simp only [Function.update_self]
        cases held
        · simp only [decide_eq_false_iff_not, not_not] at hne
          simp [Nat.add_mod, hne]
        · simp only [decide_eq_true_eq] at hne
          simp [Nat.add_mod, Nat.mod_two_ne_one.mp hne]
      · simp only [Function.update_self]
        exact Nat.le_succ _
    · refine ⟨?_, ?_⟩
      · simp only [Function.update_of_ne hab]
        exact h.held a
      · simp only [Function.update_of_ne hab]
        exact Nat.le_refl _

variable {e : Event}

theorem holds_step (h : Fenced s) (he : e ≠ .restart) (a : Nat) :
    Holds s (step s e) a := by
  cases e with
  | hold b => exact holds_transfer h b true
  | releaseUpgrade b => exact holds_transfer h b false
  | restart => exact absurd rfl he
  | release | borrow => exact ⟨h.held a, Nat.le_refl _⟩
  | _ =>
    unfold step
    dsimp only
    split <;> exact ⟨h.held a, Nat.le_refl _⟩

/-- What a step does to the passes. A pass that starts has read nothing, and finds the attempt free
if it is one of the recovery loop. -/
inductive PassesAfter (s : Outbox) (e : Event) : List Pass → Prop
  | same : PassesAfter s e s.passes
  | started (p : Pass) : p.revision = 0 → p.phase = .launched →
      (p.recovers = true → s.evidence.pending p.attemptID ∧ s.attemptIsLive p.attemptID = false) →
      PassesAfter s e (s.passes ++ [p])
  | moved {i : Nat} {input : Input} (p : Pass) : e = .run i input → s.passes[i]? = some p →
      PassesAfter s e (s.passes.set i (run s p input).2)

theorem passes_step (s : Outbox) (he : e ≠ .restart) :
    PassesAfter s e (step s e).passes := by
  cases e with
  | launch a =>
    unfold step
    dsimp only
    split
    next hready => exact .started _ rfl rfl fun _ => hready
    · exact .same
  | borrow => exact .started _ rfl rfl nofun
  | run i input =>
    unfold step
    dsimp only
    split
    · exact .same
    next p hp => exact .moved p rfl hp
  | restart => exact absurd rfl he
  | hold a | releaseUpgrade a =>
    have htransfer : ∀ held, (s.transfer a held).passes = s.passes := by
      intro held
      unfold Outbox.transfer
      split <;> rfl
    exact (htransfer _).symm ▸ .same
  | release => exact .same
  | _ =>
    unfold step
    dsimp only
    split <;> exact .same

theorem fenced_step (h : Fenced s) (e : Event) : Fenced (step s e) := by
  by_cases he : e = .restart
  · subst he
    exact ⟨fun _ => rfl, nofun⟩
  refine ⟨fun a => (holds_step h he a).held, fun p hp => ?_⟩
  refine Nat.le_trans ?_ (holds_step h he p.attemptID).le
  have hafter := passes_step s he
  generalize (step s e).passes = passes at hp hafter
  cases hafter with
  | same => exact h.read p hp
  | started q hzero =>
    rw [List.mem_append, List.mem_singleton] at hp
    rcases hp with hp | rfl
    · exact h.read p hp
    · rw [hzero]
      exact Nat.zero_le _
  | moved q _ hq =>
    rcases List.mem_or_eq_of_mem_set hp with hp | rfl
    · exact h.read p hp
    · rw [(run_pass s q _).1]
      rcases run_revision s q _ with hr | hr
      · rw [hr]
        exact h.read q (List.mem_of_getElem? hq)
      · rw [hr]

theorem untouched_step (he : ¬ Touches i e) (h : s.passes[i]? = some p) :
    (step s e).passes[i]? = some p := by
  have hafter := passes_step s (e := e) fun hr => he (hr ▸ trivial)
  generalize (step s e).passes = passes at hafter
  cases hafter with
  | same => exact h
  | started q =>
    rw [List.getElem?_append_left (List.getElem?_eq_some_iff.mp h).1]
    exact h
  | moved q hrun =>
    subst hrun
    rw [List.getElem?_set_ne he]
    exact h

section
variable (maxOneShotBytes maxServiceBytes : Int)

def reached (events : List Event) : Outbox :=
  exec step (start maxOneShotBytes maxServiceBytes) events

theorem fenced_reached (events : List Event) :
    Fenced (reached maxOneShotBytes maxServiceBytes events) :=
  exec_invariant (P := Fenced) (fun _ e h => fenced_step h e)
    ⟨fun _ => rfl, fun _ hp => by cases hp⟩ events

end

/-- Between two states of a process the upload is where it was and no revision went back. -/
theorem untouched_run {between : List Event} (hb : ∀ e ∈ between, ¬ Touches i e) (hf : Fenced s)
    (h : s.passes[i]? = some p) (a : Nat) :
    Fenced (exec step s between) ∧ (exec step s between).passes[i]? = some p ∧
      s.upgradeRevisions a ≤ (exec step s between).upgradeRevisions a := by
  refine ((run_exec step s between).restrict hb).invariant (P := fun t => Fenced t ∧
    t.passes[i]? = some p ∧ s.upgradeRevisions a ≤ t.upgradeRevisions a) ?_ ⟨hf, h, Nat.le_refl _⟩
  rintro t e ⟨ht, hp, hle⟩ ⟨-, he⟩
  refine ⟨fenced_step ht e, untouched_step he hp, hle.trans (holds_step ht ?_ a).le⟩
  rintro rfl
  exact he trivial

/-- The evidence after an error reply to the upload of pass `i`. -/
def replied (t : Outbox) (i : Nat) (refusal : Refusal) (code : String)
    (replaceFails sealFails : Bool) : Evidence :=
  (step t (.run i (.refused refusal code replaceFails sealFails))).evidence

variable {batch : List SpoolEvent}

theorem fenced_of_replied {t : Outbox} {refusal : Refusal} {code : String}
    {b b' : Bool} (hp : t.passes[i]? = some p) (hphase : p.phase = .uploading batch)
    (h : replied t i refusal code b b' ≠ t.evidence) :
    t.upgradeAttempts p.attemptID = false ∧ t.upgradeRevisions p.attemptID = p.revision := by
  unfold replied step at h
  dsimp only at h
  rw [hp] at h
  dsimp only at h
  unfold run at h
  rw [hphase] at h
  dsimp only at h
  split at h
  · exact absurd rfl h
  next hfree =>
    push Not at hfree
    exact ⟨Bool.eq_false_iff.mpr hfree.2.1, hfree.2.2⟩

/-- **Holds fence stale replies.** If the attempt is held at any moment from the start of an upload
to its error reply, the reply changes no evidence, also where the hold is over by then. A reply that
changes evidence finds the attempt free, in the revision it had when the upload started. -/
theorem stale_replies_are_fenced (maxOneShotBytes maxServiceBytes : Int)
    (before between : List Event)
    (i more : Nat) (refusal : Refusal) (code : String) (replaceFails sealFails : Bool) :
    let sent := step (reached maxOneShotBytes maxServiceBytes before) (.run i (.read more))
    let t := exec step sent between
    (∀ p batch, sent.passes[i]? = some p → p.phase = .uploading batch →
      (∀ e ∈ between, ¬ Touches i e) → ∀ earlier, earlier <+: between →
        (exec step sent earlier).upgradeAttempts p.attemptID = true →
        replied t i refusal code replaceFails sealFails = t.evidence) ∧
    ∀ p batch, sent.passes[i]? = some p → p.phase = .uploading batch →
      (∀ e ∈ between, ¬ Touches i e) →
      replied t i refusal code replaceFails sealFails ≠ t.evidence →
        t.upgradeAttempts p.attemptID = false ∧
          t.upgradeRevisions p.attemptID = sent.upgradeRevisions p.attemptID := by
  intro sent t
  have hf : Fenced sent := fenced_step (fenced_reached _ _ before) _
  refine ⟨fun p batch hp hphase hb earlier hpre hheld => ?_, fun p batch hp hphase hb hchg => ?_⟩
  · by_contra hchg
    obtain ⟨later, rfl⟩ := hpre
    obtain ⟨hfm, hmid, hle⟩ := untouched_run (fun e he => hb e (List.mem_append_left _ he)) hf hp
      p.attemptID
    obtain ⟨hft, hend, hle'⟩ := untouched_run
      (fun e he => hb e (List.mem_append_right _ he)) hfm hmid p.attemptID
    rw [← exec_append] at hft hend hle'
    obtain ⟨hfree, hcur⟩ := fenced_of_replied hend hphase hchg
    have hread := hf.read p (List.mem_of_getElem? hp)
    -- the revision stood still, so the parity did
    have heq : (exec step sent (earlier ++ later)).upgradeRevisions p.attemptID =
        (exec step sent earlier).upgradeRevisions p.attemptID := by
      refine Nat.le_antisymm ?_ hle'
      rw [hcur]
      exact hread.trans hle
    rw [hft.held, heq, ← hfm.held, hheld] at hfree
    cases hfree
  · obtain ⟨-, hend, hle⟩ := untouched_run hb hf hp p.attemptID
    obtain ⟨hfree, hcur⟩ := fenced_of_replied hend hphase hchg
    refine ⟨hfree, Nat.le_antisymm ?_ hle⟩
    rw [hcur]
    exact hf.read p (List.mem_of_getElem? hp)

/-! ## 3. What recovery finds -/

def Has (v : Evidence) (attemptID : Nat) : Prop :=
  ∃ r ∈ v.spool.events.table.rows, r.event.attemptID = attemptID

/-- No attempt has events that had none. -/
structure Shrinks (v v' : Evidence) : Prop where
  attempts : v'.spool.attempts = v.spool.attempts
  has : ∀ a, Has v' a → Has v a

variable {v : Evidence} {spool : Spool}

theorem Shrinks.refl (v : Evidence) : Shrinks v v := ⟨rfl, fun _ => id⟩

variable {attemptID : Nat} {r : SpoolEvent}

theorem attempt_of_mem_replaceRun {t : SpoolEvents} {k : Nat}
    {stream : LogStream} {ordinals : List Nat} {reason : LogGapReason} {last n b : Nat}
    (hr : r ∈ (replaceRun t attemptID stream k ordinals reason last n b).table.rows) :
    ∃ r' ∈ t.table.rows, r'.event.attemptID = r.event.attemptID := by
  rcases mem_replaceRun hr with hold | ⟨r', hr', rfl⟩
  · exact ⟨r, hold, rfl⟩
  · exact ⟨r', hr', rfl⟩

theorem shrinks_sealIncomplete (v : Evidence) (attemptID : Nat) (reason code : String) :
    Shrinks v (sealIncomplete v attemptID reason code) := by
  refine ⟨rfl, ?_⟩
  rintro a ⟨r, hr, hid⟩
  exact ⟨r, (List.mem_filter.mp hr).1, hid⟩

theorem shrinks_acknowledge {acked : List (LogStream × Nat)}
    (h : acknowledge v.spool attemptID acked = .ok spool) : Shrinks v { v with spool } := by
  have hfold : ∀ (acks : List (LogStream × Nat)) (t : Spool),
      Shrinks { v with spool := t } { v with
        spool := acks.foldl (fun s ack => acknowledgeStream s attemptID ack) t } := by
    intro acks
    induction acks with
    | nil => exact fun t => .refl _
    | cons ack acks ih =>
      intro t
      refine ⟨(ih _).attempts, fun a ha => ?_⟩
      obtain ⟨r, hr, hid⟩ := (ih _).has a ha
      exact ⟨r, mem_acknowledgeStream hr, hid⟩
  unfold acknowledge at h
  split at h
  · cases h
  · cases h
    exact hfold acked v.spool

theorem shrinks_replaceBatch (h : replaceBatchWithReplayGaps v.spool attemptID batch = .ok spool) :
    Shrinks v { v with spool } := by
  have hstream : ∀ (t : SpoolEvents) (stream : LogStream) (run : List SpoolEvent)
      {r : SpoolEvent}, r ∈ (replaceStream t attemptID stream run).table.rows →
      ∃ r' ∈ t.table.rows, r'.event.attemptID = r.event.attemptID := by
    intro t stream run r hr
    cases run with
    | nil => exact ⟨r, hr, rfl⟩
    | cons first rest => exact attempt_of_mem_replaceRun hr
  unfold replaceBatchWithReplayGaps at h
  split at h
  · cases h
  dsimp only at h
  split at h
  · cases h
    refine ⟨rfl, ?_⟩
    rintro a ⟨r, hr, rfl⟩
    obtain ⟨r', hr', hid'⟩ := hstream _ _ _ hr
    obtain ⟨r'', hr'', hid''⟩ := hstream _ _ _ hr'
    exact ⟨r'', hr'', hid''.trans hid'⟩
  · cases h

theorem attempt_of_mem_evicted (runs : List (List SpoolEvent)) (t : SpoolEvents)
    (hr : r ∈ (runs.foldl replaceEvictedServiceRun t).table.rows) :
    ∃ r' ∈ t.table.rows, r'.event.attemptID = r.event.attemptID := by
  induction runs generalizing t with
  | nil => exact ⟨r, hr, rfl⟩
  | cons run runs ih =>
    obtain ⟨r', hr', hid'⟩ := ih _ hr
    cases run with
    | nil => exact ⟨r', hr', hid'⟩
    | cons first rest =>
      obtain ⟨r'', hr'', hid''⟩ := attempt_of_mem_replaceRun hr'
      exact ⟨r'', hr'', hid''.trans hid'⟩

/-- An append adds to its own attempt only, whatever it evicts. -/
theorem append_spec (v : Evidence) (e : LogEvent) : (v.append e).spool.attempts = v.spool.attempts ∧
      ∀ a, Has (v.append e) a → a = e.attemptID ∨ Has v a := by
  unfold Evidence.append
  split
  next spool happ =>
    rcases append_cases happ with ⟨rfl, -⟩ | ⟨s₁, c, hroom, rfl⟩
    · exact ⟨rfl, fun a h => .inr h⟩
    obtain ⟨hatt, hsub⟩ : s₁.attempts = v.spool.attempts ∧ ∀ r ∈ s₁.events.table.rows,
        ∃ r' ∈ v.spool.events.table.rows, r'.event.attemptID = r.event.attemptID := by
      rcases hroom with rfl | ⟨required, hev⟩
      · exact ⟨rfl, fun r hr => ⟨r, hr, rfl⟩⟩
      · obtain ⟨_, -, rfl⟩ := evictServicePrefix_eq hev
        exact ⟨rfl, fun r hr => attempt_of_mem_evicted _ _ hr⟩
    refine ⟨hatt, ?_⟩
    rintro a ⟨r, hr, rfl⟩
    have hrows : (insertEvent s₁ (storedEvent v.spool c e)).events.table.rows =
        s₁.events.table.rows ++ [⟨s₁.events.next, storedEvent v.spool c e, _⟩] :=
      Table.rows_insert s₁.events.find_next
    rw [hrows, List.mem_append, List.mem_singleton] at hr
    rcases hr with hr | rfl
    · exact .inr (hsub r hr)
    · exact .inl (storedEvent_bounds v.spool c e).1
  · exact ⟨rfl, fun a h => .inr h⟩

theorem shrinks_dispose (v : Evidence) (attemptID : Nat) (batch : List SpoolEvent)
    (refusal : Refusal) (code : String) (replaceFails sealFails : Bool) :
    Shrinks v (dispose v attemptID batch refusal code replaceFails sealFails).1 := by
  have hseal : ∀ reason,
      Shrinks v (if sealFails then v else sealIncomplete v attemptID reason code) := by
    intro reason
    split
    · exact .refl v
    · exact shrinks_sealIncomplete v attemptID reason code
  unfold dispose
  dsimp only
  split
  · split
    · exact hseal _
    split
    next hrep =>
      split at hrep
      · cases hrep
      · exact shrinks_replaceBatch hrep
    · exact hseal _
  · exact hseal _
  · exact .refl v

theorem shrinks_run (s : Outbox) (p : Pass) (input : Input) :
    Shrinks s.evidence (run s p input).1 := by
  unfold run
  split
  · exact .refl _
  · exact .refl _
  · split
    · split
      next hack => exact shrinks_acknowledge hack
      · exact .refl _
    · exact .refl _
  · split
    · exact .refl _
    · exact shrinks_dispose _ _ _ _ _ _ _
  · exact .refl _
  · dsimp only
    split
    · exact shrinks_sealIncomplete _ _ _ _
    · exact ⟨rfl, fun _ => id⟩
  · exact .refl _

/-- What a step may add: a lifecycle for an attempt without a row, a late append and events for an
attempt whose lifecycle runs, and the events of the late appends. -/
structure Frame (s s' : Outbox) : Prop where
  row : ∀ a, s.evidence.spool.attempts.find a ≠ none → s'.evidence.spool.attempts.find a ≠ none
  live : ∀ a ∈ s'.liveAttempts, a ∈ s.liveAttempts ∨ s.evidence.spool.attempts.find a = none
  late : ∀ e ∈ s'.lateEvents, e ∈ s.lateEvents ∨ e.attemptID ∈ s.liveAttempts
  has : ∀ a, Has s'.evidence a →
    Has s.evidence a ∨ a ∈ s.liveAttempts ∨ ∃ e ∈ s.lateEvents, e.attemptID = a

theorem Frame.refl (s : Outbox) : Frame s s :=
  ⟨fun _ => id, fun _ => .inl, fun _ => .inl, fun _ => .inl⟩

theorem frame_step (s : Outbox) (e : Event) : Frame s (step s e) := by
  cases e with
  | own attempt =>
    unfold step
    dsimp only
    split
    next hnew =>
      refine ⟨fun a ha => ?_, fun a ha => ?_, fun _ => .inl, fun _ => .inl⟩
      · obtain ⟨row, hrow⟩ := Option.ne_none_iff_exists'.mp ha
        dsimp only
        rw [Table.find_insert_of_some hrow]
        exact Option.some_ne_none row
      · rcases List.mem_cons.mp ha with rfl | ha
        · exact .inr hnew
        · exact .inl ha
    · exact .refl s
  | append e =>
    unfold step
    dsimp only
    split
    next hlive =>
      obtain ⟨hatt, hhas⟩ := append_spec s.evidence e
      refine ⟨fun a ha => by rwa [hatt], fun _ => .inl, fun _ => .inl, fun a ha => ?_⟩
      rcases hhas a ha with rfl | ha
      · exact .inr (.inl hlive)
      · exact .inl ha
    · exact .refl s
  | retain e =>
    unfold step
    dsimp only
    split
    next hlive =>
      refine ⟨fun _ => id, fun _ => .inl, fun e' he' => ?_, fun _ => .inl⟩
      rcases List.mem_append.mp he' with he' | he'
      · exact .inl he'
      · exact .inr (List.mem_singleton.mp he' ▸ hlive)
    · exact .refl s
  | late index stored =>
    unfold step
    dsimp only
    split
    · exact .refl s
    next e he =>
      obtain ⟨hatt, hhas⟩ := append_spec s.evidence e
      have hsub : ∀ e' ∈ s.lateEvents.eraseIdx index,
          e' ∈ s.lateEvents ∨ e'.attemptID ∈ s.liveAttempts := fun e' he' =>
        .inl (List.mem_of_mem_eraseIdx he')
      cases stored
      · exact ⟨fun _ => id, fun _ => .inl, hsub, fun _ => .inl⟩
      refine ⟨fun a ha => ?_, fun _ => .inl, hsub, fun a ha => ?_⟩
      · rw [if_pos rfl, hatt]
        exact ha
      · rcases hhas a ha with rfl | ha
        · exact .inr (.inr ⟨e, List.mem_of_getElem? he, rfl⟩)
        · exact .inl ha
  | release a =>
    exact ⟨fun _ => id, fun b hb => .inl (List.mem_filter.mp hb).1, fun _ => .inl, fun _ => .inl⟩
  | run index input =>
    unfold step
    dsimp only
    split
    · exact .refl s
    next p _ =>
      obtain ⟨hatt, hhas⟩ := shrinks_run s p input
      exact ⟨fun a ha => by rwa [hatt], fun _ => .inl, fun _ => .inl, fun a ha => .inl (hhas a ha)⟩
  | restart => exact ⟨fun _ => id, nofun, nofun, fun _ => .inl⟩
  | borrow => exact ⟨fun _ => id, fun _ => .inl, fun _ => .inl, fun _ => .inl⟩
  | hold a | releaseUpgrade a =>
    have htransfer : ∀ held, Frame s (s.transfer a held) := by
      intro held
      unfold Outbox.transfer
      split <;> exact ⟨fun _ => id, fun _ => .inl, fun _ => .inl, fun _ => .inl⟩
    exact htransfer _
  | _ =>
    unfold step
    dsimp only
    split <;> exact ⟨fun _ => id, fun _ => .inl, fun _ => .inl, fun _ => .inl⟩

/-- What holds of a pass of the recovery loop: nobody else writes for the attempt, and when the pass
is done with the logs there are none left, unless it has given up on a lost attempt. -/
structure Alone (s : Outbox) (p : Pass) : Prop where
  row : s.evidence.spool.attempts.find p.attemptID ≠ none
  live : p.attemptID ∉ s.liveAttempts
  late : ∀ e ∈ s.lateEvents, e.attemptID ≠ p.attemptID
  sent : p.phase = .logsDone ∨ p.phase = .sending →
    p.lostBatches < maxEvidenceLogReplayBatchesPerPass → ¬ Has s.evidence p.attemptID

theorem Alone.frame {s' : Outbox} (h : Alone s p) (hf : Frame s s') : Alone s' p := by
  refine ⟨hf.row _ h.row, fun hlive => ?_, fun e he hid => ?_, fun hphase hlost hhas => ?_⟩
  · exact (hf.live _ hlive).elim h.live h.row
  · rcases hf.late e he with hold | hlive
    · exact h.late e hold hid
    · exact h.live (hid ▸ hlive)
  · rcases hf.has _ hhas with hold | hlive | ⟨e, he, hid⟩
    · exact h.sent hphase hlost hold
    · exact h.live hlive
    · exact h.late e he hid

theorem not_has_of_pendingBatch {more : Nat} (h : pendingBatch v.spool a (more + 1) = []) :
    ¬ Has v a := by
  rintro ⟨r, hr, hid⟩
  have hmem : r ∈ v.spool.events.table.rows.filter fun r => r.event.attemptID = a :=
    List.mem_filter.mpr ⟨hr, by simpa using hid⟩
  rw [pendingBatch, List.take_eq_nil_iff] at h
  rw [h.resolve_left (Nat.succ_ne_zero more)] at hmem
  cases hmem

/-- A pass is done with the logs when it reads none. -/
theorem run_sent (h : Alone s p) (input : Input)
    (hphase : (run s p input).2.phase = .logsDone ∨ (run s p input).2.phase = .sending)
    (hlost : p.lostBatches < maxEvidenceLogReplayBatchesPerPass) :
    ¬ Has s.evidence p.attemptID := by
  unfold run at hphase
  split at hphase
  · rcases hphase with hp | hp <;> cases hp
  · dsimp only at hphase
    split at hphase
    next hdone => exact not_has_of_pendingBatch (hdone.resolve_left (Nat.not_le_of_lt hlost))
    · rcases hphase with hp | hp <;> cases hp
  · repeat' split at hphase
    all_goals rcases hphase with hp | hp <;> cases hp
  · split at hphase
    · rcases hphase with hp | hp <;> cases hp
    · dsimp only at hphase
      split at hphase <;> rcases hphase with hp | hp <;> cases hp
  next hp => exact h.sent (.inl hp) hlost
  · rcases hphase with hp | hp <;> cases hp
  · exact h.sent hphase hlost

theorem alone_of_mem_step (h : ∀ p ∈ s.passes, p.recovers = true → Alone s p)
    (hp : p ∈ (step s e).passes) (hrec : p.recovers = true) : Alone s p := by
  by_cases he : e = .restart
  · subst he
    cases hp
  have hafter := passes_step s he
  generalize (step s e).passes = passes at hp hafter
  cases hafter with
  | same => exact h p hp hrec
  | started q _ hphase hfree =>
    rw [List.mem_append, List.mem_singleton] at hp
    rcases hp with hp | rfl
    · exact h p hp hrec
    obtain ⟨hpend, hfree⟩ := hfree hrec
    simp only [Outbox.attemptIsLive, Bool.or_eq_false_iff, List.contains_eq_mem,
      decide_eq_false_iff_not, List.any_eq_false, decide_eq_true_eq] at hfree
    refine ⟨fun hnone => ?_, hfree.1.1, hfree.2, fun hdone => ?_⟩
    · simp [Evidence.pending, hnone] at hpend
    · rw [hphase] at hdone
      rcases hdone with hp | hp <;> cases hp
  | moved q _ hq =>
    rcases List.mem_or_eq_of_mem_set hp with hp | rfl
    · exact h p hp hrec
    · obtain ⟨hid, hsame, hle⟩ := run_pass s q _
      have hq' := h q (List.mem_of_getElem? hq) (hsame ▸ hrec)
      refine ⟨hid ▸ hq'.row, hid ▸ hq'.live, hid ▸ hq'.late, fun hphase hlost => ?_⟩
      rw [hid]
      exact run_sent hq' _ hphase (Nat.lt_of_le_of_lt hle hlost)

/-- **Completions do not overtake logs.** When a recovery pass sends the completion of an attempt,
no late append of the attempt is unfinished; and no event of it is in the spool, unless L1 has
reported the attempt lost to as many uploads of this pass as a pass may make. -/
theorem completion_follows_logs (maxOneShotBytes maxServiceBytes : Int) (events : List Event) :
    let s := reached maxOneShotBytes maxServiceBytes events
    (∀ p ∈ s.passes, p.recovers = true → p.phase = .sending →
      ∀ e ∈ s.lateEvents, e.attemptID ≠ p.attemptID) ∧
    ∀ p ∈ s.passes, p.recovers = true → p.phase = .sending →
      p.lostBatches < maxEvidenceLogReplayBatchesPerPass → ¬ Has s.evidence p.attemptID := by
  intro s
  have halone : ∀ p ∈ s.passes, p.recovers = true → Alone s p :=
    exec_invariant (P := fun t => ∀ p ∈ t.passes, p.recovers = true → Alone t p)
      (fun t e h p hp hrec => (alone_of_mem_step h hp hrec).frame (frame_step t e))
      (fun _ hp => by cases hp) events
  exact ⟨fun p hp hrec _ => (halone p hp hrec).late, fun p hp hrec hphase =>
    (halone p hp hrec).sent (.inr hphase)⟩

end Wefty.EvidenceOutbox
