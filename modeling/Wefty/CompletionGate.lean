/-
The gate between completions of OCI services and the operator's stop
(`agent/oci_intent_completion.go`, `deliverCompletion` of `agent/completion_delivery.go`,
`recordCompletionDisposition` of `agent/log_spool.go`; `Stop` of `runner/ocicontrol/controller.go`).

A delivery observes the durable intent and then sends the completion or suppresses it, all under the
read side of the gate. A stop publishes its revision and takes the write side, so what was admitted
before has been answered when it returns. What comes later observes the intent the stop was made
for, or one after it: the controller writes no other while a stop waits.

`stopped` is no variable of the program: it has the revisions whose stop has returned. What became
of a completion is read off the receipt in the spool.
-/
import Wefty.Runs

set_option autoImplicit false

namespace Wefty.CompletionGate

open Runs

/-! ## 1. The gate -/

/-- Revision 0: there is no marker. -/
structure OCIIntentObservation where
  enabled : Bool
  revision : Nat

/-- `completionDeliveryMode`. -/
inductive Mode
  | live
  | replay
  | upgrade
  deriving DecidableEq

inductive Disposition
  | delivered
  | suppressed
  | withheld
  deriving DecidableEq

/-- The disposition columns of `spool_attempts`. -/
structure Receipt where
  disposition : Disposition
  intentRevision : Option Nat

/-- Where a call of `deliverCompletion` stands, with what it has read. A call that has ended may
have recorded what became of the completion, other than its suppression. -/
inductive Phase
  | begun
  | waiting (found : Option Receipt)
  | unavailable (found : Option Receipt)
  | observed (observation : OCIIntentObservation)
  | sending (observation : OCIIntentObservation)
  | suppressing (observation : OCIIntentObservation)
  | suppressed (observation : OCIIntentObservation)
  | answered (observation : OCIIntentObservation)
  | ended (recorded : Option Disposition)

/-- The observation of a call that has the read side of the gate. -/
def Phase.reads : Phase → Option OCIIntentObservation
  | .observed o | .sending o | .suppressing o => some o
  | _ => none

structure Delivery where
  attemptID : Nat
  mode : Mode
  phase : Phase

/-- The intent, the controller's stop, the gate, the spool and the calls. -/
structure System where
  intent : OCIIntentObservation := ⟨false, 0⟩
  stopping : Option Nat := none
  locked : Bool := false
  disabledRevision : Nat := 0
  failures : List (Nat × Nat) := []
  stored : Nat → Option Receipt := fun _ => none
  deliveries : List Delivery := []
  stopped : List Nat := []

variable {s s' : System} {d : Delivery} {o : OCIIntentObservation} {attemptID : Nat}

def System.allows (s : System) (o : OCIIntentObservation) : Bool :=
  o.enabled && decide (s.disabledRevision < o.revision)

/-- `recordCompletionDisposition` keeps the earliest revision of a suppression. -/
def recordCompletionDisposition (old : Option Receipt) (disposition : Disposition)
    (revision : Nat) : Receipt :=
  let given := if 0 < revision then some revision else none
  match old with
  | some ⟨.suppressed, some existing⟩ =>
    ⟨disposition, if disposition = .suppressed ∧ (revision = 0 ∨ existing < revision)
      then some existing else given⟩
  | _ => ⟨disposition, given⟩

def System.record (s : System) (attemptID : Nat) (disposition : Disposition) (revision : Nat) :
    Nat → Option Receipt := fun id =>
  if id = attemptID then some (recordCompletionDisposition (s.stored id) disposition revision)
  else s.stored id

/-- The receipt, if it was committed, and in place of the attempt's earlier failure the new one. -/
def System.persisted (s : System) (attemptID revision : Nat) (committed failed : Bool) : System :=
  { s with
    stored := if committed then s.record attemptID .suppressed revision else s.stored
    failures := (if failed then [(attemptID, revision)] else []) ++
      s.failures.filter fun f => f.1 ≠ attemptID }

/-- What the world answers a call. A failed commit may have reached the disk. -/
inductive Input
  | look
  | observe (readable : Bool)
  | decide
  | answer
  | settle (delivered : Bool)
  | persist (committed failed : Bool)
  | withhold (recorded : Bool)

def run (s : System) (d : Delivery) (input : Input) : System × Phase :=
  match d.phase, input with
  | .begun, .look =>
    if d.mode = .replay then
      match s.stored d.attemptID with
      | some ⟨.suppressed, _⟩ => (s, .ended none)
      | found => (s, .waiting found)
    else (s, .waiting none)
  | .waiting found, .observe readable =>
    if s.locked then (s, .waiting found)
    else if readable ∧ s.intent.revision ≠ 0 then (s, .observed s.intent)
    else (s, .unavailable found)
  | .unavailable found, .withhold recorded =>
    match found with
    | some ⟨.withheld, none⟩ => (s, .ended none)
    | _ =>
      if recorded then
        ({ s with stored := s.record d.attemptID .withheld 0 }, .ended (some .withheld))
      else (s, .ended none)
  | .observed o, .decide =>
    (s, if s.allows o then .sending o else .suppressing o)
  | .suppressing o, .persist committed failed =>
    if committed ∨ failed then
      (s.persisted d.attemptID o.revision committed failed, .suppressed o)
    else (s, .suppressing o)
  | .sending o, .answer => (s, .answered o)
  | .answered o, .settle delivered =>
    if delivered then
      ({ s with stored := s.record d.attemptID .delivered o.revision }, .ended (some .delivered))
    else (s, .ended none)
  | phase, _ => (s, phase)

inductive Event
  /-- The controller writes another position. -/
  | write (enabled : Bool)
  /-- `Stop` calls `beginStop` for the intent it has disabled. -/
  | stop
  | cancel
  /-- The writer of `beginStop` has the lock. -/
  | acquire
  | release
  | begin (attemptID : Nat) (mode : Mode)
  | run (index : Nat) (input : Input)
  | restart

def step (s : System) : Event → System
  | .write enabled =>
    if s.stopping = none then { s with intent := ⟨enabled, s.intent.revision + 1⟩ } else s
  | .stop =>
    if s.stopping = none ∧ s.intent.enabled = false ∧ s.intent.revision ≠ 0 then
      { s with stopping := some s.intent.revision, disabledRevision := s.intent.revision }
    else s
  | .cancel => if s.locked then s else { s with stopping := none }
  | .acquire =>
    match s.stopping with
    | none => s
    | some revision =>
      if s.locked = true ∨ s.deliveries.any fun d => d.phase.reads.isSome then s
      else if s.failures.any fun f => f.2 ≤ revision then { s with stopping := none }
      else { s with locked := true, stopped := revision :: s.stopped }
  | .release => if s.locked then { s with locked := false, stopping := none } else s
  | .begin attemptID mode => { s with deliveries := ⟨attemptID, mode, .begun⟩ :: s.deliveries }
  | .run index input =>
    match s.deliveries[index]? with
    | none => s
    | some d => { (run s d input).1 with
        deliveries := s.deliveries.set index { d with phase := (run s d input).2 } }
  | .restart =>
    { s with
      stopping := none, locked := false, disabledRevision := 0, failures := [], deliveries := [] }

def reached (events : List Event) : System := exec step {} events

/-! ## 2. The invariant -/

/-- What holds of an observation: it is not newer than the intent, and a stop that has returned for
it found the intent disabled. -/
def Read (s : System) (o : OCIIntentObservation) : Prop :=
  o.revision ≤ s.intent.revision ∧ ∀ r ∈ s.stopped, o.revision ≤ r → o.enabled = false

/-- The spool has the completion as suppressed, unless another call for the attempt has recorded
since that it was delivered or withheld. -/
def Marked (s : System) (attemptID : Nat) : Prop :=
  (∃ revision, s.stored attemptID = some ⟨.suppressed, revision⟩) ∨
    ∃ d ∈ s.deliveries, d.attemptID = attemptID ∧ ∃ disposition, d.phase = .ended (some disposition)

/-- The completion is stored as suppressed, or a failure to store that is on record. -/
def Withheld (s : System) (attemptID revision : Nat) : Prop :=
  (∃ kept, s.stored attemptID = some ⟨.suppressed, kept⟩) ∨ (attemptID, revision) ∈ s.failures

theorem record_suppressed (s : System) (attemptID revision : Nat) :
    ∃ kept, s.record attemptID .suppressed revision attemptID = some ⟨.suppressed, kept⟩ := by
  simp only [System.record, if_true, recordCompletionDisposition]
  split <;> exact ⟨_, rfl⟩

theorem withheld_persisted {revision : Nat} {committed failed : Bool}
    (hdone : committed = true ∨ failed = true) :
    Withheld (s.persisted attemptID revision committed failed) attemptID revision := by
  rcases hdone with rfl | rfl
  · exact .inl (record_suppressed s attemptID revision)
  · exact .inr List.mem_cons_self

/-- The suppression of the attempt is durable, or its failure is on record. -/
def Classified (s : System) (attemptID : Nat) : Prop :=
  Marked s attemptID ∨ ∃ f ∈ s.failures, f.1 = attemptID

def Sane (s : System) (d : Delivery) : Prop :=
  match d.phase with
  | .observed o | .suppressing o => Read s o
  | .sending o => Read s o ∧ o.enabled = true
  | .suppressed _ => Classified s d.attemptID
  | _ => True

theorem Sane.reads (h : Sane s d) (ho : d.phase.reads = some o) : Read s o := by
  obtain ⟨_, _, phase⟩ := d
  cases phase with
  | observed | suppressing =>
    cases ho
    exact h
  | sending =>
    cases ho
    exact h.1
  | _ => cases ho

theorem Sane.mono (h : Sane s d) (hr : ∀ o, d.phase.reads = some o → Read s o → Read s' o)
    (hc : Classified s d.attemptID → Classified s' d.attemptID) : Sane s' d := by
  obtain ⟨_, _, phase⟩ := d
  cases phase with
  | observed | suppressing => exact hr _ rfl h
  | sending => exact ⟨hr _ rfl h.1, h.2⟩
  | suppressed => exact hc h
  | _ => trivial

structure Inv (s : System) : Prop where
  stopping : ∀ r, s.stopping = some r → r = s.intent.revision ∧ s.intent.enabled = false
  stopped : ∀ r ∈ s.stopped, r ≤ s.intent.revision ∧
    (s.intent.revision ≤ r → s.intent.enabled = false)
  failed : ∀ f ∈ s.failures, f.2 ≤ s.intent.revision
  sane : ∀ d ∈ s.deliveries, Sane s d

section Call
variable {i : Nat} {phase : Phase} {stored : Nat → Option Receipt}
  {failures : List (Nat × Nat)} (hd : s.deliveries[i]? = some d)
  (hended : ∀ recorded, d.phase = .ended recorded → phase = .ended recorded)
  (hstored : ∀ id, stored id = s.stored id ∨ id = d.attemptID ∧
    ((∃ revision, stored id = some ⟨.suppressed, revision⟩) ∨
      ∃ disposition, phase = .ended (some disposition)))
include hd hended hstored

/-- A call takes no mark away: it records a suppression, or is over and says what it recorded. -/
theorem Marked.set (h : Marked s attemptID) :
    Marked { s with deliveries := s.deliveries.set i { d with phase }, stored, failures }
      attemptID := by
  have hlt : i < s.deliveries.length := (List.getElem?_eq_some_iff.mp hd).1
  rcases h with ⟨revision, hrev⟩ | ⟨d', hd', hid, disposition, hphase⟩
  · rcases hstored attemptID with hsame | ⟨rfl, hnow | ⟨disposition, hphase⟩⟩
    · exact .inl ⟨revision, hsame.trans hrev⟩
    · exact .inl hnow
    · exact .inr ⟨{ d with phase }, List.mem_set hlt _, rfl, disposition, hphase⟩
  · obtain ⟨j, hj⟩ := List.getElem?_of_mem hd'
    refine .inr ⟨d', List.mem_of_getElem? (i := j) ?_, hid, disposition, hphase⟩
    by_cases hij : i = j
    · subst hij
      obtain rfl := Option.mem_unique hd hj
      rw [List.getElem?_set_self hlt, hended _ hphase, ← hphase]
    · rw [List.getElem?_set_ne hij, hj]

theorem Inv.set (h : Inv s) (hsane : Sane s { d with phase }) :
    Inv { s with deliveries := s.deliveries.set i { d with phase }, stored } := by
  have hkept : ∀ d', Sane s d' →
      Sane { s with deliveries := s.deliveries.set i { d with phase }, stored } d' :=
    fun d' h' => h'.mono (fun _ _ hr => hr) (Or.imp_left (Marked.set hd hended hstored))
  refine ⟨h.stopping, h.stopped, h.failed, fun d' hd' => ?_⟩
  rcases List.mem_or_eq_of_mem_set hd' with hold | rfl
  · exact hkept d' (h.sane d' hold)
  · exact hkept _ hsane

end Call

theorem Inv.persist (h : Inv s) {i : Nat} (hd : s.deliveries[i]? = some d)
    (hphase : d.phase = .suppressing o) {committed failed : Bool}
    (hdone : committed = true ∨ failed = true) :
    Inv { s.persisted d.attemptID o.revision committed failed with
      deliveries := s.deliveries.set i { d with phase := .suppressed o } } := by
  have hread : Read s o := (h.sane d (List.mem_of_getElem? hd)).reads (congrArg Phase.reads hphase)
  let s' := s.persisted d.attemptID o.revision committed failed
  have hstored : ∀ id, s'.stored id = s.stored id ∨ id = d.attemptID ∧
      ((∃ revision, s'.stored id = some ⟨.suppressed, revision⟩) ∨
        ∃ disposition, Phase.suppressed o = .ended (some disposition)) := by
    intro id
    cases committed
    · exact .inl rfl
    · by_cases hid : id = d.attemptID
      · subst hid
        exact .inr ⟨rfl, .inl (record_suppressed s d.attemptID o.revision)⟩
      · exact .inl (if_neg hid)
  refine ⟨h.stopping, h.stopped, fun f hf => ?_, fun d' hd' => ?_⟩
  · rcases List.mem_append.mp hf with hnew | hold
    · cases failed
      · cases hnew
      · rw [List.mem_singleton.mp hnew]
        exact hread.1
    · exact h.failed f (List.mem_filter.mp hold).1
  -- the attempt is marked or its failure is new; nothing is taken from another
  · have hown : Classified { s.persisted d.attemptID o.revision committed failed with
        deliveries := s.deliveries.set i { d with phase := .suppressed o } } d.attemptID := by
      exact (withheld_persisted hdone).imp .inl fun hf => ⟨_, hf, rfl⟩
    rcases List.mem_or_eq_of_mem_set hd' with hold | rfl
    · refine (h.sane d' hold).mono (fun _ _ hr => hr) fun hc => ?_
      by_cases hid : d'.attemptID = d.attemptID
      · rw [hid]
        exact hown
      · refine hc.imp (Marked.set (s := s) hd (by simp [hphase]) hstored) ?_
        rintro ⟨f, hf, hfid⟩
        refine ⟨f, List.mem_append_right _ (List.mem_filter.mpr ⟨hf, ?_⟩), hfid⟩
        simpa [hfid] using hid
    · exact hown

theorem Inv.run (h : Inv s) {i : Nat} (hd : s.deliveries[i]? = some d) (input : Input) :
    Inv { (run s d input).1 with
      deliveries := s.deliveries.set i { d with phase := (run s d input).2 } } := by
  have hsane := h.sane d (List.mem_of_getElem? hd)
  -- what a call that is over has recorded is its own, and it says so
  have hrec : ∀ disposition revision id,
      s.record d.attemptID disposition revision id = s.stored id ∨ id = d.attemptID ∧
        ((∃ revision', s.record d.attemptID disposition revision id =
          some ⟨.suppressed, revision'⟩) ∨
        ∃ recorded, Phase.ended (some disposition) = .ended (some recorded)) := by
    intro disposition revision id
    by_cases hid : id = d.attemptID
    · exact .inr ⟨hid, .inr ⟨_, rfl⟩⟩
    · exact .inl (if_neg hid)
  unfold CompletionGate.run
  split
  next hp =>
    have hrest : ∀ {phase}, Sane s { d with phase } →
        Inv { s with deliveries := s.deliveries.set i { d with phase } } :=
      fun hnew => h.set hd (by simp [hp]) (fun _ => .inl rfl) hnew
    split
    · split <;> exact hrest trivial
    · exact hrest trivial
  next hp =>
    split
    · exact h.set hd (by simp [hp]) (fun _ => .inl rfl) trivial
    · split
      -- what is observed is the intent
      · exact h.set hd (by simp [hp]) (fun _ => .inl rfl)
          ⟨Nat.le_refl _, fun r hr => (h.stopped r hr).2⟩
      · exact h.set hd (by simp [hp]) (fun _ => .inl rfl) trivial
  next hp =>
    split
    · exact h.set hd (by simp [hp]) (fun _ => .inl rfl) trivial
    · split
      · have hnew := h.set hd (by simp [hp]) (hrec .withheld 0) trivial
        exact hnew
      · exact h.set hd (by simp [hp]) (fun _ => .inl rfl) trivial
  next o hp =>
    have hr : Read s o := hsane.reads (congrArg Phase.reads hp)
    split
    next hall =>
      exact h.set hd (by simp [hp]) (fun _ => .inl rfl) ⟨hr, (Bool.and_eq_true_iff.mp hall).1⟩
    · exact h.set hd (by simp [hp]) (fun _ => .inl rfl) hr
  next o _ _ hp =>
    split
    next hdone => exact h.persist hd hp hdone
    · exact h.set hd (by simp [hp]) (fun _ => .inl rfl) (hsane.reads (congrArg Phase.reads hp))
  next o hp => exact h.set hd (by simp [hp]) (fun _ => .inl rfl) trivial
  next o _ hp =>
    split
    · have hnew := h.set hd (by simp [hp]) (hrec .delivered o.revision) trivial
      exact hnew
    · exact h.set hd (by simp [hp]) (fun _ => .inl rfl) trivial
  · exact h.set hd (fun _ he => he) (fun _ => .inl rfl) hsane

theorem inv_step (h : Inv s) (e : Event) : Inv (step s e) := by
  cases e with
  | write enabled =>
    unfold step
    dsimp only
    split
    next hidle =>
      refine ⟨fun r hr => ?_, fun r hr => ?_, fun f hf => Nat.le_succ_of_le (h.failed f hf),
        fun d hd => (h.sane d hd).mono (fun o _ hr => ⟨Nat.le_succ_of_le hr.1, hr.2⟩) id⟩
      · rw [hidle] at hr
        cases hr
      · have hle := (h.stopped r hr).1
        refine ⟨Nat.le_succ_of_le hle, fun hgt => ?_⟩
        dsimp only at hgt
        omega
    · exact h
  | stop =>
    unfold step
    dsimp only
    split
    next hoff =>
      refine ⟨fun r hr => ?_, h.stopped, h.failed, h.sane⟩
      cases hr
      exact ⟨rfl, hoff.2.1⟩
    · exact h
  | cancel =>
    unfold step
    dsimp only
    split
    · exact h
    · exact ⟨nofun, h.stopped, h.failed, h.sane⟩
  | acquire =>
    unfold step
    dsimp only
    split
    · exact h
    next revision hstop =>
      obtain ⟨rfl, hoff⟩ := h.stopping revision hstop
      split
      · exact h
      next hfree =>
        split
        · exact ⟨nofun, h.stopped, h.failed, h.sane⟩
        refine ⟨h.stopping, fun r hr => ?_, h.failed, fun d hd => ?_⟩
        · rcases List.mem_cons.mp hr with rfl | hr
          · exact ⟨Nat.le_refl _, fun _ => hoff⟩
          · exact h.stopped r hr
        -- no call has the gate
        · refine (h.sane d hd).mono (fun o ho _ => absurd (.inr ?_) hfree) id
          rw [List.any_eq_true]
          exact ⟨d, hd, by rw [ho]; rfl⟩
  | release =>
    unfold step
    dsimp only
    split
    · exact ⟨nofun, h.stopped, h.failed, h.sane⟩
    · exact h
  | begin attemptID mode =>
    refine ⟨h.stopping, h.stopped, h.failed, fun d hd => ?_⟩
    rcases List.mem_cons.mp hd with rfl | hd
    · trivial
    · refine (h.sane d hd).mono (fun _ _ hr => hr) (Or.imp_left (Or.imp_right ?_))
      rintro ⟨d', hd', hended⟩
      exact ⟨d', List.mem_cons_of_mem _ hd', hended⟩
  | run index input =>
    unfold step
    dsimp only
    split
    · exact h
    next hd => exact h.run hd input
  | restart => exact ⟨nofun, h.stopped, nofun, nofun⟩

theorem inv_start : Inv {} := ⟨nofun, nofun, nofun, nofun⟩

theorem inv_reached (events : List Event) : Inv (reached events) :=
  exec_invariant (P := Inv) (fun _ e h => inv_step h e) inv_start events

/-- The call has returned, or is a replay that has read nothing yet. -/
def Idle (d : Delivery) : Prop :=
  match d.phase with
  | .ended _ | .suppressed _ => True
  | .begun => d.mode = .replay
  | _ => False

/-- The attempt is marked suppressed, and no call for it is under way but replays that have just
begun. -/
structure Quiet (attemptID : Nat) (s : System) : Prop where
  stored : ∃ revision, s.stored attemptID = some ⟨.suppressed, revision⟩
  idle : ∀ d ∈ s.deliveries, d.attemptID = attemptID → Idle d

/-- Of this attempt only replays begin. -/
def Replays (attemptID : Nat) : Event → Prop
  | .begin id mode => id = attemptID → mode = .replay
  | _ => True

-- A completion that observed the disabled intent is stored as suppressed before the stop returns.
example :
    let s := reached [.write true, .begin 1 .live, .run 0 .look, .write false, .stop,
      .run 0 (.observe true), .acquire, .run 0 .decide, .run 0 (.persist true false), .acquire]
    s.stopped = [2] ∧ s.stored 1 = some ⟨.suppressed, some 2⟩ := by
  exact ⟨rfl, rfl⟩

end Wefty.CompletionGate
