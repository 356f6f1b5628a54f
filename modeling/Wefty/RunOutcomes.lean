/-
How runs end, and what an ended run can still do.

Two results about every reachable ledger (`Wefty.LedgerStore`), both argued once for each
kind of change (`Wefty.LedgerChanges`):

* An ended run is final: its state, reason and finish time never change again, no bearer is
  staged for it, and its token has an expiry that nothing removes. Two of the five transitions
  that end a run leave the staged bearer alone and rely on an earlier dispatch having dropped
  it, so the invariant (`Sealed`) also says that a dispatched run has none.
* Success closes the lineage: a succeeded run has only succeeded descendants. The projection
  counts the children in the transaction that ends the parent, and a child is only created
  under a parent that has not ended, in the transaction that creates it; the finality of the
  children does the rest.
-/
import Wefty.LedgerChanges

set_option autoImplicit false

namespace Wefty.RunOutcomes

open Relation Tables RunJobLink LinkRules Dispatch LedgerStore DispatchSteps LedgerChanges

variable {admits : APIError → Prop} {op : LedgerStore.Op} {success : Prop} {run run' : Run}
variable {store : Store} {runID : String}

/-! ## 1. Ended runs are final -/

structure Sealed (run : Run) : Prop where
  ended : run.status.terminal = true → run.outbox.tokenDelivery = none
  expires : run.status.terminal = true → ∀ token, run.token = some token →
    token.expiresNS.isSome = true
  dispatched : run.outbox.dispatchedNS.isSome = true → run.outbox.tokenDelivery = none

structure Final (run run' : Run) : Prop where
  status : run'.status = run.status
  reason : run'.failureReason = run.failureReason
  finished : run'.finishedNS = run.finishedNS
  token : run'.token = run.token

theorem Final.refl (run : Run) : Final run run := ⟨rfl, rfl, rfl, rfl⟩

theorem Final.trans {a b c : Run} (h : Final a b) (h' : Final b c) : Final a c :=
  ⟨h'.status.trans h.status, h'.reason.trans h.reason, h'.finished.trans h.finished,
    h'.token.trans h.token⟩

theorem linkTerminalRun_final (run : Run) (jobID : String) :
    Final run (run.linkTerminalRun jobID) := by
  unfold Run.linkTerminalRun
  split <;> exact ⟨rfl, rfl, rfl, rfl⟩

theorem link_final (run : Run) (jobID : String) (evidence : Evidence) (now : Int) :
    Final run (run.link jobID evidence now) ∨
      run.status.terminal = false ∧ (run.link jobID evidence now).status.terminal = false := by
  unfold Run.link
  by_cases hs : run.status.submittable = true
  · rw [if_pos hs]
    exact Or.inr ⟨RunState.not_terminal_of_submittable hs, rfl⟩
  · rw [if_neg hs]
    refine Or.inl (Final.trans ?_ (linkTerminalRun_final _ jobID))
    exact ⟨rfl, rfl, rfl, rfl⟩

/-- A linked outbox has no bearer: it is dropped with the acknowledgement, and where the outbox
had been marked dispatched before, it was dropped then. -/
theorem linkedOutbox_unstaged (h : Sealed run) {jobID : String} (evidence : Evidence) (now : Int)
    (hbox : ∀ other, run.outbox.jobID = some other → other = jobID) :
    (run.linkedOutbox jobID evidence now).tokenDelivery = none := by
  have hmark : run.acknowledges jobID = false → run.outbox.tokenDelivery = none := by
    rw [acknowledges_eq hbox]
    intro hack
    exact h.dispatched (by simpa [Option.isSome_iff_ne_none] using hack)
  unfold Run.linkedOutbox
  cases hack : run.acknowledges jobID with
  | true =>
    simp only [if_true]
    split <;> rfl
  | false =>
    simp only [Bool.false_eq_true, if_false]
    split
    · rfl
    · exact hmark hack

/-- **A change leaves ended runs as they ended**, and every run sealed. -/
theorem Sealed.change (hs : Sealed run) (h : Change admits success run run') :
    Sealed run' ∧ (run.status.terminal = true → Final run run') := by
  cases h with
  | quiet h =>
    constructor
    · constructor
      · intro ht
        rw [h.delivery]
        rcases h.status with hsame | ⟨-, hopen⟩
        · exact hs.ended (hsame ▸ ht)
        · rw [hopen] at ht
          cases ht
      · intro ht
        rw [h.token]
        rcases h.status with hsame | ⟨-, hopen⟩
        · exact hs.expires (hsame ▸ ht)
        · rw [hopen] at ht
          cases ht
      · rw [h.outbox.dispatched, h.delivery]
        exact hs.dispatched
    · intro ht
      refine ⟨?_, h.reason ht, h.finished ht, h.token⟩
      rcases h.status with hsame | ⟨hopen, -⟩
      · exact hsame
      · rw [hopen] at ht
        cases ht
  | unstaged => exact ⟨⟨fun _ => rfl, hs.expires, fun _ => rfl⟩, fun _ => ⟨rfl, rfl, rfl, rfl⟩⟩
  | diagnosed cause h =>
    exact ⟨⟨hs.ended, hs.expires, hs.dispatched⟩, fun _ => ⟨rfl, rfl, rfl, rfl⟩⟩
  | begun h =>
    -- a submit begins only on an open run, and leaves it open and undispatched
    refine ⟨⟨?_, ?_, ?_⟩, ?_⟩
    · intro ht
      rw [h.after] at ht
      cases ht
    · intro ht
      rw [h.after] at ht
      cases ht
    · intro hd
      rw [h.undispatched] at hd
      cases hd
    · intro ht
      have hclo := closed_iff.mpr (Or.inl ht)
      rw [h.before] at hclo
      cases hclo
  | linked jobID evidence now hne hconf =>
    obtain ⟨-, -, -, -, hout, -⟩ := link_fields run jobID evidence now
    have hunst : (run.link jobID evidence now).outbox.tokenDelivery = none := by
      rw [hout]
      exact linkedOutbox_unstaged hs evidence now (unconflicted hconf).2
    rcases link_final run jobID evidence now with hfinal | ⟨hopen, hopen'⟩
    · refine ⟨⟨fun _ => hunst, fun ht => ?_, fun _ => hunst⟩, fun _ => hfinal⟩
      rw [hfinal.token]
      exact hs.expires (hfinal.status ▸ ht)
    · refine ⟨⟨fun _ => hunst, fun ht => ?_, fun _ => hunst⟩, fun ht => ?_⟩
      · rw [hopen'] at ht
        cases ht
      · rw [hopen] at ht
        cases ht
  | migrated jobID hjob =>
    have hfinal := linkTerminalRun_final run jobID
    have hout := (linkTerminalRun_fields run jobID).2.2.2.2.1
    refine ⟨⟨?_, ?_, ?_⟩, fun _ => hfinal⟩
    · rw [hfinal.status, hout]
      exact hs.ended
    · rw [hfinal.status, hfinal.token]
      exact hs.expires
    · rw [hout]
      exact hs.dispatched
  | ended h =>
    have hunst : run'.outbox.tokenDelivery = none := by
      rcases h.delivery with hnone | ⟨hdisp, hsame⟩
      · exact hnone
      · rw [hsame]
        exact hs.dispatched hdisp
    refine ⟨⟨fun _ => hunst, fun _ => h.expires, fun _ => hunst⟩, fun ht => ?_⟩
    rw [h.live] at ht
    cases ht

theorem Sealed.changes (hs : Sealed run) (h : Changes admits success run run') :
    Sealed run' ∧ (run.status.terminal = true → Final run run') := by
  induction h with
  | refl => exact ⟨hs, fun _ => Final.refl run⟩
  | tail _ hlast ih =>
    obtain ⟨hmid, hfinal⟩ := ih
    obtain ⟨hend, hlastFinal⟩ := hmid.change hlast
    refine ⟨hend, fun ht => ?_⟩
    have hf := hfinal ht
    exact hf.trans (hlastFinal (hf.status ▸ ht))

def AllSealed (ledger : Ledger) : Prop :=
  ∀ runID run, ledger.runs.find runID = some run → Sealed run

theorem newRun_sealed (request : CreateRun) (now : Int) : Sealed (newRun request now) where
  ended := fun _ => rfl
  expires := fun h => nomatch h
  dispatched := fun _ => rfl

/-- What a run of a ledger looks like after more operations: it is there, none of what `Fixed`
speaks of was lost, and if it had ended it is as it was. -/
structure Continues (run run' : Run) : Prop where
  fixed : Fixed run run'
  final : run.status.terminal = true → Final run run'

theorem Continues.refl (run : Run) : Continues run run :=
  ⟨Fixed.refl run, fun _ => Final.refl run⟩

theorem Continues.trans {a b c : Run} (h : Continues a b) (h' : Continues b c) : Continues a c where
  fixed := h.fixed.trans h'.fixed
  final := fun ht => (h.final ht).trans (h'.final ((h.final ht).status ▸ ht))

/-- **One operation** keeps every run sealed and every ended run as it ended. -/
theorem step_sealed (hs : AllSealed store.ledger) (op : LedgerStore.Op) :
    AllSealed (store.step op).ledger ∧ ∀ runID run, store.ledger.runs.find runID = some run →
      ∃ run', (store.step op).ledger.runs.find runID = some run' ∧ Continues run run' := by
  have hstep := step_evolves (fun _ => True) store op fun _ _ => Or.inl trivial
  refine ⟨hstep.all newRun_sealed (fun h hchg => (h.changes hchg).1) hs, fun runID run hr => ?_⟩
  obtain ⟨run', hr', hchg⟩ := hstep.old runID run hr
  exact ⟨run', hr', Changes.fixed hchg, ((hs runID run hr).changes hchg).2⟩

theorem exec_sealed (hs : AllSealed store.ledger) (ops : List LedgerStore.Op) :
    AllSealed (Runs.exec Store.step store ops).ledger ∧
      ∀ runID run, store.ledger.runs.find runID = some run →
        ∃ run', (Runs.exec Store.step store ops).ledger.runs.find runID = some run' ∧
          Continues run run' := by
  induction ops generalizing store with
  | nil => exact ⟨hs, fun runID run hr => ⟨run, hr, Continues.refl run⟩⟩
  | cons op ops ih =>
    obtain ⟨hs', hkeep⟩ := step_sealed hs op
    obtain ⟨hend, hrest⟩ := ih hs'
    refine ⟨hend, fun runID run hr => ?_⟩
    obtain ⟨run', hr', hc⟩ := hkeep runID run hr
    obtain ⟨run'', hr'', hc'⟩ := hrest runID run' hr'
    exact ⟨run'', hr'', hc.trans hc'⟩

theorem reached_sealed (ops : List LedgerStore.Op) : AllSealed (Store.reached ops).ledger := by
  have hstart : AllSealed Store.start.ledger := by
    intro runID run hr
    cases hr
  exact (exec_sealed hstart ops).1

theorem reached_continues {before : List LedgerStore.Op}
    (hr : (Store.reached before).ledger.runs.find runID = some run) (after : List LedgerStore.Op) :
    ∃ run', (Store.reached (before ++ after)).ledger.runs.find runID = some run' ∧
      Continues run run' := by
  unfold Store.reached at hr ⊢
  rw [Runs.exec_append]
  exact (exec_sealed (reached_sealed before) after).2 runID run hr

/-- **Ended runs are final and hold no live secret.** In every reachable ledger an ended run has
no staged bearer and no token without an expiry, and whatever operations follow, its state,
reason, finish time and token (with its expiry) stay as they are and no bearer is staged for
it. A run marked dispatched has no staged bearer either. -/
theorem ended_run_final (before after : List LedgerStore.Op) (runID : String) (run : Run)
    (hr : (Store.reached before).ledger.runs.find runID = some run) :
    (run.status.terminal = true →
      run.outbox.tokenDelivery = none ∧
        (∀ token, run.token = some token → token.expiresNS.isSome = true) ∧
        ∃ run', (Store.reached (before ++ after)).ledger.runs.find runID = some run' ∧
          run'.status = run.status ∧ run'.failureReason = run.failureReason ∧
          run'.finishedNS = run.finishedNS ∧ run'.token = run.token ∧
          run'.outbox.tokenDelivery = none) ∧
      (run.outbox.dispatchedNS.isSome = true → run.outbox.tokenDelivery = none) := by
  have hs := reached_sealed before runID run hr
  refine ⟨fun ht => ⟨hs.ended ht, hs.expires ht, ?_⟩, hs.dispatched⟩
  obtain ⟨run', hr', hc⟩ := reached_continues hr after
  have hf := hc.final ht
  refine ⟨run', hr', hf.status, hf.reason, hf.finished, hf.token, ?_⟩
  exact (reached_sealed _ runID run' hr').ended (hf.status ▸ ht)

/-- A request for a run of one script, for the runs below. -/
def scriptRequest (runID key parentRunID : String) : CreateRun :=
  ⟨runID, "actor", key, "hash", parentRunID, none, .script [] "" [] 0, [], "", none, false, false,
    false⟩

def refusedOps : List LedgerStore.Op :=
  [.createRun (scriptRequest "run_a" "key_a" "") 0,
    .transact "run_a" (.beginDispatch "random" 1),
    .transact "run_a" (.failDispatch ⟨"invalid_request", "no such image", false, "", none⟩ 2 60)]

def lateAcknowledgement : LedgerStore.Op :=
  .transact "run_a" (.completeDispatch "job_a" .acknowledgement none 3)

theorem ended_run_final_refused :
    ∃ run, (Store.reached refusedOps).ledger.runs.find "run_a" = some run ∧
      run.status.terminal = true ∧ run.token.isSome = true ∧ run.outbox.tokenDelivery = none ∧
      ∃ run', (Store.reached (refusedOps ++ [lateAcknowledgement])).ledger.runs.find "run_a" =
        some run' ∧ run'.status = run.status ∧ run'.token = run.token := by
  refine ⟨_, rfl, rfl, rfl, ?_⟩
  obtain ⟨hunst, -, run', hr', hstat, -, -, htoken, -⟩ :=
    (ended_run_final refusedOps [lateAcknowledgement] "run_a" _ rfl).1 rfl
  exact ⟨hunst, run', hr', hstat, htoken⟩

/-! ## 2. Success closes the lineage -/

theorem succeeded_of_change (h : Change admits success run run') (hs : run'.status = .succeeded) :
    run.status = .succeeded ∨ success := by
  cases h with
  | quiet h =>
    rcases h.status with hsame | ⟨-, hopen⟩
    · exact Or.inl (hsame.symm.trans hs)
    · rw [hs] at hopen
      cases hopen
  | unstaged => exact Or.inl hs
  | diagnosed cause h => exact Or.inl hs
  | begun h =>
    have hopen := h.after
    rw [hs] at hopen
    cases hopen
  | linked jobID evidence now hne hconf =>
    rcases link_final run jobID evidence now with hfinal | ⟨-, hopen⟩
    · exact Or.inl (hfinal.status.symm.trans hs)
    · rw [hs] at hopen
      cases hopen
  | migrated jobID hjob => exact Or.inl ((linkTerminalRun_final run jobID).status.symm.trans hs)
  | ended h => exact Or.inr (h.success hs)

theorem succeeded_of_changes (h : Changes admits success run run') (hs : run'.status = .succeeded) :
    run.status = .succeeded ∨ success := by
  induction h with
  | refl => exact Or.inl hs
  | tail _ hlast ih =>
    rcases succeeded_of_change hlast hs with hmid | hsuccess
    · exact ih hmid
    · exact Or.inr hsuccess

theorem children_succeeded {ledger : Ledger} (h : Passes ledger runID run) {childID : String}
    {child : Run} (hchild : ledger.runs.find childID = some child)
    (hof : Ledger.childOf runID child = true) : child.status = .succeeded := by
  have hmem := Table.mem_of_find hchild
  have hactv := List.countP_eq_zero.mp h.active child hmem
  have hfail := List.countP_eq_zero.mp h.failed child hmem
  rw [hof, Bool.true_and] at hactv hfail
  cases hstat : child.status <;> simp_all [RunState.terminal]

def LineageClosed (ledger : Ledger) : Prop :=
  ∀ parentID parent childID child, ledger.runs.find parentID = some parent →
    parent.status = .succeeded → ledger.runs.find childID = some child →
    Ledger.childOf parentID child = true → child.status = .succeeded

theorem childOf_fixed {parentID : String} (h : Fixed run run') :
    Ledger.childOf parentID run' = Ledger.childOf parentID run := by
  unfold Ledger.childOf
  rw [h.intent]

/-- **One operation** keeps the lineage of succeeded runs closed. -/
theorem step_lineage (hs : AllSealed store.ledger) (hl : LineageClosed store.ledger)
    (op : LedgerStore.Op) : LineageClosed (store.step op).ledger := by
  have hstep := step_evolves (fun _ => True) store op fun _ _ => Or.inl trivial
  intro parentID parent' childID child' hp' hsucc hc' hof
  -- a succeeded run is not a new one
  obtain ⟨parent, hp, hpchanges⟩ : ∃ parent, store.ledger.runs.find parentID = some parent ∧
      Changes (fun _ => True) (op.projectsSuccess parentID = true ∧
        Passes store.ledger parentID parent) parent parent' := by
    cases hp : store.ledger.runs.find parentID with
    | none =>
      obtain ⟨request, now, rfl, -⟩ := hstep.new parentID parent' hp' hp
      cases hsucc
    | some parent => exact ⟨parent, rfl, hstep.kept hp hp'⟩
  cases hc : store.ledger.runs.find childID with
  | none =>
    -- a new child: its parent had not ended, and this operation ends none
    obtain ⟨request, now, rfl, hlive, hnone⟩ := hstep.new childID child' hc' hc
    rcases succeeded_of_changes hpchanges hsucc with hold | hnew
    · have hpar : request.parentRunID ≠ "" ∧ request.parentRunID = parentID := by
        obtain ⟨hne, heq⟩ := Bool.and_eq_true_iff.mp hof
        exact ⟨of_decide_eq_true hne, of_decide_eq_true heq⟩
      unfold Ledger.parentLive at hlive
      rw [hpar.2, hp] at hlive
      simp [hold, RunState.terminal, ← hpar.2, hpar.1] at hlive
    · exact absurd hnew (hnone parentID parent)
  | some child =>
    have hchg := hstep.kept hc hc'
    rw [childOf_fixed (Changes.fixed hchg)] at hof
    -- the child had succeeded before, and stays so
    have hchild : child.status = .succeeded := by
      rcases succeeded_of_changes hpchanges hsucc with hold | ⟨-, hpss⟩
      · exact hl parentID parent childID child hp hold hc hof
      · exact children_succeeded hpss hc hof
    have hterm : child.status.terminal = true := by rw [hchild]; rfl
    rw [(((hs childID child hc).changes hchg).2 hterm).status, hchild]

theorem reached_lineage (ops : List LedgerStore.Op) : LineageClosed (Store.reached ops).ledger := by
  have hboth : AllSealed (Store.reached ops).ledger ∧ LineageClosed (Store.reached ops).ledger := by
    unfold Store.reached
    refine Runs.exec_invariant (P := fun store : Store => AllSealed store.ledger ∧
      LineageClosed store.ledger) ?_ ?_ ops
    · intro store op h
      exact ⟨(step_sealed h.1 op).1, step_lineage h.1 h.2 op⟩
    · refine ⟨fun runID run hr => ?_, fun parentID parent childID child hp => ?_⟩
      · cases hr
      · cases hp
  exact hboth.2

inductive Descends (ledger : Ledger) (ancestorID : String) : String → Prop
  | child {runID : String} {run : Run} (hr : ledger.runs.find runID = some run)
      (hof : Ledger.childOf ancestorID run = true) : Descends ledger ancestorID runID
  | deeper {parentID runID : String} {run : Run} (hp : Descends ledger ancestorID parentID)
      (hr : ledger.runs.find runID = some run) (hof : Ledger.childOf parentID run = true) :
      Descends ledger ancestorID runID

theorem LineageClosed.descendants {ledger : Ledger} (h : LineageClosed ledger) {ancestorID : String}
    {ancestor : Run} (ha : ledger.runs.find ancestorID = some ancestor)
    (hs : ancestor.status = .succeeded) (hd : Descends ledger ancestorID runID) :
    ∃ run, ledger.runs.find runID = some run ∧ run.status = .succeeded := by
  induction hd with
  | child hr hof => exact ⟨_, hr, h _ _ _ _ ha hs hr hof⟩
  | deeper _ hr hof ih =>
    obtain ⟨parent, hp, hps⟩ := ih
    exact ⟨_, hr, h _ _ _ _ hp hps hr hof⟩

/-- A transition to succeeded is a projection of a job that was observed succeeded, onto a run
that passes the ledger's gates. -/
theorem step_succeeds (hr' : (store.step op).ledger.runs.find runID = some run')
    (hs : run'.status = .succeeded) :
    ∃ run, store.ledger.runs.find runID = some run ∧
      (run.status = .succeeded ∨
        op.projectsSuccess runID = true ∧ Passes store.ledger runID run) := by
  have hstep := step_evolves (fun _ => True) store op fun _ _ => Or.inl trivial
  cases hr : store.ledger.runs.find runID with
  | none =>
    obtain ⟨request, now, rfl, -⟩ := hstep.new runID run' hr' hr
    cases hs
  | some run => exact ⟨run, rfl, succeeded_of_changes (hstep.kept hr hr') hs⟩

theorem projectsSuccess_iff :
    op.projectsSuccess runID = true ↔ ∃ jobID state jobFailure now grace,
      op = .transact runID (.projectJobOutcome jobID state .succeeded jobFailure now grace) := by
  constructor
  · intro h
    cases op with
    | transact other txn =>
      obtain ⟨hid, htxn⟩ := Bool.and_eq_true_iff.mp h
      have hid : runID = other := of_decide_eq_true hid
      subst hid
      unfold Txn.projectsSuccess at htxn
      split at htxn
      · exact ⟨_, _, _, _, _, rfl⟩
      · cases htxn
    | _ => cases h
  · rintro ⟨jobID, state, jobFailure, now, grace, rfl⟩
    simp [LedgerStore.Op.projectsSuccess, Txn.projectsSuccess]

/-- The operation is a rejected protocol write of the run, or a gate result of it that failed or
errored. -/
def faults : LedgerStore.Op → String → Bool
  | .transact runID (.rejectProtocolWrite _ _ _), other => runID = other
  | .transact runID (.appendGateResult (some _) _ _), other => runID = other
  | _, _ => false

theorem failRun_fixed (run : Run) (now grace : Int) (reason : String) :
    Fixed run (run.failRun now grace reason) := by
  have hchg : Changes (fun _ => True) True run (run.failRun now grace reason) :=
    failRun_changes
  exact Changes.fixed hchg

theorem faults_counted (hop : faults op runID = true) (hr : store.ledger.runs.find runID = some run)
    (hr' : (store.step op).ledger.runs.find runID = some run') :
    0 < run'.rejectedWrites ∨ 0 < run'.failedGates := by
  unfold faults at hop
  split at hop
  · rename_i _ _ other reason now grace
    have hid : other = runID := of_decide_eq_true hop
    subst hid
    have hfixed := failRun_fixed { run with rejectedWrites := run.rejectedWrites + 1 }
      now grace reason
    have hfnd : (store.step (.transact other
      (.rejectProtocolWrite reason now grace))).ledger.runs.find
        other = some (run.rejectProtocolWrite reason now grace) :=
      find_transact_ok hr rfl hfixed.runID
    rw [hr'] at hfnd
    cases hfnd
    exact Or.inl (Nat.lt_of_lt_of_le (Nat.succ_pos _) hfixed.rejected)
  · rename_i _ _ other reason now grace
    have hid : other = runID := of_decide_eq_true hop
    subst hid
    have hfixed := failRun_fixed { run with failedGates := run.failedGates + 1 } now grace reason
    have hfnd : (store.step
        (.transact other (.appendGateResult (some reason) now grace))).ledger.runs.find other =
        some (run.acceptGate (some reason) now grace) :=
      find_transact_ok hr rfl hfixed.runID
    rw [hr'] at hfnd
    cases hfnd
    exact Or.inr (Nat.lt_of_lt_of_le (Nat.succ_pos _) hfixed.gates)
  · cases hop

theorem no_faults_of_counts {before after : List LedgerStore.Op}
    (hr : (Store.reached (before ++ op :: after)).ledger.runs.find runID = some run)
    (hrejected : run.rejectedWrites = 0) (hgates : run.failedGates = 0)
    (hop : faults op runID = true) : (Store.reached before).ledger.runs.find runID = none := by
  cases hold : (Store.reached before).ledger.runs.find runID with
  | none => rfl
  | some old =>
    obtain ⟨marked, hmark, -⟩ := reached_continues hold [op]
    have hsplit : before ++ op :: after = (before ++ [op]) ++ after := by simp
    rw [hsplit] at hr
    obtain ⟨run', hr', hcont⟩ := reached_continues hmark after
    rw [hr] at hr'
    cases hr'
    rw [Store.reached_snoc] at hmark
    have hle := hcont.fixed.rejected
    have hle' := hcont.fixed.gates
    rcases faults_counted hop hold hmark with hpos | hpos <;> omega

/-- **Success closes the lineage.** In every reachable ledger all runs below a succeeded one
succeeded. A run becomes succeeded only by a projection of a job that was observed succeeded,
in a transaction that finds no rejected protocol write and no failed gate of the run (so no
such operation was made on it since its creation), an accepted envelope if the run requires
one, and only succeeded children. -/
theorem success_closes_lineage (ops : List LedgerStore.Op) : (∀ ancestorID ancestor runID,
      (Store.reached ops).ledger.runs.find ancestorID = some ancestor →
      ancestor.status = .succeeded → Descends (Store.reached ops).ledger ancestorID runID →
      ∃ run, (Store.reached ops).ledger.runs.find runID = some run ∧ run.status = .succeeded) ∧
    ∀ before op after, ops = before ++ op :: after → ∀ runID run',
      (Store.reached (before ++ [op])).ledger.runs.find runID = some run' →
      run'.status = .succeeded →
      ∃ run, (Store.reached before).ledger.runs.find runID = some run ∧
        (run.status = .succeeded ∨
          (∃ jobID state jobFailure now grace,
            op = .transact runID (.projectJobOutcome jobID state .succeeded jobFailure now grace)) ∧
          run.rejectedWrites = 0 ∧ run.failedGates = 0 ∧
          (run.requiredEnvelope = true → 0 < run.acceptedEnvelopes) ∧
          (∀ early earlier late, before = early ++ earlier :: late → faults earlier runID = true →
            (Store.reached early).ledger.runs.find runID = none) ∧
          ∀ childID child, (Store.reached before).ledger.runs.find childID = some child →
            Ledger.childOf runID child = true → child.status = .succeeded) := by
  refine ⟨fun ancestorID ancestor runID ha hs hd =>
    (reached_lineage ops).descendants ha hs hd, ?_⟩
  rintro before op after - runID run' hr' hs
  rw [Store.reached_snoc] at hr'
  obtain ⟨run, hr, hold | ⟨hprojects, hpss⟩⟩ := step_succeeds hr' hs
  · exact ⟨run, hr, Or.inl hold⟩
  · refine ⟨run, hr, Or.inr ⟨projectsSuccess_iff.mp hprojects, hpss.rejected, hpss.gates,
      fun he => Nat.pos_of_ne_zero (hpss.envelope he), ?_, ?_⟩⟩
    · rintro early earlier late rfl hfaults
      exact no_faults_of_counts hr hpss.rejected hpss.gates hfaults
    · exact fun childID child hc hof => children_succeeded hpss hc hof

def dispatchedOps (runID key parentRunID jobID : String) : List LedgerStore.Op :=
  [.createRun (scriptRequest runID key parentRunID) 0,
    .transact runID (.beginDispatch runID 1),
    .transact runID (.completeDispatch jobID .acknowledgement none 2)]

def observedSuccess (runID jobID : String) (state : RunState) : LedgerStore.Op :=
  .transact runID (.projectJobOutcome jobID state .succeeded "" 3 60)

/-- A parent and a child; the parent's job succeeds first, and is observed again once the child
has succeeded. -/
def parentAndChild : List LedgerStore.Op :=
  dispatchedOps "run_a" "key_a" "" "job_a" ++ dispatchedOps "run_b" "key_b" "run_a" "job_b" ++
    [observedSuccess "run_a" "job_a" .queued, observedSuccess "run_a" "job_a" .running,
      observedSuccess "run_b" "job_b" .queued, observedSuccess "run_b" "job_b" .running,
      observedSuccess "run_a" "job_a" .running]

theorem success_closes_lineage_pair :
    ((Store.reached parentAndChild).ledger.runs.find "run_a").map Run.status = some .succeeded ∧
      ∃ run, (Store.reached parentAndChild).ledger.runs.find "run_b" = some run ∧
        run.status = .succeeded := by
  refine ⟨rfl, ?_⟩
  refine (success_closes_lineage parentAndChild).1 "run_a" _ "run_b" rfl rfl ?_
  exact Descends.child rfl rfl

end Wefty.RunOutcomes
