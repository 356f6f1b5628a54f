/-
What the run ledger remembers of a run: what it was created to do, on whose behalf, and from which
run it descends.
-/
import Wefty.CancelDelivery
import Wefty.InflightCap

set_option autoImplicit false

namespace Wefty.RunHistory

open Tables LedgerChanges RunOutcomes Inflight
open Dispatch (Ledger)

/-- What two states have in common, the second being later. -/
structure Kept (s s' : System) : Prop where
  run : ∀ runID run, s.runs.find runID = some run →
    ∃ run', s'.runs.find runID = some run' ∧ Fixed run run'
  trigger : ∀ runID run, s.runs.find runID = some run →
    s'.triggers.find runID = s.triggers.find runID

theorem kept_exec {s : System} (hinv : Inv s) (ops : List Op) :
    Kept s (Runs.exec System.step s ops) := by
  induction ops generalizing s with
  | nil => exact ⟨fun runID run hr => ⟨run, hr, Fixed.refl run⟩, fun _ _ _ => rfl⟩
  | cons op ops ih =>
    have hadv := step_advances hinv op
    obtain ⟨success, hev⟩ := hadv.evolves
    have hrest := ih (hinv.step op)
    constructor
    · intro runID run hr
      obtain ⟨mid, hmid, hchanges⟩ := hev.old runID run hr
      obtain ⟨run', hr', hfixed⟩ := hrest.run runID mid hmid
      exact ⟨run', hr', (Changes.fixed hchanges).trans hfixed⟩
    · intro runID run hr
      obtain ⟨mid, hmid, -⟩ := hev.old runID run hr
      exact (hrest.trigger runID mid hmid).trans (hadv.triggers runID run hr)

theorem reached_kept (ops later : List Op) :
    Kept (System.reached ops) (System.reached (ops ++ later)) := by
  unfold System.reached
  rw [Runs.exec_append]
  exact kept_exec (inv_reached ops) later

/-- **A run is what it was created as.** It stays on record with its dispatch intent and its
provenance, whatever is created, dispatched, reported, canceled and projected later, and no
envelope, rejected write or failed gate of it is forgotten. -/
theorem run_is_what_it_was_created_as (ops later : List Op) :
    let s := System.reached ops
    let s' := System.reached (ops ++ later)
    (∀ runID run, s.runs.find runID = some run → ∃ run', s'.runs.find runID = some run' ∧
      run'.intent = run.intent ∧ run'.requiredEnvelope = run.requiredEnvelope ∧
      run.acceptedEnvelopes ≤ run'.acceptedEnvelopes ∧ run.rejectedWrites ≤ run'.rejectedWrites ∧
      run.failedGates ≤ run'.failedGates) ∧
    ∀ runID run, s.runs.find runID = some run →
      s'.triggers.find runID = s.triggers.find runID := by
  intro s s'
  have hkept : Kept s s' := reached_kept ops later
  refine ⟨fun runID run hr => ?_, hkept.trigger⟩
  obtain ⟨run', hr', hfixed⟩ := hkept.run runID run hr
  exact ⟨run', hr', hfixed.intent, hfixed.requiredEnvelope, hfixed.accepted, hfixed.rejected,
    hfixed.gates⟩

theorem rank_lt {ledger : Ledger} {rank : String → Nat} {ancestorID runID : String}
    (hrank : ∀ runID run, ledger.runs.find runID = some run → ∀ parentID,
      Ledger.childOf parentID run = true → rank parentID < rank runID)
    (h : Descends ledger ancestorID runID) : rank ancestorID < rank runID := by
  induction h with
  | child hr hof => exact hrank _ _ hr _ hof
  | deeper _ hr hof ih => exact ih.trans (hrank _ _ hr _ hof)

/-- **Lineages are a forest that only grows.** A parent is on record before its child, no run
descends from itself, and who descends from whom is never undone. -/
theorem lineages_are_a_forest (ops later : List Op) :
    let ledger := (System.reached ops).store.ledger
    (∀ runID run parentID, ledger.runs.find runID = some run →
      Ledger.childOf parentID run = true → ∃ parent, ledger.runs.find parentID = some parent) ∧
    (∀ runID, ¬ Descends ledger runID runID) ∧
    ∀ ancestorID runID, Descends ledger ancestorID runID →
      Descends (System.reached (ops ++ later)).store.ledger ancestorID runID := by
  intro ledger
  obtain ⟨rank, hrank⟩ := (inv_reached ops).ranked
  have hkept := reached_kept ops later
  refine ⟨fun runID run parentID hr hof => ((hrank runID run hr).2 parentID hof).1, ?_, ?_⟩
  · intro runID h
    exact lt_irrefl _ (rank_lt (fun id run hr parentID hof =>
      ((hrank id run hr).2 parentID hof).2) h)
  intro ancestorID runID h
  induction h with
  | child hr hof =>
    obtain ⟨run', hr', hfixed⟩ := hkept.run _ _ hr
    exact .child hr' ((childOf_fixed hfixed).trans hof)
  | deeper _ hr hof ih =>
    obtain ⟨run', hr', hfixed⟩ := hkept.run _ _ hr
    exact .deeper ih hr' ((childOf_fixed hfixed).trans hof)

/-- **Runs and jobs agree.** In every state of the ledger and of L1, with calls in flight: each job
submitted is what a run was created to do, with its token; a job that a run names is one L1 has
under the run's own dispatch key; and no two runs name the same job. -/
theorem runs_name_their_own_jobs (ops : List Dispatch.Op) :
    let w := Dispatch.World.reached ops
    (∀ job ∈ w.l1, ∃ runID run token, w.ledger.runs.find runID = some run ∧
      run.minted = some token ∧ job.spec = run.intent.jobSpec token) ∧
    (∀ runID run jobID, w.ledger.runs.find runID = some run → run.Names jobID →
      ∃ job ∈ w.l1, job.spec.dispatchKey = Dispatch.dispatchKey runID ∧ job.jobID = jobID) ∧
    ∀ runID runID' run run' jobID, w.ledger.runs.find runID = some run →
      w.ledger.runs.find runID' = some run' → run.Names jobID → run'.Names jobID →
        runID = runID' := by
  intro w
  have hinv := CancelDelivery.inv_reached ops
  have hnamed : ∀ runID run jobID, w.ledger.runs.find runID = some run → run.Names jobID →
      ∃ job ∈ w.l1, job.spec.dispatchKey = Dispatch.dispatchKey runID ∧ job.jobID = jobID :=
    fun runID run jobID hr => (hinv.runs runID run hr).named jobID
  refine ⟨fun job hjob => hinv.once.jobs job.spec (List.mem_map_of_mem hjob), hnamed, ?_⟩
  intro runID runID' run run' jobID hr hr' hnames hnames'
  obtain ⟨job, hjob, hkey, hid⟩ := hnamed runID run jobID hr hnames
  obtain ⟨job', hjob', hkey', hid'⟩ := hnamed runID' run' jobID hr' hnames'
  -- L1 gives an identifier once, so it is one job, and it has one key.
  have hsame := List.inj_on_of_nodup_map hinv.ids hjob hjob' (hid.trans hid'.symm)
  exact Dispatch.dispatchKey_inj (hkey.symm.trans (hsame ▸ hkey'))

end Wefty.RunHistory
