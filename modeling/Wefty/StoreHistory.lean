/-
What the L1 store remembers, and what a Computer waits for.

Three results over whole runs of the store, whatever is submitted, claimed, reported, canceled,
removed and copied in them.
-/
import Wefty.Fencing

set_option autoImplicit false

namespace Wefty.StoreHistory

open Tables StoreRows AttemptRules ControlStore Operations StoreRules StoreRuns Fencing

/-- **The history of a job is append-only.** A one-shot and its attempts stay on record. A job keeps
what the store reads of its submission, an attempt the Node, session and token it was claimed with,
its end and its accepted completion. A new attempt has a larger token than all of its job before. -/
theorem history_is_append_only (events later : List Event) :
    let s := reached events
    let s' := reached (events ++ later)
    (∀ id job, s.jobs.find id = some job → job.service = none →
      (∃ job', s'.jobs.find id = some job') ∧ ∀ attemptID attempt,
        s.attempts.find attemptID = some attempt → attempt.jobID = id →
          ∃ attempt', s'.attempts.find attemptID = some attempt') ∧
    (∀ id job job', s.jobs.find id = some job → s'.jobs.find id = some job' →
      origin job' = origin job) ∧
    (∀ id attempt attempt', s.attempts.find id = some attempt →
      s'.attempts.find id = some attempt' → AttemptFollows attempt attempt') ∧
    ∀ i j old new, s.attempts.find i = some old → s.attempts.find j = none →
      s'.attempts.find j = some new → new.jobID = old.jobID →
        old.fencingToken < new.fencingToken := by
  intro s s'
  have hinv : Inv True s := reached_inv events
  have hfollows : Follows True (fun _ => .all) s s' := reached_follows events later
  refine ⟨fun id job hjob hone => ⟨hfollows.keepsJob hjob hone, ?_⟩, ?_, ?_, ?_⟩
  · rintro attemptID attempt hatt rfl
    exact hfollows.keepsAttempt hatt hjob hone
  · exact fun id job job' hjob hjob' => (hfollows.job hjob hjob').origin_eq
  · exact fun id attempt attempt' hatt hatt' => hfollows.attempt hatt hatt'
  intro i j old new hold hnone hnew hsame
  -- The old token is within the fence that every later claim passes.
  obtain ⟨job, hjob, -, hfence⟩ := hinv.owned hold
  have hnew' : (Runs.exec step s later).attempts.find j = some new := by
    rw [← reached_append]
    exact hnew
  exact hfence.trans_lt (fence_lt_token later hinv hnone hnew' (hsame ▸ hjob))

/-- **A removal leaves a trace.** Once it is requested it is never withdrawn: the job stays with the
same directive and with all that was accepted from the Node, or a tombstone with its dispatch key
and request hash has taken its place. A tombstone stands for ever, with its outcome. -/
theorem removal_leaves_a_trace (events later : List Event) :
    let s := reached events
    let s' := reached (events ++ later)
    (∀ id job removal, s.jobs.find id = some job → removal ∈ job.removal →
      (∃ job' removal', s'.jobs.find id = some job' ∧ removal' ∈ job'.removal ∧
        RemovalFollows .all removal removal') ∨
      s'.jobs.find id = none ∧ ∃ tombstone, s'.tombstones.find id = some tombstone ∧
        tombstone.dispatchKey = job.spec.dispatchKey ∧ tombstone.requestHash = job.requestHash) ∧
    ∀ id tombstone, s.tombstones.find id = some tombstone →
      ∃ tombstone', s'.tombstones.find id = some tombstone' ∧ Stands tombstone tombstone' := by
  intro s s'
  have hfollows : Follows True (fun _ => .all) s s' := reached_follows events later
  refine ⟨fun id job removal hjob hremoval => ?_, fun id tombstone => hfollows.tombstone⟩
  cases hjob' : s'.jobs.find id with
  | some job' =>
    obtain ⟨removal', hremoval', hrow⟩ :=
      (hfollows.job hjob hjob').removal.kept removal hremoval
    exact .inl ⟨job', removal', rfl, hremoval', hrow⟩
  | none =>
    obtain ⟨tombstone, hfind, hburies⟩ :=
      hfollows.gone hjob hjob' (Option.isSome_iff_exists.mpr ⟨removal, hremoval⟩)
    exact .inr ⟨rfl, tombstone, hfind, hburies.dispatchKey_eq, hburies.requestHash_eq⟩

/-- **A Computer that is being filled does not run.** While a clone or an import is into it, its
Storage has no current generation, its Job is in no state that may execute, is not being removed,
and no attempt of the Job can hold authority. A reserved import is into such a Computer. -/
theorem filling_computer_is_idle (events : List Event) :
    let s := reached events
    (∀ id computer, s.computers.find id = some computer →
      computer.phase = .cloning ∨ computer.phase = .importing →
      (∀ g ∈ computer.generations, g.phase ≠ .current) ∧
      ∀ job, s.jobs.find computer.currentJobID = some job →
        job.state.holding = false ∧ job.removal = none ∧
        ∀ attemptID attempt, s.attempts.find attemptID = some attempt →
          attempt.jobID = job.jobID → attempt.state.active = false) ∧
    ∀ k copy, s.copies.find k = some copy → copy.operation = .custodyImport →
      copy.status = .reserved → ∃ computer,
        s.computers.find copy.destinationComputerID = some computer ∧
          computer.phase = .importing ∧ copy.jobID = computer.currentJobID := by
  intro s
  have hinv : Inv True s := reached_inv events
  refine ⟨fun id computer hfind hphase => ⟨?_, fun job hjob => ?_⟩, ?_⟩
  · exact ((hinv.layout.stored hfind).unfilled hphase).2
  · have hplaced := hinv.layout.placed hfind hjob
    have hidle := hplaced.waiting hphase
    have hremoving : computer.phase ≠ .removing := by
      intro hremoving
      rw [hremoving] at hphase
      rcases hphase with hphase | hphase <;> cases hphase
    refine ⟨hidle, hplaced.removal hremoving, fun attemptID attempt hatt hown => ?_⟩
    by_contra hactive
    have hkey : job.jobID = computer.currentJobID := Table.key_of_find hjob
    have hbound := hinv.bound hatt (by rw [hown, hkey]; exact hjob) (by simpa using hactive)
    exact absurd hbound.holding (by rw [hidle]; decide)
  · intro k copy hcopy himport hreserved
    obtain ⟨computer, hfind, himporting⟩ := hinv.layout.importing hcopy himport hreserved
    exact ⟨computer, hfind, himporting.phase, himporting.job⟩

end Wefty.StoreHistory
