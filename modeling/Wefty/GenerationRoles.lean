/-
The generations of a Node as a state machine, over whole runs.

A closed generation never authorizes anything again. Attempts carry the authority generation
they were claimed under, the Node's never comes back to a value it has left, and no two
generations that have left the primary role share one.
-/
import Wefty.GenerationRows

set_option autoImplicit false

namespace Wefty.GenerationRoles

open Tables Rows StoreRows Runs AttemptAuthority NodeGenerations NodeGenerations.Cohort
open GenerationSteps GenerationRows

variable {attempt : Attempt} {cohort : Cohort} {generation : Generation}
variable {attemptID generationID : Nat}

/-! ## 1. The invariant over runs -/

theorem claimed_steps {host : Prop} {after : Cohort} (hinv : Inv cohort)
    (h : Steps host cohort after) (hatt : after.attempts.find attemptID = some attempt) :
    1 ≤ attempt.authorityGeneration := by
  cases h with
  | works attempts jobs hadm =>
    have hrow := List.all_eq_true.mp hadm attempt (Table.mem_of_find hatt)
    unfold Cohort.continues at hrow
    cases hbef : cohort.attempts.find attempt.attemptID with
    | some before =>
      rw [hbef] at hrow
      have hsame : attempt.authorityGeneration = before.authorityGeneration :=
        congrArg ResidentAttempt.authorityGeneration (of_decide_eq_true hrow)
      rw [hsame]
      exact hinv.claimed _ before hbef
    | none =>
      rw [hbef] at hrow
      obtain ⟨node, hnode, hsess⟩ := (Option.any_eq_true ..).mp hrow
      rw [of_decide_eq_true (Bool.and_eq_true_iff.mp hsess).2]
      exact hinv.positive node hnode
  | _ => exact hinv.claimed _ attempt hatt

theorem inv_start : Inv Cohort.start := by
  have noGeneration : ∀ generationID generation,
      Cohort.start.generations.find generationID ≠ some generation := by
    intro generationID generation hfind
    cases (Table.find_empty).symm.trans hfind
  refine ⟨?_, ?_, ?_, ?_, ?_⟩
  · exact fun _ generation hfind => absurd hfind (noGeneration _ generation)
  · exact fun _ _ generation _ hfind => absurd hfind (noGeneration _ generation)
  · exact fun _ _ generation _ hfind => absurd hfind (noGeneration _ generation)
  · intro node hnode
    cases hnode
  · intro attemptID attempt hatt
    cases (Table.find_empty).symm.trans hatt

theorem inv_step (cohort : Cohort) (op : Op) (hinv : Inv cohort) (hadm : cohort.Admits op) :
    Inv (cohort.step op) := by
  have hsteps := step_steps hinv.documented hadm
  have hrows := rowsAfter_steps hinv hsteps
  exact ⟨fun _ _ hfind => hrows.placed hfind,
    fun _ _ _ _ hfst hsnd => hrows.unique hinv hfst hsnd,
    fun _ _ _ _ hfst hsnd => hrows.distinct hinv hfst hsnd,
    hrows.positive,
    fun _ _ hatt => claimed_steps hinv hsteps hatt⟩

theorem inv_reached {ops : List Op}
    (h : Admitted Cohort.Admits Cohort.step Cohort.start ops) : Inv (reached ops) :=
  (Run.of_admitted h).invariant inv_step inv_start

/-! ## 2. The state machine -/

theorem authorizes_iff {identity jobID : Nat} {fencingToken : Option Nat} :
    cohort.authorizes identity jobID attemptID fencingToken = true ↔
      ∃ attempt job node, cohort.attempts.find attemptID = some attempt ∧
        cohort.jobs.find attempt.jobID = some job ∧ cohort.node = some node ∧
        node.identityNodeID = identity ∧ attempt.jobID = jobID ∧ attempt.attemptID = attemptID ∧
        job.currentAttemptID = some attemptID ∧ fencingToken = some attempt.fencingToken ∧
        (cohort.retiringSessionAuthorized attempt = true ∨
          attempt.bootSessionID = node.bootSessionID ∧
            attempt.authorityGeneration = node.authorityGeneration) := by
  unfold Cohort.authorizes
  rw [Option.any_eq_true]
  simp only [Cohort.readAttemptAuthority, Option.bind_eq_bind, Option.bind_eq_some_iff,
    Option.pure_def, Option.some.injEq]
  constructor
  · rintro ⟨authority, ⟨attempt, hatt, job, hjob, node, hnode, rfl⟩, hvalid⟩
    exact ⟨attempt, job, node, hatt, hjob, hnode,
      validateAttemptAuthority_eq_ok_iff.mp (Transactions.isOk_iff.mp hvalid)⟩
  · rintro ⟨attempt, job, node, hatt, hjob, hnode, hvalid⟩
    exact ⟨_, ⟨attempt, hatt, job, hjob, node, hnode, rfl⟩,
      Transactions.isOk_iff.mpr (validateAttemptAuthority_eq_ok_iff.mpr hvalid)⟩

theorem retiringSessionAuthorized_iff :
    cohort.retiringSessionAuthorized attempt = true ↔
      ∃ resident session, cohort.residents.find attempt.attemptID = some resident ∧
        resident.attempt = claimedAs attempt ∧
        cohort.generations.find resident.generationID = some session ∧
        session.role = .retiring ∧ session.bootSessionID = attempt.bootSessionID ∧
        session.authorityGeneration = attempt.authorityGeneration ∧
        session.systemBootID = cohort.primary.bind fun generation => generation.systemBootID := by
  unfold Cohort.retiringSessionAuthorized
  simp only [Option.any_eq_true, Bool.and_eq_true, decide_eq_true_eq]
  constructor
  · rintro ⟨resident, hresd, hsame, session, hsess, ⟨⟨hrole, hboot⟩, hauth⟩, hsys⟩
    exact ⟨resident, session, hresd, hsame, hsess, hrole, hboot, hauth, hsys⟩
  · rintro ⟨resident, session, hresd, hsame, hsess, hrole, hboot, hauth, hsys⟩
    exact ⟨resident, hresd, hsame, session, hsess, ⟨⟨hrole, hboot⟩, hauth⟩, hsys⟩

theorem closed_authorizes_nothing (hinv : Inv cohort)
    (hfind : cohort.generations.find generationID = some generation)
    (hclo : generation.role = .closed) (hatt : cohort.attempts.find attemptID = some attempt)
    (hsess : attempt.authorityGeneration = generation.authorityGeneration) (identity jobID : Nat)
    (fencingToken : Option Nat) :
    cohort.authorizes identity jobID attemptID fencingToken = false := by
  rw [← Bool.not_eq_true]
  intro hauthd
  obtain ⟨attempt', -, node, hatt', -, hnode, -, -, -, -, -, hcase⟩ :=
    authorizes_iff.mp hauthd
  obtain rfl := Option.mem_unique hatt hatt'
  have hpos := hinv.claimed attemptID attempt hatt
  rcases hcase with hretg | ⟨-, hauth⟩
  swap
  · -- the Node has left the closed generation's authority generation behind
    obtain ⟨node', hnode', hlt⟩ := (hinv.placed _ generation hfind).left (Or.inr hclo)
    obtain rfl := Option.mem_unique hnode hnode'
    omega
  · -- a retiring generation with the same one would be the closed generation itself
    obtain ⟨resident, retiring, -, -, hoth, hrole, -, hauth, -⟩ :=
      retiringSessionAuthorized_iff.mp hretg
    have hsame : resident.generationID = generationID :=
      hinv.distinct _ _ _ _ hoth hfind (hauth.trans hsess) (by omega)
    rw [hsame, hfind] at hoth
    obtain rfl := Option.some.inj hoth
    rw [hclo] at hrole
    cases hrole

theorem closed_step (hinv : Inv cohort) {op : Op} (hadm : cohort.Admits op)
    (hfind : cohort.generations.find generationID = some generation)
    (hclo : generation.role = .closed) :
    ∃ after, (cohort.step op).generations.find generationID = some after ∧
      after.role = .closed ∧ after.bootSessionID = generation.bootSessionID ∧
      after.authorityGeneration = generation.authorityGeneration := by
  obtain ⟨after, haft, hstep, -⟩ :=
    (rowsAfter_steps hinv (step_steps hinv.documented hadm)).old generationID generation hfind
  have hmove := hstep.move
  rw [hclo] at hmove
  have hrole := hmove.of_closed
  exact ⟨after, haft, hrole, hstep.session (by rw [hrole]; exact nofun)⟩

theorem closed_reached {before after : List Op}
    (h : Admitted Cohort.Admits Cohort.step Cohort.start (before ++ after))
    (hfind : (reached before).generations.find generationID = some generation)
    (hclo : generation.role = .closed) :
    ∃ later, (reached (before ++ after)).generations.find generationID = some later ∧
      later.role = .closed ∧ later.bootSessionID = generation.bootSessionID ∧
      later.authorityGeneration = generation.authorityGeneration := by
  have hrun := Run.of_admitted h.after_append
  have hkept := hrun.invariant (P := fun cohort => Inv cohort ∧
      ∃ later, cohort.generations.find generationID = some later ∧ later.role = .closed ∧
        later.bootSessionID = generation.bootSessionID ∧
        later.authorityGeneration = generation.authorityGeneration) ?_
    ⟨inv_reached h.of_append, generation, hfind, hclo, rfl, rfl⟩
  · unfold reached
    rw [exec_append]
    exact hkept.2
  · rintro cohort op ⟨hinv, later, hlater, hrole, hboot, hauth⟩ hadm
    obtain ⟨next, hnext, hrole', hboot', hauth'⟩ := closed_step hinv hadm hlater hrole
    exact ⟨inv_step cohort op hinv hadm, next, hnext, hrole', hboot'.trans hboot,
      hauth'.trans hauth⟩

/-- **The generations of a Node are a state machine.** After any operations: at most one
generation is primary; an enrolled Node has the session of its primary; the next operation
takes the Node's authority generation forward and every role along the machine; and a
generation that was closed at some point is closed, the Node does not claim under its
session, and nothing is authorized for an attempt claimed under it. -/
theorem generation_state_machine (ops : List Op)
    (h : Admitted Cohort.Admits Cohort.step Cohort.start ops) :
    (∀ first second generation generation',
      (reached ops).generations.find first = some generation →
      (reached ops).generations.find second = some generation' →
      generation.role = .primary → generation'.role = .primary → first = second) ∧
    (∀ generation, (reached ops).primary = some generation →
      ∃ node, (reached ops).node = some node ∧
        node.bootSessionID = generation.bootSessionID ∧
        node.authorityGeneration = generation.authorityGeneration) ∧
    (∀ op, (reached ops).Admits op →
      Onward (reached ops).node ((reached ops).step op).node ∧
      ∀ generationID generation,
        (reached ops).generations.find generationID = some generation →
        ∃ after, ((reached ops).step op).generations.find generationID = some after ∧
          RoleMove generation.role after.role) ∧
    ∀ before after, ops = before ++ after → ∀ generationID generation,
      (reached before).generations.find generationID = some generation →
      generation.role = .closed →
      (∃ later, (reached ops).generations.find generationID = some later ∧
        later.role = .closed) ∧
      (∀ node, (reached ops).node = some node →
        node.authorityGeneration ≠ generation.authorityGeneration) ∧
      ∀ attemptID attempt, (reached ops).attempts.find attemptID = some attempt →
        attempt.authorityGeneration = generation.authorityGeneration →
        ∀ identity jobID fencingToken,
          (reached ops).authorizes identity jobID attemptID fencingToken = false := by
  have hinv := inv_reached h
  refine ⟨hinv.unique, ?_, ?_, ?_⟩
  · intro generation hprim
    obtain ⟨hfind, hrole⟩ := find_of_primary hprim
    exact (hinv.placed _ generation hfind).primary hrole
  · intro op hadm
    have hrows := rowsAfter_steps hinv (step_steps hinv.documented hadm)
    refine ⟨hrows.onward, ?_⟩
    intro generationID generation hfind
    obtain ⟨after, haft, hstep, -⟩ := hrows.old generationID generation hfind
    exact ⟨after, haft, hstep.move⟩
  · rintro before after rfl generationID generation hfind hclo
    obtain ⟨later, hlater, hrole, -, hauth⟩ := closed_reached h hfind hclo
    refine ⟨⟨later, hlater, hrole⟩, ?_, ?_⟩
    · intro node hnode hsame
      obtain ⟨node', hnode', hlt⟩ := (hinv.placed _ later hlater).left (Or.inr hrole)
      obtain rfl := Option.mem_unique hnode hnode'
      omega
    · intro attemptID attempt hatt hsess identity jobID fencingToken
      exact closed_authorizes_nothing hinv hlater hrole hatt
        (hsess.trans hauth.symm) identity jobID fencingToken

/-! ## 3. An upgrade -/

/-- Generation `generationID` of Node 1, in boot session `bootSessionID`. -/
def upgradeRegistration (generationID bootSessionID : Nat) (systemBootID : Option Nat) :
    Registration :=
  ⟨some generationID, bootSessionID, systemBootID, true, 0, [], some [1], 0⟩

def upgradeAttempt (state : AttemptState) (completionKey : Option Nat) : Attempt :=
  { attemptID := 7
    jobID := 3
    nodeID := 1
    bootSessionID := 10
    state
    fencingToken := 1
    leaseExpires := 100
    leaseBootID := ""
    leaseDeadlineNS := 0
    authorityGeneration := 1
    completionKey
    completionHash := completionKey
    createdNS := 0
    updatedAt := 0 }

def upgradeJob (state : JobState) : Job :=
  { jobID := 3
    requestHash := 0
    spec := ⟨0, .process, .oneShot, none, false, none, none, [], [], none⟩
    state
    currentAttemptID := some 7
    fenceCounter := 1
    createdNS := 0
    updatedNS := 0 }

/-- Generation 1 enrols and claims a process one-shot, admission is closed, and generation 2 is
staged beside it. -/
def stagedUpgrade (primaryBoot candidateBoot : Option Nat) : List Op :=
  [.register 0 1 5 true ⟨1, 1, []⟩ (upgradeRegistration 1 10 primaryBoot) ⟨[], some [1]⟩,
    .work (Table.empty.insert (upgradeAttempt .running none))
      (Table.empty.insert (upgradeJob .running)),
    .intend false 1 "wefty maintenance op",
    .stage 1 5 (upgradeRegistration 2 20 candidateBoot)]

def upgradeResident : ResidentAttempt := ⟨3, 7, 10, 1, 1⟩

def upgradeRequest : PromoteRequest :=
  ⟨"op", 1, 10, 1, 2, 20, 0, 1, 1, 1, [], [upgradeResident]⟩

def upgradeCtx : Ctx :=
  ⟨⟨0, 0, 0, 0, 0, 0⟩, 4, AttemptClock.withAttemptClock
    ⟨4, false, .error .unavailable, some ("boot", 4), .error .unavailable⟩, fun n => n⟩

def finishedUpgrade : List Op :=
  stagedUpgrade (some 9) (some 9) ++
    [.promote 2 5 upgradeRequest,
      .work (Table.empty.insert (upgradeAttempt .succeeded (some 1)))
        (Table.empty.insert (upgradeJob .succeeded)),
      .close upgradeCtx 5 1 ⟨10, "op", [upgradeResident], true, true⟩]

/-- A whole upgrade: the old generation ends closed and without authority. -/
theorem generation_state_machine_upgrade :
    Admitted Cohort.Admits Cohort.step Cohort.start finishedUpgrade ∧
    ((reached finishedUpgrade).generations.find 1).map (fun g => g.role) = some .closed ∧
    ((reached finishedUpgrade).generations.find 2).map (fun g => g.role) = some .primary ∧
    (reached finishedUpgrade).authorizes 5 3 7 (some 1) = false := by
  have hadm : Admitted Cohort.Admits Cohort.step Cohort.start finishedUpgrade := by
    decide +kernel
  have hclo : ((reached finishedUpgrade).generations.find 1).map (fun g => g.role) =
      some .closed := by decide +kernel
  have hauth : ((reached finishedUpgrade).generations.find 1).map
      (fun g => g.authorityGeneration) = some 1 := by decide +kernel
  refine ⟨hadm, hclo, by decide +kernel, ?_⟩
  obtain ⟨generation, hfind, hrole⟩ := Option.map_eq_some_iff.mp hclo
  rw [hfind] at hauth
  obtain ⟨-, -, -, hmachine⟩ := generation_state_machine finishedUpgrade hadm
  obtain ⟨-, -, hnoth⟩ :=
    hmachine finishedUpgrade [] (List.append_nil _).symm 1 generation hfind hrole
  exact hnoth 7 (upgradeAttempt .succeeded (some 1)) (by decide +kernel)
    (Option.some.inj hauth).symm 5 3 (some 1)

/-- **An authority generation is given out once.** After any operations no two generations of the
Node hold the same one, a staged generation holds none, and that of a retiring or closed generation
is below the Node's. -/
theorem authority_generations_are_given_once (ops : List Op)
    (h : Admitted Cohort.Admits Cohort.step Cohort.start ops) (id : Nat) (generation : Generation)
    (hfind : (reached ops).generations.find id = some generation) :
    (generation.role = .staged → generation.authorityGeneration = 0) ∧
    (generation.role = .retiring ∨ generation.role = .closed → ∃ node,
      (reached ops).node = some node ∧
        generation.authorityGeneration < node.authorityGeneration) ∧
    ∀ other generation', (reached ops).generations.find other = some generation' →
      generation.authorityGeneration = generation'.authorityGeneration →
      generation.authorityGeneration ≠ 0 → id = other := by
  have hinv := inv_reached h
  have hplaced := hinv.placed id generation hfind
  exact ⟨hplaced.staged, hplaced.left, fun other generation' =>
    hinv.distinct id other generation generation' hfind⟩

theorem authority_generations_are_given_once_upgrade :
    ∃ (g : Generation) (n : HostNode), (reached finishedUpgrade).generations.find 1 = some g ∧
      (reached finishedUpgrade).node = some n ∧ g.authorityGeneration < n.authorityGeneration := by
  have hclo : ((reached finishedUpgrade).generations.find 1).map (fun g => g.role) =
      some .closed := by decide +kernel
  obtain ⟨g, hfind, hrole⟩ := Option.map_eq_some_iff.mp hclo
  obtain ⟨-, hleft, -⟩ :=
    authority_generations_are_given_once finishedUpgrade (by decide +kernel) 1 g hfind
  obtain ⟨n, hnode, hlt⟩ := hleft (.inr hrole)
  exact ⟨g, n, hfind, hnode, hlt⟩

end Wefty.GenerationRoles
