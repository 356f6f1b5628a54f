/-
An attempt credential lives exactly as long as the attempt's authority (`resolveCredential`,
`revalidateAttemptCredential` of `l1/attempt_credential.go`; `validateAttemptAuthority` of
`l1/attempt_authority.go`).

The two predicates are written separately and checked in the same order, but for the fencing token,
which a workload never holds, and the lease, which the agent's endpoints check after their own
phase. What makes them agree in every state is no clause of either: a credential is minted with the
attempt, so that the job it names is the attempt's own, and neither row ever names another job.

Credentials are pruned, by the next claim of any job if no job is bound to the attempt, and by a
reconciliation if the attempt has ended. Neither takes one whose attempt could still act, and an
attempt that cannot act never can again.
-/
import Wefty.SpawnChains

set_option autoImplicit false

namespace Wefty.CredentialLife

open Tables Rows StoreRows AttemptClock AttemptAuthority ControlStore Submissions Spawns SpawnChains

variable {ctx : Ctx} {scope : Scope} {a : Authority} {s : Store} {retiring : Bool}

/-! ## 1. The two predicates -/

/-- `resolveCredential`, for a bearer and an identity that are not blank. -/
def resolveCredential (system : System) (ctx : Ctx) (tokenHash identityNodeID : Nat)
    (retiring : Bool) : Except ProtocolError Scope :=
  match system.credentials.find tokenHash with
  | none => .error (unauthorized "attempt credential is not recognized")
  | some credential => do
    revalidateAttemptCredential ctx system.store (System.scopeOf credential identityNodeID) retiring
    return System.scopeOf credential identityNodeID

/-- The authority of an attempt, as its agent would be asked for it: `validateAttemptAuthority`
accepts the identity with the attempt's own job, identifier and fencing token, and the attempt
is active with a live lease. -/
def Authorized (ctx : Ctx) (s : Store) (retiring : Bool) (identityNodeID attemptID : Nat) : Prop :=
  ∃ a, s.readAttemptAuthority attemptID retiring = some a ∧
    validateAttemptAuthority identityNodeID a.attempt.jobID a.attempt.attemptID
      (some a.attempt.fencingToken) a = .ok () ∧
    a.attempt.state.active = true ∧ attemptLeaseLive ctx.clock ctx.now a.attempt = .ok true

/-- On the rows of one attempt the two predicates agree, if the scope names its job. -/
theorem validateAttemptCredentialAuthority_iff (ctx : Ctx) (hjob : a.attempt.jobID = scope.jobID)
    (hatt : a.attempt.attemptID = scope.attemptID) :
    validateAttemptCredentialAuthority ctx scope a = .ok () ↔
      validateAttemptAuthority scope.identityNodeID a.attempt.jobID a.attempt.attemptID
          (some a.attempt.fencingToken) a = .ok () ∧
        a.attempt.state.active = true ∧
          attemptLeaseLive ctx.clock ctx.now a.attempt = .ok true := by
  rw [validateAttemptCredentialAuthority_eq_ok_iff, validateAttemptAuthority_eq_ok_iff]
  simp only [hjob, hatt, true_and, and_assoc]
  refine and_congr_right fun _ => and_congr_right fun _ => and_congr_right fun _ =>
    and_congr_right fun hactv => ?_
  -- what is left is the lease
  unfold attemptLeaseLive leaseExpiredAt
  rw [if_pos hactv]
  rcases attemptLeaseExpired ctx.clock ctx.now a.attempt with err | _ | _ <;> simp [Except.map]

theorem revalidateAttemptCredential_iff
    (hjob : ∀ attempt, s.attempts.find scope.attemptID = some attempt →
      attempt.jobID = scope.jobID) :
    revalidateAttemptCredential ctx s scope retiring = .ok () ↔
      Authorized ctx s retiring scope.identityNodeID scope.attemptID := by
  unfold revalidateAttemptCredential Authorized
  cases hread : s.readAttemptAuthority scope.attemptID retiring with
  | none => simp
  | some a =>
    have hfind : s.attempts.find scope.attemptID = some a.attempt := by
      unfold Store.readAttemptAuthority at hread
      obtain ⟨attempt, hatt, hread⟩ := Option.bind_eq_some_iff.mp hread
      obtain ⟨job, -, hread⟩ := Option.bind_eq_some_iff.mp hread
      obtain ⟨node, -, hread⟩ := Option.bind_eq_some_iff.mp hread
      cases hread
      exact hatt
    have hiff := validateAttemptCredentialAuthority_iff ctx (hjob a.attempt hfind)
      (Table.key_of_find hfind)
    simp [hiff]

/-! ## 2. Pruned credentials -/

/-- A credential that was minted: it is on record, or it is not and its attempt cannot act. -/
structure Minted (tokenHash : Nat) (credential : Credential) (system : System) : Prop where
  given : credential.attemptID < system.store.nextID
  own : ∀ attempt, system.store.attempts.find credential.attemptID = some attempt →
    attempt.jobID = credential.jobID
  kept : system.credentials.find tokenHash = some credential ∨
    system.credentials.find tokenHash = none ∧ ∀ attempt,
      system.store.attempts.find credential.attemptID = some attempt → attempt.state.active = false

/-- The bearer a claim draws. -/
def draws : Spawns.Event → Option Nat
  | .claim _ _ _ tokenHash => some tokenHash
  | _ => none

section
variable {system : System} {tokenHash : Nat} {credential : Credential}

/-- A step that leaves the record of a credential, or deletes it when its attempt cannot act. -/
theorem Minted.goes (h : Minted tokenHash credential system) {system' : System}
    (hgoes : Goes True system.store system'.store)
    (hkept : system'.credentials.find tokenHash = system.credentials.find tokenHash ∨
      system.credentials.find tokenHash = some credential ∧
        system'.credentials.find tokenHash = none ∧ ∀ attempt,
          system'.store.attempts.find credential.attemptID = some attempt →
            attempt.state.active = false) : Minted tokenHash credential system' := by
  refine ⟨lt_of_lt_of_le h.given hgoes.nextID, fun attempt' ha' => ?_, ?_⟩
  · obtain ⟨attempt, ha, hfol⟩ := hgoes.attempt ha' h.given
    exact hfol.jobID_eq.trans (h.own attempt ha)
  rcases hkept with hsame | ⟨-, hpruned⟩
  · rw [hsame]
    refine h.kept.imp_right fun ⟨hnone, hended⟩ => ⟨hnone, fun attempt' ha' => ?_⟩
    obtain ⟨attempt, ha, hfol⟩ := hgoes.attempt ha' h.given
    rw [hfol.ended (hended attempt ha)]
    exact hended attempt ha
  · exact .inr hpruned

theorem find_pruned (tokenHash : Nat) {credentials : Table Credential.tokenHash}
    {p : Credential → Bool} :
    (credentials.deleteWhere p).find tokenHash = credentials.find tokenHash ∨
      ∃ row, credentials.find tokenHash = some row ∧ p row = true ∧
        (credentials.deleteWhere p).find tokenHash = none := by
  rw [Table.find_deleteWhere]
  cases hrow : credentials.find tokenHash with
  | none => exact .inl rfl
  | some row => cases hp : p row <;> simp [hp]

/-- A claim mints under the bearer it draws. -/
theorem find_minted (after : Store) {other : Nat} (hne : other ≠ tokenHash)
    (attempts : List Attempt) (credentials : Table Credential.tokenHash) :
    ((attempts.filterMap (credentialOf after other)).foldl
      (fun credentials credential => credentials.insert credential) credentials).find tokenHash =
        credentials.find tokenHash := by
  cases hold : credentials.find tokenHash with
  | some row => exact Table.find_foldl_insert_of_some id _ hold
  | none =>
    by_contra hsome
    obtain ⟨row, hrow⟩ := Option.ne_none_iff_exists'.mp hsome
    have hcases : _ ∨ ∃ new ∈ _, row = id new := Table.find_foldl_insert_cases hrow
    rcases hcases with hrow' | ⟨_, hmem, rfl⟩
    · rw [hold] at hrow'
      cases hrow'
    · obtain ⟨attempt, -, hatt⟩ := List.mem_filterMap.mp hmem
      obtain ⟨job, -, rfl⟩ := Option.map_eq_some_iff.mp hatt
      exact hne (Table.key_of_find hrow)

/-- An attempt no job is bound to is not active. -/
theorem ended_of_unbound (hinv : StoreRules.Inv True s) {attemptID : Nat}
    {attempt : Attempt} (hfind : s.attempts.find attemptID = some attempt)
    (hnone : (s.jobs.any fun job => job.currentAttemptID = some attemptID) = false) :
    attempt.state.active = false := by
  by_contra hactv
  obtain ⟨job, hjob, -⟩ := hinv.owned hfind
  have hbound := hinv.bound hfind hjob (by simpa using hactv)
  rw [Table.any_eq_false_iff] at hnone
  have hno := hnone _ job hjob
  rw [hbound.current, show attempt.attemptID = attemptID from Table.key_of_find hfind] at hno
  simp at hno

/-- **One step**, of whatever kind, but for a claim that draws the same bearer. -/
theorem minted_step (hlin : Lineage system) (h : Minted tokenHash credential system)
    {e : Spawns.Event} (he : draws e ≠ some tokenHash) :
    Minted tokenHash credential (system.step e) := by
  have hstep := step_steps hlin e
  refine h.goes hstep.goes ?_
  have hrow : ∀ {row}, system.credentials.find tokenHash = some row → row = credential := by
    intro row hrow
    rcases h.kept with hsome | ⟨hnone, -⟩
    · exact Option.mem_unique hrow hsome
    · rw [hnone] at hrow
      cases hrow
  cases e with
  | claim config door request other =>
    have hne : other ≠ tokenHash := fun heq => he (congrArg some heq)
    set after := Operations.step system.store ⟨config, door, .claim request⟩
    have hcreds : (system.step (.claim config door request other)).credentials =
        if claimed system.store after = [] then system.credentials
        else pruneAttemptCredentials after _ := rfl
    rw [hcreds]
    split
    · exact .inl rfl
    have hminted := find_minted after hne (claimed system.store after) system.credentials
    rcases find_pruned tokenHash with hsame | ⟨row, hfind, hp, hnone⟩
    · exact .inl (hsame.trans hminted)
    -- what is pruned is of an attempt that no job is bound to, and an active one has its job
    · rw [hminted] at hfind
      obtain rfl := hrow hfind
      exact .inr ⟨hfind, hnone, fun attempt ha =>
        ended_of_unbound hstep.lineage.inv ha ((Bool.not_eq_true' _).mp hp)⟩
  | reconcile config door checked listed tokens =>
    rcases find_pruned tokenHash with hsame | ⟨row, hfind, hp, hnone⟩
    · exact .inl hsame
    obtain rfl := hrow hfind
    refine .inr ⟨hfind, hnone, fun attempt ha => ?_⟩
    have hended : ((Operations.step system.store
      ⟨config, door, .reconcile checked listed⟩).attempts.find
        row.attemptID).any (fun attempt => attempt.state.active) = false := by
      simpa using (Bool.and_eq_true_iff.mp hp).2
    rw [show (Operations.step system.store _).attempts.find row.attemptID = some attempt from ha]
      at hended
    exact hended
  | submit =>
    left
    show (System.submit _ _ _ _).credentials.find _ = _
    unfold System.submit
    split <;> rfl
  | resolve =>
    left
    show (System.resolve _ _ _ _ _).credentials.find _ = _
    unfold System.resolve
    split
    · rfl
    · split <;> rfl
  | projectComputer =>
    left
    show (System.projectComputer _ _ _ _ _ _).credentials.find _ = _
    unfold System.projectComputer
    split <;> rfl
  | other e =>
    left
    show (if named e.op then system else _).credentials.find _ = _
    split <;> rfl
  | _ => exact .inl rfl

theorem minted_reached (minting later : List Spawns.Event)
    (hminted : (System.reached minting).credentials.find tokenHash = some credential)
    (hdrawn : ∀ e ∈ later, draws e ≠ some tokenHash) :
    Minted tokenHash credential (System.reached (minting ++ later)) := by
  have hlin := reached_lineage minting
  have hstart : Minted tokenHash credential (System.reached minting) :=
    ⟨(hlin.ours hminted).1, (hlin.ours hminted).2, .inl hminted⟩
  unfold System.reached
  rw [Runs.exec_append]
  refine (((Runs.run_exec System.step _ later).restrict hdrawn).invariant
    (P := fun system => Lineage system ∧ Minted tokenHash credential system)
    (fun _ e h he => ⟨(step_steps h.1 e).lineage, minted_step h.1 h.2 he.2⟩) ⟨hlin, hstart⟩).2

end

theorem resolveCredential_isOk_iff {system : System} {tokenHash identityNodeID : Nat}
    {credential : Credential} (h : Minted tokenHash credential system) :
    (resolveCredential system ctx tokenHash identityNodeID retiring).isOk = true ↔
      Authorized ctx system.store retiring identityNodeID credential.attemptID := by
  have hiff : revalidateAttemptCredential ctx system.store
      (System.scopeOf credential identityNodeID) retiring = .ok () ↔ _ :=
    revalidateAttemptCredential_iff h.own
  unfold resolveCredential
  rcases h.kept with hsome | ⟨hnone, hended⟩
  · rw [hsome]
    refine Iff.trans ?_ hiff
    dsimp only
    cases revalidateAttemptCredential ctx system.store (System.scopeOf credential identityNodeID)
      retiring <;> simp [Except.isOk, Except.toBool]
  · rw [hnone]
    constructor
    · intro hok
      cases hok
    rintro ⟨a, hread, -, hactv, -⟩
    obtain ⟨hfind, -, hid⟩ := StoreSteps.of_readAttemptAuthority hread
    rw [hid] at hfind
    rw [hended a.attempt hfind] at hactv
    cases hactv

/-- **A credential lives exactly as long as the attempt's authority.** In every state that events
lead to after it was minted, with every clock and from every identity, a credential resolves, and
passes in a write on that state, exactly where the authority of its attempt holds, whether it has
been pruned or not. So whatever leads from one such state to another changes both answers or
neither. Bearers are drawn at random, so that no later claim draws the same. -/
theorem credential_lives_with_authority (minting later more : List Spawns.Event)
    {tokenHash : Nat} {credential : Credential} (identityNodeID : Nat) (ctx ctx' : Ctx)
    (retiring retiring' : Bool)
    (hminted : (System.reached minting).credentials.find tokenHash = some credential)
    (hdrawn : ∀ e ∈ later ++ more, draws e ≠ some tokenHash) :
    let system := System.reached (minting ++ later)
    let system' := System.reached (minting ++ (later ++ more))
    ((resolveCredential system ctx tokenHash identityNodeID retiring).isOk = true ↔
      Authorized ctx system.store retiring identityNodeID credential.attemptID) ∧
    (revalidateAttemptCredential ctx system.store (System.scopeOf credential identityNodeID)
        retiring = .ok () ↔
      Authorized ctx system.store retiring identityNodeID credential.attemptID) ∧
    ((resolveCredential system ctx tokenHash identityNodeID retiring).isOk =
        (resolveCredential system' ctx' tokenHash identityNodeID retiring').isOk ↔
      (Authorized ctx system.store retiring identityNodeID credential.attemptID ↔
        Authorized ctx' system'.store retiring' identityNodeID credential.attemptID)) := by
  intro system system'
  have hnow : Minted tokenHash credential system := minted_reached minting later hminted
    fun e he => hdrawn e (List.mem_append_left _ he)
  have hthen : Minted tokenHash credential system' := minted_reached minting _ hminted hdrawn
  refine ⟨resolveCredential_isOk_iff hnow, revalidateAttemptCredential_iff hnow.own, ?_⟩
  rw [Bool.eq_iff_iff, resolveCredential_isOk_iff hnow, resolveCredential_isOk_iff hthen]

def context : Ctx := ⟨Fencing.settings, 0, withAttemptClock door.reads, id⟩

/-- The lease of the claimed job runs out, and its credential is pruned. -/
def expires : Spawns.Event :=
  .reconcile Fencing.settings (Fencing.at_ (40 * RestartPolicy.second) 0 (.submit [])).door
    (fun _ => true) [] [77]

/-- The credential of a job that was just claimed resolves for its Node, until its lease has run
out. -/
theorem claimed_credential_lives :
    (resolveCredential (System.reached (spawns.take 3 ++ [])) context 77 1 false).isOk = true ∧
      Authorized context (System.reached (spawns.take 3 ++ [])).store false 1 2 ∧
      (System.reached (spawns.take 3 ++ ([] ++ [expires]))).credentials.find 77 = none ∧
      ¬ Authorized context (System.reached (spawns.take 3 ++ ([] ++ [expires]))).store
        false 1 2 := by
  have hfind : (System.reached (spawns.take 3)).credentials.find 77 =
      some ⟨77, 2, 1, some 5, 0⟩ := by decide +kernel
  obtain ⟨hlives, -, hboth⟩ := credential_lives_with_authority (spawns.take 3) []
    [expires] 1 context context false false hfind (by simp [draws, expires])
  have hok : (resolveCredential (System.reached (spawns.take 3 ++ [])) context 77 1 false).isOk =
      true := by decide +kernel
  have hgone : (resolveCredential (System.reached (spawns.take 3 ++ ([] ++ [expires]))) context 77 1
      false).isOk = false := by decide +kernel
  refine ⟨hok, hlives.mp hok, by decide +kernel, fun hauth => ?_⟩
  have hsame := hboth.mpr ⟨fun _ => hauth, fun _ => hlives.mp hok⟩
  rw [hok, hgone] at hsame
  cases hsame

end Wefty.CredentialLife
