/-
What one operation can do to the generations of a Node.

The transactions of `NodeGenerations` check long lists of fences before they write, and most of
those fences do not matter for what is written. `Steps` lists the writes, one constructor each,
with the checks that the results about roles and authority need. Everything proved about runs
is proved from these constructors; only the lemmas of this file look at the transactions.
-/
import Wefty.NodeGenerations

set_option autoImplicit false

namespace Wefty.GenerationSteps

open Tables Rows StoreRows Transactions AttemptAuthority NodeGenerations NodeGenerations.Cohort

variable {cohort : Cohort} {node : HostNode} {registration : Registration}
variable {now : Int} {nodeID identity generationID : Nat} {claimsEnabled : Bool}
variable {policy : NodePolicy} {observed : Observation} {host : Prop} {request : PromoteRequest}

/-! ## 1. The primary generation -/

theorem find_of_primary {generation : Generation} (h : cohort.primary = some generation) :
    cohort.generations.find generation.generationID = some generation ∧
      generation.role = .primary := by
  refine ⟨Table.mem_rows_iff.mp (List.mem_of_find?_eq_some h), ?_⟩
  simpa using List.find?_some h

/-- Without a primary no generation has the role. -/
theorem role_ne_of_primary_none (h : cohort.primary = none)
    {generation : Generation} (hfind : cohort.generations.find generationID = some generation) :
    generation.role ≠ .primary := by
  have hnone := List.find?_eq_none.mp h generation (Table.mem_of_find hfind)
  simpa using hnone

/-! ## 2. The writes -/

/-- The authority generation the next registration or promotion of the Node gets. -/
def nextAuthority (cohort : Cohort) : Nat :=
  (cohort.node.map fun node => node.authorityGeneration).getD 0 + 1

/-- The operation tells of no other system boot than the one on record: a primary that comes back
in another boot session reports the system boot it has, and a candidate that reports none
succeeds only a primary that has none. -/
def SameHost (cohort : Cohort) : Op → Prop
  | .register _ _ _ _ _ registration _ => ∀ generation ∈ cohort.primary,
    registration.bootSessionID ≠ generation.bootSessionID →
      registration.systemBootID = generation.systemBootID
  | .promote _ _ request => ∀ generation ∈ cohort.primary,
    ∀ candidate ∈ cohort.generations.find request.candidateGenerationID,
      candidate.systemBootID.isSome = true ∨ generation.systemBootID = none
  | _ => True

instance decidableSameHost (cohort : Cohort) : (op : Op) → Decidable (SameHost cohort op)
  | .register _ _ _ _ _ registration _ =>
    inferInstanceAs (Decidable (∀ generation ∈ cohort.primary,
      registration.bootSessionID ≠ generation.bootSessionID →
        registration.systemBootID = generation.systemBootID))
  | .promote _ _ request =>
    inferInstanceAs (Decidable (∀ generation ∈ cohort.primary,
      ∀ candidate ∈ cohort.generations.find request.candidateGenerationID,
        candidate.systemBootID.isSome = true ∨ generation.systemBootID = none))
  | .stage .. | .heartbeatRetiring .. | .close .. | .abort .. | .deEnroll .. | .intend ..
  | .work .. => inferInstanceAs (Decidable True)

structure Promotes (cohort : Cohort) (request : PromoteRequest) (node : HostNode)
    (primary candidate : Generation) : Prop where
  hnode : cohort.node = some node
  hprimary : cohort.primary = some primary
  hcandidate : cohort.generations.find candidate.generationID = some candidate
  expected : primary.generationID = request.expectedPrimaryGenerationID
  requested : candidate.generationID = request.candidateGenerationID
  staged : candidate.role = .staged
  boot : node.bootSessionID = primary.bootSessionID
  authority : node.authorityGeneration = primary.authorityGeneration
  residents : (cohort.primaryResidents node.bootSessionID node.authorityGeneration).Perm
    request.residentAttempts
  free : ∀ resident ∈ cohort.primaryResidents node.bootSessionID node.authorityGeneration,
    cohort.residents.find resident.attemptID = none
  boots : cohort.systemBootsDiffer candidate = false

/-- The candidate is not the primary: their roles differ. -/
theorem Promotes.distinct {primary candidate : Generation}
    (h : Promotes cohort request node primary candidate) :
    primary.generationID ≠ candidate.generationID := by
  intro hsame
  obtain ⟨hfind, hrole⟩ := find_of_primary h.hprimary
  have hstage := h.staged
  rw [hsame, h.hcandidate] at hfind
  obtain rfl := Option.some.inj hfind
  rw [hrole] at hstage
  cases hstage

def SameIdentity (cohort : Cohort) (node : HostNode) : Prop :=
  ∀ n, cohort.node = some n → node.identityNodeID = n.identityNodeID

/-- What an operation can leave of the rows. `host` says whether it stays on one system boot. -/
inductive Steps (host : Prop) (cohort : Cohort) : Cohort → Prop
  | rests : Steps host cohort cohort
  | records (operations : Table Operation.operationID) :
      Steps host cohort { cohort with operations }
  | intends (claimsEnabled : Bool) (intentRevision : Int) (intentReason : String) :
      Steps host cohort { cohort with
        node := cohort.node.map fun node =>
          { node with claimsEnabled, intentRevision, intentReason } }
  | works (attempts : Table Attempt.attemptID) (jobs : Table Job.jobID)
      (hadmitted : cohort.Admits (.work attempts jobs)) :
      Steps host cohort { cohort with attempts, jobs }
  /-- A registration without a generation, on a Node that has no primary. -/
  | registers (node : HostNode) (hidentity : SameIdentity cohort node)
      (hprimary : cohort.primary = none)
      (hauthority : node.authorityGeneration = nextAuthority cohort) :
      Steps host cohort { cohort with node := some node }
  /-- The first registration of a generation. -/
  | enrolls (node : HostNode) (catalogRevision : Option Nat) (generation : Generation)
      (hidentity : SameIdentity cohort node)
      (hprimary : cohort.primary = none)
      (hfresh : cohort.generations.find generation.generationID = none)
      (hrole : generation.role = .primary)
      (hdocument : generation.registration.bootSessionID = generation.bootSessionID)
      (hboot : node.bootSessionID = generation.bootSessionID)
      (hauthority : node.authorityGeneration = nextAuthority cohort)
      (hgeneration : generation.authorityGeneration = nextAuthority cohort) :
      Steps host cohort { cohort with
        node := some node
        catalogRevision
        generations := cohort.generations.put generation }
  /-- The primary registers again in the boot session it has. -/
  | rejoins (node : HostNode) (catalogRevision : Option Nat) (prior generation : Generation)
      (hidentity : SameIdentity cohort node)
      (hprior : cohort.generations.find generation.generationID = some prior)
      (hrole : prior.role = .primary) (hrole' : generation.role = .primary)
      (hdocument : generation.registration.bootSessionID = generation.bootSessionID)
      (hsame : generation.bootSessionID = prior.bootSessionID)
      (hboot : node.bootSessionID = generation.bootSessionID)
      (hauthority : node.authorityGeneration = prior.authorityGeneration)
      (hgeneration : generation.authorityGeneration = prior.authorityGeneration)
      (hbound : prior.systemBootID.isSome → generation.systemBootID = prior.systemBootID) :
      Steps host cohort { cohort with
        node := some node
        catalogRevision
        generations := (bindSystemBoot generation.systemBootID cohort.generations).put generation }
  /-- The primary registers in another boot session. -/
  | restarts (node : HostNode) (catalogRevision : Option Nat) (prior generation : Generation)
      (hidentity : SameIdentity cohort node)
      (hhost : host → generation.systemBootID = prior.systemBootID)
      (hprior : cohort.generations.find generation.generationID = some prior)
      (hrole : prior.role = .primary) (hrole' : generation.role = .primary)
      (hdocument : generation.registration.bootSessionID = generation.bootSessionID)
      (hboot : node.bootSessionID = generation.bootSessionID)
      (hauthority : node.authorityGeneration = nextAuthority cohort)
      (hgeneration : generation.authorityGeneration = nextAuthority cohort) :
      Steps host cohort { cohort with
        node := some node
        catalogRevision
        generations := cohort.generations.put generation }
  | stages (generation : Generation)
      (hfresh : cohort.generations.find generation.generationID = none)
      (hrole : generation.role = .staged) (hauthority : generation.authorityGeneration = 0)
      (hdocument : generation.registration.bootSessionID = generation.bootSessionID) :
      Steps host cohort { cohort with generations := cohort.generations.insert generation }
  | promotes (now : Int) (request : PromoteRequest) (node : HostNode)
      (primary candidate : Generation)
      (hhost : host → candidate.systemBootID.isSome = true ∨ primary.systemBootID = none)
      (hpromotes : Promotes cohort request node primary candidate) :
      Steps host cohort (cohort.promote now request node primary candidate)
  | beats (generationID : Nat) (now : Int) :
      Steps host cohort { cohort with
        generations := cohort.generations.update generationID
          fun generation => { generation with heartbeatNS := now } }
  | closes (generationID : Nat) (now : Int) (target : Generation)
      (htarget : cohort.generations.find generationID = some target)
      (hrole : target.role = .retiring) :
      Steps host cohort { cohort with
        generations := cohort.generations.update generationID (Cohort.close now) }
  | aborts (generationID : Nat) (now : Int) (operationID : String) (target : Generation)
      (operations : Table Operation.operationID)
      (htarget : cohort.generations.find generationID = some target)
      (hrole : target.role = .staged) (hnode : cohort.node.isSome = true) :
      Steps host cohort { cohort with
        generations := cohort.generations.update generationID fun generation =>
          { Cohort.close now generation with promotionOperationID := operationID }
        operations }
  | deEnrolls (now : Int) (revokedBoot : Nat) (node : HostNode) (primary : Generation)
      (catalogRevision : Option Nat) (operations : Table Operation.operationID)
      (hnode : cohort.node = some node) (hprimary : cohort.primary = some primary)
      (hretired : ∀ generationID generation,
        cohort.generations.find generationID = some generation → generation.role ≠ .retiring) :
      Steps host cohort { cohort with
        node := some { node with
          bootSessionID := revokedBoot
          authorityGeneration := node.authorityGeneration + 1 }
        catalogRevision
        generations := cohort.generations.update primary.generationID (Cohort.close now)
        operations }

/-! ## 3. Registration -/

/-- The registration document of a generation names the boot session of its row. -/
def Documented (cohort : Cohort) : Prop :=
  ∀ generationID generation, cohort.generations.find generationID = some generation →
    generation.registration.bootSessionID = generation.bootSessionID

/-- What `guardGenerationRegistration` lets through. -/
structure Guarded (cohort : Cohort) (registration : Registration) : Prop where
  only : ∀ generation, cohort.primary = some generation →
    registration.agentGenerationID = some generation.generationID
  prior : ∀ generationID generation, registration.agentGenerationID = some generationID →
    cohort.generations.find generationID = some generation → generation.role = .primary ∧
      (generation.systemBootID.isSome = true →
        registration.bootSessionID = generation.registration.bootSessionID →
          registration.systemBootID = generation.systemBootID)

theorem guard_only (h : ¬ (cohort.primary.any fun generation =>
      some generation.generationID ≠ registration.agentGenerationID) = true) :
    ∀ generation, cohort.primary = some generation →
      registration.agentGenerationID = some generation.generationID := by
  intro generation hprim
  rw [hprim] at h
  have hsame : some generation.generationID = registration.agentGenerationID := by simpa using h
  exact hsame.symm

/-- What a registration passed that names a generation, or none. -/
theorem guardGenerationRegistration_ensures {P : Cohort → Prop} :
    Ensures P (fun _ => Guarded cohort registration)
      (cohort.guardGenerationRegistration registration) := by
  unfold Cohort.guardGenerationRegistration
  refine .refuseIf fun honly => ?_
  have only := guard_only honly
  cases hgen : registration.agentGenerationID with
  | none =>
    refine .pure ⟨only, ?_⟩
    intro generationID _ h
    rw [hgen] at h
    cases h
  | some generationID =>
    refine .refuseIf fun hboot => .refuseIf fun hrole => .refuseIf fun _ => ?_
    unfold refuseIf
    split
    · trivial
    refine ⟨only, ?_⟩
    intro generationID' generation h hfind
    obtain rfl := Option.mem_unique hgen h
    rw [hfind] at hboot hrole
    refine ⟨by simpa using hrole, ?_⟩
    intro hsome hsess
    simp only [Option.any_some, hsome, hsess, Bool.true_and, Bool.or_eq_true, not_or] at hboot
    simpa using hboot.2

theorem registeredNode_authority :
    (registeredNode now nodeID identity claimsEnabled policy registration observed
      cohort.node).authorityGeneration = nextAuthority cohort := by
  unfold nextAuthority
  cases cohort.node <;> rfl

/-- The row `bindSystemBoot` leaves in the place of a generation. -/
def boundRow (systemBootID : Option Nat) (generation : Generation) : Generation :=
  if systemBootID.isSome && (generation.live && generation.systemBootID.isNone) then
    { generation with registration := { generation.registration with systemBootID } }
  else generation

/-- Binding a system boot changes the rows one by one. -/
theorem find_bindSystemBoot (systemBootID : Option Nat)
    (generations : Table Generation.generationID) (generationID : Nat) :
    (bindSystemBoot systemBootID generations).find generationID =
      (generations.find generationID).map (boundRow systemBootID) := by
  unfold bindSystemBoot
  by_cases h : systemBootID.isSome = true
  · rw [if_pos h, Table.find_updateWhere]
    congr 1
    funext generation
    rw [boundRow, h, Bool.true_and]
  · rw [if_neg h]
    have hrow : boundRow systemBootID = id := by
      funext generation
      simp [boundRow, h]
    rw [hrow, Option.map_id, id]

section BoundRow

variable (systemBootID : Option Nat) (generation : Generation)

@[simp]
theorem boundRow_generationID :
    (boundRow systemBootID generation).generationID = generation.generationID := by
  unfold boundRow
  split <;> rfl

@[simp]
theorem boundRow_role : (boundRow systemBootID generation).role = generation.role := by
  unfold boundRow
  split <;> rfl

@[simp]
theorem boundRow_bootSessionID :
    (boundRow systemBootID generation).bootSessionID = generation.bootSessionID := by
  unfold boundRow
  split <;> rfl

@[simp]
theorem boundRow_authorityGeneration :
    (boundRow systemBootID generation).authorityGeneration = generation.authorityGeneration := by
  unfold boundRow
  split <;> rfl

@[simp]
theorem boundRow_document : (boundRow systemBootID generation).registration.bootSessionID =
    generation.registration.bootSessionID := by
  unfold boundRow
  split <;> rfl

end BoundRow

theorem registeredNode_identity : SameIdentity cohort
    (registeredNode now nodeID identity claimsEnabled policy registration observed
      cohort.node) := by
  intro n hn
  rw [hn]
  rfl

/-- **A registration as the primary** enrols, rejoins or restarts it. -/
theorem recordPrimaryGeneration_steps (hdocd : Documented cohort)
    (hguard : Guarded cohort registration)
    (hhost : host → ∀ generation, cohort.primary = some generation →
      registration.bootSessionID ≠ generation.bootSessionID →
        registration.systemBootID = generation.systemBootID)
    (hident : SameIdentity cohort node) (hgen : registration.agentGenerationID = some generationID)
    (hboot : node.bootSessionID = registration.bootSessionID)
    (hauth : node.authorityGeneration = nextAuthority cohort) {versions : List Nat} :
    Commits (Steps host cohort)
      (cohort.recordPrimaryGeneration now node generationID registration versions) := by
  unfold Cohort.recordPrimaryGeneration
  refine .refuseIf fun _ => .pure ?_
  cases hprior : cohort.generations.find generationID with
  | none =>
    have hprim : cohort.primary = none := by
      rw [Option.eq_none_iff_forall_ne_some]
      intro generation hprim
      have hid := hguard.only generation hprim
      obtain rfl := Option.mem_unique hgen hid
      rw [(find_of_primary hprim).1] at hprior
      cases hprior
    simp only [Option.filter_none, Option.map_none, Option.getD_none, Option.isSome_none,
      Bool.false_eq_true, if_false, hprior]
    exact Steps.enrolls _ _ (recordedGeneration now generationID _ versions registration none)
      hident hprim hprior rfl rfl hboot hauth hauth
  | some prior =>
    obtain ⟨hrole, hbnd⟩ := hguard.prior generationID prior hgen hprior
    by_cases hsess : prior.bootSessionID = registration.bootSessionID
    · have hfind : (bindSystemBoot registration.systemBootID cohort.generations).find
          generationID = some (boundRow registration.systemBootID prior) := by
        rw [find_bindSystemBoot, hprior, Option.map_some]
      have hid : prior.generationID = generationID := Table.key_of_find hprior
      simp only [Option.filter_some, hsess, decide_true, if_true, Option.map_some,
        Option.getD_some, Option.isSome_some, hfind]
      refine Steps.rejoins _ _ prior
        (recordedGeneration now generationID prior.authorityGeneration versions registration
          (some (boundRow registration.systemBootID prior))) hident ?_ hrole
        ((boundRow_role _ _).trans hrole) rfl hsess.symm hboot rfl rfl ?_
      · show cohort.generations.find (boundRow _ prior).generationID = some prior
        rw [boundRow_generationID, hid]
        exact hprior
      · intro hsome
        exact hbnd hsome (hsess.symm.trans (hdocd _ prior hprior).symm)
    · have hid : prior.generationID = generationID := Table.key_of_find hprior
      simp only [Option.filter_some, hsess, decide_false, Bool.false_eq_true, if_false,
        Option.map_none, Option.getD_none, Option.isSome_none, hprior]
      refine Steps.restarts _ _ prior
        (recordedGeneration now generationID node.authorityGeneration versions registration
          (some prior)) hident ?_ ?_ hrole hrole rfl hboot hauth hauth
      · -- the guard lets only the primary register, so the prior row is the primary's
        intro hsame
        cases hprim : cohort.primary with
        | none => exact absurd hrole (role_ne_of_primary_none hprim hprior)
        | some generation =>
          have hfind := (find_of_primary hprim).1
          have honly := hguard.only generation hprim
          obtain rfl := Option.mem_unique hgen honly
          obtain rfl := Option.mem_unique hprior hfind
          exact hhost hsame prior hprim (Ne.symm hsess)
      · show cohort.generations.find prior.generationID = some prior
        rw [hid]
        exact hprior

/-- **A registration** is one of the steps, with a generation or without. -/
theorem registerNode_steps (hdocd : Documented cohort) :
    let op := Op.register now nodeID identity claimsEnabled policy registration observed
    Commits (Steps (SameHost cohort op) cohort)
      (cohort.registerNode now nodeID identity claimsEnabled policy registration observed) := by
  intro op
  unfold Cohort.registerNode
  refine .bind guardGenerationRegistration_ensures
    fun _ hguard => .refuseIf fun _ => ?_
  cases hgen : registration.agentGenerationID with
  | none =>
    refine .pure (Steps.registers _ registeredNode_identity ?_
      (registeredNode_authority ..))
    rw [Option.eq_none_iff_forall_ne_some]
    intro generation hprim
    have hid := hguard.only generation hprim
    rw [hgen] at hid
    cases hid
  | some generationID =>
    refine .orRefuse fun versions _ => .check fun _ _ => ?_
    -- what the observation replaces in the registration is none of what the guard looked at
    refine recordPrimaryGeneration_steps hdocd ⟨?_, ?_⟩ (fun hhost => hhost)
      registeredNode_identity rfl (by cases cohort.node <;> rfl) (registeredNode_authority ..)
    · intro generation hprim
      rw [← hgen]
      exact hguard.only generation hprim
    · intro generationID' generation hid hfind
      exact hguard.prior generationID' generation (hgen.trans hid) hfind

/-! ## 4. The other transactions -/

theorem stageNodeGeneration_steps :
    Commits (Steps host cohort) (cohort.stageNodeGeneration now identity registration) := by
  unfold Cohort.stageNodeGeneration
  refine .orRefuse fun generationID _ => .orRefuse fun versions _ =>
    .refuseIf fun _ => .check fun _ _ => .refuseIf fun _ =>
    .answerIf fun hknown => .refuseIf fun _ => .refuseIf fun _ =>
    .pure ?_
  have hfresh : cohort.generations.find generationID = none := by simpa using hknown
  exact Steps.stages (stagedGeneration now generationID registration versions) hfresh rfl rfl rfl

theorem requireGenerationIdentity_ok (h : cohort.requireGenerationIdentity identity = .ok node) :
    cohort.node = some node := by
  unfold Cohort.requireGenerationIdentity at h
  cases hnode : cohort.node with
  | none =>
    rw [hnode] at h
    cases h
  | some stored =>
    rw [hnode] at h
    dsimp only at h
    split at h
    · cases h
    · rw [Except.ok.inj h]

/-- **What a promotion commits**, with the rows it replaced. -/
theorem promoteNodeGeneration_ensures :
    Ensures (fun _ => False)
      (fun after => ∃ node primary candidate, Promotes cohort request node primary candidate ∧
        after = cohort.promote now request node primary candidate)
      (cohort.promoteNodeGeneration now identity request) := by
  unfold Cohort.promoteNodeGeneration
  refine .refuseIf fun _ => .check fun node hnode => .refuseIf fun _ =>
    .answerIf fun _ => .orRefuse fun primary hprim =>
    .orRefuse fun candidate hcandidate => .refuseIf fun hnamed =>
    .refuseIf fun hfence => .refuseIf fun hresidents => .refuseIf fun _ =>
    .refuseIf fun _ => .refuseIf fun _ => .refuseIf fun hfree =>
    .refuseIf fun hboots => .pure ⟨node, primary, candidate, ?_, rfl⟩
  obtain ⟨hfind, hstage⟩ := Option.filter_eq_some_iff.mp hcandidate
  have hid : candidate.generationID = request.candidateGenerationID := Table.key_of_find hfind
  simp only [not_or, not_not] at hnamed hfence
  obtain ⟨-, -, hboot, hauth, -⟩ := hfence
  refine ⟨requireGenerationIdentity_ok hnode, hprim, by rw [hid]; exact hfind, hnamed.1, hid,
    by simpa using hstage, hboot, hauth, ?_, ?_, by simpa using hboots⟩
  · exact List.isPerm_iff.mp (not_not.mp hresidents)
  intro resident hresd
  rw [Option.eq_none_iff_forall_ne_some]
  intro stored hstore
  refine hfree (List.any_eq_true.mpr ⟨resident, hresd, ?_⟩)
  rw [hstore]
  rfl

/-- What a promotion needs to stay on one host. -/
theorem Promotes.sameHost_iff {primary candidate : Generation}
    (hprom : Promotes cohort request node primary candidate) :
    SameHost cohort (.promote now identity request) ↔
    candidate.systemBootID.isSome = true ∨ primary.systemBootID = none := by
  have hfind : cohort.generations.find request.candidateGenerationID = some candidate := by
    rw [← hprom.requested]
    exact hprom.hcandidate
  constructor
  · exact fun h => h primary hprom.hprimary candidate hfind
  · intro h primary' hprim candidate' hcandidate
    obtain rfl := Option.mem_unique hprom.hprimary hprim
    obtain rfl := Option.mem_unique hfind hcandidate
    exact h

theorem promoteNodeGeneration_steps : let op := Op.promote now identity request
    Commits (Steps (SameHost cohort op) cohort)
      (cohort.promoteNodeGeneration now identity request) := by
  intro op
  refine .mono promoteNodeGeneration_ensures
    (fun _ h => h.elim) ?_
  rintro after ⟨node, primary, candidate, hprom, rfl⟩
  exact Steps.promotes now request node primary candidate hprom.sameHost_iff.mp hprom

theorem heartbeatRetiring_steps {bootSessionID : Nat} :
    Commits (Steps host cohort)
      (cohort.heartbeatRetiring now identity generationID bootSessionID) := by
  unfold Cohort.heartbeatRetiring
  refine .check fun _ _ => .refuseIf fun _ => .pure ?_
  exact Steps.beats generationID now

/-- Only a retiring generation is closed. -/
theorem closeNodeGeneration_steps {ctx : Ctx} {request : CloseRequest} :
    Commits (Steps host cohort) (cohort.closeNodeGeneration ctx identity generationID request) := by
  unfold Cohort.closeNodeGeneration
  refine .check fun _ _ => .orRefuse fun target htgt =>
    .refuseIf fun hexact => .answerIf fun hclo => .check fun _ _ =>
    .refuseIf fun _ => .pure ?_
  refine Steps.closes generationID ctx.now target htgt ?_
  by_contra hretg
  exact hexact (Or.inl ⟨hretg, hclo⟩)

/-- Only a staged generation is aborted. -/
theorem abortStagedGeneration_steps {abort : StagedAbort} {request : CloseRequest} :
    Commits (Steps host cohort)
      (cohort.abortStagedGeneration now identity generationID abort request) := by
  unfold Cohort.abortStagedGeneration
  refine .refuseIf fun _ => .check fun node hnode => .refuseIf fun _ =>
    .answerIf fun _ => .refuseIf fun hfence => .pure ?_
  simp only [not_or, not_not] at hfence
  obtain ⟨-, htgt, -, -⟩ := hfence
  obtain ⟨target, hfind, hmatches⟩ := (Option.any_eq_true ..).mp htgt
  have hrole := (Bool.and_eq_true_iff.mp (Bool.and_eq_true_iff.mp hmatches).1).1
  refine Steps.aborts generationID now abort.operationID target _ hfind (of_decide_eq_true hrole) ?_
  rw [requireGenerationIdentity_ok hnode]
  rfl

theorem of_deEnrollmentRefusal_none {request : DeEnrollRequest}
    (h : cohort.deEnrollmentRefusal node request = none) :
    (∃ primary, cohort.primary = some primary ∧
      primary.generationID = request.primaryGenerationID) ∧
    ∀ generationID generation, cohort.generations.find generationID = some generation →
      generation.role ≠ .retiring := by
  unfold Cohort.deEnrollmentRefusal at h
  split at h
  · cases h
  split at h
  · cases h
  next hquiet =>
  split at h
  · cases h
  next hfence =>
  simp only [Bool.or_eq_true, not_or] at hfence
  have hprim := hfence.1.1
  simp only [Bool.not_eq_true', Bool.not_eq_false] at hprim
  obtain ⟨primary, hfind, hmatches⟩ := (Option.any_eq_true ..).mp hprim
  have hid := (Bool.and_eq_true_iff.mp (Bool.and_eq_true_iff.mp hmatches).1).1
  refine ⟨⟨primary, hfind, of_decide_eq_true hid⟩, ?_⟩
  intro generationID generation hgen hretg
  exact hquiet (Table.any_iff.mpr ⟨generationID, generation, hgen, by simp [hretg]⟩)

/-- De-enrolment takes the Node's authority with its primary. -/
theorem deEnrollNodeGeneration_steps {revokedBoot : Nat} {request : DeEnrollRequest} :
    Commits (Steps host cohort)
      (cohort.deEnrollNodeGeneration now identity revokedBoot request) := by
  unfold Cohort.deEnrollNodeGeneration
  refine .refuseIf fun _ => .check fun node hnode => .refuseIf fun _ =>
    .answerIf fun _ => .settleIf (fun _ => Steps.records _) fun hacc =>
    .pure ?_
  have hnone : cohort.deEnrollmentRefusal node request = none := by simpa using hacc
  obtain ⟨⟨primary, hprim, hid⟩, hretd⟩ := of_deEnrollmentRefusal_none hnone
  rw [← hid]
  exact Steps.deEnrolls now revokedBoot node primary _ _ (requireGenerationIdentity_ok hnode)
    hprim hretd

/-- **Every operation is one of the listed writes.** -/
theorem step_steps (hdocd : Documented cohort) {op : Op} (hadm : cohort.Admits op)
    : Steps (SameHost cohort op) cohort (cohort.step op) := by
  have hens : Commits (Steps (SameHost cohort op) cohort) (cohort.transact op) := by
    cases op with
    | register => exact registerNode_steps hdocd ..
    | stage => exact stageNodeGeneration_steps ..
    | promote => exact promoteNodeGeneration_steps ..
    | heartbeatRetiring => exact heartbeatRetiring_steps ..
    | close => exact closeNodeGeneration_steps ..
    | abort => exact abortStagedGeneration_steps ..
    | deEnroll => exact deEnrollNodeGeneration_steps ..
    | intend claimsEnabled intentRevision intentReason =>
      exact .pure (Steps.intends claimsEnabled intentRevision intentReason)
    | work attempts jobs => exact .pure (Steps.works attempts jobs hadm)
  unfold Cohort.step
  cases hcom : committed (cohort.transact op) with
  | none => exact Steps.rests
  | some after => exact Ensures.committed hens hcom

end Wefty.GenerationSteps
