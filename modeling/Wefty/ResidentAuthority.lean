/-
What a promotion leaves to the attempts of the generation it retires.

A promotion freezes the active attempts of the old primary as residents of a retiring generation,
and their authority is from then on read from three rows: the resident, the retiring generation,
and the new primary, whose system boot must be the one of the retiring generation. The promotion
makes the two agree only where the candidate registered a system boot. Where it registered none
and the old primary one, the promotion goes through and its residents have lost their authority.
-/
import Wefty.GenerationRoles

set_option autoImplicit false

namespace Wefty.ResidentAuthority

open Tables Rows StoreRows Runs Transactions NodeGenerations NodeGenerations.Cohort GenerationSteps
open GenerationRows GenerationRoles

variable {after cohort : Cohort} {candidate generation generation' : Generation} {node : HostNode}
variable {now : Int} {generationID : Nat} {request : PromoteRequest} {host : Prop}
variable {frozen : ResidentAttempt}

/-! ## 1. Residents and the Node -/

theorem residents_steps (h : Steps host cohort after) {attemptID : Nat} {resident : Resident}
    (hresd : cohort.residents.find attemptID = some resident) :
    after.residents.find attemptID = some resident := by
  cases h with
  | promotes => exact Table.find_foldl_insert_of_some _ _ hresd
  | _ => exact hresd

theorem identity_steps (h : Steps host cohort after) (hnode : cohort.node = some node) :
    ∃ node', after.node = some node' ∧ node'.identityNodeID = node.identityNodeID := by
  cases h with
  | intends claimsEnabled intentRevision intentReason =>
    refine ⟨{ node with claimsEnabled, intentRevision, intentReason }, ?_, rfl⟩
    show cohort.node.map _ = _
    rw [hnode]
    rfl
  | registers _ hident | enrolls _ _ _ hident | rejoins _ _ _ _ hident | restarts _ _ _ _ hident =>
    exact ⟨_, rfl, hident node hnode⟩
  | promotes _ _ _ _ _ _ hprom =>
    obtain rfl := Option.some.inj (hnode.symm.trans hprom.hnode)
    exact ⟨_, rfl, rfl⟩
  | deEnrolls _ _ _ _ _ _ hnode' =>
    obtain rfl := Option.mem_unique hnode hnode'
    exact ⟨_, rfl, rfl⟩
  | _ => exact ⟨node, hnode, rfl⟩

theorem primaryResidents_nodup (cohort : Cohort) (bootSessionID authorityGeneration : Nat) :
    ((cohort.primaryResidents bootSessionID authorityGeneration).map
      fun resident => resident.attemptID).Nodup := by
  unfold Cohort.primaryResidents
  rw [List.map_map]
  exact cohort.attempts.nodup.sublist (List.filter_sublist.map _)

theorem find_promote_residents {primary : Generation}
    (hprom : Promotes cohort request node primary candidate)
    (hfroz : frozen ∈ cohort.primaryResidents node.bootSessionID node.authorityGeneration) :
    (cohort.promote now request node primary candidate).residents.find frozen.attemptID =
      some ⟨primary.generationID, frozen⟩ :=
  Table.find_foldl_insert_of_mem (fun attempt => (⟨primary.generationID, attempt⟩ : Resident))
    (primaryResidents_nodup cohort _ _) hprom.free hfroz

theorem session_of_frozen {bootSessionID authorityGeneration : Nat}
    (hfroz : frozen ∈ cohort.primaryResidents bootSessionID authorityGeneration) :
    frozen.bootSessionID = bootSessionID ∧ frozen.authorityGeneration = authorityGeneration := by
  unfold Cohort.primaryResidents at hfroz
  obtain ⟨attempt, hatt, rfl⟩ := List.mem_map.mp hfroz
  have hsess := (List.mem_filter.mp hatt).2
  simp only [Bool.and_eq_true, decide_eq_true_eq] at hsess
  exact hsess.1

/-! ## 2. System boots -/

theorem boundRow_systemBootID (systemBootID : Option Nat) (hlive : generation.live = true) :
    (boundRow systemBootID generation).systemBootID =
      generation.systemBootID.or systemBootID := by
  unfold boundRow
  cases hboot : generation.systemBootID with
  | some boot => simp [hboot]
  | none =>
    cases systemBootID with
    | none => simp [hboot]
    | some boot => simp [hlive, Generation.systemBootID]

theorem boundRow_of_staged (systemBootID : Option Nat) (hstage : generation.role = .staged)
    : boundRow systemBootID generation = generation := by
  unfold boundRow
  simp [Generation.live, hstage]

/-- A surviving generation has the candidate's system boot after the promotion, if the candidate
registered one or the generation none. -/
theorem survivor_agrees (hboots : cohort.systemBootsDiffer candidate = false)
    (hfind : cohort.generations.find generationID = some generation)
    (hlive : generation.live = true)
    (hhost : candidate.systemBootID.isSome = true ∨ generation.systemBootID = none) :
    (boundRow candidate.systemBootID generation).systemBootID = candidate.systemBootID := by
  rw [boundRow_systemBootID _ hlive]
  cases hgen : generation.systemBootID with
  | none => exact Option.none_or
  | some boot =>
    have hcandidate : candidate.systemBootID.isSome = true := by
      rcases hhost with h | h
      · exact h
      · rw [hgen] at h
        cases h
    unfold Cohort.systemBootsDiffer at hboots
    rw [hcandidate, Bool.true_and, Table.any_eq_false_iff] at hboots
    have hsame := hboots generationID generation hfind
    simp only [hlive, hgen, Option.isSome_some, Bool.true_and, decide_eq_false_iff_not,
      not_not] at hsame
    rw [← hsame]
    rfl

def SinglePrimary (cohort : Cohort) : Prop :=
  ∀ first second generation generation', cohort.generations.find first = some generation →
    cohort.generations.find second = some generation' →
    generation.role = .primary → generation'.role = .primary → first = second

theorem SinglePrimary.primary (h : SinglePrimary cohort)
    (hfind : cohort.generations.find generationID = some generation)
    (hrole : generation.role = .primary) : cohort.primary = some generation := by
  cases hprim : cohort.primary with
  | none => exact absurd hrole (role_ne_of_primary_none hprim hfind)
  | some other =>
    obtain ⟨hoth, hrole'⟩ := find_of_primary hprim
    have hsame := h _ _ _ _ hoth hfind hrole' hrole
    rw [hsame, hfind] at hoth
    exact hoth.symm

def OnPrimaryBoot (cohort : Cohort) (generation : Generation) : Prop :=
  ∃ primary, cohort.primary = some primary ∧ generation.systemBootID = primary.systemBootID

theorem onPrimaryBoot_update (hsingle : SinglePrimary after) {target : Nat}
    {f : Generation → Generation}
    (hf : ∀ generation, (f generation).generationID = generation.generationID)
    (hrows : after.generations = cohort.generations.update target f hf)
    (hkeeps : ∀ generation, (f generation).systemBootID = generation.systemBootID)
    (hstays : ∀ row, cohort.generations.find target = some row → row.role = .primary →
      (f row).role = .primary) (hfind : cohort.generations.find generationID = some generation)
    (hboot : OnPrimaryBoot cohort generation)
    (hfind' : after.generations.find generationID = some generation') :
    OnPrimaryBoot after generation' := by
  obtain ⟨primary, hprim, hsame⟩ := hboot
  obtain ⟨hpfind, hprole⟩ := find_of_primary hprim
  have hkept : generation'.systemBootID = generation.systemBootID := by
    rw [hrows, Table.find_update, hfind] at hfind'
    split at hfind'
    · obtain rfl := Option.some.inj hfind'
      exact hkeeps generation
    · obtain rfl := Option.some.inj hfind'
      rfl
  by_cases htgt : primary.generationID = target
  · have hpfind' : after.generations.find primary.generationID = some (f primary) := by
      rw [hrows, Table.find_update, if_pos htgt, hpfind, Option.map_some]
    refine ⟨f primary, hsingle.primary hpfind' (hstays primary ?_ hprole), ?_⟩
    · rw [← htgt]
      exact hpfind
    · rw [hkept, hsame, hkeeps]
  · have hpfind' : after.generations.find primary.generationID = some primary := by
      rw [hrows, Table.find_update, if_neg htgt]
      exact hpfind
    exact ⟨primary, hsingle.primary hpfind' hprole, hkept.trans hsame⟩

section
variable {primary : Generation} (hprom : Promotes cohort request node primary candidate)
include hprom

theorem find_retired :
    (cohort.promote now request node primary candidate).generations.find primary.generationID =
      some (retire now request (boundRow candidate.systemBootID primary)) := by
  rw [find_promote_generations, (find_of_primary hprom.hprimary).1, Option.map_some]
  dsimp only
  rw [if_pos rfl, if_neg hprom.distinct]

theorem primary_promote (hinv : Inv cohort) :
    (cohort.promote now request node primary candidate).primary =
      some (promoted now request (node.authorityGeneration + 1) candidate) := by
  have hpromd : (cohort.promote now request node primary candidate).generations.find
      candidate.generationID =
        some (promoted now request (node.authorityGeneration + 1) candidate) := by
    rw [find_promote_generations, hprom.hcandidate, Option.map_some]
    dsimp only
    rw [if_pos rfl, if_neg (Ne.symm hprom.distinct), boundRow_of_staged _ hprom.staged]
  have hsingle : SinglePrimary (cohort.promote now request node primary candidate) :=
    fun _ _ _ _ hfst hsnd => (rowsAfter_promote hinv hprom).unique hinv hfst hsnd
  exact hsingle.primary hpromd rfl

/-- A promotion puts its survivors on the system boot of the new primary, if the candidate
registered one or the survivor none. -/
theorem onPrimaryBoot_promote (hinv : Inv cohort)
    (hfind : cohort.generations.find generationID = some generation)
    (hlive : generation.live = true)
    (hhost : candidate.systemBootID.isSome = true ∨ generation.systemBootID = none)
    (hfind' : (cohort.promote now request node primary candidate).generations.find generationID =
      some generation') :
    OnPrimaryBoot (cohort.promote now request node primary candidate) generation' := by
  have hoth : generationID ≠ candidate.generationID := by
    rintro rfl
    rw [hprom.hcandidate] at hfind
    obtain rfl := Option.some.inj hfind
    simp [Generation.live, hprom.staged] at hlive
  have hsurvivor := survivor_agrees hprom.boots hfind hlive hhost
  have hboot : generation'.systemBootID = candidate.systemBootID := by
    rw [find_promote_generations, hfind] at hfind'
    obtain rfl := Option.some.inj hfind'
    dsimp only
    rw [if_neg hoth]
    split
    · exact hsurvivor
    · exact hsurvivor
  exact ⟨_, primary_promote hprom hinv, hboot⟩

/-- A frozen attempt that has authority after the promotion has it through the retiring generation,
which is then on the system boot of the new primary. -/
theorem systemBoot_of_authorizes (hinv : Inv cohort) {attempt : Attempt} {caller jobID : Nat}
    {fencingToken : Option Nat} (hfroz : claimedAs attempt ∈
      cohort.primaryResidents node.bootSessionID node.authorityGeneration)
    (hatt : cohort.attempts.find attempt.attemptID = some attempt)
    (h : (cohort.promote now request node primary candidate).authorizes caller jobID
      attempt.attemptID fencingToken = true) :
    candidate.systemBootID.isSome = true ∨ primary.systemBootID = none := by
  obtain ⟨attempt', -, node', hatt', -, hnode', -, -, -, -, -, hcase⟩ := authorizes_iff.mp h
  obtain rfl := Option.mem_unique hatt hatt'
  obtain rfl := Option.some.inj hnode'
  rcases hcase with hretg | ⟨-, hauth⟩
  swap
  · -- the Node has moved on
    exact absurd (hauth.symm.trans (session_of_frozen hfroz).2) (Nat.succ_ne_self _)
  obtain ⟨resident, session, hresd, -, hsess, -, -, -, hsys⟩ :=
    retiringSessionAuthorized_iff.mp hretg
  obtain rfl := Option.mem_unique (find_promote_residents hprom hfroz) hresd
  obtain rfl := Option.mem_unique (find_retired hprom) hsess
  have hlive : primary.live = true := by
    simp [Generation.live, (find_of_primary hprom.hprimary).2]
  rw [primary_promote hprom hinv] at hsys
  have hboot : (boundRow candidate.systemBootID primary).systemBootID = candidate.systemBootID :=
    hsys
  rw [boundRow_systemBootID _ hlive] at hboot
  cases hnone : candidate.systemBootID with
  | some boot => exact .inl rfl
  | none =>
    rw [hnone, Option.or_none] at hboot
    exact .inr hboot

end

/-- **A retiring generation on the primary's system boot stays there** across any step on the
same host, while it is retiring. -/
theorem onPrimaryBoot_steps (hinv : Inv cohort) (h : Steps host cohort after) (hhost : host)
    (hfind : cohort.generations.find generationID = some generation)
    (hrole : generation.role = .retiring) (hboot : OnPrimaryBoot cohort generation)
    (hfind' : after.generations.find generationID = some generation') :
    OnPrimaryBoot after generation' := by
  have hsingle : SinglePrimary after :=
    fun _ _ _ _ hfst hsnd => (rowsAfter_steps hinv h).unique hinv hfst hsnd
  obtain ⟨primary, hprim, hsame⟩ := id hboot
  obtain ⟨hpfind, hprole⟩ := find_of_primary hprim
  have hlive : generation.live = true := by simp [Generation.live, hrole]
  have hoth : primary.generationID ≠ generationID := by
    rintro rfl
    obtain rfl := Option.mem_unique hfind hpfind
    rw [hrole] at hprole
    cases hprole
  -- the steps that leave the generations' rows alone
  have untouched : after.generations = cohort.generations → OnPrimaryBoot after generation' := by
    intro hrows
    rw [hrows, hfind] at hfind'
    obtain rfl := Option.some.inj hfind'
    exact ⟨primary, hsingle.primary (by rw [hrows]; exact hpfind) hprole, hsame⟩
  cases h with
  | rests | records | intends | works => exact untouched rfl
  | registers _ _ hnone | enrolls _ _ _ _ hnone =>
    rw [hprim] at hnone
    cases hnone
  | rejoins _ _ prior next _ hprior hpriorRole hnextRole _ _ _ _ _ hbnd =>
    have hid := hinv.unique _ _ _ _ hprior hpfind hpriorRole hprole
    rw [hid, hpfind] at hprior
    obtain rfl := Option.some.inj hprior
    have hnext := (Table.find_put (bindSystemBoot next.systemBootID cohort.generations) next
      next.generationID).trans (if_pos rfl)
    refine ⟨next, hsingle.primary hnext hnextRole, ?_⟩
    rw [Table.find_put, hid, if_neg hoth, find_bindSystemBoot, hfind] at hfind'
    obtain rfl := Option.some.inj hfind'
    -- what the primary reports now is what it had, or the first it reports
    rw [boundRow_systemBootID _ hlive, hsame]
    cases hpboot : primary.systemBootID with
    | none => exact Option.none_or
    | some boot =>
      rw [hbnd (by rw [hpboot]; rfl), hpboot]
      rfl
  | restarts _ _ prior next _ hstays hprior hpriorRole hnextRole =>
    have hid := hinv.unique _ _ _ _ hprior hpfind hpriorRole hprole
    rw [hid, hpfind] at hprior
    obtain rfl := Option.some.inj hprior
    have hnext := (Table.find_put cohort.generations next next.generationID).trans (if_pos rfl)
    refine ⟨next, hsingle.primary hnext hnextRole, ?_⟩
    rw [Table.find_put, hid, if_neg hoth, hfind] at hfind'
    obtain rfl := Option.some.inj hfind'
    exact hsame.trans (hstays hhost).symm
  | stages staged hfresh =>
    rw [Table.find_insert_of_some hfind] at hfind'
    obtain rfl := Option.some.inj hfind'
    exact ⟨primary, hsingle.primary (Table.find_insert_of_some hpfind) hprole, hsame⟩
  | promotes now request node old candidate hstays hprom =>
    obtain rfl := Option.some.inj (hprim.symm.trans hprom.hprimary)
    refine onPrimaryBoot_promote hprom hinv hfind hlive ?_ hfind'
    rw [hsame]
    exact hstays hhost
  | beats target now =>
    refine onPrimaryBoot_update hsingle (by intro; rfl) rfl (fun _ => rfl) ?_ hfind hboot hfind'
    exact fun _ _ hrow => hrow
  | closes target now row hrow hleft | aborts target now operationID row _ hrow hleft =>
    refine onPrimaryBoot_update hsingle (by intro; rfl) rfl (fun _ => rfl) ?_ hfind hboot hfind'
    intro row' hrow' hprim'
    obtain rfl := Option.mem_unique hrow hrow'
    rw [hleft] at hprim'
    cases hprim'
  | deEnrolls _ _ _ _ _ _ _ _ hretd => exact absurd hrole (hretd _ _ hfind)

/-! ## 3. Residents over a run -/

/-- An operation that is admitted and, if it commits, tells of no other system boot. -/
def OnHost (cohort : Cohort) (op : Op) : Prop :=
  cohort.Admits op ∧ ((committed (cohort.transact op)).isSome = true → SameHost cohort op)

instance decidableOnHost (cohort : Cohort) (op : Op) : Decidable (OnHost cohort op) :=
  inferInstanceAs (Decidable (_ ∧ (_ → _)))

/-- What is left of a frozen attempt: its resident, and a generation that is closed, or is
retiring with the attempt's session on the primary's system boot. -/
structure Retained (cohort : Cohort) (generationID : Nat) (frozen : ResidentAttempt)
    (identity : Nat) : Prop where
  inv : Inv cohort
  node : ∃ node, cohort.node = some node ∧ node.identityNodeID = identity
  resident : cohort.residents.find frozen.attemptID = some ⟨generationID, frozen⟩
  generation : ∃ generation, cohort.generations.find generationID = some generation ∧
    (generation.role = .closed ∨
      generation.role = .retiring ∧ generation.bootSessionID = frozen.bootSessionID ∧
        generation.authorityGeneration = frozen.authorityGeneration ∧
        OnPrimaryBoot cohort generation)

theorem RoleMove.of_retiring {role : Role} (h : RoleMove .retiring role) :
    role = .retiring ∨ role = .closed := by
  cases h with
  | stays => exact Or.inl rfl
  | closed => exact Or.inr rfl

variable {identity : Nat}

theorem retained_step (cohort : Cohort) (op : Op)
    (h : Retained cohort generationID frozen identity) (hhost : OnHost cohort op) :
    Retained (cohort.step op) generationID frozen identity := by
  by_cases hcom : (committed (cohort.transact op)).isSome = true
  case neg =>
    rw [Cohort.step, Option.not_isSome_iff_eq_none.mp hcom]
    exact h
  have hsteps := step_steps h.inv.documented hhost.1
  refine ⟨inv_step cohort op h.inv hhost.1, ?_, residents_steps hsteps h.resident, ?_⟩
  · obtain ⟨node, hnode, hident⟩ := h.node
    obtain ⟨node', hnode', hident'⟩ := identity_steps hsteps hnode
    exact ⟨node', hnode', hident'.trans hident⟩
  · obtain ⟨generation, hfind, hrole⟩ := h.generation
    obtain ⟨after, haft, hrow, -⟩ := (rowsAfter_steps h.inv hsteps).old _ _ hfind
    have hmove := hrow.move
    refine ⟨after, haft, ?_⟩
    rcases hrole with hclo | ⟨hretg, hboot, hauth, hsys⟩
    · rw [hclo] at hmove
      exact Or.inl hmove.of_closed
    rw [hretg] at hmove
    rcases RoleMove.of_retiring hmove with hrole' | hrole'
    · obtain ⟨hboot', hauth'⟩ := hrow.session (by rw [hrole']; exact nofun)
      exact Or.inr ⟨hrole', hboot'.trans hboot, hauth'.trans hauth,
        onPrimaryBoot_steps h.inv hsteps (hhost.2 hcom) hfind hretg hsys haft⟩
    · exact Or.inl hrole'

theorem retained_promote (hinv : Inv cohort) {primary : Generation}
    (hprom : Promotes cohort request node primary candidate)
    (haft : Inv (cohort.promote now request node primary candidate))
    (hhost : candidate.systemBootID.isSome = true ∨ primary.systemBootID = none)
    (hfroz : frozen ∈ cohort.primaryResidents node.bootSessionID node.authorityGeneration) :
    Retained (cohort.promote now request node primary candidate) primary.generationID frozen
      node.identityNodeID ∧
    ∃ generation, (cohort.promote now request node primary candidate).generations.find
      primary.generationID = some generation ∧ generation.role = .retiring := by
  obtain ⟨hfind, hrole⟩ := find_of_primary hprom.hprimary
  obtain ⟨hboot, hauth⟩ := session_of_frozen hfroz
  have hlive : primary.live = true := by simp [Generation.live, hrole]
  refine ⟨⟨haft, ⟨_, rfl, rfl⟩, find_promote_residents hprom hfroz, _, find_retired hprom,
    Or.inr ⟨rfl, ?_, ?_, ?_⟩⟩, _, find_retired hprom, rfl⟩
  · show (boundRow _ primary).bootSessionID = _
    rw [boundRow_bootSessionID, hboot, hprom.boot]
  · show (boundRow _ primary).authorityGeneration = _
    rw [boundRow_authorityGeneration, hauth, hprom.authority]
  · exact onPrimaryBoot_promote hprom hinv hfind hlive hhost (find_retired hprom)

theorem Retained.authorizes {attempt : Attempt} {job : Job}
    (h : Retained cohort generationID (claimedAs attempt) identity)
    (hopen : ∀ generation, cohort.generations.find generationID = some generation →
      generation.role ≠ .closed) (hatt : cohort.attempts.find attempt.attemptID = some attempt)
    (hjob : cohort.jobs.find attempt.jobID = some job)
    (hcur : job.currentAttemptID = some attempt.attemptID) :
    cohort.retiringSessionAuthorized attempt = true ∧
      cohort.authorizes identity attempt.jobID attempt.attemptID (some attempt.fencingToken) =
        true := by
  obtain ⟨generation, hfind, hrole⟩ := h.generation
  obtain ⟨hretg, hboot, hauth, primary, hprim, hsys⟩ :=
    hrole.resolve_left (hopen generation hfind)
  have hclause : cohort.retiringSessionAuthorized attempt = true := by
    refine retiringSessionAuthorized_iff.mpr
      ⟨_, generation, h.resident, rfl, hfind, hretg, hboot, hauth, ?_⟩
    rw [hprim, hsys]
    rfl
  obtain ⟨node, hnode, hident⟩ := h.node
  exact ⟨hclause, authorizes_iff.mpr ⟨attempt, job, node, hatt, hjob, hnode, hident, rfl,
    rfl, hcur, rfl, Or.inl hclause⟩⟩

/-! ## 4. Promotions -/

/-- A candidate without a system boot replaces a primary that registered one. The promotion is
accepted, and the resident it froze is refused from then on. -/
theorem promotion_strips_residents :
    Admitted Cohort.Admits Cohort.step Cohort.start (stagedUpgrade (some 9) none) ∧
    (committed ((reached (stagedUpgrade (some 9) none)).transact
      (.promote 2 5 upgradeRequest))).isSome = true ∧
    claimedAs (upgradeAttempt .running none) ∈ upgradeRequest.residentAttempts ∧
    (reached (stagedUpgrade (some 9) none)).authorizes 5 3 7 (some 1) = true ∧
    (reached (stagedUpgrade (some 9) none ++ [.promote 2 5 upgradeRequest])).authorizes 5 3 7
      (some 1) = false := by
  decide +kernel

/-- **Promotion keeps residents' authority on one host.** Let a promotion commit, and take an
attempt that it froze and that had authority before. The attempt has authority right after exactly
where the candidate registered a system boot or the old primary registered none. It then has it
through the retiring generation, and, if what commits later tells of no other system boot, it has it
while it is its job's current attempt and the generation it was frozen in is not closed. -/
theorem promotion_keeps_residents (before : List Op) (now : Int) (identity : Nat)
    (request : PromoteRequest) (hbef : Admitted Cohort.Admits Cohort.step Cohort.start before)
    (hcom : (committed ((reached before).transact
      (.promote now identity request))).isSome = true)
    (attempt : Attempt) (hfroz : claimedAs attempt ∈ request.residentAttempts)
    (hatt : (reached before).attempts.find attempt.attemptID = some attempt)
    (caller jobID : Nat) (fencingToken : Option Nat)
    (hauthd : (reached before).authorizes caller jobID attempt.attemptID fencingToken =
      true) :
    ((reached (before ++ [.promote now identity request])).authorizes caller jobID
        attempt.attemptID fencingToken = true ↔
      SameHost (reached before) (.promote now identity request)) ∧
    (SameHost (reached before) (.promote now identity request) →
      (reached (before ++ [.promote now identity request])).retiringSessionAuthorized attempt =
        true ∧
      ∀ later, Admitted OnHost Cohort.step (reached (before ++ [.promote now identity request]))
          later →
        ∀ attempt' job,
        (reached (before ++ .promote now identity request :: later)).attempts.find
          attempt.attemptID = some attempt' →
        claimedAs attempt' = claimedAs attempt →
        (reached (before ++ .promote now identity request :: later)).jobs.find jobID = some job →
        job.currentAttemptID = some attempt.attemptID →
        (∀ generation, (reached (before ++ .promote now identity request :: later)).generations.find
          request.expectedPrimaryGenerationID = some generation → generation.role ≠ .closed) →
        (reached (before ++ .promote now identity request :: later)).authorizes caller jobID
          attempt.attemptID fencingToken = true) := by
  have hinv := inv_reached hbef
  obtain ⟨after, haft⟩ := Option.isSome_iff_exists.mp hcom
  have hstep : (reached before).step (.promote now identity request) = after := by
    rw [Cohort.step, haft, Option.getD_some]
  have hreached : reached (before ++ [.promote now identity request]) = after := by
    rw [reached, exec_append]
    exact hstep
  have hlater : ∀ later, reached (before ++ .promote now identity request :: later) =
      exec Cohort.step after later := by
    intro later
    rw [reached, exec_append, exec_cons, ← hstep]
    rfl
  -- the rows the promotion replaced
  obtain ⟨node, primary, candidate, hprom, rfl⟩ :=
    Ensures.committed (P := fun after => ∃ node primary candidate,
        Promotes (reached before) request node primary candidate ∧
          after = (reached before).promote now request node primary candidate)
      (.mono promoteNodeGeneration_ensures
        (fun _ h => h.elim) fun _ h => h) haft
  -- what the frozen attempt had
  obtain ⟨attempt₀, job, node₀, hattempt₀, hjob, hnode₀, rfl, rfl, -, hcur, rfl, -⟩ :=
    authorizes_iff.mp hauthd
  obtain rfl := Option.mem_unique hatt hattempt₀
  rw [hprom.hnode] at hnode₀
  obtain rfl := Option.some.inj hnode₀
  have hinv' := inv_step (reached before) (.promote now identity request) hinv trivial
  rw [hstep] at hinv'
  rw [hprom.residents.mem_iff.symm] at hfroz
  rw [hreached, hprom.sameHost_iff]
  -- what it has right after
  have hkept := fun hsys => retained_promote hinv hprom hinv' hsys hfroz
  have hnext : candidate.systemBootID.isSome = true ∨ primary.systemBootID = none → _ := fun hsys =>
    (hkept hsys).1.authorizes (fun generation' hfind' => by
      obtain ⟨-, generation, hfind, hretg⟩ := hkept hsys
      obtain rfl := Option.mem_unique hfind hfind'
      rw [hretg]
      exact nofun) hatt hjob hcur
  refine ⟨⟨systemBoot_of_authorizes hprom hinv hfroz hatt, fun hsys => (hnext hsys).2⟩,
    fun hsys => ⟨(hnext hsys).1, ?_⟩⟩
  · intro later hhost attempt' job' hatt' hsame hjob' hcur' hopen
    rw [hlater] at hatt' hjob' hopen ⊢
    have hretn' := (Run.of_admitted hhost).invariant
      (P := fun cohort => Retained cohort primary.generationID
      (claimedAs attempt) node.identityNodeID) retained_step (hkept hsys).1
    obtain ⟨hjobID, hattemptID, -, -, htoken⟩ := ResidentAttempt.mk.inj hsame
    rw [← hsame] at hretn'
    rw [← hjobID] at hjob' ⊢
    rw [← hattemptID] at hatt' hcur' ⊢
    rw [← htoken]
    rw [← hprom.expected] at hopen
    exact (hretn'.authorizes hopen hatt' hjob' hcur').2

/-- The upgrade with a system boot, and a heartbeat of the retiring generation. -/
def retiringUpgrade : List Op :=
  stagedUpgrade (some 9) (some 9) ++ .promote 2 5 upgradeRequest :: [.heartbeatRetiring 3 5 1 10]

/-- The resident keeps its authority through the promotion, and after it. -/
theorem promotion_keeps_residents_upgrade :
    Admitted Cohort.Admits Cohort.step Cohort.start (stagedUpgrade (some 9) (some 9)) ∧
    (reached (stagedUpgrade (some 9) (some 9) ++
      [.promote 2 5 upgradeRequest])).authorizes 5 3 7 (some 1) = true ∧
    (reached retiringUpgrade).authorizes 5 3 7 (some 1) = true := by
  have hbef : Admitted Cohort.Admits Cohort.step Cohort.start
      (stagedUpgrade (some 9) (some 9)) := by decide +kernel
  have hhost : SameHost (reached (stagedUpgrade (some 9) (some 9)))
      (.promote 2 5 upgradeRequest) := by decide +kernel
  have hcur : ((reached retiringUpgrade).jobs.find 3).map (fun job => job.currentAttemptID) =
      some (some 7) := by decide +kernel
  have hretg : ((reached retiringUpgrade).generations.find 1).map (fun g => g.role) =
      some .retiring := by decide +kernel
  obtain ⟨job, hjob, hcur⟩ := Option.map_eq_some_iff.mp hcur
  obtain ⟨row, hrow, hrole⟩ := Option.map_eq_some_iff.mp hretg
  obtain ⟨hiff, hkeeps⟩ := promotion_keeps_residents (stagedUpgrade (some 9) (some 9)) 2 5
    upgradeRequest hbef (by decide +kernel) (upgradeAttempt .running none) (by decide +kernel)
    (by decide +kernel) 5 3 (some 1) (by decide +kernel)
  refine ⟨hbef, hiff.mpr hhost, (hkeeps hhost).2 [.heartbeatRetiring 3 5 1 10] (by decide +kernel)
    (upgradeAttempt .running none) job (by decide +kernel) rfl hjob hcur fun generation hfind => ?_⟩
  obtain rfl := Option.mem_unique hrow hfind
  rw [hrole]
  exact nofun

end Wefty.ResidentAuthority
