/-
The rows of a Node's generations, beside the row of the Node, and what one step does to them.

Two facts about a row carry everything that follows. A primary generation has the boot session
and the authority generation of its Node. A generation that is or was primary and is not
primary any more has a lower authority generation than its Node.
-/
import Wefty.GenerationSteps

set_option autoImplicit false

namespace Wefty.GenerationRows

open Tables NodeGenerations NodeGenerations.Cohort GenerationSteps

variable {cohort : Cohort} {after before generation generation' : Generation} {first second : Nat}
variable {now : Int}
variable {node : Option HostNode}

/-! ## 1. The invariant -/

structure Placed (node : Option HostNode) (generation : Generation) : Prop where
  document : generation.registration.bootSessionID = generation.bootSessionID
  staged : generation.role = .staged → generation.authorityGeneration = 0
  primary : generation.role = .primary → ∃ n, node = some n ∧
    n.bootSessionID = generation.bootSessionID ∧
    n.authorityGeneration = generation.authorityGeneration
  left : generation.role = .retiring ∨ generation.role = .closed → ∃ n, node = some n ∧
    generation.authorityGeneration < n.authorityGeneration

structure Inv (cohort : Cohort) : Prop where
  placed : ∀ generationID generation, cohort.generations.find generationID = some generation →
    Placed cohort.node generation
  unique : ∀ first second generation generation',
    cohort.generations.find first = some generation →
    cohort.generations.find second = some generation' →
    generation.role = .primary → generation'.role = .primary → first = second
  distinct : ∀ first second generation generation',
    cohort.generations.find first = some generation →
    cohort.generations.find second = some generation' →
    generation.authorityGeneration = generation'.authorityGeneration →
    generation.authorityGeneration ≠ 0 → first = second
  positive : ∀ node, cohort.node = some node → 1 ≤ node.authorityGeneration
  claimed : ∀ attemptID attempt, cohort.attempts.find attemptID = some attempt →
    1 ≤ attempt.authorityGeneration

/-- The Node's authority generation does not go back. -/
def Onward (node node' : Option HostNode) : Prop :=
  ∀ n, node = some n → ∃ n', node' = some n' ∧ n.authorityGeneration ≤ n'.authorityGeneration

theorem Placed.onward {node' : Option HostNode} (h : Placed node generation)
    (honw : Onward node node') (hrole : generation.role ≠ .primary) : Placed node' generation where
  document := h.document
  staged := h.staged
  primary := fun hprim => absurd hprim hrole
  left := by
    intro hleft
    obtain ⟨n, hn, hlt⟩ := h.left hleft
    obtain ⟨n', hn', hle⟩ := honw n hn
    exact ⟨n', hn', Nat.lt_of_lt_of_le hlt hle⟩

theorem Placed.congr (h : Placed node generation) (hrole : generation'.role = generation.role)
    (hboot : generation'.bootSessionID = generation.bootSessionID)
    (hauth : generation'.authorityGeneration = generation.authorityGeneration)
    (hdoc : generation'.registration.bootSessionID = generation.registration.bootSessionID) :
    Placed node generation' where
  document := by rw [hdoc, hboot, h.document]
  staged := by rw [hrole, hauth]; exact h.staged
  primary := by rw [hrole, hboot, hauth]; exact h.primary
  left := by rw [hrole, hauth]; exact h.left

theorem Placed.of_primary {node : HostNode} (hrole : generation.role = .primary)
    (hdoc : generation.registration.bootSessionID = generation.bootSessionID)
    (hboot : node.bootSessionID = generation.bootSessionID)
    (hauth : node.authorityGeneration = generation.authorityGeneration) :
    Placed (some node) generation where
  document := hdoc
  staged := by intro h; rw [hrole] at h; cases h
  primary := fun _ => ⟨node, rfl, hboot, hauth⟩
  left := by
    intro h
    rw [hrole] at h
    rcases h with h | h <;> cases h

theorem Placed.of_left {node : HostNode}
    (hrole : generation.role = .retiring ∨ generation.role = .closed)
    (hdoc : generation.registration.bootSessionID = generation.bootSessionID)
    (hlt : generation.authorityGeneration < node.authorityGeneration) :
    Placed (some node) generation where
  document := hdoc
  staged := by
    intro h
    rw [h] at hrole
    rcases hrole with hrole | hrole <;> cases hrole
  primary := by
    intro h
    rw [h] at hrole
    rcases hrole with hrole | hrole <;> cases hrole
  left := fun _ => ⟨node, rfl, hlt⟩

theorem Inv.documented (h : Inv cohort) : Documented cohort :=
  fun generationID generation hfind => (h.placed generationID generation hfind).document

theorem Inv.other (h : Inv cohort) (hfst : cohort.generations.find first = some generation)
    (hprim : generation.role = .primary) (hsnd : cohort.generations.find second = some generation')
    (hne : second ≠ first) : generation'.role ≠ .primary :=
  fun hprim' => hne (h.unique _ _ _ _ hsnd hfst hprim' hprim)

/-- The Node after a step. -/
structure NodeAfter (cohort : Cohort) (node : Option HostNode) : Prop where
  onward : Onward cohort.node node
  positive : ∀ n, node = some n → 1 ≤ n.authorityGeneration

theorem nodeAfter_same (hinv : Inv cohort) : NodeAfter cohort cohort.node :=
  ⟨fun n hn => ⟨n, hn, Nat.le_refl _⟩, hinv.positive⟩

theorem nodeAfter_next {node : HostNode} (h : node.authorityGeneration = nextAuthority cohort) :
    NodeAfter cohort (some node) := by
  refine ⟨fun n hn => ⟨node, rfl, ?_⟩, ?_⟩
  · rw [h, nextAuthority, hn]
    exact Nat.le_succ _
  · rintro _ ⟨⟩
    rw [h]
    exact Nat.succ_pos _

theorem nextAuthority_of_node {node : HostNode} (hnode : cohort.node = some node) :
    node.authorityGeneration + 1 = nextAuthority cohort := by
  rw [nextAuthority, hnode]
  rfl

/-! ## 2. Rows after a step -/

inductive RoleMove : Role → Role → Prop
  | stays (role : Role) : RoleMove role role
  | promoted : RoleMove .staged .primary
  | retired : RoleMove .primary .retiring
  | closed : RoleMove .retiring .closed
  | aborted : RoleMove .staged .closed
  | deEnrolled : RoleMove .primary .closed

/-- A row after a step: its role moves along the machine, and its session is the one it had
unless it is the primary now. -/
structure RowStep (before after : Generation) : Prop where
  move : RoleMove before.role after.role
  session : after.role ≠ .primary → after.bootSessionID = before.bootSessionID ∧
    after.authorityGeneration = before.authorityGeneration

theorem RowStep.refl (generation : Generation) : RowStep generation generation :=
  ⟨RoleMove.stays _, fun _ => ⟨rfl, rfl⟩⟩

theorem Placed.bound (h : Placed node generation) (systemBootID : Option Nat) :
    Placed node (boundRow systemBootID generation) :=
  h.congr (boundRow_role _ _) (boundRow_bootSessionID _ _) (boundRow_authorityGeneration _ _)
    (boundRow_document _ _)

theorem RowStep.of_same (hrole : after.role = before.role)
    (hboot : after.bootSessionID = before.bootSessionID)
    (hauth : after.authorityGeneration = before.authorityGeneration) : RowStep before after := by
  refine ⟨?_, fun _ => ⟨hboot, hauth⟩⟩
  rw [hrole]
  exact RoleMove.stays _

theorem RowStep.to_primary (haft : after.role = .primary) (hmove : RoleMove before.role .primary)
    : RowStep before after :=
  ⟨by rw [haft]; exact hmove, fun h => absurd haft h⟩

theorem RowStep.of_move (hmove : RoleMove before.role after.role)
    (hboot : after.bootSessionID = before.bootSessionID)
    (hauth : after.authorityGeneration = before.authorityGeneration) : RowStep before after :=
  ⟨hmove, fun _ => ⟨hboot, hauth⟩⟩

structure RowsAfter (cohort : Cohort) (node : Option HostNode)
    (generations : Table Generation.generationID) : Prop extends NodeAfter cohort node where
  old : ∀ generationID generation, cohort.generations.find generationID = some generation →
    ∃ after, generations.find generationID = some after ∧ RowStep generation after ∧
      Placed node after
  new : ∀ generationID after, cohort.generations.find generationID = none →
    generations.find generationID = some after →
      Placed node after ∧ (after.role = .primary ∨ after.role = .staged)
  primaries : (∀ generationID after, generations.find generationID = some after →
      after.role = .primary → ∃ generation,
        cohort.generations.find generationID = some generation ∧ generation.role = .primary) ∨
    ∃ only, ∀ generationID after, generations.find generationID = some after →
      after.role = .primary → generationID = only

variable {generations : Table Generation.generationID}

/-- The rows are replaced one by one. The primary stays where it was, or all but one of the
generations leave the role. -/
theorem rowsAfter_map (hnode : NodeAfter cohort node) (g : Nat → Generation → Generation)
    (hrows : ∀ id, generations.find id = (cohort.generations.find id).map (g id))
    (hstep : ∀ id generation, cohort.generations.find id = some generation →
      RowStep generation (g id generation) ∧ Placed node (g id generation))
    (hprim : (∀ id generation, cohort.generations.find id = some generation →
        (g id generation).role = .primary → generation.role = .primary) ∨
      ∃ only, ∀ id generation, cohort.generations.find id = some generation →
        (g id generation).role = .primary → id = only) :
    RowsAfter cohort node generations := by
  refine ⟨hnode, ?_, ?_, ?_⟩
  · intro id generation hfind
    exact ⟨_, by rw [hrows, hfind]; rfl, hstep id generation hfind⟩
  · intro id after hnone hfind
    rw [hrows, hnone] at hfind
    cases hfind
  · refine hprim.imp (fun hkept => ?_) fun ⟨only, honly⟩ => ⟨only, ?_⟩ <;>
      intro id after hfind hrole <;>
      obtain ⟨generation, hgen, rfl⟩ := Option.map_eq_some_iff.mp ((hrows id).symm.trans hfind)
    · exact ⟨generation, hgen, hkept id generation hgen hrole⟩
    · exact honly id generation hgen hrole

theorem rowsAfter_same (hnode : NodeAfter cohort node) (hplace : ∀ generationID generation,
      cohort.generations.find generationID = some generation → Placed node generation) :
    RowsAfter cohort node cohort.generations :=
  rowsAfter_map hnode (fun _ => id) (fun _ => by rw [Option.map_id]; rfl)
    (fun _ _ hfind => ⟨RowStep.refl _, hplace _ _ hfind⟩) (.inl fun _ _ _ hrole => hrole)

theorem rowsAfter_update (hnode : NodeAfter cohort node) (target : Nat)
    (f : Generation → Generation)
    (hf : ∀ generation, (f generation).generationID = generation.generationID)
    (htgt : ∀ generation, cohort.generations.find target = some generation →
      RowStep generation (f generation) ∧ Placed node (f generation) ∧
        ((f generation).role = .primary → generation.role = .primary))
    (hothers : ∀ generationID generation, generationID ≠ target →
      cohort.generations.find generationID = some generation → Placed node generation) :
    RowsAfter cohort node (cohort.generations.update target f hf) := by
  refine rowsAfter_map hnode (fun id generation => if id = target then f generation else generation)
    (fun id => ?_) (fun id generation hfind => ?_) (.inl fun id generation hfind => ?_)
  · rw [Table.find_update]
    split <;> simp
  · by_cases hid : id = target
    · subst hid
      rw [if_pos rfl]
      obtain ⟨hstep, hplace, -⟩ := htgt generation hfind
      exact ⟨hstep, hplace⟩
    · rw [if_neg hid]
      exact ⟨RowStep.refl _, hothers id generation hid hfind⟩
  · by_cases hid : id = target
    · subst hid
      rw [if_pos rfl]
      exact (htgt generation hfind).2.2
    · rw [if_neg hid]
      exact fun hrole => hrole

/-- The primary's row is written, over rows of which a system boot may have been bound. -/
theorem rowsAfter_put (hinv : Inv cohort) (systemBootID : Option Nat) {node : HostNode}
    {prior : Generation} (hnode : NodeAfter cohort (some node))
    (hrows : ∀ id, generations.find id =
      (cohort.generations.find id).map (boundRow systemBootID))
    (hplace : Placed (some node) generation)
    (hprior : cohort.generations.find generation.generationID = some prior)
    (hrole : prior.role = .primary) (hstep : RowStep prior generation) :
    RowsAfter cohort (some node) (generations.put generation) := by
  refine rowsAfter_map hnode (fun id other => if generation.generationID = id then generation
      else boundRow systemBootID other) (fun id => ?_) (fun id other hfind => ?_)
    (.inr ⟨generation.generationID, fun id other hfind hprim => ?_⟩)
  · rw [Table.find_put, hrows]
    split
    next hid =>
      rw [← hid, hprior]
      rfl
    · rfl
  · by_cases hid : generation.generationID = id
    · subst hid
      rw [if_pos rfl]
      obtain rfl := Option.mem_unique hprior hfind
      exact ⟨hstep, hplace⟩
    · rw [if_neg hid]
      have hoth := hinv.other hprior hrole hfind (Ne.symm hid)
      exact ⟨RowStep.of_same (boundRow_role _ _) (boundRow_bootSessionID _ _)
        (boundRow_authorityGeneration _ _),
        ((hinv.placed id other hfind).onward hnode.onward hoth).bound _⟩
  · by_contra hid
    rw [if_neg (Ne.symm hid), boundRow_role] at hprim
    exact hinv.other hprior hrole hfind hid hprim

/-- A new generation, which is primary only where no other is. -/
theorem rowsAfter_insert (hnode : NodeAfter cohort node)
    (hfresh : cohort.generations.find generation.generationID = none)
    (hrows : ∀ id, generations.find id =
      if generation.generationID = id then some generation else cohort.generations.find id)
    (hplace : Placed node generation)
    (hrole : generation.role = .primary ∨ generation.role = .staged)
    (hothers : ∀ id other, cohort.generations.find id = some other → Placed node other ∧
      (generation.role = .primary → other.role ≠ .primary)) :
    RowsAfter cohort node generations := by
  refine ⟨hnode, ?_, ?_, ?_⟩
  · intro id other hfind
    refine ⟨other, ?_, RowStep.refl _, (hothers id other hfind).1⟩
    rw [hrows, if_neg, hfind]
    rintro rfl
    rw [hfresh] at hfind
    cases hfind
  · intro id after hnone hfind
    rw [hrows, hnone] at hfind
    split at hfind <;> cases hfind
    exact ⟨hplace, hrole⟩
  · by_cases hprim : generation.role = .primary
    · refine .inr ⟨generation.generationID, fun id after hfind hafter => ?_⟩
      by_contra hid
      rw [hrows, if_neg (Ne.symm hid)] at hfind
      exact (hothers id after hfind).2 hprim hafter
    · refine .inl fun id after hfind hafter => ?_
      rw [hrows] at hfind
      split at hfind
      · cases hfind
        exact absurd hafter hprim
      · exact ⟨after, hfind, hafter⟩

theorem boundRow_none : boundRow none = id := by
  funext generation
  simp [boundRow]

variable {request : PromoteRequest} {generationID : Nat}

theorem find_promote_generations {node : HostNode} {primary candidate : Generation} :
    (cohort.promote now request node primary candidate).generations.find generationID =
      (cohort.generations.find generationID).map fun generation =>
        let bound := boundRow candidate.systemBootID generation
        let retired := if generationID = primary.generationID then retire now request bound
          else bound
        if generationID = candidate.generationID then
          promoted now request (node.authorityGeneration + 1) retired
        else retired := by
  have hretire : ∀ generation, (retire now request generation).generationID =
      generation.generationID := fun _ => rfl
  have hpromd : ∀ generation, (promoted now request (node.authorityGeneration + 1)
      generation).generationID = generation.generationID := fun _ => rfl
  refine (Table.find_update _ candidate.generationID _ hpromd generationID).trans ?_
  rw [Table.find_update _ primary.generationID _ hretire, find_bindSystemBoot]
  cases cohort.generations.find generationID with
  | none => simp
  | some generation =>
    simp only [Option.map_some]
    split_ifs <;> rfl

theorem rowsAfter_promote (hinv : Inv cohort) {node : HostNode}
    {primary candidate : Generation} (hprom : Promotes cohort request node primary candidate) :
    RowsAfter cohort (cohort.promote now request node primary candidate).node
      (cohort.promote now request node primary candidate).generations := by
  obtain ⟨hfind, hrole⟩ := find_of_primary hprom.hprimary
  have hdistinct := hprom.distinct
  obtain ⟨hnode, -, hcandidate, -, -, hstage, -, hauth, -, -, -⟩ := hprom
  have hafter : NodeAfter cohort (cohort.promote now request node primary candidate).node :=
    nodeAfter_next (nextAuthority_of_node hnode)
  refine rowsAfter_map hafter _ (fun _ => find_promote_generations) ?_
    (.inr ⟨candidate.generationID, ?_⟩)
  · intro generationID generation hgen
    have hplace := hinv.placed generationID generation hgen
    dsimp only
    -- the candidate, the old primary, and the others
    by_cases hc : generationID = candidate.generationID
    · subst hc
      obtain rfl := Option.mem_unique hcandidate hgen
      rw [if_pos rfl, if_neg (Ne.symm hdistinct)]
      refine ⟨RowStep.to_primary rfl (by rw [hstage]; exact RoleMove.promoted), ?_⟩
      refine Placed.of_primary rfl ?_ ?_ rfl
      · exact (hplace.bound _).document
      · show candidate.registration.bootSessionID = (boundRow _ candidate).bootSessionID
        rw [boundRow_bootSessionID]
        exact hplace.document
    · rw [if_neg hc]
      by_cases hp : generationID = primary.generationID
      · subst hp
        obtain rfl := Option.mem_unique hfind hgen
        rw [if_pos rfl]
        refine ⟨RowStep.of_move (by rw [hrole]; exact RoleMove.retired)
          (boundRow_bootSessionID _ _) (boundRow_authorityGeneration _ _), ?_⟩
        refine Placed.of_left (Or.inl rfl) ?_ ?_
        · exact (hplace.bound _).document
        · show (boundRow _ primary).authorityGeneration < node.authorityGeneration + 1
          rw [boundRow_authorityGeneration, hauth]
          exact Nat.lt_succ_self _
      · rw [if_neg hp]
        have hoth := hinv.other hfind hrole hgen hp
        exact ⟨RowStep.of_same (boundRow_role _ _) (boundRow_bootSessionID _ _)
          (boundRow_authorityGeneration _ _), (hplace.onward hafter.onward hoth).bound _⟩
  · intro generationID generation hgen hprim
    by_contra hc
    dsimp only at hprim
    rw [if_neg hc] at hprim
    by_cases hp : generationID = primary.generationID
    · rw [if_pos hp] at hprim
      cases hprim
    · rw [if_neg hp, boundRow_role] at hprim
      exact hinv.other hfind hrole hgen hp hprim

/-- **The generations after any step.** -/
theorem rowsAfter_steps {host : Prop} {after : Cohort} (hinv : Inv cohort)
    (h : Steps host cohort after) : RowsAfter cohort after.node after.generations := by
  cases h with
  | rests | records | works => exact rowsAfter_same (nodeAfter_same hinv) hinv.placed
  | intends claimsEnabled intentRevision intentReason =>
    let f := fun n : HostNode => { n with claimsEnabled, intentRevision, intentReason }
    have hmap : ∀ n, cohort.node = some n → cohort.node.map f = some (f n) := by
      intro n hn
      rw [hn]
      rfl
    refine rowsAfter_same ⟨fun n hn => ⟨f n, hmap n hn, Nat.le_refl _⟩, ?_⟩ ?_
    · intro _ hn'
      obtain ⟨n, hn, rfl⟩ := Option.map_eq_some_iff.mp hn'
      exact hinv.positive n hn
    · intro generationID generation hfind
      have hplace := hinv.placed generationID generation hfind
      refine ⟨hplace.document, hplace.staged, ?_, ?_⟩
      · intro hrole
        obtain ⟨n, hn, hboot, hauth⟩ := hplace.primary hrole
        exact ⟨f n, hmap n hn, hboot, hauth⟩
      · intro hrole
        obtain ⟨n, hn, hlt⟩ := hplace.left hrole
        exact ⟨f n, hmap n hn, hlt⟩
  | registers node _ hprim hauth =>
    refine rowsAfter_same (nodeAfter_next hauth) fun generationID generation hfind => ?_
    exact (hinv.placed generationID generation hfind).onward (nodeAfter_next hauth).onward
      (role_ne_of_primary_none hprim hfind)
  | enrolls node catalogRevision generation _ hprim hfresh hrole hdoc hboot hauth
      hgen =>
    refine rowsAfter_insert (nodeAfter_next hauth) hfresh (Table.find_put _ _)
      (Placed.of_primary hrole hdoc hboot (hauth.trans hgen.symm)) (.inl hrole) ?_
    intro generationID other hfind
    have hoth := role_ne_of_primary_none hprim hfind
    exact ⟨(hinv.placed generationID other hfind).onward (nodeAfter_next hauth).onward hoth,
      fun _ => hoth⟩
  | rejoins node catalogRevision prior generation _ hprior hrole hrole' hdoc hsame hboot
      hauth hgen hbnd =>
    obtain ⟨n, hn, -, hauth'⟩ := (hinv.placed _ prior hprior).primary hrole
    have hkept : n.authorityGeneration = node.authorityGeneration := hauth'.trans hauth.symm
    refine rowsAfter_put hinv generation.systemBootID ⟨?_, ?_⟩ (find_bindSystemBoot _ _)
      (Placed.of_primary hrole' hdoc hboot (hauth.trans hgen.symm)) hprior hrole
      (RowStep.of_same (hrole'.trans hrole.symm) hsame hgen)
    · intro n' hn'
      obtain rfl := Option.mem_unique hn hn'
      exact ⟨node, rfl, Nat.le_of_eq hkept⟩
    · rintro _ ⟨⟩
      rw [← hkept]
      exact hinv.positive n hn
  | restarts node catalogRevision prior generation _ _ hprior hrole hrole' hdoc hboot hauth
      hgen =>
    refine rowsAfter_put hinv none (nodeAfter_next hauth) (fun _ => ?_)
      (Placed.of_primary hrole' hdoc hboot (hauth.trans hgen.symm)) hprior hrole
      (RowStep.to_primary hrole' (by rw [hrole]; exact RoleMove.stays _))
    rw [boundRow_none, Option.map_id, id]
  | stages generation hfresh hrole hauth hdoc =>
    refine rowsAfter_insert (nodeAfter_same hinv) hfresh (Table.find_insert _ _ hfresh) ?_
      (.inr hrole) ?_
    · refine ⟨hdoc, fun _ => hauth, ?_, ?_⟩ <;> rw [hrole]
      · intro h
        cases h
      · rintro (h | h) <;> cases h
    · intro generationID other hfind
      refine ⟨hinv.placed generationID other hfind, fun hprim => ?_⟩
      rw [hrole] at hprim
      cases hprim
  | promotes now request node primary candidate _ hprom =>
    exact rowsAfter_promote hinv hprom
  | beats generationID now =>
    refine rowsAfter_update (nodeAfter_same hinv) generationID
      (fun generation => { generation with heartbeatNS := now }) (fun _ => rfl) ?_ ?_
    · intro generation hfind
      exact ⟨RowStep.of_same rfl rfl rfl,
        (hinv.placed _ generation hfind).congr rfl rfl rfl rfl, id⟩
    · exact fun _ generation _ hfind => hinv.placed _ generation hfind
  | closes generationID now target htgt hrole =>
    refine rowsAfter_update (nodeAfter_same hinv) generationID (Cohort.close now) (fun _ => rfl)
      ?_ fun _ generation _ hfind => hinv.placed _ generation hfind
    intro generation hfind
    obtain rfl := Option.mem_unique htgt hfind
    have hplace := hinv.placed _ target htgt
    obtain ⟨n, hn, hlt⟩ := hplace.left (Or.inl hrole)
    refine ⟨RowStep.of_move (by rw [hrole]; exact RoleMove.closed) rfl rfl, ?_, nofun⟩
    rw [hn]
    exact Placed.of_left (Or.inr rfl) hplace.document hlt
  | aborts generationID now operationID target operations htgt hrole hnode =>
    obtain ⟨n, hn⟩ := Option.isSome_iff_exists.mp hnode
    refine rowsAfter_update (nodeAfter_same hinv) generationID (fun generation =>
      { Cohort.close now generation with promotionOperationID := operationID }) (fun _ => rfl)
      ?_ fun _ generation _ hfind => hinv.placed _ generation hfind
    intro generation hfind
    obtain rfl := Option.mem_unique htgt hfind
    have hplace := hinv.placed _ target htgt
    refine ⟨RowStep.of_move (by rw [hrole]; exact RoleMove.aborted) rfl rfl, ?_, nofun⟩
    rw [hn]
    refine Placed.of_left (Or.inr rfl) hplace.document ?_
    show target.authorityGeneration < n.authorityGeneration
    rw [hplace.staged hrole]
    exact hinv.positive n hn
  | deEnrolls now revokedBoot node primary catalogRevision operations hnode hprim hretd =>
    obtain ⟨hfind, hrole⟩ := find_of_primary hprim
    have hafter : NodeAfter cohort (some { node with
        bootSessionID := revokedBoot
        authorityGeneration := node.authorityGeneration + 1 }) :=
      nodeAfter_next (nextAuthority_of_node hnode)
    refine rowsAfter_update hafter primary.generationID (Cohort.close now) (fun _ => rfl) ?_ ?_
    · intro generation hgen
      obtain rfl := Option.mem_unique hfind hgen
      have hplace := hinv.placed _ primary hfind
      obtain ⟨n, hn, -, hauth⟩ := hplace.primary hrole
      obtain rfl := Option.mem_unique hnode hn
      refine ⟨RowStep.of_move (by rw [hrole]; exact RoleMove.deEnrolled) rfl rfl, ?_, nofun⟩
      refine Placed.of_left (Or.inr rfl) hplace.document ?_
      show primary.authorityGeneration < node.authorityGeneration + 1
      omega
    · intro generationID generation hid hgen
      exact (hinv.placed _ generation hgen).onward hafter.onward
        (hinv.other hfind hrole hgen hid)

/-! ## 3. What follows about the rows -/

theorem RoleMove.of_closed {role : Role} (h : RoleMove .closed role) : role = .closed := by
  cases h
  rfl

theorem RowsAfter.placed (h : RowsAfter cohort node generations)
    (haft : generations.find generationID = some after) : Placed node after := by
  cases hbef : cohort.generations.find generationID with
  | none => exact (h.new generationID after hbef haft).1
  | some before =>
    obtain ⟨after', haft', -, hplace⟩ := h.old generationID before hbef
    obtain rfl := Option.mem_unique haft haft'
    exact hplace

theorem RowsAfter.unique (h : RowsAfter cohort node generations) (hinv : Inv cohort)
    (hfst : generations.find first = some generation)
    (hsnd : generations.find second = some generation') (hrole : generation.role = .primary)
    (hrole' : generation'.role = .primary) : first = second := by
  obtain hbef | ⟨only, honly⟩ := h.primaries
  · obtain ⟨before, hfind, hprim⟩ := hbef first generation hfst hrole
    obtain ⟨before', hfind', hprim'⟩ := hbef second generation' hsnd hrole'
    exact hinv.unique _ _ _ _ hfind hfind' hprim hprim'
  · exact (honly first generation hfst hrole).trans (honly second generation' hsnd hrole').symm

theorem RowsAfter.kept (h : RowsAfter cohort node generations)
    (haft : generations.find generationID = some after) (hrole : after.role ≠ .primary)
    (hauth : after.authorityGeneration ≠ 0) :
    ∃ before, cohort.generations.find generationID = some before ∧
      before.authorityGeneration = after.authorityGeneration := by
  cases hbef : cohort.generations.find generationID with
  | none =>
    obtain ⟨hplace, hrole'⟩ := h.new generationID after hbef haft
    exact absurd (hplace.staged (hrole'.resolve_left hrole)) hauth
  | some before =>
    obtain ⟨after', haft', hstep, -⟩ := h.old generationID before hbef
    obtain rfl := Option.mem_unique haft haft'
    exact ⟨before, rfl, (hstep.session hrole).2.symm⟩

theorem Placed.authority_ne (h : Placed node generation) (h' : Placed node generation')
    (hrole : generation.role = .primary) (hrole' : generation'.role ≠ .primary)
    (hpos : generation'.authorityGeneration ≠ 0) :
    generation.authorityGeneration ≠ generation'.authorityGeneration := by
  intro hsame
  obtain ⟨n, hn, -, hauth⟩ := h.primary hrole
  cases hcase : generation'.role with
  | staged => exact hpos (h'.staged hcase)
  | primary => exact hrole' hcase
  | retiring =>
    obtain ⟨n', hn', hlt⟩ := h'.left (Or.inl hcase)
    obtain rfl := Option.mem_unique hn hn'
    omega
  | closed =>
    obtain ⟨n', hn', hlt⟩ := h'.left (Or.inr hcase)
    obtain rfl := Option.mem_unique hn hn'
    omega

theorem RowsAfter.distinct (h : RowsAfter cohort node generations) (hinv : Inv cohort)
    (hfst : generations.find first = some generation)
    (hsnd : generations.find second = some generation')
    (hsame : generation.authorityGeneration = generation'.authorityGeneration)
    (hpos : generation.authorityGeneration ≠ 0) : first = second := by
  have hpos' : generation'.authorityGeneration ≠ 0 := hsame ▸ hpos
  by_cases hrole : generation.role = .primary
  · by_cases hrole' : generation'.role = .primary
    · exact h.unique hinv hfst hsnd hrole hrole'
    · exact absurd hsame
        ((h.placed hfst).authority_ne (h.placed hsnd) hrole hrole' hpos')
  · by_cases hrole' : generation'.role = .primary
    · exact absurd hsame.symm
        ((h.placed hsnd).authority_ne (h.placed hfst) hrole' hrole hpos)
    obtain ⟨before, hbef, hauth⟩ := h.kept hfst hrole hpos
    obtain ⟨before', hbef', hauth'⟩ := h.kept hsnd hrole' hpos'
    refine hinv.distinct _ _ _ _ hbef hbef' ?_ ?_
    · rw [hauth, hauth', hsame]
    · rw [hauth]
      exact hpos

end Wefty.GenerationRows
