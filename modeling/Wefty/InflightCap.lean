/-
The in-flight cap holds, and nothing but a new root of the Computer uses it up.

The number that counts is the number of root runs of the Computer whose lineage has a member
that has not ended (`inFlight`). Three facts carry it through every operation:

* the recursive query computes this number: parents come before their children, so the query
  ends, and what it has then reached are the members (`inflight_eq`);
* an operation that brings a lineage in flight creates its root: a member that is new has a
  parent in flight, and a member that is not new did not end before (`live_of_evolves`);
* a root that is charged to a Computer is created by a submission with its token, and the
  submission counts before it inserts.
-/
import Wefty.Inflight
import Wefty.RunOutcomes
import Wefty.TokenMints
import Mathlib.Data.Set.Card

set_option autoImplicit false

namespace Wefty.Inflight

open Relation Tables RunJobLink Dispatch LedgerChanges RunOutcomes ComputerTokens RecursiveQuery
open Transactions
open Wefty.Substrings (trimSpace)

variable {scope : ComputerTokenScope} {input : CreateRunInput} {now : Int} {op : Op} {root : Run}
variable {computerID rootID : String} {system system' : System}

/-! ## 1. Lineages -/

/-- The link `child.parent_run_id`. -/
def Parent (ledger : Ledger) (parentID childID : String) : Prop :=
  ∃ child, ledger.runs.find childID = some child ∧ Ledger.childOf parentID child = true

def Member (ledger : Ledger) (rootID : String) : String → Prop :=
  ReflTransGen (Parent ledger) rootID

def Live (ledger : Ledger) (rootID : String) : Prop :=
  ∃ memberID member, Member ledger rootID memberID ∧
    ledger.runs.find memberID = some member ∧ member.status.terminal = false

/-- Parents exist, and come before their children. -/
def Ranked (ledger : Ledger) : Prop :=
  ∃ rank : String → Nat, ∀ runID run, ledger.runs.find runID = some run →
    rank runID < ledger.runs.rows.length ∧ ∀ parentID, Ledger.childOf parentID run = true →
      (∃ parent, ledger.runs.find parentID = some parent) ∧ rank parentID < rank runID

theorem parent_of_new {ledger : Ledger} {request : CreateRun} {parentID : String}
    (hlive : ledger.parentLive request.parentRunID = true)
    (hof : Ledger.childOf parentID (newRun request now) = true) :
    ∃ parent, ledger.runs.find parentID = some parent ∧ parent.status.terminal = false := by
  obtain ⟨hne, heq⟩ := Bool.and_eq_true_iff.mp hof
  have hne : request.parentRunID ≠ "" := of_decide_eq_true hne
  have heq : request.parentRunID = parentID := of_decide_eq_true heq
  unfold Ledger.parentLive at hlive
  rw [decide_eq_false hne, Bool.false_or, heq, Option.any_eq_true] at hlive
  obtain ⟨parent, hp, ht⟩ := hlive
  exact ⟨parent, hp, by simpa using ht⟩

section Evolves
variable {admits : APIError → Prop} {success : String → Run → Prop} {ledger ledger' : Ledger}

theorem Ranked.evolves (hr : Ranked ledger) (hev : Evolves admits success ledger ledger') :
    Ranked ledger' := by
  obtain ⟨rank, hrank⟩ := hr
  have hkept : ∀ k r, ledger.runs.find k = some r → ∃ r', ledger'.runs.find k = some r' :=
    fun k r h => (hev.old k r h).imp fun _ h' => h'.1
  -- new runs come after all that were there
  let rank' : String → Nat := fun runID =>
    if (ledger.runs.find runID).isSome then rank runID else ledger.runs.rows.length
  have hsome : ∀ runID run, ledger.runs.find runID = some run → rank' runID = rank runID :=
    fun runID run h => if_pos (by rw [h]; rfl)
  have hnone : ∀ runID, ledger.runs.find runID = none → rank' runID = ledger.runs.rows.length :=
    fun runID h => if_neg (by rw [h]; exact Bool.false_ne_true)
  refine ⟨rank', fun runID run' hrun' => ?_⟩
  cases hold : ledger.runs.find runID with
  | some run =>
    obtain ⟨hlt, hpar⟩ := hrank runID run hold
    rw [hsome runID run hold]
    refine ⟨Nat.lt_of_lt_of_le hlt (Table.length_le_of_find hkept), ?_⟩
    intro parentID hof
    rw [childOf_fixed (Changes.fixed (hev.kept hold hrun'))] at hof
    obtain ⟨⟨parent, hp⟩, hlt'⟩ := hpar parentID hof
    rw [hsome parentID parent hp]
    exact ⟨hkept parentID parent hp, hlt'⟩
  | none =>
    rw [hnone runID hold]
    refine ⟨Table.length_lt_of_find hkept hold hrun', ?_⟩
    intro parentID hof
    obtain ⟨request, now, rfl, hlive, -⟩ := hev.new runID run' hrun' hold
    obtain ⟨parent, hp, -⟩ := parent_of_new hlive hof
    rw [hsome parentID parent hp]
    exact ⟨hkept parentID parent hp, (hrank parentID parent hp).1⟩

theorem member_of_evolves (hr : Ranked ledger) (hev : Evolves admits success ledger ledger')
    {memberID : String} {run : Run} (hm : ledger.runs.find memberID = some run)
    (h : Member ledger' rootID memberID) : Member ledger rootID memberID := by
  induction h generalizing run with
  | refl => exact .refl
  | tail _ hlink ih =>
    obtain ⟨run', hrun', hof⟩ := hlink
    rw [childOf_fixed (Changes.fixed (hev.kept hm hrun'))] at hof
    obtain ⟨rank, hrank⟩ := hr
    obtain ⟨⟨parent, hp⟩, -⟩ := (hrank _ run hm).2 _ hof
    exact (ih hp).tail ⟨run, hm, hof⟩

/-- **No operation brings a lineage back.** The lineage of a run that was in the ledger has a
member that has not ended only if it had one before. -/
theorem live_of_evolves (hs : AllSealed ledger) (hr : Ranked ledger)
    (hev : Evolves admits success ledger ledger') (hroot : ledger.runs.find rootID = some root)
    (h : Live ledger' rootID) : Live ledger rootID := by
  obtain ⟨memberID, member', hmemb, hm', hopen⟩ := h
  cases hm : ledger.runs.find memberID with
  | some member =>
    -- a member that was there has not ended before either
    refine ⟨memberID, member, member_of_evolves hr hev hm hmemb, hm, ?_⟩
    by_contra hended
    have hfinal := ((hs memberID member hm).changes (hev.kept hm hm')).2 (by simpa using hended)
    rw [hfinal.status] at hopen
    exact hended hopen
  | none =>
    -- a new member is a child, of a parent that has not ended
    obtain ⟨request, now, rfl, hlive, -⟩ := hev.new memberID member' hm' hm
    rcases hmemb.cases_tail with rfl | ⟨parentID, hpar, child, hchild, hof⟩
    · rw [hroot] at hm
      cases hm
    · obtain rfl : child = newRun request now := Option.mem_unique hchild hm'
      obtain ⟨parent, hp, hpopen⟩ := parent_of_new hlive hof
      exact ⟨parentID, parent, member_of_evolves hr hev hp hpar, hp, hpopen⟩

end Evolves

/-! ## 2. The query counts the lineages in flight -/

def InFlight (system : System) (computerID rootID : String) : Prop :=
  (∃ root, system.runs.find rootID = some root ∧ system.rootOf computerID root = true) ∧
    Live system.store.ledger rootID

/-- The number of root lineages of the Computer that have a member that has not ended. -/
noncomputable def inFlight (system : System) (computerID : String) : Nat :=
  {rootID | InFlight system computerID rootID}.ncard

theorem mem_lineageRoots_iff {entry : String × String} :
    entry ∈ system.lineageRoots computerID ↔ entry.2 = entry.1 ∧
      ∃ root, system.runs.find entry.1 = some root ∧ system.rootOf computerID root = true := by
  unfold System.lineageRoots
  rw [List.mem_map]
  constructor
  · rintro ⟨root, hroot, rfl⟩
    obtain ⟨hmem, hof⟩ := List.mem_filter.mp hroot
    exact ⟨rfl, root, Table.mem_rows_iff.mp hmem, hof⟩
  · rintro ⟨heq, root, hroot, hof⟩
    refine ⟨root, List.mem_filter.mpr ⟨Table.mem_of_find hroot, hof⟩, ?_⟩
    rw [Table.key_of_find hroot]
    exact Prod.ext rfl heq.symm

theorem mem_lineageChildren_iff {parent child : String × String} :
    child ∈ system.lineageChildren parent ↔
      child.1 = parent.1 ∧ Parent system.store.ledger parent.2 child.2 := by
  unfold System.lineageChildren
  rw [List.mem_map]
  constructor
  · rintro ⟨run, hrun, rfl⟩
    obtain ⟨hmem, hof⟩ := List.mem_filter.mp hrun
    exact ⟨rfl, run, Table.mem_rows_iff.mp hmem, hof⟩
  · rintro ⟨heq, run, hrun, hof⟩
    refine ⟨run, List.mem_filter.mpr ⟨Table.mem_of_find hrun, hof⟩, ?_⟩
    rw [Table.key_of_find hrun]
    exact Prod.ext heq.symm rfl

/-- A chain of the query stays under its root and follows the parent links. -/
theorem chain_iff {entry entry' : String × String} :
    ReflTransGen (fun x y => y ∈ system.lineageChildren x) entry entry' ↔
      entry'.1 = entry.1 ∧ Member system.store.ledger entry.2 entry'.2 := by
  constructor
  · intro h
    induction h with
    | refl => exact ⟨rfl, .refl⟩
    | tail _ hstep ih =>
      obtain ⟨heq, hlink⟩ := mem_lineageChildren_iff.mp hstep
      exact ⟨heq.trans ih.1, ih.2.tail hlink⟩
  · rintro ⟨heq, hmemb⟩
    obtain ⟨root, member⟩ := entry
    obtain ⟨root', member'⟩ := entry'
    obtain rfl : root' = root := heq
    refine ReflTransGen.lift (fun runID => (root', runID)) ?_ _ _ hmemb
    intro parentID childID hlink
    exact mem_lineageChildren_iff.mpr ⟨rfl, hlink⟩

theorem notEnded_iff {runID : String} :
    system.notEnded runID = true ↔
      ∃ run, system.runs.find runID = some run ∧ run.status.terminal = false := by
  unfold System.notEnded
  rw [Option.any_eq_true]
  simp

section
variable (hr : Ranked system.store.ledger)
include hr

theorem mem_computerLineages_iff (entry : String × String) {run : Run}
    (hm : system.runs.find entry.2 = some run) :
    entry ∈ system.computerLineages computerID ↔
      (∃ root, system.runs.find entry.1 = some root ∧ system.rootOf computerID root = true) ∧
        Member system.store.ledger entry.1 entry.2 := by
  obtain ⟨rank, hrank⟩ := hr
  have hgrows : ∀ x y, y ∈ system.lineageChildren x → rank x.2 < rank y.2 := by
    intro x y hy
    obtain ⟨-, child, hchild, hof⟩ := mem_lineageChildren_iff.mp hy
    exact ((hrank y.2 child hchild).2 x.2 hof).2
  unfold System.computerLineages
  rw [mem_unionAll_iff (fun entry => rank entry.2) hgrows (hrank entry.2 run hm).1]
  constructor
  · rintro ⟨first, hfst, hchain⟩
    obtain ⟨hsame, hroot⟩ := mem_lineageRoots_iff.mp hfst
    obtain ⟨heq, hmemb⟩ := chain_iff.mp hchain
    rw [heq]
    exact ⟨hroot, hsame ▸ hmemb⟩
  · rintro ⟨hroot, hmemb⟩
    exact ⟨(entry.1, entry.1), mem_lineageRoots_iff.mpr ⟨rfl, hroot⟩, chain_iff.mpr ⟨rfl, hmemb⟩⟩

theorem mem_counted_iff : rootID ∈ ((system.computerLineages computerID).filter
      fun member => system.notEnded member.2).map Prod.fst ↔ InFlight system computerID rootID := by
  rw [List.mem_map]
  constructor
  · rintro ⟨entry, hentry, rfl⟩
    obtain ⟨hmem, hopen⟩ := List.mem_filter.mp hentry
    obtain ⟨run, hrun, hterm⟩ := notEnded_iff.mp hopen
    obtain ⟨hroot, hmemb⟩ := (mem_computerLineages_iff hr entry hrun).mp hmem
    exact ⟨hroot, entry.2, run, hmemb, hrun, hterm⟩
  · rintro ⟨hroot, memberID, run, hmemb, hrun, hterm⟩
    refine ⟨(rootID, memberID), List.mem_filter.mpr ⟨?_, notEnded_iff.mpr ⟨run, hrun, hterm⟩⟩,
      rfl⟩
    exact (mem_computerLineages_iff hr (rootID, memberID) hrun).mpr ⟨hroot, hmemb⟩

theorem setOf_inFlight (computerID : String) :
    {rootID | InFlight system computerID rootID} =
      ((((system.computerLineages computerID).filter
        fun member => system.notEnded member.2).map Prod.fst).toFinset : Set String) := by
  ext rootID
  rw [Finset.mem_coe, List.mem_toFinset, mem_counted_iff hr]
  rfl

/-- **The count is the number of lineages in flight.** -/
theorem inflight_eq (computerID : String) :
    system.inflight computerID = inFlight system computerID := by
  unfold inFlight System.inflight
  rw [setOf_inFlight hr, Set.ncard_coe_finset, List.card_toFinset]

theorem finite_inFlight (computerID : String) :
    {rootID | InFlight system computerID rootID}.Finite := by
  rw [setOf_inFlight hr]
  exact Finset.finite_toSet _

end

/-! ## 3. Grants name Computers without padding

The count trims the Computer's id and the provenance row does not; the id of a current grant is
one that trimming leaves alone. -/

theorem trimSpace_of_wellFormed {text : String} (h : wellFormed text = true) :
    trimSpace text = text := by
  unfold wellFormed at h
  simp only [Bool.and_eq_true, decide_eq_true_eq] at h
  exact h.1.2.symm

/-- The scopes of the grants, and of the mints that insert them, are valid. -/
structure ValidScopes (tokens : ComputerTokens.System) : Prop where
  counted : TokenMints.Counted tokens.authority
  mints : ∀ mint ∈ tokens.mints, validComputerScopeProof mint.proof = true
  grants : ∀ revision grant, tokens.authority.grants.find revision = some grant →
    validComputerScopeProof grant.scope = true

theorem next_proof {mint : Mint} {authority : Authority} {l1 : L1} {input : ComputerTokens.Input} :
    (mint.next authority l1 input).1.proof = mint.proof := by
  have hnext := TokenMints.next_spec mint authority l1 input
  generalize mint.next authority l1 input = result at hnext ⊢
  cases hnext <;> rfl

theorem valid_set {mints : List Mint} {index : Nat} {mint mint' : Mint}
    (h : ∀ m ∈ mints, validComputerScopeProof m.proof = true) (hm : mints[index]? = some mint)
    (heq : mint'.proof = mint.proof) :
    ∀ m ∈ mints.set index mint', validComputerScopeProof m.proof = true := by
  intro m hmem
  rcases List.mem_or_eq_of_mem_set hmem with hold | rfl
  · exact h m hold
  · rw [heq]
    exact h mint (List.mem_of_getElem? hm)

theorem ValidScopes.step {tokens : ComputerTokens.System} (h : ValidScopes tokens)
    (event : ComputerTokens.Event) : ValidScopes (tokens.step event) := by
  have hlater : TokenMints.Later (fun proof => validComputerScopeProof proof = true)
      tokens.authority (tokens.step event).authority := TokenMints.later_step h.counted h.mints
  refine ⟨hlater.counted h.counted, ?_, fun revision grant' hgrant' => ?_⟩
  · have hstep := TokenMints.step_spec tokens event
    generalize tokens.step event = tokens' at hstep ⊢
    cases hstep with
    | starts proof _ hvalid =>
      intro mint hmint
      rcases List.mem_append.mp hmint with hold | hnew
      · exact h.mints mint hold
      · rw [List.mem_singleton.mp hnew]
        exact hvalid
    | moves input mint hmint => exact valid_set h.mints hmint next_proof
    | abandons mint hmint => exact valid_set h.mints hmint rfl
    | _ => exact h.mints
  · obtain ⟨-, -, hnew, -⟩ | ⟨grant, hgrant, hsame, -⟩ := hlater.origin revision grant' hgrant'
    · exact hnew
    · rw [hsame]
      exact h.grants revision grant hgrant

/-- The id in a scope whose grant is current is one that trimming leaves alone. -/
theorem trimSpace_of_current (h : ValidScopes system.tokens)
    (hcur : system.validateComputerGrantTx scope = .ok ()) :
    trimSpace scope.computerID = scope.computerID := by
  unfold System.validateComputerGrantTx at hcur
  split at hcur
  · rename_i hany
    obtain ⟨revision, grant, hgrant, hmatch⟩ := Table.any_iff.mp hany
    simp only [Bool.and_eq_true, decide_eq_true_eq] at hmatch
    have hsame : grant.scope.computerID = scope.computerID := hmatch.1.1.1.1.1.1.1.1.1
    have hvalid := h.grants revision grant hgrant
    unfold validComputerScopeProof at hvalid
    simp only [Bool.and_eq_true] at hvalid
    rw [← hsame]
    exact trimSpace_of_wellFormed hvalid.1.1.1.1.1.1.1
  · cases hcur

/-! ## 4. One operation -/

structure Created (system : System) (request : CreateRun) (trigger : Trigger) (now : Int)
    (system' : System) : Prop where
  fresh : system.runs.find request.runID = none
  unused : system.existing request.actor request.idempotencyKey = none
  parent : system.store.ledger.parentLive request.parentRunID = true
  rows : system' = system.insertRun request trigger now

theorem admitParent_ok {parentRunID : String} (h : system.admitParent parentRunID = .ok ()) :
    system.store.ledger.parentLive parentRunID = true := by
  unfold System.admitParent at h
  unfold Ledger.parentLive
  split at h
  · rename_i hroot
    simp [hroot]
  split at h
  · cases h
  rename_i parent hpar
  split at h
  · cases h
  · rename_i hopen
    have hfnd : system.store.ledger.runs.find parentRunID = some parent := hpar
    simp [hfnd, hopen]

theorem admitComputer_ok (hscope : input.computerScope = some scope)
    (h : system.admitComputer input = .ok ()) :
    system.validateComputerGrantTx scope = .ok () ∧
      (system.inflight (trimSpace scope.computerID) : Int) < scope.submitMaxInflight := by
  unfold System.admitComputer at h
  rw [hscope] at h
  dsimp only at h
  split at h
  · cases h
  obtain ⟨⟨⟩, hgrant, h⟩ := ok_of_bind h
  obtain ⟨inflight, hcount, h⟩ := ok_of_bind h
  refine ⟨hgrant, ?_⟩
  unfold System.countComputerInflight at hcount
  split at hcount
  · cases hcount
  · cases hcount
    split at h
    · cases h
    · omega

theorem createRun_created (system : System) (input : CreateRunInput) :
    Ensures (fun _ => False)
      (fun system' => Created system { input.request with rerunOf := none } input.trigger input.now
          system' ∧ normalizeComputerScope input = .ok () ∧ system.admitComputer input = .ok ())
      (system.createRun input) := by
  unfold System.createRun
  refine .check fun _ hnormal => ?_
  refine .refuseIf fun _ => ?_
  refine .answerIf fun hunused => ?_
  refine .check fun _ hadmit => ?_
  refine .check fun _ hpar => ?_
  refine .check fun _ _ => ?_
  refine .check fun _ _ => ?_
  refine .refuseIf fun hfresh => ?_
  exact .pure ⟨⟨Option.not_isSome_iff_eq_none.mp hfresh,
    Option.not_isSome_iff_eq_none.mp hunused, admitParent_ok hpar, rfl⟩, hnormal, hadmit⟩

theorem createRerun_created (system : System) (input : CreateRerunInput) :
    Ensures (fun _ => False)
      (fun system' => ∃ source program, Created system (input.request source program) input.trigger
        input.now system') (system.createRerun input) := by
  unfold System.createRerun
  refine .check fun _ _ => ?_
  refine .refuseIf fun _ => ?_
  refine .answerIf fun hunused => ?_
  refine .orRefuse fun source _ => ?_
  refine .check fun program _ => ?_
  refine .refuseIf fun hfresh => ?_
  exact .pure ⟨source, program, Option.not_isSome_iff_eq_none.mp hfresh,
    Option.not_isSome_iff_eq_none.mp hunused, rfl, rfl⟩

theorem ok_of_committed {t : Tx System Refusal System} {Q : System → Prop}
    (h : Ensures (fun _ => False) Q t) (hc : committed t = some system') :
    t = .ok system' ∧ Q system' := by
  match t, h, hc with
  | .ok _, h, rfl => exact ⟨rfl, h⟩

section Created
variable {request : CreateRun} {trigger : Trigger}

theorem Created.find (h : Created system request trigger now system') (runID : String) :
    system'.runs.find runID =
      if request.runID = runID then some (newRun request now) else system.runs.find runID := by
  have hany : (system.store.ledger.runs.any fun run =>
      run.actor = request.actor && run.idempotencyKey = request.idempotencyKey) = false := by
    have hunused := h.unused
    unfold System.existing at hunused
    rw [List.find?_eq_none] at hunused
    exact List.any_eq_false.mpr hunused
  rw [h.rows]
  unfold System.insertRun System.runs LedgerStore.Store.step Ledger.createRun
  dsimp only
  rw [if_neg (by rw [hany]; exact Bool.false_ne_true), if_pos h.parent]
  exact Table.find_insert _ (newRun request now) h.fresh runID

theorem Created.evolves (h : Created system request trigger now system') :
    Evolves (fun _ => True) (fun _ _ => False) system.store.ledger system'.store.ledger := by
  rw [h.rows]
  exact createRun_evolves fun _ _ => id

end Created

structure Inv (system : System) : Prop where
  ended : AllSealed system.store.ledger
  ranked : Ranked system.store.ledger
  provenance : ∀ runID trigger, system.triggers.find runID = some trigger →
    ∃ run, system.runs.find runID = some run
  scopes : ValidScopes system.tokens

def SubmitsRoot (system : System) (op : Op) (computerID rootID : String) : Prop :=
  ∃ input scope system', op = .createRun input ∧ input.computerScope = some scope ∧
    scope.computerID = computerID ∧ input.request.runID = rootID ∧
    system.createRun input = .ok system'

/-- What an operation does to the lineages. -/
structure Advances (system : System) (op : Op) (system' : System) : Prop where
  evolves : ∃ success, Evolves (fun _ => True) success system.store.ledger system'.store.ledger
  triggers : ∀ runID run, system.runs.find runID = some run →
    system'.triggers.find runID = system.triggers.find runID
  provenance : ∀ runID trigger, system'.triggers.find runID = some trigger →
    system.runs.find runID = none → (∃ run, system'.runs.find runID = some run) ∧
      ∀ computerID, trigger.source = .computer → trigger.computerID = some computerID →
        SubmitsRoot system op computerID runID
  scopes : ValidScopes system'.tokens

theorem Created.advances {request : CreateRun} {trigger : Trigger} (hinv : Inv system)
    (h : Created system request trigger now system') (hkey : trigger.runID = request.runID)
    (hroot : ∀ computerID, trigger.source = .computer → trigger.computerID = some computerID →
      SubmitsRoot system op computerID request.runID) : Advances system op system' where
  evolves := ⟨_, h.evolves⟩
  triggers := by
    intro runID run hrun
    have hfree : system.triggers.find trigger.runID = none := by
      rw [hkey]
      cases hold : system.triggers.find request.runID with
      | none => rfl
      | some row =>
        obtain ⟨taken, htaken⟩ := hinv.provenance _ row hold
        rw [h.fresh] at htaken
        cases htaken
    rw [h.rows]
    refine (Table.find_insert system.triggers trigger hfree runID).trans (if_neg ?_)
    rintro rfl
    rw [hkey, h.fresh] at hrun
    cases hrun
  provenance := by
    intro runID row hrow hnone
    rw [h.rows] at hrow
    rcases Table.find_insert_cases hrow with hold | rfl
    · obtain ⟨run, hrun⟩ := hinv.provenance runID row hold
      rw [hnone] at hrun
      cases hrun
    · have hsame : row.runID = runID := Table.key_of_find hrow
      rw [← hsame, hkey]
      refine ⟨⟨newRun request now, ?_⟩, hroot⟩
      rw [h.find, if_pos rfl]
  scopes := by
    rw [h.rows]
    exact hinv.scopes

theorem Inv.advances_of_triggers {success : String → Run → Prop} (hinv : Inv system)
    (hev : Evolves (fun _ => True) success system.store.ledger system'.store.ledger)
    (htriggers : system'.triggers = system.triggers) (hscopes : ValidScopes system'.tokens) :
    Advances system op system' where
  evolves := ⟨success, hev⟩
  triggers := by
    intro runID run _
    rw [htriggers]
  provenance := by
    intro runID trigger htrig hnone
    rw [htriggers] at htrig
    obtain ⟨run, hrun⟩ := hinv.provenance runID trigger htrig
    rw [hnone] at hrun
    cases hrun
  scopes := hscopes

theorem trigger_computer (hsrc : input.trigger.source = .computer)
    (hcomp : input.trigger.computerID = some computerID) :
    ∃ scope, input.computerScope = some scope ∧ scope.computerID = computerID := by
  unfold CreateRunInput.trigger at hsrc hcomp
  cases hscope : input.computerScope with
  | some scope =>
    rw [hscope] at hcomp
    exact ⟨scope, rfl, Option.some.inj hcomp⟩
  | none =>
    rw [hscope] at hsrc
    dsimp only at hsrc
    split at hsrc <;> cases hsrc

theorem trigger_runID (input : CreateRunInput) : input.trigger.runID = input.request.runID := by
  unfold CreateRunInput.trigger
  split
  · rfl
  · split <;> rfl

theorem step_advances (hinv : Inv system) (op : Op) : Advances system op (system.step op) := by
  have hsame : Evolves (fun _ => True) (fun _ _ => False) system.store.ledger system.store.ledger :=
    Evolves.refl _
  have hnoth : Advances system op system := hinv.advances_of_triggers hsame rfl hinv.scopes
  cases op with
  | createRun input =>
    show Advances system _ ((committed (system.createRun input)).getD system)
    cases hc : committed (system.createRun input) with
    | none => exact hnoth
    | some system' =>
      obtain ⟨hok, hcrt, -⟩ := ok_of_committed (createRun_created system input) hc
      refine hcrt.advances hinv (trigger_runID input) ?_
      intro computerID hsrc hcomp
      obtain ⟨scope, hscope, hid⟩ := trigger_computer hsrc hcomp
      exact ⟨input, scope, system', rfl, hscope, hid, rfl, hok⟩
  | createRerun input =>
    show Advances system _ ((committed (system.createRerun input)).getD system)
    cases hc : committed (system.createRerun input) with
    | none => exact hnoth
    | some system' =>
      obtain ⟨-, source, program, hcrt⟩ := ok_of_committed (createRerun_created system input) hc
      refine hcrt.advances hinv rfl ?_
      intro computerID hsrc
      cases hsrc
  | ledger op =>
    unfold System.step
    dsimp only
    split
    · exact hnoth
    · exact hinv.advances_of_triggers
        (step_evolves (fun _ => True) system.store op fun _ _ => .inl trivial) rfl hinv.scopes
  | tokens event =>
    exact hinv.advances_of_triggers hsame rfl (hinv.scopes.step event)

/-! ## 5. Every run of operations -/

theorem Inv.step (hinv : Inv system) (op : Op) : Inv (system.step op) := by
  have hadv := step_advances hinv op
  obtain ⟨success, hev⟩ := hadv.evolves
  refine ⟨hev.all newRun_sealed (fun h hchg => (h.changes hchg).1) hinv.ended,
    hinv.ranked.evolves hev, fun runID trigger htrig => ?_, hadv.scopes⟩
  cases hold : system.runs.find runID with
  | none => exact (hadv.provenance runID trigger htrig hold).1
  | some run =>
    obtain ⟨run', hrun', -⟩ := hev.old runID run hold
    exact ⟨run', hrun'⟩

theorem inv_start : Inv System.start where
  ended := fun _ _ h => nomatch h
  ranked := ⟨fun _ => 0, fun _ _ h => nomatch h⟩
  provenance := fun _ _ h => nomatch h
  scopes := ⟨fun _ _ h => (nomatch h), fun _ h => (nomatch h), fun _ _ h => nomatch h⟩

theorem inv_exec (hinv : Inv system) (ops : List Op) : Inv (Runs.exec System.step system ops) :=
  Runs.exec_invariant (P := Inv) (fun _ op h => h.step op) hinv ops

theorem inv_reached (ops : List Op) : Inv (System.reached ops) := inv_exec inv_start ops

section
variable (hinv : Inv system)
include hinv

theorem live_of_exec (ops : List Op) (hroot : system.runs.find rootID = some root)
    (h : Live (Runs.exec System.step system ops).store.ledger rootID) :
    Live system.store.ledger rootID := by
  induction ops generalizing system root with
  | nil => exact h
  | cons op ops ih =>
    obtain ⟨success, hev⟩ := (step_advances hinv op).evolves
    obtain ⟨root', hroot', -⟩ := hev.old rootID root hroot
    exact live_of_evolves hinv.ended hinv.ranked hev hroot (ih (hinv.step op) hroot' h)

theorem rootOf_step {root' : Run} (hroot : system.runs.find rootID = some root)
    (hroot' : (system.step op).runs.find rootID = some root') :
    (system.step op).rootOf computerID root' = system.rootOf computerID root := by
  have hadv := step_advances hinv op
  obtain ⟨success, hev⟩ := hadv.evolves
  have hfixed := Changes.fixed (hev.kept hroot hroot')
  have hkey : root.runID = rootID := Table.key_of_find hroot
  unfold System.rootOf
  rw [hfixed.intent, hfixed.runID, hkey, hadv.triggers rootID root hroot]

/-- **One operation** brings a lineage of a Computer in flight only by submitting its root. -/
theorem step_inFlight (h : InFlight (system.step op) computerID rootID) :
    InFlight system computerID rootID ∨ SubmitsRoot system op computerID rootID := by
  have hadv := step_advances hinv op
  obtain ⟨success, hev⟩ := hadv.evolves
  obtain ⟨⟨root', hroot', hof⟩, hlive⟩ := h
  cases hroot : system.runs.find rootID with
  | some root =>
    rw [rootOf_step hinv hroot hroot'] at hof
    exact .inl ⟨⟨root, hroot, hof⟩, live_of_evolves hinv.ended hinv.ranked hev hroot hlive⟩
  | none =>
    have hkey : root'.runID = rootID := Table.key_of_find hroot'
    obtain ⟨-, hany⟩ := Bool.and_eq_true_iff.mp hof
    rw [hkey, Option.any_eq_true] at hany
    obtain ⟨trigger, htrig, hmatch⟩ := hany
    obtain ⟨hsrc, hcomp⟩ := Bool.and_eq_true_iff.mp hmatch
    exact .inr ((hadv.provenance rootID trigger htrig hroot).2 computerID
      (of_decide_eq_true hsrc) (of_decide_eq_true hcomp))

theorem inFlight_step_le (hno : ∀ rootID, ¬SubmitsRoot system op computerID rootID) :
    inFlight (system.step op) computerID ≤ inFlight system computerID := by
  refine Set.ncard_le_ncard ?_ (finite_inFlight hinv.ranked computerID)
  intro rootID h
  exact (step_inFlight hinv h).resolve_right (hno rootID)

theorem inFlight_create_le (input : CreateRunInput) (computerID : String) :
    inFlight (system.step (.createRun input)) computerID ≤ inFlight system computerID + 1 := by
  refine (Set.ncard_le_ncard (t := insert input.request.runID
    {rootID | InFlight system computerID rootID}) ?_
    ((finite_inFlight hinv.ranked computerID).insert _)).trans (Set.ncard_insert_le _ _)
  intro rootID h
  rcases step_inFlight hinv h with hold | ⟨input', -, -, hop, -, -, hid, -⟩
  · exact Set.mem_insert_of_mem _ hold
  · cases hop
    rw [← hid]
    exact Set.mem_insert _ _

/-- **A submission that commits stays within the cap it presents.** -/
theorem inFlight_le_max (hscope : input.computerScope = some scope)
    (hok : system.createRun input = .ok system') :
    (inFlight system' scope.computerID : Int) ≤ scope.submitMaxInflight := by
  have hcom : committed (system.createRun input) = some system' := by rw [hok]; rfl
  obtain ⟨-, -, -, hadmit⟩ := ok_of_committed (createRun_created system input) hcom
  obtain ⟨hcur, hbelow⟩ := admitComputer_ok hscope hadmit
  -- the count was made under the trimmed id, which is the id
  rw [trimSpace_of_current hinv.scopes hcur, inflight_eq hinv.ranked] at hbelow
  have hstep : system.step (.createRun input) = system' := by
    show (committed (system.createRun input)).getD system = system'
    rw [hcom]
    rfl
  have hone := inFlight_create_le hinv input scope.computerID
  rw [hstep] at hone
  omega

theorem inFlight_exec_le (ops : List Op)
    (hno : ∀ before op after, ops = before ++ op :: after → ∀ rootID,
      ¬SubmitsRoot (Runs.exec System.step system before) op computerID rootID) :
    inFlight (Runs.exec System.step system ops) computerID ≤ inFlight system computerID := by
  induction ops generalizing system with
  | nil => exact Nat.le_refl _
  | cons op ops ih =>
    have hfst := inFlight_step_le hinv (hno [] op ops rfl)
    refine (ih (hinv.step op) ?_).trans hfst
    intro before op' after heq
    exact hno (op :: before) op' after (by rw [heq]; rfl)

end

/-- **The in-flight cap of a Computer.** In every reachable ledger the count `CreateRun` makes is
the number of root lineages of the Computer that have a member that has not ended. A
submission of a Computer that commits a new root leaves this number at most at the limit it
presents, and until the Computer's next one, whatever operations follow, the number does not
grow. The lineage of any run, once all its members have ended, never has an open member
again. -/
theorem computer_inflight_capped (before after : List Op) :
    (∀ computerID, (System.reached before).inflight computerID =
      inFlight (System.reached before) computerID) ∧
    (∀ input scope system', input.computerScope = some scope →
      (System.reached before).createRun input = .ok system' →
      system' = System.reached (before ++ [.createRun input]) ∧
        (inFlight system' scope.computerID : Int) ≤ scope.submitMaxInflight) ∧
    (∀ computerID,
      (∀ early op late, after = early ++ op :: late → ∀ rootID,
        ¬SubmitsRoot (System.reached (before ++ early)) op computerID rootID) →
      inFlight (System.reached (before ++ after)) computerID ≤
        inFlight (System.reached before) computerID) ∧
    ∀ rootID root, (System.reached before).runs.find rootID = some root →
      (∀ memberID member, Member (System.reached before).store.ledger rootID memberID →
        (System.reached before).runs.find memberID = some member →
        member.status.terminal = true) →
      ∀ memberID member, Member (System.reached (before ++ after)).store.ledger rootID memberID →
        (System.reached (before ++ after)).runs.find memberID = some member →
        member.status.terminal = true := by
  have hinv := inv_reached before
  have happend : ∀ ops, System.reached (before ++ ops) =
      Runs.exec System.step (System.reached before) ops := fun ops => Runs.exec_append _ _ _ _
  refine ⟨inflight_eq hinv.ranked, ?_, ?_, ?_⟩
  · intro input scope system' hscope hok
    refine ⟨?_, inFlight_le_max hinv hscope hok⟩
    rw [happend]
    show system' = (committed ((System.reached before).createRun input)).getD _
    rw [hok]
    rfl
  · intro computerID hno
    rw [happend]
    refine inFlight_exec_le hinv after ?_
    intro early op late heq
    rw [← happend]
    exact hno early op late heq
  · intro rootID root hroot hended memberID member hmemb hm
    by_contra hopen
    rw [happend] at hmemb hm
    obtain ⟨otherID, other, hoth, ho, hterm⟩ := live_of_exec hinv after hroot
      ⟨memberID, member, hmemb, hm, by simpa using hopen⟩
    rw [hended otherID other hoth ho] at hterm
    cases hterm

def soleProof : ComputerTokenScopeProof :=
  ⟨"computer_a", "attempt_a", 1, 1, "node_a", "stable_a", "boot_a", 1⟩

def soleGrant : List Op :=
  [.tokens (.adopt "ledger" 0), .tokens (.proves soleProof),
    .tokens (.mint "computer_a" "attempt_a" "node_a"), .tokens (.resume 0 ⟨1, "random", true⟩)]

def soleRoot (runID key : String) : CreateRunInput where
  request :=
    { runID := runID, actor := "computer:computer_a", idempotencyKey := key, requestHash := "hash",
      parentRunID := "", rerunOf := none, program := .script [] "" [] 0, tags := [], params := "",
      maxRuntimeSeconds := none, dispatchAuthority := false, restartable := false,
      requiredEnvelope := false }
  computerScope := some ⟨"computer_a", "attempt_a", 1, 1, "node_a", 1, 1, 1⟩
  verifyComputerScope := some (.ok ())
  programs := .ok ()
  now := 2

def soleEnds : List Op :=
  [.ledger (.transact "run_a" (.beginDispatch "random" 3)),
    .ledger (.transact "run_a" (.failDispatch ⟨"invalid_request", "no such image", false, "", none⟩
      4 60))]

def firstRoot : CreateRunInput := soleRoot "run_a" "key_a"

def secondRoot : CreateRunInput := soleRoot "run_b" "key_b"

def soleSubmitted : List Op := soleGrant ++ [.createRun firstRoot]

def soleRun : List Op := soleSubmitted ++ soleEnds

/-- The first root takes the one place, a second is refused, and once the first has ended its
place is free and stays so. -/
theorem computer_inflight_capped_sole :
    (∃ system', (System.reached soleGrant).createRun firstRoot = .ok system' ∧
      (inFlight system' "computer_a" : Int) ≤ 1 ∧
      committed (system'.createRun secondRoot) = none) ∧
    inFlight (System.reached soleRun) "computer_a" ≤
      inFlight (System.reached soleSubmitted) "computer_a" ∧
    ∀ memberID member,
      Member (System.reached (soleRun ++ [.createRun secondRoot])).store.ledger "run_a" memberID →
      (System.reached (soleRun ++ [.createRun secondRoot])).runs.find memberID = some member →
      member.status.terminal = true := by
  refine ⟨?_, ?_, ?_⟩
  · have hsome : (committed ((System.reached soleGrant).createRun firstRoot)).isSome =
        true := by decide +kernel
    obtain ⟨system', hc⟩ := Option.isSome_iff_exists.mp hsome
    have hok := (ok_of_committed (createRun_created _ _) hc).1
    obtain ⟨hsys, hcap⟩ := (computer_inflight_capped soleGrant []).2.1 firstRoot _
      system' rfl hok
    refine ⟨system', hok, hcap, ?_⟩
    have hnone : (committed ((System.reached soleSubmitted).createRun secondRoot)).isNone =
        true := by
      decide +kernel
    rw [hsys]
    exact Option.isNone_iff_eq_none.mp hnone
  · have hnone : ∀ early op late, soleEnds = early ++ op :: late → ∀ rootID, ¬SubmitsRoot
        (System.reached (soleSubmitted ++ early)) op "computer_a" rootID := by
      rintro early op late heq rootID ⟨input, -, -, hop, -⟩
      have hmem : op ∈ soleEnds := heq ▸ List.mem_append_right early List.mem_cons_self
      rw [hop] at hmem
      simp [soleEnds] at hmem
    unfold soleRun
    exact (computer_inflight_capped _ soleEnds).2.2.1 "computer_a" hnone
  · have hroot : ((System.reached soleRun).runs.find "run_a").isSome = true := by decide +kernel
    obtain ⟨root, hroot⟩ := Option.isSome_iff_exists.mp hroot
    refine (computer_inflight_capped soleRun [.createRun secondRoot]).2.2.2 "run_a" root
      hroot ?_
    intro memberID member _ hm
    have hall : ∀ run ∈ (System.reached soleRun).runs.rows, run.status.terminal = true := by
      decide +kernel
    exact hall member (Table.mem_of_find hm)

end Wefty.Inflight
