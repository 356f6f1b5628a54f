/-
Concurrent mints of Computer tokens never disturb a later attempt.

The argument orders grant revisions against the order in which L1 began to prove attempts.
A mint starts from a proof, so when a grant is inserted its attempt has begun. When a re-proof
passes, its attempt is the latest that has begun, and every grant with a lower revision is in
the table already: each of them belongs to that attempt or to an earlier one. Later inserts
take higher revisions and later attempts join the order at its end, so this stays true until
the settlement, however long that takes.
-/
import Wefty.ComputerTokens

set_option autoImplicit false

namespace Wefty.TokenMints

open Tables Runs ComputerTokens

variable {authority : Authority} {proof : ComputerTokenScopeProof} {grant : Grant} {l1 : L1}
variable {predicate : Grant → Bool} {now : Int} {reason token : String} {revision : Nat}
variable {input : Input} {event : Event} {current : Table ComputerTokenScopeProof.computerID}
variable {mint : Mint} {index : Nat} {attemptID computerID : String} {system : System}

/-! ## 1. Revocations and inserts -/

/-- The columns that say which boot minted a grant. -/
def hostColumns (grant : Grant) : Option String × Option String :=
  (grant.hostStableNodeID, grant.hostBootSessionID)

/-- The row a revocation leaves in the place of a grant. -/
def revokedRow (predicate : Grant → Bool) (now : Int) (reason : String) (grant : Grant) : Grant :=
  if grant.revokedNS.isNone && predicate grant then
    { grant with
      revokedNS := some now
      revocationReason := reason }
  else grant

theorem find_revoke :
    (authority.revokeComputerGrantRows predicate now reason).grants.find revision =
      (authority.grants.find revision).map (revokedRow predicate now reason) := by
  unfold Authority.revokeComputerGrantRows
  rw [Table.find_updateWhere]
  rfl

theorem revokedRow_scope : (revokedRow predicate now reason grant).scope = grant.scope := by
  unfold revokedRow
  split <;> rfl

theorem revokedRow_hostColumns :
    hostColumns (revokedRow predicate now reason grant) = hostColumns grant := by
  unfold revokedRow
  split <;> rfl

theorem revokedRow_isSome (h : grant.revokedNS.isSome = true) :
    (revokedRow predicate now reason grant).revokedNS.isSome = true := by
  unfold revokedRow
  split
  · rfl
  · exact h

theorem revokedRow_of_selected (h : predicate grant = true) :
    (revokedRow predicate now reason grant).revokedNS.isSome = true := by
  unfold revokedRow
  by_cases hn : grant.revokedNS.isNone = true
  · rw [hn, h]
    rfl
  · rw [if_neg (by simp [hn])]
    simpa [Option.isSome_iff_ne_none] using hn

theorem find_revoke_of_not_selected {row : Grant}
    (hrow : authority.grants.find revision = some row) (h : predicate row = false) :
    (authority.revokeComputerGrantRows predicate now reason).grants.find revision = some row := by
  rw [find_revoke, hrow, Option.map_some, revokedRow, h, Bool.and_false]
  rfl

/-! ## 2. What every step does to the grants -/

/-- `after` can follow `before`: rows keep their scope and their revocation, and a row that
was not there takes a revision above the old counter and one of the `scopes`. -/
structure Later (scopes : ComputerTokenScopeProof → Prop) (before after : Authority) : Prop where
  counter : before.grantRevision ≤ after.grantRevision
  kept : ∀ revision row, before.grants.find revision = some row →
    ∃ row', after.grants.find revision = some row' ∧ row'.scope = row.scope
  origin : ∀ revision row', after.grants.find revision = some row' →
    (before.grantRevision < revision ∧ revision ≤ after.grantRevision ∧ scopes row'.scope ∧
      hostColumns row' = (some row'.scope.hostStableNodeID, some row'.scope.hostBootSessionID)) ∨
    ∃ row, before.grants.find revision = some row ∧ row'.scope = row.scope ∧
      hostColumns row' = hostColumns row ∧
      (row.revokedNS.isSome = true → row'.revokedNS.isSome = true)

section Grants

variable {scopes : ComputerTokenScopeProof → Prop}

theorem Later.refl (authority : Authority) : Later scopes authority authority where
  counter := Nat.le_refl _
  kept := fun _ row h => ⟨row, h, rfl⟩
  origin := fun _ row h => Or.inr ⟨row, h, rfl, rfl, id⟩

theorem later_revoke (authority : Authority) (predicate : Grant → Bool) (now : Int)
    (reason : String) :
    Later scopes authority (authority.revokeComputerGrantRows predicate now reason) where
  counter := Nat.le_refl _
  kept := by
    intro revision row hrow
    rw [find_revoke, hrow]
    exact ⟨_, rfl, revokedRow_scope⟩
  origin := by
    intro revision row' hrow'
    rw [find_revoke] at hrow'
    obtain ⟨row, hrow, rfl⟩ := Option.map_eq_some_iff.mp hrow'
    exact Or.inr ⟨row, hrow, revokedRow_scope, revokedRow_hostColumns, revokedRow_isSome⟩

theorem later_adopt {instanceID : String} :
    Later scopes authority (authority.adoptComputerAuthorityInstance instanceID now) := by
  unfold Authority.adoptComputerAuthorityInstance
  split
  · exact Later.refl authority
  · -- the generation and the instance are no part of what `Later` compares
    have h : Later scopes authority _ :=
      later_revoke authority (fun _ => true) now "l3_authority_advanced"
    exact ⟨h.counter, h.kept, h.origin⟩

/-- Every revision in use is at or below the counter. -/
def Counted (authority : Authority) : Prop :=
  ∀ revision row, authority.grants.find revision = some row → revision ≤ authority.grantRevision

theorem Counted.next_free (h : Counted authority) :
    authority.grants.find (authority.grantRevision + 1) = none := by
  rw [Option.eq_none_iff_forall_ne_some]
  intro row hrow
  have hle := h _ row hrow
  omega

/-- The table after an insert: the new grant at the next revision, the others as the
revocation of the attempt's own grants left them. -/
theorem find_insertComputerGrant (h : Counted authority) :
    (authority.insertComputerGrant proof token now).grants.find revision =
      if authority.grantRevision + 1 = revision then some (authority.nextGrant proof token now)
      else (authority.grants.find revision).map
        (revokedRow (Authority.ofAttempt proof.computerID proof.computerAttemptID) now
          "regranted") := by
  have hfree : (authority.revokeComputerGrantRows
      (Authority.ofAttempt proof.computerID proof.computerAttemptID) now
      "regranted").grants.find (authority.grantRevision + 1) = none := by
    rw [find_revoke, h.next_free, Option.map_none]
  unfold Authority.insertComputerGrant
  rw [← find_revoke]
  exact Table.find_insert _ (authority.nextGrant proof token now) hfree revision

theorem later_insert (h : Counted authority) (hproof : scopes proof) :
    Later scopes authority (authority.insertComputerGrant proof token now) where
  counter := Nat.le_succ _
  kept := by
    intro revision row hrow
    have hle := h revision row hrow
    rw [find_insertComputerGrant h, if_neg (by omega), hrow]
    exact ⟨_, rfl, revokedRow_scope⟩
  origin := by
    intro revision row' hrow'
    rw [find_insertComputerGrant h] at hrow'
    by_cases hnew : authority.grantRevision + 1 = revision
    · rw [if_pos hnew] at hrow'
      obtain rfl := Option.some.inj hrow'
      refine Or.inl ⟨by omega, ?_, hproof, rfl⟩
      exact Nat.le_of_eq hnew.symm
    · rw [if_neg hnew] at hrow'
      obtain ⟨row, hrow, rfl⟩ := Option.map_eq_some_iff.mp hrow'
      exact Or.inr ⟨row, hrow, revokedRow_scope, revokedRow_hostColumns, revokedRow_isSome⟩

/-- What the next step of a mint can be. -/
inductive Next (authority : Authority) (l1 : L1) (input : Input) (mint : Mint) :
    Mint × Authority → Prop
  | inserts (hphase : mint.phase = .proved) :
      Next authority l1 input mint
        ({ mint with
            phase := .inserted
              (authority.nextGrant mint.proof (newComputerToken input.random) input.now) },
          authority.insertComputerGrant mint.proof (newComputerToken input.random) input.now)
  | passes (grant : Grant) (current : ComputerTokenScopeProof)
      (hphase : mint.phase = .inserted grant) (hdelivered : input.delivered = true)
      (hproof : l1.proveComputerTokenScope mint.proof.computerID mint.proof.computerAttemptID
        mint.proof.hostNodeID = some current)
      (hscope : sameComputerGrantScope current mint.proof = true) :
      Next authority l1 input mint ({ mint with phase := .reproved grant }, authority)
  | fails (grant : Grant) (hphase : mint.phase = .inserted grant) :
      Next authority l1 input mint ({ mint with phase := .notCurrent grant }, authority)
  | returns (grant : Grant) (hphase : mint.phase = .reproved grant) :
      Next authority l1 input mint
        ({ mint with phase := .returned grant }, authority.settlePassed grant input.now)
  | withdraws (grant : Grant) (hphase : mint.phase = .notCurrent grant) :
      Next authority l1 input mint
        ({ mint with phase := .failed }, authority.settleFailed grant input.now)
  | rests : Next authority l1 input mint (mint, authority)

theorem next_spec (mint : Mint) (authority : Authority) (l1 : L1) (input : Input) :
    Next authority l1 input mint (mint.next authority l1 input) := by
  unfold Mint.next
  split
  next hph => exact Next.inserts hph
  next grant hph =>
    dsimp only
    split
    next hpass =>
      obtain ⟨hdeliv, hany⟩ := Bool.and_eq_true_iff.mp hpass
      obtain ⟨current, hproof, hscope⟩ := (Option.any_eq_true ..).mp hany
      exact Next.passes grant current hph hdeliv hproof hscope
    next => exact Next.fails grant hph
  next grant hph => exact Next.returns grant hph
  next grant hph => exact Next.withdraws grant hph
  next => exact Next.rests
  next => exact Next.rests

theorem later_next (h : Counted authority) (hmint : scopes mint.proof) :
    Later scopes authority (mint.next authority l1 input).2 := by
  have hnext := next_spec mint authority l1 input
  generalize mint.next authority l1 input = result at hnext ⊢
  cases hnext with
  | inserts _ => exact later_insert h hmint
  | passes | fails | rests => exact Later.refl authority
  | returns | withdraws => exact later_revoke _ _ _ _

/-- What one event can do. -/
inductive Stepped (system : System) : Event → System → Prop
  | rests (event : Event) : Stepped system event system
  | proves (proof : ComputerTokenScopeProof) :
      Stepped system (.proves proof) (system.step (.proves proof))
  | ends (computerID : String) : Stepped system (.ends computerID) (system.step (.ends computerID))
  | starts {computerID attemptID hostNodeID : String} (proof : ComputerTokenScopeProof)
      (hproof : system.l1.proveComputerTokenScope computerID attemptID hostNodeID = some proof)
      (hvalid : validComputerScopeProof proof = true) :
      Stepped system (.mint computerID attemptID hostNodeID)
        { system with mints := system.mints ++ [⟨proof, .proved⟩] }
  | moves {index : Nat} (input : Input) (mint : Mint) (hmint : system.mints[index]? = some mint) :
      Stepped system (.resume index input)
        { system with
          authority := (mint.next system.authority system.l1 input).2
          mints := system.mints.set index (mint.next system.authority system.l1 input).1 }
  | abandons {index : Nat} (mint : Mint) (hmint : system.mints[index]? = some mint) :
      Stepped system (.abandon index)
        { system with mints := system.mints.set index { mint with phase := .failed } }
  | revokes (revocation : Revocation) (now : Int) (reason : String) :
      Stepped system (.revoke revocation now reason) { system with
        authority := system.authority.revokeComputerGrantRows revocation.selects now reason }
  | adopts (instanceID : String) (now : Int) :
      Stepped system (.adopt instanceID now) { system with
        authority := system.authority.adoptComputerAuthorityInstance instanceID now }

theorem step_spec (system : System) (event : Event) : Stepped system event (system.step event) := by
  cases event with
  | proves proof => exact .proves proof
  | ends computerID => exact .ends computerID
  | mint computerID attemptID hostNodeID =>
    unfold System.step
    dsimp only
    split
    · exact .rests _
    next proof hproof =>
      split
      next hvalid => exact .starts proof hproof hvalid
      · exact .rests _
  | resume index input =>
    unfold System.step System.resume
    dsimp only
    split
    · exact .rests _
    next mint hmint => exact .moves input mint hmint
  | abandon index =>
    unfold System.step
    dsimp only
    split
    · exact .rests _
    next mint hmint =>
      split
      · exact .rests _
      · exact .abandons mint hmint
  | revoke revocation now reason => exact .revokes revocation now reason
  | adopt instanceID now => exact .adopts instanceID now

theorem later_step (h : Counted system.authority)
    (hmints : ∀ mint ∈ system.mints, scopes mint.proof) :
    Later scopes system.authority (system.step event).authority := by
  have hstep := step_spec system event
  generalize system.step event = system' at hstep ⊢
  cases hstep with
  | moves input mint hmint => exact later_next h (hmints mint (List.mem_of_getElem? hmint))
  | revokes => exact later_revoke _ _ _ _
  | adopts => exact later_adopt
  | _ => exact Later.refl _

theorem Later.counted {before after : Authority} (hl : Later scopes before after)
    (h : Counted before) : Counted after := by
  intro revision row' hrow'
  obtain ⟨-, hle, -⟩ | ⟨row, hrow, -⟩ := hl.origin revision row' hrow'
  · exact hle
  · exact Nat.le_trans (h revision row hrow) hl.counter

end Grants

/-! ## 3. The order of attempts -/

def attemptOf (proof : ComputerTokenScopeProof) : String × String :=
  (proof.computerID, proof.computerAttemptID)

/-- The attempt L1 proves for a Computer is the latest that began. -/
def Ordered (l1 : L1) : Prop :=
  ∀ computerID proof, l1.current.find computerID = some proof →
    l1.Latest computerID proof.computerAttemptID

theorem began_step (system : System) (event : Event) :
    ∃ joined, (system.step event).l1.began = system.l1.began ++ joined := by
  have hstep := step_spec system event
  generalize system.step event = system' at hstep ⊢
  cases hstep with
  | proves proof =>
    by_cases h : (proof.computerID, proof.computerAttemptID) ∈ system.l1.began
    · exact ⟨[], by simp [System.step, h]⟩
    · exact ⟨[(proof.computerID, proof.computerAttemptID)], by simp [System.step, h]⟩
  | _ => exact ⟨[], (List.append_nil _).symm⟩

theorem latest_append (h : (computerID, attemptID) ∉ l1.began) :
    L1.Latest ⟨current, l1.began ++ [(computerID, attemptID)]⟩ computerID attemptID := by
  refine ⟨by simp, fun key hkey _ => ?_⟩
  have hnew : (l1.began ++ [(computerID, attemptID)]).idxOf (computerID, attemptID) =
      l1.began.length := by
    rw [List.idxOf_append_of_notMem h]
    simp
  have hlt : (l1.began ++ [(computerID, attemptID)]).idxOf key < _ :=
    List.idxOf_lt_length_of_mem hkey
  rw [List.length_append, List.length_singleton] at hlt
  show (l1.began ++ _).idxOf key ≤ (l1.began ++ _).idxOf _
  omega

theorem latest_of_other
    {key : String × String} (hne : key.1 ≠ computerID) (h : l1.Latest computerID attemptID) :
    L1.Latest ⟨current, l1.began ++ [key]⟩ computerID attemptID := by
  refine ⟨List.mem_append_left _ h.1, fun other hoth hcomp => ?_⟩
  have hold : other ∈ l1.began := by
    rcases List.mem_append.mp hoth with hold | hnew
    · exact hold
    · rw [List.mem_singleton.mp hnew] at hcomp
      exact absurd hcomp hne
  show (l1.began ++ _).idxOf other ≤ (l1.began ++ _).idxOf _
  rw [List.idxOf_append_of_mem hold, List.idxOf_append_of_mem h.1]
  exact h.2 other hold hcomp

theorem ordered_proves (h : Ordered system.l1) (hok : system.Admits (.proves proof)) :
    Ordered (system.step (.proves proof)).l1 := by
  intro computerID current hcur
  have hfind : (if proof.computerID = computerID then some proof
      else system.l1.current.find computerID) = some current := by
    rw [← Table.find_put]
    exact hcur
  by_cases hmem : (proof.computerID, proof.computerAttemptID) ∈ system.l1.began
  · -- the order is as it was, and the guard says the attempt is still its latest
    have hlatest := hok.resolve_right (not_not_intro hmem)
    have hbegan : (system.step (.proves proof)).l1.began = system.l1.began := if_pos hmem
    unfold L1.Latest
    rw [hbegan]
    by_cases hc : proof.computerID = computerID
    · rw [if_pos hc] at hfind
      obtain rfl := Option.some.inj hfind
      exact hc ▸ hlatest
    · rw [if_neg hc] at hfind
      exact h computerID current hfind
  · have hstep : (system.step (.proves proof)).l1 = ⟨system.l1.current.put proof,
        system.l1.began ++ [(proof.computerID, proof.computerAttemptID)]⟩ := by
      simp [System.step, hmem]
    rw [hstep]
    by_cases hc : proof.computerID = computerID
    · rw [if_pos hc] at hfind
      obtain rfl := Option.some.inj hfind
      exact hc ▸ latest_append hmem
    · rw [if_neg hc] at hfind
      exact latest_of_other hc (h computerID current hfind)

theorem ordered_ends (h : Ordered system.l1) {ended : String} :
    Ordered (system.step (.ends ended)).l1 := by
  intro computerID current hcur
  have hfind : (system.l1.current.delete ended).find computerID = some current := hcur
  rw [Table.find_delete] at hfind
  split at hfind
  · cases hfind
  · exact h computerID current hfind

theorem ordered_step (h : Ordered system.l1) (hok : system.Admits event) :
    Ordered (system.step event).l1 := by
  have hstep := step_spec system event
  generalize system.step event = system' at hstep ⊢
  cases hstep with
  | proves proof => exact ordered_proves h hok
  | ends computerID => exact ordered_ends h
  | _ => exact h

/-! ## 4. The mints in flight -/

def granted : Phase → Option Grant
  | .inserted grant | .reproved grant | .notCurrent grant | .returned grant => some grant
  | .proved | .failed => none

def passed : Phase → Option Grant
  | .reproved grant | .returned grant => some grant
  | .proved | .inserted _ | .notCurrent _ | .failed => none

theorem granted_of_passed {phase : Phase} (h : passed phase = some grant) :
    granted phase = some grant := by
  cases phase <;> first | exact h | cases h

structure Sound (authority : Authority) (l1 : L1) (mint : Mint) : Prop where
  began : attemptOf mint.proof ∈ l1.began
  stored : ∀ grant, granted mint.phase = some grant → grant.scope = mint.proof ∧
    ∃ row, authority.grants.find grant.grantRevision = some row ∧ row.scope = mint.proof
  newest : ∀ grant, passed mint.phase = some grant → ∀ revision row,
    authority.grants.find revision = some row → row.scope.computerID = mint.proof.computerID →
    revision < grant.grantRevision →
      l1.began.idxOf (attemptOf row.scope) ≤ l1.began.idxOf (attemptOf mint.proof)
  settled : ∀ grant, mint.phase = .returned grant → ∀ revision row,
    authority.grants.find revision = some row → row.scope.computerID = mint.proof.computerID →
    revision < grant.grantRevision → row.revokedNS.isSome = true

theorem Sound.of_not_passed (hbegan : attemptOf mint.proof ∈ l1.began)
    (hstore : ∀ grant, granted mint.phase = some grant → grant.scope = mint.proof ∧
      ∃ row, authority.grants.find grant.grantRevision = some row ∧ row.scope = mint.proof)
    (h : passed mint.phase = none) : Sound authority l1 mint where
  began := hbegan
  stored := hstore
  newest := by
    intro grant hgrant
    rw [h] at hgrant
    cases hgrant
  settled := by
    intro grant hph
    rw [hph] at h
    cases h

theorem Sound.of_not_granted (hbegan : attemptOf mint.proof ∈ l1.began)
    (h : granted mint.phase = none) : Sound authority l1 mint := by
  refine Sound.of_not_passed hbegan ?_ ?_
  · intro grant hgrant
    rw [h] at hgrant
    cases hgrant
  · rw [Option.eq_none_iff_forall_ne_some]
    intro grant hgrant
    rw [granted_of_passed hgrant] at h
    cases h

structure Inv (system : System) : Prop where
  ordered : Ordered system.l1
  counted : Counted system.authority
  begun : ∀ revision row, system.authority.grants.find revision = some row →
    attemptOf row.scope ∈ system.l1.began
  mints : ∀ mint ∈ system.mints, Sound system.authority system.l1 mint

/-- A mint that takes no step stays sound while others do. A row below its grant is never a
new one, since new rows lie above the counter. -/
theorem Sound.later {scopes : ComputerTokenScopeProof → Prop} {before after : Authority} {l1' : L1}
    {joined : List (String × String)} (h : Sound before l1 mint) (hl : Later scopes before after)
    (hcounted : Counted before) (hbegun : ∀ revision row, before.grants.find revision = some row →
      attemptOf row.scope ∈ l1.began) (hbegan : l1'.began = l1.began ++ joined)
    : Sound after l1' mint := by
  have below : ∀ grant, granted mint.phase = some grant → ∀ revision row',
      after.grants.find revision = some row' → revision < grant.grantRevision →
      ∃ row, before.grants.find revision = some row ∧ row'.scope = row.scope ∧
        (row.revokedNS.isSome = true → row'.revokedNS.isSome = true) := by
    intro grant hgrant revision row' hrow' hlt
    obtain ⟨-, own, hown, -⟩ := h.stored grant hgrant
    have hle := hcounted _ own hown
    obtain ⟨hnew, -⟩ | ⟨row, hrow, hscope, -, hrevoked⟩ := hl.origin revision row' hrow'
    · omega
    · exact ⟨row, hrow, hscope, hrevoked⟩
  refine ⟨?_, ?_, ?_, ?_⟩
  · rw [hbegan]
    exact List.mem_append_left _ h.began
  · intro grant hgrant
    obtain ⟨hscope, row, hrow, hproof⟩ := h.stored grant hgrant
    obtain ⟨row', hrow', hsame⟩ := hl.kept _ row hrow
    exact ⟨hscope, row', hrow', hsame.trans hproof⟩
  · intro grant hgrant revision row' hrow' hcomp hlt
    obtain ⟨row, hrow, hsame, -⟩ :=
      below grant (granted_of_passed hgrant) revision row' hrow' hlt
    rw [hsame] at hcomp ⊢
    rw [hbegan, List.idxOf_append_of_mem (hbegun revision row hrow),
      List.idxOf_append_of_mem h.began]
    exact h.newest grant hgrant revision row hrow hcomp hlt
  · intro grant hph revision row' hrow' hcomp hlt
    obtain ⟨row, hrow, hsame, hrevk⟩ :=
      below grant (by rw [hph]; rfl) revision row' hrow' hlt
    rw [hsame] at hcomp
    exact hrevk (h.settled grant hph revision row hrow hcomp hlt)

theorem of_proveComputerTokenScope {hostNodeID : String}
    (h : l1.proveComputerTokenScope computerID attemptID hostNodeID = some proof) :
    l1.current.find computerID = some proof ∧ proof.computerAttemptID = attemptID := by
  obtain ⟨hfind, hasked⟩ := Option.filter_eq_some_iff.mp h
  exact ⟨hfind, of_decide_eq_true (Bool.and_eq_true_iff.mp hasked).1⟩

/-- **A step of a mint keeps it sound.** The two steps that carry the argument are the re-proof,
which finds every lower grant at or before its own attempt, and the settlement, which
revokes them. -/
theorem sound_next (hinv : Inv system) (hmint : Sound system.authority system.l1 mint) :
    Sound (mint.next system.authority system.l1 input).2 system.l1
      (mint.next system.authority system.l1 input).1 := by
  have hnext := next_spec mint system.authority system.l1 input
  generalize mint.next system.authority system.l1 input = result at hnext ⊢
  cases hnext with
  | inserts hph =>
    refine Sound.of_not_passed hmint.began ?_ rfl
    intro grant hgrant
    obtain rfl := Option.some.inj hgrant
    refine ⟨rfl, system.authority.nextGrant mint.proof (newComputerToken input.random) input.now,
      ?_, rfl⟩
    rw [find_insertComputerGrant hinv.counted]
    exact if_pos rfl
  | passes grant current hph hdeliv hproof hscope =>
    refine ⟨hmint.began, ?_, ?_, fun _ hph' => Phase.noConfusion hph'⟩
    · intro grant' hgrant'
      exact hmint.stored grant' (by rw [hph]; exact hgrant')
    · intro grant' _ revision row hrow hcomp _
      obtain ⟨hfind, hatt⟩ := of_proveComputerTokenScope hproof
      have hlatest := hinv.ordered _ current hfind
      rw [hatt] at hlatest
      exact hlatest.2 _ (hinv.begun revision row hrow) hcomp
  | fails grant hph =>
    refine Sound.of_not_passed hmint.began ?_ rfl
    intro grant' hgrant'
    exact hmint.stored grant' (by rw [hph]; exact hgrant')
  | returns grant hph =>
    have hl : Later (fun _ => True) system.authority
        (system.authority.settlePassed grant input.now) := later_revoke _ _ _ _
    have hkept := hmint.later hl hinv.counted hinv.begun (List.append_nil _).symm
    have hgranted : granted mint.phase = some grant := by rw [hph]; rfl
    refine ⟨hkept.began, ?_, ?_, ?_⟩
    · intro grant' hgrant'
      exact hkept.stored grant' (by rw [hgranted]; exact hgrant')
    · intro grant' hgrant'
      exact hkept.newest grant' (by rw [hph]; exact hgrant')
    intro grant' hph' revision row' hrow' hcomp hlt
    obtain rfl := Phase.returned.inj hph'
    have hrow'' := hrow'
    unfold Authority.settlePassed at hrow''
    rw [find_revoke] at hrow''
    obtain ⟨row, hrow, rfl⟩ := Option.map_eq_some_iff.mp hrow''
    rw [revokedRow_scope] at hcomp
    refine revokedRow_of_selected ?_
    have hrev : row.grantRevision = revision := Table.key_of_find hrow
    rw [hrev, (hmint.stored _ hgranted).1, hcomp]
    simpa using hlt
  | withdraws grant hph => exact Sound.of_not_granted hmint.began rfl
  | rests => exact hmint

/-- The mints after a step: those that were there, the one that moved, and the one that
started or was abandoned. -/
theorem mints_step (hinv : Inv system) :
    ∀ mint ∈ (system.step event).mints, mint ∈ system.mints ∨
      Sound (system.step event).authority (system.step event).l1 mint := by
  have hstep := step_spec system event
  generalize system.step event = system' at hstep ⊢
  intro mint hmem
  cases hstep with
  | starts proof hproof =>
    rcases List.mem_append.mp hmem with hold | hnew
    · exact Or.inl hold
    -- the attempt has begun, because L1 proves it now
    obtain rfl := List.mem_singleton.mp hnew
    obtain ⟨hfind, -⟩ := of_proveComputerTokenScope hproof
    have hbegan := (hinv.ordered _ proof hfind).1
    rw [← show proof.computerID = _ from Table.key_of_find hfind] at hbegan
    exact Or.inr (Sound.of_not_granted hbegan rfl)
  | moves input moved hmvd =>
    rcases List.mem_or_eq_of_mem_set hmem with hold | rfl
    · exact Or.inl hold
    · exact Or.inr (sound_next hinv (hinv.mints moved (List.mem_of_getElem? hmvd)))
  | abandons gone hgone =>
    have hsound := hinv.mints gone (List.mem_of_getElem? hgone)
    rcases List.mem_or_eq_of_mem_set hmem with hold | rfl
    · exact Or.inl hold
    · exact Or.inr (Sound.of_not_granted hsound.began rfl)
  | _ => exact Or.inl hmem

theorem inv_start : Inv System.start := by
  have noGrant : ∀ revision row, System.start.authority.grants.find revision ≠ some row := by
    intro revision row hrow
    cases (Table.find_empty).symm.trans hrow
  refine ⟨?_, ?_, ?_, ?_⟩
  · intro computerID proof hproof
    cases (Table.find_empty).symm.trans hproof
  · exact fun revision row hrow => absurd hrow (noGrant revision row)
  · exact fun revision row hrow => absurd hrow (noGrant revision row)
  · exact fun mint hmint => absurd hmint List.not_mem_nil

theorem inv_step (system : System) (event : Event) (hinv : Inv system)
    (hok : system.Admits event) : Inv (system.step event) := by
  obtain ⟨joined, hbegan⟩ := began_step system event
  have hl : Later (fun proof => attemptOf proof ∈ system.l1.began) system.authority
      (system.step event).authority :=
    later_step hinv.counted (fun mint hmint => (hinv.mints mint hmint).began)
  refine ⟨ordered_step hinv.ordered hok, hl.counted hinv.counted, ?_, ?_⟩
  · intro revision row' hrow'
    rw [hbegan]
    refine List.mem_append_left _ ?_
    obtain ⟨-, -, hscope, -⟩ | ⟨row, hrow, hsame, -⟩ := hl.origin revision row' hrow'
    · exact hscope
    · rw [hsame]
      exact hinv.begun revision row hrow
  · intro mint hmint
    rcases mints_step hinv mint hmint with hold | hsound
    · exact (hinv.mints mint hold).later hl hinv.counted hinv.begun hbegan
    · exact hsound

theorem inv_reached {events : List Event}
    (h : Admitted System.Admits System.step System.start events) : Inv (System.reached events) :=
  (Run.of_admitted h).invariant inv_step inv_start

/-! ## 5. The three results -/

/-- **No step of a mint for an earlier attempt touches a grant of a later one.** -/
theorem earlier_mint_spares (hinv : Inv system) (hmint : system.mints[index]? = some mint)
    {row : Grant} (hrow : system.authority.grants.find revision = some row)
    (hearl : system.l1.Earlier mint.proof.computerID mint.proof.computerAttemptID
      row.scope.computerAttemptID) (hcomp : row.scope.computerID = mint.proof.computerID) :
    (system.step (.resume index input)).authority.grants.find revision = some row := by
  have hsound := hinv.mints mint (List.mem_of_getElem? hmint)
  have hatt : row.scope.computerAttemptID ≠ mint.proof.computerAttemptID := by
    intro hsame
    have hlt := hearl.2
    rw [hsame] at hlt
    exact Nat.lt_irrefl _ hlt
  have hrev : row.grantRevision = revision := Table.key_of_find hrow
  have hmoves : (system.step (.resume index input)).authority =
      (mint.next system.authority system.l1 input).2 := by
    simp only [System.step, System.resume, hmint]
  have hnext := next_spec mint system.authority system.l1 input
  rw [hmoves]
  generalize mint.next system.authority system.l1 input = result at hnext ⊢
  cases hnext with
  | inserts hph =>
    -- only the attempt's own grants are revoked, and the new revision is a fresh one
    have hle := hinv.counted revision row hrow
    rw [find_insertComputerGrant hinv.counted, if_neg (by omega), ← find_revoke]
    exact find_revoke_of_not_selected hrow (by simp [Authority.ofAttempt, hatt])
  | returns grant hph =>
    -- a lower grant would be of an attempt no later than the mint's
    refine find_revoke_of_not_selected hrow ?_
    have hnotLower : ¬ row.grantRevision < grant.grantRevision := by
      intro hlt
      rw [hrev] at hlt
      have hle := hsound.newest grant (by rw [hph]; rfl) revision row hrow hcomp hlt
      have hgt := hearl.2
      rw [attemptOf, hcomp, attemptOf] at hle
      omega
    simp [hnotLower]
  | withdraws grant hph =>
    -- the only grant it revokes is its own, which is of its own attempt
    refine find_revoke_of_not_selected hrow ?_
    have hnotOwn : row.grantRevision ≠ grant.grantRevision := by
      intro hown
      obtain ⟨-, own, hfind, hscope⟩ := hsound.stored grant (by rw [hph]; rfl)
      rw [← hown, hrev, hrow] at hfind
      obtain rfl := Option.some.inj hfind
      exact hatt (by rw [hscope])
    simp [hnotOwn]
  | passes | fails | rests => exact hrow

/-- The `index`-th mint, its grant committed, is proved again by L1 at this step. -/
def Reproves (system : System) (index : Nat) (input : Input) (grant : Grant) : Prop :=
  ∃ mint current, system.mints[index]? = some mint ∧ mint.phase = .inserted grant ∧
    input.delivered = true ∧
    system.l1.proveComputerTokenScope mint.proof.computerID mint.proof.computerAttemptID
      mint.proof.hostNodeID = some current ∧
    sameComputerGrantScope current mint.proof = true

theorem passed_step (hmint : (system.step event).mints[index]? = some mint)
    (hpass : passed mint.phase = some grant) :
    (∃ before, system.mints[index]? = some before ∧ passed before.phase = some grant) ∨
    ∃ input, event = .resume index input ∧ Reproves system index input grant := by
  have hstep := step_spec system event
  generalize system.step event = system' at hstep hmint
  cases hstep with
  | starts proof =>
    by_cases hlt : index < system.mints.length
    · rw [List.getElem?_append_left hlt] at hmint
      exact Or.inl ⟨mint, hmint, hpass⟩
    · rw [List.getElem?_append_right (Nat.le_of_not_lt hlt)] at hmint
      obtain rfl := List.mem_singleton.mp (List.mem_of_getElem? hmint)
      cases hpass
  | @moves other input moved hmvd =>
    by_cases hsame : other = index
    · subst hsame
      rw [List.getElem?_set_self (List.getElem?_eq_some_iff.mp hmvd).1] at hmint
      obtain rfl := Option.some.inj hmint
      have hnext := next_spec moved system.authority system.l1 input
      generalize moved.next system.authority system.l1 input = result at hnext hpass
      cases hnext with
      | passes grant' current hph hdeliv hproof hscope =>
        obtain rfl := Option.some.inj hpass
        exact Or.inr ⟨input, rfl, moved, current, hmvd, hph, hdeliv, hproof, hscope⟩
      | returns grant' hph =>
        exact Or.inl ⟨moved, hmvd, by rw [hph]; exact hpass⟩
      | rests => exact Or.inl ⟨moved, hmvd, hpass⟩
      | inserts | fails | withdraws => cases hpass
    · rw [List.getElem?_set_ne hsame] at hmint
      exact Or.inl ⟨mint, hmint, hpass⟩
  | @abandons other gone hgone =>
    by_cases hsame : other = index
    · subst hsame
      rw [List.getElem?_set_self (List.getElem?_eq_some_iff.mp hgone).1] at hmint
      obtain rfl := Option.some.inj hmint
      cases hpass
    · rw [List.getElem?_set_ne hsame] at hmint
      exact Or.inl ⟨mint, hmint, hpass⟩
  | _ => exact Or.inl ⟨mint, hmint, hpass⟩

theorem reached_snoc (events : List Event) (event : Event) :
    System.reached (events ++ [event]) = (System.reached events).step event :=
  exec_append _ _ _ _

/-- Where the re-proof of a mint has passed, some earlier event is that re-proof. -/
theorem reproved_before (events : List Event)
    (hmint : (System.reached events).mints[index]? = some mint)
    (hpass : passed mint.phase = some grant) :
    ∃ before input after, events = before ++ .resume index input :: after ∧
      Reproves (System.reached before) index input grant := by
  induction events using List.reverseRecOn generalizing mint with
  | nil => cases hmint
  | append_singleton events event ih =>
    rw [reached_snoc] at hmint
    obtain ⟨earlier, hearl, hpass'⟩ | ⟨input, rfl, hnow⟩ := passed_step hmint hpass
    · obtain ⟨before, input, after, rfl, hthen⟩ := ih hearl hpass'
      exact ⟨before, input, after ++ [event], by simp, hthen⟩
    · exact ⟨events, input, [], rfl, hnow⟩

/-- **Minting never lets an ended attempt disturb its successor.** After any interleaving of
mints, revocations and attempts that L1 allows: a step of a mint leaves alone every grant of
a later attempt of its Computer; a mint that has returned its bearer was proved again by L1
at an event where its grant was committed; and every lower grant of its Computer is
revoked. -/
theorem mints_spare_successors (events : List Event)
    (h : Admitted System.Admits System.step System.start events) :
    (∀ index mint input revision row,
      (System.reached events).mints[index]? = some mint →
      (System.reached events).authority.grants.find revision = some row →
      row.scope.computerID = mint.proof.computerID →
      (System.reached events).l1.Earlier mint.proof.computerID mint.proof.computerAttemptID
        row.scope.computerAttemptID →
      ((System.reached events).step (.resume index input)).authority.grants.find revision =
        some row) ∧
    ∀ index mint grant, (System.reached events).mints[index]? = some mint →
      mint.phase = .returned grant →
      (∃ before input after, events = before ++ .resume index input :: after ∧
        Reproves (System.reached before) index input grant ∧
        ∃ row, (System.reached before).authority.grants.find grant.grantRevision = some row ∧
          row.scope = mint.proof) ∧
      ∀ revision row, (System.reached events).authority.grants.find revision = some row →
        row.scope.computerID = mint.proof.computerID → revision < grant.grantRevision →
        row.revokedNS.isSome = true := by
  have hinv := inv_reached h
  refine ⟨?_, ?_⟩
  · intro index mint input revision row hmint hrow hcomp hearl
    exact earlier_mint_spares hinv hmint hrow hearl hcomp
  intro index mint grant hmint hph
  have hsound := hinv.mints mint (List.mem_of_getElem? hmint)
  refine ⟨?_, hsound.settled grant hph⟩
  obtain ⟨before, input, after, hevents, hthen⟩ :=
    reproved_before events hmint (show passed mint.phase = some grant by rw [hph]; rfl)
  refine ⟨before, input, after, hevents, hthen, ?_⟩
  rw [hevents] at h
  obtain ⟨then', current, hthen', hins, -, -, -⟩ := hthen
  have hsound' := (inv_reached h.of_append).mints then' (List.mem_of_getElem? hthen')
  obtain ⟨hscope', row, hrow, hproof⟩ := hsound'.stored grant (by rw [hins]; rfl)
  have hscope := (hsound.stored grant (by rw [hph]; rfl)).1
  exact ⟨row, hrow, hproof.trans (hscope'.symm.trans hscope)⟩

/-- A scope of Computer `c`, on one host. -/
def scopeOf (attemptID : String) : ComputerTokenScopeProof :=
  ⟨"c", attemptID, 1, 1, "host", "stable", "boot", 4⟩

/-- L1 proves `a` and then `b`. The mint for `b` returns before the mint for `a`, which started
first, inserts its grant and is refused its re-proof. -/
def lateMint : List Event :=
  [.adopt "l3" 1, .proves (scopeOf "a"), .mint "c" "a" "host", .proves (scopeOf "b"),
    .mint "c" "b" "host", .resume 1 ⟨2, "01", true⟩, .resume 1 ⟨3, "", true⟩,
    .resume 1 ⟨4, "", true⟩, .resume 0 ⟨5, "02", true⟩, .resume 0 ⟨6, "", true⟩]

/-- The grant the mint for `b` returned. -/
def successorGrant : Grant :=
  ⟨1, scopeOf "b", some "stable", some "boot", 1, "wcomputer_01", 2, none, ""⟩

def lateGrant : Grant :=
  ⟨2, scopeOf "a", some "stable", some "boot", 1, "wcomputer_02", 5, none, ""⟩

/-- The grant of `a` has the higher revision, and settling it leaves the one of `b` alone. -/
theorem mints_spare_successors_late :
    Admitted System.Admits System.step System.start lateMint ∧
    (System.reached lateMint).mints[0]? =
      some ⟨scopeOf "a", .notCurrent lateGrant⟩ ∧
    (System.reached lateMint).mints[1]? = some ⟨scopeOf "b", .returned successorGrant⟩ ∧
    ((System.reached lateMint).step (.resume 0 ⟨7, "", true⟩)).authority.grants.find 1 =
      some successorGrant := by
  have hadm : Admitted System.Admits System.step System.start lateMint := by decide +kernel
  refine ⟨hadm, by decide +kernel, by decide +kernel, ?_⟩
  exact (mints_spare_successors lateMint hadm).1 0
    ⟨scopeOf "a", .notCurrent lateGrant⟩ ⟨7, "", true⟩ 1 successorGrant
    (by decide +kernel) (by decide +kernel) (by decide) (by decide +kernel)

end Wefty.TokenMints
