/-
The startup revocation of a host (`RevokeHostComputerTokens` of `l3/computer_tokens.go`;
`proveHostBootSession` of `l1/computer_submission.go`).

An agent that starts revokes what earlier boots of its Node minted. The call reads the grant
revision, has L1 prove the boot, and revokes afterwards, each in a step of its own, so the Node may
be two boots further on by then. The revision keeps their grants out: a boot that is current at the
end and was not proved has registered after the proof, and its grants have higher revisions than the
one read before.

A boot session is not registered twice, and a stable node registers under the identity it is bound
to. The store may have grants from before the columns that say which boot minted one.
-/
import Wefty.TokenMints

set_option autoImplicit false

namespace Wefty.HostRevocations

open Tables Runs ComputerTokens TokenMints

/-! ## 1. The system -/

structure Registration where
  nodeID : String
  identityNodeID : String
  bootSessionID : String
  deriving DecidableEq

/-- A call of `RevokeHostComputerTokens`, once it has read the revision. -/
structure HostRevocation where
  host : Registration
  reason : String
  grantRevision : Nat
  proved : Bool

structure Hosts where
  authority : Authority
  registrations : List Registration := []
  mints : List Mint := []
  revocations : List HostRevocation := []

/-- The row of `nodes`. -/
def Hosts.current (s : Hosts) (nodeID : String) : Option Registration :=
  s.registrations.find? fun r => r.nodeID = nodeID

/-- The Node of a scope, in the boot session that was proved with it. -/
def hostOf (scope : ComputerTokenScopeProof) : Registration :=
  ⟨scope.hostStableNodeID, scope.hostNodeID, scope.hostBootSessionID⟩

inductive Event
  | register (r : Registration)
  /-- L1 proves the scope and a mint starts. -/
  | mint (proof : ComputerTokenScopeProof)
  | resume (index : Nat) (l1 : L1) (input : Input)
  | revoke (revocation : Revocation) (now : Int) (reason : String)
  | adopt (instanceID : String) (now : Int)
  | read (host : Registration) (reason : String)
  | prove (index : Nat)
  | commit (index : Nat) (now : Int)

def HostRevocation.rows (r : HostRevocation) : Revocation :=
  .host r.host.identityNodeID r.host.nodeID r.host.bootSessionID r.grantRevision

def step (s : Hosts) : Event → Hosts
  | .register r =>
    if ∀ old ∈ s.registrations, old.nodeID = r.nodeID →
        old.bootSessionID ≠ r.bootSessionID ∧ old.identityNodeID = r.identityNodeID then
      { s with registrations := r :: s.registrations }
    else s
  | .mint proof =>
    if validComputerScopeProof proof ∧ s.current proof.hostStableNodeID = some (hostOf proof) then
      { s with mints := ⟨proof, .proved⟩ :: s.mints }
    else s
  | .resume index l1 input =>
    match s.mints[index]? with
    | none => s
    | some mint =>
      { s with
        authority := (mint.next s.authority l1 input).2
        mints := s.mints.set index (mint.next s.authority l1 input).1 }
  | .revoke revocation now reason =>
    { s with authority := s.authority.revokeComputerGrantRows revocation.selects now reason }
  | .adopt instanceID now =>
    { s with authority := s.authority.adoptComputerAuthorityInstance instanceID now }
  | .read host reason =>
    if [host.identityNodeID, host.nodeID, host.bootSessionID, reason].all wellFormed then
      { s with revocations := s.revocations ++ [{
          host, reason
          grantRevision := s.authority.grantRevision
          proved := false }] }
    else s
  | .prove index =>
    match s.revocations[index]? with
    | none => s
    | some r =>
      if s.current r.host.nodeID = some r.host then
        { s with revocations := s.revocations.set index { r with proved := true } }
      else s
  | .commit index now =>
    match s.revocations[index]? with
    | none => s
    | some r =>
      if r.proved then
        { s with authority := s.authority.revokeComputerGrantRows r.rows.selects now r.reason }
      else s

/-- What an L3 without the columns of the host has left. -/
structure Legacy where
  authority : Authority
  counted : Counted authority
  unrecorded : ∀ {revision grant}, authority.grants.find revision = some grant →
    grant.hostStableNodeID = none

def reached (legacy : Legacy) (events : List Event) : Hosts :=
  exec step { authority := legacy.authority } events

/-! ## 2. The invariant -/

/-- The registration of the boot that minted a grant. -/
def Recorded (s : Hosts) (grant : Grant) : Prop :=
  hostColumns grant = (some grant.scope.hostStableNodeID, some grant.scope.hostBootSessionID) ∧
    hostOf grant.scope ∈ s.registrations

/-- What a revocation that was proved may count on: among the grants up to its revision, those of
the current boot are those of its own. -/
structure Fenced (s : Hosts) (r : HostRevocation) : Prop where
  read : r.grantRevision ≤ s.authority.grantRevision
  registered : r.proved → r.host ∈ s.registrations
  spares : r.proved → ∀ {revision grant}, s.authority.grants.find revision = some grant →
    revision ≤ r.grantRevision → Recorded s grant →
    s.current r.host.nodeID = some (hostOf grant.scope) → hostOf grant.scope = r.host

structure Inv (s : Hosts) : Prop where
  counted : Counted s.authority
  same : ∀ a ∈ s.registrations, ∀ b ∈ s.registrations, a.nodeID = b.nodeID →
    a.identityNodeID = b.identityNodeID
  mints : ∀ mint ∈ s.mints, hostOf mint.proof ∈ s.registrations
  grants : ∀ {revision grant}, s.authority.grants.find revision = some grant →
    grant.hostStableNodeID = none ∨ Recorded s grant
  fenced : ∀ r ∈ s.revocations, Fenced s r

variable {nodeID : String}

section
variable {s : Hosts}

theorem mem_of_current {r : Registration} (h : s.current nodeID = some r) :
    r ∈ s.registrations := List.mem_of_find?_eq_some h

variable {authority : Authority}

theorem Inv.later (h : Inv s) {mints : List Mint}
    (hl : Later (fun scope => hostOf scope ∈ s.registrations) s.authority authority)
    (hm : ∀ mint ∈ mints, hostOf mint.proof ∈ s.registrations) :
    Inv { s with authority, mints } := by
  have hkept : ∀ {row grant : Grant}, grant.scope = row.scope →
      hostColumns grant = hostColumns row → (Recorded s grant ↔ Recorded s row) := by
    intro row grant hscope hcols
    unfold Recorded
    rw [hscope, hcols]
  refine ⟨hl.counted h.counted, h.same, hm, fun {revision grant} hfind => ?_, fun r hr => ?_⟩
  · rcases hl.origin revision grant hfind with ⟨-, -, hnew, hcols⟩ | ⟨row, hrow, hscope, hcols, -⟩
    · exact .inr ⟨hcols, hnew⟩
    · exact (h.grants hrow).imp (congrArg Prod.fst hcols).trans (hkept hscope hcols).mpr
  · have hf := h.fenced r hr
    refine ⟨Nat.le_trans hf.read hl.counter, hf.registered, ?_⟩
    intro hproved revision grant hfind hle hown
    rcases hl.origin revision grant hfind with ⟨hlt, -⟩ | ⟨row, hrow, hscope, hcols, -⟩
    -- a new grant has a higher revision
    · have hread := hf.read
      omega
    · rw [hscope]
      exact hf.spares hproved hrow hle ((hkept hscope hcols).mp hown)

theorem Inv.register (h : Inv s) {r : Registration}
    (hnew : ∀ old ∈ s.registrations, old.nodeID = r.nodeID →
      old.bootSessionID ≠ r.bootSessionID ∧ old.identityNodeID = r.identityNodeID) :
    Inv { s with registrations := r :: s.registrations } := by
  refine ⟨h.counted, ?_, fun mint hm => List.mem_cons_of_mem _ (h.mints mint hm),
    fun hfind => (h.grants hfind).imp_right fun hown => ⟨hown.1, List.mem_cons_of_mem _ hown.2⟩,
    fun q hq => ?_⟩
  · intro a ha b hb hid
    rcases List.mem_cons.mp ha with rfl | hold <;> rcases List.mem_cons.mp hb with rfl | hold'
    · rfl
    · exact (hnew b hold' hid.symm).2.symm
    · exact (hnew a hold hid).2
    · exact h.same a hold b hold' hid
  · have hf := h.fenced q hq
    refine ⟨hf.read, fun hp => List.mem_cons_of_mem _ (hf.registered hp), ?_⟩
    intro hproved revision grant hfind hle hown hcur
    -- the columns are there, so the boot that minted it was registered before
    have hold : Recorded s grant := (h.grants hfind).resolve_left fun hnone => by
      have hcol := congrArg Prod.fst hown.1
      rw [show (hostColumns grant).1 = none from hnone] at hcol
      cases hcol
    by_cases hid : r.nodeID = q.host.nodeID
    · have hself : r = hostOf grant.scope := by
        simpa [Hosts.current, List.find?_cons, hid] using hcur
      exact absurd (congrArg Registration.bootSessionID hself).symm
        (hnew _ hold.2 (congrArg Registration.nodeID hself).symm).1
    · refine hf.spares hproved hfind hle hold ?_
      simpa [Hosts.current, List.find?_cons, hid] using hcur

theorem Inv.revocations (h : Inv s) {revocations : List HostRevocation}
    (hr : ∀ r ∈ revocations, Fenced s r) : Inv { s with revocations } :=
  ⟨h.counted, h.same, h.mints, h.grants, fun r hmem =>
    have hf := hr r hmem
    ⟨hf.read, hf.registered, hf.spares⟩⟩

theorem proof_next (mint : Mint) (authority : Authority) (l1 : L1) (input : Input) :
    (mint.next authority l1 input).1.proof = mint.proof := by
  have hnext := next_spec mint authority l1 input
  generalize mint.next authority l1 input = result at hnext ⊢
  cases hnext <;> rfl

/-- **What one step does to the grants**: it keeps them, and a new one is of a registered boot. -/
theorem later_step (h : Inv s) (e : Event) :
    Later (fun scope => hostOf scope ∈ s.registrations) s.authority (step s e).authority := by
  cases e with
  | resume index l1 input =>
    unfold step
    dsimp only
    split
    · exact Later.refl _
    next mint hmint => exact later_next h.counted (h.mints mint (List.mem_of_getElem? hmint))
  | revoke | commit =>
    unfold step
    dsimp only
    repeat' split
    all_goals first | exact later_revoke _ _ _ _ | exact Later.refl _
  | adopt => exact later_adopt
  | _ =>
    unfold step
    dsimp only
    repeat' split
    all_goals exact Later.refl _

theorem inv_step (h : Inv s) (e : Event) : Inv (step s e) := by
  have hl := later_step h e
  cases e with
  | register r =>
    unfold step
    dsimp only
    split
    next hnew => exact h.register hnew
    · exact h
  | mint proof =>
    unfold step
    dsimp only
    split
    next hproof =>
      refine h.later (Later.refl _) fun mint hm => ?_
      rcases List.mem_cons.mp hm with rfl | hm
      · exact mem_of_current hproof.2
      · exact h.mints mint hm
    · exact h
  | resume index l1 input =>
    unfold step at hl ⊢
    dsimp only at hl ⊢
    split at hl
    · exact h
    next mint hmint =>
      refine h.later hl fun other hother => ?_
      rcases List.mem_or_eq_of_mem_set hother with hother | rfl
      · exact h.mints other hother
      · rw [proof_next]
        exact h.mints mint (List.mem_of_getElem? hmint)
  | revoke | adopt => exact h.later hl h.mints
  | read host reason =>
    unfold step
    dsimp only
    split
    · refine h.revocations fun r hr => ?_
      rcases List.mem_append.mp hr with hr | hr
      · exact h.fenced r hr
      · rw [List.mem_singleton.mp hr]
        exact ⟨Nat.le_refl _, nofun, nofun⟩
    · exact h
  | prove index =>
    unfold step
    dsimp only
    split
    · exact h
    next r hr =>
      split
      next hcur =>
        refine h.revocations fun q hq => ?_
        rcases List.mem_or_eq_of_mem_set hq with hq | rfl
        · exact h.fenced q hq
        · have hf := h.fenced r (List.mem_of_getElem? hr)
          refine ⟨hf.read, fun _ => mem_of_current hcur, ?_⟩
          intro _ revision grant _ _ _ hown
          exact Option.mem_unique hown hcur
      · exact h
  | commit index now =>
    unfold step at hl ⊢
    dsimp only at hl ⊢
    split
    · exact h
    next r hr =>
      rw [hr] at hl
      dsimp only at hl
      split
      next hproved =>
        rw [if_pos hproved] at hl
        exact h.later hl h.mints
      · exact h

/-- The current registration of a Node, if it is of the boot of a grant, is the one that minted
the grant. -/
theorem Inv.eq_hostOf (h : Inv s) {grant : Grant} {reg : Registration}
    (hown : Recorded s grant) (hnode : grant.scope.hostStableNodeID = nodeID)
    (hcur : s.current nodeID = some reg)
    (hboot : reg.bootSessionID = grant.scope.hostBootSessionID) : reg = hostOf grant.scope := by
  have hid : reg.nodeID = nodeID := by simpa using List.find?_some hcur
  have hsame : reg.identityNodeID = grant.scope.hostNodeID :=
    h.same reg (mem_of_current hcur) _ hown.2 (hid.trans hnode.symm)
  cases reg
  cases hid
  cases hboot
  cases hsame
  rw [hostOf, hnode]

theorem inv_start (legacy : Legacy) : Inv { authority := legacy.authority } where
  counted := legacy.counted
  same _ h := by cases h
  mints _ h := by cases h
  grants h := .inl (legacy.unrecorded h)
  fenced _ h := by cases h

variable {events : List Event}

theorem inv_exec (h : Inv s) : Inv (exec step s events) :=
  exec_invariant (P := Inv) (fun _ e h => inv_step h e) h events

/-! ## 3. A call -/

/-- The grants up to a revision are those that were there when it was the last. -/
structure Since (authority : Authority) (s : Hosts) : Prop where
  counter : authority.grantRevision ≤ s.authority.grantRevision
  same : ∀ revision ≤ authority.grantRevision,
    (s.authority.grants.find revision).isSome = (authority.grants.find revision).isSome

/-- A call stays where it is, once it has read. -/
def Waits (index : Nat) (r : HostRevocation) (s : Hosts) : Prop :=
  ∃ proved, s.revocations[index]? = some { r with proved } ∧ (r.proved = true → proved = true)

theorem since_step (h : Inv s) (hs : Since authority s) (e : Event) :
    Since authority (step s e) := by
  have hl := later_step h e
  refine ⟨Nat.le_trans hs.counter hl.counter, fun revision hle => ?_⟩
  rw [← hs.same revision hle, Bool.eq_iff_iff, Option.isSome_iff_exists, Option.isSome_iff_exists]
  constructor
  · rintro ⟨row', hrow'⟩
    rcases hl.origin revision row' hrow' with ⟨hlt, -⟩ | ⟨row, hrow, -⟩
    · have hcounter := hs.counter
      omega
    · exact ⟨row, hrow⟩
  · rintro ⟨row, hrow⟩
    obtain ⟨row', hrow', -⟩ := hl.kept revision row hrow
    exact ⟨row', hrow'⟩

theorem waits_step {index : Nat} {r : HostRevocation} (h : Waits index r s) (e : Event) :
    Waits index r (step s e) := by
  obtain ⟨proved, hr, hkept⟩ := h
  cases e with
  | read host reason =>
    refine ⟨proved, ?_, hkept⟩
    unfold step
    dsimp only
    split
    · exact (List.getElem?_append_left (List.getElem?_eq_some_iff.mp hr).1).trans hr
    · exact hr
  | prove other =>
    unfold step
    dsimp only
    split
    · exact ⟨proved, hr, hkept⟩
    next q hq =>
      split
      · by_cases hsame : other = index
        · subst hsame
          obtain rfl := Option.mem_unique hr hq
          exact ⟨true, List.getElem?_set_self (List.getElem?_eq_some_iff.mp hr).1, fun _ => rfl⟩
        · exact ⟨proved, (List.getElem?_set_ne hsame).trans hr, hkept⟩
      · exact ⟨proved, hr, hkept⟩
  | _ =>
    refine ⟨proved, ?_, hkept⟩
    unfold step
    dsimp only
    repeat' split
    all_goals exact hr

theorem since_exec (h : Inv s) (hs : Since authority s) : Since authority (exec step s events) :=
  (exec_invariant (P := fun s => Inv s ∧ Since authority s)
    (fun _ e h => ⟨inv_step h.1 e, since_step h.1 h.2 e⟩) ⟨h, hs⟩ events).2

theorem waits_exec {index : Nat} {r : HostRevocation} (h : Waits index r s) :
    Waits index r (exec step s events) :=
  exec_invariant (P := Waits index r) (fun _ e h => waits_step h e) h events

end

/-- The grants a startup revocation is for: of those that were there when it read, the ones that
another boot of its Node minted, and of those that do not say who did, the ones of its identity. -/
def owed (host : Registration) (read : Hosts) (grant : Grant) : Bool :=
  (read.authority.grants.find grant.grantRevision).isSome &&
    match grant.hostStableNodeID with
    | none => grant.scope.hostNodeID = host.identityNodeID
    | some nodeID => nodeID = host.nodeID && grant.hostBootSessionID ≠ some host.bootSessionID

section
variable {s read : Hosts} {r : HostRevocation} {revision : Nat} {grant : Grant}

theorem Inv.recorded (h : Inv s) (hfind : s.authority.grants.find revision = some grant)
    (hnode : grant.hostStableNodeID = some nodeID) :
    Recorded s grant ∧ grant.scope.hostStableNodeID = nodeID ∧
      grant.hostBootSessionID = some grant.scope.hostBootSessionID := by
  have hown : Recorded s grant := (h.grants hfind).resolve_left fun hnone => by
    rw [hnone] at hnode
    cases hnode
  refine ⟨hown, ?_, congrArg Prod.snd hown.1⟩
  have hcol : grant.hostStableNodeID = some grant.scope.hostStableNodeID := congrArg Prod.fst hown.1
  exact Option.mem_unique hcol hnode

/-- What the statement of a proved call selects is what the call is for. -/
theorem selects_eq (h : Inv s) (hsince : Since read.authority s) (hread : Counted read.authority)
    (hrevision : r.grantRevision = read.authority.grantRevision) (hhost : r.host ∈ s.registrations)
    (hfind : s.authority.grants.find revision = some grant) :
    r.rows.selects grant = owed r.host read grant := by
  have hkey : grant.grantRevision = revision := Table.key_of_find hfind
  have hle : revision ≤ read.authority.grantRevision ↔
      (read.authority.grants.find revision).isSome = true := by
    constructor
    · intro hle
      rw [← hsince.same revision hle, hfind]
      rfl
    · intro hsome
      obtain ⟨row, hrow⟩ := Option.isSome_iff_exists.mp hsome
      exact hread revision row hrow
  rw [Bool.eq_iff_iff]
  unfold HostRevocation.rows Revocation.selects owed
  cases hnode : grant.hostStableNodeID with
  | none =>
    simp only [hnode, Bool.and_eq_true, decide_eq_true_eq, and_true, hkey, hrevision, hle]
    exact and_comm
  | some nodeID =>
    obtain ⟨hown, hstable, hboot⟩ := h.recorded hfind hnode
    have hsame : nodeID = r.host.nodeID → grant.scope.hostNodeID = r.host.identityNodeID :=
      fun hid => h.same _ hown.2 _ hhost (hstable.trans hid)
    simp only [hnode, hboot, Bool.and_eq_true, decide_eq_true_eq, Option.any_some, hkey,
      hrevision, hle, ne_eq, Option.some.injEq]
    exact ⟨fun hsel => ⟨hsel.1.2, hsel.2⟩, fun how => ⟨⟨hsame how.2.1, how.1⟩, how.2⟩⟩

/-- A grant that a proved call is for is not of the boot that is current. -/
theorem Inv.spares (h : Inv s) (hr : r ∈ s.revocations) (hproved : r.proved = true)
    (hread : Counted read.authority) (hrevision : r.grantRevision = read.authority.grantRevision)
    (hfind : s.authority.grants.find revision = some grant)
    (howed : owed r.host read grant = true)
    (hnode : grant.hostStableNodeID = some nodeID) :
    nodeID = r.host.nodeID ∧ ∀ reg, s.current r.host.nodeID = some reg →
      grant.hostBootSessionID ≠ some reg.bootSessionID := by
  unfold owed at howed
  rw [hnode, Bool.and_eq_true, Bool.and_eq_true, decide_eq_true_eq, decide_eq_true_eq] at howed
  obtain ⟨hsome, hid, hboot⟩ := howed
  obtain ⟨hown, hstable, hcol⟩ := h.recorded hfind hnode
  refine ⟨hid, fun reg hcur hsame => hboot ?_⟩
  rw [hcol] at hsame ⊢
  obtain ⟨row, hrow⟩ := Option.isSome_iff_exists.mp hsome
  have hle := hread _ row hrow
  rw [show grant.grantRevision = revision from Table.key_of_find hfind, ← hrevision] at hle
  have hself : reg = hostOf grant.scope :=
    h.eq_hostOf hown (hstable.trans hid) hcur (Option.some.inj hsame).symm
  have hhost := (h.fenced r hr).spares hproved hfind hle hown (hself ▸ hcur)
  exact congrArg (fun host : Registration => some host.bootSessionID) hhost

end

theorem reached_cons (legacy : Legacy) (before after : List Event) (e : Event) :
    reached legacy (before ++ e :: after) = exec step (step (reached legacy before) e) after :=
  exec_append _ _ _ _

/-- **A startup revocation spares current grants.** A call reads the revision, has its boot proved
while that is the current one, and commits; anything may happen in between. The grants the commit
revokes are the unrevoked ones of those that were there when the call read and that another boot of
its Node minted, or that do not record who minted them. None of them is of another Node, or of the
boot that is current when the call commits. -/
theorem host_revocation_spares_current (legacy : Legacy) (before between after : List Event)
    (host : Registration) (reason : String) (now : Int)
    (hvalid : [host.identityNodeID, host.nodeID, host.bootSessionID, reason].all wellFormed = true)
    (hcurrent : (reached legacy (before ++ .read host reason :: between)).current host.nodeID =
      some host) :
    let read := reached legacy before
    let call := read.revocations.length
    let s := reached legacy (before ++ .read host reason :: between ++ .prove call :: after)
    let s' := step s (.commit call now)
    (∀ revision, s'.authority.grants.find revision =
      (s.authority.grants.find revision).map (revokedRow (owed host read) now reason)) ∧
    ∀ revision grant, s.authority.grants.find revision = some grant →
      s'.authority.grants.find revision ≠ some grant →
      grant.hostStableNodeID = none ∨ grant.hostStableNodeID = some host.nodeID ∧
        ∀ reg, s.current host.nodeID = some reg →
          grant.hostBootSessionID ≠ some reg.bootSessionID := by
  intro read call s s'
  have hread : Inv read := inv_exec (inv_start legacy)
  let r : HostRevocation := ⟨host, reason, read.authority.grantRevision, false⟩
  have hfirst : step read (.read host reason) =
      { read with revocations := read.revocations ++ [r] } := by
    unfold step
    exact if_pos hvalid
  -- between the reading and the proof
  have hbetween : Inv (reached legacy (before ++ .read host reason :: between)) ∧
      Since read.authority (reached legacy (before ++ .read host reason :: between)) ∧
      Waits call r (reached legacy (before ++ .read host reason :: between)) := by
    have hinv := inv_step hread (.read host reason)
    rw [reached_cons]
    refine ⟨inv_exec hinv, since_exec hinv ?_, waits_exec ?_⟩
    · rw [show reached legacy before = read from rfl, hfirst]
      exact ⟨Nat.le_refl _, fun _ _ => rfl⟩
    · rw [show reached legacy before = read from rfl, hfirst]
      exact ⟨false, List.getElem?_concat_length, nofun⟩
  have hsplit : s = exec step (step (reached legacy (before ++ .read host reason :: between))
      (.prove call)) after := reached_cons legacy _ after (.prove call)
  generalize reached legacy (before ++ .read host reason :: between) = mid
    at hcurrent hbetween hsplit
  obtain ⟨hmid, hsince, proved, hwaits, -⟩ := hbetween
  have hprove : Waits call { r with proved := true } (step mid (.prove call)) := by
    refine ⟨true, ?_, fun _ => rfl⟩
    unfold step
    dsimp only
    rw [hwaits]
    dsimp only
    rw [if_pos hcurrent]
    exact List.getElem?_set_self (List.getElem?_eq_some_iff.mp hwaits).1
  have hinv : Inv s := hsplit ▸ inv_exec (inv_step hmid _)
  have hafter : Since read.authority s :=
    hsplit ▸ since_exec (inv_step hmid _) (since_step hmid hsince _)
  obtain ⟨proved', hcall, hkept⟩ : Waits call { r with proved := true } s :=
    hsplit ▸ waits_exec hprove
  obtain rfl := hkept rfl
  have hmem := List.mem_of_getElem? hcall
  have hregistered := (hinv.fenced _ hmem).registered rfl
  -- the commit
  have hcommit : s'.authority =
      s.authority.revokeComputerGrantRows
        (HostRevocation.rows { r with proved := true }).selects now
        reason := by
    show (step s (.commit call now)).authority = _
    unfold step
    dsimp only
    rw [hcall]
    rfl
  have hrows : ∀ revision, s'.authority.grants.find revision =
      (s.authority.grants.find revision).map (revokedRow (owed host read) now reason) := by
    intro revision
    rw [hcommit, find_revoke]
    cases hfind : s.authority.grants.find revision with
    | none => rfl
    | some grant =>
      have hsel := selects_eq (r := { r with proved := true }) hinv hafter hread.counted rfl
        hregistered hfind
      rw [Option.map_some, Option.map_some, revokedRow, revokedRow, hsel]
  refine ⟨hrows, fun revision grant hfind hchanged => ?_⟩
  have howed : owed host read grant = true := by
    by_contra hleft
    refine hchanged ?_
    rw [hrows, hfind, Option.map_some, revokedRow, if_neg (by simp [hleft])]
  cases hnode : grant.hostStableNodeID with
  | none => exact .inl rfl
  | some nodeID =>
    obtain ⟨hid, hboot⟩ := hinv.spares (r := { r with proved := true }) hmem rfl hread.counted rfl
      hfind howed hnode
    exact .inr ⟨congrArg some hid, hboot⟩

def bootScope (computerID boot : String) : ComputerTokenScopeProof :=
  ⟨computerID, "attempt", 1, 1, "identity", "node", boot, 4⟩

/-- A grant from before the columns of the host. -/
def legacyGrant : Grant := ⟨1, bootScope "b" "", none, none, 1, "wcomputer_00", 0, none, ""⟩

def upgraded : Legacy where
  authority := ⟨1, 1, "l3", Table.empty.insert legacyGrant⟩
  counted revision row h := by
    have hkey : legacyGrant.grantRevision = revision := by
      by_contra hne
      rw [Table.find_insert _ _ (by rfl), if_neg hne] at h
      cases h
    exact Nat.le_of_eq hkey.symm
  unrecorded {revision grant} h := by
    rw [Table.find_insert _ _ (by rfl)] at h
    split at h
    · cases h
      rfl
    · cases h

/-- The Node starts twice and mints a grant in each boot; the second boot revokes. -/
def restarted : List Event :=
  [.register ⟨"node", "identity", "first"⟩, .mint (bootScope "c" "first"),
    .resume 0 ⟨Table.empty, []⟩ ⟨1, "01", true⟩, .register ⟨"node", "identity", "second"⟩,
    .mint (bootScope "d" "second"), .resume 0 ⟨Table.empty, []⟩ ⟨2, "02", true⟩]

/-- The revocation of the second boot ends the grant of the first and the one from before, and
leaves its own. -/
theorem host_revocation_spares_current_restart :
    let s' := step (reached upgraded (restarted ++ .read ⟨"node", "identity", "second"⟩ "startup" ::
      [] ++ .prove 0 :: [])) (.commit 0 9)
    (s'.authority.grants.find 1).map Grant.revokedNS = some (some 9) ∧
    (s'.authority.grants.find 2).map Grant.revokedNS = some (some 9) ∧
    (s'.authority.grants.find 3).map Grant.revokedNS = some none := by
  have hrows := (host_revocation_spares_current upgraded restarted [] []
    ⟨"node", "identity", "second"⟩ "startup" 9 (by decide +kernel) (by decide +kernel)).1
  refine ⟨(congrArg (Option.map Grant.revokedNS) (hrows 1)).trans (by decide +kernel),
    (congrArg (Option.map Grant.revokedNS) (hrows 2)).trans (by decide +kernel),
    (congrArg (Option.map Grant.revokedNS) (hrows 3)).trans (by decide +kernel)⟩

end Wefty.HostRevocations
