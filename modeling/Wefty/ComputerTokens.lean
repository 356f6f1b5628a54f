/-
Computer tokens: how L3 mints them while attempts of the Computer come and go
(`l3/computer_tokens.go`, and the mint route of `l3/server.go`).

L3 cannot order the attempts of a Computer itself. A mint is therefore cut in three: one
transaction revokes the attempt's own earlier grants and inserts the new one, then L1 is
asked again whether the attempt's scope is current, and a second transaction settles, either
by revoking every grant of the Computer with a lower revision (the re-proof passed) or by
revoking the new grant alone (it did not). Any number of mints may stand between any of
these steps.

What L1 is trusted for: at any moment it proves the scope of at most one attempt of a
Computer, and an attempt it stopped proving it does not prove again once it has proved another.
The first holds by the type of L1's state here, the second is the guard `Admits`.
-/
import Wefty.Tables
import Wefty.Runs
import Wefty.Substrings

set_option autoImplicit false

namespace Wefty.ComputerTokens

open Tables Runs

/-! ## 1. Rows and transactions -/

structure ComputerTokenScopeProof where
  computerID : String
  computerAttemptID : String
  computerStorageGeneration : Int
  submitIntentRevision : Int
  hostNodeID : String
  hostStableNodeID : String
  hostBootSessionID : String
  submitMaxInflight : Int
  deriving DecidableEq

/-- A row of `computer_token_grants`; the stored digest determines the token and is kept as it. The
two columns of the host came later: a grant from before them has NULL there, and what its scope says
of the boot is not stored. -/
structure Grant where
  grantRevision : Nat
  scope : ComputerTokenScopeProof
  hostStableNodeID : Option String
  hostBootSessionID : Option String
  l3AuthorityGeneration : Nat
  token : String
  issuedNS : Int
  revokedNS : Option Int
  revocationReason : String
  deriving DecidableEq

/-- The row of `computer_authority`, with the grants. -/
structure Authority where
  authorityGeneration : Nat
  grantRevision : Nat
  instanceID : String
  grants : Table Grant.grantRevision

variable (authority : Authority)

/-- A text that is neither empty, nor padded, nor longer than 255 bytes. -/
def wellFormed (text : String) : Bool :=
  text ≠ "" && text = Substrings.trimSpace text && text.utf8ByteSize ≤ 255

def validComputerScopeProof (proof : ComputerTokenScopeProof) : Bool :=
  wellFormed proof.computerID && wellFormed proof.computerAttemptID &&
    wellFormed proof.hostNodeID && wellFormed proof.hostStableNodeID &&
    wellFormed proof.hostBootSessionID && decide (1 ≤ proof.computerStorageGeneration) &&
    decide (1 ≤ proof.submitIntentRevision) && decide (1 ≤ proof.submitMaxInflight)

/-- `sameComputerGrantScope`; the inflight limit is not part of the scope. -/
def sameComputerGrantScope (current minted : ComputerTokenScopeProof) : Bool :=
  current.computerID = minted.computerID && current.computerAttemptID = minted.computerAttemptID &&
    current.computerStorageGeneration = minted.computerStorageGeneration &&
    current.submitIntentRevision = minted.submitIntentRevision &&
    current.hostNodeID = minted.hostNodeID && current.hostStableNodeID = minted.hostStableNodeID &&
    current.hostBootSessionID = minted.hostBootSessionID

namespace Authority

def revokeComputerGrantRows (predicate : Grant → Bool) (now : Int) (reason : String) : Authority :=
  { authority with
    grants := authority.grants.updateWhere (fun grant => grant.revokedNS.isNone && predicate grant)
      fun grant =>
        { grant with
          revokedNS := some now
          revocationReason := reason } }

def ofAttempt (computerID attemptID : String) (grant : Grant) : Bool :=
  grant.scope.computerID = computerID && grant.scope.computerAttemptID = attemptID

def nextGrant (proof : ComputerTokenScopeProof) (token : String) (now : Int) : Grant :=
  ⟨authority.grantRevision + 1, proof, some proof.hostStableNodeID, some proof.hostBootSessionID,
    authority.authorityGeneration, token, now, none, ""⟩

def insertComputerGrant (proof : ComputerTokenScopeProof) (token : String)
    (now : Int) : Authority :=
  let revoked := authority.revokeComputerGrantRows
    (ofAttempt proof.computerID proof.computerAttemptID) now "regranted"
  { revoked with
    grantRevision := authority.grantRevision + 1
    grants := revoked.grants.insert (authority.nextGrant proof token now) }

def settlePassed (grant : Grant) (now : Int) : Authority :=
  authority.revokeComputerGrantRows
    (fun other => other.scope.computerID = grant.scope.computerID &&
      decide (other.grantRevision < grant.grantRevision)) now "regranted"

def settleFailed (grant : Grant) (now : Int) : Authority :=
  authority.revokeComputerGrantRows
    (fun other => other.scope.computerID = grant.scope.computerID &&
      decide (other.grantRevision = grant.grantRevision)) now "mint_scope_not_current"

def adoptComputerAuthorityInstance (instanceID : String) (now : Int) :
    Authority :=
  if authority.instanceID = instanceID ∧ 0 < authority.authorityGeneration then authority
  else
    { authority.revokeComputerGrantRows (fun _ => true) now "l3_authority_advanced" with
      authorityGeneration := authority.authorityGeneration + 1
      instanceID := instanceID }

end Authority

/-- What a revocation other than a mint's selects: `RevokeComputerTokens` in its three forms,
`RevokeComputerTokenScope`, `RevokeComputerAttemptTokens` and `RevokeHostComputerTokens` with
the grant revision it read first. -/
inductive Revocation
  | submission (computerID : String) (submitIntentRevision : Int)
  | computer (computerID : String)
  | attempt (computerID attemptID : String)
  | scope (grantRevision : Nat)
  | attemptOnHost (computerID attemptID hostNodeID : String)
  | host (hostNodeID stableNodeID bootSessionID : String) (grantRevision : Nat)

def Revocation.selects : Revocation → Grant → Bool
  | .submission computerID revision, grant =>
    grant.scope.computerID = computerID && decide (grant.scope.submitIntentRevision < revision)
  | .computer computerID, grant => grant.scope.computerID = computerID
  | .attempt computerID attemptID, grant => Authority.ofAttempt computerID attemptID grant
  | .scope revision, grant => grant.grantRevision = revision
  | .attemptOnHost computerID attemptID hostNodeID, grant =>
    Authority.ofAttempt computerID attemptID grant && grant.scope.hostNodeID = hostNodeID
  | .host hostNodeID stableNodeID bootSessionID revision, grant =>
    grant.scope.hostNodeID = hostNodeID && decide (grant.grantRevision ≤ revision) &&
      -- a comparison with NULL selects nothing
      match grant.hostStableNodeID with
      | none => true
      | some recorded => recorded = stableNodeID &&
        grant.hostBootSessionID.any fun boot => boot ≠ bootSessionID

/-! ## 2. L1 and the mints in flight -/

/-- What L1 proves now, and the attempts it ever began to prove, in that order. -/
structure L1 where
  current : Table ComputerTokenScopeProof.computerID
  began : List (String × String)

/-- The scope is proved to the attempt's own host. -/
def L1.proveComputerTokenScope (l1 : L1) (computerID attemptID hostNodeID : String) :
    Option ComputerTokenScopeProof :=
  (l1.current.find computerID).filter fun proof =>
    proof.computerAttemptID = attemptID && proof.hostNodeID = hostNodeID

/-- No attempt of the Computer began after this one. -/
def L1.Latest (l1 : L1) (computerID attemptID : String) : Prop :=
  (computerID, attemptID) ∈ l1.began ∧ ∀ key ∈ l1.began, key.1 = computerID →
    l1.began.idxOf key ≤ l1.began.idxOf (computerID, attemptID)

instance (l1 : L1) (computerID attemptID : String) : Decidable (l1.Latest computerID attemptID) :=
  inferInstanceAs (Decidable (_ ∧ _))

/-- Of two attempts of the Computer that began, the first began before the second. -/
def L1.Earlier (l1 : L1) (computerID first second : String) : Prop :=
  (computerID, second) ∈ l1.began ∧
    l1.began.idxOf (computerID, first) < l1.began.idxOf (computerID, second)

instance (l1 : L1) (computerID first second : String) :
    Decidable (l1.Earlier computerID first second) :=
  inferInstanceAs (Decidable (_ ∧ _))

inductive Phase
  /-- L1 proved the scope; the insert transaction is next. -/
  | proved
  /-- The grant committed; the re-proof is next. -/
  | inserted (grant : Grant)
  /-- The re-proof passed; the settlement is next. -/
  | reproved (grant : Grant)
  /-- The re-proof did not pass; the settlement is next. -/
  | notCurrent (grant : Grant)
  /-- The bearer was returned. -/
  | returned (grant : Grant)
  /-- No bearer is ever returned. -/
  | failed
  deriving DecidableEq

/-- A call of the mint route, with the proof it started from. -/
structure Mint where
  proof : ComputerTokenScopeProof
  phase : Phase
  deriving DecidableEq

structure System where
  authority : Authority
  l1 : L1
  mints : List Mint

/-- What a step of a mint is given: the clock, fresh random text, and whether L1's answer
arrives. -/
structure Input where
  now : Int
  random : String
  delivered : Bool

def newComputerToken (random : String) : String := "wcomputer_" ++ random

/-- **The next step of `MintReprovedComputerToken`.** -/
def Mint.next (mint : Mint) (authority : Authority) (l1 : L1) (input : Input) : Mint × Authority :=
  match mint.phase with
  | .proved =>
    let token := newComputerToken input.random
    ({ mint with phase := .inserted (authority.nextGrant mint.proof token input.now) },
      authority.insertComputerGrant mint.proof token input.now)
  | .inserted grant =>
    let answer := l1.proveComputerTokenScope mint.proof.computerID mint.proof.computerAttemptID
      mint.proof.hostNodeID
    if input.delivered && answer.any (fun current => sameComputerGrantScope current mint.proof) then
      ({ mint with phase := .reproved grant }, authority)
    else ({ mint with phase := .notCurrent grant }, authority)
  | .reproved grant =>
    ({ mint with phase := .returned grant }, authority.settlePassed grant input.now)
  | .notCurrent grant =>
    ({ mint with phase := .failed }, authority.settleFailed grant input.now)
  | .returned _ | .failed => (mint, authority)

inductive Event
  /-- L1 proves this scope from now on. -/
  | proves (proof : ComputerTokenScopeProof)
  /-- L1 proves no scope of the Computer from now on. -/
  | ends (computerID : String)
  /-- The mint route is called: L1 is asked, and a valid answer starts a mint. -/
  | mint (computerID attemptID hostNodeID : String)
  /-- The `index`-th mint takes its next step. -/
  | resume (index : Nat) (input : Input)
  /-- The `index`-th mint ends without another step. -/
  | abandon (index : Nat)
  | revoke (revocation : Revocation) (now : Int) (reason : String)
  | adopt (instanceID : String) (now : Int)

namespace System

def start : System := ⟨⟨0, 0, "", Table.empty⟩, ⟨Table.empty, []⟩, []⟩

/-- The mints other than the `index`-th one stay where they are. -/
def resume (system : System) (index : Nat) (input : Input) : System :=
  match system.mints[index]? with
  | none => system
  | some mint =>
    { system with
      authority := (mint.next system.authority system.l1 input).2
      mints := system.mints.set index (mint.next system.authority system.l1 input).1 }

def step (system : System) : Event → System
  | .proves proof =>
    { system with
      l1 :=
        { current := system.l1.current.put proof
          began :=
            if (proof.computerID, proof.computerAttemptID) ∈ system.l1.began then system.l1.began
            else system.l1.began ++ [(proof.computerID, proof.computerAttemptID)] } }
  | .ends computerID =>
    { system with l1 := { system.l1 with current := system.l1.current.delete computerID } }
  | .mint computerID attemptID hostNodeID =>
    match system.l1.proveComputerTokenScope computerID attemptID hostNodeID with
    | none => system
    | some proof =>
      if validComputerScopeProof proof then
        { system with mints := system.mints ++ [⟨proof, .proved⟩] }
      else system
  | .resume index input => system.resume index input
  | .abandon index =>
    match system.mints[index]? with
    | none => system
    | some mint =>
      match mint.phase with
      | .returned _ => system
      | _ => { system with mints := system.mints.set index { mint with phase := .failed } }
  | .revoke revocation now reason =>
    { system with
      authority := system.authority.revokeComputerGrantRows revocation.selects now reason }
  | .adopt instanceID now =>
    { system with authority := system.authority.adoptComputerAuthorityInstance instanceID now }

/-- L1 does not prove an attempt again once it has proved another of the Computer. -/
def Admits (system : System) : Event → Prop
  | .proves proof =>
    system.l1.Latest proof.computerID proof.computerAttemptID ∨
      (proof.computerID, proof.computerAttemptID) ∉ system.l1.began
  | _ => True

instance (system : System) : (event : Event) → Decidable (system.Admits event)
  | .proves _ => inferInstanceAs (Decidable (_ ∨ _))
  | .ends _ | .mint .. | .resume .. | .abandon _ | .revoke .. | .adopt .. =>
    inferInstanceAs (Decidable True)

def reached (events : List Event) : System := exec step start events

end System

end Wefty.ComputerTokens
