/-
The in-flight cap of a Computer: `countComputerInflight` and the two creations of runs that it
bounds (`l3/computer_tokens.go`, `l3/store.go`).

A Computer submits root runs only, each with the number of root lineages it may have in flight.
`CreateRun` counts, in the transaction that inserts the run, the roots of the Computer with a
member that has not ended: a recursive query over the parent links. Children, reruns,
projections, cancellations and dispatch failures are not counted, so the cap holds only because
none of them brings a lineage back in flight: a run that ended stays ended, a child is created
under a parent that has not ended, and a rerun is a root of its own that no Computer is charged
for.
-/
import Wefty.LedgerStore
import Wefty.ComputerTokens
import Wefty.RecursiveQuery
import Wefty.Transactions
import Mathlib.Data.List.Dedup

set_option autoImplicit false

namespace Wefty.Inflight

open Tables RunJobLink Dispatch
open Wefty.RunIntent (Program)
open Wefty.Substrings (trimSpace)
open ComputerTokens RecursiveQuery Transactions

/-! ## 1. Rows and requests -/

inductive TriggerSource
  | manual
  | chain
  | computer
  | rerun
  deriving DecidableEq

structure Trigger where
  runID : String
  actor : String
  source : TriggerSource
  sourceRunID : Option String
  computerID : Option String
  computerAttemptID : Option String
  computerStorageGeneration : Option Int
  submitIntentRevision : Option Int

inductive ErrorCode
  | invalidRequest
  | unauthorized
  | forbidden
  | notFound
  | conflict
  | idempotencyConflict
  | submitInflightLimit
  | noResolvedImageSnapshot
  | internal

/-- `Error`; the details of a refused submission repeat what its message says. -/
structure Refusal where
  code : ErrorCode
  message : String
  retryable : Bool := false

/-- `%q`, for a text without escapes. -/
def quoted (text : String) : String := "\"" ++ text ++ "\""

structure ComputerTokenScope where
  computerID : String
  computerAttemptID : String
  computerStorageGeneration : Int
  submitIntentRevision : Int
  hostNodeID : String
  l3AuthorityGeneration : Int
  grantRevision : Int
  submitMaxInflight : Int

/-- The request with its actor and key, the scope of a Computer's token, the answer L1 gives to the
live verification of that scope (where the caller supplies one), and the answer of the workflow and
image checks. -/
structure CreateRunInput where
  request : CreateRun
  computerScope : Option ComputerTokenScope
  verifyComputerScope : Option (Except Refusal Unit)
  programs : Except Refusal Unit
  now : Int

/-- The answers are those of the checks on exec captures, and of the image resolution stored for the
source run. -/
structure CreateRerunInput where
  runID : String
  actor : String
  idempotencyKey : String
  requestHash : String
  sourceRunID : String
  captures : Except Refusal Unit
  resolution : Option String
  now : Int

/-- The ledger, the provenance of its runs, and the grants of the Computers. -/
structure System where
  store : LedgerStore.Store
  triggers : Table Trigger.runID
  tokens : ComputerTokens.System

variable (system : System)

/-! ## 2. The count -/

namespace System

def runs : Table Run.runID := system.store.ledger.runs

def rootOf (computerID : String) (run : Run) : Bool :=
  run.intent.parentRunID = "" && (system.triggers.find run.runID).any fun trigger =>
    trigger.source = .computer && trigger.computerID = some computerID

/-- The first part of `computer_lineages`. -/
def lineageRoots (computerID : String) : List (String × String) :=
  (system.runs.rows.filter (system.rootOf computerID)).map fun run => (run.runID, run.runID)

/-- The second part: the children of a member, under the same root. -/
def lineageChildren (member : String × String) : List (String × String) :=
  (system.runs.rows.filter (Ledger.childOf member.2)).map fun child => (member.1, child.runID)

/-- `computer_lineages(root_id, run_id)`. A lineage has no more generations than the ledger has
runs. -/
def computerLineages (computerID : String) : List (String × String) :=
  unionAll system.lineageChildren system.runs.rows.length (system.lineageRoots computerID)

def notEnded (runID : String) : Bool :=
  (system.runs.find runID).any fun run => !run.status.terminal

/-- `COUNT(DISTINCT root_id)` over the members that have not ended. -/
def inflight (computerID : String) : Nat :=
  (((system.computerLineages computerID).filter fun member => system.notEnded member.2).map
    Prod.fst).dedup.length

def countComputerInflight (computerID : String) : Except Refusal Nat :=
  if trimSpace computerID = "" then
    .error { code := .invalidRequest, message := "computer_id is required" }
  else .ok (system.inflight (trimSpace computerID))

/-! ## 3. The creations -/

def validateComputerGrantTx (scope : ComputerTokenScope) : Except Refusal Unit :=
  if system.tokens.authority.grants.any fun grant =>
      grant.scope.computerID = scope.computerID &&
      grant.scope.computerAttemptID = scope.computerAttemptID &&
      grant.scope.computerStorageGeneration = scope.computerStorageGeneration &&
      grant.scope.submitIntentRevision = scope.submitIntentRevision &&
      grant.scope.hostNodeID = scope.hostNodeID &&
      (grant.l3AuthorityGeneration : Int) = scope.l3AuthorityGeneration &&
      (grant.grantRevision : Int) = scope.grantRevision &&
      grant.scope.submitMaxInflight = scope.submitMaxInflight && grant.revokedNS.isNone &&
      grant.l3AuthorityGeneration = system.tokens.authority.authorityGeneration then .ok ()
  else .error { code := .unauthorized, message := "Computer token grant is no longer current" }

end System

/-- The part of `normalizeCreateRun` that is about a Computer's token. -/
def normalizeComputerScope (input : CreateRunInput) : Except Refusal Unit :=
  match input.computerScope with
  | none => .ok ()
  | some scope =>
    if scope.computerID = "" ∨ scope.computerAttemptID = "" ∨ scope.hostNodeID = "" ∨
        scope.computerStorageGeneration < 1 ∨ scope.submitIntentRevision < 1 ∨
        scope.l3AuthorityGeneration < 1 ∨ scope.grantRevision < 1 ∨ scope.submitMaxInflight < 1 then
      .error { code := .unauthorized, message := "Computer token scope is incomplete" }
    else if input.request.actor ≠ "computer:" ++ scope.computerID then
      .error
        { code := .forbidden
          message := "Computer run principal is derived from its token scope" }
    else if input.request.parentRunID ≠ "" then
      .error { code := .forbidden, message := "Computer tokens may submit only root Runs" }
    else .ok ()

/-- The provenance `CreateRun` records. -/
def CreateRunInput.trigger (input : CreateRunInput) : Trigger :=
  match input.computerScope with
  | some scope =>
    { runID := input.request.runID
      actor := input.request.actor
      source := .computer
      sourceRunID := none
      computerID := some scope.computerID
      computerAttemptID := some scope.computerAttemptID
      computerStorageGeneration := some scope.computerStorageGeneration
      submitIntentRevision := some scope.submitIntentRevision }
  | none =>
    if input.request.parentRunID ≠ "" then
      ⟨input.request.runID, input.request.actor, .chain, some input.request.parentRunID, none, none,
        none, none⟩
    else ⟨input.request.runID, input.request.actor, .manual, none, none, none, none, none⟩

def stableNodeTagPrefix : String := "wefty:node:"

/-- The program a rerun runs: the source's, an image pinned to what the source resolved it to.
A script needs the one Node its handoff files are on. -/
def rerunProgram (source : Run) (resolution : Option String) : Except Refusal Program :=
  match source.intent.program with
  | .script content sha256 interpreter mode =>
    if source.intent.tags.countP (fun tag =>
        tag.startsWith stableNodeTagPrefix &&
          stableNodeTagPrefix.utf8ByteSize < tag.utf8ByteSize) ≠ 1 then
      .error
        { code := .invalidRequest
          message := "cold rerun consuming node-local handoff files requires exactly one " ++
            "reserved stable-node tag " ++ quoted (stableNodeTagPrefix ++ "<stable-node-id>") }
    else .ok (.script content sha256 interpreter mode)
  | .image program =>
    match program.digest, resolution with
    | some _, _ => .ok (.image program)
    | none, some digest => .ok (.image { program with digest := some digest })
    | none, none =>
      .error
        { code := .noResolvedImageSnapshot
          message := "run " ++ quoted source.runID ++ " has no resolved image snapshot" }

/-- What a rerun inserts: the source's inputs, and no parent. -/
def CreateRerunInput.request (input : CreateRerunInput) (source : Run) (program : Program) :
    CreateRun where
  runID := input.runID
  actor := input.actor
  idempotencyKey := input.idempotencyKey
  requestHash := input.requestHash
  parentRunID := ""
  rerunOf := some input.sourceRunID
  program := program
  tags := source.intent.tags
  params := source.intent.params
  maxRuntimeSeconds := source.intent.maxRuntimeSeconds
  dispatchAuthority := source.intent.dispatchAuthority
  restartable := source.intent.restartable
  requiredEnvelope := source.requiredEnvelope

/-- The provenance `CreateRerun` records. -/
def CreateRerunInput.trigger (input : CreateRerunInput) : Trigger :=
  ⟨input.runID, input.actor, .rerun, some input.sourceRunID, none, none, none, none⟩

namespace System

def existing (actor idempotencyKey : String) : Option Run :=
  system.runs.rows.find? fun run => run.actor = actor && run.idempotencyKey = idempotencyKey

def keyReused (idempotencyKey : String) : Refusal where
  code := .idempotencyConflict
  message := "idempotency key " ++ quoted idempotencyKey ++
    " was already used by this actor with a different request"

/-- The checks on a Computer's submission that come first: the grant is current and the Computer
is below its cap. -/
def admitComputer (input : CreateRunInput) : Except Refusal Unit :=
  match input.computerScope with
  | none => .ok ()
  | some scope =>
    if input.verifyComputerScope.isNone then
      .error
        { code := .unauthorized
          message := "Computer Run creation requires live scope verification" }
    else do
      system.validateComputerGrantTx scope
      let inflight ← system.countComputerInflight scope.computerID
      if scope.submitMaxInflight ≤ inflight then
        .error
          { code := .submitInflightLimit
            message := "Computer " ++ quoted scope.computerID ++ " has " ++ toString inflight ++
              " nonterminal root Lineages (limit " ++ toString scope.submitMaxInflight ++ ")"
            retryable := true }
      else .ok ()

def admitParent (parentRunID : String) : Except Refusal Unit :=
  if parentRunID = "" then .ok ()
  else match system.runs.find parentRunID with
  | none =>
    .error { code := .notFound, message := "parent run " ++ quoted parentRunID ++ " was not found" }
  | some parent =>
    if parent.status.terminal then
      .error
        { code := .conflict
          message := "parent run " ++ quoted parentRunID ++
            " is terminal and cannot dispatch children" }
    else .ok ()

/-- The last checks before a Computer's run is written: L1 verifies the scope, and the grant is
still current. -/
def confirmComputer (input : CreateRunInput) : Except Refusal Unit :=
  match input.computerScope with
  | none => .ok ()
  | some scope => do
    input.verifyComputerScope.getD (.ok ())
    system.validateComputerGrantTx scope

def insertRun (request : CreateRun) (trigger : Trigger) (now : Int) : System :=
  { system with
    store := system.store.step (.createRun request now)
    triggers := system.triggers.insert trigger }

/-- **`CreateRun`.** A key its actor used for the same request is answered from the stored run. -/
def createRun (input : CreateRunInput) : Tx System Refusal System := do
  check (normalizeComputerScope input)
  let existing := system.existing input.request.actor input.request.idempotencyKey
  refuseIf (existing.any fun run => run.requestHash ≠ input.request.requestHash)
    (keyReused input.request.idempotencyKey)
  answerIf existing.isSome
  check (system.admitComputer input)
  check (system.admitParent input.request.parentRunID)
  check input.programs
  check (system.confirmComputer input)
  refuseIf (system.runs.find input.request.runID).isSome
    { code := .internal, message := "store run" }
  return system.insertRun { input.request with rerunOf := none } input.trigger input.now

def createRerun (input : CreateRerunInput) : Tx System Refusal System := do
  check input.captures
  let existing := system.existing input.actor input.idempotencyKey
  refuseIf (existing.any fun run => run.requestHash ≠ input.requestHash)
    (keyReused input.idempotencyKey)
  answerIf existing.isSome
  let source ← orRefuse (system.runs.find input.sourceRunID)
    { code := .notFound, message := "run " ++ quoted input.sourceRunID ++ " was not found" }
  let program ← check (rerunProgram source input.resolution)
  refuseIf (system.runs.find input.runID).isSome { code := .internal, message := "store rerun" }
  return system.insertRun (input.request source program) input.trigger input.now

end System

inductive Op
  | createRun (input : CreateRunInput)
  | createRerun (input : CreateRerunInput)
  /-- Any other operation of the ledger: dispatch and its failures, cancellation, projection. -/
  | ledger (op : LedgerStore.Op)
  | tokens (event : ComputerTokens.Event)

/-- The operation of `Wefty.LedgerStore` that stands for the two creations. -/
def creates : LedgerStore.Op → Bool
  | .createRun .. => true
  | _ => false

namespace System

def step : Op → System
  | .createRun input => (committed (system.createRun input)).getD system
  | .createRerun input => (committed (system.createRerun input)).getD system
  | .ledger op =>
    if creates op then system else { system with store := system.store.step op }
  | .tokens event => { system with tokens := system.tokens.step event }

def start : System := ⟨LedgerStore.Store.start, Table.empty, ComputerTokens.System.start⟩

def reached (ops : List Op) : System := Runs.exec step start ops

end System

end Wefty.Inflight
