/-
The L1 store: its tables, its transaction door and the writes its transactions are made of
(`l1/store.go`, the schema and `beginWriteTransaction`; `l1/attempt_authority.go`).

A transaction of the store opens a write door, which may credit host sleep to every active
lease, and then reads and writes rows. It is a function from the store the door left to a
store, in the shape of [`Wefty.Transactions`]. The writes below are the SQL statements several
transactions share; each of them comes with the one equation that says what it does to a row.
-/
import Wefty.AttemptRules
import Wefty.LeaseSleep

set_option autoImplicit false

namespace Wefty.ControlStore

open Tables Rows StoreRows AttemptClock LeaseSleep Transactions AttemptAuthority

/-! ## 1. Tables -/

/-- The store. `nextID` is the next identifier `newID` gives. -/
structure Store where
  leases : LeaseRows
  jobs : Table Job.jobID
  computers : Table Computer.computerID
  copies : Table StorageCopy.key
  tombstones : Table Tombstone.jobID
  nextID : Nat

variable (s : Store)

abbrev StoreTx := Tx Store ProtocolError

namespace Store

def openStore : Store where
  leases := ⟨none, .empty, .empty⟩
  jobs := .empty
  computers := .empty
  copies := .empty
  tombstones := .empty
  nextID := 1

abbrev attempts (s : Store) : Table Attempt.attemptID := s.leases.attempts

abbrev nodes (s : Store) : Table Node.nodeID := s.leases.nodes

/-! ## 2. Reads -/

/-- `getJobByDispatchKey`. -/
def jobByDispatchKey (dispatchKey : Nat) : Option Job :=
  s.jobs.rows.find? fun job => job.spec.dispatchKey = dispatchKey

/-- `readServiceTombstoneByDispatchHash`. -/
def tombstoneByDispatchKey (dispatchKey : Nat) : Option Tombstone :=
  s.tombstones.rows.find? fun tombstone => tombstone.dispatchKey = dispatchKey

/-- An attempt with its job and its Node. Whether a retiring generation of the Node owns the attempt
is read from the tables of [`Wefty.NodeGenerations`]. -/
def readAttemptAuthority (attemptID : Nat) (retiringSessionAuthorized : Bool) :
    Option Authority := do
  let attempt ← s.attempts.find attemptID
  let job ← s.jobs.find attempt.jobID
  let node ← s.nodes.find attempt.nodeID
  return ⟨attempt, job, node, retiringSessionAuthorized⟩

/-- The Computer a job is or was projected for, with its row. -/
def computerOf (job : Job) : Option Computer :=
  job.computerForJob.bind s.computers.find

/-! ## 3. Writes -/

def setJob (job : Job) : Store := { s with jobs := s.jobs.replace job }

def setComputer (computer : Computer) : Store :=
  { s with computers := s.computers.replace computer }

/-- `UPDATE computer_storage_copy_operations ... WHERE` the key of a copy. -/
def setCopy (copy : StorageCopy) : Store := { s with copies := s.copies.replace copy }

def withAttempts (attempts : Table Attempt.attemptID) : Store :=
  { s with leases := { s.leases with attempts := attempts } }

def withNodes (nodes : Table Node.nodeID) : Store :=
  { s with leases := { s.leases with nodes := nodes } }

def setRows (rows : AttemptRows) : Store :=
  (s.setJob rows.job).withAttempts (s.attempts.replace rows.attempt)

/-- `invalidateAttempts` for the attempts `p` picks: only active ones are lost. -/
def invalidateAttempts (ctx : Ctx) (p : Attempt → Bool) : Store :=
  s.withAttempts (s.attempts.updateWhere (fun a => p a && a.state.active) (revoke ctx) (by
    intro a
    unfold revoke
    dsimp only
    split <;> rfl))

def deleteServiceRows (jobID : Nat) : Store :=
  { s.withAttempts (s.attempts.deleteWhere fun a => a.jobID = jobID) with
    jobs := s.jobs.delete jobID }

/-- The attempts `pruneListedAttemptSummaries` may delete: history of a service that is neither
its current attempt, nor active, nor lost so recently that evidence may still come. -/
def prunable (ctx : Ctx) (attempt : Attempt) : Bool :=
  (s.jobs.find attempt.jobID).any (fun job =>
    job.service.isSome && job.currentAttemptID ≠ some attempt.attemptID) &&
  !attempt.state.active &&
  !(attempt.state = .lost && ctx.now - ctx.config.lateEvidenceWindow ≤ attempt.updatedAt)

/-- `listed` are the attempts the walk came to: below the summary floor of their service and without
log events. -/
def pruneListedAttemptSummaries (ctx : Ctx) (listed : List Nat) : Store :=
  s.withAttempts (s.attempts.deleteWhere fun a => a.attemptID ∈ listed && s.prunable ctx a)

/-- `INSERT INTO jobs`, under the identifier `newID` gives. -/
def insertJob (job : Job) : Store :=
  { s with jobs := s.jobs.insert job, nextID := s.nextID + 1 }

/-- `INSERT INTO service_tombstones`. -/
def insertServiceTombstone (tombstone : Tombstone) : Store :=
  { s with tombstones := s.tombstones.insert tombstone }

/-- `UPDATE service_tombstones SET cleanup_acknowledged_ns=?, ...`. -/
def acknowledgeTombstone (jobID : Nat) (cleanupAcknowledgedNS : Option Int)
    (acknowledgement : Option (Nat × Nat)) : Store :=
  let tombstones := s.tombstones.update jobID fun tombstone =>
    { tombstone with
      cleanupAcknowledgedNS := cleanupAcknowledgedNS
      acknowledgement := acknowledgement }
  { s with tombstones := tombstones }

end Store

/-! ## 4. Transactions on one attempt -/

/-- A transaction on one attempt, with its rows read from the store and put back. -/
def onAttempt (attemptID : Nat) (retiringSessionAuthorized : Bool)
    (f : Authority → AttemptTx AttemptRows) : StoreTx Store := do
  let a ← orRefuse (s.readAttemptAuthority attemptID retiringSessionAuthorized)
    (attemptNotFound attemptID)
  let rows ← within s.setRows (f a)
  return s.setRows rows

/-! ## 5. The door -/

/-- What a caller brings to a transaction: the clock readings its door takes, the time it asks
for, and the restart jitter it draws. -/
structure Door where
  reads : ClockReads
  now : Int
  jitter : Int → Int

/-- The context behind a write door, with the store the door leaves. A door that fails ends the
transaction before its first statement. -/
def openDoor (config : Config) (door : Door) (s : Store) : Option (Ctx × Store) :=
  match writeDoor s.leases (withAttemptClock door.reads) with
  | .ok (leases, clock) => some (⟨config, door.now, clock, door.jitter⟩,
    { s with leases := leases })
  | .error _ => none

/-- A whole transaction: what it leaves if it commits, and the store as it was if it does not. -/
def runTx (config : Config) (door : Door) (tx : Ctx → Store → StoreTx Store) (s : Store) : Store :=
  match openDoor config door s with
  | some (ctx, s') => (committed (tx ctx s')).getD s
  | none => s

end Wefty.ControlStore
