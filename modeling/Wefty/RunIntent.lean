/-
What the run ledger submits to L1 for one run (`l3/store.go`, `jobSpec`; `contract/types.go`).

A dispatch intent is read from columns of `runs`, `run_scripts`, `run_images` and
`run_triggers` that no statement ever updates (triggers refuse updates of the last three).
The one input of the submitted document that is not such a column is the run token. That
is the whole point of this file: `jobSpec` is a function of the immutable intent and the
token, so two submits of one run differ only if their tokens do.
-/
import Mathlib.Data.List.Basic
import Wefty.Rows
import Wefty.Substrings

set_option autoImplicit false

namespace Wefty.RunIntent

open Rows
open Wefty.Substrings (trimSpace)

/-! ## 1. Programs -/

structure OCIMount where
  nodePath : String
  containerPath : String
  readOnly : Bool
  deriving DecidableEq

structure OCILimits where
  memoryBytes : Option Int
  cpuMillicores : Option Int
  deriving DecidableEq

structure ImageProgram where
  reference : String
  digest : Option String
  argv : List String
  workingDirectory : Option String
  mounts : List OCIMount
  limits : Option OCILimits
  runtimeHandler : String

/-- The row of `run_scripts` or of `run_images` a run is created with. -/
inductive Program
  | script (content : List UInt8) (sha256 : String) (interpreter : List String) (mode : UInt32)
  | image (program : ImageProgram)

structure DispatchIntent where
  runID : String
  dispatchKey : String
  parentRunID : String
  handoffOwnerID : String
  params : String
  dispatchAuthority : Bool
  restartable : Bool
  program : Program
  tags : List String
  maxRuntimeSeconds : Option Int

/-! ## 2. The submitted document -/

structure ExecutableSpec where
  inline : List UInt8
  sha256 : String
  interpreter : List String
  mode : UInt32
  deriving DecidableEq

structure OCIExecutionSpec where
  reference : String
  digest : Option String
  argv : List String
  workingDirectory : Option String
  mounts : List OCIMount
  limits : Option OCILimits
  deriving DecidableEq

/-- `contract.ExecutionSpec`, with the zero values of the fields the other kind fills. -/
structure ExecutionSpec where
  executable : Option ExecutableSpec
  argv : List String
  env : List (String × String)
  sensitiveEnv : List (String × String)
  workingDirectory : String
  handoffDirectory : String
  oci : Option OCIExecutionSpec
  deriving DecidableEq

/-- `contract.JobSpec`; every job the ledger submits is one-shot. -/
structure JobSpec where
  schemaVersion : Nat
  dispatchKey : String
  kind : JobKind
  restartable : Bool
  runtimeHandler : String
  routingTags : List String
  execution : ExecutionSpec
  maxRuntimeSeconds : Option Int
  labels : List (String × String)
  deriving DecidableEq

def defaultHandoffRoot : String := "/tmp/wefty/handoffs"

def defaultL3Address : String := "wefty://run-ledger"

def ociContainerHandoffDirectory : String := "/wefty/handoff"

def maxDispatchedRunParamsBytes : Nat := 64 * 1024

namespace DispatchIntent

/-- The run whose handoff directory the job uses; a rerun uses its source's. -/
def handoffOwner (intent : DispatchIntent) : String :=
  if intent.handoffOwnerID = "" then intent.runID else intent.handoffOwnerID

/-- The labels, in the order `jobSpec` sets them. -/
def labels (intent : DispatchIntent) : List (String × String) :=
  let params := trimSpace intent.params
  [("run_id", intent.runID)] ++
  [(if intent.dispatchAuthority then "dispatch_authority" else "withhold_workload_credentials",
    "true")] ++
  (if params ≠ "" ∧ params ≠ "\x7b\x7d" ∧ params.utf8ByteSize ≤ maxDispatchedRunParamsBytes then
    [("run_params_json", params)] else []) ++
  (if intent.handoffOwner ≠ intent.runID then
    [("handoff_owner_run_id", intent.handoffOwner)] else []) ++
  (if intent.parentRunID ≠ "" then [("parent_run_id", intent.parentRunID)] else [])

/-- The environment of either kind; they differ in the handoff directory they name. -/
def env (intent : DispatchIntent) (handoff : String) : List (String × String) :=
  [("WEFTY_RUN_ID", intent.runID), ("WEFTY_L3_ENDPOINT", defaultL3Address),
    ("WEFTY_HANDOFF_DIR", handoff)]

def jobSpec (intent : DispatchIntent) (runToken : String) : JobSpec :=
  let handoff := defaultHandoffRoot ++ "/" ++ intent.handoffOwner
  let limits := intent.maxRuntimeSeconds.filter fun seconds => seconds > 0
  match intent.program with
  | .image program =>
    { schemaVersion := 1
      dispatchKey := intent.dispatchKey
      kind := .oci
      restartable := false
      runtimeHandler := program.runtimeHandler
      routingTags := intent.tags
      execution :=
        { executable := none
          argv := []
          env := intent.env ociContainerHandoffDirectory
          sensitiveEnv := [("WEFTY_RUN_TOKEN", runToken)]
          workingDirectory := ""
          handoffDirectory := ""
          oci := some
            { reference := program.reference
              digest := program.digest
              argv := program.argv
              workingDirectory := program.workingDirectory
              mounts := program.mounts
              limits := program.limits } }
      maxRuntimeSeconds := limits
      labels := intent.labels }
  | .script content sha256 interpreter mode =>
    { schemaVersion := 1
      dispatchKey := intent.dispatchKey
      kind := .process
      restartable := intent.restartable
      runtimeHandler := ""
      routingTags := intent.tags
      execution :=
        { executable := some ⟨content, sha256, interpreter, mode⟩
          argv := ["wefty-inline-" ++ intent.runID]
          env := intent.env handoff
          sensitiveEnv := [("WEFTY_RUN_TOKEN", runToken)]
          workingDirectory := "/tmp"
          handoffDirectory := handoff
          oci := none }
      maxRuntimeSeconds := limits
      labels := intent.labels }

/-- Whatever the program, the submitted document carries the run's dispatch key. -/
@[simp]
theorem jobSpec_dispatchKey (intent : DispatchIntent) (runToken : String) :
    (intent.jobSpec runToken).dispatchKey = intent.dispatchKey := by
  unfold jobSpec
  cases intent.program <;> rfl

end DispatchIntent

end Wefty.RunIntent
