/-
The revocations a Computer is owed (`l1/owed_revocations.go`), from the row its mutation writes to
the settlement of that row.

A row records the attempts whose passes have to end. Receipts for them come in any order and in any
number of calls; the row keeps the first one for each attempt, and is settled when every recorded
attempt has one, which the code sees by comparing two lengths. The receipt of a revoke-all settles a
row of that scope at once. What a row keeps is a function of the first receipts, so neither the
order of the calls nor how the receipts are split between them matters.
-/
import Wefty.Rows
import Wefty.Runs
import Mathlib.Data.List.Sort
import Mathlib.Data.String.Basic

set_option autoImplicit false

namespace Wefty.OwedRevocations

/-! ## 1. Rows and their settlement -/

/-- `contract.ComputerTokenRevocationReceipt`. A zero `CommittedAt` is `none`. -/
structure Receipt where
  restoreOperationRevision : Int
  computerID : String
  computerAttemptID : String
  submitIntentRevision : Int
  revokedGrantCount : Int
  committedAt : Option Int
  deriving DecidableEq

/-- The comparison of the sort, as `cmp a b ≤ 0`. -/
def Receipt.notAfter (a b : Receipt) : Prop := a.computerAttemptID ≤ b.computerAttemptID

instance : DecidableRel Receipt.notAfter := fun a b =>
  inferInstanceAs (Decidable (a.computerAttemptID ≤ b.computerAttemptID))

inductive Scope
  | revokeAll
  | attempt
  deriving DecidableEq

inductive Settlement
  | revoked
  | nothingToRevoke

/-- `ComputerRevocationSettlement`. -/
structure SettlementRecord where
  revokeAll : Option Receipt
  attempts : List Receipt

/-- What `closeOwedRevocation` writes. -/
structure Closing where
  settlement : Settlement
  settledNS : Int
  record : Option SettlementRecord

/-- A row of `computer_owed_revocations`: what its settlement reads and writes. -/
structure OwedRow where
  computerID : String
  scope : Scope
  recordedAttemptIDs : List String
  receipts : List Receipt
  settled : Option Closing

variable (row : OwedRow)

structure AttemptRow where
  attemptID : String
  jobID : String
  state : Rows.AttemptState

def computerAttemptsHoldingAuthority (attempts : List AttemptRow) (jobID : String) : List String :=
  ((attempts.filter fun a => a.jobID = jobID ∧ (a.state = .claimed ∨ a.state = .running)).map
    AttemptRow.attemptID).insertionSort (· ≤ ·)

/-- The row a mutation owes. An `attemptID` makes it that attempt's, and the empty one leaves it to
all that hold authority. -/
def recordOwedComputerRevocation (computerID attemptID : String) (holdingAttempts : List String) :
    OwedRow where
  computerID := computerID
  scope := if attemptID = "" then .revokeAll else .attempt
  recordedAttemptIDs := if attemptID = "" then holdingAttempts else [attemptID]
  receipts := []
  settled := none

namespace OwedRow

def close (settlement : Settlement) (record : Option SettlementRecord) (nowNS : Int) : OwedRow :=
  { row with settled := some ⟨settlement, nowNS, record⟩ }

/-- The receipt revokes an attempt the row recorded. -/
def Takes (receipt : Receipt) : Prop :=
  receipt.computerID = row.computerID ∧ receipt.restoreOperationRevision = 0 ∧
    receipt.committedAt ≠ none ∧ receipt.computerAttemptID ∈ row.recordedAttemptIDs

instance (row : OwedRow) (receipt : Receipt) : Decidable (row.Takes receipt) :=
  inferInstanceAs (Decidable (_ ∧ _))

def mergeReceipts (row : OwedRow) : List Receipt → List Receipt → Except String (List Receipt)
  | merged, [] => .ok merged
  | merged, receipt :: rest =>
    if ¬ row.Takes receipt then
      .error "the run ledger's receipt does not revoke an attempt this revocation recorded"
    else if merged.any fun have_ => have_.computerAttemptID = receipt.computerAttemptID then
      row.mergeReceipts merged rest
    else row.mergeReceipts (merged ++ [receipt]) rest

/-- A settlement that finds the row settled writes nothing. -/
def settleOwedRevocationTx (settle : Except String OwedRow) :
    Except String OwedRow :=
  if row.settled.isSome then .ok row else settle

/-- The end of a call that has merged its receipts. -/
def keepReceipts (nowNS : Int) (merged : List Receipt) : OwedRow :=
  let row := { row with receipts := merged }
  if merged.length < row.recordedAttemptIDs.length then row
  else if merged.length = 0 then row.close .nothingToRevoke none nowNS
  else row.close .revoked (some ⟨none, merged⟩) nowNS

def recordOwedComputerAttemptRevocations (nowNS : Int) (receipts : List Receipt) :
    Except String OwedRow :=
  row.settleOwedRevocationTx do
    let merged ← row.mergeReceipts row.receipts receipts
    return row.keepReceipts nowNS (merged.insertionSort Receipt.notAfter)

/-- The receipt is one of a revoke-all the row can be settled by. -/
def Ends (receipt : Receipt) : Prop :=
  row.scope = .revokeAll ∧ receipt.computerID = row.computerID ∧
    receipt.computerAttemptID = "" ∧ receipt.restoreOperationRevision = 0 ∧
    receipt.committedAt ≠ none

instance (row : OwedRow) (receipt : Receipt) : Decidable (row.Ends receipt) :=
  inferInstanceAs (Decidable (_ ∧ _))

def settleOwedComputerRevocationRevokeAll (nowNS : Int) (receipt : Receipt) :
    Except String OwedRow :=
  row.settleOwedRevocationTx <|
    if ¬ row.Ends receipt then
      .error "the run ledger's receipt does not match the owed Computer-wide revocation"
    else .ok (row.close .revoked (some ⟨some receipt, []⟩) nowNS)

end OwedRow

inductive Call
  | attempts (nowNS : Int) (receipts : List Receipt)
  | revokeAll (nowNS : Int) (receipt : Receipt)

def Call.receipts : Call → List Receipt
  | .attempts _ receipts => receipts
  | .revokeAll _ _ => []

/-- The attempt receipts given in these calls, in order. -/
def given (calls : List Call) : List Receipt := calls.flatMap Call.receipts

namespace OwedRow

/-- One call. An error rolls back. -/
def apply (call : Call) : OwedRow :=
  match (match call with
    | .attempts nowNS receipts => row.recordOwedComputerAttemptRevocations nowNS receipts
    | .revokeAll nowNS receipt => row.settleOwedComputerRevocationRevokeAll nowNS receipt) with
  | .ok row' => row'
  | .error _ => row

def after (calls : List Call) : OwedRow := Runs.exec apply row calls

/-- Every attempt receipt of the call is valid. -/
def Admits (call : Call) : Prop := ∀ receipt ∈ call.receipts, row.Takes receipt

def Covered (receipts : List Receipt) : Prop :=
  ∀ attemptID ∈ row.recordedAttemptIDs, ∃ r ∈ receipts, r.computerAttemptID = attemptID

/-- The call settles a row that is open, where `receipts` were given up to and with it. -/
def Settles (receipts : List Receipt) : Call → Prop
  | .attempts _ _ => row.Covered receipts
  | .revokeAll _ receipt => row.Ends receipt

/-- The receipts an attempt settlement holds, if the row has one. -/
def attemptSettlement : Option (List Receipt) := do
  let record ← (← row.settled).record
  if record.revokeAll = none then return record.attempts else none

end OwedRow

/-! ## 2. First receipts -/

/-- The first of the receipts for an attempt. -/
def firstOf (attemptID : String) (receipts : List Receipt) : Option Receipt :=
  receipts.find? fun r => r.computerAttemptID = attemptID

/-- The first receipt for each recorded attempt, in the order of the attempts. -/
def OwedRow.kept (received : List Receipt) : List Receipt :=
  (row.recordedAttemptIDs.insertionSort (· ≤ ·)).filterMap fun attemptID =>
    firstOf attemptID received

section
variable {row : OwedRow} {attemptID : String} {r : Receipt} {l l' received : List Receipt}

theorem mem_of_firstOf (h : firstOf attemptID l = some r) :
    r ∈ l ∧ r.computerAttemptID = attemptID :=
  ⟨List.mem_of_find?_eq_some h, by simpa using List.find?_some h⟩

theorem firstOf_append : firstOf attemptID (l ++ l') =
    (firstOf attemptID l).or (firstOf attemptID l') := List.find?_append

theorem firstOf_isSome_iff :
    (firstOf attemptID l).isSome ↔ ∃ r ∈ l, r.computerAttemptID = attemptID := by
  simp [firstOf]

theorem mem_kept_iff : r ∈ row.kept received ↔
    r.computerAttemptID ∈ row.recordedAttemptIDs ∧
      firstOf r.computerAttemptID received = some r := by
  simp only [OwedRow.kept, List.mem_filterMap, (List.perm_insertionSort _ _).mem_iff]
  constructor
  · rintro ⟨attemptID, hmem, hfst⟩
    obtain ⟨-, rfl⟩ := mem_of_firstOf hfst
    exact ⟨hmem, hfst⟩
  · rintro ⟨hmem, hfst⟩
    exact ⟨_, hmem, hfst⟩

/-- One more receipt counts if it is the first for its attempt. -/
theorem mem_kept_concat {x : Receipt} (hr : r.computerAttemptID ∈ row.recordedAttemptIDs) :
    x ∈ row.kept (received ++ [r]) ↔
      x ∈ row.kept received ∨ firstOf r.computerAttemptID received = none ∧ x = r := by
  rw [mem_kept_iff, mem_kept_iff, firstOf_append]
  by_cases hx : x = r
  · subst hx
    cases firstOf x.computerAttemptID received <;> simp [firstOf, hr]
  · cases firstOf x.computerAttemptID received <;> simp [firstOf, hx, Ne.symm hx]

theorem kept_attempts (row : OwedRow) (received : List Receipt) :
    (row.kept received).map Receipt.computerAttemptID =
      (row.recordedAttemptIDs.insertionSort (· ≤ ·)).filter fun attemptID =>
        (firstOf attemptID received).isSome := by
  rw [OwedRow.kept, List.map_filterMap, ← List.filterMap_eq_filter]
  refine List.filterMap_congr fun attemptID _ => ?_
  cases hfst : firstOf attemptID received with
  | none => simp [Option.guard, hfst]
  | some r => simp [Option.guard, hfst, (mem_of_firstOf hfst).2]

/-- **The comparison of lengths decides coverage.** -/
theorem length_kept_lt_iff :
    (row.kept received).length < row.recordedAttemptIDs.length ↔ ¬ row.Covered received := by
  rw [← List.length_map Receipt.computerAttemptID, kept_attempts,
    ← List.length_insertionSort (· ≤ ·) row.recordedAttemptIDs,
    List.length_filter_lt_length_iff_exists]
  simp [OwedRow.Covered, ← firstOf_isSome_iff, (List.perm_insertionSort _ _).mem_iff]

theorem kept_attempts_of_covered (h : row.Covered received) :
    (row.kept received).map Receipt.computerAttemptID =
      row.recordedAttemptIDs.insertionSort (· ≤ ·) := by
  rw [kept_attempts, List.filter_eq_self]
  intro attemptID hmem
  exact firstOf_isSome_iff.mpr (h attemptID ((List.perm_insertionSort _ _).mem_iff.mp hmem))

end

/-! ## 3. Merging -/

instance : Std.Total Receipt.notAfter where
  total a b := le_total a.computerAttemptID b.computerAttemptID

instance : IsTrans Receipt Receipt.notAfter where
  trans _ _ _ := le_trans

section
variable {row : OwedRow} {r : Receipt} {merged receipts received : List Receipt}
variable (hrec : row.recordedAttemptIDs.Nodup)
include hrec

theorem kept_nodup (received : List Receipt) :
    ((row.kept received).map Receipt.computerAttemptID).Nodup := by
  rw [kept_attempts]
  exact ((List.perm_insertionSort _ _).nodup_iff.mpr hrec).filter _

/-- The receipts merged are the first ones given. -/
theorem merge_kept (hvalid : ∀ r ∈ receipts, row.Takes r) (hnodup : merged.Nodup)
    (h : ∀ x, x ∈ merged ↔ x ∈ row.kept received) :
    ∃ merged', row.mergeReceipts merged receipts = .ok merged' ∧
      merged'.Perm (row.kept (received ++ receipts)) := by
  induction receipts generalizing merged received with
  | nil =>
    rw [List.append_nil]
    exact ⟨merged, rfl,
      (List.perm_ext_iff_of_nodup hnodup (kept_nodup hrec received).of_map).mpr h⟩
  | cons r rest ih =>
    have htakes := hvalid r List.mem_cons_self
    have hrest : ∀ r ∈ rest, row.Takes r := fun r hr => hvalid r (List.mem_cons_of_mem _ hr)
    unfold OwedRow.mergeReceipts
    rw [if_neg (not_not.mpr htakes), List.append_cons received]
    cases hfst : firstOf r.computerAttemptID received with
    | some x =>
      obtain ⟨-, hid⟩ := mem_of_firstOf hfst
      have hx : x ∈ merged := (h x).mpr (mem_kept_iff.mpr (by rw [hid]; exact ⟨htakes.2.2.2, hfst⟩))
      rw [if_pos (List.any_eq_true.mpr ⟨x, hx, by simpa using hid⟩)]
      refine ih hrest hnodup fun y => ?_
      rw [h, mem_kept_concat htakes.2.2.2, hfst]
      simp
    | none =>
      have hnew : ∀ x ∈ merged, x.computerAttemptID ≠ r.computerAttemptID := by
        intro x hx hid
        have hfst' := (mem_kept_iff.mp ((h x).mp hx)).2
        rw [hid, hfst] at hfst'
        cases hfst'
      rw [if_neg (by simpa using hnew)]
      refine ih hrest ?_ fun y => ?_
      · exact List.nodup_append.mpr ⟨hnodup, List.nodup_singleton r, fun x hx y hy heq =>
          hnew x hx (by rw [heq, List.mem_singleton.mp hy])⟩
      · rw [mem_kept_concat htakes.2.2.2, ← h, List.mem_append, List.mem_singleton,
          and_iff_right hfst]

theorem sort_kept (h : merged.Perm (row.kept received)) :
    merged.insertionSort Receipt.notAfter = row.kept received := by
  refine List.Perm.eq_of_pairwise (fun a b ha hb hab hba => ?_)
    (List.pairwise_insertionSort Receipt.notAfter merged) ?_
    ((List.perm_insertionSort _ _).trans h)
  · have ha := h.mem_iff.mp ((List.perm_insertionSort _ _).mem_iff.mp ha)
    exact List.inj_on_of_nodup_map (kept_nodup hrec received) ha hb (le_antisymm hab hba)
  · have hpair : ((row.kept received).map Receipt.computerAttemptID).Pairwise (· ≤ ·) := by
      rw [kept_attempts]
      exact (List.pairwise_insertionSort (· ≤ ·) _).filter _
    exact (List.pairwise_map.mp hpair :)

end

/-! ## 4. One call -/

/-- The row with what it keeps of the receipts given. -/
def OwedRow.holding (received : List Receipt) (settled : Option Closing) : OwedRow :=
  { row with receipts := row.kept received, settled := settled }

section
variable {row : OwedRow} {received : List Receipt} {call : Call}

@[simp]
theorem holding_receipts {settled : Option Closing} :
    (row.holding received settled).receipts = row.kept received := rfl

@[simp]
theorem holding_settled {settled : Option Closing} :
    (row.holding received settled).settled = settled := rfl

theorem apply_of_settled (h : row.settled.isSome) (call : Call) : row.apply call = row := by
  cases call <;>
    simp [OwedRow.apply, OwedRow.recordOwedComputerAttemptRevocations,
      OwedRow.settleOwedComputerRevocationRevokeAll, OwedRow.settleOwedRevocationTx, h]

/-- **One call on an open row.** -/
theorem apply_holding (hrec : row.recordedAttemptIDs.Nodup) (hadm : row.Admits call) :
    ∃ settled, (row.holding received none).apply call =
        row.holding (received ++ call.receipts) settled ∧
      (settled.isSome ↔ row.Settles (received ++ call.receipts) call) ∧
      ∀ attempts, (row.holding (received ++ call.receipts) settled).attemptSettlement =
        some attempts → row.Covered (received ++ call.receipts) ∧
          attempts = row.kept (received ++ call.receipts) := by
  cases call with
  | attempts nowNS receipts =>
    obtain ⟨merged, hok, hperm⟩ : ∃ merged,
        (row.holding received none).mergeReceipts (row.kept received) receipts = .ok merged ∧
          merged.Perm ((row.holding received none).kept (received ++ receipts)) :=
      merge_kept hrec hadm (kept_nodup hrec received).of_map fun _ => Iff.rfl
    have happly : (row.holding received none).apply (.attempts nowNS receipts) =
        (row.holding received none).keepReceipts nowNS (row.kept (received ++ receipts)) := by
      have hsort : merged.insertionSort Receipt.notAfter = row.kept (received ++ receipts) :=
        sort_kept hrec hperm
      simp [OwedRow.apply, OwedRow.recordOwedComputerAttemptRevocations,
        OwedRow.settleOwedRevocationTx, hok, hsort]
    rw [happly]
    have hlen : (row.kept (received ++ receipts)).length < row.recordedAttemptIDs.length ↔
        ¬ row.Covered (received ++ receipts) := length_kept_lt_iff
    unfold OwedRow.keepReceipts
    dsimp only
    split
    next hlt => exact ⟨none, rfl, ⟨nofun, fun hcov => absurd hcov (hlen.mp hlt)⟩, nofun⟩
    next hge =>
      have hcov := not_not.mp (mt hlen.mpr hge)
      split
      · exact ⟨_, rfl, ⟨fun _ => hcov, fun _ => rfl⟩, nofun⟩
      · refine ⟨_, rfl, ⟨fun _ => hcov, fun _ => rfl⟩, ?_⟩
        rintro _ ⟨⟩
        exact ⟨hcov, rfl⟩
  | revokeAll nowNS receipt =>
    have hnil : received ++ (Call.revokeAll nowNS receipt).receipts = received := List.append_nil _
    rw [hnil]
    have hsame : (row.holding received none).Ends receipt ↔ row.Ends receipt := Iff.rfl
    by_cases hends : row.Ends receipt
    · refine ⟨some ⟨.revoked, nowNS, some ⟨some receipt, []⟩⟩, ?_, ⟨fun _ => hends, fun _ => rfl⟩,
        nofun⟩
      simp [OwedRow.apply, OwedRow.settleOwedComputerRevocationRevokeAll,
        OwedRow.settleOwedRevocationTx, hsame, hends]
      rfl
    · refine ⟨none, ?_, ⟨nofun, fun hc => absurd hc hends⟩, nofun⟩
      simp [OwedRow.apply, OwedRow.settleOwedComputerRevocationRevokeAll,
        OwedRow.settleOwedRevocationTx, hsame, hends]

end

/-! ## 5. Runs of calls -/

section
variable {row : OwedRow} {calls : List Call}

theorem after_concat (row : OwedRow) (calls : List Call) (call : Call) :
    row.after (calls ++ [call]) = (row.after calls).apply call :=
  Runs.exec_append _ _ _ _

/-- What is kept is of the receipts given up to the settlement. -/
theorem after_eq_holding (hnew : row.receipts = [] ∧ row.settled = none)
    (hrec : row.recordedAttemptIDs.Nodup) (hcalls : ∀ call ∈ calls, row.Admits call) :
    ∃ received late settled, given calls = received ++ late ∧
      row.after calls = row.holding received settled ∧ (settled = none → late = []) ∧
      ∀ attempts, (row.holding received settled).attemptSettlement = some attempts →
        row.Covered received ∧ attempts = row.kept received := by
  induction calls using List.reverseRecOn with
  | nil =>
    refine ⟨[], [], none, rfl, ?_, fun _ => rfl, nofun⟩
    have hkept : row.kept [] = [] := List.filterMap_eq_nil_iff.mpr fun _ _ => rfl
    show row = { row with receipts := row.kept [], settled := none }
    rw [hkept, ← hnew.1, ← hnew.2]
  | append_singleton calls call ih =>
    obtain ⟨received, late, settled, hgiven, hafter, hlate, hclosed⟩ := ih fun c hc =>
      hcalls c (List.mem_append_left _ hc)
    have hgiven' : given (calls ++ [call]) = received ++ late ++ call.receipts := by
      rw [← hgiven]
      simp [given]
    rw [hgiven', after_concat, hafter]
    cases settled with
    | some closing =>
      rw [apply_of_settled rfl]
      exact ⟨received, late ++ call.receipts, _, List.append_assoc _ _ _, rfl, nofun, hclosed⟩
    | none =>
      obtain ⟨settled, happly, -, hclosed'⟩ := apply_holding hrec (hcalls call (by simp))
      rw [hlate rfl, List.append_nil]
      exact ⟨_, [], settled, (List.append_nil _).symm, happly, fun _ => rfl, hclosed'⟩

theorem after_of_settled (h : (row.after calls).settled.isSome) (more : List Call) :
    row.after (calls ++ more) = row.after calls := by
  unfold OwedRow.after at h ⊢
  rw [Runs.exec_append]
  exact Runs.exec_invariant (P := fun r => r = Runs.exec OwedRow.apply row calls)
    (fun r call hr => by rw [hr]; exact apply_of_settled h call) rfl more

end

theorem computerAttemptsHoldingAuthority_nodup {attempts : List AttemptRow}
    (h : (attempts.map AttemptRow.attemptID).Nodup) (jobID : String) :
    (computerAttemptsHoldingAuthority attempts jobID).Nodup := by
  unfold computerAttemptsHoldingAuthority
  rw [(List.perm_insertionSort _ _).nodup_iff]
  exact h.sublist (List.filter_sublist.map _)

/-- **Owed revocation settlement is a confluent set cover.** Of an open row with distinct recorded
attempts, after any calls with valid attempt receipts and with revoke-alls among them: the next call
settles it exactly if the receipts given so far cover the recorded attempts, or if it is a valid
revoke-all; a settlement stands; the row keeps the first receipt given for each attempt and loses
none; and an attempt settlement holds one receipt for each recorded attempt, the first one given, so
that other calls with the same first receipts end in the same. -/
theorem owed_settlement_is_confluent {row : OwedRow}
    (hnew : row.receipts = [] ∧ row.settled = none) (hrec : row.recordedAttemptIDs.Nodup)
    {calls : List Call} (hcalls : ∀ call ∈ calls, row.Admits call) :
    ((row.after calls).settled = none → ∀ call, row.Admits call →
      ((row.after (calls ++ [call])).settled.isSome ↔
        row.Settles (given (calls ++ [call])) call)) ∧
    (∀ more, (row.after calls).settled.isSome → row.after (calls ++ more) = row.after calls) ∧
    ((row.after calls).settled = none → ∀ r, r ∈ (row.after calls).receipts ↔
      firstOf r.computerAttemptID (given calls) = some r) ∧
    (∀ call, row.Admits call → (row.after calls).receipts ⊆
      (row.after (calls ++ [call])).receipts) ∧
    ∀ attempts, (row.after calls).attemptSettlement = some attempts →
      attempts.map Receipt.computerAttemptID = row.recordedAttemptIDs.insertionSort (· ≤ ·) ∧
      attempts = (row.recordedAttemptIDs.insertionSort (· ≤ ·)).filterMap
        fun attemptID => firstOf attemptID (given calls) := by
  obtain ⟨received, late, settled, hgiven, hafter, hlate, hclosed⟩ :=
    after_eq_holding hnew hrec hcalls
  have hgiven' : ∀ call, settled = none →
      given (calls ++ [call]) = received ++ call.receipts := by
    intro call hopen
    rw [given, List.flatMap_append, ← given, hgiven, hlate hopen, List.append_nil]
    simp
  refine ⟨fun hopen call hadm => ?_, fun more h => after_of_settled h more, fun hopen r => ?_,
    fun call hadm r hr => ?_, fun attempts h => ?_⟩
  · rw [hafter, holding_settled] at hopen
    subst hopen
    obtain ⟨settled, happly, hsettles, -⟩ := apply_holding hrec hadm
    rw [after_concat, hafter, happly, hgiven' call rfl]
    exact hsettles
  · rw [hafter, holding_settled] at hopen
    rw [hafter, holding_receipts, mem_kept_iff, hgiven, hlate hopen, List.append_nil,
      and_iff_right_iff_imp]
    intro hfst
    have hr : r ∈ given calls := hgiven ▸ List.mem_append_left _ (mem_of_firstOf hfst).1
    obtain ⟨call, hcall, hr⟩ := List.mem_flatMap.mp hr
    exact (hcalls call hcall r hr).2.2.2
  · rw [after_concat, hafter]
    rw [hafter, holding_receipts, mem_kept_iff] at hr
    cases settled with
    | some closing =>
      rw [apply_of_settled rfl]
      exact mem_kept_iff.mpr hr
    | none =>
      obtain ⟨settled, happly, -⟩ := apply_holding hrec hadm
      rw [happly, holding_receipts, mem_kept_iff, firstOf_append, hr.2, Option.some_or]
      exact ⟨hr.1, rfl⟩
  · rw [hafter] at h
    obtain ⟨hcov, rfl⟩ := hclosed attempts h
    refine ⟨kept_attempts_of_covered hcov, List.filterMap_congr fun attemptID hmem => ?_⟩
    have hsome := hcov attemptID ((List.perm_insertionSort _ _).mem_iff.mp hmem)
    obtain ⟨r, hr⟩ := Option.isSome_iff_exists.mp (firstOf_isSome_iff.mpr hsome)
    rw [hgiven, firstOf_append, hr, Option.some_or]

/-- Two receipts that come apart settle a row together. -/
theorem owed_settlement_of_two : ((recordOwedComputerRevocation "c" "" ["a", "b"]).after
      ([.attempts 1 [⟨0, "c", "b", 1, 1, some 1⟩]] ++
        [.attempts 2 [⟨0, "c", "a", 1, 0, some 2⟩]])).settled.isSome :=
  ((owed_settlement_is_confluent ⟨rfl, rfl⟩ (by decide)
    (by simp [OwedRow.Admits, Call.receipts, OwedRow.Takes, recordOwedComputerRevocation])).1 rfl _
      (by simp [OwedRow.Admits, Call.receipts, OwedRow.Takes, recordOwedComputerRevocation])).mpr
    (by simp [OwedRow.Settles, OwedRow.Covered, given, Call.receipts, recordOwedComputerRevocation])

end Wefty.OwedRevocations
