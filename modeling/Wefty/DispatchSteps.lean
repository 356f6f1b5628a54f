/-
What one step of the dispatch system does (`Wefty.Dispatch`).

A step makes at most one ledger commit, and `Moves` says which kind it is: one of the common
kind (`Writes`), the beginning of a submit attempt, a cancellation request, or one of the
two that settle a cancellation on L1's word. What a commit may link is tied to the call it
belongs to: `Call.links` is the job the call holds for its run.

Of the thirty-odd program points only four carry a submit (`listed`, `begun`, `submit`,
`stray`). A step of any other one is `Inert`: it starts no submit, L1 stores nothing new, and
what it leaves in flight is again none of the four.
-/
import Wefty.LinkRules
import Wefty.Dispatch

set_option autoImplicit false

namespace Wefty.DispatchSteps

open Tables Rows RunIntent RunJobLink LinkRules Dispatch

variable {ledger : Ledger} {absent : Prop} {run run' : Run} {evidence finishing : String → Prop}

/-! ## 1. Commits -/

/-- The kinds of commit on a run, given the jobs the call holds for it, the job it finishes the
cancellation of, and whether it reports one gone. -/
inductive Moves (evidence finishing : String → Prop) (absent : Prop) (run run' : Run) : Prop
  | writes (h : Writes evidence run run')
  | begun (held : Bool) (random token : String) (now : Int)
      (h : run.beginDispatch held random now = .ok (token, run'))
  | requested (now grace : Int) (h : run.requestRunCancellation now grace = .ok run')
  | finished (jobID : String) (hf : finishing jobID) (now : Int)
      (h : run' = run.finishRunCancellation now)
  | regressed (ha : absent) (h : Keeps run run')

theorem Moves.keeps_or_begun (h : Moves evidence finishing absent run run') :
    Keeps run run' ∨
      ∃ held random token now, run.beginDispatch held random now = .ok (token, run') := by
  cases h with
  | writes h => exact Or.inl h.keeps
  | begun held random token now h => exact Or.inr ⟨held, random, token, now, h⟩
  | requested now grace h => exact Or.inl (requestRunCancellation_keeps h)
  | finished jobID hf now h =>
    rw [h]
    exact Or.inl (keeps_of_cancellation (by simp))
  | regressed ha h => exact Or.inl h

theorem Moves.runID (h : Moves evidence finishing absent run run') : run'.runID = run.runID := by
  rcases h.keeps_or_begun with hk | ⟨_, _, _, _, hb⟩
  · exact hk.runID
  · obtain ⟨-, -, -, -, -, hid, -⟩ := beginDispatch_ok hb
    exact hid

theorem Moves.mono {e e' f f' : String → Prop} {a a' : Prop} (h : Moves e f a run run')
    (he : ∀ jobID, e jobID → e' jobID) (hf : ∀ jobID, f jobID → f' jobID) (ha : a → a')
    : Moves e' f' a' run run' := by
  cases h with
  | writes h => exact .writes (h.mono fun jobID hj => Or.inr (he jobID hj))
  | begun held random token now h => exact .begun held random token now h
  | requested now grace h => exact .requested now grace h
  | finished jobID hfin now h => exact .finished jobID (hf jobID hfin) now h
  | regressed hab h => exact .regressed (ha hab) h

theorem Moves.of_silent (h : Silent run run')
    : Moves evidence finishing absent run run' :=
  (Moves.writes h : Moves (fun _ => False) (fun _ => False) False run run').mono
    (fun _ hj => hj.elim) (fun _ hj => hj.elim) False.elim

/-- What a step does to the ledger: every run stays and makes at most one commit, and a run that
was not there is a new one. -/
structure LedgerMoves (evidence finishing : String → String → Prop) (absent : String → Prop)
    (ledger ledger' : Ledger) : Prop where
  old : ∀ runID run, ledger.runs.find runID = some run →
    ∃ run', ledger'.runs.find runID = some run' ∧
      Moves (evidence runID) (finishing runID) (absent runID) run run'
  new : ∀ runID run', ledger'.runs.find runID = some run' → ledger.runs.find runID = none →
    ∃ request now, run' = newRun request now

variable {evidence finishing : String → String → Prop} {absent : String → Prop} {runID : String}

namespace LedgerMoves

theorem refl (ledger : Ledger) : LedgerMoves evidence finishing absent ledger ledger where
  old := fun _ run h => ⟨run, h, .of_silent (Writes.refl run)⟩
  new := by
    intro runID run' h hn
    rw [hn] at h
    cases h

theorem mono {e f : String → String → Prop} {a : String → Prop} {ledger' : Ledger}
    (h : LedgerMoves e f a ledger ledger') (he : ∀ r j, e r j → evidence r j)
    (hf : ∀ r j, f r j → finishing r j) (ha : ∀ r, a r → absent r) :
    LedgerMoves evidence finishing absent ledger ledger' where
  old := by
    intro runID run hr
    obtain ⟨run', hr', hm⟩ := h.old runID run hr
    exact ⟨run', hr', hm.mono (he runID) (hf runID) (ha runID)⟩
  new := h.new

end LedgerMoves

theorem find_transact {tx : RunTx} {other : String} :
    (ledger.transact runID tx).runs.find other =
      if other = runID then (ledger.runs.find other).map (committed tx)
      else ledger.runs.find other :=
  Table.find_update ledger.runs runID (committed tx) (committed_runID tx) other

theorem find_transact_ok {tx : RunTx}
    (hr : ledger.runs.find runID = some run) (htx : tx run = .ok run')
    (hid : run'.runID = run.runID) : (ledger.transact runID tx).runs.find runID = some run' := by
  have hsame : { run' with runID := run.runID } = run' := by rw [← hid]
  rw [find_transact, if_pos rfl, hr, Option.map_some]
  unfold committed
  rw [htx]
  dsimp only
  rw [hsame]

theorem transact_moves {tx : RunTx}
    (h : ∀ run run', ledger.runs.find runID = some run → tx run = .ok run' →
      Moves (evidence runID) (finishing runID) (absent runID) run run') :
    LedgerMoves evidence finishing absent ledger (ledger.transact runID tx) := by
  constructor
  · intro other run hr
    by_cases ho : other = runID
    · subst ho
      cases htx : tx run with
      | ok run' =>
        have hm := h run run' hr htx
        exact ⟨run', find_transact_ok hr htx hm.runID, hm⟩
      | error e =>
        refine ⟨run, ?_, .of_silent (Writes.refl run)⟩
        rw [find_transact, if_pos rfl, hr, Option.map_some]
        unfold committed
        rw [htx]
    · refine ⟨run, ?_, .of_silent (Writes.refl run)⟩
      rw [find_transact, if_neg ho]
      exact hr
  · intro other run' hr' hn
    rw [find_transact, hn] at hr'
    simp at hr'

theorem write_moves {w : World} {f : Run → Run} (h : ∀ run, Silent run (f run)) :
    LedgerMoves evidence finishing absent w.ledger (w.write runID f).ledger := by
  apply transact_moves
  intro run run' _ htx
  cases htx
  exact .of_silent (h run)

/-! ## 2. What the program points hold -/

end Wefty.DispatchSteps

namespace Wefty.Dispatch.Call

open RunJobLink

def links : Call → String → String → Prop
  | .answered runID (.job jobID), r, j => r = runID ∧ j = jobID
  | .recovered item jobID, r, j | .recoveredOwned item jobID, r, j => r = item.runID ∧ j = jobID
  | .cancelFound runID jobID _, r, j => r = runID ∧ j = jobID
  | .cancelLinked runID jobID, r, j => r = runID ∧ j = jobID ∧ jobID ≠ ""
  | _, _, _ => False

def finishes : Call → String → String → Prop
  | .finish runID jobID, r, j => r = runID ∧ j = jobID
  | _, _, _ => False

/-- The call is about to settle a cancellation because the job is gone. -/
def regresses : Call → String → Prop
  | .cancelAbsent runID _ _, r => r = runID
  | _, _ => False

def inert : Call → Bool
  | .listed _ | .begun _ _ | .submit _ _ | .stray _ => false
  | _ => true

end Wefty.Dispatch.Call

namespace Wefty.DispatchSteps

open Tables Rows RunIntent RunJobLink LinkRules Dispatch

/-! ## 3. The ledger after one step of a call -/

variable {evidence finishing : String → String → Prop} {absent : String → Prop}
variable {w : World} {runID : String}

theorem reading_moves {f : Run → World} (h : ∀ run, w.ledger.runs.find runID = some run →
      LedgerMoves evidence finishing absent w.ledger (f run).ledger) :
    LedgerMoves evidence finishing absent w.ledger (w.reading runID f).ledger := by
  unfold World.reading
  cases hr : w.ledger.runs.find runID with
  | none => exact LedgerMoves.refl _
  | some run => exact h run hr

theorem writes_of_held {run run' : Run} {jobID : String}
    (h : Writes (fun other => other = jobID ∧ jobID ≠ "") run run')
    (he : jobID ≠ "" → evidence runID jobID) : Writes (evidence runID) run run' := by
  refine h.mono fun other ho => Or.inr ?_
  rw [ho.1]
  exact he ho.2

/-! ## 4. Steps that carry no submit -/

/-- Jobs are never deleted, keep their id and document, and stay ended; ids stay distinct. -/
structure Grows (jobs jobs' : List Job) : Prop where
  kept : ∀ job ∈ jobs, ∃ job' ∈ jobs', job'.jobID = job.jobID ∧ job'.spec = job.spec ∧
    (ended job.state = true → ended job'.state = true)
  ids : (jobs.map Job.jobID).Nodup → (jobs'.map Job.jobID).Nodup

theorem Grows.refl (jobs : List Job) : Grows jobs jobs :=
  ⟨fun job hj => ⟨job, hj, rfl, rfl, id⟩, id⟩

/-- No submit was started, nothing new is stored at L1, and what is in flight besides the old
calls carries no submit. -/
structure Inert (w w' : World) : Prop where
  grows : Grows w.l1 w'.l1
  specs : w'.l1.map Job.spec = w.l1.map Job.spec
  submitted : w'.submitted = w.submitted
  answers : w'.answers = w.answers
  calls : ∃ new, w'.calls = w.calls ++ new ∧ ∀ call ∈ new, call.inert = true

namespace Inert

theorem refl (w : World) : Inert w w :=
  ⟨Grows.refl w.l1, rfl, rfl, rfl, [], (List.append_nil _).symm, by simp⟩

theorem of_ledger {w' : World} (hl1 : w'.l1 = w.l1) (hcalls : w'.calls = w.calls)
    (hsub : w'.submitted = w.submitted) (hans : w'.answers = w.answers) : Inert w w' :=
  ⟨hl1 ▸ Grows.refl w.l1, by rw [hl1], hsub, hans, [], by rw [hcalls, List.append_nil], by simp⟩

theorem push {w' : World} {call : Call} (h : Inert w w') (hc : call.inert = true) :
    Inert w (w'.push call) := by
  obtain ⟨hgrows, hspecs, hsub, hans, new, hcalls, hnew⟩ := h
  refine ⟨hgrows, hspecs, hsub, hans, new ++ [call], ?_, ?_⟩
  · rw [← List.append_assoc, ← hcalls]
    rfl
  · intro c hc'
    rcases List.mem_append.mp hc' with h' | h'
    · exact hnew c h'
    · rw [List.mem_singleton.mp h']
      exact hc

theorem transact (w : World) (runID : String) (tx : RunTx) :
    Inert w (w.transact runID tx) := of_ledger rfl rfl rfl rfl

theorem write (w : World) (runID : String) (f : Run → Run) : Inert w (w.write runID f) :=
  of_ledger rfl rfl rfl rfl

theorem reading {f : Run → World} (h : ∀ run, Inert w (f run)) : Inert w (w.reading runID f) := by
  unfold World.reading
  cases w.ledger.runs.find runID with
  | none => exact refl w
  | some run => exact h run

end Inert

theorem advance_map {α : Type} {f : Job → α}
    (hf : ∀ job state, f { job with state := state } = f job)
    (jobs : List Job) (jobID : String) (state : JobState) :
    (advance jobs jobID state).map f = jobs.map f := by
  unfold advance
  rw [List.map_map]
  apply List.map_congr_left
  intro job _
  rw [Function.comp_apply]
  split
  · exact hf job state
  · rfl

theorem advance_grows (jobs : List Job) (jobID : String) (state : JobState) :
    Grows jobs (advance jobs jobID state) := by
  constructor
  · intro job hj
    refine ⟨_, List.mem_map_of_mem hj, ?_⟩
    split
    · rename_i hmvd
      exact ⟨rfl, rfl, fun he => absurd (he.symm.trans hmvd.2) (by decide)⟩
    · exact ⟨rfl, rfl, id⟩
  · intro hids
    rw [advance_map fun _ _ => rfl]
    exact hids

theorem advance_inert (w : World) (jobID : String) (state : JobState) :
    Inert w { w with l1 := advance w.l1 jobID state } :=
  ⟨advance_grows w.l1 jobID state, advance_map (fun _ _ => rfl) w.l1 jobID state, rfl, rfl, [],
    (List.append_nil _).symm, by simp⟩

/-! ## 5. One step of a call -/

/-- What a step of a call without a submit does. -/
structure Goes (call : Call) (w w' : World) : Prop where
  ledger : LedgerMoves call.links call.finishes call.regresses w.ledger w'.ledger
  inert : Inert w w'

namespace Goes

variable {call next : Call} {w' : World} {tx : RunTx}

theorem refl : Goes call w w := ⟨.refl _, .refl w⟩

theorem push (h : Goes call w w') (hn : next.inert = true) : Goes call w (w'.push next) :=
  ⟨h.ledger, h.inert.push hn⟩

theorem transact (h : ∀ run run', tx run = .ok run' →
      Moves (call.links runID) (call.finishes runID) (call.regresses runID) run run') :
    Goes call w (w.transact runID tx) :=
  ⟨transact_moves fun run run' _ => h run run', .transact w runID tx⟩

theorem write {f : Run → Run} (h : ∀ run, Silent run (f run)) :
    Goes call w (w.write runID f) :=
  ⟨write_moves h, .write w runID f⟩

theorem reading {f : Run → World} (h : ∀ run, Goes call w (f run)) :
    Goes call w (w.reading runID f) :=
  ⟨reading_moves fun run _ => (h run).ledger, .reading fun run => (h run).inert⟩

theorem deferDelivery {input : Input} : Goes call w (w.deferDelivery input runID) :=
  write fun run => deferRunCancellation_writes run input.cause input.now

theorem deliver {input : Input} (hn : next.inert = true)
    (h : ∀ run run', tx run = .ok run' → Writes (call.links runID) run run') :
    Goes call w (w.deliver input runID tx next) := by
  refine reading fun run => ?_
  cases tx run with
  | error e => exact deferDelivery
  | ok run' => exact (transact fun run run' htx => .writes (h run run' htx)).push hn

end Goes

/-- **A step of a call that carries no submit** makes at most one commit, which links at most the
job the call holds, and is inert. -/
theorem proceed_goes (w : World) (input : Input) {call : Call} (hc : call.inert = true) :
    Goes call w (w.proceed input call) := by
  have hdispatchError : ∀ runID, Goes call w
      (w.write runID fun run => run.recordDispatchError input.cause input.now) := fun _ =>
    .write fun run => recordDispatchError_writes
  have hunrecorded : ∀ runID, Goes call w
      (w.write runID fun run => run.deferUnrecordedDispatch run.jobLinkFailures input.now) :=
    fun _ => .write fun run => deferUnrecordedDispatch_writes
  cases call with
  | listed | begun | submit | stray => cases hc
  | answered runID answer =>
    show Goes _ w (w.answered input runID answer)
    unfold World.answered
    split
    · exact .transact fun run run' htx =>
        .writes (writes_of_held (completeDispatch_writes (.inr htx)) fun _ => ⟨rfl, rfl⟩)
    · exact .write fun run => failDispatch_writes
    · exact hdispatchError runID
  | recover item =>
    show Goes _ w (w.recover input item)
    unfold World.recover
    split
    · cases lookupJobByDispatchKey w.l1 item.dispatchKey <;> dsimp only <;> split <;>
        exact Goes.refl.push rfl
    · exact hunrecorded item.runID
  | recoverByID item lookupStarted =>
    show Goes _ w (w.recoverByID input item lookupStarted)
    unfold World.recoverByID
    split
    · cases getJob w.l1 item.outboxJobID <;> exact Goes.refl.push rfl
    · exact hunrecorded item.runID
  | recovered item jobID =>
    refine (Goes.transact fun run run' htx => .writes ?_).push rfl
    exact writes_of_held (completeDispatch_writes (linkUnrecordedDispatch_ok htx))
      fun _ => ⟨rfl, rfl⟩
  | recoveredOwned item jobID =>
    exact .transact fun run run' htx =>
      .writes (writes_of_held (completeDispatch_writes (acceptRecoveredCancellation_ok htx))
        fun _ => ⟨rfl, rfl⟩)
  | absent item lookupStarted =>
    exact .write fun run => settleUnrecordedDispatch_writes
  | cancel runID jobID key =>
    show Goes _ w (w.cancelObserve runID jobID key)
    unfold World.cancelObserve
    split
    · exact Goes.refl.push rfl
    · exact .reading fun run => Goes.refl.push rfl
  | cancelLookup runID key observed =>
    show Goes _ w (w.cancelLookup input runID key observed)
    unfold World.cancelLookup
    split
    · split <;> exact Goes.refl.push rfl
    · exact Goes.refl.push rfl
  | cancelByID runID jobID observed =>
    show Goes _ w (w.cancelByID input runID jobID observed)
    unfold World.cancelByID
    split
    · split <;> exact Goes.refl.push rfl
    · exact .deferDelivery
  | cancelAbsent runID observed provisional =>
    refine .reading fun run => ?_
    have hsettled : Goes (.cancelAbsent runID observed provisional) w (w.transact runID fun run =>
        run.cancelAbsentStoredIdentity observed input.now) :=
      .transact fun run run' htx => .regressed rfl (cancelAbsentStoredIdentity_keeps htx)
    split
    · exact .deferDelivery
    · dsimp only
      split
      · exact hsettled.push rfl
      · exact hsettled
  | cancelProvisional runID => exact .write fun run => deferRunCancellation_writes run _ _
  | cancelMissing runID lookupStarted =>
    exact .deliver rfl fun run run' htx =>
      (cancelAbsentDispatch_writes htx).mono fun _ hj => hj.elim
  | cancelUnlinked runID =>
    refine .reading fun run => ?_
    have hdeferred : Goes (.cancelUnlinked runID) w (w.write runID fun run =>
        (run.deferUnlinkedRunCancellation input.cause input.now).2) :=
      .write fun run => (deferUnlinkedRunCancellation_writes run input.cause input.now).1
    split
    · exact hdeferred.push rfl
    · exact hdeferred
  | cancelFound runID jobID observed =>
    exact .deliver rfl fun run run' htx =>
      writes_of_held (completeDispatch_writes (.inr htx)) fun _ => ⟨rfl, rfl⟩
  | cancelReread runID => exact .reading fun run => Goes.refl.push rfl
  | cancelLinked runID jobID =>
    exact .deliver rfl fun run run' htx =>
      writes_of_held (completeDispatch_writes (.inr htx)) fun hne => ⟨rfl, rfl, hne⟩
  | cancelRecorded runID jobID =>
    refine .reading fun run => ?_
    split
    · exact Goes.refl.push rfl
    · exact .deferDelivery
  | cancelReady runID jobID observed =>
    show Goes _ w (w.cancelJob input runID jobID observed)
    unfold World.cancelJob
    split
    · exact .deferDelivery
    · exact Goes.refl.push rfl
    · have hasked : Goes (.cancelReady runID jobID observed) w
          { w with l1 := advance w.l1 jobID input.state } :=
        ⟨.refl _, advance_inert w jobID input.state⟩
      dsimp only
      split <;> exact hasked.push rfl
  | canceled runID jobID current state =>
    refine .reading fun run => ?_
    have hcleared : Goes (.canceled runID jobID current state) w
        ((w.write runID Run.clearDeliveryFailure).push
          (.observed ⟨runID, jobID, current, run.requiredEnvelope⟩ state)) :=
      (Goes.write clearDeliveryFailure_writes).push rfl
    split
    · exact hcleared.push rfl
    · exact hcleared
  | canceledEnded runID jobID state => exact .reading fun run => (Goes.refl.push rfl).push rfl
  | cancelRefused runID jobID observed cause =>
    show Goes _ w (w.cancelRefused input runID jobID observed cause)
    unfold World.cancelRefused
    split
    · split
      · exact Goes.refl.push rfl
      · exact (Goes.refl.push rfl).push rfl
    · exact Goes.refl.push rfl
  | finish runID jobID =>
    refine .transact fun run run' htx => ?_
    cases htx
    exact .finished jobID ⟨rfl, rfl⟩ input.now rfl
  | refuse runID cause =>
    exact .write fun run => refuseRunCancellation_writes run cause input.now
  | project projected =>
    show Goes _ w (w.project input projected)
    unfold World.project
    split
    · split <;> exact Goes.refl.push rfl
    · exact .refl
  | observed projected state =>
    exact .write fun run => projectJobOutcome_writes
  | lost projected =>
    exact .write fun run => failMissingL1Job_writes

section
variable (w : World) (input : Input)

theorem begin_moves {intent : DispatchIntent} :
    LedgerMoves evidence finishing absent w.ledger (w.begin input intent).ledger := by
  refine reading_moves fun run _ => ?_
  cases run.beginDispatch w.ledger.held input.fresh input.now with
  | error e => exact LedgerMoves.refl _
  | ok begun =>
    refine transact_moves fun run run' _ htx => ?_
    cases hb : run.beginDispatch w.ledger.held input.fresh input.now with
    | error e =>
      rw [hb] at htx
      cases htx
    | ok committed =>
      rw [hb] at htx
      cases htx
      exact .begun _ _ _ _ hb

theorem submitOutcome_moves {spec : JobSpec} :
    LedgerMoves evidence finishing absent w.ledger (w.submitOutcome input runID spec).ledger := by
  unfold World.submitOutcome
  cases input.outcome with
  | delivered => exact LedgerMoves.refl _
  | failed =>
    exact write_moves fun run => recordDispatchError_writes
  | refused =>
    exact write_moves fun run =>
      failDispatch_writes

/-- **One step of a call** makes at most one commit, which links at most the job the call
holds. -/
theorem proceed_ledger {call : Call} :
    LedgerMoves call.links call.finishes call.regresses w.ledger (w.proceed input call).ledger := by
  cases hc : call.inert with
  | true => exact (proceed_goes w input hc).ledger
  | false =>
    cases call with
    | listed intent => exact begin_moves w input
    | submit runID spec => exact submitOutcome_moves w input
    | begun | stray => exact LedgerMoves.refl _
    | _ => cases hc

end

/-! ## 6. The ledger after one step of the system -/

theorem createRun_moves {ledger : Ledger} {request : CreateRun} {now : Int} :
    LedgerMoves evidence finishing absent ledger (ledger.createRun request now) := by
  unfold Ledger.createRun
  split
  · exact LedgerMoves.refl _
  split
  · constructor
    · intro runID run hr
      exact ⟨run, Table.find_insert_of_some hr, .of_silent (Writes.refl run)⟩
    · intro runID run' hr' hn
      exact ⟨request, now, Table.eq_of_find_insert hr' hn⟩
  · exact LedgerMoves.refl _

abbrev StepMoves (w : World) (ledger' : Ledger) : Prop :=
  LedgerMoves (fun runID jobID => ∃ call ∈ w.calls, call.links runID jobID)
    (fun runID jobID => ∃ call ∈ w.calls, call.finishes runID jobID)
    (fun runID => ∃ call ∈ w.calls, call.regresses runID) w.ledger ledger'

theorem step_resume (w : World) (index : Nat) (input : Input) :
    w.step (.resume index input) = w ∨ ∃ call, w.calls[index]? = some call ∧
      w.step (.resume index input) =
        World.proceed { w with calls := w.calls.eraseIdx index } input call := by
  unfold World.step
  dsimp only
  cases hc : w.calls[index]? with
  | none => exact .inl rfl
  | some call => exact .inr ⟨call, rfl, rfl⟩

/-- **One step of the system** makes at most one commit on a run, which links only a job that a
call in flight holds for it. -/
theorem step_ledger (w : World) (op : Op) : StepMoves w (w.step op).ledger := by
  cases op with
  | createRun request now => exact createRun_moves
  | hold held =>
    constructor
    · exact fun runID run hr => ⟨run, hr, .of_silent (Writes.refl run)⟩
    · intro runID run' hr' hn
      change w.ledger.runs.find runID = some run' at hr'
      rw [hn] at hr'
      cases hr'
  | appendEnvelope runID => exact write_moves acceptEnvelope_writes
  | appendGateResult runID failure now grace =>
    exact write_moves fun run => acceptGate_writes
  | rejectProtocolWrite runID reason now grace =>
    exact write_moves fun run => failRun_writes_of rfl rfl rfl rfl rfl rfl rfl rfl rfl
  | pendingDispatches | unrecordedDispatches | pendingRunCancellations =>
    refine reading_moves fun run _ => ?_
    split <;> exact LedgerMoves.refl _
  | requestRunCancellation runID actor now grace =>
    refine transact_moves fun run run' _ htx => ?_
    split at htx
    · exact .requested now grace htx
    · cases htx
  | activeProjectedRuns runID =>
    refine reading_moves fun run _ => ?_
    split
    · split <;> exact LedgerMoves.refl _
    · exact LedgerMoves.refl _
  | advance | restart => exact LedgerMoves.refl _
  | resume index input =>
    obtain heq | ⟨call, hc, heq⟩ := step_resume w index input
    · rw [heq]
      exact LedgerMoves.refl _
    · have hmem := List.mem_of_getElem? hc
      rw [heq]
      exact (proceed_ledger { w with calls := w.calls.eraseIdx index } input).mono
        (fun r j hl => ⟨call, hmem, hl⟩) (fun r j hl => ⟨call, hmem, hl⟩)
        (fun r hl => ⟨call, hmem, hl⟩)

end Wefty.DispatchSteps
