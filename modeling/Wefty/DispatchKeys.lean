/-
One job per dispatch key, for ever.

A key belongs to a job while the job is on record and to the job's tombstone afterwards; `Holds`
says either. It is never given up, and no two identifiers hold one key. So every answer to a
submission names the identifier the key belongs to, whether the submission came first, later, or
together with others that found the key free as well: the unique column lets one of them insert, and
the others read again.

A tombstone keeps no parentage that a replay could be checked against. A caller with an attempt
credential is therefore refused the key of its own child once the child is removed.
-/
import Wefty.Fencing

set_option autoImplicit false

namespace Wefty.DispatchKeys

open Tables StoreRows RestartPolicy Transactions AttemptAuthority ControlStore Submissions
open Operations StoreRules StoreWrites StoreSteps StoreRuns Fencing

variable {e : Event} {submissions : List Submission} {hash id jobID key : Nat} {before s s' : Store}
variable {submission : Submission}

/-! ## 1. The lookup -/

/-- The caller may be shown the job under the identifier: a client principal any job, an attempt
credential a job that is on record and was submitted through its own. -/
def InScope (s : Store) (submission : Submission) (jobID : Nat) : Prop :=
  ∀ parent ∈ submission.origin.parent, ∃ job, s.jobs.find jobID = some job ∧
    job.parentJobID = some parent.jobID ∧
    job.originatingSubmitter = parent.originatingSubmitter

theorem find_of_jobByDispatchKey {job : Job} (h : s.jobByDispatchKey key = some job) :
    s.jobs.find job.jobID = some job ∧ job.spec.dispatchKey = key := by
  refine ⟨Table.mem_rows_iff.mp (List.mem_of_find?_eq_some h), ?_⟩
  simpa using List.find?_some h

theorem find_of_tombstoneByDispatchKey {tombstone : Tombstone}
    (h : s.tombstoneByDispatchKey key = some tombstone) :
    s.tombstones.find tombstone.jobID = some tombstone ∧ tombstone.dispatchKey = key := by
  refine ⟨Table.mem_rows_iff.mp (List.mem_of_find?_eq_some h), ?_⟩
  simpa using List.find?_some h

theorem replayDispatchKey_some (h : replayDispatchKey s submission = .ok (some jobID)) :
    Holds s submission.spec.dispatchKey submission.requestHash jobID ∧
      InScope s submission jobID := by
  unfold replayDispatchKey at h
  split at h
  next job hjob =>
    obtain ⟨hfind, hkey⟩ := find_of_jobByDispatchKey hjob
    split at h
    · cases h
    next hallow =>
      rw [not_or, not_not, not_not] at hallow
      cases h
      refine ⟨.job job hfind hkey hallow.2, fun parent hpar => ⟨job, hfind, ?_⟩⟩
      have hscope := hallow.1
      rw [replayWithinScope, Option.mem_def.mp hpar] at hscope
      simpa using hscope
  · split at h
    next tombstone htomb =>
      obtain ⟨hfind, hkey⟩ := find_of_tombstoneByDispatchKey htomb
      split at h
      · cases h
      next hallow =>
        rw [not_or, not_not, not_not] at hallow
        cases h
        refine ⟨.tombstone tombstone hfind hkey hallow.2, fun parent hpar => ?_⟩
        have hscope := hallow.1
        rw [replayWithinScope, Option.mem_def.mp hpar] at hscope
        simp at hscope
    · cases h

theorem replayDispatchKey_of_holds (hinv : Inv False s)
    (h : Holds s submission.spec.dispatchKey submission.requestHash jobID)
    (hscope : InScope s submission jobID) : replayDispatchKey s submission = .ok (some jobID) := by
  unfold replayDispatchKey
  split
  next job hjob =>
    obtain ⟨hfind, hkey⟩ := find_of_jobByDispatchKey hjob
    have hid := hinv.keys.unique not_false (.job job hfind hkey rfl) h
    have hhash : job.requestHash = submission.requestHash := by
      rw [hid] at hfind
      cases h with
      | job held hheld _ hhash =>
        rw [hfind] at hheld
        cases hheld
        exact hhash
      | tombstone tombstone htomb _ hhash =>
        exact (hinv.keys.buried htomb hfind).2.symm.trans hhash
    have hwith : replayWithinScope submission.origin job.parentJobID
        job.originatingSubmitter := by
      unfold replayWithinScope
      split
      · rfl
      next parent hpar =>
        obtain ⟨held, hheld, hparentID, hsub⟩ := hscope parent hpar
        rw [← hid, hfind] at hheld
        cases hheld
        simp [hparentID, hsub]
    rw [if_neg (by simp [hwith, hhash]), hid]
  next hjobs =>
    have hfree : ∀ {id job}, s.jobs.find id = some job →
        job.spec.dispatchKey ≠ submission.spec.dispatchKey := by
      intro id job hfind
      simpa using List.find?_eq_none.mp hjobs job (Table.mem_of_find hfind)
    cases h with
    | job held hheld hkey _ => exact absurd hkey (hfree hheld)
    | tombstone tombstone hfind hkey hhash =>
      cases htomb : s.tombstoneByDispatchKey submission.spec.dispatchKey with
      | none =>
        have hnone := List.find?_eq_none.mp htomb tombstone (Table.mem_of_find hfind)
        simp [hkey] at hnone
      | some found =>
        obtain ⟨hfnd, hfoundKey⟩ := find_of_tombstoneByDispatchKey htomb
        have hid := hinv.keys.unique not_false (.tombstone found hfnd hfoundKey rfl)
          (.tombstone tombstone hfind hkey hhash)
        rw [hid, hfind] at hfnd
        cases hfnd
        -- An attempt credential is in scope of a job on record only.
        have hwith : replayWithinScope submission.origin none none := by
          unfold replayWithinScope
          split
          · rfl
          next parent hpar =>
            obtain ⟨held, hheld, -⟩ := hscope parent hpar
            exact absurd ((hinv.keys.buried hfind hheld).1.symm.trans hkey) (hfree hheld)
        dsimp only
        rw [if_neg (by simp [hwith, hhash]), hid]

theorem lookupSubmission_of_replay {ctx : Ctx} (hchecked : checkSubmission submission = .ok ())
    (hcred : ∀ parent ∈ submission.origin.parent,
      revalidateAttemptCredential ctx s parent submission.retiring = .ok ())
    (h : replayDispatchKey s submission = .ok (some jobID)) :
    lookupSubmission ctx s submission = .ok (some jobID) := by
  unfold lookupSubmission
  rw [hchecked]
  cases hpar : submission.origin.parent with
  | none =>
    rw [h]
    rfl
  | some parent =>
    simp only [hcred parent hpar, h]
    rfl

/-! ## 2. A batch of submissions -/

def named : SubmitAnswer → Option Nat
  | .created jobID | .replayed jobID => some jobID
  | .refused _ => none

/-- What an answer says of the store after the batch: the key belongs to what it names, under the
request it was asked with. A new job has a new identifier, and a replay is in scope. -/
structure Answered (before s' : Store) (submission : Submission) (answer : SubmitAnswer) :
    Prop where
  holds : ∀ jobID ∈ named answer, Holds s' submission.spec.dispatchKey submission.requestHash jobID
  created : ∀ {jobID}, answer = .created jobID → before.nextID ≤ jobID
  scope : ∀ {jobID}, answer = .replayed jobID → InScope s' submission jobID

/-- Rows of `jobs` are only added, and the tombstones stay. -/
structure Adds (s s' : Store) : Prop where
  jobs : ∀ {id job}, s.jobs.find id = some job → s'.jobs.find id = some job
  tombstones : s'.tombstones = s.tombstones
  nextID : s.nextID ≤ s'.nextID

theorem Adds.refl (s : Store) : Adds s s := ⟨id, rfl, le_rfl⟩

theorem Adds.trans {a b c : Store} (h : Adds a b) (h' : Adds b c) : Adds a c :=
  ⟨fun hj => h'.jobs (h.jobs hj), h'.tombstones.trans h.tombstones, h.nextID.trans h'.nextID⟩

theorem Adds.holds (h : Adds s s') (hh : Holds s key hash id) : Holds s' key hash id := by
  cases hh with
  | job job hfind hkey hhash => exact .job job (h.jobs hfind) hkey hhash
  | tombstone tombstone hfind hkey hhash =>
    exact .tombstone tombstone (by rw [h.tombstones]; exact hfind) hkey hhash

theorem Adds.inScope (h : Adds s s') (hscope : InScope s submission jobID)
    : InScope s' submission jobID := by
  intro parent hpar
  obtain ⟨job, hfind, hparentID, hsub⟩ := hscope parent hpar
  exact ⟨job, h.jobs hfind, hparentID, hsub⟩

theorem Answered.later {answer : SubmitAnswer} (h : Answered before s submission answer)
    (hadds : Adds s s') : Answered before s' submission answer :=
  ⟨fun jobID hnamed => hadds.holds (h.holds jobID hnamed), h.created,
    fun heq => hadds.inScope (h.scope heq)⟩

theorem answered_refused (before s' : Store) (submission : Submission) (err : ProtocolError) :
    Answered before s' submission (.refused err) := ⟨nofun, nofun, nofun⟩

theorem answered_replayed (h : replayDispatchKey s submission = .ok (some jobID)) :
    Answered before s submission (.replayed jobID) := by
  obtain ⟨hholds, hscope⟩ := replayDispatchKey_some h
  refine ⟨fun id hid => ?_, nofun, fun heq => ?_⟩
  · cases hid
    exact hholds
  · cases heq
    exact hscope

theorem insertSubmission_answered (ctx : Ctx) {copies : Prop} (hinv : Inv copies s)
    (hnext : before.nextID ≤ s.nextID) (submission : Submission) :
    Answered before (insertSubmission ctx s submission).1 submission
      (insertSubmission ctx s submission).2 ∧ Adds s (insertSubmission ctx s submission).1 := by
  unfold insertSubmission
  split
  · refine ⟨?_, .refl s⟩
    unfold concurrentSubmit
    split
    · exact answered_refused before s submission _
    next jobID hreplay => exact answered_replayed hreplay
    · exact answered_refused before s submission _
  · split
    · exact ⟨answered_refused before s submission _, .refl s⟩
    have hid : (submittedJob ctx s.nextID submission).jobID = s.nextID := rfl
    have hfind := find_insertJob hinv hid
    refine ⟨⟨fun id hid => ?_, fun heq => ?_, nofun⟩,
      ⟨fun hj => find_insertJob_of_some hj, rfl, Nat.le_succ _⟩⟩
    · cases hid
      exact .job (submittedJob ctx s.nextID submission)
        ((hfind s.nextID).trans (if_pos rfl)) rfl rfl
    · cases heq
      exact hnext

/-- **A batch**: all of it is looked up in `before`, and inserted one after another. -/
theorem createJobs_answered (ctx : Ctx) {copies : Prop} (submissions : List Submission)
    : ∀ {s : Store}, Inv copies s → Adds before s →
      List.Forall₂ (Answered before (createJobs ctx before s submissions).1) submissions
        (createJobs ctx before s submissions).2 ∧
      Adds s (createJobs ctx before s submissions).1 := by
  induction submissions with
  | nil => exact fun {s} _ _ => ⟨.nil, .refl s⟩
  | cons submission rest ih =>
    intro s hinv hadds
    unfold createJobs
    cases hlook : lookupSubmission ctx before submission with
    | error err =>
      obtain ⟨hrest, hlater⟩ := ih hinv hadds
      exact ⟨.cons (answered_refused before _ submission err) hrest, hlater⟩
    | ok found =>
      cases found with
      | some jobID =>
        obtain ⟨hrest, hlater⟩ := ih hinv hadds
        have hansw : Answered before before submission (.replayed jobID) :=
          answered_replayed (lookupSubmission_ok hlook).replayed
        exact ⟨.cons (hansw.later (hadds.trans hlater)) hrest, hlater⟩
      | none =>
        have hfree := (lookupSubmission_ok hlook).unburied hadds.tombstones
        obtain ⟨hansw, hins⟩ :=
          insertSubmission_answered ctx hinv hadds.nextID submission
        obtain ⟨hrest, hlater⟩ := ih (insertSubmission_onward hinv hfree).1.inv
          (hadds.trans hins)
        exact ⟨.cons (hansw.later hlater) hrest, hins.trans hlater⟩

theorem createJobs_same (ctx : Ctx) (before : Store) (submissions : List Submission) :
    ∀ {s : Store}, (∀ answer ∈ (createJobs ctx before s submissions).2,
      answer.isCreated = false) → (createJobs ctx before s submissions).1 = s := by
  induction submissions with
  | nil => exact fun _ => rfl
  | cons submission rest ih =>
    intro s hnone
    unfold createJobs at hnone ⊢
    cases hlook : lookupSubmission ctx before submission with
    | error err =>
      rw [hlook] at hnone
      exact ih fun answer hmem => hnone answer (List.mem_cons_of_mem _ hmem)
    | ok found =>
      rw [hlook] at hnone
      cases found with
      | some jobID => exact ih fun answer hmem => hnone answer (List.mem_cons_of_mem _ hmem)
      | none =>
        have hfst := hnone (insertSubmission ctx s submission).2 List.mem_cons_self
        have hsame : (insertSubmission ctx s submission).1 = s := by
          unfold insertSubmission at hfst ⊢
          split
          · rfl
          next hfree =>
            rw [if_neg hfree] at hfst
            split
            · rfl
            next hseat =>
              rw [hseat] at hfst
              cases hfst
        have hrest := ih (s := (insertSubmission ctx s submission).1)
          fun answer hmem => hnone answer (List.mem_cons_of_mem _ hmem)
        exact hrest.trans hsame

theorem createJobs_replayed (ctx : Ctx) (before : Store) (submissions : List Submission) :
    ∀ {s : Store}, ∀ p ∈ submissions.zip (createJobs ctx before s submissions).2, ∀ {jobID},
      lookupSubmission ctx before p.1 = .ok (some jobID) → p.2 = .replayed jobID := by
  induction submissions with
  | nil =>
    intro s p hp
    cases hp
  | cons submission rest ih =>
    intro s p hp jobID hlook
    unfold createJobs at hp
    rw [List.zip_cons_cons] at hp
    rcases List.mem_cons.mp hp with rfl | hp
    · simp only at hlook
      rw [hlook]
    · exact ih p hp hlook

/-! ## 3. Runs -/

/-- What the submissions of an operation are answered with, where its door opens. -/
def answers (s : Store) (e : Event) (submissions : List Submission) : List SubmitAnswer :=
  match openDoor e.config e.door s with
  | some (ctx, opened) => (createJobs ctx opened opened submissions).2
  | none => []

theorem step_submit {ctx : Ctx} {opened : Store} (hop : e.op = .submit submissions)
    (hdoor : openDoor e.config e.door s = some (ctx, opened)) :
    step s e = (createJobs ctx opened opened submissions).1 ∨
      step s e = s ∧ ∀ answer ∈ (createJobs ctx opened opened submissions).2,
        answer.isCreated = false := by
  have htx : e.op.tx ctx opened = submit ctx submissions opened := by rw [hop]; rfl
  unfold step runTx
  rw [hdoor]
  dsimp only
  rw [htx]
  unfold submit answerIf
  generalize createJobs ctx opened opened submissions = batch
  dsimp only
  split
  next hnone => exact .inr ⟨rfl, by simpa using hnone⟩
  · exact .inl rfl

theorem answers_answered (hinv : Inv False s) (hop : e.op = .submit submissions) :
    ∀ p ∈ submissions.zip (answers s e submissions), Answered s (step s e) p.1 p.2 := by
  intro p hp
  unfold answers at hp
  split at hp
  next ctx opened hdoor =>
    have hopd := onward_openDoor hinv hdoor
    obtain ⟨hansw, -⟩ := createJobs_answered ctx submissions hopd.inv (.refl opened)
    have hp' := List.forall₂_zip hansw hp
    obtain ⟨-, ⟨leases, rfl⟩, -⟩ := openDoor_ok hdoor
    have hp' : Answered s _ p.1 p.2 := ⟨hp'.holds, hp'.created, hp'.scope⟩
    rcases step_submit hop hdoor with hstep | ⟨hstep, hnone⟩
    · rw [hstep]
      exact hp'
    · rw [createJobs_same ctx _ submissions hnone] at hp'
      rw [hstep]
      exact hp'.later ⟨id, rfl, le_rfl⟩
  · simp at hp

theorem hash_eq_of_holds (hinv : Inv False s) {hash' i j : Nat} (h : Holds s key hash i)
    (h' : Holds s key hash' j) : i = j ∧ hash = hash' := by
  have hid := hinv.keys.unique not_false h h'
  subst hid
  refine ⟨rfl, ?_⟩
  cases h with
  | job job hfind hkey hhash =>
    cases h' with
    | job job' hfind' _ hhash' =>
      rw [hfind] at hfind'
      cases hfind'
      exact hhash.symm.trans hhash'
    | tombstone tombstone hfind' _ hhash' =>
      exact hhash.symm.trans ((hinv.keys.buried hfind' hfind).2.symm.trans hhash')
  | tombstone tombstone hfind _ hhash =>
    cases h' with
    | job job' hfind' _ hhash' =>
      exact hhash.symm.trans ((hinv.keys.buried hfind hfind').2.trans hhash')
    | tombstone tombstone' hfind' _ hhash' =>
      rw [hfind] at hfind'
      cases hfind'
      exact hhash.symm.trans hhash'

/-- What a submission whose key belongs to something is answered with: not with a new job; not at
all, if it asks for something else; and with what the key belongs to, if it asks for the same, is
valid, and its caller is in scope with a live credential if it has one. -/
structure Repeats (s : Store) (e : Event) (jobID requestHash : Nat) (submission : Submission)
    (answer : SubmitAnswer) : Prop where
  uncreated : answer.isCreated = false
  differs : submission.requestHash ≠ requestHash → ∃ err, answer = .refused err
  same : submission.requestHash = requestHash → checkSubmission submission = .ok () →
    InScope s submission jobID →
    (∀ ctx opened, openDoor e.config e.door s = some (ctx, opened) →
      ∀ parent ∈ submission.origin.parent,
        revalidateAttemptCredential ctx opened parent submission.retiring = .ok ()) →
    answer = .replayed jobID

theorem lt_nextID_of_holds (hinv : Inv False s) (h : Holds s key hash id) : id < s.nextID := by
  cases h with
  | job job hfind _ _ => exact hinv.fresh.jobs hfind
  | tombstone tombstone hfind _ _ => exact hinv.fresh.tombstones hfind

theorem repeats_of_holds (hinv : Inv False s) (hop : e.op = .submit submissions)
    (p : Submission × SubmitAnswer) (hp : p ∈ submissions.zip (answers s e submissions))
    (hholds : Holds s p.1.spec.dispatchKey hash id) : Repeats s e id hash p.1 p.2 := by
  have hstep : Onward False (fun _ => .all) s (step s e) :=
    (step_outcome hinv e fun hc => by rw [hop] at hc; cases hc).onward
  have hansw := answers_answered hinv hop p hp
  have hheld := hstep.follows.holds not_false hholds
  have hnew : ∀ {jobID}, p.2 ≠ .created jobID := by
    intro jobID hcrt
    have hsame := (hash_eq_of_holds hstep.inv hheld
      (hansw.holds jobID (by rw [hcrt]; rfl))).1
    have hle := hansw.created hcrt
    have hlt := lt_nextID_of_holds hinv hholds
    omega
  refine ⟨?_, fun hdiff => ?_, fun hsame hchecked hscope hcred => ?_⟩
  · cases hanswer : p.2 with
    | created jobID => exact absurd hanswer hnew
    | replayed jobID => rfl
    | refused err => rfl
  · cases hanswer : p.2 with
    | created jobID => exact absurd hanswer hnew
    | replayed jobID =>
      have hsame := (hash_eq_of_holds hstep.inv hheld
        (hansw.holds jobID (by rw [hanswer]; rfl))).2
      exact absurd hsame.symm hdiff
    | refused err => exact ⟨err, rfl⟩
  · unfold answers at hp
    split at hp
    next ctx opened hdoor =>
      have hlive := hcred ctx opened hdoor
      have hopd := onward_openDoor hinv hdoor
      obtain ⟨-, ⟨leases, rfl⟩, -⟩ := openDoor_ok hdoor
      have hadds : Adds s { s with leases := leases } := ⟨fun hj => hj, rfl, le_rfl⟩
      rw [← hsame] at hholds
      exact createJobs_replayed ctx _ submissions p hp (lookupSubmission_of_replay hchecked hlive
        (replayDispatchKey_of_holds hopd.inv (hadds.holds hholds) (hadds.inScope hscope)))
    · simp at hp

/-- **One job per dispatch key.** In a run without clones and imports, whatever is submitted, raced,
retried and removed, no two identifiers ever hold one key. Every answer names what the key
belongs to under the request it was asked with, and two submissions of one key that both find it
free are answered with one job. A key that belongs to something is never given to a new job: a
different request is refused, and the same request of a caller in scope is answered with it. An
attempt credential is shown nothing but jobs on record that were submitted through its own
job. -/
theorem dispatch_key_has_one_job (events later : List Event)
    (hcopies : ∀ e ∈ events ++ later, e.op.copies = false) :
    (∀ {key hash hash' i j}, Holds (reached events) key hash i →
      Holds (reached (events ++ later)) key hash' j → i = j ∧ hash = hash') ∧
    (∀ {e submissions}, e.op = .submit submissions →
      (∀ p ∈ submissions.zip (answers (reached events) e submissions),
        Answered (reached events) (step (reached events) e) p.1 p.2) ∧
      (∀ p ∈ submissions.zip (answers (reached events) e submissions),
        ∀ q ∈ submissions.zip (answers (reached events) e submissions),
          p.1.spec.dispatchKey = q.1.spec.dispatchKey →
          ∀ i ∈ named p.2, ∀ j ∈ named q.2, i = j ∧ p.1.requestHash = q.1.requestHash) ∧
      (∀ p ∈ submissions.zip (answers (reached events) e submissions),
        ∀ {hash id}, Holds (reached events) p.1.spec.dispatchKey hash id →
          Repeats (reached events) e id hash p.1 p.2)) := by
  have hfree : ∀ {es : List Event}, (∀ e ∈ es, e.op.copies = false) →
      ∀ {s : Store}, Inv False s → Onward False (fun _ => .all) s (Runs.exec step s es) := by
    intro es hes s hinv
    exact exec_onward es hinv fun e he hc => by rw [hes e he] at hc; cases hc
  have hinv : Inv False (reached events) :=
    (hfree (fun e he => hcopies e (List.mem_append_left later he)) (inv_openStore False)).inv
  have hlater := hfree (fun e he => hcopies e (List.mem_append_right events he)) hinv
  rw [← reached_append] at hlater
  refine ⟨fun h h' => hash_eq_of_holds hlater.inv (hlater.follows.holds not_false h) h',
    fun {e submissions} hop => ?_⟩
  have hstep : Onward False (fun _ => .all) (reached events) (step (reached events) e) :=
    (step_outcome hinv e fun hc => by rw [hop] at hc; cases hc).onward
  have hansw := answers_answered hinv hop
  refine ⟨hansw, fun p hp q hq hkey i hi j hj => ?_, fun p hp {hash id} =>
    repeats_of_holds hinv hop p hp⟩
  have hq' := (hansw q hq).holds j hj
  rw [← hkey] at hq'
  exact hash_eq_of_holds hstep.inv ((hansw p hp).holds i hi) hq'

/-! ## 4. A child that was removed -/

/-- What the first attempt of the run in [`Wefty.Fencing`] submits: a service. -/
def childSubmission : Submission :=
  { Fencing.submission { dispatchKey := 8, kind := .process, jobClass := .service } with
    requestHash := 10
    origin := ⟨none, some ⟨2, 1, 1, some 5, 0⟩⟩ }

def submitsChild : Event := at_ second 0 (.submit [childSubmission])

def withChild : List Event := [registers 0, submits 0, claims 0, submitsChild]

def withoutChild : List Event := withChild ++ [at_ second 0 (.service 3 (.remove (.ok ())))]

/-- A removed child leaves its key to its tombstone. -/
theorem child_key_outlives_child :
    ∃ i j, Holds (reached withChild) 8 10 i ∧ Holds (reached withoutChild) 8 10 j ∧ i = j := by
  have hrow : ((reached withChild).jobs.find 3).map
      (fun job => (job.spec.dispatchKey, job.requestHash)) = some (8, 10) := by decide +kernel
  have hburied : ((reached withoutChild).tombstones.find 3).map
      (fun t => (t.dispatchKey, t.requestHash)) = some (8, 10) := by decide +kernel
  obtain ⟨job, hjob, hcols⟩ := Option.map_eq_some_iff.mp hrow
  obtain ⟨tombstone, htomb, hcols'⟩ := Option.map_eq_some_iff.mp hburied
  injection hcols with hkey hhash
  injection hcols' with hkey' hhash'
  have hbef : Holds (reached withChild) 8 10 3 := .job job hjob hkey hhash
  have haft : Holds (reached withoutChild) 8 10 3 := .tombstone tombstone htomb hkey' hhash'
  have hone := dispatch_key_has_one_job withChild [at_ second 0 (.service 3 (.remove (.ok ())))]
    (by decide)
  exact ⟨3, 3, hbef, haft, (hone.1 hbef haft).1⟩

/-- The submission of the child is answered with the child while it is there. Once it is removed,
the key still belongs to it, and the same submission by the same attempt is refused. A client
principal is answered with the tombstone. -/
theorem removed_child_is_out_of_scope :
    answers (reached withChild) submitsChild [childSubmission] = [.replayed 3] ∧
    ((reached withoutChild).tombstones.find 3).map (fun t => (t.dispatchKey, t.requestHash)) =
      some (8, 10) ∧
    answers (reached withoutChild) submitsChild [childSubmission] =
      [.refused (dispatchKeyConflict 8)] ∧
    answers (reached withoutChild) submitsChild
      [{ childSubmission with origin := ⟨some 6, none⟩ }] = [.replayed 3] := by
  refine ⟨?_, ?_, ?_, ?_⟩ <;> decide +kernel

end Wefty.DispatchKeys
