/-
The dispatch hold and its admission probes (`l3/dispatch_hold.go`).

While L1 refuses the ledger, dispatch is held, and now and then one pass probes whether the ledger
is admitted again. Every call is several steps with the lock released in between: a refusal reads
before it writes, a reservation reads before its transaction, and a probe is answered any time after
it was reserved, or never. What decides whether a late success may clear the hold is the row alone:
the probe's identity and the generation it was reserved at.

`log` is no column. It has every write of a refusal and every reservation, newest first, so that
"nothing since this probe was reserved" is that the reservation is its first entry. A probe that is
abandoned stays among those in flight. Identifiers are fresh, and the empty one is `none`.
-/
import Mathlib.Algebra.Group.Int.Defs
import Wefty.Runs

set_option autoImplicit false

namespace Wefty.DispatchHold

open Runs

/-! ## 1. The row -/

/-- The one row of `dispatch_hold`. -/
structure Hold where
  generation : Nat := 0
  sinceNS : Option Int := none
  reason : String := ""
  nextProbeNS : Int := 0
  failures : Nat := 0
  probeID : Option Nat := none
  probeUntilNS : Int := 0

/-- `dispatchProbe`, with the time and the end of its reservation. -/
structure Probe where
  id : Nat
  generation : Nat
  reservedNS : Int
  untilNS : Int
  deriving DecidableEq

def second : Int := 10 ^ 9

/-- A count that is negative in the source counts as 0. -/
def dispatchRetryBackoff (failures : Nat) : Int :=
  if 5 < failures then 60 * second else second * 2 ^ failures

namespace Hold

/-- The read of `holdDispatch`: a refusal that changes nothing is not written. -/
def recorded (hold : Hold) (reason : String) : Bool :=
  hold.sinceNS.isSome && hold.reason = reason && hold.probeID.isNone

/-- The write of `holdDispatch`: a refusal during a probe makes the probe's answer stale. -/
def refuse (hold : Hold) (reason : String) (now : Int) : Hold :=
  if hold.sinceNS.isNone ∨ hold.reason ≠ reason ∨ hold.probeID.isSome then
    { hold with
      generation :=
        if hold.generation = 0 then 1
        else if hold.probeID.isSome then hold.generation + 1
        else hold.generation
      sinceNS := some (hold.sinceNS.getD now)
      reason := reason
      nextProbeNS := if hold.sinceNS.isNone then now + second else hold.nextProbeNS
      failures := if hold.sinceNS.isNone then 0 else hold.failures }
  else hold

/-- `readDue`. -/
def due (hold : Hold) (now : Int) : Bool :=
  hold.sinceNS.isSome && hold.nextProbeNS ≤ now && hold.probeUntilNS ≤ now

/-- The write of `reserveDispatchProbe`. -/
def reserve (hold : Hold) (probe : Probe) : Hold :=
  { hold with probeID := some probe.id, probeUntilNS := probe.untilNS }

/-- `finishDispatchProbe`. -/
def finish (hold : Hold) (probe : Probe) (admitted : Bool) (now : Int) : Hold :=
  if hold.probeID ≠ some probe.id then hold
  else if admitted ∧ hold.generation = probe.generation then
    { generation := hold.generation }
  else
    { hold with
      failures := hold.failures + 1
      nextProbeNS := now + dispatchRetryBackoff hold.failures
      probeID := none
      probeUntilNS := 0 }

end Hold

/-! ## 2. Runs -/

inductive Entry
  | refused
  | reserved (probe : Probe)

/-- The row, the calls between their read and their write, the probes under way, and what was
written, newest first. -/
structure System where
  hold : Hold := {}
  refusing : List String := []
  reserving : List Int := []
  probes : List Probe := []
  nextID : Nat := 1
  log : List Entry := []

inductive Op
  | readHold (reason : String)
  | refuse (reason : String) (now : Int)
  | readDue (budget now : Int)
  | reserve (budget now : Int)
  | finish (probe : Probe) (admitted : Bool) (now : Int)

def System.probe (s : System) (budget now : Int) : Probe where
  id := s.nextID
  generation := s.hold.generation
  reservedNS := now
  untilNS := now + (budget + second)

def step (s : System) : Op → System
  | .readHold reason =>
    if s.hold.recorded reason then s else { s with refusing := reason :: s.refusing }
  | .refuse reason now =>
    if reason ∈ s.refusing then
      { s with
        hold := s.hold.refuse reason now
        refusing := s.refusing.erase reason
        log := .refused :: s.log }
    else s
  | .readDue budget now =>
    if s.hold.due now then { s with reserving := budget :: s.reserving } else s
  | .reserve budget now =>
    if budget ∈ s.reserving ∧ s.hold.due now then
      { s with
        hold := s.hold.reserve (s.probe budget now)
        reserving := s.reserving.erase budget
        probes := s.probe budget now :: s.probes
        nextID := s.nextID + 1
        log := .reserved (s.probe budget now) :: s.log }
    else { s with reserving := s.reserving.erase budget }
  | .finish probe admitted now =>
    if probe ∈ s.probes then
      { s with
        hold := s.hold.finish probe admitted now
        probes := s.probes.filter fun p => p.id ≠ probe.id }
    else s

def reached (ops : List Op) : System := exec step {} ops

/-! ## 3. The invariant -/

/-- A reserved probe was the last to be reserved, every refusal since has moved the generation on,
and every other probe in flight has expired by the time of a later reservation. -/
structure Inv (s : System) : Prop where
  fresh : ∀ probe ∈ s.probes, probe.id < s.nextID
  fenced : ∀ id, s.hold.probeID = some id → ∃ n probe rest,
    s.log = List.replicate n .refused ++ .reserved probe :: rest ∧ probe.id = id ∧
      probe.generation + n ≤ s.hold.generation ∧ probe.untilNS = s.hold.probeUntilNS ∧
      ∀ q ∈ s.probes, q.id = id → q = probe
  expired : ∀ probe ∈ s.probes, s.hold.probeID = some probe.id ∨
    ∃ q, .reserved q ∈ s.log ∧ probe.untilNS ≤ q.reservedNS

theorem inv_start : Inv {} := ⟨nofun, nofun, nofun⟩

theorem inv_refuse {s : System} (h : Inv s) (reason : String) (now : Int) (refusing : List String) :
    Inv { s with
      hold := s.hold.refuse reason now
      refusing := refusing
      log := .refused :: s.log } := by
  have hprobe : (s.hold.refuse reason now).probeID = s.hold.probeID ∧
      (s.hold.refuse reason now).probeUntilNS = s.hold.probeUntilNS := by
    unfold Hold.refuse
    split <;> exact ⟨rfl, rfl⟩
  refine ⟨h.fresh, ?_, ?_⟩
  · intro id hid
    dsimp only at hid ⊢
    rw [hprobe.1] at hid
    obtain ⟨n, probe, rest, hlog, hprobeID, hgen, huntil, hsole⟩ := h.fenced id hid
    refine ⟨n + 1, probe, rest, ?_, hprobeID, ?_, huntil.trans hprobe.2.symm, hsole⟩
    · rw [hlog, List.replicate_succ, List.cons_append]
    have hmvd : s.hold.generation + 1 ≤ (s.hold.refuse reason now).generation := by
      unfold Hold.refuse
      rw [if_pos (.inr (.inr (by rw [hid]; rfl)))]
      dsimp only
      by_cases hzero : s.hold.generation = 0
      · rw [if_pos hzero]
        omega
      · refine Nat.le_of_eq ?_
        rw [if_neg hzero, if_pos (by rw [hid]; rfl)]
    omega
  · intro probe hmem
    dsimp only
    rw [hprobe.1]
    refine (h.expired probe hmem).imp_right ?_
    rintro ⟨q, hq, hle⟩
    exact ⟨q, List.mem_cons_of_mem _ hq, hle⟩

theorem inv_reserve {s : System} (h : Inv s) {budget now : Int} (hdue : s.hold.due now)
    (reserving : List Int) :
    Inv { s with
      hold := s.hold.reserve (s.probe budget now)
      reserving := reserving
      probes := s.probe budget now :: s.probes
      nextID := s.nextID + 1
      log := .reserved (s.probe budget now) :: s.log } := by
  refine ⟨?_, ?_, ?_⟩
  · intro probe hmem
    rcases List.mem_cons.mp hmem with rfl | hmem
    · exact Nat.lt_succ_self _
    · exact Nat.lt_succ_of_lt (h.fresh probe hmem)
  · rintro id hid
    cases hid
    refine ⟨0, s.probe budget now, s.log, rfl, rfl, Nat.le_refl _, rfl, ?_⟩
    intro q hq hid
    refine (List.mem_cons.mp hq).resolve_right fun hold => ?_
    have hlt := h.fresh q hold
    have heq : q.id = s.nextID := hid
    omega
  · intro probe hmem
    rcases List.mem_cons.mp hmem with rfl | hmem
    · exact .inl rfl
    -- the row's own probe has expired, or it would not be due
    · right
      rcases h.expired probe hmem with hid | ⟨q, hq, hle⟩
      · obtain ⟨_, p, _, _, _, _, huntil, hsole⟩ := h.fenced probe.id hid
        refine ⟨s.probe budget now, List.mem_cons_self, ?_⟩
        simp only [Hold.due, Bool.and_eq_true, decide_eq_true_eq] at hdue
        rw [hsole probe hmem rfl, huntil]
        exact hdue.2
      · exact ⟨q, List.mem_cons_of_mem _ hq, hle⟩

theorem inv_finish {s : System} (h : Inv s) (probe : Probe) (admitted : Bool) (now : Int) :
    Inv { s with
      hold := s.hold.finish probe admitted now
      probes := s.probes.filter fun p => p.id ≠ probe.id } := by
  have hsub : ∀ q ∈ s.probes.filter fun p => p.id ≠ probe.id, q ∈ s.probes ∧ q.id ≠ probe.id := by
    intro q hq
    simpa using List.mem_filter.mp hq
  have hrow : (s.hold.finish probe admitted now) = s.hold ∧ s.hold.probeID ≠ some probe.id ∨
      (s.hold.finish probe admitted now).probeID = none ∧ s.hold.probeID = some probe.id := by
    unfold Hold.finish
    by_cases hid : s.hold.probeID ≠ some probe.id
    · rw [if_pos hid]
      exact .inl ⟨rfl, hid⟩
    · rw [if_neg hid]
      refine .inr ⟨?_, not_not.mp hid⟩
      split <;> rfl
  refine ⟨fun q hq => h.fresh q (hsub q hq).1, ?_, ?_⟩
  · intro id hid
    rcases hrow with ⟨hsame, _⟩ | ⟨hnone, _⟩
    · rw [hsame] at hid ⊢
      obtain ⟨n, p, rest, hlog, hprobeID, hgen, huntil, hsole⟩ := h.fenced id hid
      exact ⟨n, p, rest, hlog, hprobeID, hgen, huntil, fun q hq => hsole q (hsub q hq).1⟩
    · rw [hnone] at hid
      cases hid
  · intro q hq
    obtain ⟨hmem, hne⟩ := hsub q hq
    refine (h.expired q hmem).imp_left fun hid => ?_
    rcases hrow with ⟨hsame, _⟩ | ⟨_, hown⟩
    · rw [hsame]
      exact hid
    · rw [hown] at hid
      exact absurd (Option.some.inj hid).symm hne

theorem inv_step {s : System} (h : Inv s) (op : Op) : Inv (step s op) := by
  cases op with
  | readHold reason =>
    unfold step
    dsimp only
    split
    · exact h
    · exact ⟨h.fresh, h.fenced, h.expired⟩
  | refuse reason now =>
    unfold step
    dsimp only
    split
    · exact inv_refuse h reason now _
    · exact h
  | readDue budget now =>
    unfold step
    dsimp only
    split
    · exact ⟨h.fresh, h.fenced, h.expired⟩
    · exact h
  | reserve budget now =>
    unfold step
    dsimp only
    split
    · rename_i hdue
      exact inv_reserve h hdue.2 _
    · exact ⟨h.fresh, h.fenced, h.expired⟩
  | finish probe admitted now =>
    unfold step
    dsimp only
    split
    · exact inv_finish h probe admitted now
    · exact h

theorem inv_reached (ops : List Op) : Inv (reached ops) :=
  exec_invariant (P := Inv) (fun _ op h => inv_step h op) inv_start ops

/-! ## 4. The onset -/

theorem since_step (s : System) (op : Op) : (step s op).hold.sinceNS = s.hold.sinceNS ∨
      (s.hold.sinceNS = none ∧ ∃ reason now, op = .refuse reason now ∧
        (step s op).hold.sinceNS = some now) ∨
      ((step s op).hold.sinceNS = none ∧ ∃ probe now, op = .finish probe true now ∧
        probe ∈ s.probes ∧ s.hold.probeID = some probe.id ∧
        s.hold.generation = probe.generation) := by
  cases op with
  | readHold | readDue | reserve =>
    left
    unfold step
    dsimp only
    split <;> rfl
  | refuse reason now =>
    unfold step Hold.refuse
    dsimp only
    split
    · dsimp only
      split
      · cases hsince : s.hold.sinceNS with
        | none => exact .inr (.inl ⟨rfl, reason, now, rfl, rfl⟩)
        | some since => exact .inl rfl
      · exact .inl rfl
    · exact .inl rfl
  | finish probe admitted now =>
    unfold step Hold.finish
    dsimp only
    split
    · rename_i hmem
      dsimp only
      split
      · exact .inl rfl
      rename_i hid
      split
      · rename_i hclears
        refine .inr (.inr ⟨rfl, probe, now, ?_, hmem, not_not.mp hid, hclears.2⟩)
        rw [hclears.1]
      · exact .inl rfl
    · exact .inl rfl

/-- **Admission probes are fenced.** Wherever calls lead: a finish that clears the hold is the
successful one of a probe since whose reservation neither a refusal was written nor another
probe reserved; of the probes in flight at most one is unexpired, at any time that is no earlier
than the reservations made so far; and the onset is the time of the refusal that set it, until
the hold is cleared. -/
theorem admission_probes_are_fenced (ops : List Op) :
    (∀ op, (reached ops).hold.sinceNS ≠ none → (step (reached ops) op).hold.sinceNS = none →
      ∃ probe now rest, op = .finish probe true now ∧
        (reached ops).log = .reserved probe :: rest) ∧
    (∀ t, (∀ p, .reserved p ∈ (reached ops).log → p.reservedNS ≤ t) →
      ∀ p ∈ (reached ops).probes, ∀ q ∈ (reached ops).probes,
        t < p.untilNS → t < q.untilNS → p = q) ∧
    ((∀ op since, (reached ops).hold.sinceNS = none →
        (step (reached ops) op).hold.sinceNS = some since → ∃ reason, op = .refuse reason since) ∧
      ∀ since later, (reached ops).hold.sinceNS = some since →
        (∀ mid, mid <+: later → (reached (ops ++ mid)).hold.sinceNS ≠ none) →
        (reached (ops ++ later)).hold.sinceNS = some since) := by
  have hinv := inv_reached ops
  refine ⟨?_, ?_, ?_, ?_⟩
  · intro op hheld hclr
    rcases since_step (reached ops) op with hsame | ⟨hnone, _⟩ |
      ⟨_, probe, now, hop, hmem, hid, hgen⟩
    · rw [hsame] at hclr
      exact absurd hclr hheld
    · exact absurd hnone hheld
    · obtain ⟨n, p, rest, hlog, _, hgeneration, _, hsole⟩ := hinv.fenced probe.id hid
      rw [← hsole probe hmem rfl] at hlog hgeneration
      have hn : n = 0 := by omega
      rw [hn] at hlog
      exact ⟨probe, now, rest, hop, hlog⟩
  · intro t hpast p hp q hq hlive hlive'
    have hown : ∀ r ∈ (reached ops).probes, t < r.untilNS →
        (reached ops).hold.probeID = some r.id := by
      intro r hr hlt
      refine (hinv.expired r hr).resolve_right ?_
      rintro ⟨later, hlater, hle⟩
      have hle' := hpast later hlater
      omega
    have hpid := hown p hp hlive
    have hids : q.id = p.id := Option.some.inj ((hown q hq hlive').symm.trans hpid)
    obtain ⟨_, _, _, _, _, _, _, hsole⟩ := hinv.fenced p.id hpid
    rw [hsole p hp rfl, hsole q hq hids]
  · intro op since hnone hset
    rcases since_step (reached ops) op with hsame | ⟨_, reason, now, hop, hnow⟩ | ⟨hclr, _⟩
    · rw [hsame, hnone] at hset
      cases hset
    · rw [hnow] at hset
      cases hset
      exact ⟨reason, hop⟩
    · rw [hclr] at hset
      cases hset
  · intro since later hsince
    induction later using List.reverseRecOn with
    | nil => exact fun _ => by rwa [List.append_nil]
    | append_singleton later op ih =>
      intro hheld
      have hbef := ih fun mid hmid => hheld mid (hmid.trans (List.prefix_append _ _))
      have haft := hheld _ List.prefix_rfl
      have hstep : reached (ops ++ (later ++ [op])) = step (reached (ops ++ later)) op := by
        unfold reached
        rw [← List.append_assoc, exec_append]
        rfl
      rw [hstep] at haft ⊢
      rcases since_step (reached (ops ++ later)) op with hsame | ⟨hnone, _⟩ | ⟨hclr, _⟩
      · rw [hsame]
        exact hbef
      · rw [hbef] at hnone
        cases hnone
      · exact absurd hclr haft

end Wefty.DispatchHold
