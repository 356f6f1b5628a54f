/-
The steps of a run (`l3/run_steps.go`): its envelopes, read as brackets.

Over the code's fold, which keeps a stack of indexes for every name and writes into the steps it has
already returned, stands a matching: the position of the end that closes a start. The code's steps
are the starts with this matching in their times, and its stacks are the starts without an end.

`Extensions` arrives decoded: `none` where it is empty or no object, and a namespace whose body does
not decode has `none`. Instants are integers.
-/
import Wefty.Runs
import Mathlib.Data.List.Sort
import Mathlib.Data.String.Basic

set_option autoImplicit false

namespace Wefty.StepBrackets

/-! ## 1. The derivation -/

structure MailboxExtension where
  kind : String
  stepStatus : String
  name : String

/-- What of `contract.Envelope` is read here. -/
structure Envelope where
  envelopeID : String
  createdAt : Int
  stepID : String
  extensions : Option (List (String × Option MailboxExtension))

/-- `elapsed` is the difference that `Seconds` has in seconds. -/
structure RunStep where
  name : String
  startedAt : Int
  endedAt : Option Int
  elapsed : Option Int
  isOpen : Bool

structure RunSteps where
  current : String
  steps : List RunStep

def mailboxExtensionNamespace : String := "dev.wefty.mailbox"
def mailboxKindStep : String := "step"
def mailboxStepStarted : String := "started"
def mailboxStepEnded : String := "ended"

def stepBracket (envelope : Envelope) : Option MailboxExtension := do
  let extension ← (← (← envelope.extensions).lookup mailboxExtensionNamespace)
  guard (extension.kind = mailboxKindStep)
  guard (extension.stepStatus = mailboxStepStarted ∨ extension.stepStatus = mailboxStepEnded)
  return extension

inductive Bracket
  | start (name : String)
  | finish (name : String)
  deriving DecidableEq

/-- The head of the loop body: what the envelope brackets, if anything. -/
def bracketOf (envelope : Envelope) : Option Bracket := do
  let extension ← stepBracket envelope
  let name := if extension.name = "" then envelope.stepID else extension.name
  guard (name ≠ "")
  return if extension.stepStatus = mailboxStepStarted then .start name else .finish name

/-- The comparison of the sort, as `cmp a b ≤ 0`. -/
def Envelope.notAfter (a b : Envelope) : Prop :=
  a.createdAt < b.createdAt ∨ a.createdAt = b.createdAt ∧ a.envelopeID ≤ b.envelopeID

instance : DecidableRel Envelope.notAfter := fun a b => by
  unfold Envelope.notAfter
  infer_instance

/-- The variables of the loop. A stack has its top first. -/
structure Derivation where
  steps : List RunStep := []
  opened : String → List Nat := fun _ => []

def RunStep.close (ended : Int) (step : RunStep) : RunStep :=
  { step with endedAt := some ended, elapsed := some (ended - step.startedAt), isOpen := false }

def Derivation.setOpened (d : Derivation) (name : String) (indexes : List Nat) :
    String → List Nat :=
  fun n => if n = name then indexes else d.opened n

def Derivation.read (d : Derivation) (envelope : Envelope) : Derivation :=
  match bracketOf envelope with
  | none => d
  | some (.start name) => {
      steps := d.steps ++ [⟨name, envelope.createdAt, none, none, true⟩]
      opened := d.setOpened name (d.steps.length :: d.opened name) }
  | some (.finish name) =>
    match d.opened name with
    | [] => d
    | index :: indexes => {
        steps := d.steps.modify index (RunStep.close envelope.createdAt)
        opened := d.setOpened name indexes }

def currentOf (steps : List RunStep) : String :=
  steps.foldl (fun current step => if step.isOpen then step.name else current) ""

def ordered (envelopes : List Envelope) : List Envelope :=
  envelopes.insertionSort Envelope.notAfter

def deriveRunSteps (envelopes : List Envelope) : RunSteps :=
  let d := Runs.exec Derivation.read {} (ordered envelopes)
  { current := currentOf d.steps, steps := d.steps }

/-! ## 2. Order -/

instance : Std.Total Envelope.notAfter where
  total a b := by
    unfold Envelope.notAfter
    rcases lt_trichotomy a.createdAt b.createdAt with h | h | h
    · exact .inl (.inl h)
    · exact (le_total a.envelopeID b.envelopeID).imp (fun hid => .inr ⟨h, hid⟩)
        fun hid => .inr ⟨h.symm, hid⟩
    · exact .inr (.inl h)

instance : IsTrans Envelope Envelope.notAfter where
  trans a b c := by
    rintro (hab | ⟨hab, hid⟩) (hbc | ⟨hbc, hid'⟩)
    · exact .inl (hab.trans hbc)
    · exact .inl (hbc ▸ hab)
    · exact .inl (hab ▸ hbc)
    · exact .inr ⟨hab.trans hbc, hid.trans hid'⟩

theorem ordered_eq_of_perm {envelopes envelopes' : List Envelope}
    (hids : (envelopes.map Envelope.envelopeID).Nodup) (h : envelopes'.Perm envelopes) :
    ordered envelopes' = ordered envelopes := by
  have hperm := List.perm_insertionSort Envelope.notAfter envelopes
  have hperm' := List.perm_insertionSort Envelope.notAfter envelopes'
  refine List.Perm.eq_of_pairwise ?_ (List.pairwise_insertionSort _ _)
    (List.pairwise_insertionSort _ _) (hperm'.trans (h.trans hperm.symm))
  intro a b ha hb hab hba
  have ha := h.mem_iff.mp (hperm'.mem_iff.mp ha)
  have hb := hperm.mem_iff.mp hb
  refine List.inj_on_of_nodup_map hids ha hb ?_
  rcases hab with hab | ⟨hab, hid⟩ <;> rcases hba with hba | ⟨hba, hid'⟩
  · omega
  · omega
  · omega
  · exact le_antisymm hid hid'

/-! ## 3. The matching -/

def bracketAt (l : List Envelope) (i : Nat) : Option Bracket := l[i]?.bind bracketOf

def startsAt (l : List Envelope) (i : Nat) : Bool :=
  match bracketAt l i with
  | some (.start _) => true
  | _ => false

/-- **A matching of the first `n` envelopes**: an end closes a start of its name that is before it,
and no other; where a start is closed, every later one of the name was closed before; and an end
that closes none found every start of its name closed. -/
structure Matched (l : List Envelope) (n : Nat) (closer : Nat → Option Nat) : Prop where
  closes : ∀ {p j}, closer p = some j → p < j ∧ j < n ∧ ∃ name,
    bracketAt l p = some (.start name) ∧ bracketAt l j = some (.finish name)
  sole : ∀ {p p' j}, closer p = some j → closer p' = some j → p = p'
  nested : ∀ {p p' j name}, bracketAt l p = some (.start name) →
    bracketAt l p' = some (.start name) → p < p' → closer p = some j → p' < j →
      ∃ j', closer p' = some j' ∧ j' < j
  unused : ∀ {j name}, j < n → bracketAt l j = some (.finish name) → (∀ p, closer p ≠ some j) →
    ∀ {p}, p < j → bracketAt l p = some (.start name) → ∃ j', closer p = some j' ∧ j' < j

section
variable {l : List Envelope} {n p : Nat} {closer : Nat → Option Nat} {name : String}
variable {d : Derivation} {envelope : Envelope}

/-- No end is here, or one that finds nothing open. -/
theorem Matched.skip (h : Matched l n closer) (hclo : ∀ name,
    bracketAt l n = some (.finish name) → ∀ p < n, bracketAt l p = some (.start name) →
      closer p ≠ none) : Matched l (n + 1) closer where
  closes hj := by
    obtain ⟨hlt, hn, hb⟩ := h.closes hj
    exact ⟨hlt, Nat.lt_succ_of_lt hn, hb⟩
  sole := h.sole
  nested := h.nested
  unused hj hb hfree p hlt hp := by
    rcases Nat.lt_succ_iff_lt_or_eq.mp hj with hj | rfl
    · exact h.unused hj hb hfree hlt hp
    · obtain ⟨j', hj'⟩ := Option.ne_none_iff_exists'.mp (hclo _ hb p hlt hp)
      exact ⟨j', hj', (h.closes hj').2.1⟩

theorem update_cases {q j : Nat} (h : Function.update closer p (some n) q = some j) :
    q = p ∧ j = n ∨ q ≠ p ∧ closer q = some j := by
  by_cases hq : q = p
  · rw [hq, Function.update_self] at h
    exact .inl ⟨hq, (Option.some.inj h).symm⟩
  · rw [Function.update_of_ne hq] at h
    exact .inr ⟨hq, h⟩

/-- An end closes the last open start of its name. -/
theorem Matched.finish (h : Matched l n closer) (hb : bracketAt l n = some (.finish name))
    (hlt : p < n) (hp : bracketAt l p = some (.start name)) (hopen : closer p = none)
    (hlast : ∀ q < n, bracketAt l q = some (.start name) → closer q = none → q ≤ p) :
    Matched l (n + 1) (Function.update closer p (some n)) := by
  have hkept : ∀ {q j}, closer q = some j → Function.update closer p (some n) q = some j := by
    intro q j hq
    rw [Function.update_of_ne ?_, hq]
    rintro rfl
    rw [hopen] at hq
    cases hq
  refine ⟨?_, ?_, ?_, ?_⟩
  · intro q j hq
    rcases update_cases hq with ⟨rfl, rfl⟩ | ⟨-, hq⟩
    · exact ⟨hlt, Nat.lt_succ_self _, name, hp, hb⟩
    · obtain ⟨hqj, hn, hb⟩ := h.closes hq
      exact ⟨hqj, Nat.lt_succ_of_lt hn, hb⟩
  · intro q q' j hq hq'
    rcases update_cases hq with ⟨rfl, hj⟩ | ⟨-, hold⟩ <;>
      rcases update_cases hq' with ⟨rfl, hj'⟩ | ⟨-, hold'⟩
    · rfl
    · exact absurd (h.closes hold').2.1 (by omega)
    · exact absurd (h.closes hold).2.1 (by omega)
    · exact h.sole hold hold'
  · intro q q' j other hbq hbq' hqq' hq hj
    rcases update_cases hq with ⟨rfl, rfl⟩ | ⟨-, hq⟩
    -- a later start that is open would have been closed instead
    · have hname := hp.symm.trans hbq
      cases hname
      have hclo : closer q' ≠ none := fun hnone =>
        absurd (hlast q' hj hbq' hnone) (Nat.not_le_of_lt hqq')
      obtain ⟨j', hj'⟩ := Option.ne_none_iff_exists'.mp hclo
      exact ⟨j', hkept hj', (h.closes hj').2.1⟩
    · obtain ⟨j', hj', hlt'⟩ := h.nested hbq hbq' hqq' hq hj
      exact ⟨j', hkept hj', hlt'⟩
  · intro j other hj hbj hfree q hqj hq
    have hne : j ≠ n := by
      rintro rfl
      exact hfree p (Function.update_self ..)
    obtain ⟨j', hj', hlt'⟩ := h.unused (by omega) hbj (fun q hq => hfree q (hkept hq)) hqj hq
    exact ⟨j', hkept hj', hlt'⟩

/-! ## 4. The code's variables -/

def starts (l : List Envelope) (n : Nat) : List Nat := (List.range n).filter (startsAt l)

def opens (l : List Envelope) (closer : Nat → Option Nat) (n : Nat) (name : String) : List Nat :=
  (List.range n).filter fun p => bracketAt l p = some (.start name) ∧ closer p = none

def timeAt (l : List Envelope) (i : Nat) : Int := (l[i]?.map Envelope.createdAt).getD 0

def nameAt (l : List Envelope) (i : Nat) : String :=
  match bracketAt l i with
  | some (.start name) => name
  | _ => ""

/-- The step that the code has for a start. -/
def render (l : List Envelope) (closer : Nat → Option Nat) (p : Nat) : RunStep where
  name := nameAt l p
  startedAt := timeAt l p
  endedAt := (closer p).map (timeAt l)
  elapsed := (closer p).map fun j => timeAt l j - timeAt l p
  isOpen := (closer p).isNone

/-- The variables of the loop are those of the matching. A step's index is the number of starts
before its own. -/
structure Renders (l : List Envelope) (n : Nat) (closer : Nat → Option Nat) (d : Derivation) :
    Prop where
  steps : d.steps = (starts l n).map (render l closer)
  opened : ∀ name, d.opened name = (opens l closer n name).reverse.map fun p => (starts l p).length

theorem starts_succ (l : List Envelope) (n : Nat) :
    starts l (n + 1) = starts l n ++ if startsAt l n then [n] else [] := by
  unfold starts
  rw [List.range_succ, List.filter_append, List.filter_singleton]
  cases startsAt l n <;> rfl

theorem opens_succ (l : List Envelope) (closer : Nat → Option Nat) (n : Nat) (name : String) :
    opens l closer (n + 1) name = opens l closer n name ++
      if bracketAt l n = some (.start name) ∧ closer n = none then [n] else [] := by
  unfold opens
  rw [List.range_succ, List.filter_append]
  simp [List.filter_singleton]

theorem mem_opens : p ∈ opens l closer n name ↔
    p < n ∧ bracketAt l p = some (.start name) ∧ closer p = none := by
  simp [opens]

theorem starts_split (hlt : p < n) (hp : startsAt l p) :
    ∃ later, starts l n = starts l p ++ p :: later ∧ ∀ q ∈ later, p < q := by
  obtain ⟨r, rfl⟩ := Nat.exists_eq_add_of_lt hlt
  refine ⟨((List.range r).map (p + 1 + ·)).filter (startsAt l), ?_, fun q hq => ?_⟩
  · have hrange : List.range (p + r + 1) = List.range (p + 1) ++
        (List.range r).map (p + 1 + ·) := by
      rw [show p + r + 1 = p + 1 + r by omega, List.range_add]
    unfold starts
    rw [hrange, List.filter_append]
    show starts l (p + 1) ++ _ = _
    rw [starts_succ, if_pos hp, List.append_assoc]
    rfl
  · obtain ⟨i, -, rfl⟩ := List.mem_map.mp (List.mem_filter.mp hq).1
    omega

theorem modify_middle {α : Type} (a b : List α) (x : α) (f : α → α) :
    (a ++ x :: b).modify a.length f = a ++ f x :: b := by
  induction a with
  | nil => rfl
  | cons y a ih => exact congrArg (y :: ·) ih

theorem Renders.skip (h : Renders l n closer d) (hstart : startsAt l n = false) :
    Renders l (n + 1) closer d := by
  refine ⟨?_, fun name => ?_⟩
  · rw [starts_succ, hstart, h.steps]
    exact congrArg _ (List.append_nil _).symm
  have hnone : bracketAt l n ≠ some (.start name) := by
    intro hb
    unfold startsAt at hstart
    rw [hb] at hstart
    cases hstart
  rw [opens_succ, if_neg fun hb => hnone hb.1, List.append_nil, h.opened]

theorem Renders.start (h : Renders l n closer d) (hn : l[n]? = some envelope)
    (hb : bracketAt l n = some (.start name)) (hopen : closer n = none) :
    Renders l (n + 1) closer {
      steps := d.steps ++ [⟨name, envelope.createdAt, none, none, true⟩]
      opened := d.setOpened name (d.steps.length :: d.opened name) } := by
  refine ⟨?_, fun other => ?_⟩
  · rw [starts_succ, if_pos (by unfold startsAt; rw [hb]), List.map_append, h.steps]
    simp [render, nameAt, timeAt, hn, hb, hopen]
  dsimp only [Derivation.setOpened]
  rw [opens_succ]
  by_cases hoth : other = name
  · rw [if_pos hoth, if_pos ⟨hoth ▸ hb, hopen⟩, List.reverse_append, h.steps, h.opened, hoth]
    simp
  · have hne : bracketAt l n ≠ some (.start other) := by
      rw [hb]
      exact fun heq => hoth (Bracket.start.inj (Option.some.inj heq)).symm
    rw [if_neg hoth, if_neg fun hb => hne hb.1, List.append_nil, h.opened]

theorem Renders.finish (h : Renders l n closer d) (hn : l[n]? = some envelope) (hlt : p < n)
    (hp : bracketAt l p = some (.start name)) {before : List Nat}
    (hopens : opens l closer n name = before ++ [p]) :
    Renders l n (Function.update closer p (some n)) {
      steps := d.steps.modify (starts l p).length (RunStep.close envelope.createdAt)
      opened := d.setOpened name (before.reverse.map fun p => (starts l p).length) } := by
  have hsame : ∀ q, q ≠ p → render l (Function.update closer p (some n)) q = render l closer q := by
    intro q hq
    unfold render
    rw [Function.update_of_ne hq]
  refine ⟨?_, fun other => ?_⟩
  · obtain ⟨later, hstarts, hlater⟩ := starts_split (l := l) hlt (by unfold startsAt; rw [hp])
    have hearl : ∀ q ∈ starts l p, q ≠ p := by
      intro q hq
      exact (List.mem_range.mp (List.mem_filter.mp hq).1).ne
    have hclo : render l (Function.update closer p (some n)) p =
        RunStep.close envelope.createdAt (render l closer p) := by
      simp [render, RunStep.close, timeAt, hn]
    rw [h.steps, hstarts, List.map_append, List.map_append, List.map_cons, List.map_cons, hclo,
      List.map_congr_left fun q hq => hsame q (hearl q hq),
      List.map_congr_left fun q hq => hsame q (hlater q hq).ne']
    rw [← List.length_map (render l closer)]
    exact modify_middle _ _ _ _
  · dsimp only [Derivation.setOpened]
    by_cases hoth : other = name
    · rw [if_pos hoth, hoth]
      congr 2
      have hrest : opens l (Function.update closer p (some n)) n name =
          (opens l closer n name).filter (· ≠ p) := by
        unfold opens
        rw [List.filter_filter]
        refine List.filter_congr fun q _ => ?_
        by_cases hq : q = p
        · simp [hq]
        · simp [hq]
      have hnodup : (before ++ [p]).Nodup := hopens ▸ List.nodup_range.filter _
      have hfree : ∀ q ∈ before, decide (q ≠ p) = true := by
        intro q hq
        have hne := (List.nodup_append.mp hnodup).2.2 q hq p (List.mem_singleton_self p)
        exact decide_eq_true hne
      rw [hrest, hopens, List.filter_append, List.filter_eq_self.mpr hfree]
      simp
    · rw [if_neg hoth, h.opened]
      congr 2
      refine List.filter_congr fun q _ => ?_
      by_cases hq : q = p
      · have hne : some (Bracket.start name) ≠ some (.start other) := by
          simpa using fun heq => hoth heq.symm
        simp [hq, hp, hne]
      · rw [Function.update_of_ne hq]

theorem read_matched (h : Matched l n closer) (hd : Renders l n closer d)
    (hn : l[n]? = some envelope) : ∃ closer', Matched l (n + 1) closer' ∧
      Renders l (n + 1) closer' (d.read envelope) := by
  have hb : bracketAt l n = bracketOf envelope := by
    unfold bracketAt
    rw [hn, Option.bind_some]
  unfold Derivation.read
  cases hread : bracketOf envelope with
  | none =>
    rw [hread] at hb
    have hstart : startsAt l n = false := by unfold startsAt; rw [hb]
    exact ⟨closer, h.skip (fun name hname => by rw [hb] at hname; cases hname), hd.skip hstart⟩
  | some bracket =>
    rw [hread] at hb
    cases bracket with
    | start name =>
      have hopen : closer n = none := by
        by_contra hsome
        obtain ⟨j, hj⟩ := Option.ne_none_iff_exists'.mp hsome
        obtain ⟨hlt, hn, -⟩ := h.closes hj
        omega
      exact ⟨closer, h.skip (fun name hname => by rw [hb] at hname; cases hname),
        hd.start hn hb hopen⟩
    | finish name =>
      have hstart : startsAt l n = false := by unfold startsAt; rw [hb]
      dsimp only
      rw [hd.opened name]
      rcases List.eq_nil_or_concat (opens l closer n name) with hnil | ⟨before, p, hopens⟩
      · rw [hnil]
        refine ⟨closer, h.skip fun other hoth p hlt hp hopen => ?_, hd.skip hstart⟩
        rw [hb] at hoth
        cases hoth
        have hmem := mem_opens.mpr ⟨hlt, hp, hopen⟩
        rw [hnil] at hmem
        cases hmem
      · rw [List.concat_eq_append] at hopens
        rw [hopens, List.reverse_append]
        obtain ⟨hlt, hp, hopen⟩ := mem_opens.mp (hopens ▸ List.mem_concat_self : p ∈ opens ..)
        have hsorted : (before ++ [p]).Pairwise (· < ·) := hopens ▸ List.pairwise_lt_range.filter _
        refine ⟨_, h.finish hb hlt hp hopen fun q hq hbq hfree => ?_,
          (hd.finish hn hlt hp hopens).skip hstart⟩
        have hmem := mem_opens.mpr ⟨hq, hbq, hfree⟩
        rw [hopens] at hmem
        rcases List.mem_append.mp hmem with hmem | hmem
        · exact Nat.le_of_lt
            ((List.pairwise_append.mp hsorted).2.2 q hmem p (List.mem_singleton_self p))
        · exact Nat.le_of_eq (List.mem_singleton.mp hmem)

theorem read_all (l : List Envelope) : ∀ n ≤ l.length, ∃ closer, Matched l n closer ∧
    Renders l n closer (Runs.exec Derivation.read {} (l.take n)) := by
  intro n
  induction n with
  | zero => exact fun _ => ⟨fun _ => none, ⟨nofun, nofun, nofun, nofun⟩, rfl, fun _ => rfl⟩
  | succ n ih =>
    intro hn
    obtain ⟨closer, hm, hd⟩ := ih (by omega)
    have hget : l[n]? = some (l[n]) := List.getElem?_eq_getElem _
    obtain ⟨closer', hm', hd'⟩ := read_matched hm hd hget
    refine ⟨closer', hm', ?_⟩
    rw [List.take_add_one, hget, Runs.exec_append]
    exact hd'

theorem currentOf_cases (l : List Envelope) (closer : Nat → Option Nat) (n : Nat) :
    (currentOf ((starts l n).map (render l closer)) = "" ∧ ∀ p ∈ starts l n, closer p ≠ none) ∨
      ∃ p ∈ starts l n, closer p = none ∧
        currentOf ((starts l n).map (render l closer)) = nameAt l p ∧
        ∀ q ∈ starts l n, closer q = none → q ≤ p := by
  induction n with
  | zero => exact .inl ⟨rfl, nofun⟩
  | succ n ih =>
    rw [starts_succ]
    by_cases hstart : startsAt l n = true
    · rw [if_pos hstart]
      have hcur : currentOf ((starts l n ++ [n]).map (render l closer)) =
          if (closer n).isNone then nameAt l n
          else currentOf ((starts l n).map (render l closer)) := by
        unfold currentOf
        rw [List.map_append, List.foldl_append]
        rfl
      rw [hcur]
      cases hn : closer n with
      | none =>
        refine .inr ⟨n, List.mem_concat_self, hn, rfl, fun q hq _ => ?_⟩
        rcases List.mem_append.mp hq with hq | hq
        · exact Nat.le_of_lt (List.mem_range.mp (List.mem_filter.mp hq).1)
        · exact Nat.le_of_eq (List.mem_singleton.mp hq)
      | some j =>
        have hmem : ∀ {q}, q ∈ starts l n ++ [n] → closer q = none → q ∈ starts l n := by
          intro q hq hnone
          refine (List.mem_append.mp hq).resolve_right fun hq => ?_
          rw [List.mem_singleton.mp hq, hn] at hnone
          cases hnone
        rcases ih with ⟨hblank, hclo⟩ | ⟨p, hp, hopen, hname, hlast⟩
        · exact .inl ⟨hblank, fun q hq hnone => hclo q (hmem hq hnone) hnone⟩
        · exact .inr ⟨p, List.mem_append_left _ hp, hopen, hname,
            fun q hq hnone => hlast q (hmem hq hnone) hnone⟩
    · rw [if_neg hstart, List.append_nil]
      exact ih

end

/-- **Steps are the brackets, matched.** With distinct identifiers the order of the envelopes does
not matter; and in the order of time and identifier there is one step for every start, with the
end that a matching gives it, the current one being the last that is open. -/
theorem steps_match_brackets (envelopes : List Envelope) :
    ((envelopes.map Envelope.envelopeID).Nodup → ∀ envelopes', envelopes'.Perm envelopes →
      deriveRunSteps envelopes' = deriveRunSteps envelopes) ∧
    ((ordered envelopes).Perm envelopes ∧ (ordered envelopes).Pairwise Envelope.notAfter) ∧
    ∃ closer, Matched (ordered envelopes) envelopes.length closer ∧
      (deriveRunSteps envelopes).steps = (starts (ordered envelopes) envelopes.length).map
        (render (ordered envelopes) closer) ∧
      (((deriveRunSteps envelopes).current = "" ∧
          ∀ p ∈ starts (ordered envelopes) envelopes.length, closer p ≠ none) ∨
        ∃ p ∈ starts (ordered envelopes) envelopes.length, closer p = none ∧
          (deriveRunSteps envelopes).current = nameAt (ordered envelopes) p ∧
          ∀ q ∈ starts (ordered envelopes) envelopes.length, closer q = none → q ≤ p) := by
  have hperm : (ordered envelopes).Perm envelopes := List.perm_insertionSort _ envelopes
  refine ⟨fun hids envelopes' h => ?_, ⟨hperm, List.pairwise_insertionSort _ envelopes⟩, ?_⟩
  · unfold deriveRunSteps
    rw [ordered_eq_of_perm hids h]
  obtain ⟨closer, hm, hd⟩ := read_all (ordered envelopes) _ (Nat.le_refl _)
  rw [List.take_length] at hd
  rw [hperm.length_eq] at hm hd
  refine ⟨closer, hm, hd.steps, ?_⟩
  unfold deriveRunSteps
  dsimp only
  rw [hd.steps]
  exact currentOf_cases (ordered envelopes) closer envelopes.length

end Wefty.StepBrackets
