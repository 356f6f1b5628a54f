/-
Transactions that may end before their last statement.

A store transaction reads, checks and writes, and can end in four ways: it runs to its commit;
it refuses, and everything it wrote is rolled back; it answers without a commit, because the
request was applied before; or it commits what it has settled so far and refuses the caller
all the same. A transaction here is a value of `Except` whose error says which of the early
ends it was, so a source function becomes a `do` block with one line for each of its checks.

`Ensures P Q` is partial correctness for such a block: `P` holds of whatever an early end
commits and `Q` of what the last statement returns. There is one rule for each kind of line;
a proof about a transaction is the list of its lines, in order. Nothing here knows what the
rows or the errors are.
-/
import Mathlib.Data.Option.Basic

set_option autoImplicit false

namespace Wefty.Transactions

universe u v w

/-- How a transaction on rows `σ` ends early. -/
inductive Exit (σ : Type u) (ε : Type v)
  /-- rolled back, and the caller is told why -/
  | refused (err : ε)
  /-- answered and never committed -/
  | answered
  /-- committed, and the caller is told why nothing more happened -/
  | settled (rows : σ) (err : ε)

/-- A transaction that returns `α` where it reaches its end. -/
abbrev Tx (σ : Type u) (ε : Type v) (α : Type w) := Except (Exit σ ε) α

section
variable {σ τ : Type u} {ε : Type v} {α β : Type w}

/-! ## Lines -/

/-- Refuse the request. -/
def refuse (err : ε) : Tx σ ε α := .error (.refused err)

/-- Answer without a commit. -/
def answer : Tx σ ε α := .error .answered

/-- `if c { return err }` -/
def refuseIf (c : Prop) [Decidable c] (err : ε) : Tx σ ε PUnit :=
  if c then .error (.refused err) else .ok ⟨⟩

/-- `if c { return stored answer }` -/
def answerIf (c : Prop) [Decidable c] : Tx σ ε PUnit :=
  if c then .error .answered else .ok ⟨⟩

/-- `if c { commit rows; return err }` -/
def settleIf (c : Prop) [Decidable c] (rows : σ) (err : ε) : Tx σ ε PUnit :=
  if c then .error (.settled rows err) else .ok ⟨⟩

/-- `if err := call(); err != nil { return err }` -/
def check (result : Except ε α) : Tx σ ε α := result.mapError .refused

/-- The row a query returns, or a refusal where there is none. -/
def orRefuse (row : Option α) (err : ε) : Tx σ ε α :=
  match row with
  | some a => .ok a
  | none => .error (.refused err)

/-- The same transaction as part of a larger one: `f` puts the rows back. -/
def within (f : σ → τ) : Tx σ ε α → Tx τ ε α
  | .ok a => .ok a
  | .error (.refused err) => .error (.refused err)
  | .error .answered => .error .answered
  | .error (.settled rows err) => .error (.settled (f rows) err)

/-- What is committed in the end, if anything is. -/
def committed : Tx σ ε σ → Option σ
  | .ok rows => some rows
  | .error (.settled rows _) => some rows
  | .error (.refused _) => none
  | .error .answered => none

/-! ## Rules -/

variable {x : Except ε α}

/-- What a sequence of checks returns comes out of each of them. -/
theorem ok_of_bind {f : α → Except ε β} {b : β} (h : x >>= f = .ok b) :
    ∃ a, x = .ok a ∧ f a = .ok b := by
  match x, h with
  | .ok a, h => exact ⟨a, rfl, h⟩

variable {c : Prop} [Decidable c]

/-- A check passes where it is not refused and the rest passes. -/
theorem guard_eq_ok_iff {e : ε} {a : α} :
    (if c then .error e else x) = .ok a ↔ ¬ c ∧ x = .ok a := by
  by_cases hc : c <;> simp [hc]

/-- The same for a check in a sequence of them. -/
theorem throw_eq_ok_iff {e : ε} {f : PUnit → Except ε α} {a : α} :
    (if c then throw e >>= f else x) = .ok a ↔ ¬ c ∧ x = .ok a :=
  guard_eq_ok_iff

theorem isOk_iff {x : Except ε Unit} : x.isOk = true ↔ x = .ok () := by
  cases x <;> simp [Except.isOk, Except.toBool]

/-- Every early commit satisfies `P`, every returned value `Q`. -/
def Ensures (P : σ → Prop) (Q : α → Prop) : Tx σ ε α → Prop
  | .ok a => Q a
  | .error (.settled rows _) => P rows
  | .error (.refused _) => True
  | .error .answered => True

/-- Whatever is committed satisfies `P`. -/
abbrev Commits (P : σ → Prop) (t : Tx σ ε σ) : Prop := Ensures P P t

variable {P : σ → Prop} {Q : α → Prop} {R : β → Prop}

protected theorem Ensures.committed {t : Tx σ ε σ} {rows : σ} (h : Commits P t)
    (hc : committed t = some rows) : P rows := by
  match t, h, hc with
  | .ok _, h, rfl => exact h
  | .error (.settled _ _), h, rfl => exact h

protected theorem Ensures.pure {a : α} (h : Q a) : Ensures P Q (pure a : Tx σ ε α) := h

protected theorem Ensures.refuse (err : ε) : Ensures P Q (refuse err : Tx σ ε α) := trivial

protected theorem Ensures.answer : Ensures P Q (answer : Tx σ ε α) := trivial

variable {t : Tx σ ε α} {k : α → Tx σ ε β}

protected theorem Ensures.bind (ht : Ensures P Q t)
    (hk : ∀ a, Q a → Ensures P R (k a)) : Ensures P R (t >>= k) := by
  match t, ht with
  | .ok a, ht => exact hk a ht
  | .error (.settled _ _), ht => exact ht
  | .error (.refused _), _ => trivial
  | .error .answered, _ => trivial

variable {err : ε}

protected theorem Ensures.refuseIf {k : PUnit → Tx σ ε β}
    (h : ¬ c → Ensures P R (k ⟨⟩)) : Ensures P R (refuseIf c err >>= k) := by
  unfold refuseIf
  split
  · trivial
  · exact h ‹_›

protected theorem Ensures.answerIf {k : PUnit → Tx σ ε β}
    (h : ¬ c → Ensures P R (k ⟨⟩)) : Ensures P R (answerIf c >>= k) := by
  unfold answerIf
  split
  · trivial
  · exact h ‹_›

protected theorem Ensures.settleIf {rows : σ} {k : PUnit → Tx σ ε β}
    (hs : c → P rows) (h : ¬ c → Ensures P R (k ⟨⟩)) : Ensures P R (settleIf c rows err >>= k) := by
  unfold settleIf
  split
  · exact hs ‹_›
  · exact h ‹_›

variable {result : Except ε α}

protected theorem Ensures.check
    (h : ∀ a, result = .ok a → Ensures P R (k a)) : Ensures P R (check result >>= k) := by
  match result with
  | .ok a => exact h a rfl
  | .error _ => trivial

/-- A check that is the last line. -/
protected theorem Ensures.checked (h : ∀ a, result = .ok a → Q a) :
    Ensures P Q (check result : Tx σ ε α) := by
  match result with
  | .ok a => exact h a rfl
  | .error _ => trivial

variable {row : Option α}

protected theorem Ensures.orRefuse
    (h : ∀ a, row = some a → Ensures P R (k a)) : Ensures P R (orRefuse row err >>= k) := by
  match row with
  | some a => exact h a rfl
  | none => trivial

variable {P' : σ → Prop} {Q' : α → Prop}

protected theorem Ensures.mono (h : Ensures P Q t)
    (hP : ∀ rows, P rows → P' rows) (hQ : ∀ a, Q a → Q' a) : Ensures P' Q' t := by
  match t, h with
  | .ok a, h => exact hQ a h
  | .error (.settled rows _), h => exact hP rows h
  | .error (.refused _), _ => trivial
  | .error .answered, _ => trivial

protected theorem Ensures.within {f : σ → τ} {P' : τ → Prop} (h : Ensures P Q t)
    (hP : ∀ rows, P rows → P' (f rows)) : Ensures P' Q (within f t) := by
  match t, h with
  | .ok _, h => exact h
  | .error (.settled rows _), h => exact hP rows h
  | .error (.refused _), _ => trivial
  | .error .answered, _ => trivial

protected theorem Ensures.and (h : Ensures P Q t)
    (h' : Ensures P' Q' t) : Ensures (fun rows => P rows ∧ P' rows) (fun a => Q a ∧ Q' a) t := by
  match t, h, h' with
  | .ok _, h, h' => exact ⟨h, h'⟩
  | .error (.settled _ _), h, h' => exact ⟨h, h'⟩
  | .error (.refused _), _, _ => trivial
  | .error .answered, _, _ => trivial

/-- What ensures the impossible commits nothing. -/
theorem committed_of_ensures {t : Tx σ ε σ}
    (h : Commits (fun _ => False) t) : committed t = none := by
  match t, h with
  | .error (.refused _), _ => rfl
  | .error .answered, _ => rfl

/-- The transaction refuses. -/
def Refuses : Tx σ ε α → Prop
  | .error (.refused _) => True
  | _ => False

/-- A request of a kind that was accepted before: it is the same one, or it is refused. -/
structure Replayed (same : Prop) (P : σ → Prop) (Q : α → Prop) (t : Tx σ ε α) : Prop where
  ensures : Ensures P Q t
  refuses : ¬ same → Refuses t

variable {same : Prop}

protected theorem Replayed.refuseIf {k : PUnit → Tx σ ε β}
    (h : ¬ c → Replayed same P R (k ⟨⟩)) : Replayed same P R (refuseIf c err >>= k) := by
  unfold refuseIf
  split
  · exact ⟨trivial, fun _ => trivial⟩
  · exact h ‹_›

protected theorem Replayed.bind (h : Replayed same P Q t)
    (hk : ∀ a, Q a → Ensures P R (k a)) : Replayed same P R (t >>= k) := by
  refine ⟨.bind h.ensures hk, fun hoth => ?_⟩
  match t, h.refuses hoth with
  | .error (.refused _), _ => trivial

/-- The line that compares the request with the accepted one. -/
protected theorem Replayed.compare {k : PUnit → Tx σ ε β}
    (hc : ¬ same → c) (h : Ensures P R (k ⟨⟩)) : Replayed same P R (refuseIf c err >>= k) := by
  refine ⟨.refuseIf fun _ => h, fun hoth => ?_⟩
  unfold refuseIf
  rw [if_pos (hc hoth)]
  trivial

protected theorem Replayed.check
    (h : ∀ a, result = .ok a → Replayed same P R (k a)) :
    Replayed same P R (check result >>= k) := by
  match result with
  | .ok a => exact h a rfl
  | .error _ => exact ⟨trivial, fun _ => trivial⟩

protected theorem Replayed.orRefuse
    (h : ∀ a, row = some a → Replayed same P R (k a)) :
    Replayed same P R (orRefuse row err >>= k) := by
  match row with
  | some a => exact h a rfl
  | none => exact ⟨trivial, fun _ => trivial⟩

protected theorem Replayed.within {f : σ → τ} {P' : τ → Prop} {k : α → Tx τ ε β}
    (h : Replayed same P Q t) (hP : ∀ rows, P rows → P' (f rows))
    (hk : ∀ a, Q a → Ensures P' R (k a)) : Replayed same P' R (within f t >>= k) := by
  refine ⟨.bind (h.ensures.within hP) hk, fun hoth => ?_⟩
  match t, h.refuses hoth with
  | .error (.refused _), _ => trivial

end

end Wefty.Transactions
