/-
Runs of a guarded transition function.

Every component of this development is a state type with a total step function:
a transaction that is refused, or a process that dies before its commit, is a
step that leaves the state as it was. What the environment may do (which clock
readings can follow which, which replies exist to be delivered) is not part of
the step function but a guard on (state, event) pairs. A run is a finite list of
events, each admitted by the guard where it happens.

This file packages the two inductions every safety argument uses, once: a
predicate preserved by each admitted step holds at the end of a run, and a
reflexive, transitive relation between consecutive states holds between the two
ends.
-/
import Mathlib.Data.List.Induction

set_option autoImplicit false

namespace Wefty.Runs

universe u v

variable {σ : Type u} {ε : Type v}

/-- `Run ok step s es t`: the events `es`, taken in order from `s`, are each admitted by
`ok` in the state where they happen and lead to `t`. Events are added at the end, so
an induction on a run sees its last step. -/
inductive Run (ok : σ → ε → Prop) (step : σ → ε → σ) (s : σ) : List ε → σ → Prop
  | nil : Run ok step s [] s
  | snoc {es : List ε} {t : σ} (e : ε) :
      Run ok step s es t → ok t e → Run ok step s (es ++ [e]) (step t e)

variable {s : σ} {es : List ε} {P : σ → Prop}

section
variable {ok : σ → ε → Prop} {step : σ → ε → σ}

theorem Run.append {t u : σ} {fs : List ε} (h : Run ok step s es t)
    (h' : Run ok step t fs u) : Run ok step s (es ++ fs) u := by
  induction h' with
  | nil => rwa [List.append_nil]
  | snoc e _ hok ih =>
    rw [← List.append_assoc]
    exact Run.snoc e ih hok

/-- A run may also be read from its first step. -/
theorem Run.cons {t : σ} (e : ε) (hok : ok s e)
    (h : Run ok step (step s e) es t) : Run ok step s (e :: es) t :=
  Run.append (Run.snoc e Run.nil hok) h

/-- A run all of whose events satisfy `Q` is a run under the guard that also asks for `Q`. -/
theorem Run.restrict {Q : ε → Prop} {t : σ} (h : Run ok step s es t)
    (hQ : ∀ e ∈ es, Q e) : Run (fun a e => ok a e ∧ Q e) step s es t := by
  induction h with
  | nil => exact Run.nil
  | snoc e _ hok ih =>
    have hes := ih fun e' he' => hQ e' (List.mem_append_left _ he')
    exact Run.snoc e hes ⟨hok, hQ e (by simp)⟩

/-- **The invariant rule.** A predicate that every admitted step preserves holds at the end
of every run that starts in it. -/
theorem Run.invariant {t : σ}
    (hstep : ∀ a e, P a → ok a e → P (step a e)) (hrun : Run ok step s es t) (hs : P s) : P t := by
  induction hrun with
  | nil => exact hs
  | snoc e _ hok ih => exact hstep _ e ih hok

end

/-! ## Unguarded runs

Where every event is possible in every state the run is just the fold of the step
function. -/

/-- The state the events `es` lead to. -/
def exec (step : σ → ε → σ) (s : σ) (es : List ε) : σ := es.foldl step s

@[simp]
theorem exec_nil (step : σ → ε → σ) (s : σ) : exec step s [] = s := rfl

@[simp]
theorem exec_cons (step : σ → ε → σ) (s : σ) (e : ε) (es : List ε) :
    exec step s (e :: es) = exec step (step s e) es := rfl

theorem exec_append (step : σ → ε → σ) (s : σ) (es fs : List ε) :
    exec step s (es ++ fs) = exec step (exec step s es) fs :=
  List.foldl_append

/-- The fold is a run under the guard that admits everything. -/
theorem run_exec (step : σ → ε → σ) (s : σ) (es : List ε) :
    Run (fun _ _ => True) step s es (exec step s es) := by
  induction es using List.reverseRecOn with
  | nil => exact Run.nil
  | append_singleton es e ih =>
    rw [exec_append]
    exact Run.snoc e ih trivial

/-- The guard admits the events one after another. -/
def Admitted (ok : σ → ε → Prop) (step : σ → ε → σ) : σ → List ε → Prop
  | _, [] => True
  | s, e :: es => ok s e ∧ Admitted ok step (step s e) es

instance decidableAdmitted (ok : σ → ε → Prop) (step : σ → ε → σ)
    [∀ s e, Decidable (ok s e)] : ∀ s es, Decidable (Admitted ok step s es)
  | _, [] => inferInstanceAs (Decidable True)
  | s, e :: es =>
    have := decidableAdmitted ok step (step s e) es
    inferInstanceAs (Decidable (ok s e ∧ Admitted ok step (step s e) es))

variable {ok : σ → ε → Prop} {step : σ → ε → σ} {fs : List ε}

/-- A concrete run, from the decidable check of its guards. -/
theorem Run.of_admitted (h : Admitted ok step s es) : Run ok step s es (exec step s es) := by
  induction es generalizing s with
  | nil => exact Run.nil
  | cons e es ih => exact Run.cons e h.1 (ih h.2)

/-- What is admitted up to some point was admitted before it. -/
theorem Admitted.of_append (h : Admitted ok step s (es ++ fs)) : Admitted ok step s es := by
  induction es generalizing s with
  | nil => exact trivial
  | cons e es ih => exact ⟨h.1, ih h.2⟩

/-- What is admitted after some point is admitted from the state there. -/
theorem Admitted.after_append (h : Admitted ok step s (es ++ fs)) :
    Admitted ok step (exec step s es) fs := by
  induction es generalizing s with
  | nil => exact h
  | cons e es ih => exact ih h.2

/-- The invariant rule for unguarded runs. -/
theorem exec_invariant (hstep : ∀ a e, P a → P (step a e)) (hs : P s) (es : List ε) :
    P (exec step s es) :=
  (run_exec step s es).invariant (fun a e ha _ => hstep a e ha) hs

end Wefty.Runs
