/-
Connected components of a finite graph.

A graph is a list of edges, read in both directions. `Connected` is the closure of the edges, as a
recursive query over a table of edges computes it. It is decided by taking the edges one at a time:
with one more edge, the component of a vertex gains the component at the far end of the edge, if the
vertex reaches the near end without it.

The lemmas are about adding an edge: what it connects, and that it connects nothing else.
-/
import Mathlib.Logic.Relation

set_option autoImplicit false

namespace Wefty.Components

universe u

variable {α : Type u}

/-- An edge joins the two, in either direction. -/
def Joined (edges : List (α × α)) (a b : α) : Prop := (a, b) ∈ edges ∨ (b, a) ∈ edges

theorem Joined.symm {edges : List (α × α)} {a b : α} (h : Joined edges a b) : Joined edges b a :=
  Or.symm h

/-- A chain of edges leads from one to the other. -/
def Connected (edges : List (α × α)) : α → α → Prop := Relation.ReflTransGen (Joined edges)

section
variable {edges : List (α × α)} {a b c : α}

theorem Connected.refl (edges : List (α × α)) (a : α) : Connected edges a a :=
  Relation.ReflTransGen.refl

theorem Connected.trans (h : Connected edges a b) (h' : Connected edges b c) :
    Connected edges a c :=
  Relation.ReflTransGen.trans h h'

theorem Connected.symm (h : Connected edges a b) : Connected edges b a := by
  induction h with
  | refl => exact .refl edges a
  | tail _ hjoin ih => exact Relation.ReflTransGen.head hjoin.symm ih

theorem connected_of_mem (h : (a, b) ∈ edges) : Connected edges a b :=
  Relation.ReflTransGen.single (.inl h)

theorem Connected.cons (h : Connected edges a b) (e : α × α) : Connected (e :: edges) a b := by
  induction h with
  | refl => exact .refl (e :: edges) a
  | tail _ hjoin ih =>
    exact ih.tail (hjoin.imp (List.mem_cons_of_mem e) (List.mem_cons_of_mem e))

theorem connected_nil : Connected ([] : List (α × α)) a b ↔ a = b := by
  constructor
  · intro h
    induction h with
    | refl => rfl
    | tail _ hjoin _ => rcases hjoin with h | h <;> cases h
  · rintro rfl
    exact .refl [] a

/-- **One more edge.** A chain that uses it can be cut before its first and after its last use. -/
theorem connected_cons {u w : α} : Connected ((u, w) :: edges) a b ↔
    Connected edges a b ∨ (Connected edges a u ∧ Connected edges w b) ∨
      (Connected edges a w ∧ Connected edges u b) := by
  constructor
  · intro h
    induction h with
    | refl => exact .inl (.refl edges a)
    | @tail b c _ hjoin ih =>
      -- The last step is the new edge, one way or the other, or an old one.
      have hstep : Connected edges b c ∨ (b = u ∧ c = w) ∨ (b = w ∧ c = u) := by
        rcases hjoin with hmem | hmem
        · rcases List.mem_cons.mp hmem with heq | hold
          · exact .inr (.inl (Prod.mk.injEq .. ▸ heq))
          · exact .inl (connected_of_mem hold)
        · rcases List.mem_cons.mp hmem with heq | hold
          · exact .inr (.inr (And.symm (Prod.mk.injEq .. ▸ heq)))
          · exact .inl (connected_of_mem hold).symm
      rcases hstep with hold | ⟨rfl, rfl⟩ | ⟨rfl, rfl⟩
      · rcases ih with h | ⟨hu, hw⟩ | ⟨hw, hu⟩
        · exact .inl (h.trans hold)
        · exact .inr (.inl ⟨hu, hw.trans hold⟩)
        · exact .inr (.inr ⟨hw, hu.trans hold⟩)
      · rcases ih with h | ⟨hu, -⟩ | ⟨hw, -⟩
        · exact .inr (.inl ⟨h, .refl edges c⟩)
        · exact .inr (.inl ⟨hu, .refl edges c⟩)
        · exact .inl hw
      · rcases ih with h | ⟨hu, -⟩ | ⟨hw, -⟩
        · exact .inr (.inr ⟨h, .refl edges c⟩)
        · exact .inl hu
        · exact .inr (.inr ⟨hw, .refl edges c⟩)
  · have hnew : Connected ((u, w) :: edges) u w := connected_of_mem List.mem_cons_self
    rintro (h | ⟨hu, hw⟩ | ⟨hw, hu⟩)
    · exact h.cons (u, w)
    · exact ((hu.cons (u, w)).trans hnew).trans (hw.cons (u, w))
    · exact ((hw.cons (u, w)).trans hnew.symm).trans (hu.cons (u, w))

theorem connected_cons_of_apart {u w : α} (hu : ¬ Connected edges a u)
    (hw : ¬ Connected edges a w) : Connected ((u, w) :: edges) a b ↔ Connected edges a b := by
  rw [connected_cons]
  constructor
  · rintro (h | ⟨h, -⟩ | ⟨h, -⟩)
    · exact h
    · exact absurd h hu
    · exact absurd h hw
  · exact .inl

theorem connected_of_isolated {w : α} (hw : ∀ e ∈ edges, e.1 ≠ w ∧ e.2 ≠ w)
    (h : Connected edges a w) : a = w := by
  cases h with
  | refl => rfl
  | tail _ hjoin =>
    rcases hjoin with hmem | hmem
    · exact absurd rfl (hw _ hmem).2
    · exact absurd rfl (hw _ hmem).1

end

/-! ## The component of a vertex -/

section
variable [DecidableEq α]

/-- The vertices that are connected with one. -/
def component : List (α × α) → α → List α
  | [], a => [a]
  | (u, w) :: edges, a =>
    let reached := component edges a
    (reached ++ if u ∈ reached then component edges w else []) ++
      if w ∈ reached then component edges u else []

theorem mem_component {edges : List (α × α)} {a b : α} :
    b ∈ component edges a ↔ Connected edges a b := by
  induction edges generalizing a b with
  | nil => rw [component, List.mem_singleton, connected_nil, eq_comm]
  | cons e edges ih =>
    obtain ⟨u, w⟩ := e
    rw [connected_cons, component]
    simp only [List.mem_append, List.mem_ite_nil_right, ih, or_assoc]

instance (edges : List (α × α)) (a b : α) : Decidable (Connected edges a b) :=
  decidable_of_iff (b ∈ component edges a) mem_component

end

end Wefty.Components
