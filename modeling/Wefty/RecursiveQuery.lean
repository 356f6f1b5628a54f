/-
`WITH RECURSIVE ... UNION ALL`: the rows a recursive query produces.

The query starts with the rows of its first part and replaces them, round after round, by the
rows its second part makes of each of them, until a round produces none; the result is every
row of every round. Where a rank below the number of rounds grows along each recursive step,
the last round has been reached, and a row is in the result exactly if a chain of steps leads
to it.
-/
import Mathlib.Logic.Relation
import Mathlib.Data.List.Basic

set_option autoImplicit false

namespace Wefty.RecursiveQuery

open Relation

universe u

variable {α : Type u}

/-- The rows of the first `rounds` rounds. -/
def unionAll (next : α → List α) : Nat → List α → List α
  | 0, _ => []
  | rounds + 1, rows => rows ++ unionAll next rounds (rows.flatMap next)

variable {rounds : Nat} {rows : List α} {b : α}

/-- Every row of the result is reached by a chain of recursive steps. -/
theorem exists_chain_of_mem {next : α → List α}
    (h : b ∈ unionAll next rounds rows) : ∃ a ∈ rows, ReflTransGen (fun x y => y ∈ next x) a b := by
  induction rounds generalizing rows with
  | zero => cases h
  | succ rounds ih =>
    rcases List.mem_append.mp h with hb | hb
    · exact ⟨b, hb, .refl⟩
    · obtain ⟨c, hc, hchain⟩ := ih hb
      obtain ⟨a, ha, hstep⟩ := List.mem_flatMap.mp hc
      exact ⟨a, ha, .head hstep hchain⟩

section Ranked
variable {next : α → List α} (rank : α → Nat)

theorem rank_le_of_chain (hrank : ∀ x y, y ∈ next x → rank x < rank y) {a : α}
    (h : ReflTransGen (fun x y => y ∈ next x) a b) : rank a ≤ rank b := by
  induction h with
  | refl => exact Nat.le_refl _
  | tail _ hstep ih => exact Nat.le_trans ih (Nat.le_of_lt (hrank _ _ hstep))

/-- Enough rounds reach the end of every chain. -/
theorem mem_of_chain (hrank : ∀ x y, y ∈ next x → rank x < rank y) {a : α} (ha : a ∈ rows)
    (h : ReflTransGen (fun x y => y ∈ next x) a b) (hb : rank b < rank a + rounds) :
    b ∈ unionAll next rounds rows := by
  induction rounds generalizing rows a with
  | zero =>
    have := rank_le_of_chain rank hrank h
    omega
  | succ rounds ih =>
    apply List.mem_append.mpr
    -- the chain is over, or its first step is a row of the next round
    rcases h.cases_head with rfl | ⟨c, hstep, hrest⟩
    · exact .inl ha
    · have := hrank a c hstep
      exact .inr (ih (List.mem_flatMap.mpr ⟨a, ha, hstep⟩) hrest (by omega))

/-- **The result of the query** is what the chains of its steps reach. -/
theorem mem_unionAll_iff (hrank : ∀ x y, y ∈ next x → rank x < rank y) (hb : rank b < rounds) :
    b ∈ unionAll next rounds rows ↔
      ∃ a ∈ rows, ReflTransGen (fun x y => y ∈ next x) a b := by
  refine ⟨exists_chain_of_mem, ?_⟩
  rintro ⟨a, ha, hchain⟩
  exact mem_of_chain rank hrank ha hchain (by omega)

end Ranked

end Wefty.RecursiveQuery
