/-
Ranges of natural numbers laid end to end.

A sequence-numbered stream is stored as records that each cover a closed range of numbers.
Two facts about such ranges carry every argument about streams: ranges laid end to end
from `lo` up to `hi` cover each number of `[lo, hi)` exactly once and no other, and laying
another range at the end extends the whole. `hit` counts, so that "exactly once" is an
equation and survives any rearrangement of the records.
-/
import Mathlib.Data.List.Chain
import Mathlib.Algebra.Order.Ring.Nat

set_option autoImplicit false

namespace Wefty.Ranges

/-- How often the closed range `[lo, hi]` covers `n`. -/
def hit (lo hi n : Nat) : Nat := if lo ≤ n ∧ n ≤ hi then 1 else 0

/-- The closed ranges `rs` lie end to end from `lo` up to, not including, `hi`. -/
def Tiles : Nat → List (Nat × Nat) → Nat → Prop
  | lo, [], hi => lo = hi
  | lo, r :: rs, hi => r.1 = lo ∧ r.1 ≤ r.2 ∧ Tiles (r.2 + 1) rs hi

instance : ∀ lo rs hi, Decidable (Tiles lo rs hi)
  | lo, [], hi => inferInstanceAs (Decidable (lo = hi))
  | lo, r :: rs, hi =>
    have := instDecidableTiles (r.2 + 1) rs hi
    inferInstanceAs (Decidable (r.1 = lo ∧ r.1 ≤ r.2 ∧ Tiles (r.2 + 1) rs hi))

variable {lo hi : Nat} {rs : List (Nat × Nat)}

theorem Tiles.le (h : Tiles lo rs hi) : lo ≤ hi := by
  induction rs generalizing lo with
  | nil => exact Nat.le_of_eq h
  | cons r rs ih =>
    obtain ⟨h1, h2, h3⟩ := h
    have := ih h3
    omega

theorem Tiles.append {mid : Nat} {rs' : List (Nat × Nat)} (h : Tiles lo rs mid)
    (h' : Tiles mid rs' hi) : Tiles lo (rs ++ rs') hi := by
  induction rs generalizing lo with
  | nil =>
    have hlo : lo = mid := h
    rw [hlo]
    exact h'
  | cons r rs ih =>
    obtain ⟨h1, h2, h3⟩ := h
    exact ⟨h1, h2, ih h3⟩

theorem Tiles.snoc {mid b : Nat} (h : Tiles lo rs mid) (hb : mid ≤ b) :
    Tiles lo (rs ++ [(mid, b)]) (b + 1) :=
  h.append ⟨rfl, hb, rfl⟩

/-- **Ranges laid end to end cover each number once.** -/
theorem Tiles.sum_hit (h : Tiles lo rs hi) (n : Nat) :
    (rs.map fun r => hit r.1 r.2 n).sum = if lo ≤ n ∧ n < hi then 1 else 0 := by
  induction rs generalizing lo with
  | nil =>
    have hlo : lo = hi := h
    subst hlo
    rw [if_neg (by omega)]
    rfl
  | cons r rs ih =>
    obtain ⟨h1, h2, h3⟩ := h
    have hle := h3.le
    rw [List.map_cons, List.sum_cons, ih h3]
    unfold hit
    -- The first range ends right before the rest begins.
    by_cases hn : n ≤ r.2
    · rw [if_neg (show ¬ (r.2 + 1 ≤ n ∧ n < hi) by omega)]
      by_cases hlo : lo ≤ n
      · rw [if_pos (by omega), if_pos (by omega)]
      · rw [if_neg (by omega), if_neg (by omega)]
    · rw [if_neg (show ¬ (r.1 ≤ n ∧ n ≤ r.2) by omega)]
      by_cases hhi : n < hi
      · rw [if_pos (by omega), if_pos (by omega)]
      · rw [if_neg (by omega), if_neg (by omega)]

theorem Tiles.pairwise (h : Tiles lo rs hi) :
    (∀ r ∈ rs, lo ≤ r.1 ∧ r.1 ≤ r.2 ∧ r.2 < hi) ∧ rs.Pairwise fun r r' => r.2 < r'.1 := by
  induction rs generalizing lo with
  | nil => exact ⟨by simp, List.Pairwise.nil⟩
  | cons r rs ih =>
    obtain ⟨h1, h2, h3⟩ := h
    obtain ⟨hall, hpair⟩ := ih h3
    have hle := h3.le
    refine ⟨?_, ?_⟩
    · intro r' hr'
      rcases List.mem_cons.mp hr' with rfl | hr'
      · exact ⟨by omega, h2, by omega⟩
      · have := hall r' hr'
        omega
    · rw [List.pairwise_cons]
      refine ⟨?_, hpair⟩
      intro r' hr'
      have := hall r' hr'
      omega

theorem Tiles.separate (h : Tiles lo rs hi)
    {r r' : Nat × Nat} (hr : r ∈ rs) (hr' : r' ∈ rs) (hlt : r.1 < r'.1) : r.2 < r'.1 := by
  induction rs generalizing lo with
  | nil => cases hr
  | cons x rs ih =>
    obtain ⟨h1, h2, h3⟩ := h
    have haft : ∀ y ∈ rs, x.2 < y.1 := by
      intro y hy
      have := (h3.pairwise.1 y hy).1
      omega
    rcases List.mem_cons.mp hr with rfl | hin
    · rcases List.mem_cons.mp hr' with rfl | hin'
      · omega
      · exact haft r' hin'
    · rcases List.mem_cons.mp hr' with rfl | hin'
      · have := haft r hin
        have := (h3.pairwise.1 r hin).1
        omega
      · exact ih h3 hin hin'

theorem tiles_of_consecutive {a : Nat} {l : List Nat}
    (h : List.IsChain (fun x y => y = x + 1) (a :: l)) :
    Tiles a ((a :: l).map fun x => (x, x)) ((a :: l).getLast (by simp) + 1) := by
  induction l generalizing a with
  | nil => exact ⟨rfl, Nat.le_refl _, rfl⟩
  | cons b l ih =>
    cases h with
    | cons_cons hab hl =>
      have hrest := ih hl
      rw [List.getLast_cons (by simp)]
      refine ⟨rfl, Nat.le_refl _, ?_⟩
      rw [← hab]
      exact hrest

end Wefty.Ranges
