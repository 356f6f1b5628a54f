/-
Keyed tables, as a relational store keeps them.

A table is a list of rows with pairwise distinct primary keys. The three writes are the
three statements a transaction is made of: `INSERT`, `UPDATE ... SET ... WHERE`, `DELETE ...
WHERE`. An update carries the proof that it leaves the primary key alone, so a table whose
keys clash cannot be built.

Every statement about a table goes through `find`, the row under a key: one equation for
each write says what `find` returns afterwards, and these are the simp set of every proof
above. The row list itself is only looked at by the scans (`any`, `count`) and by `total`,
the sum of a weight over all rows, with one equation for each write in the same way.
-/
import Mathlib.Algebra.GroupWithZero.Nat
import Mathlib.Data.List.Nodup
import Mathlib.Data.List.Pairwise
import Mathlib.Data.List.Perm.Subperm

set_option autoImplicit false

namespace Wefty.Tables

universe u v

/-- Rows of type `ρ` under the primary key `key`, in insertion order. -/
structure Table {ρ : Type u} {κ : Type v} (key : ρ → κ) where
  rows : List ρ
  nodup : (rows.map key).Nodup

namespace Table

variable {ρ : Type u} {κ : Type v} {key : ρ → κ}

theorem ext_rows {t t' : Table key} (h : t.rows = t'.rows) : t = t' := by
  cases t; cases t'; cases h; rfl

instance [DecidableEq ρ] : DecidableEq (Table key) := fun t t' =>
  decidable_of_iff (t.rows = t'.rows) ⟨ext_rows, fun h => by rw [h]⟩

def empty : Table key := ⟨[], List.nodup_nil⟩

/-- `UPDATE ... SET f WHERE p`. -/
def updateWhere (t : Table key) (p : ρ → Bool) (f : ρ → ρ)
    (hf : ∀ r, key (f r) = key r := by intro; rfl) : Table key where
  rows := t.rows.map fun r => if p r then f r else r
  nodup := by
    have h : (key ∘ fun r => if p r then f r else r) = key := by
      funext r
      by_cases hp : p r <;> simp [hp, hf]
    rw [List.map_map, h]
    exact t.nodup

/-- `DELETE ... WHERE p`. -/
def deleteWhere (t : Table key) (p : ρ → Bool) : Table key where
  rows := t.rows.filter fun r => !p r
  nodup := t.nodup.sublist (List.filter_sublist.map key)

theorem deleteWhere_eq_self {t : Table key} {p : ρ → Bool} (h : ∀ r ∈ t.rows, p r = false) :
    t.deleteWhere p = t :=
  ext_rows (List.filter_eq_self.mpr fun r hr => by rw [h r hr]; rfl)

/-- `SELECT EXISTS(... WHERE p)`. -/
def any (t : Table key) (p : ρ → Bool) : Bool := t.rows.any p

/-- `SELECT SUM(f) ...`. -/
def total (t : Table key) (f : ρ → Nat) : Nat := (t.rows.map f).sum

/-- `SELECT COUNT(*) ... WHERE p`. -/
def count (t : Table key) (p : ρ → Bool) : Nat := t.rows.countP p

section Keyed
variable [DecidableEq κ] {t t' : Table key} {r r' : ρ} {k k' : κ} {p : ρ → Bool}

/-- The row under a primary key. -/
def find (t : Table key) (k : κ) : Option ρ := t.rows.find? fun r => key r = k

theorem find_eq_none_iff : t.find k = none ↔ k ∉ t.rows.map key := by
  simp [find]

/-- `INSERT OR IGNORE`: a row whose key is taken is not inserted. Callers that must not lose a
row test the key first, as the source's unique constraint does. -/
def insert (t : Table key) (r : ρ) : Table key :=
  if h : t.find (key r) = none then
    ⟨t.rows ++ [r], by
      rw [List.map_append, List.map_singleton]
      refine List.nodup_append'.mpr ⟨t.nodup, List.nodup_singleton _, ?_⟩
      rw [List.disjoint_singleton]
      exact find_eq_none_iff.mp h⟩
  else t

/-- `UPDATE ... SET f WHERE key = k`. -/
def update (t : Table key) (k : κ) (f : ρ → ρ)
    (hf : ∀ r, key (f r) = key r := by intro; rfl) : Table key :=
  t.updateWhere (fun r => key r = k) f hf

/-- `UPDATE ... SET <every column> WHERE key = key r`: the row takes the place of the one under its
key, if there is one. -/
def replace (t : Table key) (r : ρ) : Table key :=
  t.updateWhere (fun r' => key r' = key r) (fun r' => if key r' = key r then r else r') (by
    intro r'
    by_cases hk : key r' = key r
    · rw [if_pos hk, hk]
    · rw [if_neg hk])

/-- `DELETE ... WHERE key = k`. -/
def delete (t : Table key) (k : κ) : Table key := t.deleteWhere fun r => key r = k

/-! ## What `find` returns -/

theorem key_of_find (h : t.find k = some r) : key r = k := by
  have := List.find?_some h
  simpa using this

theorem mem_of_find (h : t.find k = some r) : r ∈ t.rows :=
  List.mem_of_find?_eq_some h

theorem mem_rows_iff : r ∈ t.rows ↔ t.find (key r) = some r := by
  refine ⟨fun h => ?_, mem_of_find⟩
  cases hf : t.find (key r) with
  | none =>
    exact absurd (List.mem_map_of_mem h) (find_eq_none_iff.mp hf)
  | some r' =>
    have hinj := List.inj_on_of_nodup_map t.nodup
    rw [hinj (mem_of_find hf) h (key_of_find hf)]

@[simp]
theorem find_empty : (empty : Table key).find k = none := rfl

@[simp]
theorem find_updateWhere (t : Table key) (p : ρ → Bool) (f : ρ → ρ) (hf : ∀ r, key (f r) = key r)
    (k : κ) : (t.updateWhere p f hf).find k = (t.find k).map fun r => if p r then f r else r := by
  unfold find updateWhere
  rw [List.find?_map]
  congr 2
  funext r
  by_cases hp : p r <;> simp [hp, hf]

/-- Updating the row under one key is invisible under the others. -/
@[simp]
theorem find_update (t : Table key) (k : κ) (f : ρ → ρ) (hf : ∀ r, key (f r) = key r) (k' : κ) :
    (t.update k f hf).find k' = if k' = k then (t.find k').map f else t.find k' := by
  unfold update
  rw [find_updateWhere]
  cases h : t.find k' with
  | none => simp
  | some r =>
    have hk := key_of_find h
    by_cases hkk : k' = k <;> simp [hk, hkk]

@[simp]
theorem find_replace (t : Table key) (r : ρ) (k : κ) :
    (t.replace r).find k = if key r = k then (t.find k).map fun _ => r else t.find k := by
  unfold replace
  rw [find_updateWhere]
  cases h : t.find k with
  | none => simp
  | some r' =>
    have hk := key_of_find h
    by_cases hkk : key r = k
    · simp [hk, hkk]
    · simp [hk, Ne.symm hkk, hkk]

/-- Under its key the new row, elsewhere what was there. -/
theorem find_replace_of_find (h : t.find (key r) = some r) (hk : key r' = key r) (k : κ) :
    (t.replace r').find k = if key r = k then some r' else t.find k := by
  rw [find_replace, hk]
  split
  next heq => rw [← heq, h, Option.map_some]
  · rfl

theorem find_replace_cases (h : (t.replace r).find k = some r') :
    key r = k ∧ r' = r ∨ key r ≠ k ∧ t.find k = some r' := by
  rw [find_replace] at h
  split at h
  next heq =>
    obtain ⟨_, -, rfl⟩ := Option.map_eq_some_iff.mp h
    exact .inl ⟨heq, rfl⟩
  next hne => exact .inr ⟨hne, h⟩

theorem exists_find_replace (h : t.find k = some r) (r' : ρ) :
    ∃ new, (t.replace r').find k = some new := by
  rw [find_replace, h]
  split <;> exact ⟨_, rfl⟩

/-- Replacing a row by itself changes nothing. -/
theorem replace_self (h : t.find (key r) = some r) : t.replace r = t := by
  apply ext_rows
  show t.rows.map _ = t.rows
  conv_rhs => rw [← List.map_id t.rows]
  apply List.map_congr_left
  intro r' hr'
  by_cases hk : key r' = key r
  · rw [mem_rows_iff, hk, h] at hr'
    simp [Option.some.inj hr']
  · simp [hk]

@[simp]
theorem find_deleteWhere :
    (t.deleteWhere p).find k = (t.find k).filter fun r => !p r := by
  cases h : t.find k with
  | none =>
    rw [find_eq_none_iff] at h
    rw [Option.filter_none, find_eq_none_iff]
    exact fun hk => h ((List.filter_sublist.map key).subset hk)
  | some r =>
    have hmem := mem_of_find h
    have hk := key_of_find h
    by_cases hp : p r
    · rw [Option.filter_some_neg (by simp [hp]), find_eq_none_iff]
      intro hin
      obtain ⟨r', hr', hkr'⟩ := List.mem_map.mp hin
      have hr := List.mem_filter.mp hr'
      have heq := List.inj_on_of_nodup_map t.nodup hr.1 hmem (hkr'.trans hk.symm)
      simp [heq, hp] at hr
    · have hin : r ∈ (t.deleteWhere p).rows := List.mem_filter.mpr ⟨hmem, by simp [hp]⟩
      rw [mem_rows_iff, hk] at hin
      rw [hin, Option.filter_some_pos (by simp [hp])]

@[simp]
theorem find_delete : (t.delete k).find k' = if k' = k then none else t.find k' := by
  unfold delete
  rw [find_deleteWhere]
  cases h : t.find k' with
  | none => simp
  | some r =>
    have hk := key_of_find h
    by_cases hkk : k' = k <;> simp [Option.filter, hk, hkk]

theorem find_of_find_delete (h : (t.delete k).find k' = some r) : k' ≠ k ∧ t.find k' = some r := by
  rw [find_delete] at h
  split at h
  · cases h
  next hne => exact ⟨hne, h⟩

theorem rows_insert (h : t.find (key r) = none) : (t.insert r).rows = t.rows ++ [r] := by
  simp [insert, h]

theorem find_insert (t : Table key) (r : ρ) (h : t.find (key r) = none) (k : κ) :
    (t.insert r).find k = if key r = k then some r else t.find k := by
  have hrows := rows_insert h
  unfold find
  rw [hrows, List.find?_append]
  by_cases hk : key r = k
  · subst hk
    unfold find at h
    simp [h]
  · simp [hk]

theorem find_insert_of_some (h : t.find k = some r') : (t.insert r).find k = some r' := by
  by_cases hr : t.find (key r) = none
  · rw [find_insert t r hr]
    by_cases hk : key r = k
    · rw [hk, h] at hr
      exact absurd hr (by simp)
    · rw [if_neg hk, h]
  · simp [insert, hr, h]

theorem eq_of_find_insert (h : (t.insert r).find k = some r') (hn : t.find k = none) : r' = r := by
  by_cases hr : t.find (key r) = none
  · rw [find_insert t r hr, hn] at h
    by_cases hk : key r = k
    · rw [if_pos hk] at h
      exact (Option.some.inj h).symm
    · rw [if_neg hk] at h
      cases h
  · simp [insert, hr, hn] at h

theorem find_insert_cases (h : (t.insert r).find k = some r') : t.find k = some r' ∨ r' = r := by
  cases hold : t.find k with
  | none => exact .inr (eq_of_find_insert h hold)
  | some r₀ =>
    rw [find_insert_of_some hold] at h
    exact .inl h

theorem find_foldl_insert_of_some {α : Type*} (row : α → ρ) (l : List α) (h : t.find k = some r) :
    (l.foldl (fun t a => t.insert (row a)) t).find k = some r := by
  induction l generalizing t with
  | nil => exact h
  | cons a l ih => exact ih (find_insert_of_some h)

/-- Rows inserted one after another, under distinct keys that were free, are all there. -/
theorem find_foldl_insert_of_mem {α : Type*} (row : α → ρ) {l : List α}
    (hnodup : (l.map fun a => key (row a)).Nodup)
    (hfree : ∀ a ∈ l, t.find (key (row a)) = none) {a : α} (ha : a ∈ l) :
    (l.foldl (fun t a => t.insert (row a)) t).find (key (row a)) = some (row a) := by
  induction l generalizing t with
  | nil => cases ha
  | cons b l ih =>
    rw [List.map_cons, List.nodup_cons] at hnodup
    have hb := hfree b List.mem_cons_self
    rcases List.mem_cons.mp ha with rfl | hmem
    · refine find_foldl_insert_of_some row l ?_
      rw [find_insert _ _ hb, if_pos rfl]
    refine ih hnodup.2 ?_ hmem
    intro c hc
    rw [find_insert _ _ hb, if_neg]
    · exact hfree c (List.mem_cons_of_mem _ hc)
    · intro hsame
      exact hnodup.1 (hsame ▸ List.mem_map_of_mem hc)

theorem find_foldl_insert_cases {α : Type*} {row : α → ρ} {l : List α}
    (h : (l.foldl (fun t a => t.insert (row a)) t).find k = some r) :
    t.find k = some r ∨ ∃ a ∈ l, r = row a := by
  induction l generalizing t with
  | nil => exact .inl h
  | cons b l ih =>
    rcases ih h with hold | ⟨a, ha, rfl⟩
    · rcases find_insert_cases hold with hold | rfl
      · exact .inl hold
      · exact .inr ⟨b, List.mem_cons_self, rfl⟩
    · exact .inr ⟨a, List.mem_cons_of_mem b ha, rfl⟩

/-- `INSERT OR REPLACE`: the row takes the place of whatever its key held. -/
def put (t : Table key) (r : ρ) : Table key := (t.delete (key r)).insert r

@[simp]
theorem find_put (t : Table key) (r : ρ) (k : κ) :
    (t.put r).find k = if key r = k then some r else t.find k := by
  unfold put
  rw [find_insert _ _ (by rw [find_delete, if_pos rfl]), find_delete]
  by_cases hk : key r = k
  · rw [if_pos hk, if_pos hk]
  · rw [if_neg hk, if_neg hk, if_neg (Ne.symm hk)]

theorem length_le_of_find (h : ∀ k r, t.find k = some r → ∃ r', t'.find k = some r') :
    t.rows.length ≤ t'.rows.length := by
  have hsub : t.rows.map key ⊆ t'.rows.map key := by
    intro k hk
    obtain ⟨r, hr, rfl⟩ := List.mem_map.mp hk
    obtain ⟨r', hr'⟩ := h (key r) r (mem_rows_iff.mp hr)
    exact key_of_find hr' ▸ List.mem_map_of_mem (mem_of_find hr')
  simpa using (t.nodup.subperm hsub).length_le

theorem length_lt_of_find {k₀ : κ} {r₀ : ρ}
    (h : ∀ k r, t.find k = some r → ∃ r', t'.find k = some r') (hn : t.find k₀ = none)
    (h₀ : t'.find k₀ = some r₀) : t.rows.length < t'.rows.length := by
  have hkey := key_of_find h₀
  have hkept : ∀ k r, (t.insert r₀).find k = some r → ∃ r', t'.find k = some r' := by
    intro k r hr
    cases hold : t.find k with
    | none =>
      have hnew := eq_of_find_insert hr hold
      exact ⟨r₀, by rw [← key_of_find hr, hnew, hkey, h₀]⟩
    | some r₁ => exact h k r₁ hold
  have hlen := length_le_of_find hkept
  rw [rows_insert (hkey ▸ hn), List.length_append, List.length_singleton] at hlen
  omega

/-! ## Scans -/

theorem any_iff : t.any p = true ↔ ∃ k r, t.find k = some r ∧ p r = true := by
  unfold any
  rw [List.any_eq_true]
  constructor
  · rintro ⟨r, hr, hp⟩
    exact ⟨key r, r, mem_rows_iff.mp hr, hp⟩
  · rintro ⟨k, r, hr, hp⟩
    exact ⟨r, mem_of_find hr, hp⟩

theorem any_eq_false_iff :
    t.any p = false ↔ ∀ k r, t.find k = some r → p r = false := by
  rw [← Bool.not_eq_true, any_iff]
  simp

/-! ## Totals

A write to one row changes a total by that row's own weight, before and after. -/

theorem rows_split (h : t.find k = some r) :
    ∃ l₁ l₂, t.rows = l₁ ++ r :: l₂ ∧ (∀ r' ∈ l₁, key r' ≠ k) ∧ ∀ r' ∈ l₂, key r' ≠ k := by
  obtain ⟨l₁, l₂, hrows⟩ := List.append_of_mem (mem_of_find h)
  have hk := key_of_find h
  have hnd := t.nodup
  rw [hrows, List.map_append, List.map_cons, List.nodup_middle, List.nodup_cons, hk] at hnd
  refine ⟨l₁, l₂, hrows, ?_, ?_⟩
  · intro r' hr' heq
    apply hnd.1
    rw [← heq]
    exact List.mem_append_left _ (List.mem_map_of_mem hr')
  · intro r' hr' heq
    apply hnd.1
    rw [← heq]
    exact List.mem_append_right _ (List.mem_map_of_mem hr')

theorem update_of_none {f : ρ → ρ} (hf : ∀ r, key (f r) = key r)
    (h : t.find k = none) : t.update k f hf = t := by
  apply ext_rows
  show t.rows.map _ = t.rows
  conv_rhs => rw [← List.map_id t.rows]
  apply List.map_congr_left
  intro r' hr'
  have hk : key r' ≠ k := by
    intro hk
    rw [mem_rows_iff, hk, h] at hr'
    cases hr'
  simp [hk]

theorem total_update (h : t.find k = some r) (g : ρ → ρ) (hg : ∀ r, key (g r) = key r) (f : ρ → Nat)
    : (t.update k g hg).total f + f r = t.total f + f (g r) := by
  obtain ⟨l₁, l₂, hrows, h₁, h₂⟩ := rows_split h
  have hk := key_of_find h
  have hmap : ∀ l : List ρ, (∀ r' ∈ l, key r' ≠ k) →
      l.map (fun r' => if decide (key r' = k) then g r' else r') = l := by
    intro l hl
    conv_rhs => rw [← List.map_id l]
    apply List.map_congr_left
    intro r' hr'
    simp [hl r' hr']
  have hnew : (t.update k g hg).rows = l₁ ++ g r :: l₂ := by
    show t.rows.map _ = _
    rw [hrows, List.map_append, List.map_cons, hmap l₁ h₁, hmap l₂ h₂]
    simp [hk]
  rw [total, total, hnew, hrows]
  simp only [List.map_append, List.map_cons, List.sum_append, List.sum_cons]
  omega

theorem total_delete (h : t.find k = some r) (f : ρ → Nat) :
    (t.delete k).total f + f r = t.total f := by
  obtain ⟨l₁, l₂, hrows, h₁, h₂⟩ := rows_split h
  have hk := key_of_find h
  have hfilter : ∀ l : List ρ, (∀ r' ∈ l, key r' ≠ k) →
      l.filter (fun r' => !decide (key r' = k)) = l := by
    intro l hl
    rw [List.filter_eq_self]
    intro r' hr'
    simp [hl r' hr']
  have hnew : (t.delete k).rows = l₁ ++ l₂ := by
    show t.rows.filter _ = _
    rw [hrows, List.filter_append, List.filter_cons, hfilter l₁ h₁, hfilter l₂ h₂]
    simp [hk]
  rw [total, total, hnew, hrows]
  simp only [List.map_append, List.map_cons, List.sum_append, List.sum_cons]
  omega

theorem total_insert (h : t.find (key r) = none) {f : ρ → Nat} :
    (t.insert r).total f = t.total f + f r := by
  have hrows := rows_insert h
  unfold total
  rw [hrows]
  simp

end Keyed

theorem total_deleteWhere (t : Table key) (p : ρ → Bool) (f : ρ → Nat)
    (h : ∀ r ∈ t.rows, p r = true → f r = 0) : (t.deleteWhere p).total f = t.total f := by
  have main : ∀ l : List ρ, (∀ r ∈ l, p r = true → f r = 0) →
      ((l.filter fun r => !p r).map f).sum = (l.map f).sum := by
    intro l
    induction l with
    | nil => exact fun _ => rfl
    | cons r l ih =>
      intro hl
      have htail := ih fun r' hr' => hl r' (List.mem_cons_of_mem _ hr')
      by_cases hp : p r
      · have hr := hl r List.mem_cons_self hp
        rw [List.filter_cons_of_neg (by simp [hp]), htail, List.map_cons, List.sum_cons, hr,
          Nat.zero_add]
      · rw [List.filter_cons_of_pos (by simp [hp]), List.map_cons, List.map_cons, List.sum_cons,
          List.sum_cons, htail]
  exact main t.rows h

variable {t : Table key} {p : ρ → Bool}

theorem count_eq_total :
    t.count p = t.total fun r => if p r then 1 else 0 := by
  unfold count total
  induction t.rows with
  | nil => rfl
  | cons r l ih =>
    rw [List.countP_cons, List.map_cons, List.sum_cons, ih]
    omega

/-- A write that does not move its rows in or out of `q` leaves the number of rows in `q`. -/
theorem count_updateWhere {q : ρ → Bool} {f : ρ → ρ} (hf : ∀ r, key (f r) = key r)
    (h : ∀ r, p r = true → q (f r) = q r) : (t.updateWhere p f hf).count q = t.count q := by
  unfold count updateWhere
  rw [List.countP_map]
  apply List.countP_congr
  intro r _
  by_cases hp : p r
  · simp [hp, h r hp]
  · simp [hp]

theorem count_replace [DecidableEq κ] {r old : ρ} (h : t.find (key r) = some old) (q : ρ → Bool) :
    ((t.replace r).count q + if q old then 1 else 0) = t.count q + if q r then 1 else 0 := by
  rw [count_eq_total, count_eq_total]
  have hmvd := total_update h (fun r' => if key r' = key r then r else r') (by
    intro r'
    by_cases hk : key r' = key r
    · rw [if_pos hk, hk]
    · rw [if_neg hk]) fun r => if q r then 1 else 0
  rw [if_pos (key_of_find h)] at hmvd
  exact hmvd

theorem total_eq_zero_iff {f : ρ → Nat} : t.total f = 0 ↔ ∀ r ∈ t.rows, f r = 0 := by
  unfold total
  rw [List.sum_eq_zero_iff_forall_eq_nat]
  simp

end Table

/-! ## Tables that number their rows -/

/-- A table under an `INTEGER PRIMARY KEY AUTOINCREMENT`: every row's number is below the next
one to be given, so a number is never given twice, not even after its row is deleted. -/
structure AutoTable {ρ : Type u} (key : ρ → Nat) where
  table : Table key
  next : Nat
  fresh : ∀ r ∈ table.rows, key r < next

namespace AutoTable

variable {ρ : Type u} {key : ρ → Nat} {t : AutoTable key} {k : Nat} {p : ρ → Bool}

def empty : AutoTable key := ⟨Table.empty, 1, by simp [Table.empty]⟩

theorem find_next (t : AutoTable key) : t.table.find t.next = none := by
  rw [Table.find_eq_none_iff]
  intro hmem
  obtain ⟨r, hr, hk⟩ := List.mem_map.mp hmem
  have := t.fresh r hr
  omega

/-- `INSERT`, with the number the row is given. -/
def insert (t : AutoTable key) (row : Nat → ρ) (hrow : ∀ k, key (row k) = k) : AutoTable key where
  table := t.table.insert (row t.next)
  next := t.next + 1
  fresh := by
    intro r hr
    have hnone : t.table.find (key (row t.next)) = none := by rw [hrow, t.find_next]
    rw [Table.mem_rows_iff, Table.find_insert _ _ hnone] at hr
    by_cases hk : key (row t.next) = key r
    · rw [← hk, hrow]
      omega
    · rw [if_neg hk] at hr
      have := t.fresh r (Table.mem_of_find hr)
      omega

/-- `UPDATE ... SET f WHERE key = k`. -/
def update (t : AutoTable key) (k : Nat) (f : ρ → ρ) (hf : ∀ r, key (f r) = key r) :
    AutoTable key where
  table := t.table.update k f hf
  next := t.next
  fresh := by
    intro r hr
    rw [Table.mem_rows_iff, Table.find_update] at hr
    split at hr
    · obtain ⟨r', hr', rfl⟩ := Option.map_eq_some_iff.mp hr
      rw [hf]
      exact t.fresh r' (Table.mem_of_find hr')
    · exact t.fresh r (Table.mem_of_find hr)

/-- `DELETE ... WHERE p`. -/
def deleteWhere (t : AutoTable key) (p : ρ → Bool) : AutoTable key where
  table := t.table.deleteWhere p
  next := t.next
  fresh := fun r hr => t.fresh r (List.mem_filter.mp hr).1

/-- `DELETE ... WHERE key = k AND p`. -/
def delete (t : AutoTable key) (k : Nat) (p : ρ → Bool) : AutoTable key :=
  t.deleteWhere fun r => key r = k && p r

theorem find_delete_of_ne {k' : Nat} (hne : k' ≠ k) :
    (t.delete k p).table.find k' = t.table.find k' := by
  show (t.table.deleteWhere _).find k' = _
  rw [Table.find_deleteWhere]
  cases hf : t.table.find k' with
  | none => rfl
  | some r => simp [Table.key_of_find hf, hne]

theorem delete_table {r : ρ} (h : t.table.find k = some r) (hp : p r = true) :
    (t.delete k p).table = t.table.delete k := by
  apply Table.ext_rows
  show t.table.rows.filter _ = t.table.rows.filter _
  apply List.filter_congr
  intro r' hr'
  by_cases hk : key r' = k
  · rw [Table.mem_rows_iff, hk, h] at hr'
    cases hr'
    simp [hk, hp]
  · simp [hk]

theorem delete_table_of_none (p : ρ → Bool)
    (h : t.table.find k = none) : (t.delete k p).table = t.table := by
  apply Table.ext_rows
  show t.table.rows.filter _ = t.table.rows
  rw [List.filter_eq_self]
  intro r' hr'
  have hk : key r' ≠ k := by
    intro hk
    rw [Table.mem_rows_iff, hk, h] at hr'
    cases hr'
  simp [hk]

theorem update_table {f : ρ → ρ} (hf : ∀ r, key (f r) = key r) :
    (t.update k f hf).table = t.table.update k f hf := rfl

end AutoTable

end Wefty.Tables
