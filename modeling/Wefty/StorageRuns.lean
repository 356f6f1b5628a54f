/-
The Storage of a Computer over whole runs.

Four operations publish a generation (a reset, a restore, a clone, an import) and three give one up
(an abort, a refused copy, a removal), each in two or more transactions that others may come
between. What they have in common is the row of the Computer: the generation it names is the only
one that can be current (`Stored`), and a generation only grows older (`ages`).
-/
import Wefty.StoreRuns

set_option autoImplicit false

namespace Wefty.StorageRuns

open Tables StoreRows Operations StoreRules ClaimRules StoreRuns

theorem current_length_le_one {computer : Computer} (h : Stored computer) :
    (computer.generations.filter fun g => g.phase = .current).length ≤ 1 := by
  have hnodup : ((computer.generations.filter fun g => g.phase = .current).map
      StorageGeneration.storageGeneration).Nodup :=
    h.numbers.sublist (List.filter_sublist.map _)
  -- All of them have the number the Computer names, and no number is there twice.
  have hsame : (computer.generations.filter fun g => g.phase = .current).map
      StorageGeneration.storageGeneration = List.replicate
        (computer.generations.filter fun g => g.phase = .current).length
        computer.storageGeneration := by
    refine List.eq_replicate_iff.mpr ⟨List.length_map _, fun number hnum => ?_⟩
    obtain ⟨g, hg, rfl⟩ := List.mem_map.mp hnum
    obtain ⟨hmem, hcur⟩ := List.mem_filter.mp hg
    exact h.current g hmem (by simpa using hcur)
  rw [hsame] at hnodup
  exact List.nodup_replicate.mp hnodup

/-- **One current Storage generation.** However creation, resets, restores, clones, imports, aborts,
growth and removals come between each other, a Computer has at most one current generation, and
it is the one the Computer names. A generation goes from staging to current to retired or from
staging to retired, and never back. And a claim takes the Job of a Computer only while the
generation the Computer names is current. -/
theorem one_current_generation (events later : List Event) :
    (∀ {id computer}, (reached events).computers.find id = some computer →
      (computer.generations.filter fun g => g.phase = .current).length ≤ 1 ∧
      ∀ g ∈ computer.generations, g.phase = .current →
        g.storageGeneration = computer.storageGeneration) ∧
    (∀ {id computer computer'}, (reached events).computers.find id = some computer →
      (reached (events ++ later)).computers.find id = some computer' →
      ∀ g ∈ computer.generations, (∃ g' ∈ computer'.generations,
        g'.storageGeneration = g.storageGeneration) ∧
        ∀ g' ∈ computer'.generations, g'.storageGeneration = g.storageGeneration →
          ages g.phase g'.phase) ∧
    (∀ {e jobID job}, Claimed (reached events) e jobID →
      (reached events).jobs.find jobID = some job →
      ∀ computerID ∈ job.computerForJob, Published (reached events) computerID) := by
  have hinv := reached_inv events
  have hinv' := reached_inv (events ++ later)
  refine ⟨fun {id computer} hfind => ?_, fun {id computer computer'} hfind hfind' g hg => ?_,
    fun {e jobID job} hclaim hjob => ?_⟩
  · have hstore := hinv.layout.stored hfind
    exact ⟨current_length_le_one hstore, hstore.current⟩
  · have hfol := (reached_follows events later).computer hfind hfind'
    obtain ⟨aged, haged, hnum, hages⟩ := hfol.generation g hg
    refine ⟨⟨aged, haged, hnum⟩, fun g' hg' hnum' => ?_⟩
    have hstore := hinv'.layout.stored hfind'
    rw [List.inj_on_of_nodup_map hstore.numbers hg' haged (hnum'.trans hnum.symm)]
    exact hages
  · obtain ⟨taken, hid, htook⟩ := (reached_outcome events e).took_of_claimed hinv hclaim
    have hfnd := htook.found
    rw [hid, hjob] at hfnd
    cases hfnd
    exact htook.published

end Wefty.StorageRuns
