/-
Writes to Computers and Storage copies, and the claim.

A Computer stands in two relations to the rest of the store: to its Job (`Placed`) and to the
copies into it (`Linked`). A write to a Computer shows both for the row it leaves; a write to the
copies changes no more than their status. A claim binds a new attempt, and the phase of the
Computer is what lets it hold the Job.
-/
import Wefty.StoreWrites
import Wefty.StorageCopies

set_option autoImplicit false

namespace Wefty.ComputerWrites

open Tables StoreRows AttemptRules ControlStore StoreRules StoreWrites Computers

variable {computer computer' : Computer} {nextID : Nat} {copy : StorageCopy}
variable {computers : Table Computer.computerID} {rows : Table StorageCopy.key}

/-! ## 1. Computers -/

section
variable {copies : Prop} {s : Store}

theorem holds_layout {key hash id : Nat} :
    Holds { s with computers, copies := rows, nextID } key hash id ↔ Holds s key hash id := by
  constructor <;> intro h <;> cases h with
  | job old hold hkey hhash => exact .job old hold hkey hhash
  | tombstone t ht hkey hhash => exact .tombstone t ht hkey hhash

section
variable (hinv : Inv copies s) (hnext : s.nextID ≤ nextID)
  (hlayout : Layout { s with computers, copies := rows, nextID })
  (hcomps : ∀ {id computer}, computers.find id = some computer →
    id < nextID ∧ computer.currentJobID < nextID)
  (hcopies : ∀ {k copy}, rows.find k = some copy →
    copy.destinationComputerID < nextID ∧ copy.jobID < nextID)
  (himpd : ¬ copies → ∀ {k copy}, rows.find k = some copy → copy.operation ≠ .custodyImport)
include hinv hnext hlayout hcomps hcopies himpd

theorem inv_layout : Inv copies { s with computers, copies := rows, nextID } where
  sound := hinv.sound
  owned := hinv.owned
  bound := hinv.bound
  distinct := hinv.distinct
  fresh := {
    jobs := fun hj => lt_of_lt_of_le (hinv.fresh.jobs hj) hnext
    attempts := fun ha => lt_of_lt_of_le (hinv.fresh.attempts ha) hnext
    tombstones := fun ht => lt_of_lt_of_le (hinv.fresh.tombstones ht) hnext
    computers := hcomps
    copies := hcopies }
  keys := ⟨hinv.keys.buried, hinv.keys.forgotten, fun hn {_ _ _ _ _} hi hj =>
    hinv.keys.unique hn (holds_layout.mp hi) (holds_layout.mp hj), himpd⟩
  layout := hlayout

theorem onward_layout (hfol : ∀ {id computer}, computers.find id = some computer → id < s.nextID →
      ∃ old, s.computers.find id = some old ∧ ComputerFollows old computer) :
    Onward copies noLeave s { s with computers, copies := rows, nextID } where
  inv := inv_layout hinv hnext hlayout hcomps hcopies himpd
  follows := {
    Follows.refl copies noLeave s with
    nextID := hnext
    holds := fun _ _ _ _ h => holds_layout.mpr h
    computer := fun hc hc' => by
      obtain ⟨old, hold, hold'⟩ := hfol hc' (hinv.fresh.computers hc).1
      rw [hc] at hold
      cases hold
      exact hold'
    oldComputer := fun hc' hlt => by
      obtain ⟨old, hold, -⟩ := hfol hc' hlt
      exact ⟨old, hold⟩ }

end

theorem onward_nextID (hinv : Inv copies s) (hnext : s.nextID ≤ nextID) :
    Onward copies noLeave s { s with nextID := nextID } :=
  onward_layout hinv hnext { hinv.layout with }
    (fun hc => (hinv.fresh.computers hc).imp (lt_of_lt_of_le · hnext) (lt_of_lt_of_le · hnext))
    (fun hc => (hinv.fresh.copies hc).imp (lt_of_lt_of_le · hnext) (lt_of_lt_of_le · hnext))
    hinv.keys.imported fun hc _ => ⟨_, hc, .refl _⟩

theorem find_setComputer_cases {new : Computer} {id : Nat}
    (hid : computer'.computerID = computer.computerID)
    (hnew : (s.setComputer computer').computers.find id = some new) :
    id = computer.computerID ∧ new = computer' ∨ s.computers.find id = some new := by
  obtain ⟨heq, rfl⟩ | ⟨-, hold⟩ := Table.find_replace_cases hnew
  · exact .inl ⟨heq.symm.trans hid, rfl⟩
  · exact .inr hold

section
variable (hinv : Inv copies s) (hfind : s.computers.find computer.computerID = some computer)
  (hid : computer'.computerID = computer.computerID) (hstore : Stored computer → Stored computer')
  (hplace : ∀ {job}, s.jobs.find computer'.currentJobID = some job → Placed computer' job)
  (hlink : ∀ {k copy}, s.copies.find k = some copy →
    copy.destinationComputerID = computer.computerID → Linked copy computer → Linked copy computer')
include hinv hfind hid hstore hplace hlink

theorem layout_setComputer (himpg : ∀ {k copy}, s.copies.find k = some copy →
      copy.destinationComputerID = computer.computerID → copy.operation = .custodyImport →
      copy.status = .reserved → Importing copy computer → Importing copy computer') :
    Layout (s.setComputer computer') := by
  refine ⟨?_, ?_, ?_, hinv.layout.copied, ?_⟩
  · intro id new hnew
    rcases find_setComputer_cases hid hnew with ⟨-, rfl⟩ | hnew
    · exact hstore (hinv.layout.stored hfind)
    · exact hinv.layout.stored hnew
  · intro id new job hnew hj
    rcases find_setComputer_cases hid hnew with ⟨-, rfl⟩ | hnew
    · exact hplace hj
    · exact hinv.layout.placed hnew hj
  · intro k copy new hcopy hnew
    rcases find_setComputer_cases hid hnew with ⟨hdest, rfl⟩ | hnew
    · exact hlink hcopy hdest (hinv.layout.linked hcopy (hdest ▸ hfind))
    · exact hinv.layout.linked hcopy hnew
  · intro k copy hcopy himp hres
    obtain ⟨old, hold, hrun⟩ := hinv.layout.importing hcopy himp hres
    have hnew := Table.find_replace_of_find hfind hid copy.destinationComputerID
    by_cases hdest : computer.computerID = copy.destinationComputerID
    · rw [← hdest, hfind] at hold
      cases hold
      exact ⟨computer', hnew.trans (if_pos hdest), himpg hcopy hdest.symm himp hres hrun⟩
    · exact ⟨old, (hnew.trans (if_neg hdest)).trans hold, hrun⟩

/-- **One Computer, put back for another Job.** -/
theorem inv_transferComputer (hnext : computer'.currentJobID < s.nextID)
    (himpg : computer.phase ≠ .importing) : Inv copies (s.setComputer computer') := by
  have hlayout : Layout (s.setComputer computer') :=
    layout_setComputer hinv hfind hid hstore hplace hlink
      fun _ _ _ _ hrun => absurd hrun.phase himpg
  refine inv_layout hinv le_rfl hlayout ?_ hinv.fresh.copies hinv.keys.imported
  intro id new hnew
  rcases find_setComputer_cases hid hnew with ⟨rfl, rfl⟩ | hnew
  · exact ⟨(hinv.fresh.computers hfind).1, hnext⟩
  · exact hinv.fresh.computers hnew

end

/-- **One Computer, put back**, for the same Job. -/
theorem onward_setComputer (hinv : Inv copies s)
    (hfind : s.computers.find computer.computerID = some computer)
    (hid : computer'.computerID = computer.computerID)
    (hfol : ComputerFollows computer computer') (hstore : Stored computer → Stored computer')
    (hplace : ∀ {job}, s.jobs.find computer.currentJobID = some job → Placed computer job →
      Placed computer' job) (hlink : ∀ {k copy}, s.copies.find k = some copy →
      copy.destinationComputerID = computer.computerID → Linked copy computer →
      Linked copy computer') (himpg : ∀ {k copy}, s.copies.find k = some copy →
      copy.destinationComputerID = computer.computerID → copy.operation = .custodyImport →
      copy.status = .reserved → Importing copy computer → Importing copy computer') :
    Onward copies noLeave s (s.setComputer computer') := by
  have hjob := hfol.currentJobID_eq
  have hlayout : Layout (s.setComputer computer') :=
    layout_setComputer hinv hfind hid hstore
      (fun hj => hplace (hjob ▸ hj) (hinv.layout.placed hfind (hjob ▸ hj))) hlink himpg
  refine onward_layout hinv le_rfl hlayout ?_ hinv.fresh.copies hinv.keys.imported ?_
  · intro id new hnew
    rcases find_setComputer_cases hid hnew with ⟨rfl, rfl⟩ | hnew
    · rw [hjob]
      exact hinv.fresh.computers hfind
    · exact hinv.fresh.computers hnew
  · intro id new hnew _
    rcases find_setComputer_cases hid hnew with ⟨rfl, rfl⟩ | hnew
    · exact ⟨computer, hfind, hfol⟩
    · exact ⟨new, hnew, .refl new⟩

theorem find_setComputer (hfind : s.computers.find computer.computerID = some computer)
    (hid : computer'.computerID = computer.computerID) :
    (s.setComputer computer').computers.find computer.computerID = some computer' := by
  show (s.computers.replace computer').find computer.computerID = _
  rw [Table.find_replace, if_pos hid, hfind]
  rfl

theorem linked_of_lt (h : Linked copy computer)
    (hlt : computer.intentRevision < computer'.intentRevision) : Linked copy computer' :=
  have hlate : copy.operationRevision ≠ computer'.intentRevision := by
    have := h.revision
    omega
  ⟨h.revision.trans hlt.le, fun heq => absurd heq hlate, fun heq => absurd heq hlate⟩

theorem linked_of_idle (h : Linked copy computer)
    (hle : computer.intentRevision ≤ computer'.intentRevision)
    (hph : copying computer'.phase = false) : Linked copy computer' :=
  { revision := h.revision.trans hle
    job := fun _ hc => by
      rw [hph] at hc
      cases hc
    restored := fun _ hc => by
      rw [hc] at hph
      cases hph }

theorem importing_of_ne (hne : computer.phase ≠ .importing) (h : Importing copy computer)
    : Importing copy computer' :=
  absurd h.phase hne

theorem onward_insertComputer (hinv : Inv copies s) {job : Job}
    (hid : computer.computerID = s.nextID) (hlt : computer.currentJobID < s.nextID)
    (hjob : s.jobs.find computer.currentJobID = some job) (hplace : Placed computer job)
    (hstore : Stored computer) :
    Onward copies noLeave s
      { s with computers := s.computers.insert computer, nextID := s.nextID + 1 } := by
  have hfree : s.computers.find computer.computerID = none := by
    by_contra hsome
    obtain ⟨old, hold⟩ := Option.ne_none_iff_exists'.mp hsome
    have := (hinv.fresh.computers hold).1
    omega
  have hcases : ∀ {id new}, (s.computers.insert computer).find id = some new →
      id = s.nextID ∧ new = computer ∨ s.computers.find id = some new := by
    intro id new hnew
    rw [Table.find_insert _ _ hfree, hid] at hnew
    split at hnew
    next heq => exact .inl ⟨heq.symm, (Option.some.inj hnew).symm⟩
    · exact .inr hnew
  refine onward_layout hinv (Nat.le_succ _) ⟨?_, ?_, ?_, hinv.layout.copied, ?_⟩ ?_
    (fun hc => (hinv.fresh.copies hc).imp Nat.lt_succ_of_lt Nat.lt_succ_of_lt) hinv.keys.imported ?_
  · intro id new hnew
    rcases hcases hnew with ⟨-, rfl⟩ | hnew
    · exact hstore
    · exact hinv.layout.stored hnew
  · intro id new job' hnew hj
    rcases hcases hnew with ⟨-, rfl⟩ | hnew
    · have hsame : some job = some job' := hjob.symm.trans hj
      cases hsame
      exact hplace
    · exact hinv.layout.placed hnew hj
  · intro k copy new hcopy hnew
    rcases hcases hnew with ⟨hdest, rfl⟩ | hnew
    · -- No copy is into a Computer that was not there.
      have := (hinv.fresh.copies hcopy).1
      omega
    · exact hinv.layout.linked hcopy hnew
  · intro k copy hcopy himp hres
    obtain ⟨old, hold, hrun⟩ := hinv.layout.importing hcopy himp hres
    exact ⟨old, Table.find_insert_of_some hold, hrun⟩
  · intro id new hnew
    rcases hcases hnew with ⟨rfl, rfl⟩ | hnew
    · exact ⟨Nat.lt_succ_self _, Nat.lt_succ_of_lt hlt⟩
    · exact (hinv.fresh.computers hnew).imp Nat.lt_succ_of_lt Nat.lt_succ_of_lt
  · intro id new hnew hlt
    rcases hcases hnew with ⟨rfl, rfl⟩ | hnew
    · omega
    · exact ⟨new, hnew, .refl new⟩

/-- A Computer that is taken back, when no import into it is running. -/
theorem onward_deleteComputer (hinv : Inv copies s) (computerID : Nat)
    (hover : ∀ {k copy}, s.copies.find k = some copy → copy.operation = .custodyImport →
      copy.status = .reserved → copy.destinationComputerID ≠ computerID) :
    Onward copies noLeave s { s with computers := s.computers.delete computerID } := by
  have hold : ∀ {id computer}, (s.computers.delete computerID).find id = some computer →
      s.computers.find id = some computer := fun hc => (Table.find_of_find_delete hc).2
  exact onward_layout hinv le_rfl ⟨fun hc => hinv.layout.stored (hold hc),
    fun hc hj => hinv.layout.placed (hold hc) hj,
    fun hcopy hc => hinv.layout.linked hcopy (hold hc), hinv.layout.copied,
    fun hcopy himp hres => by
      obtain ⟨computer, hfind, hrun⟩ := hinv.layout.importing hcopy himp hres
      refine ⟨computer, ?_, hrun⟩
      show (s.computers.delete computerID).find _ = _
      rw [Table.find_delete, if_neg (hover hcopy himp hres), hfind]⟩
    (fun hc => hinv.fresh.computers (hold hc)) hinv.fresh.copies hinv.keys.imported
    fun hc _ => ⟨_, hold hc, .refl _⟩

/-! ## 2. Copies -/

theorem onward_copies (hinv : Inv copies s)
    (hrows : ∀ {k copy'}, rows.find k = some copy' → ∃ copy, s.copies.find k = some copy ∧
      copy'.destinationComputerID = copy.destinationComputerID ∧
      copy'.operationRevision = copy.operationRevision ∧ copy'.jobID = copy.jobID ∧
      copy'.operation = copy.operation ∧ (copy'.status = .reserved → copy.status = .reserved)) :
    Onward copies noLeave s { s with copies := rows } := by
  refine onward_layout hinv le_rfl ⟨hinv.layout.stored, hinv.layout.placed, ?_, ?_, ?_⟩
    hinv.fresh.computers ?_ ?_ fun hc _ => ⟨_, hc, .refl _⟩
  · intro k copy' computer hcopy hc
    obtain ⟨copy, hfind, hdest, hrev, hjob, hoper, -⟩ := hrows hcopy
    rw [hdest] at hc
    have hlink := hinv.layout.linked hfind hc
    refine ⟨by rw [hrev]; exact hlink.revision, fun heq => ?_, fun heq => ?_⟩
    · rw [hjob]
      exact hlink.job (hrev.symm.trans heq)
    · rw [hoper]
      exact hlink.restored (hrev.symm.trans heq)
  · intro k copy' job hcopy hj
    obtain ⟨copy, hfind, -, -, hjob, -⟩ := hrows hcopy
    rw [hjob] at hj
    exact hinv.layout.copied hfind hj
  · intro k copy' hcopy himp hres
    obtain ⟨copy, hfind, hdest, hrev, hjob, hoper, hstat⟩ := hrows hcopy
    obtain ⟨computer, hc, hrun⟩ :=
      hinv.layout.importing hfind (hoper.symm.trans himp) (hstat hres)
    refine ⟨computer, by rw [hdest]; exact hc, hrun.phase, hjob.trans hrun.job,
      hrev.trans hrun.revision⟩
  · intro k copy' hcopy
    obtain ⟨copy, hfind, hdest, -, hjob, -⟩ := hrows hcopy
    rw [hdest, hjob]
    exact hinv.fresh.copies hfind
  · intro hn k copy' hcopy
    obtain ⟨copy, hfind, -, -, -, hoper, -⟩ := hrows hcopy
    rw [hoper]
    exact hinv.keys.imported hn hfind

theorem find_markCopies (p : StorageCopy → Bool) (status : CopyStatus) (k : Nat × Nat) :
    (markCopies s p status).copies.find k = (s.copies.find k).map fun copy =>
      if p copy then { copy with status := status } else copy :=
  Table.find_updateWhere s.copies p (fun copy => { copy with status := status }) (fun _ => rfl) k

theorem onward_markCopies (hinv : Inv copies s) (p : StorageCopy → Bool) {status : CopyStatus}
    (hstat : status ≠ .reserved) : Onward copies noLeave s (markCopies s p status) := by
  refine onward_copies hinv fun {k copy'} hcopy => ?_
  obtain ⟨copy, hfind, rfl⟩ :=
    Option.map_eq_some_iff.mp ((find_markCopies p status k).symm.trans hcopy)
  refine ⟨copy, hfind, ?_⟩
  split
  · exact ⟨rfl, rfl, rfl, rfl, fun h => absurd h hstat⟩
  · exact ⟨rfl, rfl, rfl, rfl, id⟩

theorem find_setCopy (hfind : s.copies.find copy.key = some copy) (status : CopyStatus)
    (k : Nat × Nat) :
    (s.setCopy { copy with status := status }).copies.find k =
      if copy.key = k then some { copy with status := status } else s.copies.find k :=
  Table.find_replace_of_find hfind
    (show { copy with status := status }.key = copy.key from rfl) k

theorem onward_setCopy (hinv : Inv copies s) (hfind : s.copies.find copy.key = some copy)
    {status : CopyStatus} (hstat : status ≠ .reserved) :
    Onward copies noLeave s (s.setCopy { copy with status := status }) := by
  refine onward_copies hinv fun {k copy'} hcopy => ?_
  have hcopy := (find_setCopy hfind status k).symm.trans hcopy
  split at hcopy
  next heq =>
    cases hcopy
    exact ⟨copy, heq ▸ hfind, rfl, rfl, rfl, rfl, fun h => absurd h hstat⟩
  · exact ⟨copy', hcopy, rfl, rfl, rfl, rfl, id⟩

theorem onward_insertCopy (hinv : Inv copies s) {job : Job}
    (hcomp : s.computers.find copy.destinationComputerID = some computer)
    (hjob : s.jobs.find copy.jobID = some job) (hsvc : job.service.isSome)
    (hlink : Linked copy computer) (himpd : ¬ copies → copy.operation ≠ .custodyImport)
    (himpg : copy.operation = .custodyImport → Importing copy computer) :
    Onward copies noLeave s { s with copies := s.copies.insert copy } := by
  have hcases : ∀ {k new}, (s.copies.insert copy).find k = some new →
      new = copy ∨ s.copies.find k = some new := fun hnew => (Table.find_insert_cases hnew).symm
  refine onward_layout hinv le_rfl ⟨hinv.layout.stored, hinv.layout.placed, ?_, ?_, ?_⟩
    hinv.fresh.computers ?_ ?_ fun hc _ => ⟨_, hc, .refl _⟩
  · intro k new computer' hnew hc
    rcases hcases hnew with rfl | hnew
    · have hsame : some computer = some computer' := hcomp.symm.trans hc
      cases hsame
      exact hlink
    · exact hinv.layout.linked hnew hc
  · intro k new job' hnew hj
    rcases hcases hnew with rfl | hnew
    · have hsame : some job = some job' := hjob.symm.trans hj
      cases hsame
      exact hsvc
    · exact hinv.layout.copied hnew hj
  · intro k new hnew himp hres
    rcases hcases hnew with rfl | hnew
    · exact ⟨computer, hcomp, himpg himp⟩
    · exact hinv.layout.importing hnew himp hres
  · intro k new hnew
    rcases hcases hnew with rfl | hnew
    · exact ⟨(hinv.fresh.computers hcomp).1, hinv.fresh.jobs hjob⟩
    · exact hinv.fresh.copies hnew
  · intro hn k new hnew
    rcases hcases hnew with rfl | hnew
    · exact himpd hn
    · exact hinv.keys.imported hn hnew

end

end Wefty.ComputerWrites
