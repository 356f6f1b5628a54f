/-
What a verified removal of a Computer says about the copies of its Storage.

A Computer is verified only when the whole component of its Storage is gone, and its component never
grows afterwards: a clone and an export begin at a Computer that still stands, and such a Computer
is in no verified component. An import is the exception. It joins the Storage its manifest names,
the manifest is the caller's, and nothing compares it with what is on record. So the guarantee is
about runs in which no import names a Storage of a verified component; that of a component something
was exported from is never one.
-/
import Wefty.Custody
import Wefty.Runs

set_option autoImplicit false

namespace Wefty.CustodyForks

open Tables Transactions Runs Components Custody
open Wefty.StoreRows (Check DesiredState ReconfigurationPhase)

variable {s : Store} {c c' : Computer} {computerID id storageID : Nat}

/-! ## 1. The invariant -/

/-- Nothing is known to survive of what is connected with a Storage: its Computers are all verified,
nothing of it was exported, and nothing in it was imported. -/
structure Clear (s : Store) (storageID : Nat) : Prop where
  family : ∀ {id c}, s.computers.find id = some c → Connected s.edges storageID c.storageID →
    c.removalOutcome = .removedVerified
  exports : ∀ {id e}, s.exports.find id = some e → Connected s.edges storageID e.sourceStorageID →
    e.tainting = false
  imports : ∀ {p}, p ∈ s.provenance → p.kind = .custodyImport →
    ¬ Connected s.edges storageID p.destinationStorageID

def Importing (s : Store) (copy : StorageCopy) : Prop :=
  ∃ c, s.computers.find copy.destinationComputerID = some c ∧ c.phase = .importing ∧
    c.removalOutcome = .standing ∧ c.storageID = copy.destinationStorageID

structure Inv (s : Store) : Prop where
  verified : ∀ {id c}, s.computers.find id = some c → c.removalOutcome = .removedVerified →
    Clear s c.storageID
  standing : ∀ {id c}, s.computers.find id = some c → c.desiredState ≠ .removed →
    c.removalOutcome = .standing
  removing : ∀ {id c}, s.computers.find id = some c → c.desiredState = .removed →
    c.phase = .removing
  pending : ∀ {id c}, s.computers.find id = some c → c.directive = .standing →
    c.removalOutcome = .removalPending
  backups : ∀ {id b c}, s.backups.find id = some b → s.computers.find b.computerID = some c →
    c.storageID = b.sourceStorageID
  importing : ∀ {id copy}, s.copies.find id = some copy → copy.operation = .custodyImport →
    copy.status = .reserved → Importing s copy

def Kept (s s' : Store) : Prop :=
  ∀ {id c}, s.computers.find id = some c → c.removalOutcome = .removedVerified →
    ∃ c', s'.computers.find id = some c' ∧ c'.removalOutcome = .removedVerified

structure Onward (s s' : Store) : Prop where
  inv : Inv s'
  kept : Kept s s'

theorem Onward.refl (h : Inv s) : Onward s s := ⟨h, fun hc hv => ⟨_, hc, hv⟩⟩

theorem Onward.trans {a b c : Store} (h : Onward a b) (h' : Onward b c) : Onward a c := by
  refine ⟨h'.inv, fun hc hv => ?_⟩
  obtain ⟨c', hc', hv'⟩ := h.kept hc hv
  exact h'.kept hc' hv'

/-! ## 2. Components and rows -/

theorem Clear.apart (h : Clear s storageID) (hc : s.computers.find id = some c)
    (hn : c.removalOutcome ≠ .removedVerified) : ¬ Connected s.edges storageID c.storageID :=
  fun hconn => hn (h.family hc hconn)

/-- The Storage is apart from every verified component. -/
def Apart (s : Store) (storageID : Nat) : Prop :=
  ∀ c ∈ s.computers.rows, c.removalOutcome = .removedVerified →
    ¬ Connected s.edges c.storageID storageID

instance (s : Store) (storageID : Nat) : Decidable (Apart s storageID) :=
  inferInstanceAs (Decidable (∀ c ∈ s.computers.rows, _))

theorem apart_of_fresh (hfresh : storageID ∉ s.storageIDs) : Apart s storageID := by
  intro c hc _ hconn
  have hisolated : ∀ e ∈ s.edges, e.1 ≠ storageID ∧ e.2 ≠ storageID := by
    intro e he
    obtain ⟨p, hp, rfl⟩ := List.mem_map.mp he
    have hrecord : ∀ x ∈ [p.sourceStorageID, p.destinationStorageID], x ∈ s.storageIDs :=
      fun x hx => List.mem_append_right _ (List.mem_flatMap.mpr ⟨p, hp, hx⟩)
    refine ⟨fun heq => hfresh ?_, fun heq => hfresh ?_⟩
    · rw [← heq]
      exact hrecord _ List.mem_cons_self
    · rw [← heq]
      exact hrecord _ (List.mem_cons_of_mem _ List.mem_cons_self)
  have heq := connected_of_isolated hisolated hconn
  have hmem : c.storageID ∈ s.storageIDs := by
    simp only [Store.storageIDs, List.mem_append]
    exact .inl (.inl (.inl (.inl (List.mem_map_of_mem hc))))
  exact hfresh (heq ▸ hmem)

def Idle (s : Store) (computerID : Nat) : Prop :=
  ∀ {id copy}, s.copies.find id = some copy → copy.operation = .custodyImport →
    copy.status = .reserved → copy.destinationComputerID ≠ computerID

/-- What a row says of its own removal. -/
structure Settled (c : Computer) : Prop where
  standing : c.desiredState ≠ .removed → c.removalOutcome = .standing
  removing : c.desiredState = .removed → c.phase = .removing
  pending : c.directive = .standing → c.removalOutcome = .removalPending

theorem find_setComputer (hc : s.computers.find c.computerID = some c)
    (hid : c'.computerID = c.computerID) (id : Nat) : (s.computers.replace c').find id =
      if c.computerID = id then some c' else s.computers.find id :=
  Table.find_replace_of_find hc hid id

theorem find_record (hc : s.computers.find c.computerID = some c) (outcome : RemovalOutcome)
    (id : Nat) : (s.record c.computerID outcome).computers.find id =
      if c.computerID = id then some { c with removalOutcome := outcome }
      else s.computers.find id := by
  unfold Store.record
  rw [Table.find_update]
  by_cases heq : c.computerID = id
  · rw [if_pos heq, if_pos heq.symm, ← heq, hc]
    rfl
  · rw [if_neg heq, if_neg (Ne.symm heq)]

theorem find_none_of_fresh (hid : computerID ∉ s.computerIDs) :
    s.computers.find computerID = none := by
  rw [Table.find_eq_none_iff]
  intro hmem
  refine hid ?_
  simp only [Store.computerIDs, List.mem_append]
  exact .inl (.inl (.inl hmem))

theorem find_insertComputer_self (hid : c.computerID ∉ s.computerIDs) :
    (s.insertComputer c).computers.find c.computerID = some c := by
  show (s.computers.insert c).find c.computerID = some c
  rw [Table.find_insert s.computers c (find_none_of_fresh hid), if_pos rfl]

/-- The verdict is on the Computer itself, and on the others of its fork that were reduced. -/
def Judged (s : Store) (c x : Computer) : Prop :=
  x.computerID = c.computerID ∨
    (Connected s.edges c.storageID x.storageID ∧ x.removalOutcome = .removedReduced)

instance (s : Store) (c x : Computer) : Decidable (Judged s c x) :=
  inferInstanceAs (Decidable (_ ∨ _))

def verdict (s : Store) (c x : Computer) : Computer :=
  if Judged s c x then { x with removalOutcome := .removedVerified } else x

theorem find_upgrade (hc : s.computers.find c.computerID = some c) (id : Nat) :
    ((s.record c.computerID .removedVerified).upgrade c.storageID).computers.find id =
      (s.computers.find id).map (verdict s c) := by
  unfold Store.upgrade
  rw [Table.find_updateWhere, find_record hc]
  have hcustody : ∀ y, y ∈ (s.record c.computerID .removedVerified).custody c.storageID ↔
      Connected s.edges c.storageID y := fun y => mem_component
  simp only [hcustody]
  split
  next heq =>
    have hjudg : Judged s c c := .inl rfl
    rw [← heq, hc]
    simp [verdict, hjudg]
  next hne =>
    apply Option.map_congr
    intro x hx
    have hoth : x.computerID ≠ c.computerID := fun h => hne (h ▸ Table.key_of_find hx)
    simp [verdict, Judged, hoth]

theorem verdict_storageID (c x : Computer) : (verdict s c x).storageID = x.storageID := by
  unfold verdict
  split <;> rfl

/-- Nothing of the fork stands: what is connected with the Computer is gone, and nothing left or
came back. -/
theorem fork_gone (hsurv : s.surviving c = false) (hext : s.externalCustody c = false) :
    (∀ {id x}, s.computers.find id = some x → Connected s.edges c.storageID x.storageID →
      x.computerID ≠ c.computerID → x.removalOutcome.removed = true) ∧
    (∀ {id e}, s.exports.find id = some e → Connected s.edges c.storageID e.sourceStorageID →
      e.tainting = false) ∧
    ∀ {p}, p ∈ s.provenance → p.kind = .custodyImport →
      ¬ Connected s.edges c.storageID p.destinationStorageID := by
  obtain ⟨hexps, himports⟩ := Bool.or_eq_false_iff.mp hext
  refine ⟨fun {id x} hx hconn hoth => ?_, fun {id e} he hconn => ?_,
    fun {p} hp hkind hconn => ?_⟩
  · have hnot := Table.any_eq_false_iff.mp hsurv id x hx
    simpa [mem_component.mpr hconn, hoth, Store.custody] using hnot
  · have hnot := Table.any_eq_false_iff.mp hexps id e he
    simpa [mem_component.mpr hconn, Store.custody] using hnot
  · have hnot := List.any_eq_false.mp himports p hp
    simp [mem_component.mpr hconn, Store.custody, hkind] at hnot

/-- An import that is published names a Storage of no verified component. An acknowledgement that is
refused publishes nothing. -/
def NamesApart (s : Store) : Op → Prop
  | .acknowledgeImport computerID request =>
    (committed (acknowledgeComputerCustodyImport computerID request s)).isSome →
      request.failedAbsent = false → ∀ row ∈ s.copies.find computerID, Apart s row.sourceStorageID
  | _ => True

variable {e : CustodyExport}

theorem tainting_of_planned (h : e.status = .planned) : e.tainting = true := by
  simp [CustodyExport.tainting, h]

theorem reserved_of_supersede {q : StorageCopy → Bool} {copy : StorageCopy}
    (hcopy : (s.copies.updateWhere q (fun x => { x with status := .superseded })
      fun _ => rfl).find id = some copy) (hres : copy.status = .reserved) :
    s.copies.find id = some copy ∧ q copy = false := by
  rw [Table.find_updateWhere] at hcopy
  obtain ⟨x, hx, rfl⟩ := Option.map_eq_some_iff.mp hcopy
  split at hres
  · cases hres
  next hleft =>
    rw [if_neg hleft]
    exact ⟨hx, Bool.eq_false_of_not_eq_true hleft⟩

theorem find_setComputer_self (hc : s.computers.find c.computerID = some c)
    (hid : c'.computerID = c.computerID) :
    (s.setComputer c').computers.find c'.computerID = some c' := by
  show (s.computers.replace c').find c'.computerID = some c'
  rw [find_setComputer hc hid, hid, if_pos rfl]

def removing (c : Computer) : Computer :=
  { c with
    desiredState := .removed
    intentRevision := c.intentRevision + 1
    phase := .removing
    removalOutcome := .removalPending
    directive := if c.boundNodeID.isSome then .standing else .none }

section
variable (hinv : Inv s)
include hinv

/-- **What stands is apart**: a Computer that is not verified is in no verified component. -/
theorem Inv.apart (hc : s.computers.find id = some c)
    (hn : c.removalOutcome ≠ .removedVerified) : Apart s c.storageID := by
  intro x hx hv
  exact (hinv.verified (Table.mem_rows_iff.mp hx) hv).apart hc hn

theorem Inv.apart_export (he : s.exports.find id = some e)
    (htaint : e.tainting = true) : Apart s e.sourceStorageID := by
  intro x hx hv hconn
  have huntch := (hinv.verified (Table.mem_rows_iff.mp hx) hv).exports he hconn
  rw [htaint] at huntch
  cases huntch

/-! ## 3. Writes of a Computer -/

section
variable (hc : s.computers.find id = some c)
include hc

theorem idle_of_phase (hph : c.phase = .importing → c.removalOutcome ≠ .standing) :
    Idle s id := by
  intro k copy hcopy hoper hstat heq
  obtain ⟨c', hc', hph', hout', -⟩ := hinv.importing hcopy hoper hstat
  rw [heq, hc] at hc'
  cases hc'
  exact hph hph' hout'

theorem idle_of_ne (hph : c.phase ≠ .importing) : Idle s id :=
  idle_of_phase hinv hc fun himpg => absurd himpg hph

theorem Inv.stands (hph : c.phase ≠ .removing) : c.desiredState ≠ .removed :=
  fun hremd => hph (hinv.removing hc hremd)

theorem Inv.not_verified (hdes : c.desiredState ≠ .removed) :
    c.removalOutcome ≠ .removedVerified := by
  rw [hinv.standing hc hdes]
  decide

theorem Inv.settled : Settled c :=
  ⟨hinv.standing hc, hinv.removing hc, hinv.pending hc⟩

end

variable {t : Table Computer.computerID}

/-- **Computers are written**, and none that is verified or is imported to. -/
theorem onward_computers (hrows : ∀ {id c}, t.find id = some c → Settled c)
    (hverified : ∀ {id c}, t.find id = some c → c.removalOutcome = .removedVerified →
      Clear { s with computers := t } c.storageID)
    (hbackups : ∀ {id b c}, s.backups.find id = some b → t.find b.computerID = some c →
      c.storageID = b.sourceStorageID)
    (himps : ∀ {id copy c}, s.copies.find id = some copy → copy.operation = .custodyImport →
      copy.status = .reserved → s.computers.find copy.destinationComputerID = some c →
      c.removalOutcome = .standing → t.find copy.destinationComputerID = some c)
    (hkept : ∀ {id c}, s.computers.find id = some c → c.removalOutcome = .removedVerified →
      t.find id = some c) : Onward s { s with computers := t } := by
  refine ⟨⟨hverified, fun hc => (hrows hc).standing, fun hc => (hrows hc).removing,
    fun hc => (hrows hc).pending, hbackups, ?_⟩, fun hc hv => ⟨_, hkept hc hv, hv⟩⟩
  intro id copy hcopy hoper hstat
  obtain ⟨c, hc, hph, hout, hstor⟩ := hinv.importing hcopy hoper hstat
  exact ⟨c, himps hcopy hoper hstat hc hout, hph, hout, hstor⟩

/-- **One Computer** is written that is not verified, is in no verified component, and was none that
is verified. -/
theorem onward_row
    (hfind : ∀ id, t.find id = if computerID = id then some c' else s.computers.find id)
    (hapart : Apart s c'.storageID) (hn' : c'.removalOutcome ≠ .removedVerified)
    (hset : Settled c') (hidle : Idle s computerID)
    (hbackups : ∀ {id b}, s.backups.find id = some b → computerID = b.computerID →
      c'.storageID = b.sourceStorageID)
    (hn : ∀ {c}, s.computers.find computerID = some c → c.removalOutcome ≠ .removedVerified) :
    Onward s { s with computers := t } := by
  refine onward_computers hinv ?_ ?_ ?_ ?_ ?_
  · intro id x hx
    rw [hfind] at hx
    split at hx
    · cases hx
      exact hset
    · exact hinv.settled hx
  · intro id x hx hv
    rw [hfind] at hx
    split at hx
    · cases hx
      exact absurd hv hn'
    have hclear := hinv.verified hx hv
    refine { hclear with family := fun {id y} hy hconn => ?_ }
    rw [hfind] at hy
    split at hy
    · cases hy
      exact absurd hconn (hapart x (Table.mem_of_find hx) hv)
    · exact hclear.family hy hconn
  · intro id b x hb hx
    rw [hfind] at hx
    split at hx
    next heq =>
      cases hx
      exact hbackups hb heq
    · exact hinv.backups hb hx
  · intro id copy x hcopy hoper hstat hx _
    rw [hfind, if_neg fun heq => hidle hcopy hoper hstat heq.symm]
    exact hx
  · intro id x hx hv
    rw [hfind, if_neg ?_]
    · exact hx
    · rintro rfl
      exact hn hx hv

theorem onward_put (hc : s.computers.find c.computerID = some c)
    (hfind : ∀ id, t.find id = if c.computerID = id then some c' else s.computers.find id)
    (hstor : c'.storageID = c.storageID) (hidle : Idle s c.computerID)
    (hn : c.removalOutcome ≠ .removedVerified) (hn' : c'.removalOutcome ≠ .removedVerified)
    (hset : Settled c') : Onward s { s with computers := t } := by
  refine onward_row hinv hfind ?_ hn' hset hidle ?_ ?_
  · rw [hstor]
    exact hinv.apart hc hn
  · intro id b hb heq
    rw [hstor]
    exact hinv.backups hb (heq ▸ hc)
  · intro x hx
    rw [hc] at hx
    cases hx
    exact hn

theorem onward_standing (c' : Computer) (hc : s.computers.find c.computerID = some c)
    (hid : c'.computerID = c.computerID) (hstor : c'.storageID = c.storageID)
    (hidle : Idle s c.computerID) (hdes : c.desiredState ≠ .removed)
    (hdes' : c'.desiredState ≠ .removed) (hout : c'.removalOutcome = c.removalOutcome)
    (hdir : c'.directive = c.directive) : Onward s (s.setComputer c') := by
  have hn := hinv.not_verified hc hdes
  refine onward_put hinv hc (find_setComputer hc hid) hstor hidle hn (hout ▸ hn) ⟨?_, ?_, ?_⟩
  · intro _
    rw [hout]
    exact hinv.standing hc hdes
  · exact fun hremd => absurd hremd hdes'
  · intro hd
    rw [hout]
    exact hinv.pending hc (hdir ▸ hd)

/-- **A new Computer** with a new Storage. -/
theorem onward_insertComputer (hid : c.computerID ∉ s.computerIDs)
    (hfresh : c.storageID ∉ s.storageIDs) (hout : c.removalOutcome = .standing)
    (hdes : c.desiredState ≠ .removed) (hdir : c.directive = .none) :
    Onward s (s.insertComputer c) := by
  have hnone : s.computers.find c.computerID = none := find_none_of_fresh hid
  refine onward_row hinv (Table.find_insert s.computers c hnone) (apart_of_fresh hfresh) ?_
    ⟨fun _ => hout, fun hremd => absurd hremd hdes, ?_⟩ ?_ ?_ ?_
  · rw [hout]
    decide
  · intro hstand
    rw [hdir] at hstand
    cases hstand
  · intro id copy hcopy hoper hstat heq
    obtain ⟨x, hx, -⟩ := hinv.importing hcopy hoper hstat
    rw [heq, hnone] at hx
    cases hx
  · -- A Backup of it would be a record of it.
    intro id b hb heq
    refine absurd ?_ hid
    rw [heq]
    simp only [Store.computerIDs, List.mem_append]
    exact .inl (.inl (.inr (List.mem_map_of_mem (Table.mem_of_find hb))))
  · intro x hx
    rw [hnone] at hx
    cases hx

/-- **A Computer is released** whose removal was not verified. -/
theorem onward_deleteComputer (hidle : Idle s computerID)
    (hn : ∀ {c}, s.computers.find computerID = some c → c.removalOutcome ≠ .removedVerified) :
    Onward s { s with computers := s.computers.delete computerID } := by
  have hold : ∀ {id x}, (s.computers.delete computerID).find id = some x →
      s.computers.find id = some x := fun hx => (Table.find_of_find_delete hx).2
  refine onward_computers hinv (fun hx => hinv.settled (hold hx)) ?_
    (fun hb hx => hinv.backups hb (hold hx)) ?_ ?_
  · intro id x hx hv
    have hclear := hinv.verified (hold hx) hv
    exact { hclear with family := fun hy => hclear.family (hold hy) }
  · intro id copy x hcopy hoper hstat hx _
    rw [Table.find_delete, if_neg (hidle hcopy hoper hstat)]
    exact hx
  · intro id x hx hv
    rw [Table.find_delete, if_neg ?_]
    · exact hx
    · rintro rfl
      exact hn hx hv

/-! ## 4. Writes of the other tables -/

/-- **Exports.** What may have left is apart from every verified component. -/
theorem onward_exports {t : Table CustodyExport.exportID}
    (h : ∀ {id e}, t.find id = some e → e.tainting = true → Apart s e.sourceStorageID) :
    Onward s { s with exports := t } := by
  refine ⟨{ hinv with verified := fun {id c} hc hv => ?_ }, fun hc hv => ⟨_, hc, hv⟩⟩
  refine { hinv.verified hc hv with exports := fun {id e} he hconn => ?_ }
  by_contra htaint
  exact h he (Bool.eq_true_of_not_eq_false htaint) c (Table.mem_of_find hc) hv hconn

/-- **Provenance.** An edge between Storages that are both apart leaves every verified component as
it is. -/
theorem onward_provenance {p : Provenance} (hsrc : Apart s p.sourceStorageID)
    (hdest : Apart s p.destinationStorageID) :
    Onward s { s with provenance := p :: s.provenance } := by
  have hsame : ∀ {id c x}, s.computers.find id = some c → c.removalOutcome = .removedVerified →
      (Connected (p.edge :: s.edges) c.storageID x ↔ Connected s.edges c.storageID x) :=
    fun hc hv => connected_cons_of_apart (hsrc _ (Table.mem_of_find hc) hv)
      (hdest _ (Table.mem_of_find hc) hv)
  refine ⟨{ hinv with verified := fun {id c} hc hv => ?_ }, fun hc hv => ⟨_, hc, hv⟩⟩
  have hclear := hinv.verified hc hv
  refine ⟨fun hx hconn => hclear.family hx ((hsame hc hv).mp hconn),
    fun he hconn => hclear.exports he ((hsame hc hv).mp hconn), ?_⟩
  intro q hq hkind hconn
  rcases List.mem_cons.mp hq with rfl | hold
  · exact hdest c (Table.mem_of_find hc) hv ((hsame hc hv).mp hconn)
  · exact hclear.imports hold hkind ((hsame hc hv).mp hconn)

theorem onward_copies {t : Table StorageCopy.destinationComputerID}
    (h : ∀ {id copy}, t.find id = some copy → copy.operation = .custodyImport →
      copy.status = .reserved → Importing s copy) : Onward s { s with copies := t } :=
  ⟨{ hinv with
      verified := fun hc hv => { hinv.verified hc hv with }
      importing := h }, fun hc hv => ⟨_, hc, hv⟩⟩

theorem onward_backups {t : Table Backup.backupID}
    (h : ∀ {id b c}, t.find id = some b → s.computers.find b.computerID = some c →
      c.storageID = b.sourceStorageID) : Onward s { s with backups := t } :=
  ⟨{ hinv with
      verified := fun hc hv => { hinv.verified hc hv with }
      backups := h }, fun hc hv => ⟨_, hc, hv⟩⟩

/-! ## 5. The outcome of a removal -/

/-- **The verdict.** With the last Computer of a fork gone, the whole fork is verified; a Computer
that was verified before is in another one. -/
theorem onward_verified (hc : s.computers.find c.computerID = some c)
    (hpend : c.removalOutcome = .removalPending) (hdir : c.directive ≠ .standing)
    (hsurv : s.surviving c = false) (hext : s.externalCustody c = false) :
    Onward s ((s.record c.computerID .removedVerified).upgrade c.storageID) := by
  obtain ⟨hgone, hexps, himports⟩ := fork_gone hsurv hext
  have hown : ∀ {id x}, s.computers.find id = some x → x.computerID = c.computerID → x = c := by
    intro id x hx heq
    rw [← Table.key_of_find hx, heq, hc] at hx
    exact (Option.some.inj hx).symm
  -- what the verdict changes was removed, and not verified yet
  have hwas : ∀ {id x}, s.computers.find id = some x → Judged s c x →
      x.removalOutcome ≠ .standing ∧ x.removalOutcome ≠ .removedVerified ∧
        Connected s.edges c.storageID x.storageID := by
    rintro id x hx (heq | ⟨hconn, hreduced⟩)
    · rw [hown hx heq, hpend]
      exact ⟨by decide, by decide, .refl s.edges c.storageID⟩
    · rw [hreduced]
      exact ⟨by decide, by decide, hconn⟩
  -- the verdict leaves all of the fork verified
  have hfork : ∀ {id x}, s.computers.find id = some x →
      Connected s.edges c.storageID x.storageID →
      (verdict s c x).removalOutcome = .removedVerified := by
    intro id x hx hconn
    unfold verdict
    split
    · rfl
    next hleft =>
      have hremd := hgone hx hconn fun heq => hleft (.inl heq)
      cases hout : x.removalOutcome with
      | standing | removalPending => rw [hout] at hremd; cases hremd
      | removedReduced => exact absurd (.inr ⟨hconn, hout⟩) hleft
      | removedVerified => rfl
  have hsame : ∀ {id x}, s.computers.find id = some x → x.removalOutcome = .removedVerified →
      verdict s c x = x :=
    fun hx hv => if_neg fun hjudg => (hwas hx hjudg).2.1 hv
  have hrow : ∀ {id x'}, ((s.record c.computerID .removedVerified).upgrade
      c.storageID).computers.find id = some x' → ∃ x, s.computers.find id = some x ∧
        verdict s c x = x' :=
    fun hx' => Option.map_eq_some_iff.mp ((find_upgrade hc _).symm.trans hx')
  refine onward_computers hinv ?_ ?_ ?_ ?_ ?_
  · intro id x' hx'
    obtain ⟨x, hx, rfl⟩ := hrow hx'
    have hset := hinv.settled hx
    unfold verdict
    split
    next hjudg =>
      refine ⟨fun hdes => absurd (hset.standing hdes) (hwas hx hjudg).1, hset.removing,
        fun hstand => ?_⟩
      rcases hjudg with heq | ⟨-, hreduced⟩
      · exact absurd (hown hx heq ▸ hstand) hdir
      · rw [hset.pending hstand] at hreduced
        cases hreduced
    · exact hset
  · intro id x' hx' hv
    obtain ⟨x, hx, rfl⟩ := hrow hx'
    rw [verdict_storageID]
    by_cases hconn : Connected s.edges c.storageID x.storageID
    · -- The Computer is in the fork, which is gone as a whole.
      refine ⟨fun {id y'} hy' hlink => ?_, fun he hlink => hexps he (hconn.trans hlink),
        fun hp hkind hlink => himports hp hkind (hconn.trans hlink)⟩
      obtain ⟨y, hy, rfl⟩ := hrow hy'
      rw [verdict_storageID] at hlink
      exact hfork hy (hconn.trans hlink)
    · -- It is in another one, and was verified before.
      have hleft : ¬ Judged s c x := fun hjudg => hconn (hwas hx hjudg).2.2
      rw [verdict, if_neg hleft] at hv
      have hclear := hinv.verified hx hv
      refine { hclear with family := fun {id y'} hy' hlink => ?_ }
      obtain ⟨y, hy, rfl⟩ := hrow hy'
      rw [verdict_storageID] at hlink
      have hver := hclear.family hy hlink
      rw [hsame hy hver]
      exact hver
  · intro id b x' hb hx'
    obtain ⟨x, hx, rfl⟩ := hrow hx'
    rw [verdict_storageID]
    exact hinv.backups hb hx
  · intro id copy x _ _ _ hx hout
    refine (find_upgrade hc _).trans ?_
    rw [hx, Option.map_some, verdict, if_neg fun hjudg => (hwas hx hjudg).1 hout]
  · intro id x hx hv
    refine (find_upgrade hc _).trans ?_
    rw [hx, Option.map_some, hsame hx hv]

/-- **The outcome of a removal** that is pending, whichever it is. -/
theorem finalizeComputerCustodyOutcome_onward
    (hc : s.computers.find c.computerID = some c) (hpend : c.removalOutcome = .removalPending)
    (hdir : c.directive ≠ .standing) :
    Commits (Onward s) (finalizeComputerCustodyOutcome c.computerID s) := by
  refine .orRefuse fun x hx => ?_
  rw [hc] at hx
  cases hx
  split
  · refine .pure ?_
    refine onward_put hinv hc (find_record hc .removedReduced) rfl ?_ ?_ ?_ ⟨?_, ?_, ?_⟩
    · refine idle_of_phase hinv hc fun _ => ?_
      rw [hpend]
      decide
    · rw [hpend]
      decide
    · exact RemovalOutcome.noConfusion
    · intro hdes
      have hstand := hinv.standing hc hdes
      rw [hpend] at hstand
      cases hstand
    · intro hremd
      have hph : c.phase = .removing := hinv.removing hc hremd
      exact hph
    · exact fun hstand => absurd hstand hdir
  next hgone =>
    rw [Bool.not_eq_true, Bool.or_eq_false_iff] at hgone
    exact .pure (onward_verified hinv hc hpend hdir hgone.1 hgone.2)

/-! ## 6. Operations -/

variable {admission : Check}

theorem createComputer_onward (hid : computerID ∉ s.computerIDs)
    (hfresh : storageID ∉ s.storageIDs) :
    Commits (Onward s) (createComputer computerID storageID admission s) :=
  .check fun _ _ => .pure (onward_insertComputer hinv hid hfresh rfl DesiredState.noConfusion rfl)

theorem reconfigure_onward {boundNodeID : Option Nat} {desired : DesiredState}
    {phase : ReconfigurationPhase} :
    Commits (Onward s) (reconfigure computerID boundNodeID desired phase admission s) := by
  refine .orRefuse fun c hc => .refuseIf fun hstd => .check fun _ _ =>
    .pure ?_
  rw [← Table.key_of_find hc] at hc
  simp only [not_or, not_not] at hstd
  refine onward_standing hinv _ hc rfl rfl (idle_of_phase hinv hc fun hph => ?_) hstd.1
    hstd.2.1 rfl rfl
  rw [hph] at hstd
  exact absurd hstd.2.2.1 (by decide)

variable {backupID : Nat}

theorem publishBackup_onward :
    Commits (Onward s) (publishBackup backupID computerID admission s) := by
  refine .orRefuse fun c hc => .check fun _ _ => .pure ?_
  refine onward_backups hinv fun {id b x} hb hx => ?_
  rcases Table.find_insert_cases hb with hold | rfl
  · exact hinv.backups hold hx
  · rw [hc] at hx
    exact congrArg Computer.storageID (Option.some.inj hx).symm

theorem pruneBackup_onward : Commits (Onward s) (pruneBackup backupID s) := by
  refine .pure (onward_backups hinv fun {id b x} hb hx => ?_)
  rw [Table.find_update] at hb
  split at hb
  · obtain ⟨b₀, hb₀, rfl⟩ := Option.map_eq_some_iff.mp hb
    have hstor : x.storageID = b₀.sourceStorageID := hinv.backups hb₀ hx
    exact hstor
  · exact hinv.backups hb hx

/-- **A clone** joins the Storage of a Computer that stands with a new one. -/
theorem beginComputerClone_onward {request : CloneRequest}
    (hid : request.computerID ∉ s.computerIDs) (hfresh : request.storageID ∉ s.storageIDs) :
    Commits (Onward s) (beginComputerClone request s) := by
  refine .refuseIf fun _ => .answerIf fun _ => ?_
  refine .bind (.orRefuse fun backup hbackup => .refuseIf fun _ =>
    .pure hbackup) fun backup (hbackup : s.backups.find request.backupID = some backup) =>
    .orRefuse fun source hsrc => .refuseIf fun hstd => .check fun _ _ =>
    .pure ?_
  let c := newComputer request.computerID request.storageID (some request.nodeID) .stopped .cloning
  have hinsr : Onward s (s.insertComputer c) :=
    onward_insertComputer hinv hid hfresh rfl DesiredState.noConfusion rfl
  have hsrc' : (s.insertComputer c).computers.find backup.computerID = some source :=
    Table.find_insert_of_some hsrc
  have hcopies : Onward (s.insertComputer c)
      { s.insertComputer c with copies := s.copies.insert (clonedCopy request backup) } := by
    refine onward_copies hinsr.inv fun {id copy} hcopy hoper hstat => ?_
    rcases Table.find_insert_cases hcopy with hold | rfl
    · exact hinsr.inv.importing hold hoper hstat
    · cases hoper
  refine (hinsr.trans hcopies).trans (onward_provenance hcopies.inv ?_ ?_)
  · have hstor : source.storageID = backup.sourceStorageID := hinv.backups hbackup hsrc
    rw [← hstor]
    exact hcopies.inv.apart hsrc' (hinv.not_verified hsrc hstd)
  · have hself : (s.insertComputer c).computers.find c.computerID = some c :=
      find_insertComputer_self hid
    exact hcopies.inv.apart hself RemovalOutcome.noConfusion

/-- **An export** is of a Computer that stands. -/
theorem beginComputerCustodyExport_onward {request : ExportRequest} :
    Commits (Onward s) (beginComputerCustodyExport computerID request s) := by
  refine .orRefuse fun c hc => .refuseIf fun _ => .answerIf fun _ =>
    .check fun _ _ => .refuseIf fun hstab => ?_
  refine .bind (.orRefuse fun backup hbackup => .refuseIf fun _ =>
    .pure hbackup) fun backup (_ : s.backups.find request.backupID = some backup) =>
    .refuseIf fun hbelongs => .check fun _ _ => .pure ?_
  rw [← Table.key_of_find hc] at hc
  simp only [not_or, not_not] at hstab hbelongs
  have hexps : Onward s
      { s with exports := s.exports.insert (plannedExport request c backup) } := by
    refine onward_exports hinv fun {id e} he htaint => ?_
    rcases Table.find_insert_cases he with hold | rfl
    · exact hinv.apart_export hold htaint
    · show Apart s backup.sourceStorageID
      rw [hbelongs.2]
      exact hinv.apart hc (hinv.not_verified hc hstab.1)
  have hidle : Idle s c.computerID := idle_of_ne hinv hc (by rw [hstab.2]; decide)
  exact hexps.trans (onward_standing hexps.inv _ hc rfl rfl hidle hstab.1 hstab.1
    rfl rfl)

/-- **Exports that end** were planned, and so are apart already. -/
theorem onward_endExports (c : Computer) (status : ExportStatus)
    (code : Option String) : Onward s (s.endExports c status code) := by
  refine onward_exports hinv fun {id e} he htaint => ?_
  rw [Table.find_updateWhere] at he
  obtain ⟨e₀, he₀, rfl⟩ := Option.map_eq_some_iff.mp he
  split at htaint
  next hended =>
    rw [if_pos hended]
    simp only [Bool.and_eq_true, decide_eq_true_eq] at hended
    have hapart := hinv.apart_export he₀ (tainting_of_planned hended.2)
    exact hapart
  next hleft =>
    rw [if_neg hleft]
    exact hinv.apart_export he₀ htaint

theorem onward_settleExport {row : CustodyExport} {exportID : Nat}
    (hrow : s.exports.find exportID = some row) (hplan : row.status = .planned)
    (row' : CustodyExport) (hstor : row'.sourceStorageID = row.sourceStorageID) :
    Onward s { s with exports := s.exports.replace row' } := by
  refine onward_exports hinv fun {id e} he htaint => ?_
  obtain ⟨-, rfl⟩ | ⟨-, he⟩ := Table.find_replace_cases he
  · rw [hstor]
    exact hinv.apart_export hrow (tainting_of_planned hplan)
  · exact hinv.apart_export he htaint

theorem acknowledgeComputerCustodyExport_onward {request : ExportAcknowledgement} :
    Commits (Onward s) (acknowledgeComputerCustodyExport computerID request s) := by
  refine .check fun _ _ => .orRefuse fun row hrow => .check fun _ _ =>
    .refuseIf fun _ => .answerIf fun _ => .refuseIf fun hplan =>
    .orRefuse fun c hc => .pure ?_
  obtain ⟨hrow, -⟩ := Option.filter_eq_some_iff.mp hrow
  obtain ⟨hc, howns⟩ := Option.filter_eq_some_iff.mp hc
  rw [← Table.key_of_find hc] at hc
  simp only [decide_eq_true_eq] at howns
  have hstd : c.desiredState ≠ .removed := by
    refine hinv.stands hc ?_
    rw [howns.2]
    decide
  have hidle : Idle s c.computerID := idle_of_ne hinv hc (by rw [howns.2]; decide)
  have hexps := onward_settleExport hinv hrow (not_not.mp hplan) { row with
    status := if request.failure.isSome then .failed else .available
    failureCode := request.failure.getD ""
    acknowledgement := some (request.idempotencyKey, request.bodyHash) } rfl
  exact hexps.trans (onward_standing hexps.inv _ hc rfl rfl hidle hstd hstd rfl rfl)

/-- **An import begins** with a Computer of its own, and joins nothing yet. -/
theorem beginComputerCustodyImport_onward {request : ImportRequest}
    (hid : request.computerID ∉ s.computerIDs) (hfresh : request.storageID ∉ s.storageIDs) :
    Commits (Onward s) (beginComputerCustodyImport request s) := by
  refine .check fun _ _ => .refuseIf fun _ => .answerIf fun _ =>
    .check fun _ _ => .pure ?_
  let c := newComputer request.computerID request.storageID (some request.nodeID) .stopped
    .importing
  have hinsr : Onward s (s.insertComputer c) :=
    onward_insertComputer hinv hid hfresh rfl DesiredState.noConfusion rfl
  have hself : (s.insertComputer c).computers.find c.computerID = some c :=
    find_insertComputer_self hid
  refine hinsr.trans (onward_copies hinsr.inv fun {id copy} hcopy hoper hstat => ?_)
  rcases Table.find_insert_cases hcopy with hold | rfl
  · exact hinsr.inv.importing hold hoper hstat
  · exact ⟨c, hself, rfl, rfl, rfl⟩

/-- The copies but one that is no longer reserved are those there were, and none of them goes to its
Computer. -/
theorem onward_settleCopy {row : StorageCopy}
    (hrow : s.copies.find computerID = some row) (row' : StorageCopy)
    (hid : row'.destinationComputerID = row.destinationComputerID)
    (hstat : row'.status ≠ .reserved) :
    Onward s { s with copies := s.copies.replace row' } ∧
      Idle { s with copies := s.copies.replace row' } computerID := by
  have hkey : row'.destinationComputerID = computerID := hid.trans (Table.key_of_find hrow)
  have hold : ∀ {id copy}, (s.copies.replace row').find id = some copy →
      copy.status = .reserved → s.copies.find id = some copy ∧ id ≠ computerID := by
    intro id copy hcopy hres
    obtain ⟨-, rfl⟩ | ⟨hne, hcopy⟩ := Table.find_replace_cases hcopy
    · exact absurd hres hstat
    · exact ⟨hcopy, fun heq => hne (hkey.trans heq.symm)⟩
  refine ⟨onward_copies hinv fun hcopy ho hs => hinv.importing (hold hcopy hs).1 ho hs, ?_⟩
  intro id copy hcopy _ hs heq
  obtain ⟨hcopy', hne⟩ := hold hcopy hs
  exact hne ((Table.key_of_find hcopy').symm.trans heq)

/-- **An import is acknowledged.** What it names is apart, and so is what it made. -/
theorem acknowledgeComputerCustodyImport_onward {request : ImportAcknowledgement}
    (hapart : request.failedAbsent = false → ∀ row ∈ s.copies.find computerID,
      Apart s row.sourceStorageID) :
    Commits (Onward s) (acknowledgeComputerCustodyImport computerID request s) := by
  refine .orRefuse fun row hrow => .refuseIf fun hoper => .check
    fun _ _ => .check fun _ _ => .refuseIf fun _ => .answerIf fun _ =>
    .refuseIf fun hres => ?_
  rw [not_not] at hoper hres
  obtain ⟨c, hc, hph, hout, hstor⟩ := hinv.importing hrow hoper hres
  rw [Table.key_of_find hrow] at hc
  split
  next =>
    refine .pure ?_
    obtain ⟨hcopies, hidle⟩ := onward_settleCopy hinv hrow { row with
      status := .failed
      acknowledgement := some (request.idempotencyKey, request.bodyHash) } rfl
      StoreRows.CopyStatus.noConfusion
    refine hcopies.trans (onward_deleteComputer hcopies.inv hidle fun {x} hx => ?_)
    have hsame : some c = some x := hc.symm.trans hx
    rw [← Option.some.inj hsame, hout]
    decide
  next hpub =>
    refine .orRefuse fun x hx => .refuseIf fun _ => .pure ?_
    have hsame : some c = some x := hc.symm.trans hx
    obtain rfl := Option.some.inj hsame
    have hkey := Table.key_of_find hc
    rw [← hkey] at hc hrow
    obtain ⟨hcopies, hidle⟩ := onward_settleCopy hinv hrow { row with
      status := .complete
      acknowledgement := some (request.idempotencyKey, request.bodyHash) } rfl
      StoreRows.CopyStatus.noConfusion
    have hsrc : Apart s row.sourceStorageID :=
      hapart (Bool.eq_false_of_not_eq_true hpub) row (hkey ▸ hrow)
    have hdest : Apart s row.destinationStorageID := by
      rw [← hstor]
      refine hinv.apart hc ?_
      rw [hout]
      decide
    have hjoin := onward_provenance hcopies.inv
      (p := ⟨.custodyImport, row.sourceStorageID, row.destinationStorageID⟩) hsrc hdest
    have hstd : c.desiredState ≠ .removed := by
      refine hinv.stands hc ?_
      rw [hph]
      decide
    have hput := onward_standing hjoin.inv { c with phase := .stable } hc rfl rfl hidle
      hstd hstd rfl rfl
    exact (hcopies.trans hjoin).trans hput

theorem onward_supersede (q : StorageCopy → Bool) :
    Onward s { s with
      copies := s.copies.updateWhere q (fun x => { x with status := .superseded }) fun _ => rfl } :=
  onward_copies hinv fun hcopy ho hs => hinv.importing (reserved_of_supersede hcopy hs).1 ho hs

/-- **A reconfiguration is given up**, with the export or the import it was. -/
theorem abortReconfiguration_onward :
    Commits (Onward s) (abortReconfiguration computerID admission s) := by
  refine .orRefuse fun c hc => .refuseIf fun hph => .check fun _ _ =>
    .pure ?_
  have hkey := Table.key_of_find hc
  subst hkey
  have hstd : c.desiredState ≠ .removed := by
    refine hinv.stands hc fun hremg => hph ?_
    rw [hremg]
    decide
  let q : StorageCopy → Bool := fun x => x.destinationComputerID = c.computerID &&
    x.operation = .custodyImport && c.phase = .importing &&
    (x.status = .reserved || x.status = .prepared)
  by_cases hexpg : c.phase = .exporting
  · have hended := onward_endExports hinv c .failed (some "aborted_dead_node")
    have hcopies := onward_supersede hended.inv q
    have hidle : Idle s c.computerID := idle_of_ne hinv hc (by rw [hexpg]; decide)
    rw [if_pos hexpg]
    refine (hended.trans hcopies).trans
      (onward_standing hcopies.inv _ hc rfl rfl ?_ hstd hstd rfl rfl)
    intro id copy hcopy ho hs
    exact hidle (reserved_of_supersede hcopy hs).1 ho hs
  · have himpg : c.phase = .importing := by
      by_contra hoth
      exact hph ⟨hexpg, hoth⟩
    have hcopies := onward_supersede hinv q
    rw [if_neg hexpg]
    refine hcopies.trans
      (onward_standing hcopies.inv _ hc rfl rfl ?_ hstd hstd rfl rfl)
    -- The import of the Computer is no longer reserved.
    intro id copy hcopy ho hs hdest
    have hleft := (reserved_of_supersede hcopy hs).2
    simp [q, hdest, ho, himpg, hs] at hleft

theorem removing_onward (hc : s.computers.find c.computerID = some c)
    (hdes : c.desiredState ≠ .removed) (hremb : removable c.phase = true) :
    Commits (Onward s) (if c.boundNodeID.isSome then pure (s.setComputer (removing c))
      else finalizeComputerCustodyOutcome c.computerID (s.setComputer (removing c))) := by
  have hidle : Idle s c.computerID := idle_of_ne hinv hc fun himpg => by
    rw [himpg] at hremb
    cases hremb
  have hput : Onward s (s.setComputer (removing c)) :=
    onward_put hinv hc (find_setComputer hc rfl) rfl hidle (hinv.not_verified hc hdes)
      RemovalOutcome.noConfusion ⟨fun h => absurd rfl h, fun _ => rfl, fun _ => rfl⟩
  split
  next => exact .pure hput
  next hunb =>
    have hdir : (removing c).directive ≠ .standing := by
      show (if c.boundNodeID.isSome then Directive.standing else .none) ≠ .standing
      rw [if_neg hunb]
      decide
    have hself : (s.setComputer (removing c)).computers.find (removing c).computerID =
        some (removing c) := find_setComputer_self hc rfl
    have hfinal := finalizeComputerCustodyOutcome_onward hput.inv hself rfl hdir
    exact .mono hfinal (fun _ h => hput.trans h) fun _ h => hput.trans h

/-- **A removal** begins while the Computer stands. -/
theorem removeComputer_onward {precondition : Check} :
    Commits (Onward s) (removeComputer computerID precondition s) := by
  refine .orRefuse fun c hc => .check fun _ _ => .answerIf fun hdes =>
    .refuseIf fun hremb => ?_
  have hkey := Table.key_of_find hc
  subst hkey
  rw [not_not] at hremb
  by_cases hexpg : c.phase = .exporting
  · rw [if_pos hexpg]
    have hended := onward_endExports hinv c .superseded none
    exact .mono (removing_onward hended.inv hc hdes hremb)
      (fun _ h => hended.trans h) fun _ h => hended.trans h
  · rw [if_neg hexpg]
    exact removing_onward hinv hc hdes hremb

/-- **A removal is finalized**, from a directive that stands. -/
theorem finalizeRemoval_onward {acknowledged : Bool} :
    Commits (Onward s) (finalizeRemoval computerID acknowledged s) := by
  refine .orRefuse fun c hc => .refuseIf fun hdir => .answerIf
    fun hunsettled => ?_
  have hkey := Table.key_of_find hc
  subst hkey
  rw [not_or] at hunsettled
  have hstand : c.directive = .standing := by
    cases hd : c.directive with
    | none => exact absurd hd hdir
    | standing => rfl
    | finalized => exact absurd hd hunsettled.2
  have hpend := hinv.pending hc hstand
  have hidle : Idle s c.computerID := by
    refine idle_of_phase hinv hc fun _ => ?_
    rw [hpend]
    decide
  let c' : Computer := { c with directive := .finalized }
  have hnotVerified : c.removalOutcome ≠ .removedVerified := by
    rw [hpend]
    decide
  have hset := hinv.settled hc
  have hput : Onward s (s.setComputer c') :=
    onward_put hinv hc (find_setComputer hc rfl) rfl hidle hnotVerified hnotVerified
      ⟨hset.standing, hset.removing, Directive.noConfusion⟩
  have hself : (s.setComputer c').computers.find c'.computerID = some c' :=
    find_setComputer_self hc rfl
  have hfinal := finalizeComputerCustodyOutcome_onward hput.inv hself hpend
    Directive.noConfusion
  exact .mono hfinal (fun _ h => hput.trans h) fun _ h => hput.trans h

end

/-! ## 7. Runs -/

/-- An operation as it comes: what it draws is new, and an import it publishes names a Storage of no
verified component. -/
structure Sound (s : Store) (op : Op) : Prop where
  fresh : op.Fresh s
  apart : NamesApart s op

instance (s : Store) (op : Op) : Decidable (op.Fresh s) :=
  match op with
  | .create .. => inferInstanceAs (Decidable (_ ∧ _))
  | .beginClone _ => inferInstanceAs (Decidable (_ ∧ _))
  | .beginImport _ => inferInstanceAs (Decidable (_ ∧ _))
  | .backUp .. => inferInstanceAs (Decidable (_ = none))
  | .beginExport .. => inferInstanceAs (Decidable (_ = none))
  | .change .. | .prune _ | .acknowledgeExport .. | .acknowledgeImport .. | .abort .. | .remove ..
  | .finalize .. => inferInstanceAs (Decidable True)

instance (s : Store) (op : Op) : Decidable (NamesApart s op) :=
  match op with
  | .acknowledgeImport computerID _ =>
    inferInstanceAs (Decidable (_ → _ → ∀ row ∈ s.copies.find computerID, _))
  | .create .. | .change .. | .backUp .. | .prune _ | .beginClone _ | .beginExport ..
  | .acknowledgeExport .. | .beginImport _ | .abort .. | .remove .. | .finalize .. =>
    inferInstanceAs (Decidable True)

instance (s : Store) (op : Op) : Decidable (Sound s op) :=
  decidable_of_iff (op.Fresh s ∧ NamesApart s op) ⟨fun h => ⟨h.1, h.2⟩, fun h => ⟨h.1, h.2⟩⟩

theorem step_onward (hinv : Inv s) {op : Op} (hop : Sound s op) : Onward s (step s op) := by
  have hens : (committed (op.tx s)).isSome → Commits (Onward s) (op.tx s) := by
    intro hcom
    cases op with
    | create => exact createComputer_onward hinv hop.fresh.1 hop.fresh.2
    | change => exact reconfigure_onward hinv
    | backUp => exact publishBackup_onward hinv
    | prune => exact pruneBackup_onward hinv
    | beginClone => exact beginComputerClone_onward hinv hop.fresh.1 hop.fresh.2
    | beginExport => exact beginComputerCustodyExport_onward hinv
    | acknowledgeExport => exact acknowledgeComputerCustodyExport_onward hinv
    | beginImport => exact beginComputerCustodyImport_onward hinv hop.fresh.1 hop.fresh.2.1
    | acknowledgeImport => exact acknowledgeComputerCustodyImport_onward hinv (hop.apart hcom)
    | abort => exact abortReconfiguration_onward hinv
    | remove => exact removeComputer_onward hinv
    | finalize => exact finalizeRemoval_onward hinv
  unfold step
  cases hcom : committed (op.tx s) with
  | none => exact Onward.refl hinv
  | some s' => exact Ensures.committed (hens (by rw [hcom]; rfl)) hcom

theorem inv_openStore : Inv .openStore where
  verified hc := by cases hc
  standing hc := by cases hc
  removing hc := by cases hc
  pending hc := by cases hc
  backups hb := by cases hb
  importing hcopy := by cases hcopy

def reached (ops : List Op) : Store := exec step .openStore ops

theorem run_onward (hinv : Inv s) {ops : List Op} (h : Admitted Sound step s ops) :
    Onward s (exec step s ops) := by
  induction ops generalizing s with
  | nil => exact Onward.refl hinv
  | cons op ops ih =>
    have hstep := step_onward hinv h.1
    exact hstep.trans (ih hstep.inv h.2)

/-- **Verified means gone.** However Computers are created, cloned, exported, imported, aborted,
removed and finalized, a Computer whose removal is verified is in a component of which nothing is
left: each Computer in it is verified, nothing of it that was exported may still exist, and
nothing in it was imported. And the outcome stays. This is of runs in which no import that is
published names a Storage of a verified component. -/
theorem verified_removal_is_clear (ops later : List Op)
    (h : Admitted Sound step .openStore (ops ++ later)) :
    (∀ {id c}, (reached ops).computers.find id = some c → c.removalOutcome = .removedVerified →
      Clear (reached ops) c.storageID) ∧
    ∀ {id c}, (reached ops).computers.find id = some c → c.removalOutcome = .removedVerified →
      ∃ c', (reached (ops ++ later)).computers.find id = some c' ∧
        c'.removalOutcome = .removedVerified := by
  have hfst := run_onward inv_openStore h.of_append
  refine ⟨fun hc hv => hfst.inv.verified hc hv, fun {id c} hc hv => ?_⟩
  have hlater := run_onward hfst.inv h.after_append
  unfold reached
  rw [exec_append]
  exact hlater.kept hc hv

/-- A Computer is cloned and removed, which is reduced while the clone stands; with the clone
removed both are verified. An import of something else comes after. -/
def clonedAndRemoved : List Op :=
  [.create 1 10 (.ok ()), .change 1 (some 7) .running .stable (.ok ()), .backUp 5 1 (.ok ()),
    .beginClone ⟨5, 1, 1, 7, 2, 20, .ok ()⟩, .change 2 (some 7) .stopped .stable (.ok ()),
    .remove 1 (.ok ()), .finalize 1 true, .remove 2 (.ok ()), .finalize 2 true]

def importedElsewhere : List Op :=
  [.beginImport ⟨6, 8, 80, 1, 1, 7, 3, 30, .ok (), .ok ()⟩,
    .acknowledgeImport 3 ⟨1, 1, false, .ok (), .ok ()⟩]

theorem verified_removal_is_clear_cloned :
    Admitted Sound step .openStore (clonedAndRemoved ++ importedElsewhere) ∧
      ((reached clonedAndRemoved).computers.find 1).map Computer.removalOutcome =
        some .removedVerified ∧
      ∀ {id c}, (reached clonedAndRemoved).computers.find id = some c →
        c.removalOutcome = .removedVerified → Clear (reached clonedAndRemoved) c.storageID :=
  have hadm : Admitted Sound step .openStore (clonedAndRemoved ++ importedElsewhere) := by
    decide +kernel
  ⟨hadm, by decide +kernel, (verified_removal_is_clear _ _ hadm).1⟩

/-- A Computer is removed, and a manifest that names its Storage is imported afterwards. -/
def importedByName : List Op :=
  [.create 1 10 (.ok ()), .remove 1 (.ok ()),
    .beginImport ⟨6, 1, 10, 1, 1, 7, 3, 30, .ok (), .ok ()⟩,
    .acknowledgeImport 3 ⟨1, 1, false, .ok (), .ok ()⟩]

/-- **A verified fork can grow again.** The removal of a Computer is verified, and the import that
names its Storage joins it with a Computer that stands. -/
theorem verified_storage_is_joined :
    Admitted (fun s op => op.Fresh s) step .openStore importedByName ∧
      ((reached importedByName).computers.find 1).map
        (fun c => (c.storageID, c.removalOutcome)) = some (10, .removedVerified) ∧
      ((reached importedByName).computers.find 3).map
        (fun c => (c.storageID, c.removalOutcome)) = some (30, .standing) ∧
      Connected (reached importedByName).edges 10 30 ∧
      ⟨.custodyImport, 10, 30⟩ ∈ (reached importedByName).provenance := by
  decide +kernel

end Wefty.CustodyForks
