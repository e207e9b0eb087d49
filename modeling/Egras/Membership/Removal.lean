import Egras.Lib.Cooperate
import Egras.Lib.Locks
import Egras.Membership.Ownership
import Mathlib.Logic.Relation

/-!
# Concurrent removals of members

`remove_member_checked` as transactions that interleave under READ COMMITTED. A statement reads what
is committed when it starts. The `SELECT ... FOR UPDATE` then locks the rows it has found one after
the other, the role row of a membership along with it, and the `DELETE` locks the rows it deletes; a
row that another transaction has locked is waited for and, once the lock is granted, passed over if
it has been deleted meanwhile. Deletions become visible with the commit. At any point a transaction
may be aborted, as the victim of a deadlock or for any other reason.

`removalNext` is one step of a transaction, and `removal_alone` says that a removal whose steps are
not interrupted does what `removeMemberChecked` does. Every transaction that goes on to delete an
owner holds the lock on the row of another one (`Guarded`), which nobody can delete before it ends,
so an organisation that has an owner has one in every committed state (`removals_keep_owner`).
-/

namespace Egras
open Lib

/-- The rows that a removal locks. -/
inductive RowRef
  | membership (key : Uuid × Uuid × Uuid)
  | role (id : Uuid)
deriving DecidableEq

/-- The committed tables and the locks of the open transactions. -/
structure LockedTables (ι : Type) where
  tables : Tables
  locks : Locks ι RowRef

/-- Where a removal stands. -/
inductive RemovalPos
  | member
  | owners
  | lock (rows : List UserOrganisationRole) (otherOwners : ℕ)
  | lockRole (row : UserOrganisationRole) (rows : List UserOrganisationRole) (otherOwners : ℕ)
  | target (otherOwners : ℕ)
  | delete
  | deleting (rows deleted : List UserOrganisationRole)
  | commit (deleted : List UserOrganisationRole)
  | done (r : Except RepoError Unit)
deriving DecidableEq

/-- A transaction that removes a user from an organisation. -/
structure Removal where
  userId : Uuid
  orgId : Uuid
  pos : RemovalPos
deriving DecidableEq

namespace Tables

/-- Some rows of `user_organisation_roles` are deleted. -/
def deleteRoles (t : Tables) (deleted : List UserOrganisationRole) : Tables :=
  { t with
    userOrganisationRoles := t.userOrganisationRoles.deleteWhere (fun r => r ∈ deleted) }

/-- The role rows of a user in an organisation. -/
def memberRows (t : Tables) (userId orgId : Uuid) : List UserOrganisationRole :=
  t.userOrganisationRoles.select (fun r => r.userId = userId && r.organisationId = orgId)

end Tables

section Next
variable {ι : Type} [DecidableEq ι]

/-- A transaction takes a lock. -/
def LockedTables.lock (d : LockedTables ι) (i : ι) (k : RowRef) : LockedTables ι :=
  { d with locks := d.locks.take i k }

/-- A transaction ends. -/
def LockedTables.release (d : LockedTables ι) (i : ι) : LockedTables ι :=
  { d with locks := d.locks.releaseAll i }

variable (userId orgId : Uuid) (i : ι)

/-- One step of a removal; there is none when it waits for a lock. -/
def removalNext : RemovalPos → LockedTables ι → Option (RemovalPos × LockedTables ι)
  | .member, d =>
    if d.tables.isMember userId orgId then some (.owners, d)
    else some (.done (.error .notMember), d.release i)
  | .owners, d => some (.lock (d.tables.otherOwners userId orgId) 0, d)
  | .lock [] n, d => some (.target n, d)
  | .lock (r :: rows) n, d =>
    if d.locks.grants i (.membership r.key) then
      if r ∈ d.tables.userOrganisationRoles.rows then
        some (.lockRole r rows n, d.lock i (.membership r.key))
      else some (.lock rows n, d)
    else none
  | .lockRole r rows n, d =>
    if d.locks.grants i (.role r.roleId) then some (.lock rows (n + 1), d.lock i (.role r.roleId))
    else none
  | .target n, d =>
    if d.tables.isOwner userId orgId && n = 0 then some (.done (.error .lastOwner), d.release i)
    else some (.delete, d)
  | .delete, d => some (.deleting (d.tables.memberRows userId orgId) [], d)
  | .deleting [] deleted, d => some (.commit deleted, d)
  | .deleting (r :: rows) deleted, d =>
    if d.locks.grants i (.membership r.key) then
      if r ∈ d.tables.userOrganisationRoles.rows then
        some (.deleting rows (r :: deleted), d.lock i (.membership r.key))
      else some (.deleting rows deleted, d)
    else none
  | .commit deleted, d =>
    some (.done (.ok ()), ({ d with tables := d.tables.deleteRoles deleted }).release i)
  | .done _, _ => none

end Next

namespace Tables

/-- A row of an owner of an organisation other than a user. -/
structure OtherOwner (t : Tables) (userId orgId : Uuid) (r : UserOrganisationRole) : Prop where
  org : r.organisationId = orgId
  owner : t.isOwnerRow r = true
  other : r.userId ≠ userId

variable {t t' : Tables} {userId orgId : Uuid} {r : UserOrganisationRole}

/-- The other owners are the owner rows of other users. -/
lemma mem_otherOwners :
    r ∈ t.otherOwners userId orgId ↔
      r ∈ t.userOrganisationRoles ∧ t.OtherOwner userId orgId r := by
  refine Table.mem_select.trans (and_congr_right fun _ => ?_)
  simp only [Bool.and_eq_true, decide_eq_true_eq]
  exact ⟨fun h => ⟨h.1.1, h.1.2, h.2⟩, fun h => ⟨⟨h.org, h.owner⟩, h.other⟩⟩

/-- The rows of a member. -/
lemma mem_memberRows :
    r ∈ t.memberRows userId orgId ↔
      r ∈ t.userOrganisationRoles ∧ r.userId = userId ∧ r.organisationId = orgId := by
  refine Table.mem_select.trans (and_congr_right fun _ => ?_)
  simp only [Bool.and_eq_true, decide_eq_true_eq]

/-- The rows that were not deleted stay. -/
lemma mem_deleteRoles {deleted : List UserOrganisationRole} :
    r ∈ (t.deleteRoles deleted).userOrganisationRoles ↔
      r ∈ t.userOrganisationRoles ∧ r ∉ deleted := by
  refine Table.mem_deleteWhere.trans (and_congr_right fun _ => ?_)
  exact decide_eq_false_iff_not

end Tables

/-! ## A removal alone -/

section Alone
variable {ι : Type} [DecidableEq ι] (userId orgId : Uuid) (i : ι)

/-- Some steps of a removal in a row. -/
def RemovalSteps : RemovalPos × LockedTables ι → RemovalPos × LockedTables ι → Prop :=
  Relation.ReflTransGen (fun x y => removalNext userId orgId i x.1 x.2 = some y)

variable {userId orgId i} {d : LockedTables ι}

/-- A step is a run. -/
lemma removalSteps_single {x y : RemovalPos × LockedTables ι}
    (h : removalNext userId orgId i x.1 x.2 = some y) : RemovalSteps userId orgId i x y :=
  Relation.ReflTransGen.single h

/-- Alone, a removal locks all the rows that it counts. -/
lemma lock_alone {rows : List UserOrganisationRole} {n : ℕ}
    (hrows : ∀ r ∈ rows, r ∈ d.tables.userOrganisationRoles)
    (hgrants : ∀ k, d.locks.grants i k = true) :
    ∃ l : Locks ι RowRef, (∀ k, l.grants i k = true) ∧ RemovalSteps userId orgId i (.lock rows n, d)
      (.target (n + rows.length), ⟨d.tables, l⟩) := by
  induction rows generalizing n d with
  | nil => exact ⟨d.locks, hgrants, removalSteps_single rfl⟩
  | cons r rows ih =>
    obtain ⟨hr, hrows⟩ := List.forall_mem_cons.mp hrows
    let d₁ := d.lock i (.membership r.key)
    let d₂ := d₁.lock i (.role r.roleId)
    have hgrants₁ : ∀ k, d₁.locks.grants i k = true := fun k => Locks.grants_take (hgrants k)
    have hgrants₂ : ∀ k, d₂.locks.grants i k = true := fun k => Locks.grants_take (hgrants₁ k)
    have hfirst : removalNext userId orgId i (.lock (r :: rows) n) d = some (.lockRole r rows n, d₁) := by
      simp only [removalNext]
      rw [if_pos (hgrants _), if_pos (Table.mem_rows.mpr hr)]
    have hsecond : removalNext userId orgId i (.lockRole r rows n) d₁ = some (.lock rows (n + 1), d₂) := by
      simp only [removalNext]
      rw [if_pos (hgrants₁ _)]
    obtain ⟨l, hl, hrest⟩ := @ih d₂ (n + 1) hrows hgrants₂
    refine ⟨l, hl, (removalSteps_single hfirst).trans ((removalSteps_single hsecond).trans ?_)⟩
    have hlength : n + 1 + rows.length = n + (r :: rows).length := by
      rw [List.length_cons]
      omega
    rw [← hlength]
    exact hrest

/-- Alone, a removal locks all the rows that it deletes. -/
lemma delete_alone {rows deleted : List UserOrganisationRole}
    (hrows : ∀ r ∈ rows, r ∈ d.tables.userOrganisationRoles)
    (hgrants : ∀ k, d.locks.grants i k = true) :
    ∃ l : Locks ι RowRef, (∀ k, l.grants i k = true) ∧
      RemovalSteps userId orgId i (.deleting rows deleted, d)
        (.commit (rows.reverse ++ deleted), ⟨d.tables, l⟩) := by
  induction rows generalizing deleted d with
  | nil => exact ⟨d.locks, hgrants, removalSteps_single rfl⟩
  | cons r rows ih =>
    obtain ⟨hr, hrows⟩ := List.forall_mem_cons.mp hrows
    let d₁ := d.lock i (.membership r.key)
    have hgrants₁ : ∀ k, d₁.locks.grants i k = true := fun k => Locks.grants_take (hgrants k)
    have hfirst : removalNext userId orgId i (.deleting (r :: rows) deleted) d =
        some (.deleting rows (r :: deleted), d₁) := by
      simp only [removalNext]
      rw [if_pos (hgrants _), if_pos (Table.mem_rows.mpr hr)]
    obtain ⟨l, hl, hrest⟩ := @ih d₁ (r :: deleted) hrows hgrants₁
    refine ⟨l, hl, (removalSteps_single hfirst).trans ?_⟩
    rw [List.reverse_cons, List.append_assoc]
    exact hrest

/-- Deleting the rows of a member is removing it. -/
lemma deleteRoles_memberRows {t : Tables} :
    t.deleteRoles (t.memberRows userId orgId).reverse = t.removeMember userId orgId := by
  unfold Tables.deleteRoles Tables.removeMember
  congr 1
  refine Table.ext (List.filter_congr fun r hr => congrArg (! ·) ?_)
  rw [Bool.eq_iff_iff, decide_eq_true_iff, List.mem_reverse, Tables.mem_memberRows]
  simp only [Bool.and_eq_true, decide_eq_true_eq]
  exact and_iff_right (Table.mem_rows.mp hr)

/-- A removal of somebody who is no member is refused. -/
lemma removeMemberChecked_notMember {w : World} (h : w.answersAll 6 = true)
    (hmember : w.tables.isMember userId orgId = false) :
    ((removeMemberChecked userId orgId).run w).1 = .error .notMember := by
  simp only [World.answersAll_succ, World.answersAll_zero, Bool.and_true, Bool.and_eq_true] at h
  obtain ⟨h₁, h₂, -⟩ := h
  have hmember' : w.tick.tables.isMember userId orgId = false := hmember
  unfold removeMemberChecked isMember
  rw [run_transaction, if_pos h₁]
  simp only [run_query_bind, run_require_bind, h₂, hmember', if_true, Bool.false_eq_true, if_false]

/-- A removal of the only owner is refused. -/
lemma removeMemberChecked_lastOwner {w : World} (h : w.answersAll 6 = true)
    (hmember : w.tables.isMember userId orgId = true)
    (howner : w.tables.isOwner userId orgId = true)
    (hothers : w.tables.otherOwners userId orgId = []) :
    ((removeMemberChecked userId orgId).run w).1 = .error .lastOwner := by
  simp only [World.answersAll_succ, World.answersAll_zero, Bool.and_true, Bool.and_eq_true] at h
  obtain ⟨h₁, h₂, h₃, h₄, -⟩ := h
  have hmember' : w.tick.tables.isMember userId orgId = true := hmember
  have hlast : (!(w.tick.tick.tick.tables.isOwner userId orgId &&
      decide ((w.tick.tick.tables.otherOwners userId orgId).length = 0))) = false := by
    simp [howner, hothers]
  unfold removeMemberChecked isMember
  rw [run_transaction, if_pos h₁]
  simp only [run_query_bind, run_require_bind, h₂, h₃, h₄, hmember', hlast, if_true,
    Bool.false_eq_true, if_false]

/-- A removal whose steps are not interrupted does what `removeMemberChecked` does. -/
theorem removal_alone {w : World} (h : w.answersAll 6 = true) :
    RemovalSteps userId orgId i (.member, ⟨w.tables, .free⟩)
      (.done ((removeMemberChecked userId orgId).run w).1,
        ⟨((removeMemberChecked userId orgId).run w).2.tables, .free⟩) := by
  cases hmember : w.tables.isMember userId orgId with
  | false =>
    have hnot : ¬ Leaves w userId orgId := by
      intro hleaves
      rw [hleaves.member] at hmember
      cases hmember
    have hrelease : (⟨w.tables, .free⟩ : LockedTables ι).release i = ⟨w.tables, .free⟩ :=
      congrArg (LockedTables.mk w.tables) (Locks.releaseAll_eq_free fun _ => Locks.grants_free)
    rw [removeMemberChecked_notMember h hmember, removeMemberChecked_of_not_leaves hnot]
    refine removalSteps_single ?_
    simp [removalNext, hmember, hrelease]
  | true =>
    have hfirst : removalNext userId orgId i .member ⟨w.tables, .free⟩ =
        some (.owners, ⟨w.tables, .free⟩) := by
      simp [removalNext, hmember]
    have hsecond : removalNext userId orgId i .owners ⟨w.tables, .free⟩ =
        some (.lock (w.tables.otherOwners userId orgId) 0, ⟨w.tables, .free⟩) := rfl
    -- alone a removal gets every lock that it asks for
    obtain ⟨l, hl, hlocks⟩ := @lock_alone ι _ userId orgId i ⟨w.tables, .free⟩
      (w.tables.otherOwners userId orgId) 0 (fun r hr => (Tables.mem_otherOwners.mp hr).1)
      fun _ => Locks.grants_free
    rw [Nat.zero_add] at hlocks
    refine (removalSteps_single hfirst).trans ((removalSteps_single hsecond).trans ?_)
    refine hlocks.trans ?_
    by_cases hlast : w.tables.isOwner userId orgId = true ∧ w.tables.otherOwners userId orgId = []
    · obtain ⟨howner, hothers⟩ := hlast
      have hnot : ¬ Leaves w userId orgId := by
        intro hleaves
        rcases hleaves.notLast with hno | hsome
        · rw [howner] at hno
          cases hno
        · exact hsome hothers
      have hrelease : (⟨w.tables, l⟩ : LockedTables ι).release i = ⟨w.tables, .free⟩ :=
        congrArg (LockedTables.mk w.tables) (Locks.releaseAll_eq_free hl)
      rw [removeMemberChecked_lastOwner h hmember howner hothers,
        removeMemberChecked_of_not_leaves hnot]
      refine removalSteps_single ?_
      simp [removalNext, howner, hothers, hrelease]
    · have hnotLast : w.tables.isOwner userId orgId = false ∨
          w.tables.otherOwners userId orgId ≠ [] := by
        rcases not_and_or.mp hlast with hno | hsome
        · exact Or.inl (eq_false_of_ne_true hno)
        · exact Or.inr hsome
      obtain ⟨v, hrun, htables⟩ := run_removeMemberChecked ⟨h, hmember, hnotLast⟩
      rw [hrun, htables]
      obtain ⟨l', hl', hdeletes⟩ := @delete_alone ι _ userId orgId i ⟨w.tables, l⟩
        (w.tables.memberRows userId orgId) [] (fun r hr => (Tables.mem_memberRows.mp hr).1) hl
      have htarget : removalNext userId orgId i
          (.target (w.tables.otherOwners userId orgId).length) ⟨w.tables, l⟩ =
          some (.delete, ⟨w.tables, l⟩) := by
        rcases hnotLast with hno | hsome
        · simp [removalNext, hno]
        · simp [removalNext, hsome]
      refine (removalSteps_single htarget).trans ((removalSteps_single rfl).trans ?_)
      refine hdeletes.trans (removalSteps_single ?_)
      rw [List.append_nil]
      have hcommit : (⟨w.tables.deleteRoles (w.tables.memberRows userId orgId).reverse, l'⟩ :
          LockedTables ι).release i = ⟨w.tables.removeMember userId orgId, .free⟩ := by
        rw [deleteRoles_memberRows]
        exact congrArg (LockedTables.mk _) (Locks.releaseAll_eq_free hl')
      exact congrArg (fun d => some (RemovalPos.done (.ok ()), d)) hcommit

end Alone

/-! ## What a removal knows -/

namespace Tables

variable {t t' : Tables} {userId orgId : Uuid}

/-- Whoever is no owner does not become one when rows go. -/
lemma isOwner_of_rows (hroles : t'.roles = t.roles)
    (hrows : ∀ r ∈ t'.userOrganisationRoles, r ∈ t.userOrganisationRoles)
    (h : t.isOwner userId orgId = false) : t'.isOwner userId orgId = false := by
  refine Table.any_eq_false.mpr fun r hr => ?_
  rw [isOwnerRow_of_roles hroles]
  exact Table.any_eq_false.mp h r (hrows r hr)

end Tables

section Knows
variable {ι : Type} {d d' : LockedTables ι} {i j : ι} {userId orgId : Uuid}

/-- A removal holds the lock on the row of another owner. -/
def Guarded (d : LockedTables ι) (i : ι) (userId orgId : Uuid) : Prop :=
  ∃ r ∈ d.tables.userOrganisationRoles,
    d.tables.OtherOwner userId orgId r ∧ d.locks.Holds i (.membership r.key)

/-- The user is no owner or there is another one. -/
def MayRemove (d : LockedTables ι) (i : ι) (userId orgId : Uuid) : Prop :=
  Guarded d i userId orgId ∨ d.tables.isOwner userId orgId = false

/-- A removal has locked the rows that it deletes, all of them rows of its user. -/
def HasDeleted (d : LockedTables ι) (i : ι) (userId orgId : Uuid)
    (deleted : List UserOrganisationRole) : Prop :=
  ∀ r ∈ deleted, r.userId = userId ∧ r.organisationId = orgId ∧
    d.locks.Holds i (.membership r.key)

/-- What a removal knows at its position. -/
def Knows (d : LockedTables ι) (i : ι) (p : Removal) : Prop :=
  match p.pos with
  | .lock rows n => (∀ r ∈ rows, d.tables.OtherOwner p.userId p.orgId r) ∧
    (0 < n → Guarded d i p.userId p.orgId)
  | .lockRole _ rows _ => (∀ r ∈ rows, d.tables.OtherOwner p.userId p.orgId r) ∧
    Guarded d i p.userId p.orgId
  | .target n => 0 < n → Guarded d i p.userId p.orgId
  | .delete => MayRemove d i p.userId p.orgId
  | .deleting rows deleted => MayRemove d i p.userId p.orgId ∧
    (∀ r ∈ rows, r.userId = p.userId ∧ r.organisationId = p.orgId) ∧
    HasDeleted d i p.userId p.orgId deleted
  | .commit deleted => MayRemove d i p.userId p.orgId ∧ HasDeleted d i p.userId p.orgId deleted
  | _ => True

/-- Before its first statement a removal knows nothing. -/
lemma knows_of_starts {p : Removal} (h : p.pos = .member) : Knows d i p := by
  unfold Knows
  rw [h]
  trivial

/-- No role row is new, none that a removal has locked is gone, and it keeps its locks. -/
structure Spares (j : ι) (d d' : LockedTables ι) : Prop where
  roles : d'.tables.roles = d.tables.roles
  rows : ∀ r ∈ d'.tables.userOrganisationRoles, r ∈ d.tables.userOrganisationRoles
  held : ∀ k, d.locks.Holds j k → d'.locks.Holds j k
  kept : ∀ r ∈ d.tables.userOrganisationRoles, d.locks.Holds j (.membership r.key) →
    r ∈ d'.tables.userOrganisationRoles

namespace Spares
variable (h : Spares j d d')
include h

/-- An owner that is left was there before. -/
lemma otherOwner {r : UserOrganisationRole} (hr : d.tables.OtherOwner userId orgId r) :
    d'.tables.OtherOwner userId orgId r :=
  ⟨hr.org, (Tables.isOwnerRow_of_roles h.roles).trans hr.owner, hr.other⟩

/-- The guard of a spared removal stays. -/
lemma guarded (hg : Guarded d j userId orgId) : Guarded d' j userId orgId := by
  obtain ⟨r, hr, hother, hheld⟩ := hg
  exact ⟨r, h.kept r hr hheld, h.otherOwner hother, h.held _ hheld⟩

/-- What a spared removal may do it may go on to do. -/
lemma mayRemove (hm : MayRemove d j userId orgId) : MayRemove d' j userId orgId := by
  rcases hm with hguarded | howner
  · exact Or.inl (h.guarded hguarded)
  · exact Or.inr (Tables.isOwner_of_rows h.roles h.rows howner)

/-- The rows that a spared removal deletes stay its own. -/
lemma hasDeleted {deleted : List UserOrganisationRole} (hd : HasDeleted d j userId orgId deleted) :
    HasDeleted d' j userId orgId deleted := by
  intro r hr
  obtain ⟨hu, ho, hheld⟩ := hd r hr
  exact ⟨hu, ho, h.held _ hheld⟩

/-- What a removal knows stays true while it is spared. -/
lemma knows {p : Removal} (hp : Knows d j p) : Knows d' j p := by
  unfold Knows at hp ⊢
  split at hp
  · exact ⟨fun r hr => h.otherOwner (hp.1 r hr), fun hn => h.guarded (hp.2 hn)⟩
  · exact ⟨fun r hr => h.otherOwner (hp.1 r hr), h.guarded hp.2⟩
  · exact fun hn => h.guarded (hp hn)
  · exact h.mayRemove hp
  · exact ⟨h.mayRemove hp.1, hp.2.1, h.hasDeleted hp.2.2⟩
  · exact ⟨h.mayRemove hp.1, h.hasDeleted hp.2⟩
  · trivial

end Spares

/-- Nothing has changed. -/
lemma spares_refl : Spares j d d := ⟨rfl, fun _ => id, fun _ => id, fun _ hr _ => hr⟩

/-- A commit leaves an owner. -/
lemma owned_commit {deleted : List UserOrganisationRole} {o : Uuid}
    (hm : MayRemove d i userId orgId) (hd : HasDeleted d i userId orgId deleted)
    (ho : d.tables.owned o = true) : (d.tables.deleteRoles deleted).owned o = true := by
  obtain ⟨r, hr, hro, howner⟩ := Tables.owned_iff.mp ho
  by_cases hgone : r ∈ deleted
  · obtain ⟨hru, hrorg, -⟩ := hd r hgone
    rcases hm with ⟨q, hq, hother, -⟩ | hnone
    · -- the row of the other owner is not one of the deleted ones
      refine Tables.owned_iff.mpr ⟨q, Tables.mem_deleteRoles.mpr ⟨hq, fun hmem => ?_⟩, ?_, hother.owner⟩
      · exact hother.other (hd q hmem).1
      · exact hother.org.trans (hrorg.symm.trans hro)
    · have hcontra := Table.any_eq_false.mp hnone r hr
      simp [hru, hrorg, howner] at hcontra
  · exact Tables.owned_iff.mpr ⟨r, Tables.mem_deleteRoles.mpr ⟨hr, hgone⟩, hro, howner⟩

variable [DecidableEq ι]

/-- A lock that is granted harms nobody. -/
lemma spares_lock {k : RowRef} (h : d.locks.grants i k = true) : Spares j d (d.lock i k) :=
  ⟨rfl, fun _ => id, fun _ hheld => hheld.take h, fun _ hr _ => hr⟩

/-- Releasing locks takes none from the others. -/
lemma spares_release (h : j ≠ i) : Spares j d (d.release i) :=
  ⟨rfl, fun _ => id, fun _ hheld => hheld.releaseAll h, fun _ hr _ => hr⟩

/-- A commit deletes no row that another removal has locked. -/
lemma spares_commit {deleted : List UserOrganisationRole} (h : j ≠ i)
    (hd : HasDeleted d i userId orgId deleted) :
    Spares j d (({ d with tables := d.tables.deleteRoles deleted }).release i) := by
  refine ⟨rfl, fun r hr => (Tables.mem_deleteRoles.mp hr).1, fun _ hheld => hheld.releaseAll h, ?_⟩
  intro r hr hheld
  exact Tables.mem_deleteRoles.mpr ⟨hr, fun hmem => h (hheld.unique (hd r hmem).2.2)⟩

end Knows

/-! ## Removals that interleave -/

/-- What one step of a removal does: the next one of its own, or it is aborted. -/
inductive RemovalStep {ι : Type} [DecidableEq ι] (i : ι) :
    Removal → LockedTables ι → Removal → LockedTables ι → Prop
  | next {u o pos pos' d d'} (h : removalNext u o i pos d = some (pos', d')) :
      RemovalStep i ⟨u, o, pos⟩ d ⟨u, o, pos'⟩ d'
  | aborts {u o pos d e} (h : ∀ r, pos ≠ .done r) :
      RemovalStep i ⟨u, o, pos⟩ d ⟨u, o, .done (.error (.db e))⟩ (d.release i)

/-- Where removals end. -/
def Removal.final (p : Removal) : Bool :=
  match p.pos with
  | .done _ => true
  | _ => false

/-- What else happens: anything that leaves roles, role rows and the locks on them alone. -/
structure KeepsRoles {ι : Type} (d d' : LockedTables ι) : Prop where
  roles : d'.tables.roles = d.tables.roles
  rows : d'.tables.userOrganisationRoles = d.tables.userOrganisationRoles
  locks : d'.locks = d.locks

/-- Removals of any users from any organisations. -/
def removalSystem (ι : Type) [DecidableEq ι] : System ι (LockedTables ι) Removal where
  starts p := p.pos = .member
  step := RemovalStep
  env := KeepsRoles
  decisive _ _ := false
  final := Removal.final
  stops h := by
    cases h with
    | @next u o pos _ _ _ h =>
      cases pos with
      | done r => cases h
      | _ => rfl
    | @aborts u o pos _ _ h =>
      cases pos with
      | done r => exact absurd rfl (h r)
      | _ => rfl

section Env
variable {ι : Type} {d d' : LockedTables ι} {j : ι}

/-- What leaves the role rows alone disturbs no removal. -/
lemma KeepsRoles.spares (h : KeepsRoles d d') : Spares j d d' := by
  refine ⟨h.roles, fun r => h.rows ▸ id, fun k hheld => ?_, fun r hr _ => h.rows.symm ▸ hr⟩
  rw [h.locks]
  exact hheld

/-- What leaves the role rows alone leaves an organisation owned. -/
lemma KeepsRoles.owned (h : KeepsRoles d d') {o : Uuid} (ho : d.tables.owned o = true) :
    d'.tables.owned o = true :=
  Tables.owned_of_rows h.roles (fun _ hr => h.rows.symm ▸ hr) ho

end Env

section Steps
variable {ι : Type} {d d' : LockedTables ι} {i j : ι} {u o : Uuid}

/-- What a step does to the mover, to the others and to the owners. -/
structure KeepsOwners (i : ι) (d : LockedTables ι) (q : Removal) (d' : LockedTables ι) : Prop where
  knows : Knows d' i q
  spares : ∀ j, j ≠ i → Spares j d d'
  owned : ∀ o, d.tables.owned o = true → d'.tables.owned o = true

/-- A step that takes no lock. -/
lemma keepsOwners_same {q : Removal} (h : Knows d i q) : KeepsOwners i d q d :=
  ⟨h, fun _ _ => spares_refl, fun _ => id⟩

variable [DecidableEq ι]

/-- A step that takes a lock. -/
lemma keepsOwners_lock {q : Removal} {k : RowRef} (hgrants : d.locks.grants i k = true)
    (h : Knows (d.lock i k) i q) : KeepsOwners i d q (d.lock i k) :=
  ⟨h, fun _ _ => spares_lock hgrants, fun _ => id⟩

/-- The end of a removal that has changed nothing. -/
lemma keepsOwners_release {q : Removal} (h : Knows (d.release i) i q) :
    KeepsOwners i d q (d.release i) :=
  ⟨h, fun _ hne => spares_release hne, fun _ => id⟩

/-- Every step of a removal leaves every organisation owned that was. -/
lemma keepsOwners_next {pos pos' : RemovalPos} (h : removalNext u o i pos d = some (pos', d'))
    (hknows : Knows d i ⟨u, o, pos⟩) : KeepsOwners i d ⟨u, o, pos'⟩ d' := by
  cases pos with
  | member =>
    simp only [removalNext] at h
    split at h
    · cases h
      exact keepsOwners_same trivial
    · cases h
      exact keepsOwners_release trivial
  | owners =>
    -- the rows to lock were seen in a snapshot; none is held yet
    cases h
    exact keepsOwners_same ⟨fun r hr => (Tables.mem_otherOwners.mp hr).2, fun hn => (nomatch hn)⟩
  | lock rows n =>
    obtain ⟨hrows, hguarded⟩ := hknows
    cases rows with
    | nil =>
      cases h
      exact keepsOwners_same hguarded
    | cons r rows =>
      obtain ⟨hr, hrows⟩ := List.forall_mem_cons.mp hrows
      simp only [removalNext] at h
      split at h
      · rename_i hgrants
        split at h
        · rename_i hmem
          cases h
          -- the row is still there and stays, as the others spare what is locked
          have hspares : Spares i d (d.lock i (.membership r.key)) := spares_lock hgrants
          exact keepsOwners_lock hgrants
            ⟨fun q hq => hspares.otherOwner (hrows q hq),
              r, hmem, hspares.otherOwner hr, Locks.holds_take⟩
        · cases h
          exact keepsOwners_same ⟨hrows, hguarded⟩
      · cases h
  | lockRole r rows n =>
    obtain ⟨hrows, hguarded⟩ := hknows
    simp only [removalNext] at h
    split at h
    · rename_i hgrants
      cases h
      have hspares : Spares i d (d.lock i (.role r.roleId)) := spares_lock hgrants
      exact keepsOwners_lock hgrants
        ⟨fun q hq => hspares.otherOwner (hrows q hq), fun _ => hspares.guarded hguarded⟩
    · cases h
  | target n =>
    simp only [removalNext] at h
    split at h
    · cases h
      exact keepsOwners_release trivial
    · rename_i hlast
      cases h
      refine keepsOwners_same ?_
      -- with no row locked the count of the source lets only a member go that is no owner
      rcases Nat.eq_zero_or_pos n with hzero | hpos
      · refine Or.inr ?_
        simpa [hzero] using hlast
      · exact Or.inl (hknows hpos)
  | delete =>
    cases h
    exact keepsOwners_same ⟨hknows, fun r hr => (Tables.mem_memberRows.mp hr).2,
      fun _ hr => nomatch hr⟩
  | deleting rows deleted =>
    obtain ⟨hmay, hrows, hdeleted⟩ := hknows
    cases rows with
    | nil =>
      cases h
      exact keepsOwners_same ⟨hmay, hdeleted⟩
    | cons r rows =>
      obtain ⟨hr, hrows⟩ := List.forall_mem_cons.mp hrows
      simp only [removalNext] at h
      split at h
      · rename_i hgrants
        split at h
        · cases h
          have hspares : Spares i d (d.lock i (.membership r.key)) := spares_lock hgrants
          refine keepsOwners_lock hgrants ⟨hspares.mayRemove hmay, hrows, ?_⟩
          exact List.forall_mem_cons.mpr ⟨⟨hr.1, hr.2, Locks.holds_take⟩, hspares.hasDeleted hdeleted⟩
        · cases h
          exact keepsOwners_same ⟨hmay, hrows, hdeleted⟩
      · cases h
  | commit deleted =>
    -- the other owner is locked until here, so that the organisation keeps it
    obtain ⟨hmay, hdeleted⟩ := hknows
    cases h
    exact ⟨trivial, fun j hne => spares_commit hne hdeleted, fun p => owned_commit hmay hdeleted⟩
  | done r => cases h

/-- Whatever a removal does, it keeps its invariant, spares the others and leaves owners. -/
lemma RemovalStep.keepsOwners {p q : Removal} (h : RemovalStep i p d q d') (hknows : Knows d i p) :
    KeepsOwners i d q d' := by
  cases h with
  | next h => exact keepsOwners_next h hknows
  | aborts _ => exact keepsOwners_release trivial

/-- Removals cooperate: together they leave an owner. -/
lemma removalSystem_cooperates {orgId : Uuid} :
    Cooperates (removalSystem ι) (fun d => d.tables.owned orgId = true) (fun _ _ => True) Knows where
  starts h := knows_of_starts (of_decide_eq_true h)
  step h howned hknows :=
    have hkeeps := RemovalStep.keepsOwners h hknows
    ⟨hkeeps.owned orgId howned, trivial, hkeeps.knows⟩
  others h _ hknows hne hr := ((RemovalStep.keepsOwners h hknows).spares _ hne).knows hr
  env h howned := ⟨KeepsRoles.owned h howned, trivial⟩
  spared h _ hr := (KeepsRoles.spares h).knows hr

/-- However removals interleave, an organisation that has an owner has one in every committed
state. -/
theorem removals_keep_owner (t : Tables) (orgId : Uuid) (howned : t.owned orgId = true)
    (ms : List (Move (Pool ι (LockedTables ι) Removal) (Turn ι)))
    (P : Pool ι (LockedTables ι) Removal)
    (run : Run (Pool.Step (removalSystem ι)) (Pool.idle ι Removal ⟨t, .free⟩) ms P) :
    P.state.tables.owned orgId = true := by
  have hidle : (Pool.idle ι Removal ⟨t, .free⟩ : Pool ι (LockedTables ι) Removal).Sound
      (fun d => d.tables.owned orgId = true) Knows := Pool.sound_idle howned
  exact (removalSystem_cooperates.sound_run run hidle).state

end Steps

section Runs

/-- `acme` has two owners. -/
def twoOwners : Tables := Tables.twoTenants.addRole ⟨0x12, 0xa, 0x102, 0⟩

/-- A removal takes its next step, or is the victim of a deadlock when it has to wait. -/
def removalOrAbort (i : Client) (p : Removal) (d : LockedTables Client) :
    Option (Removal × LockedTables Client) :=
  match removalNext p.userId p.orgId i p.pos d with
  | some (pos, d') => some ({ p with pos := pos }, d')
  | none =>
    if p.final then none
    else some ({ p with pos := .done (.error (.db (.database "40P01" ""))) }, d.release i)

/-- A removal goes on or is aborted. -/
lemma step_of_removalOrAbort {i : Client} {p q : Removal} {d d' : LockedTables Client}
    (h : removalOrAbort i p d = some (q, d')) : RemovalStep i p d q d' := by
  unfold removalOrAbort at h
  split at h
  · rename_i pos d₁ hnext
    cases h
    exact .next hnext
  · split at h
    · cases h
    · rename_i hopen
      cases h
      refine .aborts fun r hdone => hopen ?_
      unfold Removal.final
      rw [hdone]

/-- Two owners remove each other. Each has locked the row of the other when the second one has to
wait and is aborted; the first one goes on. -/
def duel : List (Act Client Removal) :=
  .begins .first ⟨0x11, 0xa, .member⟩ :: .begins .second ⟨0x12, 0xa, .member⟩ :: Act.steps .first 4 ++
    Act.steps .second 4 ++ Act.steps .first 6

/-- Of two owners that remove each other one stays. -/
theorem removals_keep_owner_duel :
    ∃ P, Pool.perform (removalSystem Client) removalOrAbort (fun _ _ => true)
        (Pool.idle Client Removal ⟨twoOwners, .free⟩) duel = some P ∧
      P.calls .first = some ⟨⟨0x11, 0xa, .done (.ok ())⟩, 1, none, some 16⟩ ∧
      P.state.tables.owned 0xa = true := by
  have hends : (Pool.perform (removalSystem Client) removalOrAbort (fun _ _ => true)
      (Pool.idle Client Removal ⟨twoOwners, .free⟩) duel).map (fun P => P.calls .first) =
      some (some ⟨⟨0x11, 0xa, .done (.ok ())⟩, 1, none, some 16⟩) := by decide +kernel
  obtain ⟨P, hP, hcall⟩ := Option.map_eq_some_iff.mp hends
  obtain ⟨ms, hrun, -⟩ := Pool.run_of_perform step_of_removalOrAbort hP
  exact ⟨P, hP, hcall, removals_keep_owner twoOwners 0xa (by decide +kernel) ms P hrun⟩

end Runs
end Egras
