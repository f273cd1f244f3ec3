/-
Bundles nest one level.

An include is refused while the child includes others in its working copy, its latest
version or a version somebody holds.
-/

import Syndra.Bundles.Drafts
import Syndra.Foundation.Runs
import Syndra.Ledger.Effects

namespace Syndra.Ledger.Records

open Access

/-- Every version of that id includes nothing, and there is one. -/
def Leaf (records : Records) (versionId : String) : Prop :=
  versionId ∈ records.versions.map BundleVersion.id ∧
    ∀ version ∈ records.versions, version.id = versionId → version.includes = []

/-- Includes of working copies, latest versions and held versions lead to versions that
include nothing. -/
structure OneLevel (records : Records) : Prop where
  working : ∀ bundle ∈ records.bundles, ∀ child ∈ bundle.includes, records.Leaf child.versionId
  current : ∀ version ∈ records.versions, records.current version = true →
    ∀ child ∈ version.includes, records.Leaf child.versionId

/-- The roles the include tree of a version reaches. -/
inductive TreeGives (records : Records) : String → Role → Prop where
  | own {version : BundleVersion} {role : Role} (listed : version ∈ records.versions)
      (member : role ∈ version.roles) : TreeGives records version.id role
  | included {version : BundleVersion} {child : Include} {role : Role}
      (listed : version ∈ records.versions) (inside : child ∈ version.includes)
      (given : TreeGives records child.versionId role) : TreeGives records version.id role

end Syndra.Ledger.Records

namespace Syndra.Bundles

open Access Propagation Ledger Foundation.Runs List

section Views

variable {records : Records}

variable {role : Role} {versionId : String}

private theorem mem_effectiveRoles : role ∈ records.effectiveRoles versionId ↔
      ∃ version ∈ records.versions, version.id = versionId ∧
        (role ∈ version.roles ∨ ∃ child ∈ version.includes, ∃ other ∈ records.versions,
          other.id = child.versionId ∧ role ∈ other.roles) := by
  unfold Records.effectiveRoles
  simp only [mem_flatMap,mem_filter,mem_append,decide_eq_true_eq,and_assoc]

private theorem treeGives_of_effective (given : role ∈ records.effectiveRoles versionId) :
    records.TreeGives versionId role := by
  obtain ⟨_,listed,rfl,own | ⟨_,inside,_,otherListed,isChild,mem⟩⟩ := mem_effectiveRoles.mp given
  · exact .own listed own
  refine .included listed inside ?_
  rw [← isChild]
  exact .own otherListed mem

private theorem effective_of_treeGives (leaves : ∀ version ∈ records.versions, version.id = versionId →
      ∀ child ∈ version.includes, records.Leaf child.versionId)
    (given : records.TreeGives versionId role) : role ∈ records.effectiveRoles versionId := by
  rw [mem_effectiveRoles]
  cases given with
  | own listed mem => exact ⟨_,listed,rfl,.inl mem⟩
  | @included version child _ listed inside deeper =>
    refine ⟨version,listed,rfl,.inr ⟨child,inside,?_⟩⟩
    have leaf := (leaves version listed rfl child inside).2
    generalize child.versionId = childVersion at deeper leaf
    cases deeper with
    | own otherListed mem => exact ⟨_,otherListed,rfl,mem⟩
    | included otherListed deepest =>
      rw [leaf _ otherListed rfl] at deepest
      cases deepest

private theorem held_effective (oneLevel : records.OneLevel) {held : Assignment}
    (mem : held ∈ records.assignments) :
    role ∈ records.effectiveRoles held.versionId ↔ records.TreeGives held.versionId role := by
  refine ⟨treeGives_of_effective,effective_of_treeGives fun version listed same => ?_⟩
  refine oneLevel.current version listed ?_
  unfold Records.current
  rw [Bool.or_eq_true]
  exact .inr (any_eq_true.mpr ⟨held,mem,decide_eq_true same.symm⟩)

end Views

/-! ### The invariant -/

def pins (records : Records) : List Include :=
  records.bundles.flatMap Bundle.includes ++ records.versions.flatMap BundleVersion.includes

structure Pinned (records : Records) : Prop where
  distinct : (records.versions.map BundleVersion.id).Nodup
  owned : ∀ version ∈ records.versions, version.bundleId ∈ records.bundles.map Bundle.id
  leaf : ∀ child ∈ pins records, records.Leaf child.versionId

namespace Pinned

variable {records next : Records}

private theorem oneLevel (pinned : Pinned records) : records.OneLevel where
  working bundle listed child inside :=
    pinned.leaf child (mem_append_left _ (mem_flatMap.mpr ⟨bundle,listed,inside⟩))
  current version listed _ child inside :=
    pinned.leaf child (mem_append_right _ (mem_flatMap.mpr ⟨version,listed,inside⟩))

variable {version : BundleVersion}

private theorem leaf_of_empty (pinned : Pinned records) (listed : version ∈ records.versions)
    (empty : version.includes = []) :
    records.Leaf version.id := by
  refine ⟨mem_map_of_mem listed,fun other otherListed same => ?_⟩
  rw [inj_on_of_nodup_map pinned.distinct otherListed listed same]
  exact empty

private theorem of_versions (pinned : Pinned records) (versions : next.versions = records.versions)
    (ids : next.bundles.map Bundle.id = records.bundles.map Bundle.id)
    (leaf : ∀ child ∈ next.bundles.flatMap Bundle.includes, records.Leaf child.versionId) :
    Pinned next := by
  refine ⟨by rw [versions]; exact pinned.distinct,?_,?_⟩
  · rw [versions,ids]
    exact pinned.owned
  intro child inside
  unfold Records.Leaf
  rw [versions]
  rcases mem_append.mp inside with inWorking | inVersion
  · exact leaf child inWorking
  · rw [versions] at inVersion
    exact pinned.leaf child (mem_append_right _ inVersion)

private theorem leaf_append {id : String} (leaf : records.Leaf id)
    (fresh : version.id ∉ records.versions.map BundleVersion.id)
    (versions : next.versions = records.versions ++ [version]) : next.Leaf id := by
  refine ⟨?_,?_⟩
  · rw [versions,map_append]
    exact mem_append_left _ leaf.1
  rw [versions]
  intro other listed same
  rcases mem_append.mp listed with old | new
  · exact leaf.2 other old same
  · rw [mem_singleton.mp new] at same
    exact absurd (same ▸ leaf.1) fresh

theorem publish (pinned : Pinned records)
    (fresh : version.id ∉ records.versions.map BundleVersion.id)
    (owner : version.bundleId ∈ records.bundles.map Bundle.id)
    (copied : ∀ child ∈ version.includes, records.Leaf child.versionId)
    (bundles : next.bundles = records.bundles)
    (versions : next.versions = records.versions ++ [version]) : Pinned next := by
  refine ⟨?_,?_,?_⟩
  · rw [versions,map_append]
    exact pinned.distinct.append (nodup_singleton _) (disjoint_singleton.mpr fresh)
  · rw [versions,bundles]
    intro other listed
    rcases mem_append.mp listed with old | new
    · exact pinned.owned other old
    · rw [mem_singleton.mp new]
      exact owner
  · intro child inside
    refine leaf_append ?_ fresh versions
    rcases mem_append.mp inside with inWorking | inVersion
    · rw [bundles] at inWorking
      exact pinned.leaf child (mem_append_left _ inWorking)
    rw [versions,flatMap_append,mem_append] at inVersion
    rcases inVersion with old | new
    · exact pinned.leaf child (mem_append_right _ old)
    · rw [flatMap_singleton] at new
      exact copied child new

end Pinned

/-! ### Includes set and removed -/

section Includes

variable {records next : Records} {bundleId : String}

variable {edit : List Include → List Include} {parentId : String} {latest version : BundleVersion}

private theorem ids_editIncludes :
    (records.editIncludes bundleId edit).bundles.map Bundle.id = records.bundles.map Bundle.id := by
  unfold Records.editIncludes
  rw [map_map]
  refine map_congr_left fun bundle _ => ?_
  change Bundle.id (if _ then _ else _) = bundle.id
  split <;> rfl

variable {childId : String} {childVersion : Int}

theorem Pinned.editIncludes (pinned : Pinned records)
    (edited : ∀ bundle ∈ records.bundles, ∀ child ∈ edit bundle.includes,
      child ∈ bundle.includes ∨ records.Leaf child.versionId) :
    Pinned (records.editIncludes bundleId edit) := by
  refine pinned.of_versions rfl ids_editIncludes ?_
  intro child inside
  obtain ⟨_,listed,inAfter⟩ := mem_flatMap.mp inside
  obtain ⟨bundle,isBundle,rfl⟩ := mem_map.mp listed
  have old : child ∈ bundle.includes → records.Leaf child.versionId := fun mem =>
    pinned.leaf child (mem_append_left _ (mem_flatMap.mpr ⟨bundle,isBundle,mem⟩))
  split at inAfter
  · exact (edited bundle isBundle child inAfter).elim old id
  · exact old inAfter

private theorem mem_putInclude {child new : Include} {includes : List Include}
    (mem : child ∈ putInclude new includes) : child ∈ includes ∨ child = new := by
  unfold putInclude at mem
  split at mem
  · obtain ⟨_,inside,rfl⟩ := mem_map.mp mem
    split
    · exact .inr rfl
    · exact .inl inside
  · exact (mem_append.mp mem).imp id mem_singleton.mp

private theorem setWorkingInclude_ok
    (done : setWorkingInclude records parentId childId childVersion = .ok next) :
    parentId ≠ childId ∧ records.includesAnything childId = false ∧
      ∃ version, records.pinnedVersion childId childVersion = some version ∧
        next = records.editIncludes parentId (putInclude ⟨childId,version.id⟩) := by
  unfold setWorkingInclude at done
  split at done
  · cases done
  rename_i apart
  split at done
  · cases done
  split at done
  · cases done
  rename_i nothing
  split at done
  · cases done
  split at done
  · cases done
  rename_i version isVersion
  cases done
  exact ⟨apart,Bool.eq_false_iff.mpr nothing,version,isVersion,rfl⟩

private theorem latestVersion_mem (found : records.latestVersion bundleId = some latest) :
    latest ∈ records.versions ∧ latest.bundleId = bundleId := by
  have kept : ∀ best, records.latestVersion bundleId = some best →
      best ∈ records.versions ∧ best.bundleId = bundleId := by
    unfold Records.latestVersion
    refine foldlRecOn (motive := fun found => ∀ best, found = some best →
      best ∈ records.versions ∧ best.bundleId = bundleId) _ _ nofun ?_
    intro found good version listed best isBest
    obtain ⟨mem,same⟩ := mem_filter.mp listed
    cases found with
    | none =>
      cases isBest
      exact ⟨mem,of_decide_eq_true same⟩
    | some =>
      dsimp only at isBest
      split at isBest
      · cases isBest
        exact ⟨mem,of_decide_eq_true same⟩
      · cases isBest
        exact good _ rfl
  exact kept latest found

private theorem pinnedVersion_mem (found : records.pinnedVersion childId childVersion = some version) :
    version ∈ records.versions ∧ version.bundleId = childId := by
  unfold Records.pinnedVersion at found
  split at found
  · exact latestVersion_mem found
  have isVersion := find?_some found
  rw [Bool.and_eq_true] at isVersion
  exact ⟨mem_of_find?_eq_some found,of_decide_eq_true isVersion.1⟩

private theorem includes_of_current (nothing : records.includesAnything childId = false)
    (listed : version ∈ records.versions)
    (owner : version.bundleId = childId) (inUse : records.current version = true) :
    version.includes = [] := by
  unfold Records.includesAnything at nothing
  rw [Bool.or_eq_false_iff,any_eq_false,any_eq_false] at nothing
  by_contra some
  apply nothing.2 version listed
  rw [inUse,decide_eq_true owner,decide_eq_true some]
  rfl

private theorem current_of_latest
    (found : records.latestVersion bundleId = some latest) : records.current latest = true := by
  unfold Records.current
  rw [(latestVersion_mem found).2,found]
  exact Bool.or_eq_true_iff.mpr (.inl (decide_eq_true rfl))

theorem Pinned.setWorkingInclude (pinned : Pinned records)
    (leaf : ∀ version, records.pinnedVersion childId childVersion = some version →
      records.current version = true ∨ version.includes = [])
    (done : setWorkingInclude records parentId childId childVersion = .ok next) : Pinned next := by
  obtain ⟨-,nothing,version,isVersion,rfl⟩ := setWorkingInclude_ok done
  obtain ⟨listed,owner⟩ := pinnedVersion_mem isVersion
  have empty : version.includes = [] :=
    (leaf version isVersion).elim (includes_of_current nothing listed owner) id
  refine pinned.editIncludes fun bundle _ child inside => ?_
  refine (mem_putInclude inside).imp id fun isNew => ?_
  rw [isNew]
  exact pinned.leaf_of_empty listed empty

end Includes

/-! ### Creating -/

structure Creating (id versionId : String) (records : Records) : Prop where
  pinned : Pinned records
  only : ∀ version ∈ records.versions, version.bundleId = id → version.id = versionId
  unpinned : ∀ child ∈ pins records, child.versionId ≠ versionId

section Creating

variable {records next : Records} {id versionId : String}

variable {bundleId : String} {child : Include}

private theorem pins_editIncludes {edit : List Include → List Include}
    (inside : child ∈ pins (records.editIncludes bundleId edit)) :
    child ∈ pins records ∨ ∃ bundle ∈ records.bundles, child ∈ edit bundle.includes := by
  rcases mem_append.mp inside with inWorking | inVersion
  · obtain ⟨_,listed,inAfter⟩ := mem_flatMap.mp inWorking
    obtain ⟨bundle,isBundle,rfl⟩ := mem_map.mp listed
    split at inAfter
    · exact .inr ⟨bundle,isBundle,inAfter⟩
    · exact .inl (mem_append_left _ (mem_flatMap.mpr ⟨bundle,isBundle,inAfter⟩))
  · exact .inl (mem_append_right _ inVersion)

private theorem mem_workingIncludes
    (inside : child ∈ records.workingIncludes bundleId) : child ∈ pins records := by
  obtain ⟨bundle,listed,mem⟩ := mem_flatMap.mp inside
  exact mem_append_left _
    (mem_flatMap.mpr ⟨bundle,(mem_filter.mp listed).1,mem⟩)

theorem Creating.snapshot (creating : Creating id versionId records) {grows : BundleVersion → Prop}
    [DecidablePred grows] {added : List Include}
    (isOwn : ∀ version, grows version → version.bundleId = id)
    (copied : ∀ child ∈ added, child ∈ pins records)
    (versions : next.versions = records.versions.map fun version =>
      if grows version then { version with includes := version.includes ++ added } else version)
    (bundles : next.bundles = records.bundles) : Creating id versionId next := by
  have shape : ∀ version ∈ next.versions, ∃ before ∈ records.versions,
      version.id = before.id ∧ version.bundleId = before.bundleId ∧
      (version.includes = before.includes ∨
        (before.id = versionId ∧ version.includes = before.includes ++ added)) := by
    intro version listed
    rw [versions] at listed
    obtain ⟨before,isBefore,rfl⟩ := mem_map.mp listed
    refine ⟨before,isBefore,?_⟩
    split
    · next grow =>
      exact ⟨rfl,rfl,.inr ⟨creating.only before isBefore (isOwn before grow),rfl⟩⟩
    · exact ⟨rfl,rfl,.inl rfl⟩
  have ids : next.versions.map BundleVersion.id = records.versions.map BundleVersion.id := by
    rw [versions,map_map]
    refine map_congr_left fun version _ => ?_
    change BundleVersion.id (if _ then _ else _) = version.id
    split <;> rfl
  have known : ∀ child ∈ pins next, child ∈ pins records := by
    intro child inside
    rcases mem_append.mp inside with inWorking | inVersion
    · rw [bundles] at inWorking
      exact mem_append_left _ inWorking
    obtain ⟨version,listed,mem⟩ := mem_flatMap.mp inVersion
    obtain ⟨before,isBefore,-,-,same | ⟨-,more⟩⟩ := shape version listed
    · rw [same] at mem
      exact mem_append_right _ (mem_flatMap.mpr ⟨before,isBefore,mem⟩)
    rw [more] at mem
    rcases mem_append.mp mem with old | new
    · exact mem_append_right _ (mem_flatMap.mpr ⟨before,isBefore,old⟩)
    · exact copied child new
  refine ⟨⟨by rw [ids]; exact creating.pinned.distinct,?_,?_⟩,?_,fun child inside =>
    creating.unpinned child (known child inside)⟩
  · intro version listed
    obtain ⟨before,isBefore,-,owner,-⟩ := shape version listed
    rw [owner,bundles]
    exact creating.pinned.owned before isBefore
  · intro child inside
    have leaf := creating.pinned.leaf child (known child inside)
    refine ⟨by rw [ids]; exact leaf.1,fun version listed same => ?_⟩
    obtain ⟨before,isBefore,isId,-,kept | ⟨isNew,-⟩⟩ := shape version listed
    · rw [kept]
      exact leaf.2 before isBefore (isId ▸ same)
    · exact absurd (same.symm.trans (isId.trans isNew))
        (creating.unpinned child (known child inside))
  · intro version listed owner
    obtain ⟨before,isBefore,isId,isBundle,-⟩ := shape version listed
    rw [isId]
    exact creating.only before isBefore (isBundle ▸ owner)

variable {childId : String}

private theorem latest_inUse {version : BundleVersion}
    (found : records.pinnedVersion childId 0 = some version) : records.current version = true := by
  exact current_of_latest found

theorem Creating.setWorkingInclude (creating : Creating id versionId records)
    {first : BundleVersion} (listed : first ∈ records.versions) (owner : first.bundleId = id)
    (done : setWorkingInclude records id childId 0 = .ok next) :
    Creating id versionId next ∧ first ∈ next.versions := by
  have pinned := creating.pinned.setWorkingInclude
    (fun version found => .inl (latest_inUse found)) done
  obtain ⟨apart,-,version,isVersion,rfl⟩ := setWorkingInclude_ok done
  obtain ⟨isListed,isChild⟩ := pinnedVersion_mem isVersion
  refine ⟨⟨pinned,creating.only,fun child inside => ?_⟩,listed⟩
  rcases pins_editIncludes inside with old | ⟨bundle,isBundle,mem⟩
  · exact creating.unpinned child old
  rcases mem_putInclude mem with old | rfl
  · exact creating.unpinned child
      (mem_append_left _ (mem_flatMap.mpr ⟨bundle,isBundle,old⟩))
  intro same
  have one := inj_on_of_nodup_map creating.pinned.distinct isListed listed
    (same.trans (creating.only first listed owner).symm)
  rw [one,owner] at isChild
  exact apart isChild

theorem Creating.includeInFirstVersion (creating : Creating id versionId records)
    (exists_ : ∃ first ∈ records.versions, first.bundleId = id)
    (done : includeInFirstVersion id records childId = .ok next) :
    Creating id versionId next ∧ ∃ first ∈ next.versions, first.bundleId = id := by
  obtain ⟨first,listed,owner⟩ := exists_
  unfold Bundles.includeInFirstVersion at done
  split at done
  · cases done
  rename_i middle set
  obtain ⟨created,stillListed⟩ := creating.setWorkingInclude listed owner set
  split at done
  · cases done
  cases done
  refine ⟨created.snapshot (fun version grow => grow.1)
    (fun child inside => mem_workingIncludes (mem_filter.mp inside).1) rfl rfl,?_⟩
  refine ⟨_,mem_map_of_mem stillListed,?_⟩
  split <;> exact owner

private theorem Pinned.creating (pinned : Pinned records) (bundle : Bundle)
    (version : BundleVersion)
    (freshBundle : bundle.id ∉ records.bundles.map Bundle.id) (nothing : bundle.includes = [])
    (freshVersion : version.id ∉ records.versions.map BundleVersion.id)
    (owner : version.bundleId = bundle.id) (empty : version.includes = [])
    (bundles : next.bundles = records.bundles ++ [bundle])
    (versions : next.versions = records.versions ++ [version]) :
    Creating bundle.id version.id next := by
  have known : ∀ child ∈ pins next, child ∈ pins records := by
    intro child inside
    rcases mem_append.mp inside with inWorking | inVersion
    · rw [bundles,flatMap_append,flatMap_singleton,nothing,append_nil] at inWorking
      exact mem_append_left _ inWorking
    · rw [versions,flatMap_append,flatMap_singleton,empty,append_nil] at inVersion
      exact mem_append_right _ inVersion
  refine ⟨⟨?_,?_,fun child inside => ?_⟩,?_,fun child inside same => ?_⟩
  · rw [versions,map_append]
    exact pinned.distinct.append (nodup_singleton _)
      (disjoint_singleton.mpr freshVersion)
  · rw [versions,bundles,map_append]
    intro other listed
    rcases mem_append.mp listed with old | new
    · exact mem_append_left _ (pinned.owned other old)
    · rw [mem_singleton.mp new,owner]
      exact mem_append_right _ mem_cons_self
  · exact Pinned.leaf_append (pinned.leaf child (known child inside)) freshVersion versions
  · rw [versions]
    intro other listed isBundle
    rcases mem_append.mp listed with old | new
    · exact absurd (isBundle ▸ pinned.owned other old) freshBundle
    · rw [mem_singleton.mp new]
  · exact freshVersion (same ▸ (pinned.leaf child (known child inside)).1)

private theorem pinned_created {catalog after : Catalog} (pinned : Pinned catalog.access.records)
    {roles : List Role} {includes : List String}
    (done : catalog.createBundle id versionId roles includes = .ok after) :
    Pinned after.access.records := by
  unfold Catalog.createBundle at done
  dsimp only at done
  split at done
  · cases done
  rename_i fresh
  rw [not_or] at fresh
  split at done
  · cases done
  rename_i created folded
  cases done
  exact (foldlM_keeps (fun records => Creating id versionId records ∧
      ∃ first ∈ records.versions, first.bundleId = id)
    (fun creating => creating.1.includeInFirstVersion creating.2)
    ⟨pinned.creating ⟨id,false,[]⟩ ⟨versionId,id,1,roles.dedup,[]⟩ fresh.1 rfl fresh.2
        rfl rfl rfl rfl,_,mem_append_right _ mem_cons_self,rfl⟩ folded).1.pinned

end Creating

/-! ### Publishing -/

section Publishing

variable {records next : Records}

variable {bundleId : String}

private theorem latestVersion_congr (versions : next.versions = records.versions) :
    next.latestVersion bundleId = records.latestVersion bundleId := by
  unfold Records.latestVersion
  rw [versions]

private theorem latestVersion_published {latest version : BundleVersion}
    (found : records.latestVersion bundleId = some latest)
    (versions : next.versions = records.versions ++ [version]) (owner : version.bundleId = bundleId)
    (newer : latest.version < version.version) :
    next.latestVersion bundleId = some version := by
  unfold Records.latestVersion at found ⊢
  have kept : [version].filter (fun version => version.bundleId = bundleId) = [version] :=
    filter_eq_self.mpr fun other isNew => by
      rw [mem_singleton.mp isNew]
      exact decide_eq_true owner
  rw [versions,filter_append,foldl_append,found,kept]
  exact if_pos newer

private theorem pinned_parent {parentId : String} {version : Nat} (pinned : Pinned records)
    (newest : ∃ latest, records.latestVersion bundleId = some latest ∧ latest.version = version)
    (done : setWorkingInclude records parentId bundleId version = .ok next) :
    Pinned next ∧
      ∃ latest, next.latestVersion bundleId = some latest ∧ latest.version = version := by
  have kept : next.versions = records.versions := by
    obtain ⟨-,-,_,-,rfl⟩ := setWorkingInclude_ok done
    rfl
  rw [latestVersion_congr kept]
  refine ⟨pinned.setWorkingInclude (fun found isFound => .inl ?_) done,newest⟩
  obtain ⟨_,isLatest,isNewest⟩ := newest
  unfold Records.pinnedVersion at isFound
  split at isFound
  · exact current_of_latest isFound
  have isVersion := find?_some isFound
  rw [Bool.and_eq_true,decide_eq_true_eq,decide_eq_true_eq] at isVersion
  unfold Records.current
  rw [isVersion.1,isLatest,Bool.or_eq_true]
  exact .inl (decide_eq_true (isNewest.trans (Int.ofNat.inj isVersion.2).symm))

private theorem pinned_published {gate : Option CancelGate} {catalog after : Catalog}
    {versionId : String}
    {request : PublishRequest} (pinned : Pinned catalog.access.records)
    (done : publishBundleVersion gate catalog versionId request = .ok after) :
    Pinned after.access.records := by
  unfold publishBundleVersion at done
  dsimp only at done
  split at done
  · cases done
  rename_i draft isDraft
  split at done
  · cases done
  split at done
  · cases done
  split at done
  · cases done
  rename_i fresh
  split at done
  · cases done
  rename_i access committed
  split at done
  · cases done
  rename_i edited folded
  cases done
  obtain ⟨outbox,ids,-,rfl⟩ := commit_ok committed
  unfold bundleDraft at isDraft
  dsimp only at isDraft
  split at isDraft
  · cases isDraft
  rename_i latest isLatest
  cases isDraft
  obtain ⟨listed,owner⟩ := latestVersion_mem isLatest
  refine (foldlM_keeps (fun records => Pinned records ∧ ∃ newest,
      records.latestVersion request.bundleId = some newest ∧ newest.version = latest.version + 1)
    (fun holds => pinned_parent holds.1 holds.2) ⟨?_,?_⟩ folded).1
  · refine pinned.publish fresh ?_ (fun child inside =>
      pinned.leaf child (mem_workingIncludes inside)) rfl rfl
    rw [← owner]
    exact pinned.owned latest listed
  · exact ⟨_,latestVersion_published isLatest rfl rfl (Nat.lt_succ_self _),rfl⟩

end Publishing

/-! ### Every run -/

/-- An include set to a version by its number is set to one that includes nothing. -/
def Operation.NamesLeaf (records : Records) : Operation → Prop
  | .setInclude _ childId version =>
    0 < version →
      (records.pinnedVersion childId version).all (fun pinned => pinned.includes = []) = true
  | _ => True

instance (records : Records) (operation : Operation) : Decidable (operation.NamesLeaf records) := by
  unfold Operation.NamesLeaf
  split <;> infer_instance

section Steps

variable {catalog after : Catalog} {gate : Option CancelGate}

private theorem bundle_of_accessed {result : Except ChangeError AccessState}
    (done : accessed catalog result = .ok after) : result = .ok after.access := by
  cases result with
  | error => cases done
  | ok =>
    cases done
    rfl

variable {bundleId : String} {access : AccessState}

private theorem pinned_discarded (pinned : Pinned catalog.access.records)
    (done : catalog.discardBundleDraft bundleId = .ok after) : Pinned after.access.records := by
  unfold Catalog.discardBundleDraft at done
  split at done
  · cases done
  rename_i latest isLatest
  cases done
  change Pinned (catalog.access.records.editIncludes bundleId fun _ => latest.includes)
  refine pinned.editIncludes fun bundle _ child inside => .inr (pinned.leaf child ?_)
  exact mem_append_right _
    (mem_flatMap.mpr ⟨latest,(latestVersion_mem isLatest).1,inside⟩)

theorem Pinned.same {records next : Records} (pinned : Pinned records)
    (versions : next.versions = records.versions)
    (ids : next.bundles.map Bundle.id = records.bundles.map Bundle.id)
    (includes : next.bundles.map Bundle.includes = records.bundles.map Bundle.includes) :
    Pinned next := by
  refine pinned.of_versions versions ids fun child inside => pinned.leaf child ?_
  rw [flatMap_def,includes] at inside
  exact mem_append_left _ inside

section

variable (pinned : Pinned catalog.access.records)
include pinned

variable {userId : String}

private theorem pinned_assigned
    (done : cascadeBundleAssignedToUser gate catalog.access userId bundleId = .ok access) :
    Pinned access.records := by
  unfold cascadeBundleAssignedToUser at done
  split at done
  · cases done
  split at done
  · cases done
  split at done
  · cases done
  split at done
  · cases done
    exact pinned
  obtain ⟨_,_,-,rfl⟩ := commit_ok done
  unfold Records.assign
  split
  · exact pinned
  · exact pinned.same rfl rfl rfl

private theorem pinned_unassigned
    (done : cascadeBundleRemovedFromUser gate catalog.access userId bundleId = .ok access) :
    Pinned access.records := by
  unfold cascadeBundleRemovedFromUser at done
  split at done
  · cases done
  split at done
  · cases done
  · obtain ⟨_,_,-,rfl⟩ := commit_ok done
    exact pinned.same rfl rfl rfl

private theorem pinned_retired
    (done : cascadeBundleRetired gate catalog.access bundleId = .ok access) :
    Pinned access.records := by
  unfold cascadeBundleRetired at done
  split at done
  · cases done
  split at done
  · cases done
  split at done
  · cases done
  obtain ⟨_,_,-,rfl⟩ := commit_ok done
  refine pinned.same rfl ?_ ?_
  · unfold Records.retireBundle
    rw [map_map]
    refine map_congr_left fun bundle _ => ?_
    change Bundle.id (if _ then _ else _) = bundle.id
    split <;> rfl
  · unfold Records.retireBundle
    rw [map_map]
    refine map_congr_left fun bundle _ => ?_
    change Bundle.includes (if _ then _ else _) = bundle.includes
    split <;> rfl

private theorem pinned_moved {versionId : String}
    {userIds : List String}
    (done : moveHolders gate catalog.access bundleId versionId userIds = .ok access) :
    Pinned access.records := by
  unfold moveHolders at done
  split at done
  · dsimp only at done
    split at done
    · cases done
      exact pinned
    split at done
    · cases done
    rename_i committed
    cases done
    obtain ⟨outbox,ids,-,rfl⟩ := commit_ok committed
    exact pinned.same rfl rfl rfl
  · cases done

end

variable {request : Option CancelGate × Operation}

private theorem ok_of_step (taken : step catalog request = some after) :
    request.2.perform request.1 catalog = .ok after := by
  unfold step at taken
  cases result : request.2.perform request.1 catalog with
  | error =>
    rw [result] at taken
    cases taken
  | ok =>
    rw [result] at taken
    exact congrArg _ (Option.some.inj taken)

private theorem pinned_step (pinned : Pinned catalog.access.records)
    (namesLeaf : request.2.NamesLeaf catalog.access.records)
    (taken : step catalog request = some after) : Pinned after.access.records := by
  obtain ⟨gate,operation⟩ := request
  have done := ok_of_step taken
  cases operation with
  | create => exact pinned_created pinned done
  | addRole =>
    cases done
    unfold Catalog.addRoleToBundle
    split <;> exact pinned
  | removeRole =>
    cases done
    exact pinned
  | setInclude _ _ version =>
    dsimp only [Operation.perform] at done
    split at done
    · cases done
    rename_i set
    cases done
    refine pinned.setWorkingInclude (fun found isFound => ?_) set
    by_cases named : 0 < version
    · have empty := namesLeaf named
      rw [isFound] at empty
      exact .inr (of_decide_eq_true empty)
    left
    unfold Records.pinnedVersion at isFound
    rw [if_pos (Int.not_lt.mp named)] at isFound
    exact current_of_latest isFound
  | removeInclude =>
    cases done
    exact pinned.editIncludes fun bundle _ child inside => .inl (mem_filter.mp inside).1
  | discardDraft => exact pinned_discarded pinned done
  | publish => exact pinned_published pinned done
  | assign => exact pinned_assigned pinned (bundle_of_accessed done)
  | unassign => exact pinned_unassigned pinned (bundle_of_accessed done)
  | move =>
    dsimp only [Operation.perform] at done
    split at done
    · cases done
    rename_i moved
    cases done
    exact pinned_moved pinned moved
  | retire => exact pinned_retired pinned (bundle_of_accessed done)

end Steps

/-- From no bundles, every run in which no include is set to a numbered version with
includes of its own keeps bundles one level deep, and a holder's view of their version is
all its include tree gives. -/
theorem oneLevel_run (start final : Catalog) (requests : List (Option CancelGate × Operation))
    (noBundles : start.access.records.bundles = [])
    (noVersions : start.access.records.versions = [])
    (namesLeaf : Throughout step (fun catalog request =>
      request.2.NamesLeaf catalog.access.records) start requests)
    (reached : run step start requests = some final) :
    final.access.records.OneLevel ∧ ∀ held ∈ final.access.records.assignments, ∀ role,
        role ∈ final.access.records.effectiveRoles held.versionId ↔
          final.access.records.TreeGives held.versionId role := by
  have initially : Pinned start.access.records := by
    refine ⟨?_,?_,?_⟩
    · rw [noVersions]
      exact List.nodup_nil
    · rw [noVersions]
      exact nofun
    unfold pins
    rw [noBundles,noVersions]
    exact nofun
  have pinned := run_invariant (fun catalog => Pinned catalog.access.records)
    pinned_step initially namesLeaf reached
  exact ⟨pinned.oneLevel,fun held mem role => held_effective pinned.oneLevel mem⟩

namespace Workshop

def noBundles : Catalog :=
  { working := []
    access := { outbox := .empty, zitadel := fun _ => false, now := 0, records := .empty } }

def publishes (versionId bundleId : String) : Operation :=
  .publish versionId ⟨bundleId,false,[]⟩

def clubIncludes (makersVersion : Int) : List (Option CancelGate × Operation) :=
  ([.create "tools" "tools-1" [⟨"lathe","operator"⟩] [],
    .create "makers" "makers-1" [⟨"workshop","member"⟩] [],
    .create "club" "club-1" [⟨"doors","entry"⟩] [],
    .setInclude "makers" "tools" 0,publishes "makers-2" "makers",
    .removeInclude "makers" "tools",publishes "makers-3" "makers",
    .setInclude "club" "makers" makersVersion,publishes "club-2" "club",
    .assign "ada" "club"] : List Operation).map fun operation => (none, operation)

theorem oneLevel_currentPinned :
    ∃ final, run step noBundles (clubIncludes 3) = some final ∧ final.access.records.OneLevel ∧
      final.access.records.assignments = [⟨"ada","club","club-2"⟩] ∧
      ∀ role, role ∈ final.access.records.effectiveRoles "club-2" ↔
        final.access.records.TreeGives "club-2" role := by
  have ran : (run step noBundles (clubIncludes 3)).any (fun final =>
      decide (final.access.records.assignments = [⟨"ada","club","club-2"⟩])) = true := by
    decide +kernel
  obtain ⟨final,reached,held⟩ := exists_reached ran
  have kept := oneLevel_run noBundles final (clubIncludes 3) rfl rfl (by decide +kernel) reached
  refine ⟨final,reached,kept.1,held,fun role => ?_⟩
  exact kept.2 ⟨"ada","club","club-2"⟩ (by rw [held]; exact List.mem_cons_self) role

/-- Named by its number, the makers' version with the tools inside is included, and its
holder goes without them. -/
theorem twoLevels_olderPinned :
    ∃ final, run step noBundles (clubIncludes 2) = some final ∧ ¬ final.access.records.OneLevel ∧
      ∃ held ∈ final.access.records.assignments,
        final.access.records.TreeGives held.versionId ⟨"lathe","operator"⟩ ∧
        ⟨"lathe","operator"⟩ ∉ final.access.records.effectiveRoles held.versionId := by
  have ran : (run step noBundles (clubIncludes 2)).any (fun final => decide
      (⟨"ada","club","club-2"⟩ ∈ final.access.records.assignments ∧
        ⟨"club-2","club",2,[⟨"doors","entry"⟩],[⟨"makers","makers-2"⟩]⟩ ∈
          final.access.records.versions ∧
        ⟨"makers-2","makers",2,[⟨"workshop","member"⟩],[⟨"tools","tools-1"⟩]⟩ ∈
          final.access.records.versions ∧
        ⟨"tools-1","tools",1,[⟨"lathe","operator"⟩],[]⟩ ∈ final.access.records.versions ∧
        ⟨"lathe","operator"⟩ ∉ final.access.records.effectiveRoles "club-2")) = true := by
    decide +kernel
  obtain ⟨final,reached,held,club,makers,tools,missing⟩ := exists_reached ran
  have given : final.access.records.TreeGives "club-2" ⟨"lathe","operator"⟩ :=
    .included club List.mem_cons_self
      (.included makers List.mem_cons_self (.own tools List.mem_cons_self))
  refine ⟨final,reached,fun oneLevel => ?_,_,held,given,missing⟩
  exact missing ((held_effective oneLevel held).mpr given)

end Workshop

end Syndra.Bundles
