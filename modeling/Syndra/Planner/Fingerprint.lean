/-
A fingerprint identifies the change.

The framed fields are a head of fixed length, six fields for each write, a mark and the
cancelled ids.
-/

import Syndra.Planner.Plan

namespace Syndra.Planner

open Access Propagation List Foundation.Framing

def Write.core (w : Write) : OpType × String × String × Source × String × WriteDelivery :=
  (w.opType, w.projectId, w.roleKeys.headD "", outboxSource w.toEnqueueParams, w.sourceRef,
    w.delivery)

structure SameChange (a b : Action) (one other : Change) : Prop where
  op : a.op = b.op
  person : a.userId = b.userId
  bundle : a.bundleId = b.bundleId
  effect : one.row.effect = other.row.effect
  refusal : one.refusal = other.refusal
  version : one.versionId = other.versionId
  writes : one.writes.map Write.core = other.writes.map Write.core
  cancels : one.row.cancelIds = other.row.cancelIds

theorem BulkOp.name_injective : Function.Injective BulkOp.name := by
  intro one other same
  cases one <;> cases other <;> first | rfl | exact absurd same (by decide)

theorem Effect.name_injective : Function.Injective Effect.name := by
  intro one other same
  cases one <;> cases other <;> first | rfl | exact absurd same (by decide)

theorem WriteDelivery.name_injective : Function.Injective WriteDelivery.name := by
  intro one other same
  cases one <;> cases other <;> first | rfl | exact absurd same (by decide)

theorem opTypeName_injective : Function.Injective OpType.name := by
  intro one other same
  cases one <;> cases other <;> first | rfl | exact absurd same (by decide)

theorem sourceName_injective : Function.Injective Source.name := by
  intro one other same
  cases one <;> cases other <;> first | rfl | exact absurd same (by decide)

theorem opTypeName_ne_mark {op : OpType} : op.name ≠ "cancels" := by
  cases op <;> decide

def Write.fields (w : Write) : List String :=
  [w.opType.name,w.projectId,w.roleKeys.headD "",(outboxSource w.toEnqueueParams).name,
    w.sourceRef,w.delivery.name]

theorem Write.core_of_fields {v w : Write} {one other : List String}
    (same : v.fields ++ one = w.fields ++ other) : v.core = w.core ∧ one = other := by
  obtain ⟨fields,rest⟩ := append_inj same rfl
  simp only [Write.fields,cons.injEq,and_true] at fields
  obtain ⟨op,project,role,source,ref,delivery⟩ := fields
  refine ⟨?_,rest⟩
  simp only [Write.core,Prod.mk.injEq]
  exact ⟨opTypeName_injective op,project,role,sourceName_injective source,ref,
    WriteDelivery.name_injective delivery⟩

theorem sections_inj {one other : List Write} {ids later : List String}
    (same : one.flatMap Write.fields ++ "cancels" :: ids =
      other.flatMap Write.fields ++ "cancels" :: later) :
    one.map Write.core = other.map Write.core ∧ ids = later := by
  induction one generalizing other with
  | nil =>
    cases other with
    | nil => exact ⟨rfl,(cons.inj same).2⟩
    | cons w => exact absurd (cons.inj same).1.symm opTypeName_ne_mark
  | cons v _ ih =>
    cases other with
    | nil => exact absurd (cons.inj same).1 opTypeName_ne_mark
    | cons =>
      obtain ⟨core,tails⟩ := Write.core_of_fields same
      obtain ⟨cores,marks⟩ := ih tails
      exact ⟨by rw [map_cons,map_cons,core,cores],marks⟩

variable {wording : Wording} {a b : Action} {s t : PlanSnapshot}

def Decided (wording : Wording) (a : Action) (ch : Change) : Prop :=
  ∃ (draft : Draft) (effect : Effect) (refusal detail consequence : String),
    ch = draft.decided wording a effect refusal detail consequence

theorem planDelta_decided {draft : Draft} {before after : List Role} :
    Decided wording a (planDelta wording a s draft before after) := by
  unfold planDelta
  dsimp only
  split
  · exact ⟨_,_,_,_,_,rfl⟩
  split <;> exact ⟨_,_,_,_,_,rfl⟩

theorem plan_decided : Decided wording a (plan wording a s) := by
  unfold plan
  split
  · exact ⟨_,_,_,_,_,rfl⟩
  dsimp only
  split
  · split
    · exact ⟨_,_,_,_,_,rfl⟩
    split
    · exact ⟨_,_,_,_,_,rfl⟩
    split
    · exact ⟨_,_,_,_,_,rfl⟩
    · exact planDelta_decided
  · split
    · exact ⟨_,_,_,_,_,rfl⟩
    split
    · exact ⟨_,_,_,_,_,rfl⟩
    · exact planDelta_decided
  · exact ⟨_,_,_,_,_,rfl⟩

theorem sameChange_of_decided (hash : Function.Injective wording.sha256) {one other : Change}
    (first : Decided wording a one) (second : Decided wording b other)
    (same : one.row.fingerprint = other.row.fingerprint) : SameChange a b one other := by
  obtain ⟨_,_,_,_,_,rfl⟩ := first
  obtain ⟨_,_,_,_,_,rfl⟩ := second
  have fields := frameText_injective (hash same)
  simp only [cons_append,cons.injEq,true_and] at fields
  obtain ⟨op,person,bundle,effects,refusals,version,sections⟩ := fields
  obtain ⟨writes,ids⟩ := sections_inj sections
  refine ⟨BulkOp.name_injective op,person,bundle,Effect.name_injective effects,refusals,
    version,writes,?_⟩
  exact Foundation.Text.toString_nat_injective.list_map ((map_map ..).trans (ids.trans (map_map ..).symm))

/-- Where the hash is injective, rows of one fingerprint are of one change, and the
encoding of the hashed fields is injective on lists of bytes. -/
theorem fingerprint_identifies (wording : Wording) (hash : Function.Injective wording.sha256) :
    (∀ a b s t, (plan wording a s).row.fingerprint = (plan wording b t).row.fingerprint →
      SameChange a b (plan wording a s) (plan wording b t)) ∧
    Function.Injective (frame decimal colon) :=
  ⟨fun _ _ _ _ => sameChange_of_decided hash plan_decided plan_decided,
    frame_injective decimal_injective colon_notMem_decimal⟩

namespace Renamed

def keeps : Wording :=
  { formatDay := toString
    describeCancels := fun _ => ""
    sha256 := fun bytes => String.ofList (bytes.map fun byte => Char.ofNat byte.toNat) }

theorem hash_injective : Function.Injective keeps.sha256 := by
  have text {one other : List Char} (same : String.ofList one = String.ofList other) :
      one = other := String.ofList_injective same
  refine fun one other same => map_injective_iff.mpr (fun first second same => ?_) (text same)
  have valid (byte : UInt8) : byte.toNat.isValidChar := .inl (byte.toNat_lt.trans (by decide))
  have read (byte : UInt8) : (Char.ofNat byte.toNat).toNat = byte.toNat := by
    unfold Char.ofNat
    rw [dif_pos (valid byte)]
    rfl
  have numbers := congrArg Char.toNat same
  rw [read,read] at numbers
  exact UInt8.toNat_inj.mp numbers

def snapshot (name : String) : PlanSnapshot :=
  { bundleName := name
    bundleRetiredAt := none
    versionId := "v1"
    versionRoles := [Role.mk "lab" "laser"]
    catalogue := fun _ => some ⟨"Laser","Lab"⟩
    catalogueUnread := false
    profiles := fun _ => some ⟨"Ada","ada@lab","active"⟩
    access :=
      { people := fun _ =>
          { direct := [], byBundle := [], revoking := [], queued := []
            bundles := fun _ => false
            standing := fun _ => false }
        rules := []
        roleWaits := fun _ => false } }

def joins : Action := { op := .assignBundle, userId := "ada", bundleId := "makers" }

theorem renamed_is_same : (plan keeps joins (snapshot "Makers")).writes ≠ [] ∧
    SameChange joins joins (plan keeps joins (snapshot "Makers"))
      (plan keeps joins (snapshot "Tinkerers")) :=
  ⟨by decide +kernel,
    (fingerprint_identifies keeps hash_injective).1 joins joins _ _ (by decide +kernel)⟩

end Renamed

end Syndra.Planner
