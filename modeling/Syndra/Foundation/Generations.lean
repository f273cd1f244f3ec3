/-
Contents published under a generation.

A writer changes the contents first and moves the generation after. While a writer is
between the two, something is pending.
-/

import Mathlib.Order.Basic

namespace Syndra.Foundation.Generations

structure Published (Contents : Type*) where
  generation : Int
  contents : Contents
  pending : Prop

variable {Contents : Type*} {before after : Published Contents}
variable {generation : Int} {taken later : Contents → Prop}

def Published.Fresh (published : Published Contents) (generation : Int)
    (taken : Contents → Prop) : Prop :=
  generation ≤ published.generation ∧
    (generation = published.generation → published.pending ∨ taken published.contents)

theorem fresh_now (holds : taken after.contents) : after.Fresh after.generation taken :=
  ⟨Int.le_refl _,fun _ => .inr holds⟩

theorem Published.Fresh.written (fresh : before.Fresh generation taken)
    (same : after.generation = before.generation) (pending : after.pending) :
    after.Fresh generation later :=
  ⟨by rw [same]; exact fresh.1,fun _ => .inl pending⟩

theorem Published.Fresh.moved (fresh : before.Fresh generation taken)
    (moved : before.generation < after.generation) : after.Fresh generation later :=
  ⟨Int.le_trans fresh.1 (Int.le_of_lt moved),fun still => by
    have bound := fresh.1
    omega⟩

theorem Published.Fresh.kept (fresh : before.Fresh generation taken)
    (same : after.generation = before.generation) (pending : before.pending → after.pending)
    (kept : taken before.contents → later after.contents) : after.Fresh generation later := by
  refine ⟨by rw [same]; exact fresh.1,fun still => ?_⟩
  rcases fresh.2 (still.trans same) with waits | holds
  · exact .inl (pending waits)
  · exact .inr (kept holds)

theorem Published.Fresh.current (fresh : after.Fresh generation taken)
    (stands : generation = after.generation) (settled : ¬ after.pending) :
    taken after.contents :=
  (fresh.2 stands).resolve_left settled

end Syndra.Foundation.Generations
