import Mathlib

/-!
# What the cycles of a relation reach

A node that comes from a cycle has a predecessor that does; in a finite set where every
node has a predecessor in the set, every node comes from a cycle.
-/

namespace Fe2o3.Lib

open Relation

variable {α β : Type} {R : α → α → Prop} {x : α}

/-- The node is on a cycle or behind one. -/
def FromCycle (R : α → α → Prop) (x : α) : Prop :=
  ∃ c, TransGen R c c ∧ ReflTransGen R c x

theorem FromCycle.lift {S : β → β → Prop} {f : α → β} (h : FromCycle R x)
    (hf : ∀ a b, R a b → S (f a) (f b)) : FromCycle S (f x) := by
  obtain ⟨c, hcycle, hreach⟩ := h
  exact ⟨f c, hcycle.lift f hf, hreach.lift f hf⟩

theorem FromCycle.exists_pred (h : FromCycle R x) : ∃ y, R y x ∧ FromCycle R y := by
  obtain ⟨c, hcycle, hreach⟩ := h
  obtain rfl | ⟨y, hy, hstep⟩ := hreach.cases_tail
  · obtain ⟨y, hy, hstep⟩ := TransGen.tail'_iff.mp hcycle
    exact ⟨y, hstep, x, hcycle, hy⟩
  · exact ⟨y, hstep, c, hcycle, hy⟩

/-- Going back inside a finite set ends in a cycle. -/
theorem FromCycle.of_preds {S : Set α} (hfinite : S.Finite) (hpred : ∀ x ∈ S, ∃ y ∈ S, R y x)
    (hx : x ∈ S) : FromCycle R x := by
  by_contra hnone
  -- If no cycle reaches `x`, the nodes that do are well-founded; a least one has no predecessor.
  let A : Set α := {y | y ∈ S ∧ ReflTransGen R y x}
  have : Finite A := hfinite.subset fun _ h => h.1
  have hirrefl : Std.Irrefl fun a b : A => TransGen R a.1 b.1 :=
    ⟨fun a hcycle => hnone ⟨a.1, hcycle, a.2.2⟩⟩
  have hwf : WellFounded fun a b : A => TransGen R a.1 b.1 :=
    Finite.wellFounded_of_trans_of_irrefl _
  obtain ⟨⟨least, hleast, hreach⟩, -, hmin⟩ :=
    hwf.has_min Set.univ ⟨⟨x, hx, .refl⟩, trivial⟩
  obtain ⟨y, hy, hstep⟩ := hpred least hleast
  exact hmin ⟨y, hy, hreach.head hstep⟩ trivial (.single hstep)

end Fe2o3.Lib
