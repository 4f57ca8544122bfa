import Mathlib.Data.List.Basic
import Mathlib.Logic.Relation

/-!
# Topological orders

## Orders that list dependencies first

An order is kept with its newest element in front. It is topological when every
element comes after all that it depends on, which is what a depth-first search
produces. Such an order rules out cycles: among the listed elements with any
property there is one that depends on no other of them.
-/

namespace Foundation

def Topological (dependencies : node -> List node) : List node -> Prop
  | [] => True
  | x :: older => (forall d, d ∈ dependencies x -> d ∈ older) ∧ Topological dependencies older

theorem Topological.exists_minimal {dependencies : node -> List node}
    {order : List node} (h : Topological dependencies order) {p : node -> Prop}
    (hp : exists x, x ∈ order ∧ p x) :
    exists x, x ∈ order ∧ p x ∧ forall d, d ∈ dependencies x -> d ∈ order ∧ ¬ p d := by
  induction order with
  | nil =>
      rcases hp with ⟨x, hx, _⟩
      cases hx
  | cons head older ih =>
      rcases h with ⟨hhead, holder⟩
      by_cases hsome : exists x, x ∈ older ∧ p x
      · rcases ih holder hsome with ⟨x, hx, hpx, hfree⟩
        refine ⟨x, List.mem_cons_of_mem _ hx, hpx, ?_⟩
        intro d hd
        exact ⟨List.mem_cons_of_mem _ (hfree d hd).1, (hfree d hd).2⟩
      · -- no older element has the property, so the newest one is minimal
        rcases hp with ⟨x, hx, hpx⟩
        rcases List.mem_cons.mp hx with rfl | hold
        · refine ⟨x, List.mem_cons_self, hpx, ?_⟩
          intro d hd
          exact ⟨List.mem_cons_of_mem _ (hhead d hd), fun hpd => hsome ⟨d, hhead d hd, hpd⟩⟩
        · exact absurd ⟨x, hold, hpx⟩ hsome

/-!
## Cycles

A cycle leads from an element back to itself. A topological order is closed under what its
elements need, and its oldest element needs nothing, so no listed element is on a cycle.
-/

def Acyclic (needs : node -> node -> Prop) : Prop :=
  forall x, ¬ Relation.TransGen needs x x

theorem Topological.mem_of_needs {dependencies : node -> List node} {order : List node}
    (h : Topological dependencies order) {x y : node} (hx : x ∈ order)
    (hy : y ∈ dependencies x) : y ∈ order := by
  induction order with
  | nil => cases hx
  | cons head older ih =>
      apply List.mem_cons_of_mem
      rcases List.mem_cons.mp hx with rfl | hx
      · exact h.1 y hy
      · exact ih h.2 hx

theorem Topological.mem_of_reaches {dependencies : node -> List node} {order : List node}
    (h : Topological dependencies order) {x y : node} (hx : x ∈ order)
    (hy : Relation.ReflTransGen (fun a d => d ∈ dependencies a) x y) : y ∈ order := by
  induction hy with
  | refl => exact hx
  | tail _ hneeds ih => exact h.mem_of_needs ih hneeds

theorem Topological.not_cyclic {dependencies : node -> List node} {order : List node}
    (h : Topological dependencies order) {x : node} (hx : x ∈ order) :
    ¬ Relation.TransGen (fun a d => d ∈ dependencies a) x x := by
  induction order with
  | nil => cases hx
  | cons head older ih =>
      rcases List.mem_cons.mp hx with rfl | hold
      · -- a cycle through the newest element leads into the older ones and back
        intro hcycle
        rcases Relation.TransGen.head'_iff.mp hcycle with ⟨d, hd, hback⟩
        exact ih h.2 (h.2.mem_of_reaches (h.1 d hd) hback) hcycle
      · exact ih h.2 hold

end Foundation
