import Ump.Foundation.Interleaving

/-!
# Two machines that exchange messages

## Joint runs

Two pools move in any order. A condition on the moves of one machine may look at the
memory of the other, if it asks only for what later memories still give: that a message
has been sent, for instance. Each side of a joint run is then a run of its own machine,
under the condition that the last memory of the other side gives.
-/

namespace Foundation

theorem Machine.Step.imp {M : Machine memory task reading entry}
    {C D : Condition memory task reading entry} {p q : Pool memory task}
    (hCD : forall ts move, C p.shared ts move -> D p.shared ts move) (h : M.Step C p q) :
    M.Step D p q := by
  rcases h with ⟨a, hmeets, hstep⟩
  refine ⟨a, ?_, hstep⟩
  cases a with
  | spawn e => exact hCD _ _ hmeets
  | run i r => exact fun t others hnext htasks => hCD _ _ (hmeets t others hnext htasks)
  | stop i => trivial
  | crash => trivial

theorem Machine.Step.weaken {M : Machine memory task reading entry}
    {C D : Condition memory task reading entry} {p q : Pool memory task}
    (hCD : forall m ts move, C m ts move -> D m ts move) (h : M.Step C p q) : M.Step D p q :=
  h.imp (hCD p.shared)

structure Joint (memory task memory' task' : Type) where
  left : Pool memory task
  right : Pool memory' task'

/-- A relation between an earlier and a later memory that all tasks and restarts respect. -/
structure Machine.Advances (M : Machine memory task reading entry)
    (R : memory -> memory -> Prop) : Prop where
  refl : forall m, R m m
  trans : forall {a b c}, R a b -> R b c -> R a c
  exec : forall m t r, R m (M.exec m t r).1
  restart : forall m, R m (M.restart m)

theorem Machine.Advances.reaches {M : Machine memory task reading entry}
    {R : memory -> memory -> Prop} (hR : M.Advances R)
    {C : Condition memory task reading entry} {p q : Pool memory task}
    (h : M.Reaches C p q) : R p.shared q.shared :=
  Reaches.relates R hR.refl hR.trans hR.exec hR.restart h

namespace Joint

/-- A condition on one machine that looks at the memory of the other. -/
abbrev Guard (other memory task reading entry : Type) :=
  other -> Condition memory task reading entry

/-- What the guard allows in a memory it allows in every later one. -/
def Guard.Lasts (C : Guard other memory task reading entry) (R : other -> other -> Prop) : Prop :=
  forall {a b}, R a b -> forall m ts move, C a m ts move -> C b m ts move

inductive Step (M : Machine memory task reading entry)
    (N : Machine memory' task' reading' entry')
    (C : Guard memory' memory task reading entry)
    (D : Guard memory memory' task' reading' entry') :
    Joint memory task memory' task' -> Joint memory task memory' task' -> Prop where
  | left {s : Joint memory task memory' task'} {p : Pool memory task}
      (h : M.Step (C s.right.shared) s.left p) : Step M N C D s { s with left := p }
  | right {s : Joint memory task memory' task'} {q : Pool memory' task'}
      (h : N.Step (D s.left.shared) s.right q) : Step M N C D s { s with right := q }

def Reaches (M : Machine memory task reading entry)
    (N : Machine memory' task' reading' entry')
    (C : Guard memory' memory task reading entry)
    (D : Guard memory memory' task' reading' entry') :
    Joint memory task memory' task' -> Joint memory task memory' task' -> Prop :=
  Relation.ReflTransGen (Step M N C D)

section

variable {M : Machine memory task reading entry} {N : Machine memory' task' reading' entry'}
variable {C : Guard memory' memory task reading entry}
variable {D : Guard memory memory' task' reading' entry'}
variable {s s' : Joint memory task memory' task'}

theorem Reaches.of_left {p : Pool memory task}
    (h : M.Reaches (C s.right.shared) s.left p) : Reaches M N C D s { s with left := p } := by
  induction h with
  | refl => exact .refl
  | @tail mid last hreach hstep ih =>
      have hnext : Step M N C D { s with left := mid } { s with left := last } :=
        @Step.left _ _ _ _ _ _ _ _ M N C D { s with left := mid } last hstep
      exact .tail ih hnext

theorem Reaches.of_right {q : Pool memory' task'}
    (h : N.Reaches (D s.left.shared) s.right q) : Reaches M N C D s { s with right := q } := by
  induction h with
  | refl => exact .refl
  | @tail mid last hreach hstep ih =>
      have hnext : Step M N C D { s with right := mid } { s with right := last } :=
        @Step.right _ _ _ _ _ _ _ _ M N C D { s with right := mid } last hstep
      exact .tail ih hnext

theorem Reaches.left {R : memory' -> memory' -> Prop} (hN : N.Advances R) (hC : C.Lasts R)
    (h : Reaches M N C D s s') : M.Reaches (C s'.right.shared) s.left s'.left := by
  induction h with
  | refl => exact .refl
  | tail hreach hstep ih =>
      cases hstep with
      | left hleft => exact .tail ih hleft
      | right hright => exact ih.weaken (hC (hN.reaches (.single hright)))

theorem Reaches.right {R : memory -> memory -> Prop} (hM : M.Advances R) (hD : D.Lasts R)
    (h : Reaches M N C D s s') : N.Reaches (D s'.left.shared) s.right s'.right := by
  induction h with
  | refl => exact .refl
  | tail hreach hstep ih =>
      cases hstep with
      | left hleft => exact ih.weaken (hD (hM.reaches (.single hleft)))
      | right hright => exact .tail ih hright

theorem Reaches.invariant {I : Joint memory task memory' task' -> Prop}
    (hleft : forall s p, I s -> M.Step (C s.right.shared) s.left p -> I { s with left := p })
    (hright : forall s q, I s -> N.Step (D s.left.shared) s.right q -> I { s with right := q })
    (h : Reaches M N C D s s') (hI : I s) : I s' := by
  induction h with
  | refl => exact hI
  | tail hreach hstep ih =>
      cases hstep with
      | left hmove => exact hleft _ _ ih hmove
      | right hmove => exact hright _ _ ih hmove

/-- What holds of the left side at the end but not at the start has come about in one of
its moves. -/
theorem Reaches.arises {P : Pool memory task -> Prop} (h : Reaches M N C D s s')
    (hstart : ¬ P s.left) (hend : P s'.left) :
    exists mid p, Reaches M N C D s mid ∧ M.Step (C mid.right.shared) mid.left p ∧
      ¬ P mid.left ∧ P p ∧ Reaches M N C D { mid with left := p } s' := by
  induction h with
  | refl => exact absurd hend hstart
  | @tail mid last hreach hstep ih =>
      by_cases hmid : P mid.left
      · rcases ih hmid with ⟨before, p, hbefore, hmove, hnot, hp, hafter⟩
        exact ⟨before, p, hbefore, hmove, hnot, hp, .tail hafter hstep⟩
      · cases hstep with
        | left hleft => exact ⟨mid, _, hreach, hleft, hmid, hend, .refl⟩
        | right hright => exact absurd hend hmid

theorem Reaches.weaken {C' : Guard memory' memory task reading entry}
    {D' : Guard memory memory' task' reading' entry'}
    (hC : forall m m' ts move, C m m' ts move -> C' m m' ts move)
    (hD : forall m m' ts move, D m m' ts move -> D' m m' ts move)
    (h : Reaches M N C D s s') : Reaches M N C' D' s s' := by
  induction h with
  | refl => exact .refl
  | tail hreach hstep ih =>
      cases hstep with
      | left hleft => exact .tail ih (.left (hleft.weaken (hC _)))
      | right hright => exact .tail ih (.right (hright.weaken (hD _)))

end

end Joint

end Foundation
