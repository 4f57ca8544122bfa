import Mathlib.Logic.Function.Basic
import Ump.Foundation.Joint

/-!
# A center and a family of machines around it

## Runs of the whole family

The machines around the center exchange messages with it and do not hear each other. The
center and any one of the others go through a joint run of their own, in which the moves
of the rest are not seen.
-/

namespace Foundation

structure Star (index memory task memory' task' : Type) where
  center : Pool memory task
  around : index -> Pool memory' task'

namespace Star

def pair (s : Star index memory task memory' task') (i : index) :
    Joint memory task memory' task' where
  left := s.center
  right := s.around i

section

variable [DecidableEq index]
variable (M : Machine memory task reading entry)
variable (N : index -> Machine memory' task' reading' entry')
variable (C : index -> Joint.Guard memory' memory task reading entry)
variable (D : index -> Joint.Guard memory memory' task' reading' entry')

/-- One move of the center, which the guard of every other machine allows, or one move of
another machine. -/
inductive Step : Star index memory task memory' task' ->
    Star index memory task memory' task' -> Prop where
  | center {s : Star index memory task memory' task'} {p : Pool memory task}
      (h : M.Step (fun m ts move => forall i, C i (s.around i).shared m ts move) s.center p) :
      Step s { s with center := p }
  | around {s : Star index memory task memory' task'} (i : index) {q : Pool memory' task'}
      (h : (N i).Step (D i s.center.shared) (s.around i) q) :
      Step s { s with around := Function.update s.around i q }

def Reaches : Star index memory task memory' task' -> Star index memory task memory' task' ->
    Prop :=
  Relation.ReflTransGen (Step M N C D)

variable {M : Machine memory task reading entry}
variable {N : index -> Machine memory' task' reading' entry'}
variable {C : index -> Joint.Guard memory' memory task reading entry}
variable {D : index -> Joint.Guard memory memory' task' reading' entry'}
variable {s s' : Star index memory task memory' task'}

theorem Reaches.of_center {p : Pool memory task}
    (h : M.Reaches (fun m ts move => forall i, C i (s.around i).shared m ts move) s.center p) :
    Reaches M N C D s { s with center := p } := by
  induction h with
  | refl => exact .refl
  | @tail mid last hreach hstep ih =>
      have hnext : Step M N C D { s with center := mid } { s with center := last } :=
        @Step.center _ _ _ _ _ _ _ _ _ _ M N C D { s with center := mid } last hstep
      exact .tail ih hnext

theorem Reaches.of_around {i : index} {q : Pool memory' task'}
    (h : (N i).Reaches (D i s.center.shared) (s.around i) q) :
    Reaches M N C D s { s with around := Function.update s.around i q } := by
  induction h with
  | refl =>
      rw [Function.update_eq_self]
      exact .refl
  | @tail mid last hreach hstep ih =>
      have hmid : (N i).Step (D i s.center.shared) (Function.update s.around i mid i) last := by
        rw [Function.update_self]
        exact hstep
      have hnext := @Step.around _ _ _ _ _ _ _ _ _ _ M N C D
        { s with around := Function.update s.around i mid } i last hmid
      rw [show Function.update (Function.update s.around i mid) i last =
        Function.update s.around i last from Function.update_idem _ _ _] at hnext
      exact .tail ih hnext

/-- A joint run is a run of a family of one. -/
theorem Reaches.of_joint {M : Machine memory task reading entry}
    {N : Machine memory' task' reading' entry'} {C : Joint.Guard memory' memory task reading entry}
    {D : Joint.Guard memory memory' task' reading' entry'}
    {s s' : Joint memory task memory' task'} (h : Joint.Reaches M N C D s s') :
    Reaches N (fun _ : Unit => M) (fun _ => D) (fun _ => C)
      { center := s.right, around := fun _ => s.left }
      { center := s'.right, around := fun _ => s'.left } := by
  induction h with
  | refl => exact .refl
  | @tail mid last hreach hstep ih =>
      cases hstep with
      | @left p hleft =>
          have hnext := Reaches.of_around (M := N) (N := fun _ : Unit => M) (C := fun _ => D)
            (D := fun _ => C) (s := { center := mid.right, around := fun _ => mid.left })
            (i := ()) (Relation.ReflTransGen.single hleft)
          have hsame : Function.update (fun _ => mid.left) () p = fun _ : Unit => p :=
            funext (fun i => Function.update_self i p (fun _ => mid.left))
          rw [hsame] at hnext
          exact ih.trans hnext
      | right hright =>
          exact ih.trans (Reaches.of_center (.single (hright.weaken (fun _ _ _ hD _ => hD))))

theorem Step.pair (h : Step M N C D s s') (i : index) :
    Joint.Reaches M (N i) (C i) (D i) (s.pair i) (s'.pair i) := by
  cases h with
  | center h =>
      have hstep := h.weaken (fun _ _ _ hall => hall i)
      exact .single (@Joint.Step.left _ _ _ _ _ _ _ _ M (N i) (C i) (D i) (s.pair i) _ hstep)
  | @around j q h =>
      by_cases hsame : i = j
      · subst hsame
        have hpair : Star.pair { s with around := Function.update s.around i q } i =
            { s.pair i with right := q } := by
          simp only [Star.pair, Function.update_self]
        rw [hpair]
        exact .single (@Joint.Step.right _ _ _ _ _ _ _ _ M (N i) (C i) (D i) (s.pair i) q h)
      · have hpair : Star.pair { s with around := Function.update s.around j q } i =
            s.pair i := by
          simp only [Star.pair, Function.update_of_ne hsame]
        rw [hpair]
        exact .refl

theorem Reaches.pair (h : Reaches M N C D s s') (i : index) :
    Joint.Reaches M (N i) (C i) (D i) (s.pair i) (s'.pair i) := by
  induction h with
  | refl => exact .refl
  | tail hreach hstep ih => exact ih.trans (hstep.pair i)

end

end Star

end Foundation
