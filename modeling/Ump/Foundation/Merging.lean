import Mathlib.Data.List.Basic

/-!
# Merging two lists

## Merges and runs over them

A merge of two lists keeps the order of each of them and nothing more. When every entry of
one list commutes with every entry of the other, all merges are the same run.
-/

namespace Foundation

inductive Merge : List value -> List value -> List value -> Prop where
  | nil : Merge [] [] []
  | left {xs ys zs : List value} (x : value) : Merge xs ys zs -> Merge (x :: xs) ys (x :: zs)
  | right {xs ys zs : List value} (y : value) : Merge xs ys zs -> Merge xs (y :: ys) (y :: zs)

section Runs

variable {state value : Type} {step : state -> value -> state}

theorem foldl_commute {good : state -> Prop} {xs : List value} {y : value}
    (hkeep : forall s, good s -> forall x, x ∈ xs -> good (step s x))
    (hcommute : forall s, good s -> forall x, x ∈ xs -> step (step s x) y = step (step s y) x)
    {s : state} (h : good s) :
    xs.foldl step (step s y) = step (xs.foldl step s) y := by
  induction xs generalizing s with
  | nil => rfl
  | cons x rest ih =>
      rw [List.foldl_cons, List.foldl_cons, ← hcommute s h x List.mem_cons_self]
      exact ih (fun s hs other hother => hkeep s hs other (List.mem_cons_of_mem _ hother))
        (fun s hs other hother => hcommute s hs other (List.mem_cons_of_mem _ hother))
        (hkeep s h x List.mem_cons_self)

theorem foldl_merge {good : state -> Prop} {xs ys zs : List value} (hmerge : Merge xs ys zs)
    (hleft : forall s, good s -> forall x, x ∈ xs -> good (step s x))
    (hright : forall s, good s -> forall y, y ∈ ys -> good (step s y))
    (hcommute : forall s, good s -> forall x, x ∈ xs -> forall y, y ∈ ys ->
      step (step s x) y = step (step s y) x)
    {s : state} (h : good s) :
    zs.foldl step s = ys.foldl step (xs.foldl step s) := by
  induction hmerge generalizing s with
  | nil => rfl
  | left x _ ih =>
      rw [List.foldl_cons, List.foldl_cons]
      exact ih (fun s hs other hother => hleft s hs other (List.mem_cons_of_mem _ hother)) hright
        (fun s hs other hother => hcommute s hs other (List.mem_cons_of_mem _ hother))
        (hleft s h x List.mem_cons_self)
  | @right xs ys zs y _ ih =>
      have hfirst := @foldl_commute state value step good xs y hleft
        (fun s hs x hx => hcommute s hs x hx y List.mem_cons_self) s h
      rw [List.foldl_cons, List.foldl_cons, ← hfirst]
      exact ih hleft (fun s hs other hother => hright s hs other (List.mem_cons_of_mem _ hother))
        (fun s hs x hx other hother => hcommute s hs x hx other (List.mem_cons_of_mem _ hother))
        (hright s h y List.mem_cons_self)

theorem merges_agree {good : state -> Prop} {xs ys first second : List value}
    (hfirst : Merge xs ys first) (hsecond : Merge xs ys second)
    (hleft : forall s, good s -> forall x, x ∈ xs -> good (step s x))
    (hright : forall s, good s -> forall y, y ∈ ys -> good (step s y))
    (hcommute : forall s, good s -> forall x, x ∈ xs -> forall y, y ∈ ys ->
      step (step s x) y = step (step s y) x)
    {s : state} (h : good s) : first.foldl step s = second.foldl step s :=
  (foldl_merge hfirst hleft hright hcommute h).trans
    (foldl_merge hsecond hleft hright hcommute h).symm

end Runs

theorem Merge.mem {xs ys zs : List value} (h : Merge xs ys zs) {z : value} :
    z ∈ zs <-> z ∈ xs ∨ z ∈ ys := by
  induction h with
  | nil => simp
  | left x _ ih =>
      rw [List.mem_cons, List.mem_cons, ih, or_assoc]
  | right y _ ih =>
      rw [List.mem_cons, List.mem_cons, ih, or_left_comm]

end Foundation
