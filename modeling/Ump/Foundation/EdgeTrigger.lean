import Mathlib.Data.List.Basic

/-!
# Edge-triggered announcements

## One observation

An observer announces a value when it is not the one that was announced last. An announcement
can fail, and then the value that was announced before it stays the last one.
-/

namespace Foundation

/-- An observed value, and whether the announcement of it fails, which may depend on what was
announced last. -/
structure Observation (value : Type) where
  current : value
  fails : value -> Bool

namespace Observation

variable {value : Type} [DecidableEq value]

def attempt (o : Observation value) (announced : value) : Option value :=
  if o.current = announced then none else some o.current

def next (o : Observation value) (announced : value) : value :=
  if o.current = announced ∨ o.fails announced = true then announced else o.current

theorem attempt_isSome_iff {o : Observation value} {announced : value} :
    (o.attempt announced).isSome = true <-> o.current ≠ announced := by
  unfold attempt
  split_ifs with hsame <;> simp [hsame]

theorem attempt_of_same {o : Observation value} {announced : value}
    (h : o.current = announced) : o.attempt announced = none :=
  if_pos h

theorem attempt_of_ne {o : Observation value} {announced : value}
    (h : o.current ≠ announced) : o.attempt announced = some o.current :=
  if_neg h

theorem next_of_same {o : Observation value} {announced : value}
    (h : o.current = announced) : o.next announced = announced :=
  if_pos (Or.inl h)

theorem next_of_fails {o : Observation value} {announced : value}
    (h : o.fails announced = true) : o.next announced = announced :=
  if_pos (Or.inr h)

theorem next_of_announced {o : Observation value} {announced : value}
    (hne : o.current ≠ announced) (hfails : o.fails announced = false) :
    o.next announced = o.current := by
  unfold next
  rw [if_neg]
  simp [hne, hfails]

/-!
## Runs
-/

def after (announced : value) (run : List (Observation value)) : value :=
  run.foldl (fun last o => o.next last) announced

/-- The announcements of a run that have not failed, in order. -/
def announcements (announced : value) : List (Observation value) -> List value
  | [] => []
  | o :: rest =>
      if o.current ≠ announced ∧ o.fails announced = false then
        o.current :: announcements o.current rest
      else announcements announced rest

theorem after_eq_last (announced : value) (run : List (Observation value)) :
    after announced run = ((announcements announced run).getLast?).getD announced := by
  induction run generalizing announced with
  | nil => rfl
  | cons o rest ih =>
      rw [after, List.foldl_cons, announcements]
      by_cases hannounced : o.current ≠ announced ∧ o.fails announced = false
      · rw [next_of_announced hannounced.1 hannounced.2, if_pos hannounced,
          List.getLast?_cons, Option.getD_some]
        exact ih o.current
      · have hnext : o.next announced = announced := by
          unfold next
          rw [if_pos]
          by_contra hneither
          simp only [not_or, Bool.not_eq_true] at hneither
          exact hannounced hneither
        rw [hnext, if_neg hannounced]
        exact ih announced

theorem after_mem (announced : value) (run : List (Observation value)) :
    after announced run = announced ∨ exists o, o ∈ run ∧ after announced run = o.current := by
  induction run generalizing announced with
  | nil => exact Or.inl rfl
  | cons o rest ih =>
      have hstep : o.next announced = announced ∨ o.next announced = o.current := by
        unfold next
        split_ifs
        · exact Or.inl rfl
        · exact Or.inr rfl
      rw [after, List.foldl_cons]
      rcases ih (o.next announced) with hsame | ⟨later, hmem, hlater⟩
      · rcases hstep with hkept | htaken
        · exact Or.inl (hsame.trans hkept)
        · exact Or.inr ⟨o, List.mem_cons_self, hsame.trans htaken⟩
      · exact Or.inr ⟨later, List.mem_cons_of_mem _ hmem, hlater⟩

end Observation

end Foundation
