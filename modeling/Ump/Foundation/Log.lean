import Mathlib.Data.List.Basic

/-!
# Logs

## Entries and what comes before them

A log grows at its end. Some entries need an earlier one: an entry that needs a key is
preceded by one that gives it.
-/

namespace Foundation

theorem split_concat {history before after : List value} {last x : value}
    (h : history ++ [last] = before ++ x :: after) :
    (last = x ∧ before = history) ∨
      exists after', history = before ++ x :: after' := by
  rcases List.eq_nil_or_concat after with rfl | ⟨after', y, rfl⟩
  · rcases List.append_singleton_inj.mp h with ⟨hbefore, hlast⟩
    exact Or.inl ⟨hlast, hbefore.symm⟩
  · rw [List.concat_eq_append, ← List.cons_append, ← List.append_assoc] at h
    exact Or.inr ⟨after', (List.append_singleton_inj.mp h).1⟩

def Given (gives : value -> Option key) (log : List value) (k : key) : Prop :=
  exists y, y ∈ log ∧ gives y = some k

/-- Every entry that needs a key comes after one that gives it. -/
def Preceded (needs gives : value -> Option key) (log : List value) : Prop :=
  forall before x after k, log = before ++ x :: after -> needs x = some k ->
    Given gives before k

theorem preceded_nil (needs gives : value -> Option key) : Preceded needs gives [] := by
  intro before x after k hsplit
  simp at hsplit

theorem preceded_concat {needs gives : value -> Option key} {log : List value} {x : value}
    (h : Preceded needs gives log)
    (hgiven : forall k, needs x = some k -> Given gives log k) :
    Preceded needs gives (log ++ [x]) := by
  intro before y after k hsplit hneeds
  rcases split_concat hsplit with ⟨rfl, rfl⟩ | ⟨after', hold⟩
  · exact hgiven k hneeds
  · exact h before y after' k hold hneeds

theorem Given.concat {gives : value -> Option key} {log : List value} {k : key}
    (h : Given gives log k) (x : value) : Given gives (log ++ [x]) k := by
  rcases h with ⟨y, hy, hgives⟩
  exact ⟨y, List.mem_append_left _ hy, hgives⟩

def Rising [LT number] (laneOf : value -> lane) (numberOf : value -> number)
    (log : List value) : Prop :=
  log.Pairwise (fun x y => laneOf x = laneOf y -> numberOf x < numberOf y)

theorem rising_concat [LT number] {laneOf : value -> lane} {numberOf : value -> number}
    {log : List value} {x : value} (h : Rising laneOf numberOf log)
    (habove : forall y, y ∈ log -> laneOf y = laneOf x -> numberOf y < numberOf x) :
    Rising laneOf numberOf (log ++ [x]) := by
  refine List.pairwise_append.mpr ⟨h, List.pairwise_singleton _ _, ?_⟩
  intro y hy z hz
  rw [List.mem_singleton.mp hz]
  exact habove y hy

end Foundation
