import Mathlib.Data.Set.Basic
import Mathlib.Logic.ExistsUnique

/-!
# Exclusive ownership

## Owners and demands

Each item has at most one owner, and each holder demands a set of items. The two
match when an item is owned by exactly the holders that demand it, so that two
holders never demand the same item.
-/

namespace Foundation

def Matched (owner : item -> Option holder) (demand : holder -> Set item) : Prop :=
  forall i h, owner i = some h <-> i ∈ demand h

namespace Matched

variable {owner owner' : item -> Option holder} {demand demand' : holder -> Set item}

theorem disjoint (hmatched : Matched owner demand) {i : item} {a b : holder}
    (ha : i ∈ demand a) (hb : i ∈ demand b) : a = b := by
  have howner := (hmatched i a).mpr ha
  rw [(hmatched i b).mpr hb] at howner
  exact (Option.some.inj howner).symm

theorem owned_iff (hmatched : Matched owner demand) (i : item) :
    (owner i).isSome = true <-> ∃! h, i ∈ demand h := by
  rw [Option.isSome_iff_exists]
  constructor
  · rintro ⟨h, howner⟩
    have hdemand := (hmatched i h).mp howner
    exact ⟨h, hdemand, fun other hother => hmatched.disjoint hother hdemand⟩
  · rintro ⟨h, hdemand, _⟩
    exact ⟨h, (hmatched i h).mpr hdemand⟩

theorem grant (hmatched : Matched owner demand) {a : holder} {items : Set item}
    (hidle : demand a = ∅) (hfree : forall i, i ∈ items -> owner i = none)
    (hgiven : forall i, i ∈ items -> owner' i = some a)
    (hkept : forall i, i ∉ items -> owner' i = owner i) (hdemand : demand' a = items)
    (hothers : forall b, b ≠ a -> demand' b = demand b) : Matched owner' demand' := by
  intro i b
  by_cases hi : i ∈ items
  · rw [hgiven i hi]
    constructor
    · intro hb
      rw [← Option.some.inj hb, hdemand]
      exact hi
    · intro hb
      by_cases hne : b = a
      · rw [hne]
      · rw [hothers b hne, ← hmatched i b, hfree i hi] at hb
        cases hb
  · rw [hkept i hi, hmatched i b]
    by_cases hne : b = a
    · rw [hne, hidle, hdemand]
      constructor
      · intro hnone
        cases hnone
      · intro hb
        exact absurd hb hi
    · rw [hothers b hne]

theorem release (hmatched : Matched owner demand) {a : holder}
    (hfreed : forall i, owner i = some a -> owner' i = none)
    (hkept : forall i, owner i ≠ some a -> owner' i = owner i) (hdemand : demand' a = ∅)
    (hothers : forall b, b ≠ a -> demand' b = demand b) : Matched owner' demand' := by
  intro i b
  by_cases howner : owner i = some a
  · rw [hfreed i howner]
    constructor
    · intro hnone
      cases hnone
    · intro hb
      by_cases hne : b = a
      · rw [hne, hdemand] at hb
        cases hb
      · rw [hothers b hne, ← hmatched i b, howner] at hb
        exact absurd (Option.some.inj hb).symm hne
  · rw [hkept i howner, hmatched i b]
    by_cases hne : b = a
    · rw [hne, hdemand]
      constructor
      · intro ha
        exact absurd ((hmatched i a).mpr ha) howner
      · intro hnone
        cases hnone
    · rw [hothers b hne]

theorem keep (hmatched : Matched owner demand) (howner : forall i, owner' i = owner i)
    (hdemand : forall b, demand' b = demand b) : Matched owner' demand' := by
  intro i b
  rw [howner, hdemand]
  exact hmatched i b

end Matched

end Foundation
