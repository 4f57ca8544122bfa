import Mathlib.Data.List.Sort

/-!
# Bounded selections

## Conditions and orders

A query takes the first rows, in an order, of those that meet its condition. It does not
matter whether the rows are ordered before or after they are selected.
-/

namespace Foundation

theorem filter_insertionSort {order : row -> row -> Prop} [DecidableRel order]
    [Std.Total order] [IsTrans row order] {rows : List row}
    (hanti : forall a b, a ∈ rows -> b ∈ rows -> order a b -> order b a -> a = b)
    (p : row -> Bool) :
    (rows.filter p).insertionSort order = (rows.insertionSort order).filter p := by
  have hsame : forall a b, a ∈ (rows.filter p).insertionSort order ->
      b ∈ (rows.insertionSort order).filter p -> order a b -> order b a -> a = b := by
    intro a b ha hb
    apply hanti
    · exact List.mem_of_mem_filter ((List.mem_insertionSort order).mp ha)
    · exact (List.mem_insertionSort order).mp (List.mem_of_mem_filter hb)
  apply List.Perm.eq_of_pairwise hsame
  · exact List.pairwise_insertionSort order _
  · exact (List.pairwise_insertionSort order rows).filter p
  · exact (List.perm_insertionSort order _).trans
      ((List.perm_insertionSort order rows).filter p).symm

/-!
## A wider condition

Rows of a wider condition crowd out rows of the narrower one, unless enough of those stand
before each of them.
-/

theorem take_filter_wider_iff (p q : row -> Bool) (rows : List row) (n : Nat) :
    (rows.filter (fun r => p r || q r)).take n = (rows.filter p).take n <->
      forall before r after, rows = before ++ r :: after -> q r = true -> p r = false ->
        n ≤ (before.filter p).length := by
  induction rows generalizing n with
  | nil => simp
  | cons first rest ih =>
      have hsplits : (forall before r after, first :: rest = before ++ r :: after ->
          q r = true -> p r = false -> n ≤ (before.filter p).length) <->
          (q first = true -> p first = false -> n = 0) ∧
            forall before r after, rest = before ++ r :: after -> q r = true -> p r = false ->
              n ≤ ((first :: before).filter p).length := by
        constructor
        · intro h
          constructor
          · intro hq hp
            exact Nat.le_zero.mp (h [] first rest rfl hq hp)
          · intro before r after hrest
            exact h (first :: before) r after (by rw [hrest]; rfl)
        · rintro ⟨hfirst, hlater⟩ before r after hrows hq hp
          cases before with
          | nil =>
              cases hrows
              rw [hfirst hq hp]
              exact Nat.zero_le _
          | cons head before =>
              cases hrows
              exact hlater before r after rfl hq hp
      rw [hsplits]
      cases hp : p first with
      | true =>
          cases n with
          | zero => simp
          | succ n =>
              have hmore : forall before : List row,
                  n + 1 ≤ ((first :: before).filter p).length <->
                    n ≤ (before.filter p).length := by
                intro before
                rw [List.filter_cons_of_pos hp, List.length_cons]
                omega
              simp only [hmore]
              rw [← ih n, List.filter_cons_of_pos (by rw [hp]; rfl),
                List.filter_cons_of_pos hp, List.take_succ_cons, List.take_succ_cons]
              simp
      | false =>
          have hsame : forall before : List row,
              (first :: before).filter p = before.filter p :=
            fun before => List.filter_cons_of_neg (by rw [hp]; decide)
          simp only [hsame]
          rw [← ih n]
          cases hq : q first with
          | false =>
              rw [List.filter_cons_of_neg (by rw [hp, hq]; decide)]
              simp
          | true =>
              rw [List.filter_cons_of_pos (by rw [hp, hq]; rfl)]
              cases n with
              | zero => simp
              | succ n =>
                  -- the first row is selected by the wider condition only
                  constructor
                  · intro h
                    exfalso
                    rw [List.take_succ_cons] at h
                    have hmem : first ∈ (rest.filter p).take (n + 1) := by
                      rw [← h]
                      exact List.mem_cons_self
                    have hfirst := (List.mem_filter.mp (List.mem_of_mem_take hmem)).2
                    rw [hp] at hfirst
                    cases hfirst
                  · rintro ⟨hzero, _⟩
                    exact absurd (hzero rfl trivial) (Nat.succ_ne_zero n)

end Foundation
