import Mathlib.Data.List.Pairwise
import Ump.Foundation.Table

/-!
# Updates under a partial unique index

## Changes that may be refused

A unique index with a `WHERE` covers a row or not, as its columns stand. An update of these
columns is refused when two of the changed rows clash.
-/

namespace Foundation

namespace Table

variable [Keyed row]

/-- `UPDATE ... WHERE` of constrained columns. -/
def change? (t : Table row) (p : row -> Bool) (f : row -> row) : Option (Table row) :=
  if h : (t.rows.map (fun r => if p r then f r else r)).Pairwise
      (fun a b => Keyed.clash a b = false) then
    some { rows := t.rows.map (fun r => if p r then f r else r), distinct := h }
  else
    none

theorem change?_eq_some {t t' : Table row} {p : row -> Bool} {f : row -> row}
    (h : t.change? p f = some t') :
    t'.rows = t.rows.map (fun r => if p r then f r else r) := by
  unfold change? at h
  by_cases hdistinct : (t.rows.map (fun r => if p r then f r else r)).Pairwise
      (fun a b => Keyed.clash a b = false)
  · rw [dif_pos hdistinct] at h
    rw [← Option.some.inj h]
  · rw [dif_neg hdistinct] at h
    cases h

theorem mem_change?_iff {t t' : Table row} {p : row -> Bool} {f : row -> row}
    (h : t.change? p f = some t') {b : row} :
    b ∈ t'.rows <-> exists a, a ∈ t.rows ∧ (if p a then f a else a) = b := by
  rw [change?_eq_some h, List.mem_map]

theorem length_filter_le_one (t : Table row) {p : row -> Bool}
    (hp : forall a b, p a = true -> p b = true -> Keyed.clash a b = true) :
    (t.rows.filter p).length ≤ 1 := by
  have hdistinct := t.distinct.filter p
  match hrows : t.rows.filter p with
  | [] => exact Nat.zero_le 1
  | [_] => exact Nat.le_refl 1
  | a :: b :: rest =>
      rw [hrows, List.pairwise_cons] at hdistinct
      have ha : p a = true := (List.mem_filter.mp (hrows ▸ List.mem_cons_self)).2
      have hb : p b = true :=
        (List.mem_filter.mp (hrows ▸ List.mem_cons_of_mem a List.mem_cons_self)).2
      have hfalse := hdistinct.1 b List.mem_cons_self
      rw [hp a b ha hb] at hfalse
      cases hfalse

end Table

end Foundation
