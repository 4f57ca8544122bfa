import Mathlib.Data.List.Nodup

/-!
# Beginnings of a list

## How far readers have come

Readers of one list without repetitions have each read a beginning of it. What they have
read tells how far they have come.
-/

namespace Foundation

section

variable {log read read' front rest : List value}

theorem isPrefix_of_subset (hnodup : log.Nodup) (hread : read <+: log) (hread' : read' <+: log)
    (h : forall x, x ∈ read -> x ∈ read') : read <+: read' := by
  rcases List.prefix_or_prefix_of_prefix hread hread' with hbefore | ⟨ahead, rfl⟩
  · exact hbefore
  · cases ahead with
    | nil => exact ⟨[], by simp⟩
    | cons x ahead =>
        -- the reader ahead would have read the entry twice
        have htwice := hnodup.sublist hread.sublist
        have hmem : x ∈ read' := h x (List.mem_append_right _ List.mem_cons_self)
        exact absurd rfl ((List.nodup_append.mp htwice).2.2 x hmem x List.mem_cons_self)

theorem eq_of_read {next : value} (hnodup : (front ++ next :: rest).Nodup)
    (hread : read <+: front ++ next :: rest) (hfront : forall x, x ∈ front -> x ∈ read)
    (hnext : next ∉ read) : read = front := by
  rcases isPrefix_of_subset hnodup (List.prefix_append _ _) hread hfront with ⟨ahead, rfl⟩
  rcases List.prefix_cons_iff.mp ((List.prefix_append_right_inj front).mp hread) with
    rfl | ⟨others, rfl, _⟩
  · exact List.append_nil front
  · exact absurd (List.mem_append_right _ List.mem_cons_self) hnext

theorem dropLast_isPrefix (h : read <+: log) : read.dropLast <+: log.dropLast := by
  rcases h with ⟨ahead, rfl⟩
  cases ahead with
  | nil => simp
  | cons x ahead =>
      rw [List.dropLast_append_of_ne_nil (List.cons_ne_nil x ahead)]
      exact (List.dropLast_prefix read).trans (List.prefix_append _ _)

theorem filter_isPrefix {p : value -> Bool} (h : forall x, x ∈ log.dropLast -> p x = true) :
    log.filter p <+: log := by
  rcases List.eq_nil_or_concat log with rfl | ⟨front, last, rfl⟩
  · exact List.nil_prefix
  · rw [List.concat_eq_append, List.dropLast_concat] at h
    rw [List.concat_eq_append, List.filter_append, List.filter_eq_self.mpr h,
      List.prefix_append_right_inj]
    cases hlast : p last with
    | true => simp [hlast]
    | false => simp [hlast]

end

end Foundation
