import Mathlib.Data.List.Nodup
import Mathlib.Data.List.Perm.Basic

/-!
# Dictionaries

## Entries without repeated names

A dictionary is a list of entries, and an entry is looked up by its name. Where no name is
repeated, the order of the entries does not matter.
-/

namespace Foundation

variable [BEq name] [LawfulBEq name]

theorem lookup_eq_some_iff {entries : List (name × value)} (h : (entries.map Prod.fst).Nodup)
    {n : name} {v : value} : entries.lookup n = some v <-> (n, v) ∈ entries := by
  induction entries with
  | nil => simp
  | cons head rest ih =>
      rcases head with ⟨key, first⟩
      rw [List.map_cons, List.nodup_cons] at h
      by_cases hname : n = key
      · subst hname
        have hrest : (n, v) ∉ rest := by
          intro hmem
          exact h.1 (List.mem_map.mpr ⟨(n, v), hmem, rfl⟩)
        simp [hrest, eq_comm]
      · have hkey : (n == key) = false := beq_eq_false_iff_ne.mpr hname
        simp [List.lookup_cons, hkey, hname, ih h.2]

theorem mem_of_lookup {entries : List (name × value)} {n : name} {v : value}
    (h : entries.lookup n = some v) : (n, v) ∈ entries := by
  obtain ⟨before, after, rfl, _⟩ := List.lookup_eq_some_iff.mp h
  exact List.mem_append_right before List.mem_cons_self

theorem lookup_of_perm {entries others : List (name × value)} (h : entries.Perm others)
    (hnodup : (entries.map Prod.fst).Nodup) (n : name) :
    entries.lookup n = others.lookup n := by
  have hothers : (others.map Prod.fst).Nodup := (h.map Prod.fst).nodup_iff.mp hnodup
  apply Option.ext
  intro v
  rw [lookup_eq_some_iff hnodup, lookup_eq_some_iff hothers, h.mem_iff]

theorem perm_of_lookup {entries others : List (name × value)}
    (hnodup : (entries.map Prod.fst).Nodup) (hothers : (others.map Prod.fst).Nodup)
    (h : forall n, entries.lookup n = others.lookup n) : entries.Perm others := by
  rw [List.perm_ext_iff_of_nodup (List.Nodup.of_map _ hnodup) (List.Nodup.of_map _ hothers)]
  rintro ⟨n, v⟩
  rw [<- lookup_eq_some_iff hnodup, <- lookup_eq_some_iff hothers, h n]

end Foundation
