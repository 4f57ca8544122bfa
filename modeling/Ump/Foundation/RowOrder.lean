import Ump.Foundation.Table

/-!
# The order of rows

## Earlier and later rows

The rows of a table are in the order in which they were inserted, which an
`AUTOINCREMENT` column shows. An insertion adds the last row, and updates and deletions
leave the order of the other rows alone.
-/

namespace Foundation

theorem sublist_pair_append {xs ys : List row} {a b : row} :
    List.Sublist [a, b] (xs ++ ys) <->
      List.Sublist [a, b] xs ∨ a ∈ xs ∧ b ∈ ys ∨ List.Sublist [a, b] ys := by
  constructor
  · intro h
    rcases List.sublist_append_iff.mp h with ⟨l₁, l₂, hsplit, hxs, hys⟩
    match l₁, hsplit with
    | [], hsplit =>
        rw [List.nil_append] at hsplit
        exact Or.inr (Or.inr (hsplit ▸ hys))
    | [first], hsplit =>
        rcases List.cons_eq_cons.mp hsplit with ⟨rfl, hrest⟩
        have hlast : l₂ = [b] := hrest.symm
        rw [hlast] at hys
        exact Or.inr (Or.inl ⟨List.singleton_sublist.mp hxs, List.singleton_sublist.mp hys⟩)
    | first :: second :: rest, hsplit =>
        rcases List.cons_eq_cons.mp hsplit with ⟨rfl, hrest⟩
        rcases List.cons_eq_cons.mp hrest with ⟨rfl, hnil⟩
        rw [(List.append_eq_nil_iff.mp hnil.symm).1] at hxs
        exact Or.inl hxs
  · rintro (h | ⟨ha, hb⟩ | h)
    · exact h.trans (List.sublist_append_left xs ys)
    · exact List.Sublist.append (List.singleton_sublist.mpr ha) (List.singleton_sublist.mpr hb)
    · exact h.trans (List.sublist_append_right xs ys)

namespace Table

variable [Keyed row] {t t' : Table row} {a b c : row}

def Before (t : Table row) (a b : row) : Prop :=
  List.Sublist [a, b] t.rows

theorem Before.left (h : t.Before a b) : a ∈ t.rows :=
  List.Sublist.subset h (by simp)

theorem Before.right (h : t.Before a b) : b ∈ t.rows :=
  List.Sublist.subset h (by simp)

theorem nodup (hself : forall r : row, Keyed.clash r r = true) (t : Table row) :
    t.rows.Nodup := by
  apply t.distinct.imp
  intro a b hclash hsame
  rw [hsame, hself] at hclash
  cases hclash

theorem before_of_rows {added : List row} (h : t'.rows = t.rows ++ added)
    (hbefore : t.Before a b) : t'.Before a b := by
  unfold Before
  rw [h]
  exact hbefore.trans (List.sublist_append_left _ _)

theorem before_added {added : row} (h : t'.rows = t.rows ++ [added]) :
    t'.Before a b <-> t.Before a b ∨ a ∈ t.rows ∧ b = added := by
  unfold Before
  rw [h, sublist_pair_append]
  constructor
  · rintro (hbefore | ⟨ha, hb⟩ | hpair)
    · exact Or.inl hbefore
    · exact Or.inr ⟨ha, List.mem_singleton.mp hb⟩
    · have hlength := hpair.length_le
      simp at hlength
  · rintro (hbefore | ⟨ha, rfl⟩)
    · exact Or.inl hbefore
    · exact Or.inr (Or.inl ⟨ha, List.mem_singleton_self _⟩)

theorem before_delete {p : row -> Bool} :
    (t.delete p).Before a b <-> t.Before a b ∧ p a = false ∧ p b = false := by
  constructor
  · intro h
    refine ⟨List.Sublist.trans h List.filter_sublist, ?_, ?_⟩
    · exact by simpa using (mem_delete_iff.mp h.left).2
    · exact by simpa using (mem_delete_iff.mp h.right).2
  · rintro ⟨h, ha, hb⟩
    have hkept := List.Sublist.filter (fun r => !p r) h
    rw [List.filter_cons_of_pos (by simp [ha]), List.filter_cons_of_pos (by simp [hb]),
      List.filter_nil] at hkept
    exact hkept

theorem before_update {p : row -> Bool} {f : row -> row} {hf : KeepsKeys f} :
    (t.update p f hf).Before a b <->
      exists a₀ b₀, t.Before a₀ b₀ ∧ a = (if p a₀ then f a₀ else a₀) ∧
        b = (if p b₀ then f b₀ else b₀) := by
  unfold Before
  rw [rows_update, List.sublist_map_iff]
  constructor
  · rintro ⟨pair, hpair, hmap⟩
    match pair, hmap with
    | [a₀, b₀], hmap =>
        rw [List.map_cons, List.map_cons, List.map_nil] at hmap
        cases hmap
        exact ⟨a₀, b₀, hpair, rfl, rfl⟩
  · rintro ⟨a₀, b₀, hpair, rfl, rfl⟩
    exact ⟨[a₀, b₀], hpair, rfl⟩

theorem before_of_append {added : List row} (hself : forall r : row, Keyed.clash r r = true)
    (h : t'.rows = t.rows ++ added) (hb : b ∈ t.rows) (hbefore : t'.Before a b) :
    t.Before a b := by
  have hnodup := t'.nodup hself
  unfold Before at hbefore
  rw [h] at hnodup hbefore
  have hdisjoint := (List.nodup_append.mp hnodup).2.2
  rcases sublist_pair_append.mp hbefore with hpair | ⟨_, hnew⟩ | hpair
  · exact hpair
  · exact absurd rfl (hdisjoint b hb b hnew)
  · exact absurd rfl (hdisjoint b hb b (hpair.subset (by simp)))

theorem update_inj (hself : forall r : row, Keyed.clash r r = true) {p : row -> Bool}
    {f : row -> row} (hf : KeepsKeys f) (ha : a ∈ t.rows) (hb : b ∈ t.rows)
    (h : (if p a then f a else a) = if p b then f b else b) : a = b := by
  apply eq_of_clash ha hb
  have hupdated : Keyed.clash (if p a then f a else a) (if p b then f b else b) =
      Keyed.clash a b := by
    cases p a with
    | true =>
        cases p b with
        | true => exact clash_of_keepsKeys hf a b
        | false => exact hf a b
    | false =>
        cases p b with
        | true => exact (Keyed.clash_symm a (f b)).trans ((hf b a).trans (Keyed.clash_symm b a))
        | false => rfl
  rw [← hupdated, h]
  exact hself _

theorem before_total (ha : a ∈ t.rows) (hb : b ∈ t.rows) (hne : a ≠ b) :
    t.Before a b ∨ t.Before b a := by
  rcases List.append_of_mem ha with ⟨pre, post, hsplit⟩
  unfold Before
  rw [hsplit] at hb ⊢
  rcases List.mem_append.mp hb with hpre | hpost
  · right
    exact sublist_pair_append.mpr (Or.inr (Or.inl ⟨hpre, List.mem_cons_self⟩))
  · left
    rcases List.mem_cons.mp hpost with rfl | hpost
    · exact absurd rfl hne
    · exact (List.Sublist.cons_cons a (List.singleton_sublist.mpr hpost)).trans
        (List.sublist_append_right _ _)

end Table

end Foundation
