import Mathlib.Data.List.Pairwise

/-!
# Tables with uniqueness constraints

## Rows and clashes

A database table is the list of its rows in insertion order. Its uniqueness
constraints are a symmetric clash test on rows, and a table carries the proof
that no two of its rows clash, so a table that breaks a constraint cannot be
built. Every operation below is one SQL statement.
-/

namespace Foundation

/-- The uniqueness constraints of a table: two rows clash when the database
refuses to hold both. -/
class Keyed (row : Type) where
  clash : row -> row -> Bool
  clash_symm : forall a b, clash a b = clash b a

structure Table (row : Type) [Keyed row] where
  rows : List row
  distinct : rows.Pairwise (fun a b => Keyed.clash a b = false)

namespace Table

variable [Keyed row]

def empty : Table row where
  rows := []
  distinct := List.Pairwise.nil

/-- `INSERT`: refused when the new row clashes with a stored one. -/
def insert? (t : Table row) (r : row) : Option (Table row) :=
  if h : t.rows.all (fun a => !Keyed.clash a r) = true then
    some
      { rows := t.rows ++ [r]
        distinct := by
          refine List.pairwise_append.mpr ⟨t.distinct, List.pairwise_singleton _ _, ?_⟩
          intro a ha b hb
          have hb' : b = r := by simpa using hb
          subst hb'
          simpa using List.all_eq_true.mp h a ha }
  else
    none

def KeepsKeys (f : row -> row) : Prop :=
  forall a b, Keyed.clash (f a) b = Keyed.clash a b

theorem clash_of_keepsKeys {f : row -> row} (hf : KeepsKeys f) (a b : row) :
    Keyed.clash (f a) (f b) = Keyed.clash a b := by
  rw [hf, Keyed.clash_symm, hf, Keyed.clash_symm]

/-- `UPDATE ... WHERE`. -/
def update (t : Table row) (p : row -> Bool) (f : row -> row) (hf : KeepsKeys f) :
    Table row where
  rows := t.rows.map (fun r => if p r then f r else r)
  distinct := by
    rw [List.pairwise_map]
    refine t.distinct.imp ?_
    intro a b hab
    by_cases ha : p a = true <;> by_cases hb : p b = true
    · simpa [ha, hb, clash_of_keepsKeys hf] using hab
    · simpa [ha, hb, hf a b] using hab
    · rw [if_neg ha, if_pos hb, Keyed.clash_symm, hf, Keyed.clash_symm]
      exact hab
    · simpa [ha, hb] using hab

/-- `DELETE ... WHERE`. -/
def delete (t : Table row) (p : row -> Bool) : Table row where
  rows := t.rows.filter (fun r => !p r)
  distinct := t.distinct.filter _

/-- `SELECT ... WHERE` followed by `fetchone`. -/
def fetch (t : Table row) (p : row -> Bool) : Option row :=
  t.rows.find? p

/-!
## What the statements do to the rows
-/

theorem eq_of_rows {t t' : Table row} (h : t.rows = t'.rows) : t = t' := by
  cases t
  cases t'
  cases h
  rfl

@[simp] theorem rows_update (t : Table row) (p : row -> Bool) (f : row -> row)
    (hf : KeepsKeys f) :
    (t.update p f hf).rows = t.rows.map (fun r => if p r then f r else r) := rfl

@[simp] theorem rows_delete (t : Table row) (p : row -> Bool) :
    (t.delete p).rows = t.rows.filter (fun r => !p r) := rfl

theorem insert?_eq_some {t t' : Table row} {r : row} (h : t.insert? r = some t') :
    t'.rows = t.rows ++ [r] ∧ forall a, a ∈ t.rows -> Keyed.clash a r = false := by
  unfold insert? at h
  by_cases hall : t.rows.all (fun a => !Keyed.clash a r) = true
  · rw [dif_pos hall] at h
    cases h
    refine ⟨rfl, ?_⟩
    intro a ha
    simpa using List.all_eq_true.mp hall a ha
  · rw [dif_neg hall] at h
    cases h

theorem insert?_of_no_clash {t : Table row} {r : row}
    (h : forall a, a ∈ t.rows -> Keyed.clash a r = false) :
    exists t', t.insert? r = some t' := by
  have hall : t.rows.all (fun a => !Keyed.clash a r) = true := by
    rw [List.all_eq_true]
    intro a ha
    simp [h a ha]
  exact ⟨_, by unfold insert?; rw [dif_pos hall]⟩

theorem mem_update_iff {t : Table row} {p : row -> Bool} {f : row -> row}
    {hf : KeepsKeys f} {b : row} :
    b ∈ (t.update p f hf).rows <->
      exists a, a ∈ t.rows ∧ (if p a then f a else a) = b := by
  simp

theorem mem_delete_iff {t : Table row} {p : row -> Bool} {a : row} :
    a ∈ (t.delete p).rows <-> a ∈ t.rows ∧ p a = false := by
  simp

theorem eq_of_clash {t : Table row} {a b : row} (ha : a ∈ t.rows) (hb : b ∈ t.rows)
    (hclash : Keyed.clash a b = true) : a = b := by
  by_contra hne
  have : Std.Symm (fun a b : row => Keyed.clash a b = false) :=
    ⟨fun a b h => by rw [Keyed.clash_symm]; exact h⟩
  have hfalse := t.distinct.forall ha hb hne
  rw [hclash] at hfalse
  cases hfalse

theorem fetch_eq_some {t : Table row} {p : row -> Bool} {a : row}
    (h : t.fetch p = some a) : a ∈ t.rows ∧ p a = true :=
  ⟨List.mem_of_find?_eq_some h, List.find?_some h⟩

theorem fetch_eq_none {t : Table row} {p : row -> Bool} :
    t.fetch p = none <-> forall a, a ∈ t.rows -> p a = false := by
  simp [fetch]

theorem fetch_insert {t t' : Table row} {r : row} (h : t.insert? r = some t')
    (q : row -> Bool) :
    t'.fetch q = (t.fetch q).or (if q r then some r else none) := by
  unfold fetch
  rw [(insert?_eq_some h).1, List.find?_append, List.find?_singleton]

theorem fetch_update {t : Table row} {p : row -> Bool} {f : row -> row}
    {hf : KeepsKeys f} {q : row -> Bool} (hq : forall r, q (f r) = q r) :
    (t.update p f hf).fetch q = (t.fetch q).map (fun r => if p r then f r else r) := by
  have hsame : (q ∘ fun r => if p r then f r else r) = q := by
    funext r
    by_cases hp : p r = true
    · simp [hp, hq]
    · simp [hp]
  unfold fetch
  rw [rows_update, List.find?_map, hsame]

theorem fetch_of_mem {t : Table row} {p : row -> Bool} {a : row}
    (ha : a ∈ t.rows) (hp : p a = true)
    (hunique : forall b, b ∈ t.rows -> p b = true -> Keyed.clash a b = true) :
    t.fetch p = some a := by
  cases h : t.fetch p with
  | none =>
      have hfalse := fetch_eq_none.mp h a ha
      rw [hp] at hfalse
      cases hfalse
  | some b =>
      rcases fetch_eq_some h with ⟨hb, hpb⟩
      rw [eq_of_clash ha hb (hunique b hb hpb)]

end Table

end Foundation
