import Mathlib.Algebra.Order.Ring.Int

/-!
# Streams received in pieces

## Sources

A source holds the pieces in which a stream arrives, none of them empty. A read takes from
the first piece only, so it may give less than what was asked for.
-/

namespace Foundation

/-- What follows the last piece: the stream is over, or no answer comes. -/
inductive Ending where
  | shutdown
  | silence
deriving DecidableEq, Repr

structure Source (element : Type) where
  pieces : List (List element)
  ending : Ending
  nonempty : forall piece, piece ∈ pieces -> piece ≠ []

namespace Source

variable {element : Type}

def unread (source : Source element) : List element :=
  source.pieces.flatten

/-- The source that is left when `rest` is left of the first piece. -/
def leaving (rest : List element) (pieces : List (List element)) (ending : Ending)
    (h : forall piece, piece ∈ pieces -> piece ≠ []) : Source element :=
  if hrest : rest = [] then
    ⟨pieces, ending, h⟩
  else
    ⟨rest :: pieces, ending, fun piece hmem => by
      rcases List.mem_cons.mp hmem with rfl | hmem
      · exact hrest
      · exact h piece hmem⟩

theorem unread_leaving (rest : List element) (pieces : List (List element)) (ending : Ending)
    (h : forall piece, piece ∈ pieces -> piece ≠ []) :
    (leaving rest pieces ending h).unread = rest ++ pieces.flatten := by
  unfold leaving
  by_cases hrest : rest = []
  · rw [dif_pos hrest, hrest]
    rfl
  · rw [dif_neg hrest]
    rfl

theorem ending_leaving (rest : List element) (pieces : List (List element)) (ending : Ending)
    (h : forall piece, piece ∈ pieces -> piece ≠ []) :
    (leaving rest pieces ending h).ending = ending := by
  unfold leaving
  by_cases hrest : rest = []
  · rw [dif_pos hrest]
  · rw [dif_neg hrest]

/-- A read of at most `n` elements: none at the end of the stream, no answer in silence. -/
def recv (source : Source element) (n : Nat) : Option (List element) × Source element :=
  match source with
  | ⟨[], .shutdown, _⟩ => (some [], source)
  | ⟨[], .silence, _⟩ => (none, source)
  | ⟨piece :: pieces, ending, h⟩ =>
      (some (piece.take n),
        leaving (piece.drop n) pieces ending (fun p hp => h p (List.mem_cons_of_mem piece hp)))

theorem recv_shutdown {source : Source element} (n : Nat) (h : source.unread = [])
    (hending : source.ending = .shutdown) : source.recv n = (some [], source) := by
  obtain ⟨pieces, ending, hne⟩ := source
  cases pieces with
  | nil =>
      cases hending
      rfl
  | cons piece pieces =>
      have hpiece : piece = [] := (List.append_eq_nil_iff.mp h).1
      exact absurd hpiece (hne piece List.mem_cons_self)

theorem recv_silence {source : Source element} (n : Nat) (h : source.unread = [])
    (hending : source.ending = .silence) : source.recv n = (none, source) := by
  obtain ⟨pieces, ending, hne⟩ := source
  cases pieces with
  | nil =>
      cases hending
      rfl
  | cons piece pieces =>
      have hpiece : piece = [] := (List.append_eq_nil_iff.mp h).1
      exact absurd hpiece (hne piece List.mem_cons_self)

/-- What one read takes from a stream that is not over. -/
structure Takes (source : Source element) (n : Nat) (chunk : List element)
    (source' : Source element) : Prop where
  answer : source.recv n = (some chunk, source')
  nonempty : chunk ≠ []
  length : chunk.length ≤ n
  unread : source.unread = chunk ++ source'.unread
  ending : source'.ending = source.ending

theorem recv_takes {source : Source element} {n : Nat} (hn : 0 < n)
    (h : source.unread ≠ []) : exists chunk source', source.Takes n chunk source' := by
  obtain ⟨pieces, ending, hne⟩ := source
  cases pieces with
  | nil => exact absurd rfl h
  | cons piece pieces =>
      refine ⟨piece.take n, _, rfl, ?_, List.length_take_le n piece, ?_, ?_⟩
      · intro htake
        rcases List.take_eq_nil_iff.mp htake with hzero | hpiece
        · omega
        · exact hne piece List.mem_cons_self hpiece
      · rw [unread_leaving, ← List.append_assoc, List.take_append_drop]
        rfl
      · exact ending_leaving _ _ _ _

end Source

/-!
## Numbers in network order
-/

/-- The bytes of a number, the most significant first. -/
def bigEndian : Nat -> Nat -> List UInt8
  | 0, _ => []
  | width + 1, n => bigEndian width (n / 256) ++ [UInt8.ofNat (n % 256)]

def ofBigEndian (bytes : List UInt8) : Nat :=
  bytes.foldl (fun n byte => n * 256 + byte.toNat) 0

theorem length_bigEndian (width n : Nat) : (bigEndian width n).length = width := by
  induction width generalizing n with
  | zero => rfl
  | succ width ih =>
      unfold bigEndian
      rw [List.length_append, ih]
      rfl

theorem ofBigEndian_bigEndian (width n : Nat) (h : n < 256 ^ width) :
    ofBigEndian (bigEndian width n) = n := by
  induction width generalizing n with
  | zero =>
      have hn : n = 0 := by
        rw [Nat.pow_zero] at h
        omega
      rw [hn]
      rfl
  | succ width ih =>
      have hdiv : n / 256 < 256 ^ width := by
        rw [Nat.pow_succ] at h
        exact Nat.div_lt_of_lt_mul (by rw [Nat.mul_comm]; exact h)
      have hbyte : (UInt8.ofNat (n % 256)).toNat = n % 256 := by
        rw [UInt8.toNat_ofNat']
        exact Nat.mod_eq_of_lt (Nat.mod_lt n (by decide))
      have hfirst := ih (n / 256) hdiv
      unfold ofBigEndian at hfirst ⊢
      unfold bigEndian
      rw [List.foldl_append, hfirst]
      show n / 256 * 256 + (UInt8.ofNat (n % 256)).toNat = n
      rw [hbyte]
      omega

end Foundation
