import Ump.Foundation.RowOrder
import Ump.Delivery.Lanes

/-!
# Heads of the lanes

## What a worker can claim

The query of a claim takes the received rows with nothing received or in process before
them in their lane, and of these the first one with the highest priority. So what can be
claimed in one lane does not depend on the other lanes.
-/

namespace Ump.Delivery

open Foundation

/-- The first row of its lane whose processing has not ended, which has been received. -/
structure Head (inbox : Inbox) (row : InboxRow) : Prop where
  mem : row ∈ inbox.rows
  received : row.status = .received
  first : forall other, inbox.Before other row -> other.lane = row.lane ->
    other.status ≠ .received ∧ other.status ≠ .processing

def InboxStatus.ended (status : InboxStatus) : Prop :=
  status = .processed ∨ status = .failed

theorem InboxStatus.ended_of {status : InboxStatus} (hstaged : status ≠ .staged)
    (hreceived : status ≠ .received) (hprocessing : status ≠ .processing) : status.ended := by
  cases status with
  | staged => exact absurd rfl hstaged
  | received => exact absurd rfl hreceived
  | processing => exact absurd rfl hprocessing
  | processed => exact Or.inl rfl
  | failed => exact Or.inr rfl

theorem InboxStatus.ended_ne {status : InboxStatus} (h : status.ended) :
    status ≠ .received ∧ status ≠ .processing := by
  rcases h with rfl | rfl
  · constructor <;> decide
  · constructor <;> decide

theorem clash_self (row : InboxRow) : Keyed.clash row row = true := by
  simp [Keyed.clash]

theorem nodup_rows (inbox : Inbox) : inbox.rows.Nodup :=
  inbox.nodup clash_self

def changed (p : InboxRow -> Bool) (status : InboxStatus) (row : InboxRow) : InboxStatus :=
  if p row then status else row.status

theorem changed_of {p : InboxRow -> Bool} (row : InboxRow) (status : InboxStatus)
    (h : p row = true) : changed p status row = status := by
  unfold changed
  rw [if_pos h]

theorem changed_of_not {p : InboxRow -> Bool} (row : InboxRow) (status : InboxStatus)
    (h : p row = false) : changed p status row = row.status := by
  unfold changed
  rw [h]
  rfl

theorem mem_changed {inbox : Inbox} {p : InboxRow -> Bool} {status : InboxStatus}
    {row : InboxRow} (h : row ∈ inbox.rows) :
    { row with status := changed p status row } ∈ (inbox.setStatus p status).rows := by
  rw [Inbox.rows_setStatus]
  exact List.mem_map_of_mem h

namespace Inbox

/-- A row of the lane that keeps later rows from being claimed. -/
def blocks (row other : InboxRow) : Bool :=
  other.lane == row.lane && (other.status == .received || other.status == .processing)

theorem blocks_eq_false {row other : InboxRow} :
    blocks row other = false <->
      (other.lane = row.lane -> other.status ≠ .received ∧ other.status ≠ .processing) := by
  unfold blocks
  by_cases hlane : other.lane = row.lane <;> simp [hlane]

theorem mem_candidates_iff_of {earlier rows : List InboxRow} {row : InboxRow}
    (hnodup : rows.Nodup) :
    row ∈ candidates earlier rows <-> row ∈ rows ∧ row.status = .received ∧
      (forall other, other ∈ earlier -> blocks row other = false) ∧
      forall other, List.Sublist [other, row] rows -> blocks row other = false := by
  induction rows generalizing earlier with
  | nil => simp [candidates]
  | cons head rest ih =>
      rcases List.nodup_cons.mp hnodup with ⟨hfresh, hrest⟩
      have hselected : (head.status == .received && !earlier.any (fun other =>
          other.lane == head.lane &&
            (other.status == .received || other.status == .processing))) = true <->
          head.status = .received ∧
            forall other, other ∈ earlier -> blocks head other = false := by
        simp [blocks]
      have hself : forall other, ¬ List.Sublist [other, head] (head :: rest) := by
        intro other hpair
        cases hpair with
        | cons _ hpair => exact hfresh (hpair.subset (by simp))
        | cons_cons _ hpair => exact hfresh (hpair.subset (by simp))
      have hother : row ≠ head -> (row ∈ candidates (earlier ++ [head]) rest <->
          row ∈ head :: rest ∧ row.status = .received ∧
            (forall other, other ∈ earlier -> blocks row other = false) ∧
            forall other, List.Sublist [other, row] (head :: rest) ->
              blocks row other = false) := by
        intro hne
        rw [ih hrest]
        constructor
        · rintro ⟨hmem, hreceived, hearlier, hlater⟩
          refine ⟨List.mem_cons_of_mem _ hmem, hreceived, ?_, ?_⟩
          · exact fun other h => hearlier other (List.mem_append_left _ h)
          · intro other hpair
            cases hpair with
            | cons _ hpair => exact hlater other hpair
            | cons_cons _ _ => exact hearlier _ (List.mem_append_right _ (by simp))
        · rintro ⟨hmem, hreceived, hearlier, hlater⟩
          have hmem : row ∈ rest := by
            rcases List.mem_cons.mp hmem with heq | hmem
            · exact absurd heq hne
            · exact hmem
          refine ⟨hmem, hreceived, ?_, ?_⟩
          · intro other h
            rcases List.mem_append.mp h with hold | hnew
            · exact hearlier other hold
            · rw [List.mem_singleton.mp hnew]
              exact hlater head (List.Sublist.cons_cons head (List.singleton_sublist.mpr hmem))
          · exact fun other hpair => hlater other (List.Sublist.cons head hpair)
      unfold candidates
      by_cases hrow : row = head
      · subst hrow
        have hgone : row ∉ candidates (earlier ++ [row]) rest :=
          fun h => hfresh (mem_candidates h).1
        constructor
        · intro h
          split_ifs at h with hselects
          · exact ⟨List.mem_cons_self, (hselected.mp hselects).1, (hselected.mp hselects).2,
              fun other hpair => absurd hpair (hself other)⟩
          · exact absurd h hgone
        · rintro ⟨_, hreceived, hearlier, _⟩
          rw [if_pos (hselected.mpr ⟨hreceived, hearlier⟩)]
          exact List.mem_cons_self
      · rw [← hother hrow]
        split_ifs
        · simp [hrow]
        · rfl

theorem mem_candidates_iff {inbox : Inbox} {row : InboxRow} :
    row ∈ candidates [] inbox.rows <-> Head inbox row := by
  rw [mem_candidates_iff_of (nodup_rows inbox)]
  constructor
  · rintro ⟨hmem, hreceived, _, hfirst⟩
    exact ⟨hmem, hreceived, fun other hbefore hlane =>
      blocks_eq_false.mp (hfirst other hbefore) hlane⟩
  · intro h
    refine ⟨h.mem, h.received, ?_, ?_⟩
    · intro other hnone
      cases hnone
    · exact fun other hbefore => blocks_eq_false.mpr (h.first other hbefore)

theorem claimable_head {inbox : Inbox} {row : InboxRow} (h : inbox.claimable = some row) :
    Head inbox row ∧ forall other, Head inbox other -> other.priority ≤ row.priority := by
  unfold claimable at h
  generalize hsorted : (candidates [] inbox.rows).insertionSort
    (fun a b => b.priority ≤ a.priority) = sorted at h
  have hmem : forall other, other ∈ sorted <-> Head inbox other := by
    intro other
    rw [← hsorted, List.mem_insertionSort, mem_candidates_iff]
  have hpairwise : sorted.Pairwise (fun a b => b.priority ≤ a.priority) := by
    rw [← hsorted]
    have htotal : Std.Total (fun a b : InboxRow => b.priority ≤ a.priority) :=
      ⟨fun a b => Nat.le_total b.priority a.priority⟩
    have htrans : IsTrans InboxRow (fun a b => b.priority ≤ a.priority) :=
      ⟨fun a b c hab hbc => Nat.le_trans hbc hab⟩
    exact List.pairwise_insertionSort _ _
  cases sorted with
  | nil => cases h
  | cons first rest =>
      have hfirst : first = row := Option.some.inj h
      subst hfirst
      refine ⟨(hmem first).mp List.mem_cons_self, ?_⟩
      intro other hother
      rcases List.mem_cons.mp ((hmem other).mpr hother) with rfl | hlater
      · exact Nat.le_refl _
      · exact (List.pairwise_cons.mp hpairwise).1 other hlater

theorem claimable_of_head {inbox : Inbox} {row : InboxRow} (h : Head inbox row) :
    exists claimed, inbox.claimable = some claimed := by
  unfold claimable
  have hmem : row ∈ (candidates [] inbox.rows).insertionSort
      (fun a b => b.priority ≤ a.priority) :=
    (List.mem_insertionSort _).mpr (mem_candidates_iff.mpr h)
  cases hsorted : (candidates [] inbox.rows).insertionSort
      (fun a b => b.priority ≤ a.priority) with
  | nil =>
      rw [hsorted] at hmem
      cases hmem
  | cons first rest => exact ⟨first, rfl⟩

theorem claim_head {inbox inbox' : Inbox} {row : InboxRow}
    (h : inbox.claim = (some row, inbox')) :
    Head inbox row ∧ (forall other, Head inbox other -> other.priority ≤ row.priority) ∧
      inbox' = inbox.setStatus (fun other => other.messageId == row.messageId)
        .processing := by
  unfold claim at h
  cases hclaimable : inbox.claimable with
  | none =>
      rw [hclaimable] at h
      cases h
  | some claimed =>
      rw [hclaimable] at h
      cases h
      exact ⟨(claimable_head hclaimable).1, (claimable_head hclaimable).2, rfl⟩

theorem before_setStatus {inbox : Inbox} {p : InboxRow -> Bool} {status : InboxStatus}
    {a b : InboxRow} (h : (inbox.setStatus p status).Before a b) :
    exists a₀ b₀, inbox.Before a₀ b₀ ∧
      a = { a₀ with status := if p a₀ then status else a₀.status } ∧
      b = { b₀ with status := if p b₀ then status else b₀.status } := by
  rcases Table.before_update.mp h with ⟨a₀, b₀, hbefore, rfl, rfl⟩
  refine ⟨a₀, b₀, hbefore, ?_, ?_⟩
  · cases p a₀ <;> rfl
  · cases p b₀ <;> rfl

theorem setStatus_before {inbox : Inbox} {p : InboxRow -> Bool} {status : InboxStatus}
    {a b : InboxRow} (h : inbox.Before a b) :
    (inbox.setStatus p status).Before
      { a with status := if p a then status else a.status }
      { b with status := if p b then status else b.status } := by
  refine Table.before_update.mpr ⟨a, b, h, ?_, ?_⟩
  · cases p a <;> rfl
  · cases p b <;> rfl

end Inbox

end Ump.Delivery
