import Ump.Delivery.Handoff

/-!
# Lanes of the inbox

## The sender's turn

A sender works through each lane in order and repeats an envelope until it is
acknowledged. Each lane of the inbox is then always what was offered of it, but for
the last envelope, which may be missing or staged.
-/

namespace Ump.Delivery

open Foundation

/-- What has been offered of one lane, oldest first. -/
def offeredIn (m : Memory) (lane : Lane) : List Envelope :=
  m.offered.filter (fun envelope => laneOf envelope == lane)

def rowsIn (inbox : Inbox) (lane : Lane) : List InboxRow :=
  inbox.rows.filter (fun row => row.lane == lane)

def settledIn (inbox : Inbox) (lane : Lane) : List InboxRow :=
  (rowsIn inbox lane).filter (fun row => row.status != .staged)

/-- The envelope is the one that the sender works on in its lane. -/
def Last (m : Memory) (envelope : Envelope) : Prop :=
  (offeredIn m (laneOf envelope)).getLast? = some envelope

/-- The sender may offer the envelope: it repeats the last one of the lane, or goes
on to a new one after the acknowledgement of all before. -/
structure Offers (m : Memory) (envelope : Envelope) : Prop where
  checked : envelope.checkDecoded = .ok ()
  turn : Last m envelope ∨
    (forall other, other ∈ m.offered -> other.messageId ≠ envelope.messageId) ∧
    forall other, other ∈ offeredIn m (laneOf envelope) ->
      other.sequence < envelope.sequence ∧
      exists status, (other, status) ∈ m.acknowledged

/-- SQLite can store the sequence, and the decoded content can be encoded again. -/
structure Keepable (envelope : Envelope) : Prop where
  storable : envelope.sequence < 2 ^ 63
  encoded : exists body, envelope.encode = .ok body

/-!
## Lanes in step
-/

def Stored (inbox : Inbox) (envelope : Envelope) : Prop :=
  exists row, row ∈ inbox.rows ∧ row.envelope = envelope

def SettledRow (inbox : Inbox) (envelope : Envelope) : Prop :=
  exists row, row ∈ inbox.rows ∧ row.envelope = envelope ∧ row.status ≠ .staged

structure InboxRow.WellFormed (sha256 : Text -> String) (row : InboxRow) : Prop where
  messageId : row.messageId = row.envelope.messageId
  lane : row.lane = laneOf row.envelope
  sequence : row.sequence = row.envelope.sequence
  digest : exists body, row.envelope.encode = .ok body ∧ row.digest = sha256 body

structure Sendable (envelope : Envelope) : Prop where
  positive : 1 ≤ envelope.sequence
  storable : envelope.sequence < 2 ^ 63
  encoded : exists body, envelope.encode = .ok body

structure LaneInStep (m : Memory) (lane : Lane) : Prop where
  increasing : (offeredIn m lane).Pairwise (fun a b => a.sequence < b.sequence)
  stored : exists rest, (rowsIn m.inbox lane).map (fun row => row.envelope) ++ rest =
    offeredIn m lane ∧ rest.length ≤ 1
  staged : forall row, row ∈ m.inbox.rows -> row.lane = lane -> row.status = .staged ->
    (offeredIn m lane).getLast? = some row.envelope
  floor : m.floors.floor lane = 0 ∨ exists row, row ∈ m.inbox.rows ∧ row.lane = lane ∧
    row.sequence = m.floors.floor lane

structure InStep (sha256 : Text -> String) (m : Memory) : Prop where
  rows : forall row, row ∈ m.inbox.rows -> row.WellFormed sha256
  offered : forall envelope, envelope ∈ m.offered -> Sendable envelope
  ids : (m.offered.map (fun envelope => envelope.messageId)).Nodup
  lanes : forall lane, LaneInStep m lane
  committed : forall row, row ∈ m.inbox.rows -> row.status ≠ .staged ->
    row.sequence ≤ m.floors.floor row.lane
  acknowledged : forall entry, entry ∈ m.acknowledged -> SettledRow m.inbox entry.1

/-!
## Lanes and envelopes
-/

theorem mem_offeredIn {m : Memory} {lane : Lane} {envelope : Envelope} :
    envelope ∈ offeredIn m lane <-> envelope ∈ m.offered ∧ laneOf envelope = lane := by
  simp [offeredIn]

theorem mem_rowsIn {inbox : Inbox} {lane : Lane} {row : InboxRow} :
    row ∈ rowsIn inbox lane <-> row ∈ inbox.rows ∧ row.lane = lane := by
  simp [rowsIn]

theorem Last.mem {m : Memory} {envelope : Envelope} (h : Last m envelope) :
    envelope ∈ m.offered :=
  (mem_offeredIn.mp (List.mem_of_getLast? h)).1

theorem InStep.row_offered {sha256 : Text -> String} {m : Memory} (h : InStep sha256 m)
    {row : InboxRow} (hrow : row ∈ m.inbox.rows) : row.envelope ∈ m.offered := by
  rcases (h.lanes row.lane).stored with ⟨rest, hrest, _⟩
  have hmem : row.envelope ∈ offeredIn m row.lane := by
    rw [← hrest]
    exact List.mem_append_left _
      (List.mem_map.mpr ⟨row, mem_rowsIn.mpr ⟨hrow, rfl⟩, rfl⟩)
  exact (mem_offeredIn.mp hmem).1

theorem InStep.row_envelope {sha256 : Text -> String} {m : Memory} (h : InStep sha256 m)
    {row : InboxRow} (hrow : row ∈ m.inbox.rows) {envelope : Envelope}
    (hoffered : envelope ∈ m.offered) (hid : row.messageId = envelope.messageId) :
    row.envelope = envelope :=
  List.inj_on_of_nodup_map h.ids (h.row_offered hrow) hoffered
    ((h.rows row hrow).messageId.symm.trans hid)

theorem LaneInStep.missing {m : Memory} {lane : Lane} (h : LaneInStep m lane)
    {envelope : Envelope} (hoffered : envelope ∈ offeredIn m lane)
    (hmissing : forall row, row ∈ m.inbox.rows -> row.lane = lane ->
      row.envelope ≠ envelope) :
    (rowsIn m.inbox lane).map (fun row => row.envelope) ++ [envelope] =
      offeredIn m lane := by
  rcases h.stored with ⟨rest, hrest, hlength⟩
  have hmem : envelope ∈ rest := by
    rw [← hrest] at hoffered
    rcases List.mem_append.mp hoffered with hstored | hlast
    · rcases List.mem_map.mp hstored with ⟨row, hrow, hsame⟩
      rcases mem_rowsIn.mp hrow with ⟨hrow, hlane⟩
      exact absurd hsame (hmissing row hrow hlane)
    · exact hlast
  cases rest with
  | nil => cases hmem
  | cons head tail =>
      have htail : tail = [] := by simpa using hlength
      subst htail
      rw [List.mem_singleton.mp hmem]
      exact hrest

theorem LaneInStep.floor_lt {sha256 : Text -> String} {m : Memory} {lane : Lane}
    (hinStep : InStep sha256 m) {envelope : Envelope}
    (hoffered : envelope ∈ offeredIn m lane)
    (hmissing : forall row, row ∈ m.inbox.rows -> row.lane = lane ->
      row.envelope ≠ envelope) : m.floors.floor lane < envelope.sequence := by
  have h := hinStep.lanes lane
  have hsendable := hinStep.offered envelope (mem_offeredIn.mp hoffered).1
  have hincreasing := h.increasing
  rw [← h.missing hoffered hmissing, List.pairwise_append] at hincreasing
  rcases h.floor with hzero | ⟨row, hrow, hlane, hsequence⟩
  · rw [hzero]
    exact hsendable.positive
  · rw [← hsequence, (hinStep.rows row hrow).sequence]
    exact hincreasing.2.2 _
      (List.mem_map.mpr ⟨row, mem_rowsIn.mpr ⟨hrow, hlane⟩, rfl⟩) _
      (List.mem_singleton.mpr rfl)

/-!
## What each change keeps
-/

theorem rowsIn_setStatus (inbox : Inbox) (p : InboxRow -> Bool) (status : InboxStatus)
    (lane : Lane) :
    rowsIn (inbox.setStatus p status) lane = (rowsIn inbox lane).map
      (fun row => { row with status := if p row then status else row.status }) := by
  unfold rowsIn
  rw [Inbox.rows_setStatus, List.filter_map]
  rfl

theorem InStep.setStatus {sha256 : Text -> String} {m : Memory} (h : InStep sha256 m)
    (p : InboxRow -> Bool) (status : InboxStatus) (hstatus : status ≠ .staged)
    (hp : forall row, row ∈ m.inbox.rows -> p row = true -> row.status = .staged ->
      row.sequence ≤ m.floors.floor row.lane) :
    InStep sha256 { m with inbox := m.inbox.setStatus p status } := by
  have horigin : forall row', row' ∈ (m.inbox.setStatus p status).rows ->
      exists row, row ∈ m.inbox.rows ∧
        row' = { row with status := if p row then status else row.status } := by
    intro row' hrow'
    rw [Inbox.rows_setStatus] at hrow'
    rcases List.mem_map.mp hrow' with ⟨row, hrow, rfl⟩
    exact ⟨row, hrow, rfl⟩
  have hkept : forall row, row ∈ m.inbox.rows ->
      { row with status := if p row then status else row.status } ∈
        (m.inbox.setStatus p status).rows := by
    intro row hrow
    rw [Inbox.rows_setStatus]
    exact List.mem_map.mpr ⟨row, hrow, rfl⟩
  refine ⟨?_, h.offered, h.ids, ?_, ?_, ?_⟩
  · intro row' hrow'
    rcases horigin row' hrow' with ⟨row, hrow, rfl⟩
    rcases h.rows row hrow with ⟨hid, hlane, hsequence, hdigest⟩
    exact ⟨hid, hlane, hsequence, hdigest⟩
  · intro lane
    have hlane := h.lanes lane
    refine ⟨hlane.increasing, ?_, ?_, ?_⟩
    · rcases hlane.stored with ⟨rest, hrest, hlength⟩
      refine ⟨rest, ?_, hlength⟩
      show (rowsIn (m.inbox.setStatus p status) lane).map _ ++ rest = _
      rw [rowsIn_setStatus, List.map_map]
      exact hrest
    · intro row' hrow' hrowLane hstaged
      rcases horigin row' hrow' with ⟨row, hrow, rfl⟩
      by_cases hselected : p row = true
      · simp only [hselected, if_true] at hstaged
        exact absurd hstaged hstatus
      · simp only [hselected, Bool.false_eq_true, if_false] at hstaged
        exact hlane.staged row hrow hrowLane hstaged
    · rcases hlane.floor with hzero | ⟨row, hrow, hrowLane, hsequence⟩
      · exact Or.inl hzero
      · exact Or.inr ⟨_, hkept row hrow, hrowLane, hsequence⟩
  · intro row' hrow' hsettled
    rcases horigin row' hrow' with ⟨row, hrow, rfl⟩
    by_cases hstaged : row.status = .staged
    · by_cases hselected : p row = true
      · exact hp row hrow hselected hstaged
      · simp only [hselected, Bool.false_eq_true, if_false] at hsettled
        exact absurd hstaged hsettled
    · exact h.committed row hrow hstaged
  · intro entry hentry
    rcases h.acknowledged entry hentry with ⟨row, hrow, henvelope, hsettled⟩
    refine ⟨_, hkept row hrow, henvelope, ?_⟩
    by_cases hselected : p row = true
    · simpa [hselected] using hstatus
    · simpa [hselected] using hsettled

theorem recordOffer_of_mem {offered : List Envelope} {envelope : Envelope}
    (h : envelope ∈ offered) : recordOffer offered envelope = offered := by
  unfold recordOffer
  exact if_pos (List.any_eq_true.mpr ⟨envelope, h, by simp⟩)

theorem recordOffer_of_new {offered : List Envelope} {envelope : Envelope}
    (h : forall other, other ∈ offered -> other.messageId ≠ envelope.messageId) :
    recordOffer offered envelope = offered ++ [envelope] := by
  unfold recordOffer
  refine if_neg ?_
  intro hany
  rcases List.any_eq_true.mp hany with ⟨other, hother, hsame⟩
  exact h other hother (by simpa using hsame)

theorem offeredIn_append_self (m : Memory) (envelope : Envelope) :
    offeredIn { m with offered := m.offered ++ [envelope] } (laneOf envelope) =
      offeredIn m (laneOf envelope) ++ [envelope] := by
  simp [offeredIn, List.filter_append]

theorem offeredIn_append_ne {m : Memory} {envelope : Envelope} {lane : Lane}
    (h : laneOf envelope ≠ lane) :
    offeredIn { m with offered := m.offered ++ [envelope] } lane = offeredIn m lane := by
  simp [offeredIn, List.filter_append, h]

theorem LaneInStep.offerNew {sha256 : Text -> String} {m : Memory} {envelope : Envelope}
    (hinStep : InStep sha256 m)
    (hnext : forall other, other ∈ offeredIn m (laneOf envelope) ->
      other.sequence < envelope.sequence ∧ exists status, (other, status) ∈ m.acknowledged) :
    LaneInStep { m with offered := m.offered ++ [envelope] } (laneOf envelope) := by
  have h := hinStep.lanes (laneOf envelope)
  have hsettled : forall other, other ∈ offeredIn m (laneOf envelope) ->
      SettledRow m.inbox other := by
    intro other hother
    rcases (hnext other hother).2 with ⟨status, hacknowledged⟩
    exact hinStep.acknowledged _ hacknowledged
  constructor
  · rw [offeredIn_append_self, List.pairwise_append]
    refine ⟨h.increasing, List.pairwise_singleton _ _, ?_⟩
    intro other hother last hlast
    rw [List.mem_singleton.mp hlast]
    exact (hnext other hother).1
  · rw [offeredIn_append_self]
    refine ⟨[envelope], ?_, le_refl 1⟩
    rcases h.stored with ⟨rest, hrest, _⟩
    cases rest with
    | nil => rw [← hrest, List.append_nil]
    | cons missing tail =>
        -- the missing envelope has been acknowledged, so its row is there
        have hmem : missing ∈ offeredIn m (laneOf envelope) := by
          rw [← hrest]
          exact List.mem_append_right _ List.mem_cons_self
        rcases hsettled missing hmem with ⟨row, hrow, hsame, _⟩
        have hrowLane : row.lane = laneOf envelope := by
          rw [(hinStep.rows row hrow).lane, hsame]
          exact (mem_offeredIn.mp hmem).2
        have hstored : missing ∈ (rowsIn m.inbox (laneOf envelope)).map
            (fun row => row.envelope) :=
          List.mem_map.mpr ⟨row, mem_rowsIn.mpr ⟨hrow, hrowLane⟩, hsame⟩
        have hincreasing := h.increasing
        rw [← hrest, List.pairwise_append] at hincreasing
        exact absurd (hincreasing.2.2 missing hstored missing List.mem_cons_self)
          (lt_irrefl _)
  · intro row hrow hrowLane hstaged
    have hmem : row.envelope ∈ offeredIn m (laneOf envelope) :=
      mem_offeredIn.mpr ⟨hinStep.row_offered hrow,
        (hinStep.rows row hrow).lane.symm.trans hrowLane⟩
    rcases hsettled row.envelope hmem with ⟨other, hother, hsame, hstatus⟩
    have hid : other.messageId = row.messageId := by
      rw [(hinStep.rows other hother).messageId, (hinStep.rows row hrow).messageId, hsame]
    rw [Inbox.eq_of_messageId hother hrow hid] at hstatus
    exact absurd hstaged hstatus
  · exact h.floor

theorem InStep.offer {sha256 : Text -> String} {m : Memory} (h : InStep sha256 m)
    {envelope : Envelope} (hoffers : Offers m envelope) (hkeepable : Keepable envelope) :
    InStep sha256 { m with offered := recordOffer m.offered envelope } ∧
      Last { m with offered := recordOffer m.offered envelope } envelope := by
  rcases hoffers.turn with hlast | ⟨hnew, hnext⟩
  · rw [recordOffer_of_mem hlast.mem]
    exact ⟨h, hlast⟩
  · rw [recordOffer_of_new hnew]
    have hpositive : 1 ≤ envelope.sequence := by
      have hchecked := hoffers.checked
      unfold Envelope.checkDecoded at hchecked
      rcases bind_eq_ok.mp hchecked with ⟨_, _, hchecked⟩
      rcases bind_eq_ok.mp hchecked with ⟨_, _, hchecked⟩
      rcases bind_eq_ok.mp hchecked with ⟨_, _, hchecked⟩
      rcases bind_eq_ok.mp hchecked with ⟨_, _, hchecked⟩
      rcases bind_eq_ok.mp hchecked with ⟨_, hsequence, _⟩
      by_contra hlt
      rw [decide_eq_true (not_le.mp hlt)] at hsequence
      cases hsequence
    constructor
    · refine ⟨h.rows, ?_, ?_, ?_, h.committed, h.acknowledged⟩
      · intro other hother
        rcases List.mem_append.mp hother with hold | hadded
        · exact h.offered other hold
        · rw [List.mem_singleton.mp hadded]
          exact ⟨hpositive, hkeepable.storable, hkeepable.encoded⟩
      · rw [List.map_append, List.nodup_append']
        refine ⟨h.ids, List.nodup_singleton _, ?_⟩
        intro id hold hadded
        rcases List.mem_map.mp hold with ⟨other, hother, rfl⟩
        exact hnew other hother (List.mem_singleton.mp hadded)
      · intro lane
        by_cases hlane : laneOf envelope = lane
        · subst hlane
          exact LaneInStep.offerNew h hnext
        · have hold := h.lanes lane
          refine ⟨?_, ?_, ?_, hold.floor⟩
          · rw [offeredIn_append_ne hlane]
            exact hold.increasing
          · rw [offeredIn_append_ne hlane]
            exact hold.stored
          · rw [offeredIn_append_ne hlane]
            exact hold.staged
    · unfold Last
      rw [offeredIn_append_self]
      exact List.getLast?_concat

theorem InStep.stage {sha256 : Text -> String} {m : Memory} (h : InStep sha256 m)
    {envelope : Envelope} {body : Text} {inbox : Inbox}
    (hbody : envelope.encode = .ok body) (hlast : Last m envelope)
    (hnew : forall row, row ∈ m.inbox.rows -> row.messageId ≠ envelope.messageId)
    (hrows : inbox.rows = m.inbox.rows ++ [Inbox.newRow envelope (sha256 body) .staged]) :
    InStep sha256 { m with inbox := inbox } := by
  have hmissing : forall row, row ∈ m.inbox.rows -> row.lane = laneOf envelope ->
      row.envelope ≠ envelope := by
    intro row hrow _ hsame
    exact hnew row hrow (by rw [(h.rows row hrow).messageId, hsame])
  have hold : forall row, row ∈ m.inbox.rows -> row ∈ inbox.rows := by
    intro row hrow
    rw [hrows]
    exact List.mem_append_left _ hrow
  have horigin : forall row, row ∈ inbox.rows -> row ∈ m.inbox.rows ∨
      row = Inbox.newRow envelope (sha256 body) .staged := by
    intro row hrow
    rw [hrows] at hrow
    exact (List.mem_append.mp hrow).imp_right List.mem_singleton.mp
  refine ⟨?_, h.offered, h.ids, ?_, ?_, ?_⟩
  · intro row hrow
    rcases horigin row hrow with hrow | rfl
    · exact h.rows row hrow
    · exact ⟨rfl, rfl, rfl, body, hbody, rfl⟩
  · intro lane
    have hlane := h.lanes lane
    refine ⟨hlane.increasing, ?_, ?_, ?_⟩
    · by_cases hsame : laneOf envelope = lane
      · subst hsame
        refine ⟨[], ?_, Nat.zero_le 1⟩
        show (rowsIn inbox (laneOf envelope)).map _ ++ [] = offeredIn m (laneOf envelope)
        rw [← hlane.missing (List.mem_of_getLast? hlast) hmissing]
        simp [rowsIn, hrows, List.filter_append, Inbox.newRow]
      · have hrowsIn : rowsIn inbox lane = rowsIn m.inbox lane := by
          simp [rowsIn, hrows, List.filter_append, Inbox.newRow, hsame]
        rcases hlane.stored with ⟨rest, hrest, hlength⟩
        refine ⟨rest, ?_, hlength⟩
        show (rowsIn inbox lane).map _ ++ rest = offeredIn m lane
        rw [hrowsIn]
        exact hrest
    · intro row hrow hrowLane hstaged
      rcases horigin row hrow with hrow | rfl
      · exact hlane.staged row hrow hrowLane hstaged
      · rw [← hrowLane]
        exact hlast
    · rcases hlane.floor with hzero | ⟨row, hrow, hrowLane, hsequence⟩
      · exact Or.inl hzero
      · exact Or.inr ⟨row, hold row hrow, hrowLane, hsequence⟩
  · intro row hrow hsettled
    rcases horigin row hrow with hrow | rfl
    · exact h.committed row hrow hsettled
    · exact absurd rfl hsettled
  · intro entry hentry
    rcases h.acknowledged entry hentry with ⟨row, hrow, hsame, hsettled⟩
    exact ⟨row, hold row hrow, hsame, hsettled⟩

theorem InStep.raiseTo {sha256 : Text -> String} {m : Memory} (h : InStep sha256 m)
    {envelope : Envelope} (hstored : Stored m.inbox envelope)
    (hfloor : m.floors.floor (laneOf envelope) < envelope.sequence) :
    InStep sha256
      { m with floors := m.floors.raiseTo (laneOf envelope) envelope.sequence } := by
  rcases hstored with ⟨row, hrow, rfl⟩
  have hwellFormed := h.rows row hrow
  refine ⟨h.rows, h.offered, h.ids, ?_, ?_, h.acknowledged⟩
  · intro lane
    have hlane := h.lanes lane
    refine ⟨hlane.increasing, hlane.stored, hlane.staged, ?_⟩
    show Floors.floor (m.floors.raiseTo _ _) lane = 0 ∨ exists row, row ∈ m.inbox.rows ∧
      row.lane = lane ∧ row.sequence = Floors.floor (m.floors.raiseTo _ _) lane
    by_cases hsame : lane = laneOf row.envelope
    · subst hsame
      rw [Floors.floor_raiseTo_self]
      exact Or.inr ⟨row, hrow, hwellFormed.lane, hwellFormed.sequence⟩
    · rw [Floors.floor_raiseTo_ne hsame]
      exact hlane.floor
  · intro other hother hsettled
    have hcommitted := h.committed other hother hsettled
    show other.sequence ≤ Floors.floor (m.floors.raiseTo _ _) other.lane
    by_cases hsame : other.lane = laneOf row.envelope
    · rw [hsame] at hcommitted ⊢
      rw [Floors.floor_raiseTo_self]
      exact le_of_lt (lt_of_le_of_lt hcommitted hfloor)
    · rw [Floors.floor_raiseTo_ne hsame]
      exact hcommitted

theorem InStep.acknowledge {sha256 : Text -> String} {m : Memory} (h : InStep sha256 m)
    {envelope : Envelope} (hsettled : SettledRow m.inbox envelope)
    (status : Acknowledgement) :
    InStep sha256 { m with acknowledged := m.acknowledged ++ [(envelope, status)] } := by
  refine ⟨h.rows, h.offered, h.ids, ?_, h.committed, ?_⟩
  · intro lane
    have hlane := h.lanes lane
    exact ⟨hlane.increasing, hlane.stored, hlane.staged, hlane.floor⟩
  · intro entry hentry
    rcases List.mem_append.mp hentry with hold | hnew
    · exact h.acknowledged entry hold
    · rw [List.mem_singleton.mp hnew]
      exact hsettled

theorem empty_inStep (sha256 : Text -> String) : InStep sha256 Memory.initial where
  rows row hrow := by cases hrow
  offered envelope hoffered := by cases hoffered
  ids := List.nodup_nil
  lanes lane :=
    { increasing := List.Pairwise.nil
      stored := ⟨[], rfl, Nat.zero_le 1⟩
      staged := fun row hrow => by cases hrow
      floor := Or.inl rfl }
  committed row hrow := by cases hrow
  acknowledged entry hentry := by cases hentry

/-!
## The settled rows of a lane
-/

theorem InStep.offeredIn_nodup {sha256 : Text -> String} {m : Memory}
    (h : InStep sha256 m) (lane : Lane) :
    ((offeredIn m lane).map (fun envelope => envelope.messageId)).Nodup :=
  h.ids.sublist ((List.filter_sublist).map _)

theorem InStep.settledIn_offered {sha256 : Text -> String} {m : Memory}
    (h : InStep sha256 m) (lane : Lane) :
    (settledIn m.inbox lane).map (fun row => row.envelope) <+: offeredIn m lane := by
  have hlane := h.lanes lane
  have hnodup := h.offeredIn_nodup lane
  rcases hlane.stored with ⟨rest, hrest, _⟩
  have hstaged : forall row, row ∈ rowsIn m.inbox lane -> row.status = .staged ->
      (offeredIn m lane).getLast? = some row.envelope := by
    intro row hrow hstatus
    rcases mem_rowsIn.mp hrow with ⟨hrow, hrowLane⟩
    exact hlane.staged row hrow hrowLane hstatus
  unfold settledIn
  rw [← hrest] at hnodup hstaged ⊢
  generalize rowsIn m.inbox lane = rows at hnodup hstaged ⊢
  rcases List.eq_nil_or_concat' rows with rfl | ⟨older, newest, rfl⟩
  · exact List.nil_prefix
  · -- an older row is not the last one offered, so it is settled
    have holder : older.filter (fun row => row.status != .staged) = older := by
      rw [List.filter_eq_self]
      intro row hrow
      by_contra hstatus
      have hlast := hstaged row (List.mem_append_left _ hrow) (by simpa using hstatus)
      rw [List.map_append, List.append_assoc] at hlast
      simp only [List.map_append, List.append_assoc] at hnodup
      have hmem : row.envelope ∈ [newest].map (fun row => row.envelope) ++ rest := by
        rw [List.getLast?_append_of_ne_nil _ (by simp)] at hlast
        exact List.mem_of_getLast? hlast
      exact (List.nodup_append'.mp hnodup).2.2
        (List.mem_map.mpr ⟨row.envelope, List.mem_map.mpr ⟨row, hrow, rfl⟩, rfl⟩)
        (by rw [← List.map_append]; exact List.mem_map.mpr ⟨row.envelope, hmem, rfl⟩)
    rw [List.filter_append, holder, List.map_append, List.map_append, List.append_assoc]
    rw [List.prefix_append_right_inj]
    cases hstatus : newest.status != InboxStatus.staged with
    | true => simp [hstatus]
    | false => simp [hstatus]

end Ump.Delivery
