import Ump.Delivery.Lanes

/-!
# Retries complete the hand-over

## Attempts one at a time

An attempt may end anywhere. What it leaves behind is completed by the next one.
-/

namespace Ump.Delivery

open Foundation

def sqliteConfig (sha256 : Text -> String) : Config where
  protector := .sqlite
  sha256 := sha256

/-- Attempts do not overlap, and each is one that the sender may make. -/
def InTurn : Condition Memory Task Reading Entry
  | m, ts, .spawn (.connect peerId envelope) =>
      (forall t, t ∈ ts -> t.attempt? = none) ∧ peerId = envelope.sourceId ∧
        Offers m envelope
  | _, _, _ => True

def Storable : Condition Memory Task Reading Entry
  | _, _, .spawn (.connect _ envelope) => Keepable envelope
  | _, _, _ => True

def Task.remaining : Task -> Nat
  | .receive _ _ => 5
  | .enqueue _ => 4
  | .accept _ _ => 3
  | .containsExact _ => 2
  | .discardStaged _ => 2
  | .activate _ _ => 1
  | _ => 0

/-- The attempt comes nearer to its end, or sends its acknowledgement. -/
def Advances (config : Config) (m : Memory) (t : Task) (r : Reading) : Prop :=
  (exists m' t', exec config m t r = (m', .next [t']) ∧ t'.attempt? = t.attempt? ∧
    t'.remaining < t.remaining ∧ m'.acknowledged = m.acknowledged) ∨
  exists envelope status, t.attempt? = some envelope ∧
    exec config m t r =
      ({ m with acknowledged := m.acknowledged ++ [(envelope, status)] }, .next [])

structure HandsOver (config : Config) (p : Pool Memory Task) : Prop where
  advances : forall i t, p.nextTask i = some t -> t.attempt?.isSome = true ->
    forall r, Advances config p.shared t r
  answers : forall i t envelope r, p.nextTask i = some t -> t.attempt? = some envelope ->
    exists count q status,
      (machine config).run p (List.replicate count (.run i r)) = some q ∧
      q.shared.acknowledged = p.shared.acknowledged ++ [(envelope, status)]
  inOrder : forall lane, (settledIn p.shared.inbox lane).map (fun row => row.envelope) <+:
    offeredIn p.shared lane
  once : forall lane, ((settledIn p.shared.inbox lane).map
    (fun row => row.envelope.messageId)).Nodup
  contains : forall entry, entry ∈ p.shared.acknowledged ->
    entry.1 ∈ (settledIn p.shared.inbox (laneOf entry.1)).map (fun row => row.envelope)
  committed : forall row, p.shared.inbox.claimable = some row ->
    row.sequence ≤ p.shared.floors.floor row.lane

/-!
## The invariant
-/

def Ready (m : Memory) : Task -> Prop
  | .receive peerId envelope => peerId = envelope.sourceId ∧ Offers m envelope ∧
      Keepable envelope
  | .enqueue envelope => Last m envelope
  | .accept envelope isNew => Stored m.inbox envelope ∧ envelope ∈ m.offered ∧
      (isNew = true -> m.floors.floor (laneOf envelope) < envelope.sequence)
  | .containsExact envelope => Stored m.inbox envelope ∧
      envelope.sequence ≤ m.floors.floor (laneOf envelope)
  | .discardStaged _ => False
  | .activate envelope _ => Stored m.inbox envelope ∧
      envelope.sequence ≤ m.floors.floor (laneOf envelope)
  | .acknowledge envelope _ => SettledRow m.inbox envelope
  | .finish messageId => exists row, row ∈ m.inbox.rows ∧ row.messageId = messageId ∧
      row.status ≠ .staged
  | .claim => True

structure Busy (sha256 : Text -> String) (m : Memory) (ts : Multiset Task) : Prop where
  inStep : InStep sha256 m
  single : (ts.filterMap Task.attempt?).card ≤ 1
  ready : forall t, t ∈ ts -> Ready m t

theorem workers_of_single {t : Task} {ts : Multiset Task} {envelope : Envelope}
    (ht : t.attempt? = some envelope)
    (hsingle : ((t ::ₘ ts).filterMap Task.attempt?).card ≤ 1) (t' : Task) (ht' : t' ∈ ts) :
    t'.attempt? = none := by
  rw [Multiset.filterMap_cons_some _ _ _ ht, Multiset.card_cons] at hsingle
  have hnone : ts.filterMap Task.attempt? = 0 :=
    Multiset.card_eq_zero.mp (by omega)
  cases hattempt : t'.attempt? with
  | none => rfl
  | some other =>
      have hmem : other ∈ ts.filterMap Task.attempt? :=
        (Multiset.mem_filterMap _ _).mpr ⟨t', ht', hattempt⟩
      rw [hnone] at hmem
      cases Multiset.notMem_zero other hmem

theorem card_filterMap_workers {ts : Multiset Task}
    (hworkers : forall t, t ∈ ts -> t.attempt? = none) :
    (ts.filterMap Task.attempt?).card = 0 := by
  rw [Multiset.card_eq_zero, Multiset.eq_zero_iff_forall_notMem]
  intro envelope hmem
  rcases (Multiset.mem_filterMap _ _).mp hmem with ⟨t, ht, hattempt⟩
  rw [hworkers t ht] at hattempt
  cases hattempt

def KeepsSettled (inbox inbox' : Inbox) : Prop :=
  forall row, row ∈ inbox.rows -> row.status ≠ .staged ->
    exists row', row' ∈ inbox'.rows ∧ row'.messageId = row.messageId ∧
      row'.status ≠ .staged

theorem KeepsSettled.refl (inbox : Inbox) : KeepsSettled inbox inbox :=
  fun row hrow hsettled => ⟨row, hrow, rfl, hsettled⟩

theorem keepsSettled_setStatus (inbox : Inbox) (p : InboxRow -> Bool)
    {status : InboxStatus} (hstatus : status ≠ .staged) :
    KeepsSettled inbox (inbox.setStatus p status) := by
  intro row hrow hsettled
  refine ⟨{ row with status := if p row then status else row.status }, ?_, rfl, ?_⟩
  · rw [Inbox.rows_setStatus]
    exact List.mem_map.mpr ⟨row, hrow, rfl⟩
  · by_cases hselected : p row = true
    · simpa [hselected] using hstatus
    · simpa [hselected] using hsettled

theorem Ready.worker {m m' : Memory} {t : Task} (h : Ready m t)
    (hworker : t.attempt? = none) (hkept : KeepsSettled m.inbox m'.inbox) : Ready m' t := by
  cases t with
  | claim => trivial
  | finish messageId =>
      rcases h with ⟨row, hrow, hid, hsettled⟩
      rcases hkept row hrow hsettled with ⟨row', hrow', hid', hsettled'⟩
      exact ⟨row', hrow', hid'.trans hid, hsettled'⟩
  | _ => cases hworker

theorem Stored.setStatus {inbox : Inbox} {envelope : Envelope} (h : Stored inbox envelope)
    (p : InboxRow -> Bool) (status : InboxStatus) :
    Stored (inbox.setStatus p status) envelope := by
  rcases h with ⟨row, hrow, hsame⟩
  refine ⟨{ row with status := if p row then status else row.status }, ?_, hsame⟩
  rw [Inbox.rows_setStatus]
  exact List.mem_map.mpr ⟨row, hrow, rfl⟩

theorem SettledRow.setStatus {inbox : Inbox} {envelope : Envelope}
    (h : SettledRow inbox envelope) (p : InboxRow -> Bool) {status : InboxStatus}
    (hstatus : status ≠ .staged) : SettledRow (inbox.setStatus p status) envelope := by
  rcases h with ⟨row, hrow, hsame, hsettled⟩
  refine ⟨{ row with status := if p row then status else row.status }, ?_, hsame, ?_⟩
  · rw [Inbox.rows_setStatus]
    exact List.mem_map.mpr ⟨row, hrow, rfl⟩
  · by_cases hselected : p row = true
    · simpa [hselected] using hstatus
    · simpa [hselected] using hsettled

theorem Ready.setStatus {m : Memory} {t : Task} (h : Ready m t) (p : InboxRow -> Bool)
    {status : InboxStatus} (hstatus : status ≠ .staged) :
    Ready { m with inbox := m.inbox.setStatus p status } t := by
  cases t with
  | receive peerId envelope =>
      rcases h with ⟨hpeer, hoffers, hstorable⟩
      exact ⟨hpeer, ⟨hoffers.checked, hoffers.turn⟩, hstorable⟩
  | enqueue envelope => exact h
  | accept envelope isNew => exact ⟨h.1.setStatus p status, h.2.1, h.2.2⟩
  | containsExact envelope => exact ⟨h.1.setStatus p status, h.2⟩
  | discardStaged envelope => exact h
  | activate envelope acknowledgement => exact ⟨h.1.setStatus p status, h.2⟩
  | acknowledge envelope acknowledgement =>
      exact SettledRow.setStatus h p hstatus
  | claim => trivial
  | finish messageId =>
      rcases h with ⟨row, hrow, hid, hsettled⟩
      rcases keepsSettled_setStatus m.inbox p hstatus row hrow hsettled with
        ⟨row', hrow', hid', hsettled'⟩
      exact ⟨row', hrow', hid'.trans hid, hsettled'⟩

/-!
## Steps of an attempt and of a worker
-/

theorem Busy.next {sha256 : Text -> String} {m m' : Memory} {ts : Multiset Task}
    {t' : Task} (hinStep : InStep sha256 m')
    (hworkers : forall t, t ∈ ts -> t.attempt? = none ∧ Ready m t)
    (hkept : KeepsSettled m.inbox m'.inbox) (hready : Ready m' t') :
    Busy sha256 m' (t' ::ₘ ts) := by
  have hcard := card_filterMap_workers (fun t ht => (hworkers t ht).1)
  refine ⟨hinStep, ?_, ?_⟩
  · cases hattempt : t'.attempt? with
    | none =>
        rw [Multiset.filterMap_cons_none _ _ hattempt, hcard]
        exact Nat.zero_le 1
    | some envelope =>
        rw [Multiset.filterMap_cons_some _ _ _ hattempt, Multiset.card_cons, hcard]
  · intro t ht
    rcases Multiset.mem_cons.mp ht with rfl | ht
    · exact hready
    · exact (hworkers t ht).2.worker (hworkers t ht).1 hkept

theorem Busy.work {sha256 : Text -> String} {m : Memory} {ts : Multiset Task}
    (h : Busy sha256 m ts) (p : InboxRow -> Bool) (status : InboxStatus)
    (hstatus : status ≠ .staged)
    (hp : forall row, row ∈ m.inbox.rows -> p row = true -> row.status ≠ .staged) :
    Busy sha256 { m with inbox := m.inbox.setStatus p status } ts := by
  refine ⟨?_, h.single, fun t ht => (h.ready t ht).setStatus p hstatus⟩
  apply h.inStep.setStatus p status hstatus
  intro row hrow hselected hstaged
  exact absurd hstaged (hp row hrow hselected)

theorem Busy.drop {sha256 : Text -> String} {m : Memory} {ts ts' : Multiset Task}
    (h : Busy sha256 m ts) (hle : ts' ≤ ts) : Busy sha256 m ts' where
  inStep := h.inStep
  single := le_trans (Multiset.card_le_card (Multiset.filterMap_le_filterMap _ hle)) h.single
  ready t ht := h.ready t (Multiset.mem_of_le hle ht)

theorem InStep.stored_of_bound {sha256 : Text -> String} {m : Memory}
    (h : InStep sha256 m) {envelope : Envelope} (hoffered : envelope ∈ m.offered)
    {row : InboxRow} (hbound : Bound (sqliteConfig sha256) m.inbox envelope row) :
    Stored m.inbox envelope :=
  ⟨row, hbound.1, h.row_envelope hbound.1 hoffered hbound.2.1⟩

theorem Busy.staged {sha256 : Text -> String} {m : Memory} {ts : Multiset Task}
    {envelope : Envelope} {inbox : Inbox} {body : Text} (h : InStep sha256 m)
    (hworkers : forall t, t ∈ ts -> t.attempt? = none ∧ Ready m t) (hlast : Last m envelope)
    (hbody : envelope.encode = .ok body)
    (hnew : forall row, row ∈ m.inbox.rows -> row.messageId ≠ envelope.messageId)
    (hrows : inbox.rows = m.inbox.rows ++ [Inbox.newRow envelope (sha256 body) .staged]) :
    Busy sha256 { m with inbox := inbox } (.accept envelope true ::ₘ ts) := by
  apply Busy.next (h.stage hbody hlast hnew hrows) hworkers
  · intro row hrow hsettled
    refine ⟨row, ?_, rfl, hsettled⟩
    show row ∈ inbox.rows
    rw [hrows]
    exact List.mem_append_left _ hrow
  · refine ⟨⟨Inbox.newRow envelope (sha256 body) .staged, ?_, rfl⟩, Last.mem hlast, ?_⟩
    · show _ ∈ inbox.rows
      rw [hrows]
      exact List.mem_append_right _ (List.mem_singleton.mpr rfl)
    · intro _
      apply LaneInStep.floor_lt h (List.mem_of_getLast? hlast)
      intro row hrow _ hsame
      exact hnew row hrow (by rw [(h.rows row hrow).messageId, hsame])

theorem Busy.activated {sha256 : Text -> String} {m : Memory} {ts : Multiset Task}
    {envelope : Envelope} (h : InStep sha256 m)
    (hworkers : forall t, t ∈ ts -> t.attempt? = none ∧ Ready m t)
    (hstored : Stored m.inbox envelope)
    (hfloor : envelope.sequence ≤ m.floors.floor (laneOf envelope)) (status : Acknowledgement) :
    Busy sha256 { m with inbox := m.inbox.activate envelope.messageId }
      (.acknowledge envelope status ::ₘ ts) := by
  rcases hstored with ⟨row, hrow, hsame⟩
  have hwellFormed := h.rows row hrow
  have hid : row.messageId = envelope.messageId := by
    rw [hwellFormed.messageId, hsame]
  have hinStep : InStep sha256 { m with inbox := m.inbox.activate envelope.messageId } := by
    apply h.setStatus _ _ (by decide)
    intro other hother hselected _
    simp only [Bool.and_eq_true, beq_iff_eq] at hselected
    rw [Inbox.eq_of_messageId hother hrow (hselected.1.trans hid.symm),
      hwellFormed.sequence, hwellFormed.lane, hsame]
    exact hfloor
  apply Busy.next hinStep hworkers
  · exact keepsSettled_setStatus _ _ (by decide)
  · refine ⟨{ row with
      status := if row.status == .staged then .received else row.status }, ?_, hsame, ?_⟩
    · unfold Inbox.activate
      rw [Inbox.rows_setStatus]
      exact List.mem_map.mpr ⟨row, hrow, by simp [hid]⟩
    · by_cases hstaged : row.status = .staged
      · simp [hstaged]
      · simp [hstaged]

theorem Busy.claimed {sha256 : Text -> String} {m : Memory} {ts : Multiset Task}
    {row : InboxRow} {inbox : Inbox} (h : Busy sha256 m ts)
    (hclaim : m.inbox.claim = (some row, inbox)) :
    Busy sha256 { m with inbox := inbox } (.finish row.messageId ::ₘ ts) := by
  rcases Inbox.claim_eq_some hclaim with ⟨hrow, hreceived, rfl⟩
  have hsettled : row.status ≠ .staged := by
    rw [hreceived]
    decide
  have hbusy := h.work
    (fun other => other.messageId == row.messageId) .processing (by decide) ?_
  · refine ⟨hbusy.inStep, ?_, ?_⟩
    · rw [Multiset.filterMap_cons_none _ _ rfl]
      exact hbusy.single
    · intro t ht
      rcases Multiset.mem_cons.mp ht with rfl | ht
      · exact keepsSettled_setStatus m.inbox _ (by decide) row hrow hsettled
      · exact hbusy.ready t ht
  · intro other hother hselected
    rw [Inbox.eq_of_messageId hother hrow (by simpa using hselected)]
    exact hsettled

theorem busy_keeps (sha256 : Text -> String) :
    (machine (sqliteConfig sha256)).Keeps (InTurn.both Storable) (fun _ _ => True)
      (Busy sha256) where
  drop := Busy.drop
  spawn {m ts entry} _ h hcondition := by
    cases entry with
    | work =>
        rw [add_comm]
        refine ⟨h.inStep, ?_, ?_⟩
        · show ((Task.claim ::ₘ ts).filterMap Task.attempt?).card ≤ 1
          rw [Multiset.filterMap_cons_none _ _ rfl]
          exact h.single
        · intro t ht
          rcases Multiset.mem_cons.mp ht with rfl | ht
          · trivial
          · exact h.ready t ht
    | connect peerId envelope =>
        rcases hcondition with ⟨⟨hworkers, hpeer, hoffers⟩, hstorable⟩
        rw [add_comm]
        exact Busy.next h.inStep (fun t ht => ⟨hworkers t ht, h.ready t ht⟩)
          (KeepsSettled.refl _) ⟨hpeer, hoffers, hstorable⟩
  crash {m ts} _ h := by
    have hreopened : Busy sha256 { m with inbox := m.inbox.reopen } 0 := by
      apply (h.drop (Multiset.zero_le ts)).work _ _ (by decide)
      intro row _ hprocessing hstaged
      rw [hstaged] at hprocessing
      cases hprocessing
    exact hreopened
  exec {m t ts r} _ h _ := by
    have hrest : Busy sha256 m ts := h.drop (Multiset.le_cons_self ts t)
    have hready : Ready m t := h.ready t (Multiset.mem_cons_self t ts)
    have hothers : forall envelope, t.attempt? = some envelope ->
        forall t', t' ∈ ts -> t'.attempt? = none ∧ Ready m t' := by
      intro envelope ht t' ht'
      exact ⟨workers_of_single ht h.single t' ht', hrest.ready t' ht'⟩
    show Busy sha256 (exec (sqliteConfig sha256) m t r).1
      (((exec (sqliteConfig sha256) m t r).2.tasks : Multiset Task) + ts)
    generalize hresult : exec (sqliteConfig sha256) m t r = result
    have heffect : Effect (sqliteConfig sha256) m t result :=
      hresult ▸ exec_effect (sqliteConfig sha256) m t r
    cases heffect with
    | raised t => exact (zero_add ts).symm ▸ hrest
    | @received peerId envelope _ =>
        rcases hready with ⟨_, hoffers, hstorable⟩
        rcases h.inStep.offer hoffers hstorable with ⟨hinStep, hlast⟩
        exact Busy.next hinStep (hothers envelope rfl) (KeepsSettled.refl _) hlast
    | @found envelope row hbound =>
        have hoffered := Last.mem hready
        exact Busy.next h.inStep (hothers envelope rfl) (KeepsSettled.refl _)
          ⟨h.inStep.stored_of_bound hoffered hbound, hoffered, by simp⟩
    | @staged envelope inbox body hbody hnew hrows =>
        exact Busy.staged h.inStep (hothers envelope rfl) hready hbody hnew hrows
    | replayed envelope isNew hfloor =>
        cases isNew with
        | true => exact absurd (hready.2.2 rfl) (not_lt_of_ge hfloor)
        | false =>
            exact Busy.next h.inStep (hothers envelope rfl) (KeepsSettled.refl _)
              ⟨hready.1, hfloor⟩
    | @accepted envelope isNew floors hfloor hcommit =>
        rcases bind_eq_ok.mp hcommit with ⟨_, _, hok⟩
        cases hok
        apply Busy.next (h.inStep.raiseTo hready.1 hfloor) (hothers envelope rfl)
          (KeepsSettled.refl _)
        refine ⟨hready.1, ?_⟩
        show envelope.sequence ≤ Floors.floor (m.floors.raiseTo _ _) _
        rw [Floors.floor_raiseTo_self]
    | @contained envelope row hbound =>
        exact Busy.next h.inStep (hothers envelope rfl) (KeepsSettled.refl _) hready
    | discarded envelope => exact absurd hready not_false
    | activated envelope status =>
        exact Busy.activated h.inStep (hothers envelope rfl) hready.1 hready.2 status
    | acknowledged envelope status =>
        rw [Flow.tasks_next, Multiset.coe_nil, zero_add]
        refine ⟨h.inStep.acknowledge hready status, hrest.single, ?_⟩
        intro t' ht'
        exact (hrest.ready t' ht').worker (hothers envelope rfl t' ht').1
          (KeepsSettled.refl _)
    | idle => exact (zero_add ts).symm ▸ hrest
    | @claimed row inbox hclaim =>
        exact hrest.claimed hclaim
    | finished messageId raised =>
        rw [Flow.tasks_next, Multiset.coe_nil, zero_add]
        rcases hready with ⟨row, hrow, hid, hsettled⟩
        apply hrest.work _ _ (by cases raised <;> decide)
        intro other hother hselected
        rw [Inbox.eq_of_messageId hother hrow ((by simpa using hselected :
          other.messageId = messageId).trans hid.symm)]
        exact hsettled

theorem initial_busy (sha256 : Text -> String) : Busy sha256 Memory.initial 0 where
  inStep := empty_inStep sha256
  single := Nat.zero_le 1
  ready t ht := by cases Multiset.notMem_zero t ht

theorem reaches_busy {sha256 : Text -> String} {p : Pool Memory Task}
    (h : (machine (sqliteConfig sha256)).Reaches (InTurn.both Storable) initial p) :
    Busy sha256 p.shared p.tasks :=
  (busy_keeps sha256).reaches h (fun _ _ => trivial) (initial_busy sha256)

/-!
## No step of an attempt is refused
-/

theorem Sendable.bindInteger_ok {envelope : Envelope} (h : Sendable envelope) :
    bindInteger envelope.sequence = .ok () := by
  have hpositive := h.positive
  unfold bindInteger
  exact if_pos ⟨by omega, h.storable⟩

theorem InStep.enqueue_ok {sha256 : Text -> String} {m : Memory} (h : InStep sha256 m)
    {envelope : Envelope} (hlast : Last m envelope) :
    exists isNew inbox, m.inbox.enqueue sha256 envelope false = .ok (isNew, inbox) := by
  have hsendable := h.offered envelope hlast.mem
  rcases hsendable.encoded with ⟨body, hbody⟩
  by_cases hfound : exists row, row ∈ m.inbox.rows ∧ row.messageId = envelope.messageId
  · rcases hfound with ⟨row, hrow, hid⟩
    have hsame := h.row_envelope hrow hlast.mem hid
    rcases (h.rows row hrow).digest with ⟨stored, hstored, hdigest⟩
    rw [hsame, hbody] at hstored
    cases hstored
    exact ⟨false, m.inbox, Inbox.enqueue_of_mem false hbody hrow hid hdigest⟩
  · have hfresh : forall row, row ∈ m.inbox.rows -> row.messageId ≠ envelope.messageId :=
      fun row hrow hid => hfound ⟨row, hrow, hid⟩
    have hlane : forall row, row ∈ m.inbox.rows -> row.lane = laneOf envelope ->
        row.sequence ≠ envelope.sequence := by
      intro row hrow hrowLane hsequence
      have hincreasing := (h.lanes (laneOf envelope)).increasing
      rw [← (h.lanes (laneOf envelope)).missing (List.mem_of_getLast? hlast)
        (fun other hother _ hsame => hfresh other hother
          (by rw [(h.rows other hother).messageId, hsame])),
        List.pairwise_append] at hincreasing
      have hlt := hincreasing.2.2 row.envelope
        (List.mem_map.mpr ⟨row, mem_rowsIn.mpr ⟨hrow, hrowLane⟩, rfl⟩) envelope
        (List.mem_singleton.mpr rfl)
      rw [← (h.rows row hrow).sequence, hsequence] at hlt
      exact lt_irrefl _ hlt
    rcases Inbox.enqueue_of_fresh false hbody hsendable.bindInteger_ok hfresh hlane with
      ⟨inbox, hinbox⟩
    exact ⟨true, inbox, hinbox⟩

theorem InStep.advances {sha256 : Text -> String} {m : Memory} (h : InStep sha256 m)
    {t : Task} (hready : Ready m t) (hattempt : t.attempt?.isSome = true) (r : Reading) :
    Advances (sqliteConfig sha256) m t r := by
  cases t with
  | receive peerId envelope =>
      rcases hready with ⟨rfl, hoffers, _⟩
      left
      refine ⟨{ m with offered := recordOffer m.offered envelope }, .enqueue envelope, ?_,
        rfl, by simp [Task.remaining], rfl⟩
      rw [exec, checkReceived, hoffers.checked]
      simp only [bind, Except.bind, ne_eq, not_true_eq_false, decide_false]
      rfl
  | enqueue envelope =>
      rcases h.enqueue_ok hready with ⟨isNew, inbox, hinbox⟩
      left
      exact ⟨{ m with inbox := inbox }, .accept envelope isNew,
        by rw [exec]; simp only [sqliteConfig, hinbox]; rfl, rfl, by simp [Task.remaining], rfl⟩
  | accept envelope isNew =>
      left
      by_cases hfloor : envelope.sequence ≤ m.floors.floor (laneOf envelope)
      · cases isNew with
        | true => exact absurd (hready.2.2 rfl) (not_lt_of_ge hfloor)
        | false =>
            exact ⟨m, .containsExact envelope, by rw [exec, if_pos hfloor]; rfl, rfl,
              by simp [Task.remaining], rfl⟩
      · have hstorable := (h.offered envelope hready.2.1).bindInteger_ok
        refine ⟨{ m with
            floors := m.floors.raiseTo (laneOf envelope) envelope.sequence },
          .activate envelope (if isNew then .received else .duplicate), ?_, rfl,
          by simp [Task.remaining], rfl⟩
        rw [exec, if_neg hfloor]
        simp only [Floors.commit, sqliteConfig, hstorable, bind, Except.bind, attempt]
  | containsExact envelope =>
      rcases hready with ⟨⟨row, hrow, rfl⟩, _⟩
      rcases (h.rows row hrow).digest with ⟨body, hbody, hdigest⟩
      left
      refine ⟨m, .activate row.envelope .duplicate, ?_, rfl, by simp [Task.remaining], rfl⟩
      rw [exec]
      simp only [sqliteConfig, Inbox.containsExact_of_mem hbody hrow
        (h.rows row hrow).messageId hdigest, attempt, if_true]
  | discardStaged envelope => exact absurd hready not_false
  | activate envelope status =>
      left
      exact ⟨_, .acknowledge envelope status, rfl, rfl, by simp [Task.remaining], rfl⟩
  | acknowledge envelope status =>
      right
      exact ⟨envelope, status, rfl, rfl⟩
  | _ => cases hattempt

theorem answers_of_remaining {sha256 : Text -> String} (bound : Nat)
    {p : Pool Memory Task}
    (hp : (machine (sqliteConfig sha256)).Reaches (InTurn.both Storable) initial p)
    {i : Nat} {t : Task} {envelope : Envelope} (r : Reading)
    (hnext : p.nextTask i = some t) (hattempt : t.attempt? = some envelope)
    (hremaining : t.remaining < bound) :
    exists count q status,
      (machine (sqliteConfig sha256)).run p (List.replicate count (.run i r)) = some q ∧
      q.shared.acknowledged = p.shared.acknowledged ++ [(envelope, status)] := by
  induction bound generalizing p t with
  | zero => exact absurd hremaining (Nat.not_lt_zero _)
  | succ bound ih =>
      have hbusy := reaches_busy hp
      have hready := hbusy.ready t (Machine.nextTask_mem hnext)
      have hsome : t.attempt?.isSome = true := by rw [hattempt]; rfl
      rcases hbusy.inStep.advances hready hsome r with
        ⟨m', t', hexec, hsame, hless, hacknowledged⟩ | ⟨other, status, hother, hexec⟩
      · have hadvanced : (machine (sqliteConfig sha256)).exec p.shared t r =
            (m', .next [t']) := hexec
        rcases Machine.step_nextTask hnext hadvanced with ⟨mid, hstep, hshared, hnext'⟩
        have hmeets : Machine.Meets (InTurn.both Storable) p (.run i r) :=
          fun _ _ _ _ => ⟨trivial, trivial⟩
        have hmid := hp.tail ⟨.run i r, hmeets, hstep⟩
        rcases ih hmid hnext' (hsame.trans hattempt) (by omega) with
          ⟨count, q, status, hrun, hq⟩
        refine ⟨count + 1, q, status, ?_, ?_⟩
        · rw [List.replicate_succ, Machine.run_cons hstep]
          exact hrun
        · rw [hq, hshared, hacknowledged]
      · rw [hattempt] at hother
        cases hother
        have hanswered : (machine (sqliteConfig sha256)).exec p.shared t r =
            ({ p.shared with acknowledged := p.shared.acknowledged ++ [(envelope, status)] },
              .next []) := hexec
        rcases Machine.nextTask_eq_some hnext with ⟨rest, hthread⟩
        exact ⟨1, _, status, Machine.run_cons (Machine.step_run hthread hanswered) [], rfl⟩

/-- One receiver, attempts that do not overlap and may be cut off anywhere, envelopes that can
be encoded again and whose sequences can be stored: every attempt that goes on is acknowledged,
each lane of the inbox follows what was offered, and no worker gets ahead of the replay
floor. -/
theorem retries_complete (sha256 : Text -> String) (p : Pool Memory Task)
    (hp : (machine (sqliteConfig sha256)).Reaches (InTurn.both Storable) initial p) :
    HandsOver (sqliteConfig sha256) p := by
  have hbusy := reaches_busy hp
  have hinStep := hbusy.inStep
  constructor
  · intro i t hnext hattempt r
    exact hinStep.advances (hbusy.ready t (Machine.nextTask_mem hnext)) hattempt r
  · intro i t envelope r hnext hattempt
    exact answers_of_remaining (t.remaining + 1) hp r hnext hattempt (Nat.lt_succ_self _)
  · exact hinStep.settledIn_offered
  · intro lane
    have hprefix := (hinStep.settledIn_offered lane).map
      (fun envelope => envelope.messageId)
    have hnodup := (hinStep.offeredIn_nodup lane).sublist hprefix.sublist
    rw [List.map_map] at hnodup
    exact hnodup
  · intro entry hentry
    rcases hinStep.acknowledged entry hentry with ⟨row, hrow, hsame, hsettled⟩
    refine List.mem_map.mpr ⟨row, ?_, hsame⟩
    refine List.mem_filter.mpr ⟨mem_rowsIn.mpr ⟨hrow, ?_⟩, by simpa using hsettled⟩
    rw [(hinStep.rows row hrow).lane, hsame]
  · intro row hclaimable
    rcases Inbox.claimable_eq_some hclaimable with ⟨hrow, hstatus⟩
    exact hinStep.committed row hrow (by rw [hstatus]; decide)

/-!
## Two heartbeats

The first one is cut off after it has been staged, and its retry completes it. The
sequence of the second one is the first that SQLite cannot store.
-/

def retryMachine : Machine Memory Task Reading Entry :=
  machine (sqliteConfig String.ofList)

def connected (p : Pool Memory Task) (envelope : Envelope) : Pool Memory Task :=
  { p with threads := p.threads ++ [[.receive "r1" envelope]] }

/-- A test for the condition: no connection is opened. -/
def opensNothing (_ : Pool Memory Task) : Action Reading Entry -> Bool
  | .spawn (.connect _ _) => false
  | _ => true

theorem meets_of_opensNothing (p : Pool Memory Task) (a : Action Reading Entry)
    (h : opensNothing p a = true) : Machine.Meets (InTurn.both Storable) p a := by
  cases a with
  | spawn entry =>
      cases entry with
      | connect peerId envelope => cases h
      | work => exact ⟨trivial, trivial⟩
  | run i r => exact fun _ _ _ _ => ⟨trivial, trivial⟩
  | _ => trivial

theorem connected_step {C : Condition Memory Task Reading Entry} {p : Pool Memory Task}
    {envelope : Envelope} (h : C p.shared p.tasks (.spawn (.connect "r1" envelope))) :
    retryMachine.Step C p (connected p envelope) :=
  ⟨.spawn (.connect "r1" envelope), h, rfl⟩

theorem heartbeat_offers {m : Memory} {sequence : Int}
    (hchecked : (heartbeat sequence).checkDecoded = .ok ())
    (hoffered : m.offered = [] ∨ m.offered = [heartbeat sequence]) :
    Offers m (heartbeat sequence) := by
  refine ⟨hchecked, ?_⟩
  rcases hoffered with hnone | hone
  · right
    simp [offeredIn, hnone]
  · left
    unfold Last offeredIn
    rw [hone]
    simp

def retryFirst : List (Action Reading Entry) :=
  [.run 0 { raised := false }, .run 0 { raised := false }, .stop 0]

def retrySecond : List (Action Reading Entry) :=
  List.replicate 5 (.run 1 { raised := false }) ++ [.spawn .work, .run 2 { raised := false }]

set_option maxRecDepth 8000 in
theorem heartbeat_retried :
    exists p q, retryMachine.runWhere opensNothing (connected initial (heartbeat 1))
        retryFirst = some p ∧
      retryMachine.runWhere opensNothing (connected p (heartbeat 1)) retrySecond = some q ∧
      q.shared.inbox.rows.map (fun row => row.status) = [.processing] ∧
      q.shared.acknowledged.map (fun entry => entry.2) = [.duplicate] ∧
      HandsOver (sqliteConfig String.ofList) q := by
  have hfirst : (retryMachine.runWhere opensNothing (connected initial (heartbeat 1))
      retryFirst).map (fun p => (p.shared.offered, p.threads)) =
      some ([heartbeat 1], [[]]) := by
    rfl
  have hsecond : ((retryMachine.runWhere opensNothing (connected initial (heartbeat 1))
      retryFirst).bind (fun p => retryMachine.runWhere opensNothing
        (connected p (heartbeat 1)) retrySecond)).map
        (fun q => (q.shared.inbox.rows.map (fun row => row.status),
          q.shared.acknowledged.map (fun entry => entry.2))) =
      some ([.processing], [.duplicate]) := by
    decide
  have hsize : Text.byteSize (heartbeat 1).document.dumps ≤ maxMessageBytes := by
    decide
  have hstorable : Keepable (heartbeat 1) := ⟨by decide, _, Envelope.encode_eq_ok rfl hsize⟩
  rcases Option.map_eq_some_iff.mp hfirst with ⟨p, hp, hview⟩
  rcases Option.map_eq_some_iff.mp hsecond with ⟨q, hq, hresult⟩
  rw [hp, Option.bind_some] at hq
  simp only [Prod.mk.injEq] at hview hresult
  have hopened : retryMachine.Step (InTurn.both Storable) initial
      (connected initial (heartbeat 1)) :=
    connected_step ⟨⟨fun t ht => absurd ht (Multiset.notMem_zero t), rfl,
      heartbeat_offers rfl (Or.inl rfl)⟩, hstorable⟩
  have hagain : retryMachine.Step (InTurn.both Storable) p (connected p (heartbeat 1)) := by
    refine connected_step ⟨⟨?_, rfl, heartbeat_offers rfl (Or.inr hview.1)⟩,
      hstorable⟩
    intro t ht
    have hempty : t ∈ (p.threads.flatten : Multiset Task) := ht
    rw [hview.2] at hempty
    cases Multiset.notMem_zero t hempty
  have hreached := (Relation.ReflTransGen.single hopened).trans
    ((Machine.runWhere_reaches meets_of_opensNothing hp).trans
      (Relation.ReflTransGen.head hagain
        (Machine.runWhere_reaches meets_of_opensNothing hq)))
  exact ⟨p, q, hp, hq, hresult.1, hresult.2, retries_complete String.ofList q hreached⟩

set_option maxRecDepth 8000 in
/-- The sender keeps to its turn, and the first step into the inbox raises. -/
theorem heartbeat_overflows :
    exists p, retryMachine.Reaches InTurn initial p ∧
      p.shared.offered = [heartbeat (2 ^ 63)] ∧
      ¬ HandsOver (sqliteConfig String.ofList) p := by
  have hsize : Text.byteSize (heartbeat (2 ^ 63)).document.dumps ≤ maxMessageBytes := by
    decide
  have hopened : retryMachine.Step InTurn initial
      (connected initial (heartbeat (2 ^ 63))) :=
    connected_step ⟨fun t ht => absurd ht (Multiset.notMem_zero t), rfl,
      heartbeat_offers rfl (Or.inl rfl)⟩
  have hreceived : retryMachine.Step InTurn (connected initial (heartbeat (2 ^ 63)))
      { shared := { Memory.initial with offered := [heartbeat (2 ^ 63)] }
        threads := [[.enqueue (heartbeat (2 ^ 63))]] } :=
    ⟨.run 0 { raised := false }, fun _ _ _ _ => trivial, rfl⟩
  refine ⟨_, (Relation.ReflTransGen.single hopened).tail hreceived, rfl, ?_⟩
  intro hhandsOver
  have henqueue : Inbox.enqueue String.ofList Memory.initial.inbox (heartbeat (2 ^ 63))
      false = .error .overflow := by
    unfold Inbox.enqueue
    rw [Envelope.encode_eq_ok rfl hsize]
    rfl
  rcases hhandsOver.advances 0 (.enqueue (heartbeat (2 ^ 63))) rfl rfl { raised := false }
    with ⟨m', t', hexec, _⟩ | ⟨envelope, status, _, hexec⟩
  · rw [exec] at hexec
    simp only [sqliteConfig, henqueue, attempt] at hexec
    cases hexec
  · rw [exec] at hexec
    simp only [sqliteConfig, henqueue, attempt] at hexec
    cases hexec

end Ump.Delivery
