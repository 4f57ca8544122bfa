import Mathlib.Logic.Equiv.Basic
import Ump.Delivery.Handoff

/-!
# Acknowledged messages are durable

## What a handler relies on

A handler that has found the row of its message, or has staged it, relies on the
row until it has activated it. Only the handler that staged a row may discard it,
and it may do so while another handler has already passed the replay check.
-/

namespace Ump.Delivery

open Foundation

/-- The inbox holds the bytes of the envelope under its message id, and a worker may
have them. -/
def Held (inbox : Inbox) (envelope : Envelope) : Prop :=
  exists row, row ∈ inbox.rows ∧ row.messageId = envelope.messageId ∧
    row.envelope.encode = envelope.encode ∧ row.status ≠ .staged

/-- A staged row is not discarded while another handler is about to activate it, and
a handler that found a row passes the replay check only while a row is there. -/
def NoLateDiscard (config : Config) : Condition Memory Task Reading Entry
  | m, ts, .exec (.discardStaged envelope) _ =>
      (exists row, row ∈ m.inbox.rows ∧ row.messageId = envelope.messageId ∧
        row.status = .staged) ->
      forall other status, .activate other status ∈ ts ->
        other.messageId ≠ envelope.messageId
  | m, _, .exec (.accept envelope false) _ =>
      m.floors.floor (laneOf envelope) < envelope.sequence ->
        exists row, Bound config m.inbox envelope row
  | _, _, _ => True

def Task.newId? : Task -> Option String
  | .accept envelope true => some envelope.messageId
  | .discardStaged envelope => some envelope.messageId
  | .activate envelope .received => some envelope.messageId
  | _ => none

def Task.relied? : Task -> Option Envelope
  | .accept envelope true => some envelope
  | .discardStaged envelope => some envelope
  | .activate envelope _ => some envelope
  | _ => none

def Settled (config : Config) (inbox : Inbox) (envelope : Envelope) : Prop :=
  exists row, Bound config inbox envelope row ∧ row.status ≠ .staged

structure Sound (config : Config) (m : Memory) (ts : Multiset Task) : Prop where
  rows : forall row, row ∈ m.inbox.rows ->
    exists body, row.envelope.encode = .ok body ∧ row.digest = config.sha256 body
  once : (ts.filterMap Task.newId?).Nodup
  relied : forall t envelope, t ∈ ts -> t.relied? = some envelope ->
    exists row, Bound config m.inbox envelope row
  activated : forall envelope status, .acknowledge envelope status ∈ ts ->
    Settled config m.inbox envelope
  acknowledged : forall entry, entry ∈ m.acknowledged -> Settled config m.inbox entry.1

/-!
## What happens to a row
-/

/-- The row stays, and does not become staged again. -/
def Kept (inbox : Inbox) (row : InboxRow) : Prop :=
  exists status, { row with status := status } ∈ inbox.rows ∧
    (row.status ≠ .staged -> status ≠ .staged)

theorem Bound.kept {config : Config} {inbox inbox' : Inbox} {envelope : Envelope}
    {row : InboxRow} (h : Bound config inbox envelope row) (hkept : Kept inbox' row) :
    exists row', Bound config inbox' envelope row' := by
  rcases h with ⟨_, hid, hdigest⟩
  rcases hkept with ⟨status, hrow, _⟩
  exact ⟨_, hrow, hid, hdigest⟩

theorem Settled.kept {config : Config} {inbox inbox' : Inbox} {envelope : Envelope}
    (h : Settled config inbox envelope)
    (hkept : forall row, row ∈ inbox.rows -> row.status ≠ .staged -> Kept inbox' row) :
    Settled config inbox' envelope := by
  rcases h with ⟨row, ⟨hrow, hid, hdigest⟩, hstatus⟩
  rcases hkept row hrow hstatus with ⟨status, hrow', hsettled⟩
  exact ⟨_, ⟨hrow', hid, hdigest⟩, hsettled hstatus⟩

theorem kept_setStatus {inbox : Inbox} {p : InboxRow -> Bool} {status : InboxStatus}
    (hstatus : status ≠ .staged) {row : InboxRow} (hrow : row ∈ inbox.rows) :
    Kept (inbox.setStatus p status) row := by
  refine ⟨if p row then status else row.status, ?_, ?_⟩
  · rw [Inbox.rows_setStatus]
    exact List.mem_map.mpr ⟨row, hrow, rfl⟩
  · intro hsettled
    by_cases hp : p row = true
    · simpa [hp] using hstatus
    · simpa [hp] using hsettled

theorem kept_discardStaged {inbox : Inbox} {messageId : String} {row : InboxRow}
    (hrow : row ∈ inbox.rows) (hother : row.messageId ≠ messageId ∨ row.status ≠ .staged) :
    Kept (inbox.discardStaged messageId) row := by
  refine ⟨row.status, ?_, fun h => h⟩
  refine Table.mem_delete_iff.mpr ⟨hrow, ?_⟩
  rcases hother with hid | hstatus
  · simp [hid]
  · simp [hstatus]

/-!
## Changes of the memory and of the bag
-/

theorem Sound.drop {config : Config} {m : Memory} {ts ts' : Multiset Task}
    (h : Sound config m ts) (hle : ts' ≤ ts) : Sound config m ts' where
  rows := h.rows
  once := Multiset.nodup_of_le (Multiset.filterMap_le_filterMap _ hle) h.once
  relied t envelope ht := h.relied t envelope (Multiset.mem_of_le hle ht)
  activated envelope status ht := h.activated envelope status (Multiset.mem_of_le hle ht)
  acknowledged := h.acknowledged

theorem Sound.moved {config : Config} {m m' : Memory} {ts : Multiset Task}
    (h : Sound config m ts)
    (hkept : forall row, row ∈ m.inbox.rows -> Kept m'.inbox row)
    (hrows : forall row, row ∈ m'.inbox.rows ->
      exists body, row.envelope.encode = .ok body ∧ row.digest = config.sha256 body)
    (hacknowledged : m'.acknowledged = m.acknowledged) : Sound config m' ts where
  rows := hrows
  once := h.once
  relied t envelope ht hrelied := by
    rcases h.relied t envelope ht hrelied with ⟨row, hbound⟩
    exact hbound.kept (hkept row hbound.1)
  activated envelope status ht :=
    (h.activated envelope status ht).kept (fun row hrow _ => hkept row hrow)
  acknowledged entry hentry := by
    rw [hacknowledged] at hentry
    exact (h.acknowledged entry hentry).kept (fun row hrow _ => hkept row hrow)

theorem Sound.setStatus {config : Config} {m : Memory} {ts : Multiset Task}
    (h : Sound config m ts) (p : InboxRow -> Bool) (status : InboxStatus)
    (hstatus : status ≠ .staged) :
    Sound config { m with inbox := m.inbox.setStatus p status } ts := by
  apply h.moved
  · intro row hrow
    exact kept_setStatus hstatus hrow
  · intro row' hrow'
    rw [Inbox.rows_setStatus] at hrow'
    rcases List.mem_map.mp hrow' with ⟨row, hrow, rfl⟩
    exact h.rows row hrow
  · rfl

theorem Sound.stage {config : Config} {m : Memory} {ts : Multiset Task} {inbox : Inbox}
    {envelope : Envelope} {body : Text} (h : Sound config m ts)
    (hbody : envelope.encode = .ok body)
    (hrows : inbox.rows =
      m.inbox.rows ++ [Inbox.newRow envelope (config.sha256 body) .staged]) :
    Sound config { m with inbox := inbox } ts := by
  apply h.moved
  · intro row hrow
    refine ⟨row.status, ?_, fun hstatus => hstatus⟩
    show row ∈ inbox.rows
    rw [hrows]
    exact List.mem_append_left _ hrow
  · intro row hrow
    have hmem : row ∈ m.inbox.rows ++
        [Inbox.newRow envelope (config.sha256 body) .staged] := hrows ▸ hrow
    rcases List.mem_append.mp hmem with hold | hnew
    · exact h.rows row hold
    · rw [List.mem_singleton.mp hnew]
      exact ⟨body, hbody, rfl⟩
  · rfl

theorem Sound.add {config : Config} {m : Memory} {ts : Multiset Task} {t : Task}
    (h : Sound config m ts)
    (honce : ((t ::ₘ ts).filterMap Task.newId?).Nodup)
    (hrelied : forall envelope, t.relied? = some envelope ->
      exists row, Bound config m.inbox envelope row)
    (hactivated : forall envelope status, t = .acknowledge envelope status ->
      Settled config m.inbox envelope) : Sound config m (t ::ₘ ts) where
  rows := h.rows
  once := honce
  relied t' envelope ht' := by
    rcases Multiset.mem_cons.mp ht' with rfl | hold
    · exact hrelied envelope
    · exact h.relied t' envelope hold
  activated envelope status ht' := by
    rcases Multiset.mem_cons.mp ht' with hnew | hold
    · exact hactivated envelope status hnew.symm
    · exact h.activated envelope status hold
  acknowledged := h.acknowledged

theorem Sound.addFree {config : Config} {m : Memory} {ts : Multiset Task} {t : Task}
    (h : Sound config m ts) (hnew : t.newId? = none) (hrelied : t.relied? = none)
    (hactivated : forall envelope status, t ≠ .acknowledge envelope status) :
    Sound config m (t ::ₘ ts) := by
  apply h.add
  · rw [Multiset.filterMap_cons_none _ _ hnew]
    exact h.once
  · intro envelope hsome
    rw [hrelied] at hsome
    cases hsome
  · intro envelope status hsame
    exact absurd hsame (hactivated envelope status)

theorem Sound.discard {config : Config} {m : Memory} {ts : Multiset Task}
    {envelope : Envelope} (h : Sound config m (.discardStaged envelope ::ₘ ts))
    (hcondition : (exists row, row ∈ m.inbox.rows ∧ row.messageId = envelope.messageId ∧
        row.status = .staged) ->
      forall other status, .activate other status ∈ ts ->
        other.messageId ≠ envelope.messageId) :
    Sound config { m with inbox := m.inbox.discardStaged envelope.messageId } ts := by
  have hrest : Sound config m ts := h.drop (Multiset.le_cons_self ts _)
  have honce : envelope.messageId ∉ ts.filterMap Task.newId? := by
    have hnodup := h.once
    rw [Multiset.filterMap_cons_some Task.newId? _ _ rfl] at hnodup
    exact (Multiset.nodup_cons.mp hnodup).1
  have hsettled : forall row, row ∈ m.inbox.rows -> row.status ≠ .staged ->
      Kept (m.inbox.discardStaged envelope.messageId) row :=
    fun row hrow hstatus => kept_discardStaged hrow (Or.inr hstatus)
  constructor
  · intro row hrow
    exact h.rows row (Table.mem_delete_iff.mp hrow).1
  · exact hrest.once
  · intro t other ht hrelied
    rcases hrest.relied t other ht hrelied with ⟨row, hbound⟩
    refine hbound.kept (kept_discardStaged hbound.1 ?_)
    by_contra hboth
    rcases not_or.mp hboth with ⟨hid, hstaged⟩
    have hsame : other.messageId = envelope.messageId := by
      rw [← hbound.2.1]
      exact not_not.mp hid
    have hnoNew : t.newId? ≠ some envelope.messageId := by
      intro hnew
      exact honce ((Multiset.mem_filterMap _ _).mpr ⟨t, ht, hnew⟩)
    -- whoever relies on the row has staged it too, or is about to activate it
    cases t with
    | accept other' isNew =>
        cases isNew with
        | true =>
            cases hrelied
            exact hnoNew (congrArg some hsame)
        | false => cases hrelied
    | discardStaged other' =>
        cases hrelied
        exact hnoNew (congrArg some hsame)
    | activate other' status =>
        cases hrelied
        exact hcondition ⟨row, hbound.1, not_not.mp hid, not_not.mp hstaged⟩ _ _ ht hsame
    | _ => cases hrelied
  · intro other status ht
    exact (hrest.activated other status ht).kept hsettled
  · intro entry hentry
    exact (hrest.acknowledged entry hentry).kept hsettled

theorem settled_activate {config : Config} {inbox : Inbox} {envelope : Envelope}
    {row : InboxRow} (h : Bound config inbox envelope row) :
    Settled config (inbox.activate envelope.messageId) envelope := by
  rcases h with ⟨hrow, hid, hdigest⟩
  refine ⟨{ row with status := if row.status == .staged then .received else row.status },
    ⟨?_, hid, hdigest⟩, ?_⟩
  · unfold Inbox.activate
    rw [Inbox.rows_setStatus]
    exact List.mem_map.mpr ⟨row, hrow, by simp [hid]⟩
  · by_cases hstaged : row.status = .staged
    · simp [hstaged]
    · simp [hstaged]

/-!
## The invariant over runs
-/

theorem sound_keeps (config : Config) :
    (machine config).Keeps (NoLateDiscard config) (fun _ _ => True) (Sound config) where
  drop := Sound.drop
  spawn {m ts entry} _ h _ := by
    cases entry with
    | connect peerId envelope =>
        rw [add_comm]
        exact h.addFree rfl rfl (fun _ _ => by simp)
    | work =>
        rw [add_comm]
        exact h.addFree rfl rfl (fun _ _ => by simp)
  crash {m ts} _ h := by
    have hreopened : Sound config { m with inbox := m.inbox.reopen } 0 :=
      (h.drop (Multiset.zero_le ts)).setStatus _ _ (by decide)
    exact ⟨hreopened.rows, hreopened.once, hreopened.relied, hreopened.activated,
      hreopened.acknowledged⟩
  exec {m t ts r} _ h hcondition := by
    have hrest : Sound config m ts := h.drop (Multiset.le_cons_self ts t)
    show Sound config (exec config m t r).1
      (((exec config m t r).2.tasks : Multiset Task) + ts)
    generalize hresult : exec config m t r = result
    have heffect : Effect config m t result := hresult ▸ exec_effect config m t r
    cases heffect with
    | raised t => exact (zero_add ts).symm ▸ hrest
    | @received peerId envelope _ =>
        have hmoved : Sound config
            { m with offered := recordOffer m.offered envelope } ts :=
          ⟨hrest.rows, hrest.once, hrest.relied, hrest.activated, hrest.acknowledged⟩
        exact hmoved.addFree rfl rfl (fun _ _ => by simp)
    | found _ => exact hrest.addFree rfl rfl (fun _ _ => by simp)
    | @staged envelope inbox body hbody hnew hrows =>
        apply (hrest.stage hbody hrows).add
        · -- no handler has staged this message, since there was no row
          rw [Multiset.filterMap_cons_some Task.newId? _ _ rfl, Multiset.nodup_cons]
          refine ⟨?_, hrest.once⟩
          intro hmem
          rcases (Multiset.mem_filterMap _ _).mp hmem with ⟨t, ht, hid⟩
          have hfound : exists other, t.relied? = some other ∧
              other.messageId = envelope.messageId := by
            cases t with
            | accept other isNew =>
                cases isNew with
                | true => exact ⟨other, rfl, Option.some.inj hid⟩
                | false => cases hid
            | discardStaged other => exact ⟨other, rfl, Option.some.inj hid⟩
            | activate other status =>
                cases status with
                | received => exact ⟨other, rfl, Option.some.inj hid⟩
                | duplicate => cases hid
            | _ => cases hid
          rcases hfound with ⟨other, hrelied, hsame⟩
          rcases hrest.relied t other ht hrelied with ⟨row, hrow, hrowId, _⟩
          exact hnew row hrow (hrowId.trans hsame)
        · intro other hother
          cases hother
          refine ⟨Inbox.newRow envelope (config.sha256 body) .staged, ?_, rfl, body, hbody, rfl⟩
          show _ ∈ inbox.rows
          rw [hrows]
          exact List.mem_append_right _ (List.mem_singleton.mpr rfl)
        · intro other status hsame
          cases hsame
    | replayed envelope isNew _ =>
        cases isNew with
        | true =>
            apply hrest.add
            · have honce := h.once
              rw [Multiset.filterMap_cons] at honce ⊢
              exact honce
            · intro other hother
              exact h.relied _ other (Multiset.mem_cons_self _ _) hother
            · intro other status hsame
              cases hsame
        | false => exact hrest.addFree rfl rfl (fun _ _ => by simp)
    | @accepted envelope isNew floors hfloor _ =>
        have hmoved : Sound config { m with floors := floors } ts :=
          ⟨hrest.rows, hrest.once, hrest.relied, hrest.activated, hrest.acknowledged⟩
        apply hmoved.add
        · have honce := h.once
          rw [Multiset.filterMap_cons] at honce ⊢
          cases isNew with
          | true => exact honce
          | false => exact honce
        · intro other hother
          cases hother
          cases isNew with
          | true => exact h.relied _ _ (Multiset.mem_cons_self _ _) rfl
          | false => exact hcondition hfloor
        · intro other status hsame
          cases hsame
    | @contained envelope row hbound =>
        apply hrest.add
        · rw [Multiset.filterMap_cons_none _ _ rfl]
          exact hrest.once
        · intro other hother
          cases hother
          exact ⟨row, hbound⟩
        · intro other status hsame
          cases hsame
    | discarded envelope =>
        rw [Flow.tasks_raised, Multiset.coe_nil, zero_add]
        exact h.discard hcondition
    | activated envelope status =>
        have hmoved : Sound config
            { m with inbox := m.inbox.activate envelope.messageId } ts :=
          hrest.setStatus _ _ (by decide)
        rcases h.relied _ envelope (Multiset.mem_cons_self _ _) rfl with ⟨row, hbound⟩
        apply hmoved.add
        · rw [Multiset.filterMap_cons_none _ _ rfl]
          exact hmoved.once
        · intro other hother
          cases hother
        · intro other status' hsame
          cases hsame
          exact settled_activate hbound
    | acknowledged envelope status =>
        rw [Flow.tasks_next, Multiset.coe_nil, zero_add]
        refine ⟨hrest.rows, hrest.once, hrest.relied, hrest.activated, ?_⟩
        intro entry hentry
        rcases List.mem_append.mp hentry with hold | hnew
        · exact hrest.acknowledged entry hold
        · rw [List.mem_singleton.mp hnew]
          exact h.activated envelope status (Multiset.mem_cons_self _ _)
    | idle => exact (zero_add ts).symm ▸ hrest
    | @claimed row inbox hclaim =>
        rcases Inbox.claim_eq_some hclaim with ⟨_, _, rfl⟩
        have hmoved := hrest.setStatus
          (fun other => other.messageId == row.messageId) .processing (by decide)
        exact hmoved.addFree rfl rfl (fun _ _ => by simp)
    | finished messageId raised =>
        rw [Flow.tasks_next, Multiset.coe_nil, zero_add]
        exact hrest.setStatus _ _ (by cases raised <;> decide)

theorem initial_sound (config : Config) : Sound config Memory.initial 0 where
  rows row hrow := by cases hrow
  once := Multiset.nodup_zero
  relied t envelope ht := by cases Multiset.notMem_zero t ht
  activated envelope status ht := by cases Multiset.notMem_zero _ ht
  acknowledged entry hentry := by cases hentry

theorem acknowledged_grows {config : Config}
    {C : Condition Memory Task Reading Entry} {p q : Pool Memory Task}
    (h : (machine config).Reaches C p q) :
    p.shared.acknowledged <+: q.shared.acknowledged := by
  have hexec : forall m t r,
      m.acknowledged <+: ((machine config).exec m t r).1.acknowledged := by
    intro m t r
    show m.acknowledged <+: (exec config m t r).1.acknowledged
    generalize hresult : exec config m t r = result
    have heffect : Effect config m t result := hresult ▸ exec_effect config m t r
    cases heffect with
    | acknowledged envelope status => exact List.prefix_append _ _
    | _ => exact List.prefix_rfl
  exact Machine.Reaches.relates (fun a b => a.acknowledged <+: b.acknowledged)
    (fun _ => List.prefix_rfl) List.IsPrefix.trans hexec (fun _ => List.prefix_rfl) h

/-- No envelope of a row has the digest of an acknowledged one unless their bytes are the
same. -/
def Distinguishes (config : Config) (m : Memory) : Prop :=
  forall row entry body other, row ∈ m.inbox.rows -> entry ∈ m.acknowledged ->
    row.envelope.encode = .ok body -> entry.1.encode = .ok other ->
      config.sha256 body = config.sha256 other -> body = other

/-- In a run in which no staged row is discarded under a handler that is about to
activate it, every acknowledged envelope is held, then and ever after. -/
theorem acknowledged_durable (config : Config) (p q : Pool Memory Task)
    (hp : (machine config).Reaches (NoLateDiscard config) initial p)
    (hq : (machine config).Reaches (NoLateDiscard config) p q)
    (hsha256 : Distinguishes config q.shared) :
    forall entry, entry ∈ p.shared.acknowledged -> Held q.shared.inbox entry.1 := by
  have hsound := (sound_keeps config).reaches (hp.trans hq) (fun _ _ => trivial)
    (initial_sound config)
  intro entry hentry
  have hlater := (acknowledged_grows hq).subset hentry
  rcases hsound.acknowledged entry hlater with
    ⟨row, ⟨hrow, hid, body, hbody, hdigest⟩, hstatus⟩
  refine ⟨row, hrow, hid, ?_, hstatus⟩
  rcases hsound.rows row hrow with ⟨stored, hstored, hstoredDigest⟩
  have hsame : stored = body :=
    hsha256 row entry stored body hrow hlater hstored hbody (hstoredDigest.symm.trans hdigest)
  rw [hstored, hbody, hsame]

/-!
## Two runs with one heartbeat

The first hand-over is cut by nothing. In the second run a retry of the same
envelope passes the replay check before the attempt that staged the row.
-/

def heartbeatBody : Text :=
  ("\x7b\"correlation_id\":null,\"message_id\":\"m\",\"message_type\":\"state\"," ++
    "\"payload\":\x7b\x7d,\"protocol\":\"ump/0.1\",\"sequence\":1," ++
    "\"session_id\":\"s\",\"source_id\":\"r1\",\"timestamp_ms\":0\x7d").toList

def heartbeatDigest : Text :=
  "3535c98e564f4991dce85c851ed2a2beeb3d44bd35361f493488568db248bb3b".toList

def heartbeatConfig : Config where
  protector := .sqlite
  sha256 text := String.ofList (Equiv.swap heartbeatBody heartbeatDigest text)

theorem heartbeat_distinguishes (m : Memory) : Distinguishes heartbeatConfig m :=
  fun _ _ _ _ _ _ _ _ h =>
    (Equiv.swap heartbeatBody heartbeatDigest).injective (String.ofList_injective h)

/-- A test for the condition: no row is discarded and no message is a duplicate. -/
def firstAttempt (p : Pool Memory Task) : Action Reading Entry -> Bool
  | .run i _ =>
      match p.nextTask i with
      | some (.discardStaged _) => false
      | some (.accept _ false) => false
      | _ => true
  | _ => true

theorem meets_of_firstAttempt (config : Config) (p : Pool Memory Task)
    (a : Action Reading Entry) (h : firstAttempt p a = true) :
    Machine.Meets (NoLateDiscard config) p a := by
  cases a with
  | run i r =>
      intro t others hnext _
      unfold firstAttempt at h
      simp only [hnext] at h
      cases t with
      | discardStaged envelope => cases h
      | accept envelope isNew =>
          cases isNew with
          | true => trivial
          | false => cases h
      | _ => trivial
  | _ => trivial

/-- The steps of one thread, one after the other. -/
def handlerSteps (thread count : Nat) : List (Action Reading Entry) :=
  List.replicate count (.run thread { raised := false })

set_option maxRecDepth 8000 in
theorem heartbeat_held :
    exists p, (machine heartbeatConfig).runWhere firstAttempt initial
        (.spawn (.connect "r1" (heartbeat 1)) :: handlerSteps 0 5) = some p ∧
      p.shared.acknowledged.map (fun entry => (entry.1.messageId, entry.2)) =
        [("m", .received)] ∧
      p.shared.inbox.rows.map (fun row => row.digest) = [String.ofList heartbeatDigest] ∧
      forall entry, entry ∈ p.shared.acknowledged -> Held p.shared.inbox entry.1 := by
  have hview : ((machine heartbeatConfig).runWhere firstAttempt initial
      (.spawn (.connect "r1" (heartbeat 1)) :: handlerSteps 0 5)).map
        (fun p => (p.shared.acknowledged.map (fun entry => (entry.1.messageId, entry.2)),
          p.shared.inbox.rows.map (fun row => row.digest))) =
      some ([("m", .received)], [String.ofList heartbeatDigest]) := by
    decide +kernel
  rcases Option.map_eq_some_iff.mp hview with ⟨p, hrun, hview⟩
  simp only [Prod.mk.injEq] at hview
  have hreached := Machine.runWhere_reaches (meets_of_firstAttempt heartbeatConfig) hrun
  exact ⟨p, hrun, hview.1, hview.2, acknowledged_durable heartbeatConfig p p hreached .refl
    (heartbeat_distinguishes p.shared)⟩

def heartbeatRace : List (Action Reading Entry) :=
  [.spawn (.connect "r1" (heartbeat 1)), .spawn (.connect "r1" (heartbeat 1))] ++
    handlerSteps 0 2 ++ handlerSteps 1 3 ++ handlerSteps 0 2 ++ handlerSteps 1 2

set_option maxRecDepth 8000 in
theorem heartbeat_acknowledged_and_lost :
    exists p entry, (machine heartbeatConfig).run initial heartbeatRace = some p ∧
      (machine heartbeatConfig).Reaches .always initial p ∧
      entry ∈ p.shared.acknowledged ∧ entry.1.messageId = "m" ∧ entry.2 = .duplicate ∧
      ¬ Held p.shared.inbox entry.1 := by
  have hview : ((machine heartbeatConfig).run initial heartbeatRace).map
      (fun p => (p.shared.acknowledged.map (fun entry => (entry.1.messageId, entry.2)),
        p.shared.inbox.rows.length)) = some ([("m", .duplicate)], 0) := by
    decide +kernel
  rcases Option.map_eq_some_iff.mp hview with ⟨p, hrun, hview⟩
  simp only [Prod.mk.injEq] at hview
  rcases hview with ⟨hacknowledged, hrows⟩
  have hentry : ("m", Acknowledgement.duplicate) ∈
      p.shared.acknowledged.map (fun entry => (entry.1.messageId, entry.2)) := by
    rw [hacknowledged]
    exact List.mem_singleton.mpr rfl
  rcases List.mem_map.mp hentry with ⟨entry, hmem, hsame⟩
  simp only [Prod.mk.injEq] at hsame
  refine ⟨p, entry, hrun, Machine.run_reaches hrun, hmem, hsame.1, hsame.2, ?_⟩
  intro hheld
  rcases hheld with ⟨row, hrow, _⟩
  rw [List.length_eq_zero_iff.mp hrows] at hrow
  cases hrow

end Ump.Delivery
