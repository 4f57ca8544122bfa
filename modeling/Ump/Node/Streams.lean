import Ump.Node.Holding
import Ump.Delivery.Heads

/-!
# Streams

## The order in which handlers see a lane

A worker takes the first received row of a lane, and a staged row does not keep later rows
from being taken. So the order of the calls is the order of the sequences only as long as
each row is activated before any row of its lane with a higher sequence is taken.
-/

namespace Ump.Node

open Foundation Delivery

/-- The sequences of one lane that a handler has seen in the life of one process. -/
def seen (m : Memory) (process handler : Nat) (lane : Lane) : List Int :=
  (m.calls.filter (fun call => call.process == process && call.handler == handler &&
    laneOf call.envelope == lane)).map (fun call => call.envelope.sequence)

/-- Two calls one after the other: the second one is about a later message, or another
handler gets the same one. -/
def InTurn (a b : Call) : Prop :=
  a.process = b.process -> laneOf a.envelope = laneOf b.envelope ->
    a.envelope.sequence < b.envelope.sequence ∨
      a.envelope = b.envelope ∧ a.handler ≠ b.handler

/-- The place of a staged row allows its activation: all with a lower sequence in the lane
has ended or stands before it, and all with a higher one stands behind it unclaimed. -/
structure Fits (inbox : Inbox) (row : InboxRow) : Prop where
  lower : forall other, other ∈ inbox.rows -> other.lane = row.lane ->
    other.status ≠ .staged -> other.sequence < row.sequence ->
    other.status.ended ∨ inbox.Before other row
  higher : forall other, other ∈ inbox.rows -> other.lane = row.lane ->
    other.status ≠ .staged -> row.sequence < other.sequence ->
    inbox.Before row other ∧ other.status = .received

def Fitting : Condition Memory Task Reading Entry :=
  fun m _ move =>
    match move with
    | .exec (.enqueue _) _ => False
    | .exec (.connection (.activate envelope _)) _ =>
        forall row, row ∈ m.inbox.rows -> row.messageId = envelope.messageId ->
          row.status = .staged -> Fits m.inbox row
    | _ => True

/-!
## The rows of a lane
-/

/-- Of two activated rows of a lane, the one with the lower sequence has ended, or it
stands first and the other one has not been claimed. -/
def Ahead (inbox : Inbox) : Prop :=
  forall a b, a ∈ inbox.rows -> b ∈ inbox.rows -> a.lane = b.lane ->
    a.status ≠ .staged -> b.status ≠ .staged -> a.sequence < b.sequence ->
    a.status.ended ∨ inbox.Before a b ∧ b.status = .received

theorem ahead_setStatus {inbox : Inbox} {p : InboxRow -> Bool} {status : InboxStatus}
    (h : forall a b, a ∈ inbox.rows -> b ∈ inbox.rows -> a.lane = b.lane ->
      changed p status a ≠ .staged -> changed p status b ≠ .staged ->
      a.sequence < b.sequence ->
      (changed p status a).ended ∨ inbox.Before a b ∧ changed p status b = .received) :
    Ahead (inbox.setStatus p status) := by
  intro a' b' ha' hb' hlane hactiveA hactiveB hsequence
  rcases mem_setStatus ha' with ⟨a, ha, rfl⟩
  rcases mem_setStatus hb' with ⟨b, hb, rfl⟩
  rcases h a b ha hb hlane hactiveA hactiveB hsequence with hended | ⟨hbefore, hreceived⟩
  · exact Or.inl hended
  · exact Or.inr ⟨Inbox.setStatus_before hbefore, hreceived⟩

theorem ahead_activate {inbox : Inbox} {messageId : String} (h : Ahead inbox)
    (hfits : forall row, row ∈ inbox.rows -> row.messageId = messageId ->
      row.status = .staged -> Fits inbox row) : Ahead (inbox.activate messageId) := by
  apply ahead_setStatus
  intro a b ha hb hlane hactiveA hactiveB hsequence
  have hstaged : forall {row : InboxRow},
      (row.messageId == messageId && row.status == .staged) = true ->
      row.messageId = messageId ∧ row.status = .staged := by
    intro row hp
    simpa using hp
  cases hpa : (a.messageId == messageId && a.status == .staged) with
  | true =>
      rcases hstaged hpa with ⟨hida, hstagedA⟩
      cases hpb : (b.messageId == messageId && b.status == .staged) with
      | true =>
          rw [Inbox.eq_of_messageId ha hb (hida.trans (hstaged hpb).1.symm)] at hsequence
          exact absurd hsequence (lt_irrefl _)
      | false =>
          rw [changed_of_not b _ hpb] at hactiveB ⊢
          exact Or.inr ((hfits a ha hida hstagedA).higher b hb hlane.symm hactiveB hsequence)
  | false =>
      rw [changed_of_not a _ hpa] at hactiveA ⊢
      cases hpb : (b.messageId == messageId && b.status == .staged) with
      | true =>
          rcases hstaged hpb with ⟨hidb, hstagedB⟩
          rw [changed_of b _ hpb]
          rcases (hfits b hb hidb hstagedB).lower a ha hlane hactiveA hsequence with
            hended | hbefore
          · exact Or.inl hended
          · exact Or.inr ⟨hbefore, rfl⟩
      | false =>
          rw [changed_of_not b _ hpb] at hactiveB ⊢
          exact h a b ha hb hlane hactiveA hactiveB hsequence

theorem ahead_claim {inbox inbox' : Inbox} {row : InboxRow} (h : Ahead inbox)
    (hclaim : inbox.claim = (some row, inbox')) : Ahead inbox' := by
  rcases Inbox.claim_head hclaim with ⟨hhead, _, rfl⟩
  apply ahead_setStatus
  intro a b ha hb hlane hactiveA hactiveB hsequence
  have hrow : forall {other : InboxRow}, other ∈ inbox.rows ->
      (other.messageId == row.messageId) = true -> other = row := by
    intro other hother hid
    exact Inbox.eq_of_messageId hother hhead.mem (by simpa using hid)
  have hold : a.status ≠ .staged -> b.status ≠ .staged ->
      a.status.ended ∨ inbox.Before a b ∧ b.status = .received :=
    fun hA hB => h a b ha hb hlane hA hB hsequence
  have hreceived := hhead.received
  cases hpa : (a.messageId == row.messageId) with
  | true =>
      have hsameA := hrow ha hpa
      cases hpb : (b.messageId == row.messageId) with
      | true =>
          rw [hsameA, hrow hb hpb] at hsequence
          exact absurd hsequence (lt_irrefl _)
      | false =>
          rw [changed_of_not b _ hpb] at hactiveB ⊢
          rcases hold (by rw [hsameA, hreceived]; decide) hactiveB with
            hended | hbehind
          · rw [hsameA, hreceived] at hended
            exact absurd rfl (InboxStatus.ended_ne hended).1
          · exact Or.inr hbehind
  | false =>
      rw [changed_of_not a _ hpa] at hactiveA ⊢
      cases hpb : (b.messageId == row.messageId) with
      | true =>
          have hsameB := hrow hb hpb
          rcases hold hactiveA (by rw [hsameB, hreceived]; decide) with
            hended | ⟨hbefore, _⟩
          · exact Or.inl hended
          · -- the head of a lane has only ended rows before it
            rw [hsameB] at hbefore hlane
            rcases hhead.first a hbefore hlane with ⟨hnotReceived, hnotProcessing⟩
            exact Or.inl (InboxStatus.ended_of hactiveA hnotReceived hnotProcessing)
      | false =>
          rw [changed_of_not b _ hpb] at hactiveB ⊢
          exact hold hactiveA hactiveB

theorem ahead_finish {inbox : Inbox} {messageId : String} {raised : Bool} (h : Ahead inbox)
    (hprocessing : forall row, row ∈ inbox.rows -> row.messageId = messageId ->
      row.status = .processing) : Ahead (inbox.finish messageId raised) := by
  apply ahead_setStatus
  intro a b ha hb hlane hactiveA hactiveB hsequence
  have hended : (if raised then InboxStatus.failed else .processed).ended := by
    cases raised
    · exact Or.inl rfl
    · exact Or.inr rfl
  cases hpa : (a.messageId == messageId) with
  | true =>
      rw [changed_of a _ hpa]
      exact Or.inl hended
  | false =>
      rw [changed_of_not a _ hpa] at hactiveA ⊢
      cases hpb : (b.messageId == messageId) with
      | true =>
          have hb' := hprocessing b hb (by simpa using hpb)
          rcases h a b ha hb hlane hactiveA (by rw [hb']; decide)
            hsequence with hendedA | ⟨_, hreceived⟩
          · exact Or.inl hendedA
          · rw [hb'] at hreceived
            cases hreceived
      | false =>
          rw [changed_of_not b _ hpb] at hactiveB ⊢
          exact h a b ha hb hlane hactiveA hactiveB hsequence

theorem ahead_reopen {inbox : Inbox} (h : Ahead inbox) : Ahead inbox.reopen := by
  apply ahead_setStatus
  intro a b ha hb hlane hactiveA hactiveB hsequence
  have hactive : forall {row : InboxRow},
      changed (fun row => row.status == .processing) .received row ≠ .staged ->
      row.status ≠ .staged := by
    intro row hne hstaged
    apply hne
    rw [changed_of_not row _ (by simp [hstaged])]
    exact hstaged
  rcases h a b ha hb hlane (hactive hactiveA) (hactive hactiveB) hsequence with
    hended | ⟨hbefore, hreceived⟩
  · rw [changed_of_not a _ (by simpa using (InboxStatus.ended_ne hended).2)]
    exact Or.inl hended
  · rw [changed_of_not b _ (by simp [hreceived])]
    exact Or.inr ⟨hbefore, hreceived⟩

theorem ahead_discardStaged {inbox : Inbox} {messageId : String} (h : Ahead inbox) :
    Ahead (inbox.discardStaged messageId) := by
  intro a b ha hb hlane hactiveA hactiveB hsequence
  rcases Table.mem_delete_iff.mp ha with ⟨ha, hkeptA⟩
  rcases Table.mem_delete_iff.mp hb with ⟨hb, hkeptB⟩
  rcases h a b ha hb hlane hactiveA hactiveB hsequence with hended | ⟨hbefore, hreceived⟩
  · exact Or.inl hended
  · exact Or.inr ⟨Table.before_delete.mpr ⟨hbefore, hkeptA, hkeptB⟩, hreceived⟩

theorem ahead_staged {inbox inbox' : Inbox} {added : InboxRow} (h : Ahead inbox)
    (hrows : inbox'.rows = inbox.rows ++ [added]) (hstaged : added.status = .staged) :
    Ahead inbox' := by
  intro a b ha hb hlane hactiveA hactiveB hsequence
  have hold : forall {row : InboxRow}, row ∈ inbox'.rows -> row.status ≠ .staged ->
      row ∈ inbox.rows := by
    intro row hrow hactive
    rw [hrows] at hrow
    rcases List.mem_append.mp hrow with hold | hnew
    · exact hold
    · rw [List.mem_singleton.mp hnew] at hactive
      exact absurd hstaged hactive
  rcases h a b (hold ha hactiveA) (hold hb hactiveB) hlane hactiveA hactiveB hsequence with
    hended | ⟨hbefore, hreceived⟩
  · exact Or.inl hended
  · exact Or.inr ⟨Table.before_of_rows hrows hbefore, hreceived⟩

/-!
## Calls and their rows
-/

def InboxStatus.Taken (status : InboxStatus) : Prop :=
  status = .processing ∨ status.ended

theorem taken_ne {status : InboxStatus} (h : InboxStatus.Taken status) :
    status ≠ .staged ∧ status ≠ .received := by
  rcases h with rfl | rfl | rfl <;> constructor <;> decide

/-- The calls of this process are about rows that have been taken, and each call comes in
its turn. -/
structure Sequenced (m : Memory) : Prop where
  ahead : Ahead m.inbox
  past : forall call, call ∈ m.calls -> call.process ≤ m.process
  taken : forall call, call ∈ m.calls -> call.process = m.process ->
    exists row, row ∈ m.inbox.rows ∧ row.envelope = call.envelope ∧
      InboxStatus.Taken row.status
  inTurn : m.calls.Pairwise InTurn

/-- A handler that a worker is still going to call has not seen the envelope in this
process. -/
structure Unseen (m : Memory) (ts : Multiset Task) : Prop where
  publishing : forall envelope, .publish envelope ∈ ts -> forall call, call ∈ m.calls ->
    call.process = m.process -> call.envelope ≠ envelope
  calling : forall envelope handlers, .call envelope handlers ∈ ts -> handlers.Nodup ∧
    forall call, call ∈ m.calls -> call.process = m.process -> call.envelope = envelope ->
      call.handler ∉ handlers

section

variable {config : Config} {m m' : Memory} {ts : Multiset Task}

theorem Sequenced.of_rows (h : Sequenced m) (hahead : Ahead m'.inbox)
    (hcalls : m'.calls = m.calls) (hprocess : m'.process = m.process)
    (hrows : forall row, row ∈ m.inbox.rows -> InboxStatus.Taken row.status ->
      exists row', row' ∈ m'.inbox.rows ∧ row'.envelope = row.envelope ∧
        InboxStatus.Taken row'.status) : Sequenced m' where
  ahead := hahead
  past call hcall := by
    rw [hcalls] at hcall
    rw [hprocess]
    exact h.past call hcall
  taken call hcall hcurrent := by
    rw [hcalls] at hcall
    rw [hprocess] at hcurrent
    rcases h.taken call hcall hcurrent with ⟨row, hrow, henvelope, htaken⟩
    rcases hrows row hrow htaken with ⟨row', hrow', hsame, htaken'⟩
    exact ⟨row', hrow', hsame.trans henvelope, htaken'⟩
  inTurn := by
    rw [hcalls]
    exact h.inTurn

theorem taken_setStatus {inbox : Inbox} {p : InboxRow -> Bool} {status : InboxStatus}
    (hp : forall row, row ∈ inbox.rows -> InboxStatus.Taken row.status -> p row = true ->
      InboxStatus.Taken status) (row : InboxRow) (hrow : row ∈ inbox.rows)
    (htaken : InboxStatus.Taken row.status) :
    exists row', row' ∈ (inbox.setStatus p status).rows ∧ row'.envelope = row.envelope ∧
      InboxStatus.Taken row'.status := by
  refine ⟨_, mem_changed hrow, rfl, ?_⟩
  show InboxStatus.Taken (changed p status row)
  cases hselected : p row with
  | true =>
      rw [changed_of row _ hselected]
      exact hp row hrow htaken hselected
  | false =>
      rw [changed_of_not row _ hselected]
      exact htaken

theorem Unseen.drop {ts' : Multiset Task} (h : Unseen m ts) (hle : ts' ≤ ts) :
    Unseen m ts' where
  publishing envelope ht := h.publishing envelope (Multiset.mem_of_le hle ht)
  calling envelope handlers ht := h.calling envelope handlers (Multiset.mem_of_le hle ht)

theorem Unseen.same (h : Unseen m ts) (hcalls : m'.calls = m.calls)
    (hprocess : m'.process = m.process) : Unseen m' ts := by
  constructor
  · rw [hcalls, hprocess]
    exact h.publishing
  · rw [hcalls, hprocess]
    exact h.calling

theorem Unseen.add {ts' : Multiset Task} (h : Unseen m ts) (h' : Unseen m ts') :
    Unseen m (ts + ts') where
  publishing envelope ht := by
    rcases Multiset.mem_add.mp ht with ht | ht
    · exact h.publishing envelope ht
    · exact h'.publishing envelope ht
  calling envelope handlers ht := by
    rcases Multiset.mem_add.mp ht with ht | ht
    · exact h.calling envelope handlers ht
    · exact h'.calling envelope handlers ht

theorem unseen_of_not_called {tasks : List Task}
    (h : forall t, t ∈ tasks -> (forall envelope, t ≠ .publish envelope) ∧
      forall envelope handlers, t ≠ .call envelope handlers) :
    Unseen m (tasks : Multiset Task) where
  publishing envelope ht := absurd rfl ((h _ (Multiset.mem_coe.mp ht)).1 envelope)
  calling envelope handlers ht := absurd rfl ((h _ (Multiset.mem_coe.mp ht)).2 envelope handlers)

theorem unseen_idle {tasks : List Task} (h : forall t, t ∈ tasks -> t.Idle) :
    Unseen m (tasks : Multiset Task) := by
  apply unseen_of_not_called
  intro t ht
  constructor
  · intro envelope heq
    cases heq ▸ h t ht
  · intro envelope handlers heq
    cases heq ▸ h t ht

theorem nodup_handlersOf (subscribers : List (Option MessageType)) (messageType : MessageType) :
    (handlersOf subscribers messageType).Nodup := by
  unfold handlersOf
  have hrange : (List.range subscribers.length).Nodup := List.nodup_range
  apply List.Nodup.append (hrange.filter _) (hrange.filter _)
  intro i htyped hwildcard
  have hsome := (List.mem_filter.mp htyped).2
  have hnone := (List.mem_filter.mp hwildcard).2
  rw [beq_iff_eq] at hsome hnone
  rw [hsome] at hnone
  cases hnone

theorem Sequenced.fresh (h : Sequenced m) (hholding : Holding m ts) {row : InboxRow}
    (hrow : row ∈ m.inbox.rows) (hreceived : row.status = .received) (call : Call)
    (hcall : call ∈ m.calls) (hcurrent : call.process = m.process) :
    call.envelope ≠ row.envelope := by
  intro hsame
  rcases h.taken call hcall hcurrent with ⟨other, hother, henvelope, htaken⟩
  have hid : other.messageId = row.messageId := by
    rw [(hholding.formed other hother).messageId, henvelope, hsame,
      (hholding.formed row hrow).messageId]
  rw [Inbox.eq_of_messageId hother hrow hid] at htaken
  exact (taken_ne htaken).2 hreceived

theorem Sequenced.call {envelope : Envelope} {handler : Nat} {rest : List Nat}
    (h : Sequenced m) (hholding : Holding m (.call envelope (handler :: rest) ::ₘ ts))
    (hunseen : Unseen m (.call envelope (handler :: rest) ::ₘ ts)) :
    Sequenced { m with calls := m.calls ++ [m.callOf envelope handler] } := by
  rcases hholding.held _ envelope (Multiset.mem_cons_self _ _) rfl with
    ⟨row, hrow, henvelope, hprocessing⟩
  have hformed := hholding.formed row hrow
  constructor
  · exact h.ahead
  · intro call hcall
    rcases List.mem_append.mp hcall with hold | hnew
    · exact h.past call hold
    · rw [List.mem_singleton.mp hnew]
      exact Nat.le_refl _
  · intro call hcall hcurrent
    rcases List.mem_append.mp hcall with hold | hnew
    · exact h.taken call hold hcurrent
    · rw [List.mem_singleton.mp hnew]
      exact ⟨row, hrow, henvelope, Or.inl hprocessing⟩
  · refine List.pairwise_append.mpr ⟨h.inTurn, List.pairwise_singleton _ _, ?_⟩
    intro call hcall new hnew hcurrent hlane
    rw [List.mem_singleton.mp hnew] at hcurrent hlane ⊢
    rcases h.taken call hcall hcurrent with ⟨other, hother, hotherEnvelope, htaken⟩
    have hotherFormed := hholding.formed other hother
    have hsameLane : other.lane = row.lane := by
      rw [hotherFormed.lane, hotherEnvelope, hformed.lane, henvelope]
      exact hlane
    have hsequence : call.envelope.sequence = other.sequence := by
      rw [hotherFormed.sequence, hotherEnvelope]
    have hsequenceNew : envelope.sequence = row.sequence := by
      rw [hformed.sequence, henvelope]
    show call.envelope.sequence < envelope.sequence ∨ _
    rw [hsequence, hsequenceNew]
    rcases lt_trichotomy other.sequence row.sequence with hlower | hsame | hhigher
    · exact Or.inl hlower
    · right
      have heq : other = row := Table.eq_of_clash hother hrow (by
        simp [Keyed.clash, hsameLane, hsame])
      have hcalled : call.envelope = envelope := by
        rw [← hotherEnvelope, heq, henvelope]
      constructor
      · exact hcalled
      · intro hhandler
        apply (hunseen.calling envelope _ (Multiset.mem_cons_self _ _)).2 call hcall hcurrent
          hcalled
        rw [hhandler]
        exact List.mem_cons_self
    · -- nothing with a higher sequence is taken while this row is in process
      rcases h.ahead row other hrow hother hsameLane.symm (by rw [hprocessing]; decide)
        (taken_ne htaken).1 hhigher with hended | ⟨_, hreceived⟩
      · exact absurd hprocessing (InboxStatus.ended_ne hended).2
      · exact absurd hreceived (taken_ne htaken).2

theorem Unseen.call {envelope : Envelope} {handler : Nat} {rest : List Nat} {next : Task}
    (hholding : Holding m (.call envelope (handler :: rest) ::ₘ ts))
    (h : Unseen m (.call envelope (handler :: rest) ::ₘ ts))
    (hnext : next = .finish envelope true ∨ next = .call envelope rest) :
    Unseen { m with calls := m.calls ++ [m.callOf envelope handler] } (next ::ₘ ts) := by
  rcases h.calling envelope _ (Multiset.mem_cons_self _ _) with ⟨hnodup, hcalled⟩
  rcases List.nodup_cons.mp hnodup with ⟨hfresh, hrest⟩
  have hother : forall {t : Task} {other : Envelope}, t ∈ ts -> t.working? = some other ->
      envelope ≠ other := by
    intro t other ht hworking hsame
    apply hholding.other_id rfl ht hworking
    rw [hsame]
  constructor
  · intro other ht call hcall hcurrent
    rcases Multiset.mem_cons.mp ht with heq | ht
    · rcases hnext with rfl | rfl <;> cases heq
    · rcases List.mem_append.mp hcall with hold | hnew
      · exact h.publishing other (Multiset.mem_cons_of_mem ht) call hold hcurrent
      · rw [List.mem_singleton.mp hnew]
        exact hother ht rfl
  · intro other handlers ht
    rcases Multiset.mem_cons.mp ht with heq | ht
    · rcases hnext with rfl | rfl
      · cases heq
      · cases heq
        refine ⟨hrest, ?_⟩
        intro call hcall hcurrent hsame
        rcases List.mem_append.mp hcall with hold | hnew
        · intro hmem
          exact hcalled call hold hcurrent hsame (List.mem_cons_of_mem _ hmem)
        · rw [List.mem_singleton.mp hnew]
          exact hfresh
    · rcases h.calling other handlers (Multiset.mem_cons_of_mem ht) with ⟨hnodup', hcalled'⟩
      refine ⟨hnodup', ?_⟩
      intro call hcall hcurrent hsame
      rcases List.mem_append.mp hcall with hold | hnew
      · exact hcalled' call hold hcurrent hsame
      · rw [List.mem_singleton.mp hnew] at hsame
        exact absurd hsame (hother ht rfl)

end

def Streaming (m : Memory) (ts : Multiset Task) : Prop :=
  Sequenced m ∧ Unseen m ts

theorem streaming_keeps (config : Config) :
    (machine config).Keeps Fitting Holding Streaming where
  drop h hle := ⟨h.1, h.2.drop hle⟩
  spawn {m ts entry} _ h _ := ⟨h.1, h.2.add (unseen_idle (start_idle entry))⟩
  crash {m ts} _ h := by
    have hnext : forall call, call ∈ m.calls -> call.process ≠ m.process + 1 := by
      intro call hcall heq
      have hpast := h.1.past call hcall
      omega
    constructor
    · constructor
      · exact ahead_reopen h.1.ahead
      · intro call hcall
        exact Nat.le_succ_of_le (h.1.past call hcall)
      · intro call hcall hcurrent
        exact absurd hcurrent (hnext call hcall)
      · exact h.1.inTurn
    · exact @unseen_idle (m.restart config) [] (fun t ht => by cases ht)
  exec {m t ts r} hholding h hfits := by
    rcases h with ⟨hsequenced, hunseen⟩
    have hrest := hunseen.drop (Multiset.le_cons_self ts t)
    have hrestHolding := hholding.drop (Multiset.le_cons_self ts t)
    have heffect := hholding.effect config r
    have hsame : forall row, row ∈ m.inbox.rows -> InboxStatus.Taken row.status ->
        exists row', row' ∈ m.inbox.rows ∧ row'.envelope = row.envelope ∧
          InboxStatus.Taken row'.status :=
      fun row hrow htaken => ⟨row, hrow, rfl, htaken⟩
    have hother : forall {next : Task}, (forall envelope, next ≠ .publish envelope) ->
        (forall envelope handlers, next ≠ .call envelope handlers) ->
        Unseen m (([next] : List Task) : Multiset Task) := by
      intro next hpublish hcall
      apply unseen_of_not_called
      intro t' ht'
      rw [List.mem_singleton.mp ht']
      exact ⟨hpublish, hcall⟩
    show Streaming (exec config m t r).1 (((exec config m t r).2.tasks : Multiset Task) + ts)
    generalize exec config m t r = result at heffect
    cases heffect with
    | quiet _ hinbox hprocess _ hcalls _ hleaves =>
        constructor
        · apply hsequenced.of_rows ?_ hcalls hprocess
          · rw [hinbox]
            exact hsame
          · rw [hinbox]
            exact hsequenced.ahead
        · exact (unseen_idle hleaves).add (hrest.same hcalls hprocess)
    | @staged _ inbox _ _ hrows =>
        constructor
        · refine hsequenced.of_rows (ahead_staged hsequenced.ahead hrows rfl) rfl rfl ?_
          intro row hrow htaken
          refine ⟨row, ?_, rfl, htaken⟩
          show row ∈ inbox.rows
          rw [hrows]
          exact List.mem_append_left _ hrow
        · exact ((hother (fun _ h => by cases h) (fun _ _ h => by cases h)).add hrest).same rfl rfl
    | activated envelope status =>
        constructor
        · refine hsequenced.of_rows (ahead_activate hsequenced.ahead hfits) rfl rfl ?_
          apply taken_setStatus
          intro row _ htaken hselected
          have hstaged : row.status = .staged := by
            simpa using (Bool.and_eq_true_iff.mp hselected).2
          exact absurd hstaged (taken_ne htaken).1
        · exact ((hother (fun _ h => by cases h) (fun _ _ h => by cases h)).add hrest).same rfl rfl
    | discarded envelope =>
        constructor
        · refine hsequenced.of_rows (ahead_discardStaged hsequenced.ahead) rfl rfl ?_
          intro row hrow htaken
          refine ⟨row, Table.mem_delete_iff.mpr ⟨hrow, ?_⟩, rfl, htaken⟩
          simp [(taken_ne htaken).1]
        · exact ((@unseen_idle m [] (fun t' ht' => by cases ht')).add hrest).same rfl rfl
    | enqueued hnew hrows => exact hfits.elim
    | @claimed row inbox flow hclaim hflow =>
        have hahead := ahead_claim hsequenced.ahead hclaim
        rcases Inbox.claim_eq_some hclaim with ⟨hrow, hreceived, rfl⟩
        constructor
        · refine hsequenced.of_rows hahead rfl rfl ?_
          apply taken_setStatus
          intro _ _ _ _
          exact Or.inl rfl
        · have hnew : Unseen m (flow.tasks : Multiset Task) := by
            rcases hflow with rfl | ⟨rfl, _⟩
            · constructor
              · intro envelope ht call hcall hcurrent
                cases List.mem_singleton.mp (Multiset.mem_coe.mp ht)
                exact hsequenced.fresh hrestHolding hrow hreceived call hcall hcurrent
              · intro envelope handlers ht
                cases List.mem_singleton.mp (Multiset.mem_coe.mp ht)
            · exact unseen_idle (fun t' ht' => by cases ht')
          exact (hnew.add hrest).same rfl rfl
    | refused envelope =>
        exact ⟨hsequenced, (hother (fun _ h => by cases h) (fun _ _ h => by cases h)).add hrest⟩
    | published envelope =>
        refine ⟨hsequenced, Unseen.add ?_ hrest⟩
        constructor
        · intro other ht
          cases List.mem_singleton.mp (Multiset.mem_coe.mp ht)
        · intro other handlers ht
          cases List.mem_singleton.mp (Multiset.mem_coe.mp ht)
          refine ⟨nodup_handlersOf _ _, ?_⟩
          intro call hcall hcurrent hcalled
          exact absurd hcalled
            (hunseen.publishing envelope (Multiset.mem_cons_self _ _) call hcall hcurrent)
    | returned envelope =>
        exact ⟨hsequenced, (hother (fun _ h => by cases h) (fun _ _ h => by cases h)).add hrest⟩
    | @called envelope handler rest next hnext =>
        constructor
        · exact hsequenced.call hholding hunseen
        · rw [Flow.tasks_next, Multiset.coe_singleton, Multiset.singleton_add]
          exact Unseen.call hholding hunseen hnext
    | finished envelope raised =>
        have hprocessing : forall row, row ∈ m.inbox.rows ->
            row.messageId = envelope.messageId -> row.status = .processing :=
          fun row hrow hid => hholding.processing (Multiset.mem_cons_self _ _) rfl hrow hid
        constructor
        · refine hsequenced.of_rows (ahead_finish hsequenced.ahead hprocessing) rfl rfl ?_
          apply taken_setStatus
          intro row _ _ _
          cases raised
          · exact Or.inr (Or.inl rfl)
          · exact Or.inr (Or.inr rfl)
        · exact ((@unseen_idle m [] (fun t' ht' => by cases ht')).add hrest).same rfl rfl

theorem reaches_streaming {config : Config} {p : Pool Memory Task}
    (h : (machine config).Reaches Fitting initial p) : Streaming p.shared p.tasks := by
  apply (streaming_keeps config).reaches h (fun _ hq => reaches_holding hq)
  constructor
  · constructor
    · intro a b ha
      cases ha
    · intro call hcall
      cases hcall
    · intro call hcall
      cases hcall
    · exact List.Pairwise.nil
  · exact @unseen_idle .initial [] (fun t ht => by cases ht)

/-- Each handler sees the messages of each lane in strictly increasing order, in every
run whose messages come from connections and fit where they are activated. -/
theorem seen_increasing (config : Config) (p : Pool Memory Task)
    (h : (machine config).Reaches Fitting initial p) (process handler : Nat) (lane : Lane) :
    (seen p.shared process handler lane).Pairwise (fun a b => a < b) := by
  have hturns := (reaches_streaming h).1.inTurn
  unfold seen
  rw [List.pairwise_map]
  have hfiltered : (p.shared.calls.filter (fun call => call.process == process &&
      call.handler == handler && laneOf call.envelope == lane)).Pairwise InTurn :=
    hturns.filter _
  apply hfiltered.imp_of_mem
  intro a b ha hb hturn
  have ha' := (List.mem_filter.mp ha).2
  have hb' := (List.mem_filter.mp hb).2
  simp only [Bool.and_eq_true, beq_iff_eq] at ha' hb'
  rcases ha' with ⟨⟨hprocessA, hhandlerA⟩, hlaneA⟩
  rcases hb' with ⟨⟨hprocessB, hhandlerB⟩, hlaneB⟩
  rcases hturn (hprocessA.trans hprocessB.symm) (hlaneA.trans hlaneB.symm) with
    hlower | ⟨_, hhandler⟩
  · exact hlower
  · exact absurd (hhandlerA.trans hhandlerB.symm) hhandler

/-!
## Two connections of one peer

The handler of the first message has committed its floor and waits before the activation,
while a second connection delivers the next message.
-/

def ordersConfig : Config where
  robotId := "r1"
  receiver := { protector := .sqlite, sha256 := fun _ => "d" }
  topics := [some .assignment]

def orderId (sequence : Int) : String :=
  if sequence = 1 then "m1" else "m2"

def order (sequence : Int) : Envelope :=
  { heartbeat sequence with
    messageId := orderId sequence, messageType := .assignment, sourceId := "c" }

def turns (thread count : Nat) : List (Action Reading Entry) :=
  List.replicate count (.run thread { raised := false })

def twoConnections : List (Action Reading Entry) :=
  .spawn .startUp :: turns 0 2 ++
    [.spawn (.connect "c" (order 1)), .spawn (.connect "c" (order 2))] ++ turns 1 3

/-- The second message is activated and handled before the first one is activated. -/
def overtaking : List (Action Reading Entry) :=
  twoConnections ++ turns 2 5 ++ .spawn .work :: turns 3 5 ++ turns 1 2 ++
    .spawn .work :: turns 4 5

/-- The second message is staged early and activated when the first one has ended. -/
def waiting : List (Action Reading Entry) :=
  twoConnections ++ turns 2 2 ++ turns 1 2 ++ .spawn .work :: turns 3 5 ++ turns 2 3 ++
    .spawn .work :: turns 4 5

def fits (p : Pool Memory Task) : Action Reading Entry -> Bool
  | .run i _ =>
      match p.nextTask i with
      | some (.enqueue _) => false
      | some (.connection (.activate envelope _)) =>
          p.shared.inbox.rows.all (fun row => row.messageId != envelope.messageId ||
            p.shared.inbox.rows.all (fun other => other.status == .staged ||
              other.status == .processed && decide (other.sequence < row.sequence)))
      | _ => true
  | _ => true

theorem meets_of_fits (p : Pool Memory Task) (a : Action Reading Entry)
    (h : fits p a = true) : Machine.Meets Fitting p a := by
  cases a with
  | run i r =>
      intro t others hnext _
      cases t with
      | enqueue envelope =>
          simp only [fits, hnext] at h
          cases h
      | connection inner =>
          cases inner with
          | activate envelope status =>
              intro row hrow hid _
              simp only [fits, hnext] at h
              have hrowTest := List.all_eq_true.mp h row hrow
              have hothers : forall other, other ∈ p.shared.inbox.rows ->
                  other.status ≠ .staged ->
                  other.status = .processed ∧ other.sequence < row.sequence := by
                intro other hother hactive
                have hall : (p.shared.inbox.rows.all (fun other => other.status == .staged ||
                    other.status == .processed &&
                      decide (other.sequence < row.sequence))) = true := by
                  simpa [hid] using hrowTest
                simpa [hactive] using List.all_eq_true.mp hall other hother
              constructor
              · intro other hother _ hactive _
                exact Or.inl (Or.inl (hothers other hother hactive).1)
              · intro other hother _ hactive hhigher
                exact absurd hhigher (lt_asymm (hothers other hother hactive).2)
          | _ => trivial
      | _ => trivial
  | spawn e => trivial
  | stop i => trivial
  | crash => trivial

set_option maxRecDepth 8000 in
theorem waiting_in_order :
    exists p, (machine ordersConfig).runWhere fits initial waiting = some p ∧
      seen p.shared 0 0 (laneOf (order 1)) = [1, 2] ∧
      (seen p.shared 0 0 (laneOf (order 1))).Pairwise (fun a b => a < b) := by
  have hview : ((machine ordersConfig).runWhere fits initial waiting).map
      (fun p => seen p.shared 0 0 (laneOf (order 1))) = some [1, 2] := by
    decide +kernel
  rcases Option.map_eq_some_iff.mp hview with ⟨p, hrun, hseen⟩
  exact ⟨p, hrun, hseen, seen_increasing ordersConfig p
    (Machine.runWhere_reaches meets_of_fits hrun) 0 0 (laneOf (order 1))⟩

set_option maxRecDepth 8000 in
/-- The handler sees the second message first. -/
theorem overtaking_out_of_order :
    ¬ forall p, (machine ordersConfig).Reaches .always initial p ->
      forall process handler lane,
        (seen p.shared process handler lane).Pairwise (fun a b => a < b) := by
  intro hall
  have hview : ((machine ordersConfig).run initial overtaking).map
      (fun p => seen p.shared 0 0 (laneOf (order 1))) = some [2, 1] := by
    decide +kernel
  rcases Option.map_eq_some_iff.mp hview with ⟨p, hrun, hseen⟩
  have hordered := hall p (Machine.run_reaches hrun) 0 0 (laneOf (order 1))
  rw [hseen] at hordered
  simp at hordered

end Ump.Node
