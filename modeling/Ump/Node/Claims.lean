import Ump.Node.Holding
import Ump.Delivery.Heads

/-!
# Claims

## Lanes of ready messages

Where every message is enqueued ready, the rows of a lane have ended up to some row, at most
the next one is in process, and all behind it wait. A claim takes the row of some lane that
comes next, and only a finish gives the lane free again.
-/

namespace Ump.Node

open Foundation Delivery

def Direct : Condition Memory Task Reading Entry :=
  fun _ _ move =>
    match move with
    | .exec (.connection _) _ => False
    | _ => True

/-- The message ids that the workers of one process have claimed from a lane, in the order
of the claims. -/
def claimedIds (m : Memory) (process : Nat) (lane : Lane) : List String :=
  (m.claims.filter (fun claim => claim.1 == process && claim.2.lane == lane)).map
    (fun claim => claim.2.messageId)

/-- The message ids of a lane in inbox order. -/
def idsIn (inbox : Inbox) (lane : Lane) : List String :=
  (rowsIn inbox lane).map (fun row => row.messageId)

/-- Workers that start and claim, one after the other, and do nothing else. -/
def claimRounds : Nat -> Nat -> List (Action Reading Entry)
  | _, 0 => []
  | thread, rounds + 1 =>
      .spawn .work :: .run thread { raised := false } :: claimRounds (thread + 1) rounds

structure LanesServed (config : Config) (p : Pool Memory Task) : Prop where
  order : forall process lane,
    List.Sublist (claimedIds p.shared process lane) (idsIn p.shared.inbox lane)
  once : forall process, ((p.shared.claims.filter (fun claim => claim.1 == process)).map
    (fun claim => claim.2.messageId)).Nodup
  alone : forall a b, a ∈ p.shared.inbox.rows -> b ∈ p.shared.inbox.rows ->
    a.status = .processing -> b.status = .processing -> a.lane = b.lane -> a = b
  free : forall row, Head p.shared.inbox row -> exists rounds q,
    (machine config).run p (claimRounds p.threads.length rounds) = some q ∧
      (q.shared.process, row) ∈ q.shared.claims ∧
      { row with status := .processing } ∈ q.shared.inbox.rows
  safety : forall row, Head p.shared.inbox row -> row.envelope.stream = .safety ->
    exists claimed inbox, p.shared.inbox.claim = (some claimed, inbox) ∧
      claimed.envelope.stream = .safety

/-!
## Rows that wait
-/

/-- Every row has been received, and of two rows of a lane the first has ended or the
second waits. -/
structure Queued (inbox : Inbox) : Prop where
  ready : forall row, row ∈ inbox.rows -> row.status ≠ .staged
  waits : forall a b, inbox.Before a b -> a.lane = b.lane ->
    a.status.ended ∨ b.status = .received

theorem queued_setStatus {inbox : Inbox} {p : InboxRow -> Bool} {status : InboxStatus}
    (h : Queued inbox) (hstatus : status ≠ .staged)
    (hwaits : forall a b, inbox.Before a b -> a.lane = b.lane ->
      (changed p status a).ended ∨ changed p status b = .received) :
    Queued (inbox.setStatus p status) := by
  constructor
  · intro row' hrow'
    rcases mem_setStatus hrow' with ⟨row, hrow, rfl⟩
    show (if p row then status else row.status) ≠ .staged
    split_ifs
    · exact hstatus
    · exact h.ready row hrow
  · intro a' b' hbefore' hlane
    rcases Inbox.before_setStatus hbefore' with ⟨a, b, hbefore, rfl, rfl⟩
    exact hwaits a b hbefore hlane

theorem queued_claim {inbox inbox' : Inbox} {row : InboxRow} (h : Queued inbox)
    (hclaim : inbox.claim = (some row, inbox')) : Queued inbox' := by
  rcases Inbox.claim_head hclaim with ⟨hhead, _, rfl⟩
  apply queued_setStatus h (by decide)
  intro a b hbefore hlane
  have hrow : forall {other : InboxRow}, other ∈ inbox.rows ->
      (other.messageId == row.messageId) = true -> other = row :=
    fun hother hid => Inbox.eq_of_messageId hother hhead.mem (by simpa using hid)
  cases hpb : (b.messageId == row.messageId) with
  | true =>
      -- what stands before the claimed row has ended
      have hsameB := hrow hbefore.right hpb
      rw [hsameB] at hbefore hlane
      rcases hhead.first a hbefore hlane with ⟨hnotReceived, hnotProcessing⟩
      have hended : a.status.ended :=
        InboxStatus.ended_of (h.ready a hbefore.left) hnotReceived hnotProcessing
      cases hpa : (a.messageId == row.messageId) with
      | true =>
          rw [hrow hbefore.left hpa, hhead.received] at hended
          exact absurd rfl (InboxStatus.ended_ne hended).1
      | false =>
          rw [changed_of_not a _ hpa]
          exact Or.inl hended
  | false =>
      rw [changed_of_not b _ hpb]
      cases hpa : (a.messageId == row.messageId) with
      | true =>
          rcases h.waits a b hbefore hlane with hended | hreceived
          · rw [hrow hbefore.left hpa, hhead.received] at hended
            exact absurd rfl (InboxStatus.ended_ne hended).1
          · exact Or.inr hreceived
      | false =>
          rw [changed_of_not a _ hpa]
          exact h.waits a b hbefore hlane

theorem queued_finish {inbox : Inbox} {messageId : String} {raised : Bool} (h : Queued inbox)
    (hprocessing : forall row, row ∈ inbox.rows -> row.messageId = messageId ->
      row.status = .processing) : Queued (inbox.finish messageId raised) := by
  have hended : (if raised then InboxStatus.failed else .processed).ended := by
    cases raised
    · exact Or.inl rfl
    · exact Or.inr rfl
  apply queued_setStatus h
  · cases raised <;> decide
  · intro a b hbefore hlane
    cases hpa : (a.messageId == messageId) with
    | true =>
        rw [changed_of a _ hpa]
        exact Or.inl hended
    | false =>
        rw [changed_of_not a _ hpa]
        rcases h.waits a b hbefore hlane with hendedA | hreceived
        · exact Or.inl hendedA
        · right
          rw [changed_of_not b _ ?_]
          · exact hreceived
          · cases hpb : (b.messageId == messageId) with
            | true =>
                rw [hprocessing b hbefore.right (by simpa using hpb)] at hreceived
                cases hreceived
            | false => rfl

theorem queued_reopen {inbox : Inbox} (h : Queued inbox) : Queued inbox.reopen := by
  apply queued_setStatus h (by decide)
  intro a b hbefore hlane
  rcases h.waits a b hbefore hlane with hended | hreceived
  · rw [changed_of_not a _ (by simpa using (InboxStatus.ended_ne hended).2)]
    exact Or.inl hended
  · rw [changed_of_not b _ (by simp [hreceived])]
    exact Or.inr hreceived

theorem queued_added {inbox inbox' : Inbox} {added : InboxRow} (h : Queued inbox)
    (hrows : inbox'.rows = inbox.rows ++ [added]) (hreceived : added.status = .received) :
    Queued inbox' := by
  constructor
  · intro row hrow
    rw [hrows] at hrow
    rcases List.mem_append.mp hrow with hold | hnew
    · exact h.ready row hold
    · rw [List.mem_singleton.mp hnew, hreceived]
      decide
  · intro a b hbefore hlane
    rcases (Table.before_added hrows).mp hbefore with hold | ⟨_, rfl⟩
    · exact h.waits a b hold hlane
    · exact Or.inr hreceived

theorem Queued.alone {inbox : Inbox} (h : Queued inbox) {a b : InboxRow}
    (ha : a ∈ inbox.rows) (hb : b ∈ inbox.rows) (hprocessingA : a.status = .processing)
    (hprocessingB : b.status = .processing) (hlane : a.lane = b.lane) : a = b := by
  have hnot : forall {first second : InboxRow}, first.status = .processing ->
      second.status = .processing -> first.lane = second.lane ->
      ¬ inbox.Before first second := by
    intro first second hfirst hsecond hlane hbefore
    rcases h.waits first second hbefore hlane with hended | hreceived
    · exact (InboxStatus.ended_ne hended).2 hfirst
    · rw [hsecond] at hreceived
      cases hreceived
  by_contra hne
  rcases Table.before_total ha hb hne with hbefore | hbefore
  · exact hnot hprocessingA hprocessingB hlane hbefore
  · exact hnot hprocessingB hprocessingA hlane.symm hbefore

/-!
## Claims and the rows behind them
-/

theorem idsIn_setStatus (inbox : Inbox) (p : InboxRow -> Bool) (status : InboxStatus)
    (lane : Lane) : idsIn (inbox.setStatus p status) lane = idsIn inbox lane := by
  unfold idsIn rowsIn
  rw [Inbox.rows_setStatus, List.filter_map, List.map_map]
  rfl

theorem idsIn_added {inbox inbox' : Inbox} {added : InboxRow}
    (hrows : inbox'.rows = inbox.rows ++ [added]) (lane : Lane) :
    List.Sublist (idsIn inbox lane) (idsIn inbox' lane) := by
  unfold idsIn rowsIn
  rw [hrows, List.filter_append, List.map_append]
  exact List.sublist_append_left _ _

theorem sublist_left {xs front back : List String} (h : List.Sublist xs (front ++ back))
    (hback : forall x, x ∈ xs -> x ∉ back) : List.Sublist xs front := by
  rcases List.sublist_append_iff.mp h with ⟨first, second, rfl, hfirst, hsecond⟩
  have hnil : second = [] := by
    apply List.eq_nil_iff_forall_not_mem.mpr
    intro x hx
    exact hback x (List.mem_append_right _ hx) (hsecond.subset hx)
  rw [hnil, List.append_nil]
  exact hfirst

structure Served (m : Memory) (_ : Multiset Task) : Prop where
  queued : Queued m.inbox
  past : forall claim, claim ∈ m.claims -> claim.1 ≤ m.process
  taken : forall claim, claim ∈ m.claims -> claim.1 = m.process ->
    exists row, row ∈ m.inbox.rows ∧ row.messageId = claim.2.messageId ∧
      row.lane = claim.2.lane ∧ row.status ≠ .received
  order : forall process lane, List.Sublist (claimedIds m process lane) (idsIn m.inbox lane)
  once : forall process, ((m.claims.filter (fun claim => claim.1 == process)).map
    (fun claim => claim.2.messageId)).Nodup

section

variable {m m' : Memory} {ts : Multiset Task} {row : InboxRow}

theorem Served.unclaimed (h : Served m ts) (hrow : row ∈ m.inbox.rows)
    (hreceived : row.status = .received) {claim : Nat × InboxRow} (hclaim : claim ∈ m.claims)
    (hcurrent : claim.1 = m.process) : claim.2.messageId ≠ row.messageId := by
  intro hid
  rcases h.taken claim hclaim hcurrent with ⟨other, hother, hotherId, _, htaken⟩
  rw [Inbox.eq_of_messageId hother hrow (hotherId.trans hid)] at htaken
  exact htaken hreceived

theorem Served.grows (h : Served m ts) (hrow : row ∈ m.inbox.rows)
    (hreceived : row.status = .received) :
    List.Sublist (claimedIds m m.process row.lane ++ [row.messageId])
      (idsIn m.inbox row.lane) := by
  have hlane : row ∈ rowsIn m.inbox row.lane := mem_rowsIn.mpr ⟨hrow, rfl⟩
  rcases List.append_of_mem hlane with ⟨before, behind, hsplit⟩
  have hids : idsIn m.inbox row.lane =
      before.map (fun row => row.messageId) ++
        (row.messageId :: behind.map (fun row => row.messageId)) := by
    unfold idsIn
    rw [hsplit, List.map_append, List.map_cons]
  have horder := h.order m.process row.lane
  rw [hids] at horder ⊢
  have hfront : List.Sublist (claimedIds m m.process row.lane)
      (before.map (fun row => row.messageId)) := by
    apply sublist_left horder
    intro messageId hclaimed hback
    rcases List.mem_map.mp hclaimed with ⟨claim, hmem, rfl⟩
    rcases List.mem_filter.mp hmem with ⟨hclaim, htest⟩
    simp only [Bool.and_eq_true, beq_iff_eq] at htest
    rcases List.mem_cons.mp hback with hself | hbehind
    · exact h.unclaimed hrow hreceived hclaim htest.1 hself
    · -- a row behind a received one waits as well
      rcases List.mem_map.mp hbehind with ⟨other, hother, hid⟩
      have hpair : List.Sublist [row, other] m.inbox.rows := by
        have hlast : List.Sublist [row, other] (row :: behind) :=
          List.Sublist.cons_cons row (List.singleton_sublist.mpr hother)
        have hin : List.Sublist [row, other] (rowsIn m.inbox row.lane) := by
          rw [hsplit]
          exact hlast.trans (List.sublist_append_right _ _)
        exact hin.trans List.filter_sublist
      have hotherLane : other ∈ rowsIn m.inbox row.lane := by
        rw [hsplit]
        exact List.mem_append_right _ (List.mem_cons_of_mem _ hother)
      rcases h.queued.waits row other hpair (mem_rowsIn.mp hotherLane).2.symm with
        hended | hwaits
      · exact (InboxStatus.ended_ne hended).1 hreceived
      · exact h.unclaimed (mem_rowsIn.mp hotherLane).1 hwaits hclaim htest.1 hid.symm
  exact List.Sublist.append hfront
    (List.Sublist.cons_cons _ (List.nil_sublist _))

theorem Served.of_rows (h : Served m ts) (ts' : Multiset Task) (hqueued : Queued m'.inbox)
    (hclaims : m'.claims = m.claims) (hprocess : m'.process = m.process)
    (hids : forall lane, List.Sublist (idsIn m.inbox lane) (idsIn m'.inbox lane))
    (hrows : forall row, row ∈ m.inbox.rows -> row.status ≠ .received ->
      exists row', row' ∈ m'.inbox.rows ∧ row'.messageId = row.messageId ∧
        row'.lane = row.lane ∧ row'.status ≠ .received) : Served m' ts' where
  queued := hqueued
  past claim hclaim := by
    rw [hclaims] at hclaim
    rw [hprocess]
    exact h.past claim hclaim
  taken claim hclaim hcurrent := by
    rw [hclaims] at hclaim
    rw [hprocess] at hcurrent
    rcases h.taken claim hclaim hcurrent with ⟨row, hrow, hid, hlane, htaken⟩
    rcases hrows row hrow htaken with ⟨row', hrow', hid', hlane', htaken'⟩
    exact ⟨row', hrow', hid'.trans hid, hlane'.trans hlane, htaken'⟩
  order process lane := by
    unfold claimedIds
    rw [hclaims]
    exact (h.order process lane).trans (hids lane)
  once process := by
    rw [hclaims]
    exact h.once process

theorem Served.claim {inbox : Inbox} (h : Served m ts) (ts' : Multiset Task)
    (hclaim : m.inbox.claim = (some row, inbox)) :
    Served { m.withInbox inbox with claims := m.claims ++ [(m.process, row)] } ts' := by
  have hqueued := queued_claim h.queued hclaim
  rcases Inbox.claim_eq_some hclaim with ⟨hrow, hreceived, rfl⟩
  have hprocessing : { row with status := .processing } ∈
      (m.inbox.setStatus (fun other => other.messageId == row.messageId) .processing).rows := by
    rw [Inbox.rows_setStatus]
    exact List.mem_map.mpr ⟨row, hrow, by simp⟩
  constructor
  · exact hqueued
  · intro claim hmem
    rcases List.mem_append.mp hmem with hold | hnew
    · exact h.past claim hold
    · rw [List.mem_singleton.mp hnew]
      exact Nat.le_refl m.process
  · intro claim hmem hcurrent
    rcases List.mem_append.mp hmem with hold | hnew
    · rcases h.taken claim hold hcurrent with ⟨other, hother, hid, hlane, htaken⟩
      refine ⟨other, ?_, hid, hlane, htaken⟩
      apply mem_setStatus_of_not hother
      have hne := h.unclaimed hrow hreceived hold hcurrent
      rw [hid]
      simpa using hne
    · rw [List.mem_singleton.mp hnew]
      exact ⟨_, hprocessing, rfl, rfl, fun heq => by cases heq⟩
  · intro process lane
    show List.Sublist (claimedIds _ process lane) (idsIn (m.inbox.setStatus _ _) lane)
    rw [idsIn_setStatus]
    unfold claimedIds
    rw [List.filter_append, List.filter_singleton, List.map_append]
    dsimp only
    cases hnew : (m.process == process && row.lane == lane) with
    | true =>
        simp only [Bool.and_eq_true, beq_iff_eq] at hnew
        rw [← hnew.1, ← hnew.2]
        exact h.grows hrow hreceived
    | false =>
        rw [cond_false, List.map_nil, List.append_nil]
        exact h.order process lane
  · intro process
    show ((List.filter _ (m.claims ++ [(m.process, row)])).map _).Nodup
    rw [List.filter_append, List.filter_singleton, List.map_append]
    dsimp only
    cases hnew : (m.process == process) with
    | true =>
        rw [cond_true, List.map_singleton, ← List.concat_eq_append]
        apply List.Nodup.concat _ (h.once process)
        intro hmem
        rcases List.mem_map.mp hmem with ⟨claim, hclaimed, hid⟩
        rcases List.mem_filter.mp hclaimed with ⟨hold, hcurrent⟩
        have hcurrent : claim.1 = m.process := by
          rw [beq_iff_eq] at hcurrent hnew
          exact hcurrent.trans hnew.symm
        exact h.unclaimed hrow hreceived hold hcurrent hid
    | false =>
        rw [cond_false, List.map_nil, List.append_nil]
        exact h.once process

end

theorem served_keeps (config : Config) :
    (machine config).Keeps Direct Holding Served where
  drop {m ts ts'} h _ :=
    h.of_rows ts' h.queued rfl rfl (fun _ => List.Sublist.refl _)
      (fun row hrow htaken => ⟨row, hrow, rfl, rfl, htaken⟩)
  spawn {m ts entry} _ h _ :=
    h.of_rows _ h.queued rfl rfl (fun _ => List.Sublist.refl _)
      (fun row hrow htaken => ⟨row, hrow, rfl, rfl, htaken⟩)
  crash {m ts} _ h := by
    constructor
    · exact queued_reopen h.queued
    · intro claim hclaim
      exact Nat.le_succ_of_le (h.past claim hclaim)
    · intro claim hclaim hcurrent
      have hpast := h.past claim hclaim
      have hnext : claim.1 = m.process + 1 := hcurrent
      omega
    · intro process lane
      show List.Sublist _ (idsIn m.inbox.reopen lane)
      unfold Inbox.reopen
      rw [idsIn_setStatus]
      exact h.order process lane
    · exact h.once
  exec {m t ts r} hholding h hdirect := by
    have heffect := hholding.effect config r
    have hsame : forall row, row ∈ m.inbox.rows -> row.status ≠ .received ->
        exists row', row' ∈ m.inbox.rows ∧ row'.messageId = row.messageId ∧
          row'.lane = row.lane ∧ row'.status ≠ .received :=
      fun row hrow htaken => ⟨row, hrow, rfl, rfl, htaken⟩
    show Served (exec config m t r).1 (((exec config m t r).2.tasks : Multiset Task) + ts)
    generalize exec config m t r = result at heffect
    cases heffect with
    | quiet _ hinbox hprocess hclaims _ _ _ =>
        refine h.of_rows _ ?_ hclaims hprocess ?_ ?_
        · rw [hinbox]
          exact h.queued
        · intro lane
          rw [hinbox]
        · rw [hinbox]
          exact hsame
    | staged => exact hdirect.elim
    | activated => exact hdirect.elim
    | discarded => exact hdirect.elim
    | @enqueued _ inbox _ _ hrows =>
        refine h.of_rows _ (queued_added h.queued hrows rfl) rfl rfl (idsIn_added hrows) ?_
        intro row hrow htaken
        refine ⟨row, ?_, rfl, rfl, htaken⟩
        show row ∈ inbox.rows
        rw [hrows]
        exact List.mem_append_left _ hrow
    | claimed hclaim _ => exact h.claim _ hclaim
    | refused => exact h.of_rows _ h.queued rfl rfl (fun _ => List.Sublist.refl _) hsame
    | published => exact h.of_rows _ h.queued rfl rfl (fun _ => List.Sublist.refl _) hsame
    | returned => exact h.of_rows _ h.queued rfl rfl (fun _ => List.Sublist.refl _) hsame
    | called => exact h.of_rows _ h.queued rfl rfl (fun _ => List.Sublist.refl _) hsame
    | finished envelope raised =>
        have hprocessing : forall row, row ∈ m.inbox.rows ->
            row.messageId = envelope.messageId -> row.status = .processing :=
          fun row hrow hid => hholding.processing (Multiset.mem_cons_self _ _) rfl hrow hid
        refine h.of_rows _ (queued_finish h.queued hprocessing) rfl rfl ?_ ?_
        · intro lane
          show List.Sublist _ (idsIn (m.inbox.finish _ raised) lane)
          unfold Inbox.finish
          rw [idsIn_setStatus]
        · intro row hrow htaken
          refine ⟨_, mem_changed hrow, rfl, rfl, ?_⟩
          dsimp only [changed]
          split_ifs
          · decide
          · decide
          · exact htaken

theorem reaches_served {config : Config} {p : Pool Memory Task}
    (h : (machine config).Reaches Direct initial p) : Served p.shared p.tasks := by
  apply (served_keeps config).reaches h (fun _ hq => reaches_holding hq)
  constructor
  · constructor
    · intro row hrow
      cases hrow
    · intro a b hbefore
      cases hbefore.left
  · intro claim hclaim
    cases hclaim
  · intro claim hclaim
    cases hclaim
  · intro process lane
    exact List.Sublist.refl []
  · intro process
    exact List.nodup_nil

/-!
## Heads are never kept waiting by other lanes
-/

theorem claims_once {config : Config} {p : Pool Memory Task} {row : InboxRow} {inbox : Inbox}
    (hclaim : p.shared.inbox.claim = (some row, inbox)) :
    exists q, (forall rest : List (Action Reading Entry), (machine config).run p
        (.spawn .work :: .run p.threads.length { raised := false } :: rest) =
          (machine config).run q rest) ∧
      q.shared = { p.shared.withInbox inbox with
        claims := p.shared.claims ++ [(p.shared.process, row)] } ∧
      q.threads.length = p.threads.length + 1 := by
  have hspawn : (machine config).step p (.spawn .work) =
      some { p with threads := p.threads ++ [[.claim]] } := rfl
  have hthread : (p.threads ++ [[Task.claim]])[p.threads.length]? = some [Task.claim] := by
    simp
  generalize hresult : exec config p.shared .claim { raised := false } = result
  have hshared : result.1 = { p.shared.withInbox inbox with
      claims := p.shared.claims ++ [(p.shared.process, row)] } := by
    rw [← hresult, exec, hclaim]
    dsimp only
    cases row.envelope.checkDecoded <;> rfl
  rcases result with ⟨shared, flow⟩
  let q : Pool Memory Task :=
    { shared := shared
      threads := (p.threads ++ [[Task.claim]]).set p.threads.length (flow.resume []) }
  have hstep : (machine config).step { p with threads := p.threads ++ [[Task.claim]] }
      (.run p.threads.length { raised := false }) = some q :=
    Machine.step_run hthread hresult
  refine ⟨q, ?_, ?_, ?_⟩
  · intro rest
    rw [Machine.run_cons hspawn, Machine.run_cons hstep]
  · exact hshared
  · simp [q]

theorem head_of_other {inbox : Inbox} {row claimed : InboxRow} (h : Head inbox row)
    (hclaimed : Head inbox claimed) (hne : claimed ≠ row) :
    Head (inbox.setStatus (fun other => other.messageId == claimed.messageId) .processing)
      row := by
  have hother : (row.messageId == claimed.messageId) = false := by
    rw [beq_eq_false_iff_ne]
    intro hid
    exact hne (Inbox.eq_of_messageId hclaimed.mem h.mem hid.symm)
  constructor
  · exact mem_setStatus_of_not h.mem hother
  · exact h.received
  · intro first' hbefore' hlane
    rcases Inbox.before_setStatus hbefore' with ⟨first, last, hbefore, rfl, hrow⟩
    have hlast : last = row := by
      apply Inbox.eq_of_messageId hbefore.right h.mem
      rw [hrow]
    rw [hlast] at hbefore
    rcases h.first first hbefore hlane with ⟨hnotReceived, hnotProcessing⟩
    have hkept : (first.messageId == claimed.messageId) = false := by
      rw [beq_eq_false_iff_ne]
      intro hid
      apply hnotReceived
      rw [Inbox.eq_of_messageId hbefore.left hclaimed.mem hid]
      exact hclaimed.received
    show (if (first.messageId == claimed.messageId) = true then _ else first.status) ≠ _ ∧
      (if (first.messageId == claimed.messageId) = true then _ else first.status) ≠ _
    rw [hkept]
    exact ⟨hnotReceived, hnotProcessing⟩

def waitingRows (inbox : Inbox) : Nat :=
  inbox.rows.countP (fun row => row.status == .received)

theorem waitingRows_claim {inbox : Inbox} {claimed : InboxRow} (h : Head inbox claimed) :
    waitingRows (inbox.setStatus (fun other => other.messageId == claimed.messageId) .processing) <
      waitingRows inbox := by
  unfold waitingRows
  rw [Inbox.rows_setStatus, List.countP_map]
  have hless : forall rows : List InboxRow, rows.countP
      ((fun row : InboxRow => row.status == .received) ∘ fun row => { row with
        status := if row.messageId == claimed.messageId then .processing else row.status }) ≤
        rows.countP (fun row => row.status == .received) := by
    intro rows
    apply List.countP_mono_left
    intro row _ hreceived
    dsimp only [Function.comp] at hreceived
    split_ifs at hreceived
    · cases hreceived
    · exact hreceived
  rcases List.append_of_mem h.mem with ⟨before, behind, hsplit⟩
  rw [hsplit, List.countP_append, List.countP_append, List.countP_cons_of_neg (by simp),
    List.countP_cons_of_pos (by simp [h.received])]
  have hbefore := hless before
  have hbehind := hless behind
  omega

theorem head_claimed (config : Config) (row : InboxRow) (p : Pool Memory Task)
    (h : Head p.shared.inbox row) : exists rounds q,
      (machine config).run p (claimRounds p.threads.length rounds) = some q ∧
        (q.shared.process, row) ∈ q.shared.claims ∧
        { row with status := .processing } ∈ q.shared.inbox.rows := by
  induction hwaiting : waitingRows p.shared.inbox using Nat.strong_induction_on generalizing p with
  | _ count ih =>
      rcases Inbox.claimable_of_head h with ⟨claimed, hclaimable⟩
      have hclaim : p.shared.inbox.claim = (some claimed, p.shared.inbox.setStatus
          (fun other => other.messageId == claimed.messageId) .processing) := by
        unfold Inbox.claim
        rw [hclaimable]
      have hclaimed := (Inbox.claim_head hclaim).1
      rcases @claims_once config p claimed _ hclaim with ⟨q, hround, hshared, hlength⟩
      by_cases hsame : claimed = row
      · refine ⟨1, q, hround [], ?_, ?_⟩
        · rw [hshared, hsame]
          exact List.mem_append_right _ (List.mem_singleton_self _)
        · rw [hshared, hsame]
          show _ ∈ (p.shared.inbox.setStatus (fun other => other.messageId == row.messageId)
            .processing).rows
          rw [Inbox.rows_setStatus]
          exact List.mem_map.mpr ⟨row, h.mem, by simp⟩
      · have hinbox : q.shared.inbox = p.shared.inbox.setStatus
            (fun other => other.messageId == claimed.messageId) .processing := by
          rw [hshared]
          rfl
        have hhead : Head q.shared.inbox row := by
          rw [hinbox]
          exact head_of_other h hclaimed hsame
        have hfewer : waitingRows q.shared.inbox < count := by
          rw [hinbox, ← hwaiting]
          exact waitingRows_claim hclaimed
        rcases ih _ hfewer q hhead rfl with ⟨rounds, q', hrun, hfacts⟩
        refine ⟨rounds + 1, q', ?_, hfacts⟩
        rw [claimRounds, hround, ← hlength]
        exact hrun

theorem safety_first {m : Memory} {ts : Multiset Task} (h : Holding m ts) {row : InboxRow}
    (hhead : Head m.inbox row) (hsafety : row.envelope.stream = .safety) :
    exists claimed inbox, m.inbox.claim = (some claimed, inbox) ∧
      claimed.envelope.stream = .safety := by
  rcases Inbox.claimable_of_head hhead with ⟨claimed, hclaimable⟩
  rcases Inbox.claimable_head hclaimable with ⟨hclaimed, hhighest⟩
  have hpriority := hhighest row hhead
  rw [(h.formed row hhead.mem).priority, hsafety, if_pos rfl,
    (h.formed claimed hclaimed.mem).priority] at hpriority
  refine ⟨claimed, _, by rw [Inbox.claim, hclaimable], ?_⟩
  by_contra hother
  rw [if_neg hother] at hpriority
  cases hpriority

/-- In every state that workers and direct enqueues reach, through any number of restarts,
the lanes are served in order, one message at a time, each message at most once by a
process, without waiting for other lanes and the safety streams first. -/
theorem lanes_served (config : Config) (p : Pool Memory Task)
    (h : (machine config).Reaches Direct initial p) : LanesServed config p := by
  have hserved := reaches_served h
  constructor
  · exact hserved.order
  · exact hserved.once
  · intro a b ha hb hprocessingA hprocessingB hlane
    exact hserved.queued.alone ha hb hprocessingA hprocessingB hlane
  · intro row hhead
    exact head_claimed config row p hhead
  · intro row hhead hsafety
    exact safety_first (reaches_holding h) hhead hsafety

/-!
## Two lanes and a restart
-/

def lanesConfig : Config where
  robotId := "r1"
  receiver := { protector := .sqlite, sha256 := fun _ => "d" }
  topics := []

def notice (messageId : String) (stream : Stream) (sequence : Int) : Envelope :=
  { heartbeat sequence with messageId := messageId, sourceId := "c", stream := stream }

/-- Two operational messages and a safety message, two workers that claim and a restart. -/
def restarted : List (Action Reading Entry) :=
  [.spawn (.enqueue (notice "a" .operational 1)), .run 0 { raised := false },
    .spawn (.enqueue (notice "b" .operational 2)), .run 1 { raised := false },
    .spawn (.enqueue (notice "s" .safety 1)), .run 2 { raised := false }] ++
    claimRounds 3 2 ++ .crash :: claimRounds 0 1

def direct (p : Pool Memory Task) : Action Reading Entry -> Bool
  | .run i _ =>
      match p.nextTask i with
      | some (.connection _) => false
      | _ => true
  | _ => true

theorem meets_of_direct (p : Pool Memory Task) (a : Action Reading Entry)
    (h : direct p a = true) : Machine.Meets Direct p a := by
  cases a with
  | run i r =>
      intro t others hnext _
      cases t with
      | connection inner =>
          simp only [direct, hnext] at h
          cases h
      | _ => trivial
  | spawn e => trivial
  | stop i => trivial
  | crash => trivial

set_option maxRecDepth 8000 in
theorem restarted_served :
    exists p, (machine lanesConfig).runWhere direct initial restarted = some p ∧
      p.shared.claims.map (fun claim => (claim.1, claim.2.messageId)) =
        [(0, "s"), (0, "a"), (1, "s")] ∧ LanesServed lanesConfig p := by
  have hview : ((machine lanesConfig).runWhere direct initial restarted).map
      (fun p => p.shared.claims.map (fun claim => (claim.1, claim.2.messageId))) =
        some [(0, "s"), (0, "a"), (1, "s")] := by
    decide +kernel
  rcases Option.map_eq_some_iff.mp hview with ⟨p, hrun, hclaims⟩
  exact ⟨p, hrun, hclaims, lanes_served lanesConfig p
    (Machine.runWhere_reaches meets_of_direct hrun)⟩

end Ump.Node
