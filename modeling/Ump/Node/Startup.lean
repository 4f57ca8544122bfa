import Ump.Node.Holding

/-!
# Start-up

## Handlers and a backlog

A crash may leave received messages in the inbox. The workers of the next process start
with the inbox, before the components of the node have subscribed, and a message that
finds no handler at the bus is processed like any other.
-/

namespace Ump.Node

open Foundation Delivery

/-- The node has a handler for messages of this type. -/
def Config.Handles (config : Config) (envelope : Envelope) : Prop :=
  some envelope.messageType ∈ config.topics

/-- A handler that was subscribed for the type of the message has been called with it. -/
def Called (m : Memory) (envelope : Envelope) : Prop :=
  exists call, call ∈ m.calls ∧ call.envelope = envelope ∧
    call.topic = some envelope.messageType

/-- Each processed message of the node's types was given to a handler of its type. -/
def Consumed (config : Config) (m : Memory) : Prop :=
  forall row, row ∈ m.inbox.rows -> row.status = .processed ->
    config.Handles row.envelope -> Called m row.envelope

/-- Workers pass a message to the bus only once its type has been subscribed to. -/
def Attached (config : Config) : Condition Memory Task Reading Entry :=
  fun m _ move =>
    match move with
    | .exec (.publish envelope) _ =>
        config.Handles envelope -> some envelope.messageType ∈ m.subscribers
    | _ => True

structure Handled (config : Config) (m : Memory) (ts : Multiset Task) : Prop where
  consumed : Consumed config m
  calling : forall envelope handlers, .call envelope handlers ∈ ts ->
    config.Handles envelope -> Called m envelope ∨ exists handler, handler ∈ handlers ∧
      m.subscribers[handler]? = some (some envelope.messageType)
  finishing : forall envelope, .finish envelope false ∈ ts -> config.Handles envelope ->
    Called m envelope

theorem mem_handlersOf {subscribers : List (Option MessageType)} {messageType : MessageType}
    (h : some messageType ∈ subscribers) :
    exists handler, handler ∈ handlersOf subscribers messageType ∧
      subscribers[handler]? = some (some messageType) := by
  rcases List.mem_iff_getElem?.mp h with ⟨handler, hhandler⟩
  have hlength : handler < subscribers.length := (List.getElem?_eq_some_iff.mp hhandler).1
  refine ⟨handler, ?_, hhandler⟩
  unfold handlersOf
  apply List.mem_append_left
  exact List.mem_filter.mpr ⟨List.mem_range.mpr hlength, by simp [hhandler]⟩

theorem Called.mono {m m' : Memory} {envelope : Envelope} (h : Called m envelope)
    (hcalls : m.calls <+: m'.calls) : Called m' envelope := by
  rcases h with ⟨call, hcall, hfacts⟩
  exact ⟨call, hcalls.subset hcall, hfacts⟩

theorem subscribers_mono {before after : List (Option MessageType)} {handler : Nat}
    {topic : Option MessageType} (h : before <+: after)
    (hhandler : before[handler]? = some topic) : after[handler]? = some topic := by
  rcases h with ⟨rest, rfl⟩
  rw [List.getElem?_append_left (List.getElem?_eq_some_iff.mp hhandler).1]
  exact hhandler

theorem consumed_of_rows {config : Config} {m m' : Memory} (h : Consumed config m)
    (hcalls : m.calls <+: m'.calls)
    (hrows : forall row, row ∈ m'.inbox.rows -> row.status = .processed ->
      exists old, old ∈ m.inbox.rows ∧ old.status = .processed ∧ old.envelope = row.envelope) :
    Consumed config m' := by
  intro row hrow hprocessed hhandles
  rcases hrows row hrow hprocessed with ⟨old, hold, hstatus, henvelope⟩
  rw [← henvelope] at hhandles ⊢
  exact (h old hold hstatus hhandles).mono hcalls

theorem processed_before {inbox : Inbox} {p : InboxRow -> Bool} {status : InboxStatus}
    (hstatus : status ≠ .processed) {row : InboxRow}
    (hrow : row ∈ (inbox.setStatus p status).rows) (hprocessed : row.status = .processed) :
    exists old, old ∈ inbox.rows ∧ old.status = .processed ∧ old.envelope = row.envelope := by
  rcases mem_setStatus hrow with ⟨old, hold, rfl⟩
  refine ⟨old, hold, ?_, rfl⟩
  by_cases hp : p old = true
  · simp only [hp, if_true] at hprocessed
    exact absurd hprocessed hstatus
  · simpa [hp] using hprocessed

theorem processed_of_added {inbox inbox' : Inbox} {added row : InboxRow}
    (hrows : inbox'.rows = inbox.rows ++ [added]) (hadded : added.status ≠ .processed)
    (hrow : row ∈ inbox'.rows) (hprocessed : row.status = .processed) :
    exists old, old ∈ inbox.rows ∧ old.status = .processed ∧ old.envelope = row.envelope := by
  rw [hrows] at hrow
  rcases List.mem_append.mp hrow with hold | hnew
  · exact ⟨row, hold, hprocessed, rfl⟩
  · rw [List.mem_singleton.mp hnew] at hprocessed
    exact absurd hprocessed hadded

section

variable {config : Config} {m m' : Memory} {t : Task} {ts : Multiset Task}

theorem Handled.drop {ts' : Multiset Task} (h : Handled config m ts) (hle : ts' ≤ ts) :
    Handled config m ts' where
  consumed := h.consumed
  calling envelope handlers ht := h.calling envelope handlers (Multiset.mem_of_le hle ht)
  finishing envelope ht := h.finishing envelope (Multiset.mem_of_le hle ht)

theorem Handled.go {tasks : List Task} (h : Handled config m ts)
    (hconsumed : Consumed config m') (hcalls : m.calls <+: m'.calls)
    (hsubscribers : m.subscribers <+: m'.subscribers)
    (hnew : Handled config m' (tasks : Multiset Task)) :
    Handled config m' ((tasks : Multiset Task) + ts) where
  consumed := hconsumed
  calling envelope handlers ht hhandles := by
    rcases Multiset.mem_add.mp ht with hfresh | hold
    · exact hnew.calling envelope handlers hfresh hhandles
    · rcases h.calling envelope handlers hold hhandles with hcalled | ⟨handler, hmem, htopic⟩
      · exact Or.inl (hcalled.mono hcalls)
      · exact Or.inr ⟨handler, hmem, subscribers_mono hsubscribers htopic⟩
  finishing envelope ht hhandles := by
    rcases Multiset.mem_add.mp ht with hfresh | hold
    · exact hnew.finishing envelope hfresh hhandles
    · exact (h.finishing envelope hold hhandles).mono hcalls

theorem handled_idle {tasks : List Task} (hconsumed : Consumed config m)
    (hidle : forall t', t' ∈ tasks -> t'.Idle) : Handled config m (tasks : Multiset Task) where
  consumed := hconsumed
  calling envelope handlers ht := by
    cases hidle _ (Multiset.mem_coe.mp ht)
  finishing envelope ht := by
    cases hidle _ (Multiset.mem_coe.mp ht)

theorem handled_single {next : Task} (hconsumed : Consumed config m)
    (hcall : forall envelope handlers, next ≠ .call envelope handlers)
    (hfinish : forall envelope, next ≠ .finish envelope false) :
    Handled config m (([next] : List Task) : Multiset Task) where
  consumed := hconsumed
  calling envelope handlers ht :=
    absurd (List.mem_singleton.mp (Multiset.mem_coe.mp ht)).symm (hcall envelope handlers)
  finishing envelope ht :=
    absurd (List.mem_singleton.mp (Multiset.mem_coe.mp ht)).symm (hfinish envelope)

theorem handled_call {envelope : Envelope} {handlers : List Nat} (hconsumed : Consumed config m)
    (h : config.Handles envelope -> Called m envelope ∨ exists handler, handler ∈ handlers ∧
      m.subscribers[handler]? = some (some envelope.messageType)) :
    Handled config m (([.call envelope handlers] : List Task) : Multiset Task) where
  consumed := hconsumed
  calling other others ht hhandles := by
    cases List.mem_singleton.mp (Multiset.mem_coe.mp ht)
    exact h hhandles
  finishing other ht := by
    cases List.mem_singleton.mp (Multiset.mem_coe.mp ht)

theorem handled_finish {envelope : Envelope} (hconsumed : Consumed config m)
    (h : config.Handles envelope -> Called m envelope) :
    Handled config m (([.finish envelope false] : List Task) : Multiset Task) where
  consumed := hconsumed
  calling other others ht := by
    cases List.mem_singleton.mp (Multiset.mem_coe.mp ht)
  finishing other ht hhandles := by
    cases List.mem_singleton.mp (Multiset.mem_coe.mp ht)
    exact h hhandles

theorem handled_called {envelope : Envelope} {handler : Nat} {rest : List Nat} {next : Task}
    (h : Handled config m (.call envelope (handler :: rest) ::ₘ ts))
    (hsame : m'.inbox = m.inbox) (hsubscribers : m'.subscribers = m.subscribers)
    (hcalls : m'.calls = m.calls ++ [m.callOf envelope handler])
    (hnext : next = .finish envelope true ∨ next = .call envelope rest) :
    Handled config m' (([next] : List Task) : Multiset Task) := by
  have hprefix : m.calls <+: m'.calls := ⟨_, hcalls.symm⟩
  have hconsumed : Consumed config m' := by
    apply consumed_of_rows h.consumed hprefix
    intro row hrow hprocessed
    rw [hsame] at hrow
    exact ⟨row, hrow, hprocessed, rfl⟩
  rcases hnext with rfl | rfl
  · apply handled_single hconsumed
    · intro other others heq
      cases heq
    · intro other heq
      cases heq
  · apply handled_call hconsumed
    intro hhandles
    rcases h.calling envelope _ (Multiset.mem_cons_self _ _) hhandles with
      hcalled | ⟨found, hfound, htopic⟩
    · exact Or.inl (hcalled.mono hprefix)
    · rcases List.mem_cons.mp hfound with rfl | hlater
      · left
        refine ⟨m.callOf envelope found, ?_, rfl, ?_⟩
        · rw [hcalls]
          exact List.mem_append_right _ (List.mem_singleton_self _)
        · show (m.subscribers[found]?).getD none = _
          rw [htopic]
          rfl
      · right
        rw [hsubscribers]
        exact ⟨found, hlater, htopic⟩

theorem consumed_finish {envelope : Envelope} {raised : Bool}
    (hholding : Holding m (.finish envelope raised ::ₘ ts))
    (h : Handled config m (.finish envelope raised ::ₘ ts)) :
    Consumed config (m.withInbox (m.inbox.finish envelope.messageId raised)) := by
  intro row hrow hprocessed hhandles
  rcases mem_setStatus hrow with ⟨old, hold, rfl⟩
  change config.Handles old.envelope at hhandles
  show Called m old.envelope
  by_cases hid : old.messageId = envelope.messageId
  · rcases hholding.held _ envelope (Multiset.mem_cons_self _ _) rfl with
      ⟨held, hheld, henvelope, _⟩
    have hsame : old = held := by
      apply Inbox.eq_of_messageId hold hheld
      rw [hid, (hholding.formed held hheld).messageId, henvelope]
    rw [hsame, henvelope]
    rw [hsame, henvelope] at hhandles
    cases raised with
    | true => simp [hid] at hprocessed
    | false => exact h.finishing envelope (Multiset.mem_cons_self _ _) hhandles
  · have hstatus : old.status = .processed := by simpa [hid] using hprocessed
    exact h.consumed old hold hstatus hhandles

end

theorem handled_keeps (config : Config) :
    (machine config).Keeps (Attached config) Holding (Handled config) where
  drop h hle := h.drop hle
  spawn {m ts entry} _ h _ := by
    rw [add_comm]
    exact h.go h.consumed (List.prefix_refl _) (List.prefix_refl _)
      (handled_idle h.consumed (start_idle entry))
  crash {m ts} _ h := by
    have hconsumed : Consumed config (m.restart config) := by
      refine consumed_of_rows h.consumed (List.prefix_refl _) ?_
      intro row hrow hprocessed
      exact processed_before (by decide) hrow hprocessed
    exact @handled_idle config (m.restart config) [] hconsumed (fun t' ht' => by cases ht')
  exec {m t ts r} hholding h hcondition := by
    have hrest := h.drop (Multiset.le_cons_self ts t)
    have heffect := hholding.effect config r
    have hgo : forall {m' : Memory} {tasks : List Task}, m'.calls = m.calls ->
        m'.subscribers = m.subscribers ->
        (forall row, row ∈ m'.inbox.rows -> row.status = .processed -> exists old,
          old ∈ m.inbox.rows ∧ old.status = .processed ∧ old.envelope = row.envelope) ->
        (Consumed config m' -> Handled config m' (tasks : Multiset Task)) ->
        Handled config m' ((tasks : Multiset Task) + ts) := by
      intro m' tasks hcalls hsubscribers hrows hnew
      have hprefix : m.calls <+: m'.calls := hcalls ▸ List.prefix_refl m.calls
      have hconsumed := consumed_of_rows h.consumed hprefix hrows
      exact hrest.go hconsumed hprefix (hsubscribers ▸ List.prefix_refl m.subscribers)
        (hnew hconsumed)
    have hsame : forall row, row ∈ m.inbox.rows -> row.status = .processed -> exists old,
        old ∈ m.inbox.rows ∧ old.status = .processed ∧ old.envelope = row.envelope :=
      fun row hrow hprocessed => ⟨row, hrow, hprocessed, rfl⟩
    show Handled config (exec config m t r).1
      (((exec config m t r).2.tasks : Multiset Task) + ts)
    generalize exec config m t r = result at heffect
    cases heffect with
    | quiet _ hinbox _ _ hcalls hsubscribers hleaves =>
        have hprefix : m.calls <+: result.1.calls := hcalls ▸ List.prefix_refl m.calls
        have hconsumed : Consumed config result.1 :=
          consumed_of_rows h.consumed hprefix (hinbox ▸ hsame)
        exact hrest.go hconsumed hprefix hsubscribers (handled_idle hconsumed hleaves)
    | staged _ hrows =>
        refine hgo rfl rfl (fun row => processed_of_added hrows (fun heq => by cases heq)) ?_
        intro hconsumed
        exact handled_single hconsumed (fun _ _ heq => by cases heq) (fun _ heq => by cases heq)
    | activated envelope status =>
        refine hgo rfl rfl (fun row => processed_before (fun heq => by cases heq)) ?_
        intro hconsumed
        exact handled_single hconsumed (fun _ _ heq => by cases heq) (fun _ heq => by cases heq)
    | discarded envelope =>
        refine hgo rfl rfl ?_ (fun hconsumed => handled_idle hconsumed (fun t' ht' => by cases ht'))
        intro row hrow hprocessed
        exact ⟨row, (Table.mem_delete_iff.mp hrow).1, hprocessed, rfl⟩
    | enqueued _ hrows =>
        exact hgo rfl rfl (fun row => processed_of_added hrows (fun heq => by cases heq))
          (fun hconsumed => handled_idle hconsumed (fun t' ht' => by cases ht'))
    | claimed hclaim hflow =>
        rcases Inbox.claim_eq_some hclaim with ⟨_, _, rfl⟩
        refine hgo rfl rfl (fun row => processed_before (fun heq => by cases heq)) ?_
        intro hconsumed
        rcases hflow with rfl | ⟨rfl, _⟩
        · exact handled_single hconsumed (fun _ _ heq => by cases heq)
            (fun _ heq => by cases heq)
        · exact handled_idle hconsumed (fun t' ht' => by cases ht')
    | refused envelope =>
        refine hgo rfl rfl hsame ?_
        intro hconsumed
        exact handled_single hconsumed (fun _ _ heq => by cases heq) (fun _ heq => by cases heq)
    | published envelope =>
        refine hgo rfl rfl hsame ?_
        intro hconsumed
        exact handled_call hconsumed (fun hhandles => Or.inr (mem_handlersOf (hcondition hhandles)))
    | returned envelope =>
        refine hgo rfl rfl hsame ?_
        intro hconsumed
        apply handled_finish hconsumed
        intro hhandles
        rcases h.calling envelope [] (Multiset.mem_cons_self _ _) hhandles with
          hcalled | ⟨handler, hmem, _⟩
        · exact hcalled
        · cases hmem
    | @called envelope handler rest next hnext =>
        have hnew := @handled_called config m
          { m with calls := m.calls ++ [m.callOf envelope handler] } ts envelope handler rest
          next h rfl rfl rfl hnext
        exact hrest.go hnew.consumed (List.prefix_append _ _) (List.prefix_refl _) hnew
    | finished envelope raised =>
        have hconsumed := consumed_finish hholding h
        exact hrest.go hconsumed (List.prefix_refl _) (List.prefix_refl _)
          (handled_idle hconsumed (fun t' ht' => by cases ht'))

/-- In every run in which workers pass messages of the node's types to the bus only after
the node has subscribed to them, each processed message of those types was given to a
handler of its type. -/
theorem consumed_by_handler (config : Config) (p : Pool Memory Task)
    (h : (machine config).Reaches (Attached config) initial p) : Consumed config p.shared := by
  have hhandled : Handled config p.shared p.tasks := by
    apply (handled_keeps config).reaches h (fun _ hq => reaches_holding hq)
    constructor
    · intro row hrow
      cases hrow
    · intro envelope handlers ht
      cases Multiset.notMem_zero _ ht
    · intro envelope ht
      cases Multiset.notMem_zero _ ht
  exact hhandled.consumed

/-!
## A robot that starts again

A coordinator has delivered an assignment, and the robot's process ends before a worker
takes it.
-/

def robotConfig : Config where
  robotId := "r1"
  receiver := { protector := .sqlite, sha256 := fun _ => "d" }
  topics := [some .assignment, some .assignmentQuery, some .cancellationRequest]

def assigned : Envelope :=
  { heartbeat 1 with messageType := .assignment, sourceId := "c" }

def steps (thread count : Nat) : List (Action Reading Entry) :=
  List.replicate count (.run thread { raised := false })

def backlog : List (Action Reading Entry) :=
  .spawn (.connect "c" assigned) :: steps 0 5 ++ [.crash]

def startedUp (thread : Nat) : List (Action Reading Entry) :=
  .spawn .startUp :: steps thread 4

def worked (thread count : Nat) : List (Action Reading Entry) :=
  .spawn .work :: steps thread count

/-- The status of each row, and the types of the calls. -/
def startView (p : Pool Memory Task) : List InboxStatus × List (Option MessageType) :=
  (p.shared.inbox.rows.map (fun row => row.status), p.shared.calls.map (fun call => call.topic))

def attached (config : Config) (p : Pool Memory Task) : Action Reading Entry -> Bool
  | .run i _ =>
      match p.nextTask i with
      | some (.publish envelope) =>
          !config.topics.contains (some envelope.messageType) ||
            p.shared.subscribers.contains (some envelope.messageType)
      | _ => true
  | _ => true

theorem meets_of_attached (config : Config) (p : Pool Memory Task) (a : Action Reading Entry)
    (h : attached config p a = true) : Machine.Meets (Attached config) p a := by
  cases a with
  | run i r =>
      intro t others hnext _
      cases t with
      | publish envelope =>
          intro hhandles
          simp only [attached, hnext, Bool.or_eq_true, Bool.not_eq_true',
            List.contains_iff_mem] at h
          rcases h with hother | hsubscribed
          · have hmem : config.topics.contains (some envelope.messageType) = true :=
              List.contains_iff_mem.mpr hhandles
            rw [hother] at hmem
            cases hmem
          · exact hsubscribed
      | _ => trivial
  | spawn e => trivial
  | stop i => trivial
  | crash => trivial

set_option maxRecDepth 8000 in
theorem backlog_handled :
    exists p, (machine robotConfig).runWhere (attached robotConfig) initial
        (backlog ++ startedUp 0 ++ worked 1 5) = some p ∧
      startView p = ([.processed], [some .assignment]) ∧ Consumed robotConfig p.shared := by
  have hview : ((machine robotConfig).runWhere (attached robotConfig) initial
      (backlog ++ startedUp 0 ++ worked 1 5)).map startView =
        some ([.processed], [some .assignment]) := by
    decide +kernel
  rcases Option.map_eq_some_iff.mp hview with ⟨p, hrun, hview⟩
  exact ⟨p, hrun, hview, consumed_by_handler robotConfig p
    (Machine.runWhere_reaches (meets_of_attached robotConfig) hrun)⟩

set_option maxRecDepth 8000 in
/-- The worker was faster than the start-up: the assignment is processed, and no handler
was called. -/
theorem backlog_lost :
    ¬ forall p, (machine robotConfig).Reaches .always initial p ->
      Consumed robotConfig p.shared := by
  intro hall
  have hview : ((machine robotConfig).run initial
      (backlog ++ worked 0 4 ++ startedUp 1)).map (fun p => (startView p,
        p.shared.inbox.rows.all (fun row => row.envelope.messageType == .assignment))) =
        some (([.processed], []), true) := by
    decide +kernel
  rcases Option.map_eq_some_iff.mp hview with ⟨p, hrun, hviews⟩
  rcases Prod.mk.inj hviews with ⟨hview, htypes⟩
  rcases Prod.mk.inj hview with ⟨hrows, hcalls⟩
  rcases List.map_eq_singleton_iff.mp hrows with ⟨row, hrow, hprocessed⟩
  have hmem : row ∈ p.shared.inbox.rows := hrow ▸ List.mem_singleton_self row
  have htype : row.envelope.messageType = .assignment := by
    simpa using List.all_eq_true.mp htypes row hmem
  rcases hall p (Machine.run_reaches hrun) row hmem hprocessed (by
    unfold Config.Handles
    rw [htype]
    decide) with ⟨call, hcall, _⟩
  rw [List.map_eq_nil_iff.mp hcalls] at hcall
  cases hcall

end Ump.Node
