import Ump.Participant.Runtime

/-!
# What a participant task does

## Inversion of a task

Most tasks read, check and pass on work. The others take a delivery one step further on
its way to the adapter, or write to the journal.
-/

namespace Ump.Participant

open Foundation Journal

def Task.pending? : Task -> Option Delivery
  | .submit delivery => some delivery
  | .execute delivery => some delivery
  | _ => none

def Task.claiming? : Task -> Option Delivery
  | .claim delivery => some delivery
  | _ => none

def Task.running? : Task -> Option Delivery
  | .settle delivery => some delivery
  | .lookupLatest delivery _ => some delivery
  | .complete delivery _ _ => some delivery
  | _ => none

def Task.recording? : Task -> Option String
  | .complete delivery _ _ => some delivery.assignment.assignmentId
  | .recordCancellation cancelled _ _ => some cancelled.assignmentId
  | _ => none

/-- What a task that only passes on work leaves to its thread. -/
structure Task.Leaves (t t' : Task) : Prop where
  pending : t'.pending? = none
  claiming : t'.claiming? = none
  running : forall delivery, t'.running? = some delivery -> t.running? = some delivery

inductive Effect (config : Config) (m : Memory) : Task -> Memory × Flow Task -> Prop where
  | quiet {t : Task} {result : Memory × Flow Task}
      (hjournal : result.1.journal = m.journal) (hqueue : result.1.queue = m.queue)
      (hhistory : result.1.history = m.history)
      (hleaves : forall t', t' ∈ result.2.tasks -> t.Leaves t') : Effect config m t result
  | admitted {delivery : Delivery}
      (hdecoded : assignmentOf config.robotId delivery.envelope.payload =
        .ok (some delivery.assignment))
      (hchecked : checkDelivery config delivery.assignment delivery.reading = .ok ()) :
      Effect config m (.assignment delivery.envelope)
        ({ m with history := m.history ++ [.admitted delivery] }, .next [.claim delivery])
  | claimed {delivery : Delivery} {journal : Journal} {message : Message}
      {stamp : Option Int} {cause : Envelope} {next : Task}
      (hclaimed : Claimed config.sha256 m.journal delivery.assignment
        delivery.envelope.sourceId .new journal)
      (hnext : next.pending? = some delivery) :
      Effect config m (.claim delivery)
        ({ m with journal := journal, history := m.history ++ [.claimed delivery] },
          .next [.send message stamp cause, next])
  | submitted (delivery : Delivery) :
      Effect config m (.submit delivery)
        ({ m with queue := m.queue ++ [delivery] }, .next [])
  | taken {delivery : Delivery} {rest : List Delivery} (hqueue : m.queue = delivery :: rest) :
      Effect config m .work ({ m with queue := rest }, .next [.execute delivery])
  | executed (delivery : Delivery) :
      Effect config m (.execute delivery)
        ({ m with history := m.history ++ [.accepted delivery] }, .next [.settle delivery])
  | recorded {t : Task} {result : Memory × Flow Task} {assignmentId : String}
      {outcome : Outcome} {stored : JournalRecord}
      (hrecording : t.recording? = some assignmentId)
      (hstored : m.journal.lookup assignmentId = some stored)
      (hjournal : result.1.journal = m.journal.record assignmentId outcome)
      (hqueue : result.1.queue = m.queue) (hhistory : result.1.history = m.history)
      (hleaves : forall t', t' ∈ result.2.tasks -> t.Leaves t') : Effect config m t result
  | resolved {t : Task} {journal : Journal} {assignmentId : String} {outcome : Outcome}
      {stored : JournalRecord} (hstored : m.journal.lookup assignmentId = some stored)
      (hunknown : stored.status = .unknown) (hopen : stored.outcome = none)
      (hlookup : forall otherId,
        journal.lookup otherId = (m.journal.record assignmentId outcome).lookup otherId) :
      Effect config m t ({ m with journal := journal }, .next [])

theorem Effect.raised {config : Config} {m : Memory} (t : Task) :
    Effect config m t (m, .raised) :=
  .quiet rfl rfl rfl (fun t' ht' => by cases ht')

theorem Effect.ignored {config : Config} {m : Memory} (t : Task) :
    Effect config m t (m, .next []) :=
  .quiet rfl rfl rfl (fun t' ht' => by cases ht')

theorem Effect.attempt {config : Config} {m : Memory} {t : Task} {x : Except Exn value}
    {next : value -> Memory × Flow Task}
    (h : forall v, x = .ok v -> Effect config m t (next v)) :
    Effect config m t (Foundation.attempt m x next) := by
  cases x with
  | ok v => exact h v rfl
  | error e => exact .raised t

theorem leaves_nil {t : Task} (t' : Task) (ht : t' ∈ ([] : List Task)) : t.Leaves t' := by
  cases ht

theorem leaves_cons {t next : Task} {rest : List Task} (hnext : t.Leaves next)
    (hrest : forall t', t' ∈ rest -> t.Leaves t') (t' : Task) (ht : t' ∈ next :: rest) :
    t.Leaves t' := by
  rcases List.mem_cons.mp ht with rfl | ht
  · exact hnext
  · exact hrest t' ht

theorem leaves_send (t : Task) (message : Message) (stamp : Option Int)
    (cause : Envelope) : t.Leaves (.send message stamp cause) :=
  ⟨rfl, rfl, fun _ h => by cases h⟩

theorem leaves_report {t : Task} {outcome : Outcome} {nowMs : Int} {cause : Envelope}
    (t' : Task) (ht : t' ∈ report outcome nowMs cause) : t.Leaves t' := by
  apply leaves_cons (leaves_send t _ _ _) ?_ t' ht
  apply leaves_cons ⟨rfl, rfl, fun _ h => by cases h⟩
  exact leaves_nil

theorem Effect.answer {config : Config} {m : Memory} {t : Task} {delivery : Delivery}
    {description : String} {outcome : Except Exn Outcome} :
    Effect config m t (Ump.Participant.answer m delivery description outcome) := by
  apply Effect.attempt
  intro outcome _
  refine Effect.quiet rfl rfl rfl ?_
  exact leaves_cons (leaves_send t _ _ _) (leaves_cons (leaves_send t _ _ _) leaves_nil)

theorem Effect.completed {config : Config} {m : Memory} {t : Task} {assignment : Assignment}
    {outcome : Outcome} {nowMs : Int} {tasks : List Task}
    (hrecording : t.recording? = some assignment.assignmentId)
    (hleaves : forall t', t' ∈ tasks -> t.Leaves t') :
    Effect config m t (Foundation.attempt m
      (m.journal.complete config.sha256 assignment outcome nowMs)
      (fun journal => ({ m with journal := journal }, .next tasks))) := by
  apply Effect.attempt
  intro journal hcomplete
  rcases complete_eq_ok hcomplete with ⟨rfl, stored, hstored, _⟩
  exact .recorded hrecording hstored rfl rfl rfl hleaves

theorem exec_effect (config : Config) (m : Memory) (t : Task) (r : Reading) :
    Effect config m t (exec config m t r) := by
  cases t with
  | assignment envelope =>
      rw [exec]
      apply Effect.attempt
      rintro (_ | assignment) hdecoded
      · exact .ignored _
      · dsimp only
        cases hchecked : checkDelivery config assignment r with
        | ok _ =>
            exact @Effect.admitted config m
              { envelope := envelope, assignment := assignment, reading := r } hdecoded hchecked
        | error refusal =>
            cases refusal with
            | rejected description => exact .answer
            | raised => exact .raised _
  | claim delivery =>
      rw [exec]
      apply Effect.attempt
      rintro ⟨result, journal⟩ hclaim
      have hclaimed := claim_eq_ok hclaim
      cases hclaimed with
      | new hfree hlookup =>
          refine Effect.claimed (.new hfree hlookup) ?_
          split_ifs <;> rfl
      | resourceConflict hfree => exact .answer
      | conflict hstored hdiffers => exact .answer
      | replay hstored hissuer houtcome => exact .answer
      | uncertain hstored houtcome => exact .answer
  | submit delivery => exact .submitted delivery
  | work =>
      rw [exec]
      cases hqueue : m.queue with
      | nil => exact .ignored _
      | cons delivery rest => exact .taken hqueue
  | execute delivery => exact .executed delivery
  | settle delivery =>
      rw [exec]
      apply Effect.attempt
      intro outcome _
      refine Effect.quiet rfl rfl rfl ?_
      exact leaves_cons ⟨rfl, rfl, fun _ h => h⟩ leaves_nil
  | lookupLatest delivery outcome =>
      rw [exec]
      cases (m.journal.lookup delivery.assignment.assignmentId).bind
          (fun latest => latest.outcome) with
      | some stored => exact .quiet rfl rfl rfl leaves_report
      | none =>
          refine Effect.quiet rfl rfl rfl ?_
          exact leaves_cons ⟨rfl, rfl, fun _ h => h⟩ leaves_nil
  | complete delivery outcome nowMs =>
      rw [exec]
      exact .completed rfl leaves_report
  | publishState nowMs cause =>
      rw [exec]
      cases r.state with
      | none => exact .raised _
      | some snapshot =>
          refine Effect.quiet rfl rfl rfl ?_
          intro t' ht'
          have hsend : exists stream, t' = .sendState snapshot nowMs cause stream := by
            rcases List.mem_append.mp ht' with ht' | ht'
            · split_ifs at ht'
              · exact ⟨_, List.mem_singleton.mp ht'⟩
              · cases ht'
            · exact ⟨_, List.mem_singleton.mp ht'⟩
          rcases hsend with ⟨stream, rfl⟩
          exact ⟨rfl, rfl, fun _ h => by cases h⟩
  | sendState snapshot nowMs cause stream => exact .quiet rfl rfl rfl leaves_nil
  | assignmentQuery envelope =>
      rw [exec]
      apply Effect.attempt
      rintro (_ | record) _
      · exact .ignored _
      · exact .quiet rfl rfl rfl (leaves_cons (leaves_send _ _ _ _) leaves_nil)
  | cancellationRequest envelope =>
      rw [exec]
      apply Effect.attempt
      intro _ _
      apply Effect.attempt
      rintro (_ | record) _
      · exact .ignored _
      · dsimp only
        cases record.outcome with
        | some outcome =>
            refine Effect.quiet rfl rfl rfl ?_
            exact leaves_cons (leaves_send _ _ _ _) (leaves_cons (leaves_send _ _ _ _) leaves_nil)
        | none =>
            dsimp only
            split_ifs
            · exact .quiet rfl rfl rfl (leaves_cons (leaves_send _ _ _ _) leaves_nil)
            · refine Effect.quiet rfl rfl rfl ?_
              exact leaves_cons ⟨rfl, rfl, fun _ h => by cases h⟩ leaves_nil
  | cancelNative assignment envelope =>
      rw [exec]
      rcases r.cancelled with _ | ⟨cancelled, description⟩
      · exact .raised _
      · cases cancelled with
        | true =>
            refine Effect.quiet rfl rfl rfl ?_
            exact leaves_cons ⟨rfl, rfl, fun _ h => by cases h⟩ leaves_nil
        | false => exact .quiet rfl rfl rfl (leaves_cons (leaves_send _ _ _ _) leaves_nil)
  | recordCancellation assignment description envelope =>
      rw [exec]
      apply Effect.attempt
      intro outcome _
      apply Effect.completed rfl
      exact leaves_cons (leaves_send _ _ _ _) (leaves_cons (leaves_send _ _ _ _) leaves_nil)
  | send message stamp cause =>
      rw [exec]
      apply Effect.attempt
      intro _ _
      exact .quiet rfl rfl rfl leaves_nil
  | resolveUnknown assignmentId status description resolverId evidence nowMs =>
      rw [exec]
      apply Effect.attempt
      rintro ⟨outcome, journal⟩ hresolve
      rcases resolveUnknown_eq_ok hresolve with ⟨⟨stored, hstored, hunknown, hopen⟩, hlookup⟩
      exact .resolved hstored hunknown hopen hlookup

inductive Starts : Entry -> Task -> Prop where
  | assignment {envelope : Envelope} (hkind : envelope.messageType = .assignment) :
      Starts (.receive envelope) (.assignment envelope)
  | assignmentQuery {envelope : Envelope} (hkind : envelope.messageType = .assignmentQuery) :
      Starts (.receive envelope) (.assignmentQuery envelope)
  | cancellationRequest {envelope : Envelope}
      (hkind : envelope.messageType = .cancellationRequest) :
      Starts (.receive envelope) (.cancellationRequest envelope)
  | work : Starts .work .work
  | resolveUnknown (assignmentId : String) (status : AssignmentStatus)
      (description resolverId evidence : String) (nowMs : Int) :
      Starts (.resolveUnknown assignmentId status description resolverId evidence nowMs)
        (.resolveUnknown assignmentId status description resolverId evidence nowMs)

theorem start_cases {entry : Entry} {t : Task} (ht : t ∈ start entry) : Starts entry t := by
  cases entry with
  | receive envelope =>
      unfold start at ht
      cases hkind : envelope.messageType <;> simp only [hkind] at ht <;>
        first
        | (rw [List.mem_singleton.mp ht]; constructor; exact hkind)
        | cases ht
  | work =>
      rw [List.mem_singleton.mp ht]
      exact .work
  | resolveUnknown assignmentId status description resolverId evidence nowMs =>
      rw [List.mem_singleton.mp ht]
      exact .resolveUnknown assignmentId status description resolverId evidence nowMs

theorem start_leaves (entry : Entry) (t : Task) (ht : t ∈ start entry) :
    t.pending? = none ∧ t.claiming? = none ∧ t.running? = none := by
  cases start_cases ht <;> exact ⟨rfl, rfl, rfl⟩

theorem exec_grows (config : Config) (m : Memory) (t : Task) (r : Reading) :
    Grows m.journal (exec config m t r).1.journal := by
  generalize hresult : exec config m t r = result
  have heffect : Effect config m t result := hresult ▸ exec_effect config m t r
  cases heffect with
  | quiet hjournal hqueue hhistory hleaves =>
      rw [hjournal]
      exact .rfl m.journal
  | claimed hclaimed hnext => exact hclaimed.grows
  | @recorded _ _ assignmentId outcome _ _ _ hjournal _ _ _ =>
      rw [hjournal]
      exact grows_record m.journal assignmentId outcome
  | @resolved _ journal assignmentId outcome _ _ _ _ hlookup =>
      intro otherId record hrecord
      rw [hlookup]
      exact grows_record m.journal assignmentId outcome otherId record hrecord
  | _ => exact .rfl m.journal

theorem reaches_grows {config : Config} {C : Condition Memory Task Reading Entry}
    {p q : Pool Memory Task} (h : (machine config).Reaches C p q) :
    Grows p.shared.journal q.shared.journal :=
  Machine.Reaches.relates (fun a b => Grows a.journal b.journal) (fun m => .rfl m.journal)
    Grows.trans (exec_grows config) (fun m => grows_reopen m.journal) h

/-!
## Publishing
-/

structure Silent (m : Memory) (result : Memory × Flow Task) : Prop where
  sent : result.1.sent = m.sent
  sequences : result.1.sequences = m.sequences
  process : result.1.process = m.process

theorem silent_of_memory {m : Memory} {flow : Flow Task} : Silent m (m, flow) :=
  ⟨rfl, rfl, rfl⟩

theorem Silent.attempt {m : Memory} {x : Except Exn value}
    {next : value -> Memory × Flow Task} (h : forall v, x = .ok v -> Silent m (next v)) :
    Silent m (Foundation.attempt m x next) := by
  cases x with
  | ok v => exact h v rfl
  | error e => exact silent_of_memory

theorem Silent.answer {m m' : Memory} {delivery : Delivery} {description : String}
    {outcome : Except Exn Outcome} (hsent : m'.sent = m.sent)
    (hsequences : m'.sequences = m.sequences) (hprocess : m'.process = m.process) :
    Silent m (Ump.Participant.answer m' delivery description outcome) := by
  unfold Ump.Participant.answer
  cases outcome <;> exact ⟨hsent, hsequences, hprocess⟩

def Task.message? : Task -> Option Message
  | .send message _ _ => some message
  | .sendState snapshot _ _ _ => some (.state snapshot)
  | _ => none

theorem exec_publishes (config : Config) (m : Memory) (t : Task) (r : Reading) :
    Silent m (exec config m t r) ∨
      exists message nowMs cause stream lastPublishedSafety, t.message? = some message ∧
        (exec config m t r).1 = { publish config m message nowMs cause stream r.uuid4 with
          lastPublishedSafety := lastPublishedSafety } := by
  cases t with
  | assignment envelope =>
      left
      rw [exec]
      apply Silent.attempt
      rintro (_ | assignment) _
      · exact silent_of_memory
      · dsimp only
        cases checkDelivery config assignment r with
        | ok _ => exact ⟨rfl, rfl, rfl⟩
        | error refusal =>
            cases refusal with
            | rejected description => exact .answer rfl rfl rfl
            | raised => exact silent_of_memory
  | claim delivery =>
      left
      rw [exec]
      apply Silent.attempt
      rintro ⟨result, journal⟩ _
      cases result with
      | new => exact ⟨rfl, rfl, rfl⟩
      | _ => exact .answer rfl rfl rfl
  | work =>
      left
      rw [exec]
      cases m.queue <;> exact ⟨rfl, rfl, rfl⟩
  | settle delivery =>
      left
      rw [exec]
      exact .attempt (fun _ _ => silent_of_memory)
  | lookupLatest delivery outcome =>
      left
      rw [exec]
      cases (m.journal.lookup delivery.assignment.assignmentId).bind
        (fun latest => latest.outcome) <;> exact silent_of_memory
  | complete delivery outcome nowMs =>
      left
      rw [exec]
      exact .attempt (fun _ _ => ⟨rfl, rfl, rfl⟩)
  | publishState nowMs cause =>
      left
      rw [exec]
      cases r.state <;> exact silent_of_memory
  | sendState snapshot nowMs cause stream =>
      exact Or.inr ⟨_, nowMs, cause, stream, some snapshot.safety, rfl, rfl⟩
  | assignmentQuery envelope =>
      left
      rw [exec]
      apply Silent.attempt
      rintro (_ | record) _ <;> exact silent_of_memory
  | cancellationRequest envelope =>
      left
      rw [exec]
      apply Silent.attempt
      intro _ _
      apply Silent.attempt
      rintro (_ | record) _
      · exact silent_of_memory
      · dsimp only
        cases record.outcome with
        | some outcome => exact silent_of_memory
        | none =>
            dsimp only
            split_ifs <;> exact silent_of_memory
  | cancelNative assignment envelope =>
      left
      rw [exec]
      rcases r.cancelled with _ | ⟨_ | _, description⟩ <;> exact silent_of_memory
  | recordCancellation assignment description envelope =>
      left
      rw [exec]
      apply Silent.attempt
      intro _ _
      exact .attempt (fun _ _ => ⟨rfl, rfl, rfl⟩)
  | send message stamp cause =>
      rw [exec]
      cases message.check config.robotId with
      | error e => exact Or.inl silent_of_memory
      | ok _ =>
          exact Or.inr ⟨message, stamp.getD r.nowMs, cause, .operational,
            m.lastPublishedSafety, rfl, rfl⟩
  | resolveUnknown assignmentId status description resolverId evidence nowMs =>
      left
      rw [exec]
      exact .attempt (fun _ _ => ⟨rfl, rfl, rfl⟩)
  | _ => exact Or.inl ⟨rfl, rfl, rfl⟩

end Ump.Participant
