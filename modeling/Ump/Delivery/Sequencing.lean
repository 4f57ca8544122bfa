import Mathlib.Data.List.Induction
import Ump.Foundation.Log
import Ump.Coordinator.Successors
import Ump.Delivery.Inbox
import Ump.Participant.Effects

/-!
# Sequence order and outbox order

## The numbers of a session

Each envelope takes the next number of its session and stream before it is handed to
the bus. The participant does both under one lock. The coordinator takes no lock, so its
numbers enter the outbox in order where no thread overtakes one with a lower number.
-/

namespace Ump.Delivery

open Foundation

def SequenceOrdered (envelopes : List Envelope) : Prop :=
  Rising laneOf (fun envelope => envelope.sequence) envelopes

def floorsAfter (envelopes : List Envelope) : Floors :=
  envelopes.foldl (fun floors envelope =>
    floors.raiseTo (laneOf envelope) envelope.sequence) []

/-- The numbers rise in each lane, and each envelope is above the floor of a receiver
that has taken those before it. -/
structure OutboxOrdered (envelopes : List Envelope) : Prop where
  ordered : SequenceOrdered envelopes
  accepted : forall before envelope after, envelopes = before ++ envelope :: after ->
    (floorsAfter before).floor (laneOf envelope) < envelope.sequence

theorem floor_floorsAfter (envelopes : List Envelope) (lane : Lane) :
    (floorsAfter envelopes).floor lane = 0 ∨ exists envelope, envelope ∈ envelopes ∧
      laneOf envelope = lane ∧ (floorsAfter envelopes).floor lane = envelope.sequence := by
  induction envelopes using List.reverseRecOn with
  | nil => exact Or.inl rfl
  | append_singleton rest last ih =>
      have hlast : floorsAfter (rest ++ [last]) =
          (floorsAfter rest).raiseTo (laneOf last) last.sequence := by
        unfold floorsAfter
        rw [List.foldl_append]
        rfl
      rw [hlast]
      by_cases hlane : laneOf last = lane
      · subst hlane
        exact Or.inr ⟨last, by simp, rfl, Floors.floor_raiseTo_self _ _ _⟩
      · rw [Floors.floor_raiseTo_ne (Ne.symm hlane)]
        rcases ih with hzero | ⟨envelope, hmem, hsame, hfloor⟩
        · exact Or.inl hzero
        · exact Or.inr ⟨envelope, List.mem_append_left _ hmem, hsame, hfloor⟩

/-- What one process of a sender has published: the numbers rise, those of its own
session are at most the last one that it took, and older ones are of older sessions. -/
structure Sequenced (sessionId : Nat -> String) (process : Nat) (last : Stream -> Nat)
    (envelopes : List Envelope) : Prop where
  ordered : SequenceOrdered envelopes
  positive : forall envelope, envelope ∈ envelopes -> 0 < envelope.sequence
  sessions : forall envelope, envelope ∈ envelopes ->
    exists k, k ≤ process ∧ envelope.sessionId = sessionId k
  bounded : forall envelope, envelope ∈ envelopes ->
    envelope.sessionId = sessionId process -> envelope.sequence ≤ last envelope.stream

theorem Sequenced.outboxOrdered {sessionId : Nat -> String} {process : Nat}
    {last : Stream -> Nat} {envelopes : List Envelope}
    (h : Sequenced sessionId process last envelopes) : OutboxOrdered envelopes where
  ordered := h.ordered
  accepted := by
    rintro before envelope after rfl
    rcases floor_floorsAfter before (laneOf envelope) with hzero | ⟨earlier, hmem, hlane, hfloor⟩
    · rw [hzero]
      exact h.positive envelope (by simp)
    · rw [hfloor]
      exact (List.pairwise_append.mp h.ordered).2.2 earlier hmem envelope (by simp) hlane

/-- The processes up to this one have sessions of their own. -/
def Distinct (sessionId : Nat -> String) (process : Nat) : Prop :=
  forall i j, i ≤ process -> j ≤ process -> sessionId i = sessionId j -> i = j

theorem Distinct.before {sessionId : Nat -> String} {process : Nat}
    (h : Distinct sessionId (process + 1)) : Distinct sessionId process :=
  fun i j hi hj => h i j (Nat.le_succ_of_le hi) (Nat.le_succ_of_le hj)

theorem Sequenced.restart {sessionId : Nat -> String} {process : Nat}
    (hdistinct : Distinct sessionId (process + 1)) {last : Stream -> Nat}
    {envelopes : List Envelope} (h : Sequenced sessionId process last envelopes) :
    Sequenced sessionId (process + 1) (fun _ => 0) envelopes where
  ordered := h.ordered
  positive := h.positive
  sessions envelope hmem := by
    rcases h.sessions envelope hmem with ⟨k, hk, hsession⟩
    exact ⟨k, Nat.le_succ_of_le hk, hsession⟩
  bounded envelope hmem hsession := by
    rcases h.sessions envelope hmem with ⟨k, hk, hold⟩
    have hsame : k = process + 1 :=
      hdistinct k (process + 1) (Nat.le_succ_of_le hk) (Nat.le_refl _) (hold.symm.trans hsession)
    omega

theorem Sequenced.publish {sessionId : Nat -> String} {process : Nat}
    {last last' : Stream -> Nat} {envelopes : List Envelope} {envelope : Envelope}
    (h : Sequenced sessionId process last envelopes)
    (hsession : envelope.sessionId = sessionId process) (hpositive : 0 < envelope.sequence)
    (habove : forall earlier, earlier ∈ envelopes -> earlier.sessionId = sessionId process ->
      earlier.stream = envelope.stream -> earlier.sequence < envelope.sequence)
    (hlast : envelope.sequence ≤ last' envelope.stream)
    (hgrows : forall stream, last stream ≤ last' stream) :
    Sequenced sessionId process last' (envelopes ++ [envelope]) where
  ordered := by
    apply rising_concat h.ordered
    intro earlier hmem hlane
    have hfields := Lane.mk.injEq .. ▸ hlane
    exact habove earlier hmem (hfields.2.1.trans hsession) hfields.2.2
  positive other hmem := by
    rcases List.mem_append.mp hmem with hold | hnew
    · exact h.positive other hold
    · rw [List.mem_singleton.mp hnew]
      exact hpositive
  sessions other hmem := by
    rcases List.mem_append.mp hmem with hold | hnew
    · exact h.sessions other hold
    · rw [List.mem_singleton.mp hnew]
      exact ⟨process, Nat.le_refl _, hsession⟩
  bounded other hmem hother := by
    rcases List.mem_append.mp hmem with hold | hnew
    · have hbound := h.bounded other hold hother
      have hmore := hgrows other.stream
      omega
    · rw [List.mem_singleton.mp hnew]
      exact hlast

theorem Sequenced.grow {sessionId : Nat -> String} {process : Nat}
    {last last' : Stream -> Nat} {envelopes : List Envelope}
    (h : Sequenced sessionId process last envelopes)
    (hgrows : forall stream, last stream ≤ last' stream) :
    Sequenced sessionId process last' envelopes where
  ordered := h.ordered
  positive := h.positive
  sessions := h.sessions
  bounded envelope hmem hsession := by
    have hbound := h.bounded envelope hmem hsession
    have hmore := hgrows envelope.stream
    omega

theorem sequenced_nil (sessionId : Nat -> String) : Sequenced sessionId 0 (fun _ => 0) [] where
  ordered := List.Pairwise.nil
  positive _ hmem := by cases hmem
  sessions _ hmem := by cases hmem
  bounded _ hmem := by cases hmem

/-!
## The participant
-/

def sentEnvelopes (m : Participant.Memory) : List Envelope :=
  m.sent.map (fun publication => publication.envelope)

def ParticipantSequenced (config : Participant.Config) (m : Participant.Memory)
    (_ : Multiset Participant.Task) : Prop :=
  Distinct config.sessionId m.process ->
    Sequenced config.sessionId m.process m.sequences (sentEnvelopes m)

theorem participantSequenced_keeps (config : Participant.Config) :
    (Participant.machine config).Keeps .always (fun _ _ => True)
      (ParticipantSequenced config) where
  drop h _ := h
  spawn _ h _ := h
  crash _ h := fun hdistinct => (h hdistinct.before).restart hdistinct
  exec {m t ts r} _ h _ := by
    show Distinct config.sessionId (Participant.exec config m t r).1.process ->
      Sequenced config.sessionId (Participant.exec config m t r).1.process
        (Participant.exec config m t r).1.sequences
        (sentEnvelopes (Participant.exec config m t r).1)
    unfold sentEnvelopes
    rcases Participant.exec_publishes config m t r with hsilent |
      ⟨message, nowMs, cause, stream, lastPublishedSafety, _, hpublishes⟩
    · rw [hsilent.sent, hsilent.sequences, hsilent.process]
      exact h
    · rw [hpublishes]
      simp only [Participant.publish, List.map_append, List.map_cons, List.map_nil]
      intro hdistinct
      have h := h hdistinct
      apply Sequenced.publish h rfl
      · show (0 : Int) < ((m.sequences stream + 1 : Nat) : Int)
        omega
      · intro earlier hmem hsession hstream
        have hbound := h.bounded earlier hmem hsession
        rw [hstream] at hbound
        show earlier.sequence < ((m.sequences stream + 1 : Nat) : Int)
        simp only at hbound
        omega
      · simp
      · intro other
        by_cases hother : other = stream
        · rw [if_pos hother, hother]
          exact Nat.le_succ _
        · rw [if_neg hother]

/-!
## The coordinator
-/

def carriedNumber? : Coordinator.Task -> Option Nat
  | .handOver _ _ _ sequence => some sequence
  | _ => none

/-- Whoever hands an envelope to the bus has the lowest number that a thread carries. -/
def HandsOverInOrder : Condition Coordinator.Memory Coordinator.Task Coordinator.Reading
    Coordinator.Entry
  | _, ts, .exec (.handOver _ _ _ sequence) _ =>
      forall t other, t ∈ ts -> carriedNumber? t = some other -> sequence < other
  | _, _, _ => True

def publishedEnvelopes (m : Coordinator.Memory) : List Envelope :=
  m.published.map Prod.snd

structure CoordinatorSequenced (config : Coordinator.Config) (m : Coordinator.Memory)
    (ts : Multiset Coordinator.Task) : Prop where
  sequenced : Sequenced config.sessionId m.process (fun _ => m.sequence) (publishedEnvelopes m)
  carried : forall t number, t ∈ ts -> carriedNumber? t = some number ->
    0 < number ∧ number ≤ m.sequence ∧
      forall envelope, envelope ∈ publishedEnvelopes m ->
        envelope.sessionId = config.sessionId m.process -> envelope.sequence < number

theorem start_carries_nothing (entry : Coordinator.Entry) (t : Coordinator.Task)
    (ht : t ∈ Coordinator.start entry) : carriedNumber? t = none := by
  cases entry with
  | receive envelope =>
      unfold Coordinator.start at ht
      cases hkind : envelope.messageType <;> simp only [hkind] at ht <;>
        first
        | (rw [List.mem_singleton.mp ht]; rfl)
        | cases ht
  | _ =>
      rw [List.mem_singleton.mp ht]
      rfl

theorem carriedNumber?_left {config : Coordinator.Config} {m : Coordinator.Memory}
    {r : Coordinator.Reading} {t t' : Coordinator.Task} {number : Nat}
    (hleft : t' ∈ (Coordinator.exec config m t r).2.tasks)
    (hcarries : carriedNumber? t' = some number) :
    number = m.sequence + 1 ∧
      exists message nowMs correlationId, t = .publish message nowMs correlationId := by
  cases Coordinator.exec_succeeds config m r hleft with
  | submitted _ ht =>
      simp only [Coordinator.created, Coordinator.announce, List.mem_cons, List.not_mem_nil,
        or_false] at ht
      rcases ht with rfl | rfl | rfl | rfl <;> cases hcarries
  | announcesPrepared _ ht =>
      simp only [Coordinator.announce, List.mem_cons, List.not_mem_nil, or_false] at ht
      rcases ht with rfl | rfl | rfl <;> cases hcarries
  | replanned _ _ ht =>
      simp only [Coordinator.created, Coordinator.announce, List.mem_cons, List.not_mem_nil,
        or_false] at ht
      rcases ht with rfl | rfl | rfl | rfl <;> cases hcarries
  | sequenced message nowMs correlationId =>
      cases hcarries
      exact ⟨rfl, message, nowMs, correlationId, rfl⟩
  | _ => cases hcarries

theorem coordinator_process (config : Coordinator.Config) (m : Coordinator.Memory)
    (t : Coordinator.Task) (r : Coordinator.Reading) :
    (Coordinator.exec config m t r).1.process = m.process := by
  by_cases hpublish : exists message nowMs correlationId, t = .publish message nowMs correlationId
  · rcases hpublish with ⟨message, nowMs, correlationId, rfl⟩
    rfl
  · exact (Coordinator.exec_unnumbered config m t r (fun message nowMs correlationId ht =>
      hpublish ⟨message, nowMs, correlationId, ht⟩)).process

theorem coordinatorSequenced_keeps (config : Coordinator.Config) :
    (Coordinator.machine config).Keeps HandsOverInOrder (fun _ _ => True)
      (fun m ts => Distinct config.sessionId m.process -> CoordinatorSequenced config m ts) where
  drop h hle := fun hdistinct => ⟨(h hdistinct).sequenced,
    fun t number ht => (h hdistinct).carried t number (Multiset.mem_of_le hle ht)⟩
  spawn {m ts entry} _ h _ := by
    intro hdistinct
    have h := h hdistinct
    refine ⟨h.sequenced, ?_⟩
    intro t number ht hcarries
    rcases Multiset.mem_add.mp ht with hold | hnew
    · exact h.carried t number hold hcarries
    · rw [start_carries_nothing entry t (Multiset.mem_coe.mp hnew)] at hcarries
      cases hcarries
  crash {m ts} _ h := by
    intro hdistinct
    constructor
    · exact (h hdistinct.before).sequenced.restart hdistinct
    · intro t number ht
      cases Multiset.notMem_zero t ht
  exec {m t ts r} _ h hcondition := by
    intro hdistinct
    have h := h (coordinator_process config m t r ▸ hdistinct)
    have hrest : forall t' number, t' ∈ ts -> carriedNumber? t' = some number ->
        0 < number ∧ number ≤ m.sequence ∧ forall envelope, envelope ∈ publishedEnvelopes m ->
          envelope.sessionId = config.sessionId m.process -> envelope.sequence < number :=
      fun t' number ht' => h.carried t' number (Multiset.mem_cons_of_mem ht')
    by_cases hpublish : exists message nowMs correlationId, t = .publish message nowMs correlationId
    · rcases hpublish with ⟨message, nowMs, correlationId, rfl⟩
      -- the new number is above all that this session has published
      constructor
      · exact h.sequenced.grow (fun _ => Nat.le_succ _)
      · intro t' number ht' hcarries
        rcases Multiset.mem_add.mp ht' with hnew | hold
        · rcases carriedNumber?_left (Multiset.mem_coe.mp hnew) hcarries with ⟨rfl, _⟩
          refine ⟨Nat.succ_pos _, Nat.le_refl _, ?_⟩
          intro envelope hmem hsession
          have hbound := h.sequenced.bounded envelope hmem hsession
          push_cast
          omega
        · rcases hrest t' number hold hcarries with ⟨hpositive, hbound, habove⟩
          exact ⟨hpositive, Nat.le_succ_of_le hbound, habove⟩
    · have hunnumbered := Coordinator.exec_unnumbered config m t r
        (fun message nowMs correlationId ht => hpublish ⟨message, nowMs, correlationId, ht⟩)
      have hnone : forall t' number,
          t' ∈ (((Coordinator.exec config m t r).2.tasks : Multiset Coordinator.Task) + ts) ->
            carriedNumber? t' = some number -> t' ∈ ts := by
        intro t' number ht' hcarries
        rcases Multiset.mem_add.mp ht' with hnew | hold
        · exact (hpublish (carriedNumber?_left (Multiset.mem_coe.mp hnew) hcarries).2).elim
        · exact hold
      rcases Coordinator.exec_published config m t r with hsame |
        ⟨message, nowMs, correlationId, sequence, rfl, hexec⟩
      · have henvelopes : publishedEnvelopes (Coordinator.exec config m t r).1 =
            publishedEnvelopes m := by
          unfold publishedEnvelopes
          rw [hsame]
        constructor
        · show Sequenced _ (Coordinator.exec config m t r).1.process
            (fun _ => (Coordinator.exec config m t r).1.sequence)
            (publishedEnvelopes (Coordinator.exec config m t r).1)
          rw [henvelopes, hunnumbered.sequence, hunnumbered.process]
          exact h.sequenced
        · show forall t' number, _ -> _ -> 0 < number ∧
            number ≤ (Coordinator.exec config m t r).1.sequence ∧
            forall envelope, envelope ∈ publishedEnvelopes (Coordinator.exec config m t r).1 ->
              envelope.sessionId = config.sessionId (Coordinator.exec config m t r).1.process ->
                envelope.sequence < number
          rw [henvelopes, hunnumbered.sequence, hunnumbered.process]
          exact fun t' number ht' hcarries =>
            hrest t' number (hnone t' number ht' hcarries) hcarries
      · rcases h.carried _ sequence (Multiset.mem_cons_self _ ts) rfl with
          ⟨hpositive, hbound, habove⟩
        have henvelopes : publishedEnvelopes (Coordinator.exec config m
            (.handOver message nowMs correlationId sequence) r).1 =
              publishedEnvelopes m ++ [Coordinator.sealMessage config m message nowMs
                correlationId sequence (r.uuid4 0)] := by
          unfold publishedEnvelopes
          rw [hexec, List.map_append]
          rfl
        constructor
        · show Sequenced _ m.process (fun _ => m.sequence) (publishedEnvelopes (Coordinator.exec
            config m (.handOver message nowMs correlationId sequence) r).1)
          rw [henvelopes]
          apply h.sequenced.publish rfl
          · exact Int.natCast_pos.mpr hpositive
          · exact fun earlier hmem hsession _ => habove earlier hmem hsession
          · exact Int.ofNat_le.mpr hbound
          · exact fun _ => Nat.le_refl _
        · intro t' number ht' hcarries
          have hold := hnone t' number ht' hcarries
          rcases hrest t' number hold hcarries with ⟨hother, hmore, hbelow⟩
          refine ⟨hother, hmore, ?_⟩
          intro envelope hmem hsession
          have hpublished : envelope ∈ publishedEnvelopes (Coordinator.exec config m
              (.handOver message nowMs correlationId sequence) r).1 := hmem
          rw [henvelopes] at hpublished
          rcases List.mem_append.mp hpublished with hearlier | hnew
          · exact hbelow envelope hearlier hsession
          · rw [List.mem_singleton.mp hnew]
            exact Int.ofNat_lt.mpr (hcondition t' number hold hcarries)

theorem initial_coordinatorSequenced (config : Coordinator.Config) :
    CoordinatorSequenced config .initial 0 where
  sequenced := sequenced_nil config.sessionId
  carried t _ ht := by cases Multiset.notMem_zero t ht

/-- A participant's envelopes enter the outbox in the order of their numbers in every run,
a coordinator's in every run in which no thread overtakes one with a lower number. The
processes of the run have sessions of their own. -/
theorem sequence_order_is_outbox_order (sender : Participant.Config)
    (coordinator : Coordinator.Config) :
    (forall p : Pool Participant.Memory Participant.Task,
      (Participant.machine sender).Reaches .always Participant.initial p ->
      Distinct sender.sessionId p.shared.process ->
      OutboxOrdered (sentEnvelopes p.shared)) ∧
    (forall p : Pool Coordinator.Memory Coordinator.Task,
      (Coordinator.machine coordinator).Reaches HandsOverInOrder Coordinator.initial p ->
      Distinct coordinator.sessionId p.shared.process ->
      OutboxOrdered (publishedEnvelopes p.shared)) := by
  constructor
  · intro p hp hdistinct
    have hsequenced : ParticipantSequenced sender p.shared p.tasks :=
      (participantSequenced_keeps sender).reaches hp (fun _ _ => trivial)
        (fun _ => sequenced_nil sender.sessionId)
    exact (hsequenced hdistinct).outboxOrdered
  · intro p hp hdistinct
    have hsequenced := (coordinatorSequenced_keeps coordinator).reaches hp (fun _ _ => trivial)
      (fun _ => initial_coordinatorSequenced coordinator)
    exact (hsequenced hdistinct).sequenced.outboxOrdered

/-!
## Two threads of the coordinator

The submission takes its first number and another thread resumes the run. In the first run
the submission hands its envelope over before the other one does, in the second one after.
-/

def patrolSession (process : Nat) : String :=
  String.ofList (List.replicate (process + 1) 's')

theorem patrolSession_distinct (process : Nat) : Distinct patrolSession process := by
  intro a b _ _ h
  have hlength := congrArg List.length (String.ofList_injective h)
  simpa using hlength

def patrolCoordinator : Coordinator.Config :=
  { Coordinator.patrolConfig with sessionId := patrolSession }

def patrolParticipant : Participant.Config :=
  { Participant.patrolConfig 0 with sessionId := patrolSession }

def carriesUpTo (sequence : Nat) (t : Coordinator.Task) : Bool :=
  (carriedNumber? t).any (fun other => decide (other ≤ sequence))

/-- A test for the condition: only the thread itself carries a number up to its own. -/
def handsOverInOrder (p : Pool Coordinator.Memory Coordinator.Task) :
    Action Coordinator.Reading Coordinator.Entry -> Bool
  | .run i _ =>
      match p.nextTask i with
      | some (.handOver _ _ _ sequence) =>
          decide (p.threads.flatten.countP (carriesUpTo sequence) ≤ 1)
      | _ => true
  | _ => true

theorem meets_of_handsOverInOrder (p : Pool Coordinator.Memory Coordinator.Task)
    (a : Action Coordinator.Reading Coordinator.Entry) (h : handsOverInOrder p a = true) :
    Machine.Meets HandsOverInOrder p a := by
  cases a with
  | run i r =>
      intro t others hnext htasks
      simp only [handsOverInOrder, hnext] at h
      cases t with
      | handOver message nowMs correlationId sequence =>
          intro t' other ht' hcarries
          by_contra hlower
          have hcarried : carriesUpTo sequence t' = true := by
            simpa [carriesUpTo, hcarries] using hlower
          have hcount : 0 < others.countP (fun x => carriesUpTo sequence x = true) :=
            Multiset.countP_pos.mpr ⟨t', ht', hcarried⟩
          have htotal : p.threads.flatten.countP (carriesUpTo sequence) =
              (Coordinator.Task.handOver message nowMs correlationId sequence ::ₘ
                others).countP (fun x => carriesUpTo sequence x = true) := by
            rw [← htasks]
            simp [Pool.tasks]
          have hself : carriesUpTo sequence
              (.handOver message nowMs correlationId sequence) = true := by
            simp [carriesUpTo, carriedNumber?]
          have hbound := of_decide_eq_true h
          rw [htotal, Multiset.countP_cons, if_pos hself] at hbound
          omega
      | _ => trivial
  | _ => trivial

def patrolTwoThreads (second first : Nat) : List (Action Coordinator.Reading Coordinator.Entry) :=
  Coordinator.patrolMoves 0 2 ++ .spawn (.resumeActive 0) :: Coordinator.patrolMoves 1 4 ++
    Coordinator.patrolMoves 1 second ++ Coordinator.patrolMoves 0 first ++
    Coordinator.patrolMoves 1 (1 - second)

def sequencesOf (envelopes : List Envelope) : List (Lane × Int) :=
  envelopes.map (fun envelope => (laneOf envelope, envelope.sequence))

def patrolLane (sourceId : String) : Lane where
  sourceId := sourceId
  sessionId := "s"
  stream := .operational

theorem patrol_sequenced :
    (exists p, (Participant.machine patrolParticipant).run Participant.initial
        (.spawn (.receive (Participant.patrolAssigned "c")) ::
          Participant.patrolTasks 0 8 0) = some p ∧
      sequencesOf (sentEnvelopes p.shared) = [(patrolLane "r1", 1), (patrolLane "r1", 2)] ∧
      OutboxOrdered (sentEnvelopes p.shared)) ∧
    exists p, (Coordinator.machine patrolCoordinator).runWhere handsOverInOrder
        (Coordinator.patrolSubmitted ["s1"]) (patrolTwoThreads 0 1) = some p ∧
      sequencesOf (publishedEnvelopes p.shared) = [(patrolLane "c", 1), (patrolLane "c", 2)] ∧
      OutboxOrdered (publishedEnvelopes p.shared) := by
  constructor
  · have hsent : ((Participant.machine patrolParticipant).run Participant.initial
        (.spawn (.receive (Participant.patrolAssigned "c")) :: Participant.patrolTasks 0 8 0)).map
          (fun p => sequencesOf (sentEnvelopes p.shared)) =
          some [(patrolLane "r1", 1), (patrolLane "r1", 2)] := by
      decide +kernel
    rcases Option.map_eq_some_iff.mp hsent with ⟨p, hrun, hsent⟩
    exact ⟨p, hrun, hsent, (sequence_order_is_outbox_order patrolParticipant
      patrolCoordinator).1 p (Machine.run_reaches hrun) (patrolSession_distinct _)⟩
  · have hpublished : ((Coordinator.machine patrolCoordinator).runWhere handsOverInOrder
        (Coordinator.patrolSubmitted ["s1"]) (patrolTwoThreads 0 1)).map
          (fun p => sequencesOf (publishedEnvelopes p.shared)) =
          some [(patrolLane "c", 1), (patrolLane "c", 2)] := by
      decide
    rcases Option.map_eq_some_iff.mp hpublished with ⟨p, hrun, hpublished⟩
    exact ⟨p, hrun, hpublished, (sequence_order_is_outbox_order patrolParticipant
      patrolCoordinator).2 p
      ((Coordinator.patrolSubmitted_reached (Or.inr rfl) trivial trivial).trans
        (Machine.runWhere_reaches meets_of_handsOverInOrder hrun)) (patrolSession_distinct _)⟩

/-- The resumed dispatch has taken the higher number and is in the outbox first. -/
theorem patrol_overtaken :
    exists p, (Coordinator.machine patrolCoordinator).Reaches .always Coordinator.initial p ∧
      sequencesOf (publishedEnvelopes p.shared) = [(patrolLane "c", 2), (patrolLane "c", 1)] ∧
      ¬ OutboxOrdered (publishedEnvelopes p.shared) := by
  have hpublished : ((Coordinator.machine patrolCoordinator).run
      (Coordinator.patrolSubmitted ["s1"]) (patrolTwoThreads 1 1)).map
        (fun p => sequencesOf (publishedEnvelopes p.shared)) =
        some [(patrolLane "c", 2), (patrolLane "c", 1)] := by
    decide
  rcases Option.map_eq_some_iff.mp hpublished with ⟨p, hrun, hpublished⟩
  refine ⟨p, (Coordinator.patrolSubmitted_reached (Or.inr rfl) trivial trivial).trans
    (Machine.run_reaches hrun), hpublished, ?_⟩
  intro houtbox
  have hmapped := hpublished
  unfold sequencesOf at hmapped
  rcases List.map_eq_cons_iff.mp hmapped with ⟨first, rest, henvelopes, hfirst, hmapped⟩
  rcases List.map_eq_cons_iff.mp hmapped with ⟨second, rest, rfl, hsecond, _⟩
  have hrising := houtbox.ordered
  rw [henvelopes] at hrising
  have hlane : laneOf first = laneOf second :=
    (congrArg Prod.fst hfirst).trans (congrArg Prod.fst hsecond).symm
  have hlower : first.sequence < second.sequence :=
    (List.pairwise_cons.mp hrising).1 second List.mem_cons_self hlane
  rw [show first.sequence = 2 from congrArg Prod.snd hfirst,
    show second.sequence = 1 from congrArg Prod.snd hsecond] at hlower
  omega

end Ump.Delivery
