import Ump.Participant.Effects

/-!
# The manifest and the rest of a session

## The service

Beside the handlers of inbound messages, the owner of a participant has it announce itself and
publish its manifest and its state. All of them publish through one bus, and the record of a
session is what the process has published on it.
-/

namespace Ump.Participant

open Foundation

structure Service where
  participant : Memory
  /-- The payload of `_last_published_manifest`. -/
  lastPublishedManifest : Option Json
  published : List Envelope

namespace Service

def initial : Service where
  participant := .initial
  lastPublishedManifest := none
  published := []

/-- A new process on the same journal has a session of its own. -/
def restart (s : Service) : Service where
  participant := s.participant.restart
  lastPublishedManifest := none
  published := []

/-- `_send` by the owner's calls. -/
def send (config : Config) (s : Service) (messageType : MessageType) (payload : Json)
    (nowMs : Int) (correlationId : Option String) (stream : Stream) (uuid4 : String) :
    Service :=
  let sequence := s.participant.sequences stream + 1
  let envelope : Envelope :=
    { messageId := uuid4
      messageType := messageType
      sourceId := config.robotId
      sessionId := config.sessionId s.participant.process
      sequence := sequence
      timestampMs := nowMs
      payload := payload
      correlationId := correlationId
      stream := stream }
  { s with
    participant :=
      { s.participant with
        sequences := fun other =>
          if other = stream then sequence else s.participant.sequences other }
    published := s.published ++ [envelope] }

def remember (s : Service) (safety : Safety) : Service :=
  { s with participant := { s.participant with lastPublishedSafety := some safety } }

end Service

/-- What a task is told; the manifest snapshot has passed the checks of
`_manifest_snapshot`, or one of them has raised. -/
structure ServiceReading where
  inbound : Reading
  manifest : Except Exn Json

inductive ServiceTask where
  | inbound (t : Task)
  | announce (nowMs : Int)
  | publishManifest (nowMs : Int) (force : Bool)
  | publishState (nowMs : Int) (correlationId : Option String)
  | publishSafetyState (nowMs : Int) (correlationId : Option String)
  | sendState (snapshot : StateSnapshot) (nowMs : Int) (correlationId : Option String)
      (stream : Stream) (remembers : Bool)

inductive ServiceEntry where
  | inbound (entry : Entry)
  | announce (nowMs : Int)
  | publishManifest (nowMs : Int) (force : Bool)
  | publishState (nowMs : Int) (correlationId : Option String)
  | publishSafetyState (nowMs : Int) (correlationId : Option String)

namespace Service

def publishManifest (config : Config) (s : Service) (manifest : Json) (nowMs : Int)
    (force : Bool) (uuid4 : String) : Service :=
  if !force && s.lastPublishedManifest.any (fun last => manifest.equal last) then
    s
  else
    { s.send config .manifest manifest nowMs none .operational uuid4 with
      lastPublishedManifest := some manifest }

def exec (config : Config) (s : Service) (t : ServiceTask) (r : ServiceReading) :
    Service × Flow ServiceTask :=
  match t with
  | .inbound t =>
      let (participant, flow) := Participant.exec config s.participant t r.inbound
      let sent := participant.sent.drop s.participant.sent.length
      ({ s with
          participant := participant
          published := s.published ++ sent.map Publication.envelope },
        match flow with
        | .next tasks => .next (tasks.map .inbound)
        | .raised => .raised)
  | .announce nowMs =>
      attempt s r.manifest (fun manifest =>
        (s.publishManifest config manifest nowMs true r.inbound.uuid4,
          .next [.publishState nowMs none]))
  | .publishManifest nowMs force =>
      attempt s r.manifest (fun manifest =>
        (s.publishManifest config manifest nowMs force r.inbound.uuid4, .next []))
  | .publishState nowMs correlationId =>
      match r.inbound.state with
      | none => (s, .raised)
      | some snapshot =>
          (s, .next ((if s.participant.lastPublishedSafety.any
              (fun safety => decide (snapshot.safety ≠ safety)) then
            [.sendState snapshot nowMs correlationId .safety false] else []) ++
              [.sendState snapshot nowMs correlationId .operational true]))
  | .publishSafetyState nowMs correlationId =>
      match r.inbound.state with
      | none => (s, .raised)
      | some snapshot => (s, .next [.sendState snapshot nowMs correlationId .safety true])
  | .sendState snapshot nowMs correlationId stream remembers =>
      let s := if remembers then s.remember snapshot.safety else s
      (s.send config .state snapshot.payload nowMs correlationId stream r.inbound.uuid4,
        .next [])

def start : ServiceEntry -> List ServiceTask
  | .inbound entry => (Participant.start entry).map .inbound
  | .announce nowMs => [.announce nowMs]
  | .publishManifest nowMs force => [.publishManifest nowMs force]
  | .publishState nowMs correlationId => [.publishState nowMs correlationId]
  | .publishSafetyState nowMs correlationId => [.publishSafetyState nowMs correlationId]

def machine (config : Config) : Machine Service ServiceTask ServiceReading ServiceEntry where
  exec := exec config
  start := start
  restart := restart

def idle : Pool Service ServiceTask where
  shared := initial
  threads := []

end Service

/-!
## The first envelope
-/

def ManifestFirst (published : List Envelope) : Prop :=
  forall first, published.head? = some first -> first.messageType = .manifest

/-- An inbound message to which a handler comes up with an answer: an assignment of this
robot that is well formed, or a query or a request of its issuer about stored work. -/
def CallsForReply (config : Config) (m : Memory) (envelope : Envelope) : Prop :=
  match envelope.messageType with
  | .assignment => exists assignment,
      assignmentOf config.robotId envelope.payload = .ok (some assignment)
  | .assignmentQuery => exists record, requested config m envelope = .ok (some record)
  | .cancellationRequest => checkReason envelope = .ok () ∧
      exists record, requested config m envelope = .ok (some record)
  | _ => False

/-- A call that may publish something other than a manifest first. -/
def ServiceEntry.Answers (config : Config) (m : Memory) : ServiceEntry -> Prop
  | .inbound (.receive envelope) => CallsForReply config m envelope
  | .publishState _ _ => True
  | .publishSafetyState _ _ => True
  | _ => False

/-- Such calls start only once the session has published its manifest. -/
def AfterManifest (config : Config) : Condition Service ServiceTask ServiceReading ServiceEntry :=
  fun s _ move =>
    match move with
    | .spawn entry => entry.Answers config s.participant ->
        exists envelope, envelope ∈ s.published ∧ envelope.messageType = .manifest
    | .exec _ _ => True

/-!
## Tasks that publish nothing
-/

/-- A task that may publish something other than a manifest, or leave one that does. -/
def ServiceTask.Answers (config : Config) (m : Memory) : ServiceTask -> Prop
  | .inbound (.assignment envelope) => exists assignment,
      assignmentOf config.robotId envelope.payload = .ok (some assignment)
  | .inbound (.assignmentQuery envelope) => exists record,
      requested config m envelope = .ok (some record)
  | .inbound (.cancellationRequest envelope) => checkReason envelope = .ok () ∧
      exists record, requested config m envelope = .ok (some record)
  | .inbound .work => False
  | .inbound (.resolveUnknown _ _ _ _ _ _) => False
  | .announce _ => False
  | .publishManifest _ _ => False
  | _ => True

/-- What the later journal stores was stored before, by the same issuer. -/
def StoredBefore (journal journal' : Journal) : Prop :=
  forall assignmentId record', journal'.lookup assignmentId = some record' ->
    exists record, journal.lookup assignmentId = some record ∧
      record.issuerId = record'.issuerId

theorem StoredBefore.rfl (journal : Journal) : StoredBefore journal journal :=
  fun _ record hstored => ⟨record, hstored, Eq.refl _⟩

theorem storedBefore_resolve {journal journal' : Journal} {assignmentId : String}
    {status : AssignmentStatus} {description resolverId evidence : String} {nowMs : Int}
    {outcome : Outcome}
    (h : journal.resolveUnknown assignmentId status description resolverId evidence nowMs =
      .ok (outcome, journal')) : StoredBefore journal journal' := by
  intro otherId record' hstored
  rw [(Journal.resolveUnknown_eq_ok h).2 otherId, Journal.lookup_record] at hstored
  rcases Option.map_eq_some_iff.mp hstored with ⟨record, hrecord, hsame⟩
  refine ⟨record, hrecord, ?_⟩
  rw [← hsame]
  by_cases hother : otherId = assignmentId
  · rw [if_pos hother]
    unfold Journal.recorded
    split <;> rfl
  · rw [if_neg hother]

theorem requested_iff {config : Config} {m : Memory} {envelope : Envelope} :
    (exists record, requested config m envelope = .ok (some record)) <->
      exists assignmentId robotId,
        (envelope.payload.item "assignment_id" >>= Json.text) = .ok assignmentId ∧
        (envelope.payload.item "robot_id" >>= Json.text) = .ok robotId ∧
        identifier assignmentId "assignment_id" = .ok () ∧
        identifier robotId "robot_id" = .ok () ∧ robotId = config.robotId ∧
        exists record, m.journal.lookup assignmentId = some record ∧
          record.issuerId = envelope.sourceId := by
  constructor
  · rintro ⟨record, h⟩
    rcases bind_eq_ok.mp h with ⟨assignmentId, hid, h⟩
    rcases bind_eq_ok.mp h with ⟨robotId, hrobotId, h⟩
    rcases bind_eq_ok.mp h with ⟨_, hchecked, h⟩
    rcases bind_eq_ok.mp h with ⟨_, hrobot, h⟩
    by_cases hother : robotId ≠ config.robotId
    · rw [if_pos hother] at h
      cases h
    · rw [if_neg hother] at h
      have hfound := Option.filter_eq_some_iff.mp (Except.ok.inj h)
      exact ⟨assignmentId, robotId, hid, hrobotId, hchecked, hrobot, not_not.mp hother, record,
        hfound.1, by simpa using hfound.2⟩
  · rintro ⟨assignmentId, robotId, hid, hrobotId, hchecked, hrobot, hown, record, hstored,
      hissuer⟩
    refine ⟨record, ?_⟩
    refine bind_eq_ok.mpr ⟨assignmentId, hid, ?_⟩
    refine bind_eq_ok.mpr ⟨robotId, hrobotId, ?_⟩
    refine bind_eq_ok.mpr ⟨(), hchecked, ?_⟩
    refine bind_eq_ok.mpr ⟨(), hrobot, ?_⟩
    rw [if_neg (not_not.mpr hown)]
    exact congrArg Except.ok (Option.filter_eq_some_iff.mpr ⟨hstored, by simpa using hissuer⟩)

theorem requested_before {config : Config} {m m' : Memory} {envelope : Envelope}
    (hstored : StoredBefore m.journal m'.journal)
    (h : exists record, requested config m' envelope = .ok (some record)) :
    exists record, requested config m envelope = .ok (some record) := by
  rcases requested_iff.mp h with ⟨assignmentId, robotId, hid, hrobotId, hchecked, hrobot, hown,
    record', hstored', hissuer⟩
  rcases hstored assignmentId record' hstored' with ⟨record, hrecord, hsame⟩
  exact requested_iff.mpr ⟨assignmentId, robotId, hid, hrobotId, hchecked, hrobot, hown, record,
    hrecord, hsame.trans hissuer⟩

theorem ServiceTask.Answers.before {config : Config} {m m' : Memory} {t : ServiceTask}
    (h : t.Answers config m') (hstored : StoredBefore m.journal m'.journal) :
    t.Answers config m := by
  cases t with
  | inbound t =>
      cases t with
      | assignmentQuery envelope => exact requested_before hstored h
      | cancellationRequest envelope => exact ⟨h.1, requested_before hstored h.2⟩
      | _ => exact h
  | _ => exact h

/-- The task changes neither the queue nor what has been sent, stores no work, and leaves no
task. -/
structure Mute (m : Memory) (result : Memory × Flow Task) : Prop where
  sent : result.1.sent = m.sent
  queue : result.1.queue = m.queue
  stored : StoredBefore m.journal result.1.journal
  tasks : result.2.tasks = []

theorem Mute.unchanged (m : Memory) {flow : Flow Task} (htasks : flow.tasks = []) :
    Mute m (m, flow) :=
  ⟨rfl, rfl, .rfl m.journal, htasks⟩

theorem Mute.attempt {m : Memory} {x : Except Exn value} {next : value -> Memory × Flow Task}
    (h : forall v, x = .ok v -> Mute m (next v)) : Mute m (Foundation.attempt m x next) := by
  cases x with
  | ok v => exact h v rfl
  | error e => exact .unchanged m rfl

theorem mute_of_not_answers {config : Config} {m : Memory} {t : Task} (r : Reading)
    (h : ¬ (ServiceTask.inbound t).Answers config m) (hqueue : m.queue = []) :
    Mute m (Participant.exec config m t r) := by
  cases t with
  | assignment envelope =>
      rw [Participant.exec]
      apply Mute.attempt
      rintro (_ | assignment) hdecoded
      · exact .unchanged m rfl
      · exact absurd ⟨assignment, hdecoded⟩ h
  | work =>
      rw [Participant.exec, hqueue]
      exact .unchanged m rfl
  | assignmentQuery envelope =>
      rw [Participant.exec]
      apply Mute.attempt
      rintro (_ | record) hrequested
      · exact .unchanged m rfl
      · exact absurd ⟨record, hrequested⟩ h
  | cancellationRequest envelope =>
      rw [Participant.exec]
      apply Mute.attempt
      intro _ hreason
      apply Mute.attempt
      rintro (_ | record) hrequested
      · exact .unchanged m rfl
      · exact absurd ⟨hreason, record, hrequested⟩ h
  | resolveUnknown assignmentId status description resolverId evidence nowMs =>
      rw [Participant.exec]
      apply Mute.attempt
      rintro ⟨outcome, journal⟩ hresolved
      exact ⟨rfl, rfl, storedBefore_resolve hresolved, rfl⟩
  | _ => exact absurd trivial h

/-!
## Every order of calls and messages
-/

structure Ordered (config : Config) (s : Service) (ts : Multiset ServiceTask) : Prop where
  first : ManifestFirst s.published
  answers : forall t, t ∈ ts -> t.Answers config s.participant -> s.published ≠ []
  queue : s.participant.queue ≠ [] -> s.published ≠ []

theorem ManifestFirst.append {published : List Envelope} (h : ManifestFirst published)
    (hne : published ≠ []) (later : List Envelope) : ManifestFirst (published ++ later) := by
  intro first hfirst
  cases published with
  | nil => exact absurd rfl hne
  | cons head rest => exact h first hfirst

theorem Ordered.later {config : Config} {s s' : Service} {ts ts' : Multiset ServiceTask}
    (h : Ordered config s ts) (hne : s.published ≠ []) {later : List Envelope}
    (hpublished : s'.published = s.published ++ later) : Ordered config s' ts' := by
  have hne' : s'.published ≠ [] := by
    rw [hpublished]
    exact List.append_ne_nil_of_left_ne_nil hne later
  constructor
  · rw [hpublished]
    exact h.first.append hne later
  · exact fun _ _ _ => hne'
  · exact fun _ => hne'

theorem Ordered.same {config : Config} {s s' : Service} {ts ts' : Multiset ServiceTask}
    (h : Ordered config s ts) (hpublished : s'.published = s.published)
    (hqueue : s'.participant.queue = s.participant.queue)
    (hstored : StoredBefore s.participant.journal s'.participant.journal)
    (htasks : forall t, t ∈ ts' -> t ∈ ts) : Ordered config s' ts' := by
  constructor
  · rw [hpublished]
    exact h.first
  · intro t ht hanswers
    rw [hpublished]
    exact h.answers t (htasks t ht) (hanswers.before hstored)
  · rw [hpublished, hqueue]
    exact h.queue

theorem Ordered.manifest {config : Config} {s s' : Service} {ts ts' : Multiset ServiceTask}
    (h : Ordered config s ts) {envelope : Envelope} (htype : envelope.messageType = .manifest)
    (hpublished : s'.published = s.published ++ [envelope]) : Ordered config s' ts' := by
  by_cases hne : s.published = []
  · rw [hne, List.nil_append] at hpublished
    have hne' : s'.published ≠ [] := by
      rw [hpublished]
      exact List.cons_ne_nil _ _
    constructor
    · intro first hfirst
      rw [hpublished] at hfirst
      rw [← Option.some.inj hfirst]
      exact htype
    · exact fun _ _ _ => hne'
    · exact fun _ => hne'
  · exact h.later hne hpublished

theorem callsForReply_of_start {config : Config} {m : Memory} {envelope : Envelope} {t : Task}
    (ht : t ∈ Participant.start (.receive envelope))
    (hanswers : (ServiceTask.inbound t).Answers config m) : CallsForReply config m envelope := by
  unfold Participant.start at ht
  dsimp only at ht
  unfold CallsForReply
  cases htype : envelope.messageType with
  | assignment =>
      rw [htype] at ht
      rw [List.mem_singleton.mp ht] at hanswers
      exact hanswers
  | assignmentQuery =>
      rw [htype] at ht
      rw [List.mem_singleton.mp ht] at hanswers
      exact hanswers
  | cancellationRequest =>
      rw [htype] at ht
      rw [List.mem_singleton.mp ht] at hanswers
      exact hanswers
  | _ =>
      rw [htype] at ht
      cases ht

theorem start_answers {config : Config} {m : Memory} {entry : ServiceEntry} {t : ServiceTask}
    (ht : t ∈ Service.start entry) (hanswers : t.Answers config m) : entry.Answers config m := by
  cases entry with
  | inbound entry =>
      rcases List.mem_map.mp ht with ⟨t', ht', rfl⟩
      cases entry with
      | receive envelope => exact callsForReply_of_start ht' hanswers
      | work =>
          rw [List.mem_singleton.mp ht'] at hanswers
          exact hanswers
      | resolveUnknown assignmentId status description resolverId evidence nowMs =>
          rw [List.mem_singleton.mp ht'] at hanswers
          exact hanswers
  | publishState nowMs correlationId => trivial
  | publishSafetyState nowMs correlationId => trivial
  | announce nowMs =>
      rw [List.mem_singleton.mp ht] at hanswers
      exact hanswers
  | publishManifest nowMs force =>
      rw [List.mem_singleton.mp ht] at hanswers
      exact hanswers

theorem Ordered.attempt {config : Config} {s : Service} {t : ServiceTask}
    {ts : Multiset ServiceTask} (h : Ordered config s (t ::ₘ ts)) {x : Except Exn value}
    {next : value -> Service × Flow ServiceTask}
    (hnext : forall v, x = .ok v ->
      Ordered config (next v).1 (((next v).2.tasks : Multiset ServiceTask) + ts)) :
    Ordered config (Foundation.attempt s x next).1
      (((Foundation.attempt s x next).2.tasks : Multiset ServiceTask) + ts) := by
  cases x with
  | ok v => exact hnext v rfl
  | error e =>
      apply h.same rfl rfl (.rfl _)
      intro t' ht'
      exact Multiset.mem_cons_of_mem (by simpa [Foundation.attempt] using ht')

theorem Ordered.answering {config : Config} {s s' : Service} {t : ServiceTask}
    {ts ts' : Multiset ServiceTask} (h : Ordered config s (t ::ₘ ts))
    (hanswers : t.Answers config s.participant) {later : List Envelope}
    (hpublished : s'.published = s.published ++ later) : Ordered config s' ts' :=
  h.later (h.answers t (Multiset.mem_cons_self t ts) hanswers) hpublished

theorem publishManifest_cases (config : Config) (s : Service) (manifest : Json) (nowMs : Int)
    (force : Bool) (uuid4 : String) :
    (force = false ∧ s.publishManifest config manifest nowMs force uuid4 = s) ∨
    exists envelope, envelope.messageType = .manifest ∧
      (s.publishManifest config manifest nowMs force uuid4).published =
        s.published ++ [envelope] := by
  unfold Service.publishManifest
  by_cases hsame : (!force && s.lastPublishedManifest.any (fun last => manifest.equal last)) = true
  · rw [if_pos hsame]
    rw [Bool.and_eq_true, Bool.not_eq_true'] at hsame
    exact Or.inl ⟨hsame.1, rfl⟩
  · rw [if_neg hsame]
    exact Or.inr ⟨_, rfl, rfl⟩

theorem published_inbound (config : Config) (s : Service) (t : Task) (r : ServiceReading) :
    (Service.exec config s (.inbound t) r).1.published = s.published ++
      ((Participant.exec config s.participant t r.inbound).1.sent.drop
        s.participant.sent.length).map Publication.envelope :=
  rfl

theorem ordered_inbound {config : Config} {s : Service} {t : Task} {ts : Multiset ServiceTask}
    (r : ServiceReading) (h : Ordered config s (.inbound t ::ₘ ts)) :
    Ordered config (Service.exec config s (.inbound t) r).1
      (((Service.exec config s (.inbound t) r).2.tasks : Multiset ServiceTask) + ts) := by
  by_cases hne : s.published = []
  · have hanswers : ¬ (ServiceTask.inbound t).Answers config s.participant :=
      fun hanswers => h.answers _ (Multiset.mem_cons_self _ _) hanswers hne
    have hqueue : s.participant.queue = [] := by
      by_contra hqueue
      exact h.queue hqueue hne
    have hmute := mute_of_not_answers r.inbound hanswers hqueue
    apply h.same
    · rw [published_inbound, hmute.sent, List.drop_length, List.map_nil, List.append_nil]
    · exact hmute.queue
    · exact hmute.stored
    · intro t' ht'
      apply Multiset.mem_cons_of_mem
      have hnone : (Service.exec config s (.inbound t) r).2.tasks = [] := by
        have htasks := hmute.tasks
        unfold Service.exec
        dsimp only
        cases hflow : (Participant.exec config s.participant t r.inbound).2 with
        | next tasks =>
            rw [hflow] at htasks
            rw [show tasks = [] from htasks]
            rfl
        | raised => rfl
      rw [hnone] at ht'
      simpa using ht'
  · exact h.later hne rfl

theorem ordered_keeps (config : Config) :
    (Service.machine config).Keeps (AfterManifest config) (fun _ _ => True) (Ordered config) where
  drop h hle := ⟨h.first, fun t ht => h.answers t (Multiset.mem_of_le hle ht), h.queue⟩
  spawn := by
    intro s ts entry _ h hcondition
    refine ⟨h.first, ?_, h.queue⟩
    intro t ht hanswers
    rcases Multiset.mem_add.mp ht with ht | ht
    · exact h.answers t ht hanswers
    · rcases hcondition (start_answers (Multiset.mem_coe.mp ht) hanswers) with ⟨_, hmem, _⟩
      exact List.ne_nil_of_mem hmem
  exec := by
    intro s t ts r _ h _
    cases t with
    | inbound t => exact ordered_inbound r h
    | announce nowMs =>
        refine h.attempt (fun manifest _ => ?_)
        rcases publishManifest_cases config s manifest nowMs true r.inbound.uuid4 with
          ⟨hforce, _⟩ | ⟨envelope, htype, hpublished⟩
        · cases hforce
        · exact h.manifest htype hpublished
    | publishManifest nowMs force =>
        refine h.attempt (fun manifest _ => ?_)
        rcases publishManifest_cases config s manifest nowMs force r.inbound.uuid4 with
          ⟨_, hsame⟩ | ⟨envelope, htype, hpublished⟩
        · rw [hsame]
          apply h.same rfl rfl (.rfl _)
          exact fun t' ht' => Multiset.mem_cons_of_mem (by simpa using ht')
        · exact h.manifest htype hpublished
    | publishState nowMs correlationId =>
        unfold Service.machine Service.exec
        dsimp only
        cases r.inbound.state with
        | none => exact h.answering trivial (List.append_nil _).symm
        | some snapshot => exact h.answering trivial (List.append_nil _).symm
    | publishSafetyState nowMs correlationId =>
        unfold Service.machine Service.exec
        dsimp only
        cases r.inbound.state with
        | none => exact h.answering trivial (List.append_nil _).symm
        | some snapshot => exact h.answering trivial (List.append_nil _).symm
    | sendState snapshot nowMs correlationId stream remembers =>
        have hpublished : exists later,
            (Service.exec config s (.sendState snapshot nowMs correlationId stream remembers)
              r).1.published = s.published ++ later := by
          cases remembers <;> exact ⟨_, rfl⟩
        rcases hpublished with ⟨later, hpublished⟩
        exact h.answering trivial hpublished
  crash := by
    intro s ts _ _
    refine ⟨?_, ?_, ?_⟩
    · intro first hfirst
      cases hfirst
    · intro t ht
      exact absurd ht (Multiset.notMem_zero t)
    · exact fun hqueue => absurd rfl hqueue

/-- While nothing that answers starts before a manifest, the session opens with one. -/
theorem manifest_published_first (config : Config) (p : Pool Service ServiceTask)
    (h : (Service.machine config).Reaches (AfterManifest config) Service.idle p) :
    ManifestFirst p.shared.published := by
  have hidle : Ordered config Service.idle.shared Service.idle.tasks := by
    refine ⟨?_, ?_, ?_⟩
    · intro first hfirst
      cases hfirst
    · intro t ht
      exact absurd ht (Multiset.notMem_zero t)
    · exact fun hqueue => absurd rfl hqueue
  exact ((ordered_keeps config).reaches h (fun _ _ => trivial) hidle).first

/-!
## The small mission

The walk is assigned to a robot that has announced itself, and to one that has not.
-/

def patrolServiceReading : ServiceReading where
  inbound :=
    { patrolReading 0 with state := some { safety := .normal, payload := .obj [] } }
  manifest := .ok (.obj [("robot_id", .str "r1")])

def patrolServiceTasks (thread count : Nat) : List (Action ServiceReading ServiceEntry) :=
  List.replicate count (.run thread patrolServiceReading)

def patrolReceives : Action ServiceReading ServiceEntry :=
  .spawn (.inbound (.receive (patrolAssigned "c")))

def publishedTypes (p : Pool Service ServiceTask) : List MessageType :=
  p.shared.published.map Envelope.messageType

/-- The test of a run: every other call waits for the manifest. -/
def waitsForManifest (p : Pool Service ServiceTask) :
    Action ServiceReading ServiceEntry -> Bool
  | .spawn (.announce _) => true
  | .spawn _ => p.shared.published.any (fun envelope => envelope.messageType == .manifest)
  | _ => true

theorem meets_of_waitsForManifest (config : Config) (p : Pool Service ServiceTask)
    (a : Action ServiceReading ServiceEntry) (h : waitsForManifest p a = true) :
    Machine.Meets (AfterManifest config) p a := by
  cases a with
  | spawn entry =>
      intro hanswers
      cases entry with
      | announce nowMs => exact hanswers.elim
      | _ =>
          rcases List.any_eq_true.mp h with ⟨envelope, hmem, htype⟩
          exact ⟨envelope, hmem, beq_iff_eq.mp htype⟩
  | run thread r => exact fun _ _ _ _ => trivial
  | stop thread => trivial
  | crash => trivial

set_option maxRecDepth 8000 in
theorem patrol_announced_first :
    exists p, (Service.machine (patrolConfig 0)).runWhere waitsForManifest Service.idle
        (.spawn (.announce 0) :: patrolServiceTasks 0 3 ++ patrolReceives ::
          patrolServiceTasks 1 3) = some p ∧
      publishedTypes p = [.manifest, .state, .assignmentAck] ∧
      ManifestFirst p.shared.published := by
  have hview : ((Service.machine (patrolConfig 0)).runWhere waitsForManifest Service.idle
      (.spawn (.announce 0) :: patrolServiceTasks 0 3 ++ patrolReceives ::
        patrolServiceTasks 1 3)).map publishedTypes =
          some [.manifest, .state, .assignmentAck] := by
    decide
  rcases Option.map_eq_some_iff.mp hview with ⟨p, hp, htypes⟩
  exact ⟨p, hp, htypes, manifest_published_first (patrolConfig 0) p
    (Machine.runWhere_reaches (meets_of_waitsForManifest (patrolConfig 0)) hp)⟩

set_option maxRecDepth 8000 in
/-- The acknowledgement of the walk is the first envelope of the session. -/
theorem patrol_acknowledged_first :
    ¬ forall (config : Config) (p : Pool Service ServiceTask),
      (Service.machine config).Reaches Condition.always Service.idle p ->
        ManifestFirst p.shared.published := by
  intro hfirst
  have hview : ((Service.machine (patrolConfig 0)).run Service.idle
      (patrolReceives :: patrolServiceTasks 0 3)).map publishedTypes =
        some [.assignmentAck] := by
    decide
  rcases Option.map_eq_some_iff.mp hview with ⟨p, hp, htypes⟩
  have hpublished := hfirst (patrolConfig 0) p (Machine.run_reaches hp)
  rcases List.map_eq_singleton_iff.mp htypes with ⟨envelope, henvelope, htype⟩
  have hmanifest := hpublished envelope (by rw [henvelope]; rfl)
  rw [htype] at hmanifest
  cases hmanifest

end Ump.Participant
