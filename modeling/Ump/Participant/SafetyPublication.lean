import Ump.Participant.Runtime

/-!
# Publication of the safety state

## The publisher

`publish_state` and `publish_safety_state` hold the publication lock from their first read of
the remembered safety value to their last envelope, so calls follow one another. The bus may
raise for any envelope; a call that it ends keeps what has been written before.
-/

namespace Ump.Participant

/-- A state that the bus has taken, with its envelope. -/
structure PublishedState where
  snapshot : StateSnapshot
  envelope : Envelope

/-- The memory that the two methods share, and a record of what the bus has taken. -/
structure Publisher where
  sequences : Stream -> Nat
  lastPublishedSafety : Option Safety
  published : List PublishedState

def Publisher.initial : Publisher where
  sequences _ := 0
  lastPublishedSafety := none
  published := []

abbrev Publishing := EStateM Exn Publisher

/-- What one call is given: the snapshot, which may be one that the checks refuse, the time,
the correlation, the message ids of its envelopes, and the answers of the bus. -/
structure StateCall where
  snapshot : Except Exn StateSnapshot
  nowMs : Int
  correlationId : Option String
  uuid4 : Stream -> String
  bus : Envelope -> Except Exn Unit

structure Identity where
  robotId : String
  sessionId : String

namespace Publisher

def stateEnvelope (identity : Identity) (call : StateCall) (snapshot : StateSnapshot)
    (stream : Stream) (sequence : Nat) : Envelope where
  messageId := call.uuid4 stream
  messageType := .state
  sourceId := identity.robotId
  sessionId := identity.sessionId
  sequence := sequence
  timestampMs := call.nowMs
  payload := snapshot.payload
  correlationId := call.correlationId
  stream := stream

/-- `self._sequences[stream] += 1`. -/
def count (stream : Stream) (p : Publisher) : Publisher :=
  { p with
    sequences := fun other =>
      if other = stream then p.sequences stream + 1 else p.sequences other }

/-- `_send` of a state. The number is used up also when the bus raises. -/
def send (identity : Identity) (call : StateCall) (snapshot : StateSnapshot)
    (stream : Stream) : Publishing Unit := do
  modify (count stream)
  let p <- get
  let envelope := stateEnvelope identity call snapshot stream (p.sequences stream)
  match call.bus envelope with
  | .error e => throw e
  | .ok () => modify (fun p =>
      { p with published := p.published ++ [{ snapshot := snapshot, envelope := envelope }] })

def stateSnapshot (call : StateCall) : Publishing StateSnapshot :=
  match call.snapshot with
  | .ok snapshot => pure snapshot
  | .error e => throw e

def remember (safety : Safety) : Publishing Unit :=
  modify (fun p => { p with lastPublishedSafety := some safety })

def publishState (identity : Identity) (call : StateCall) : Publishing Unit := do
  let snapshot <- stateSnapshot call
  let p <- get
  if p.lastPublishedSafety.any (fun safety => decide (snapshot.safety ≠ safety)) then
    send identity call snapshot .safety
  remember snapshot.safety
  send identity call snapshot .operational

def publishSafetyState (identity : Identity) (call : StateCall) : Publishing Unit := do
  let snapshot <- stateSnapshot call
  remember snapshot.safety
  send identity call snapshot .safety

end Publisher

inductive PublisherCall where
  | publishState (call : StateCall)
  | publishSafetyState (call : StateCall)

def PublisherCall.method (identity : Identity) : PublisherCall -> Publishing Unit
  | .publishState call => Publisher.publishState identity call
  | .publishSafetyState call => Publisher.publishSafetyState identity call

def publisherAfter : EStateM.Result Exn Publisher Unit -> Publisher
  | .ok _ p => p
  | .error _ p => p

/-- The publisher after a call, whether it returns or raises. -/
def Publisher.perform (identity : Identity) (p : Publisher) (call : PublisherCall) :
    Publisher :=
  publisherAfter (call.method identity p)

/-!
## What has been announced
-/

def PublishedState.stream (entry : PublishedState) : Stream :=
  entry.envelope.stream

def PublishedState.safety (entry : PublishedState) : Safety :=
  entry.snapshot.safety

def lastOperational (published : List PublishedState) : Option Safety :=
  (published.reverse.find? (fun entry => entry.stream == .operational)).map
    PublishedState.safety

/-- The safety value has been published on the safety stream since the last operational
state. -/
def announcedSince (published : List PublishedState) (safety : Safety) : Bool :=
  (published.reverse.takeWhile (fun entry => entry.stream != .operational)).any
    (fun entry => entry.stream == .safety && entry.safety == safety)

/-- An operational state with this safety value would follow its announcement. -/
def Announced (published : List PublishedState) (safety : Safety) : Prop :=
  forall previous, lastOperational published = some previous -> safety ≠ previous ->
    announcedSince published safety = true

/-- Every operational state whose safety value differs from that of the operational state
before it follows a state with that value on the safety stream. -/
def SafetyFirst (published : List PublishedState) : Prop :=
  forall before entry after, published = before ++ entry :: after ->
    entry.stream = .operational -> Announced before entry.safety

theorem lastOperational_concat (published : List PublishedState) (entry : PublishedState) :
    lastOperational (published ++ [entry]) =
      match entry.stream with
      | .operational => some entry.safety
      | .safety => lastOperational published := by
  unfold lastOperational
  rw [List.reverse_append, List.reverse_singleton, List.singleton_append, List.find?_cons]
  cases entry.stream <;> rfl

theorem announcedSince_concat (published : List PublishedState) (entry : PublishedState)
    (safety : Safety) : announcedSince (published ++ [entry]) safety =
      match entry.stream with
      | .operational => false
      | .safety => entry.safety == safety || announcedSince published safety := by
  unfold announcedSince
  rw [List.reverse_append, List.reverse_singleton, List.singleton_append, List.takeWhile_cons]
  cases hstream : entry.stream with
  | operational => rfl
  | safety =>
      show List.any (entry :: _) _ = _
      rw [List.any_cons, hstream]
      rfl

theorem told_operational {published : List PublishedState} {entry : PublishedState}
    (h : entry.stream = .operational) : Announced (published ++ [entry]) entry.safety := by
  intro previous hprevious hne
  rw [lastOperational_concat, h] at hprevious
  exact absurd (Option.some.inj hprevious) hne

theorem told_safety {published : List PublishedState} (entry : PublishedState)
    {safety : Safety} (h : entry.stream = .safety)
    (htold : entry.safety = safety ∨ Announced published safety) :
    Announced (published ++ [entry]) safety := by
  intro previous hprevious hne
  rw [lastOperational_concat, h] at hprevious
  rw [announcedSince_concat, h]
  rcases htold with hown | htold
  · simp [hown]
  · simp [htold previous hprevious hne]

theorem safetyFirst_concat {published : List PublishedState} {entry : PublishedState}
    (h : SafetyFirst published)
    (hentry : entry.stream = .operational -> Announced published entry.safety) :
    SafetyFirst (published ++ [entry]) := by
  intro before other after hsplit hoperational
  rcases List.eq_nil_or_concat after with rfl | ⟨rest, last, rfl⟩
  · rcases List.append_inj' hsplit rfl with ⟨hbefore, hother⟩
    cases hother
    rw [← hbefore]
    exact hentry hoperational
  · rw [List.concat_eq_append, ← List.cons_append, ← List.append_assoc] at hsplit
    exact h before other rest (List.append_inj' hsplit rfl).1 hoperational

/-!
## What the calls keep
-/

/-- The remembered value has been told, and without one no operational state is out. -/
structure Remembers (p : Publisher) : Prop where
  first : SafetyFirst p.published
  fresh : p.lastPublishedSafety = none -> lastOperational p.published = none
  told : forall safety, p.lastPublishedSafety = some safety -> Announced p.published safety

theorem Remembers.same {p p' : Publisher} (h : Remembers p)
    (hmemory : p'.lastPublishedSafety = p.lastPublishedSafety)
    (hpublished : p'.published = p.published) : Remembers p' := by
  constructor
  · rw [hpublished]
    exact h.first
  · rw [hmemory, hpublished]
    exact h.fresh
  · rw [hmemory, hpublished]
    exact h.told

theorem Remembers.remember {p : Publisher} (h : Remembers p) {safety : Safety}
    (htold : Announced p.published safety) :
    Remembers { p with lastPublishedSafety := some safety } where
  first := h.first
  fresh hnone := by cases hnone
  told other hother := by
    cases hother
    exact htold

theorem Remembers.announce {p : Publisher} (h : Remembers p) (entry : PublishedState)
    (hstream : entry.stream = .safety) :
    Remembers { p with published := p.published ++ [entry] } where
  first := safetyFirst_concat h.first (fun hoperational => by
    rw [hstream] at hoperational
    cases hoperational)
  fresh hnone := by
    rw [lastOperational_concat, hstream]
    exact h.fresh hnone
  told safety hsafety := told_safety entry hstream (Or.inr (h.told safety hsafety))

theorem Remembers.operational {p : Publisher} (h : Remembers p) {entry : PublishedState}
    (hstream : entry.stream = .operational)
    (hmemory : p.lastPublishedSafety = some entry.safety) :
    Remembers { p with published := p.published ++ [entry] } where
  first := safetyFirst_concat h.first (fun _ => h.told entry.safety hmemory)
  fresh hnone := by
    rw [hmemory] at hnone
    cases hnone
  told safety hsafety := by
    rw [hmemory] at hsafety
    cases hsafety
    exact told_operational hstream

/-- The envelope that the next `_send` of a state hands to the bus. -/
def nextEnvelope (identity : Identity) (call : StateCall) (snapshot : StateSnapshot)
    (stream : Stream) (p : Publisher) : Envelope :=
  Publisher.stateEnvelope identity call snapshot stream ((p.count stream).sequences stream)

/-- What the bus has taken so far, with one more state. -/
def Publisher.added (p : Publisher) (entry : PublishedState) : Publisher :=
  { p with published := p.published ++ [entry] }

theorem send_eq (identity : Identity) (call : StateCall) (snapshot : StateSnapshot)
    (stream : Stream) (p : Publisher) : Publisher.send identity call snapshot stream p =
      match call.bus (nextEnvelope identity call snapshot stream p) with
      | .ok () => .ok () ((p.count stream).added
          { snapshot := snapshot
            envelope := nextEnvelope identity call snapshot stream p })
      | .error e => .error e (p.count stream) := by
  cases hbus : call.bus (nextEnvelope identity call snapshot stream p) with
  | ok _ =>
      unfold nextEnvelope at hbus
      unfold Publisher.send
      apply (Foundation.bind_of_ok rfl).trans
      apply (Foundation.bind_of_ok rfl).trans
      dsimp only
      rw [hbus]
      rfl
  | error e =>
      unfold nextEnvelope at hbus
      unfold Publisher.send
      apply (Foundation.bind_of_ok rfl).trans
      apply (Foundation.bind_of_ok rfl).trans
      dsimp only
      rw [hbus]
      rfl

/-- The end of `publish_state`: the value is remembered and the operational state sent. -/
def Publisher.publishOperational (identity : Identity) (call : StateCall)
    (snapshot : StateSnapshot) : Publishing Unit := do
  Publisher.remember snapshot.safety
  Publisher.send identity call snapshot .operational

def Publisher.changes (p : Publisher) (safety : Safety) : Bool :=
  p.lastPublishedSafety.any (fun remembered => decide (safety ≠ remembered))

theorem publishState_ok {identity : Identity} {call : StateCall} {snapshot : StateSnapshot}
    (h : call.snapshot = .ok snapshot) (p : Publisher) :
    Publisher.publishState identity call p =
      (if p.changes snapshot.safety then
        Publisher.send identity call snapshot .safety >>= fun _ =>
          Publisher.publishOperational identity call snapshot
      else
        Publisher.publishOperational identity call snapshot) p := by
  unfold Publisher.publishState Publisher.stateSnapshot
  rw [h]
  show (if p.changes snapshot.safety = true then _ else _ : Publishing Unit) p = _
  cases p.changes snapshot.safety <;> rfl

theorem publishState_error {identity : Identity} {call : StateCall} {e : Exn}
    (h : call.snapshot = .error e) (p : Publisher) :
    Publisher.publishState identity call p = .error e p := by
  unfold Publisher.publishState Publisher.stateSnapshot
  rw [h]
  rfl

theorem publishSafetyState_error {identity : Identity} {call : StateCall} {e : Exn}
    (h : call.snapshot = .error e) (p : Publisher) :
    Publisher.publishSafetyState identity call p = .error e p := by
  unfold Publisher.publishSafetyState Publisher.stateSnapshot
  rw [h]
  rfl

theorem publishSafetyState_ok {identity : Identity} {call : StateCall}
    {snapshot : StateSnapshot} (h : call.snapshot = .ok snapshot) (p : Publisher) :
    Publisher.publishSafetyState identity call p =
      Publisher.send identity call snapshot .safety
        { p with lastPublishedSafety := some snapshot.safety } := by
  unfold Publisher.publishSafetyState Publisher.stateSnapshot
  rw [h]
  rfl

theorem remembers_publishOperational (identity : Identity) (call : StateCall)
    {snapshot : StateSnapshot} {p : Publisher} (h : Remembers p)
    (htold : Announced p.published snapshot.safety) :
    Remembers (publisherAfter (Publisher.publishOperational identity call snapshot p)) := by
  have hremembered := h.remember htold
  show Remembers (publisherAfter (Publisher.send identity call snapshot .operational
    { p with lastPublishedSafety := some snapshot.safety }))
  rw [send_eq]
  cases call.bus _ with
  | error e => exact hremembered.same rfl rfl
  | ok _ => exact (hremembered.operational rfl rfl).same rfl rfl

theorem remembers_publishState (identity : Identity) (call : StateCall) {p : Publisher}
    (h : Remembers p) :
    Remembers (publisherAfter (Publisher.publishState identity call p)) := by
  cases hsnapshot : call.snapshot with
  | error e =>
      rw [publishState_error hsnapshot]
      exact h
  | ok snapshot =>
      rw [publishState_ok hsnapshot]
      cases hchanges : p.changes snapshot.safety with
      | false =>
          rw [if_neg (by simp)]
          apply remembers_publishOperational identity call h
          -- without a remembered value nothing is out yet, else the value has been told
          cases hmemory : p.lastPublishedSafety with
          | none =>
              intro previous hprevious
              rw [h.fresh hmemory] at hprevious
              cases hprevious
          | some remembered =>
              unfold Publisher.changes at hchanges
              rw [hmemory, Option.any_some] at hchanges
              rw [not_not.mp (of_decide_eq_false hchanges)]
              exact h.told remembered hmemory
      | true =>
          rw [if_pos rfl]
          show Remembers (publisherAfter (EStateM.bind _ _ p))
          unfold EStateM.bind
          rw [send_eq]
          cases call.bus (nextEnvelope identity call snapshot .safety p) with
          | error e => exact h.same rfl rfl
          | ok _ =>
              let entry : PublishedState :=
                { snapshot := snapshot
                  envelope := nextEnvelope identity call snapshot .safety p }
              have hannounced : Remembers ((p.count .safety).added entry) :=
                (h.announce entry rfl).same rfl rfl
              exact remembers_publishOperational identity call hannounced
                (told_safety entry rfl (Or.inl rfl))

/-- When the bus refuses a safety state, that value has been told before. -/
def HeardOrTold (identity : Identity) (p : Publisher) : PublisherCall -> Prop
  | .publishState _ => True
  | .publishSafetyState call => forall snapshot e, call.snapshot = .ok snapshot ->
      call.bus (nextEnvelope identity call snapshot .safety p) = .error e ->
      Announced p.published snapshot.safety

theorem remembers_publishSafetyState (identity : Identity) (call : StateCall) {p : Publisher}
    (h : Remembers p) (hheard : HeardOrTold identity p (.publishSafetyState call)) :
    Remembers (publisherAfter (Publisher.publishSafetyState identity call p)) := by
  cases hsnapshot : call.snapshot with
  | error e =>
      rw [publishSafetyState_error hsnapshot]
      exact h
  | ok snapshot =>
      rw [publishSafetyState_ok hsnapshot, send_eq]
      have hsame : nextEnvelope identity call snapshot .safety
          { p with lastPublishedSafety := some snapshot.safety } =
          nextEnvelope identity call snapshot .safety p := rfl
      rw [hsame]
      cases hbus : call.bus (nextEnvelope identity call snapshot .safety p) with
      | error e => exact (h.remember (hheard snapshot e hsnapshot hbus)).same rfl rfl
      | ok _ =>
          let entry : PublishedState :=
            { snapshot := snapshot
              envelope := nextEnvelope identity call snapshot .safety p }
          have htold : Announced (p.published ++ [entry]) snapshot.safety :=
            told_safety entry rfl (Or.inl rfl)
          exact ((h.announce entry rfl).remember htold).same rfl rfl

/-- Every call of a sequence meets the condition where it is made. -/
def AllHeardOrTold (identity : Identity) : Publisher -> List PublisherCall -> Prop
  | _, [] => True
  | p, call :: rest => HeardOrTold identity p call ∧
      AllHeardOrTold identity (p.perform identity call) rest

theorem remembers_run (identity : Identity) (calls : List PublisherCall) {p : Publisher}
    (h : Remembers p) (hcalls : AllHeardOrTold identity p calls) :
    Remembers (calls.foldl (Publisher.perform identity) p) := by
  induction calls generalizing p with
  | nil => exact h
  | cons call rest ih =>
      refine ih ?_ hcalls.2
      cases call with
      | publishState call => exact remembers_publishState identity call h
      | publishSafetyState call => exact remembers_publishSafetyState identity call h hcalls.1

theorem remembers_initial : Remembers .initial where
  first before entry after hsplit := by
    cases before <;> cases hsplit
  fresh _ := rfl
  told safety hsafety := by cases hsafety

/-- In every sequence of calls in which the bus refuses no safety state with a value that
has not been told, each operational state that changes the safety value follows a state
with that value on the safety stream. -/
theorem safety_published_first (identity : Identity) (calls : List PublisherCall)
    (h : AllHeardOrTold identity .initial calls) :
    SafetyFirst (calls.foldl (Publisher.perform identity) .initial).published :=
  (remembers_run identity calls remembers_initial h).first

/-- The condition cannot be left out: after a refused safety state with a value that has not
been told, `publish_state` sends that value on the operational stream only. -/
theorem untold_value_implied {identity : Identity} {p : Publisher} {call : StateCall}
    (h : ¬ HeardOrTold identity p (.publishSafetyState call)) : exists next,
      ¬ SafetyFirst ((p.perform identity (.publishSafetyState call)).perform identity
        (.publishState next)).published := by
  simp only [HeardOrTold, not_forall] at h
  rcases h with ⟨snapshot, e, hsnapshot, hbus, huntold⟩
  have hrefused : p.perform identity (.publishSafetyState call) =
      ({ p with lastPublishedSafety := some snapshot.safety } : Publisher).count .safety := by
    show publisherAfter (Publisher.publishSafetyState identity call p) = _
    rw [publishSafetyState_ok hsnapshot, send_eq]
    have hsame : call.bus (nextEnvelope identity call snapshot .safety
        { p with lastPublishedSafety := some snapshot.safety }) = .error e := hbus
    rw [hsame]
    rfl
  let next : StateCall := { call with bus := fun _ => .ok () }
  refine ⟨next, ?_⟩
  intro hfirst
  apply huntold
  let reached := ({ p with lastPublishedSafety := some snapshot.safety } : Publisher).count .safety
  have hsent : (reached.perform identity (.publishState next)).published = p.published ++
      [{ snapshot := snapshot
         envelope := nextEnvelope identity next snapshot .operational reached }] := by
    show (publisherAfter (Publisher.publishState identity next reached)).published = _
    rw [publishState_ok (show next.snapshot = .ok snapshot from hsnapshot)]
    have hsame : reached.changes snapshot.safety = false := by
      show decide (snapshot.safety ≠ snapshot.safety) = false
      simp
    rw [hsame]
    show (publisherAfter (Publisher.send identity next snapshot .operational
      { reached with lastPublishedSafety := some snapshot.safety })).published = _
    rw [send_eq]
    rfl
  rw [hrefused] at hfirst
  exact hfirst p.published _ [] hsent rfl

/-!
## One robot stops

The bus refuses an envelope. First it is the operational state, after the announcement; then
it is the safety state of a call that only announces.
-/

def hallIdentity : Identity where
  robotId := "r1"
  sessionId := "session"

def hallCall (safety : Safety) (refuses : Stream -> Bool) : StateCall where
  snapshot := .ok { safety := safety, payload := .obj [("robot_id", .str "r1")] }
  nowMs := 0
  correlationId := none
  uuid4 stream := stream.value
  bus envelope := if refuses envelope.stream then .error (.runtime "outbox is full") else .ok ()

def never (_ : Stream) : Bool := false

def hallStop : List PublisherCall :=
  [.publishState (hallCall .normal never),
    .publishState (hallCall .protectiveStop (fun stream => stream == .operational)),
    .publishSafetyState (hallCall .protectiveStop (fun stream => stream == .safety)),
    .publishState (hallCall .protectiveStop never)]

def hallStates (calls : List PublisherCall) : List (Stream × Safety) :=
  (calls.foldl (Publisher.perform hallIdentity) .initial).published.map
    (fun entry => (entry.stream, entry.safety))

theorem hall_announced :
    hallStates hallStop = [(.operational, .normal), (.safety, .protectiveStop),
      (.operational, .protectiveStop)] ∧
      SafetyFirst (hallStop.foldl (Publisher.perform hallIdentity) .initial).published := by
  refine ⟨rfl, safety_published_first hallIdentity hallStop ⟨trivial, trivial, ?_, trivial,
    trivial⟩⟩
  intro snapshot e hsnapshot _
  cases hsnapshot
  intro previous _ _
  rfl

def hallSilentStop : List PublisherCall :=
  [.publishState (hallCall .normal never),
    .publishSafetyState (hallCall .protectiveStop (fun stream => stream == .safety)),
    .publishState (hallCall .protectiveStop never)]

theorem hall_not_announced :
    hallStates hallSilentStop = [(.operational, .normal), (.operational, .protectiveStop)] ∧
      ¬ SafetyFirst (hallSilentStop.foldl (Publisher.perform hallIdentity)
        .initial).published := by
  refine ⟨rfl, ?_⟩
  intro h
  have hannounced := h [_] _ [] rfl rfl .normal rfl (by decide)
  cases hannounced

end Ump.Participant
