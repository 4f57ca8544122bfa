import Mathlib.Data.Rat.Floor
import Ump.Coordinator.Planning
import Ump.Registry.Replay

/-!
# Freshness

## Who is fresh

A peer is fresh as long as the state in its view has not outlived its own declaration,
counted from the time that the sender has put on it. The watchdog, the context check and the
plan check all read this one test.
-/

namespace Ump.Registry

open Coordinator (validatePlan validateStep)

/-- The declared duration; `check` has compared it with numbers. -/
def RobotState.freshFor (state : RobotState) : Rat :=
  match state.freshForMs.number with
  | .ok n => n
  | .error _ => 0

def isFresh (peers : Peers) (robotId : String) (nowMs : Int) : Bool :=
  match peers.lookup robotId with
  | some { state := some state, stateTimestampMs := timestampMs, .. } =>
      decide (((nowMs - timestampMs : Int) : Rat) ≤ state.freshFor)
  | _ => false

/-- The calls that a watchdog makes to the manufacturer's policy. -/
inductive LossCall where
  | lost (stalePeerIds : List String) (observedAtMs : Int)
  | restored (peerIds : List String) (observedAtMs : Int)
deriving DecidableEq, Repr

/-- `CommunicationWatchdog`. -/
structure Watchdog where
  requiredPeerIds : List String
  activeStale : List String

namespace Watchdog

/-- The check of `__init__` on the peers. -/
def create (requiredPeerIds : List String) : Except Exn Watchdog := do
  refuseWhen (requiredPeerIds.isEmpty || hasRepeats requiredPeerIds)
    "communication watchdog peers must be non-empty and unique"
  .ok
    { requiredPeerIds := requiredPeerIds.insertionSort (fun a b => a ≤ b)
      activeStale := [] }

def stalePeers (watchdog : Watchdog) (peers : Peers) (nowMs : Int) : List String :=
  watchdog.requiredPeerIds.filter (fun peerId => !isFresh peers peerId nowMs)

/-- What an evaluation returns, the call that it makes, and the watchdog after it. -/
structure Evaluation where
  watchdog : Watchdog
  call : Option LossCall
  returned : List String

/-- `evaluate`; the policy raises on some of its calls. -/
def evaluate (watchdog : Watchdog) (raises : LossCall -> Bool) (peers : Peers)
    (nowMs : Int) : Evaluation :=
  let stale := watchdog.stalePeers peers nowMs
  let previous := watchdog.activeStale
  if stale = previous then
    { watchdog := watchdog, call := none, returned := stale }
  else
    let call : LossCall := if stale.isEmpty then .restored previous nowMs else .lost stale nowMs
    if raises call then
      { watchdog := watchdog, call := some call, returned := previous }
    else
      { watchdog := { watchdog with activeStale := stale }, call := some call, returned := stale }

end Watchdog

/-- What the plan check of a coordinator reads of a view. A duration is compared with whole
milliseconds, so its whole part decides. -/
def PeerView.planned (view : PeerView) : Coordinator.PeerView where
  manifest := view.manifest.map Manifest.toRobotManifest
  state := view.state.map (fun state => { freshForMs := ⌊state.freshFor⌋ })
  stateTimestampMs := view.stateTimestampMs

def plannedPeers (peers : Peers) : Coordinator.Registry :=
  peers.map (fun entry => (entry.1, entry.2.planned))

theorem lookup_plannedPeers (peers : Peers) (robotId : String) :
    (plannedPeers peers).lookup robotId = (peers.lookup robotId).map PeerView.planned := by
  induction peers with
  | nil => rfl
  | cons head rest ih =>
      rcases head with ⟨name, view⟩
      unfold plannedPeers at ih ⊢
      rw [List.map_cons, List.lookup_cons, List.lookup_cons]
      cases robotId == name with
      | true => rfl
      | false => exact ih

theorem planned_isFresh (peers : Peers) (robotId : String) (nowMs : Int) :
    Coordinator.Registry.isFresh (plannedPeers peers) robotId nowMs =
      isFresh peers robotId nowMs := by
  unfold Coordinator.Registry.isFresh isFresh
  rw [lookup_plannedPeers]
  cases peers.lookup robotId with
  | none => rfl
  | some view =>
      rcases view with ⟨manifest, state, timestampMs, lastSequences, sessionId⟩
      cases state with
      | none => rfl
      | some state =>
          show decide (nowMs - timestampMs ≤ ⌊state.freshFor⌋) =
            decide (((nowMs - timestampMs : Int) : Rat) ≤ state.freshFor)
          rw [decide_eq_decide]
          exact Int.le_floor

/-!
## Silence

A silent peer is noticed when nothing reads it as fresh any more.
-/

structure Noticed (peers : Peers) (robotId : String) (nowMs : Int) : Prop where
  stale : isFresh peers robotId nowMs = false
  watched : forall watchdog : Watchdog, robotId ∈ watchdog.requiredPeerIds ->
    forall raises, robotId ∈ watchdog.stalePeers peers nowMs ∧
      (robotId ∈ (watchdog.evaluate raises peers nowMs).returned ∨
        exists call, raises call = true ∧
          (watchdog.evaluate raises peers nowMs).call = some call ∧
          call = .lost (watchdog.stalePeers peers nowMs) nowMs)
  unplanned : forall goal plan, (exists step, step ∈ plan.steps ∧
      step.assignedRobotId = robotId) ->
    validatePlan goal plan (plannedPeers peers) nowMs ≠ .ok ()

theorem mem_stalePeers {watchdog : Watchdog} {peers : Peers} {robotId : String} {nowMs : Int} :
    robotId ∈ watchdog.stalePeers peers nowMs <->
      robotId ∈ watchdog.requiredPeerIds ∧ isFresh peers robotId nowMs = false := by
  unfold Watchdog.stalePeers
  rw [List.mem_filter]
  simp

theorem mem_evaluate {watchdog : Watchdog} {peers : Peers} {robotId : String} {nowMs : Int}
    (h : robotId ∈ watchdog.stalePeers peers nowMs) (raises : LossCall -> Bool) :
    robotId ∈ (watchdog.evaluate raises peers nowMs).returned ∨
      exists call, raises call = true ∧
        (watchdog.evaluate raises peers nowMs).call = some call ∧
        call = .lost (watchdog.stalePeers peers nowMs) nowMs := by
  have hsome : (watchdog.stalePeers peers nowMs).isEmpty = false := by
    rw [List.isEmpty_eq_false_iff]
    exact List.ne_nil_of_mem h
  unfold Watchdog.evaluate
  dsimp only
  by_cases hsame : watchdog.stalePeers peers nowMs = watchdog.activeStale
  · rw [if_pos hsame]
    exact Or.inl h
  · rw [if_neg hsame, hsome]
    simp only [Bool.false_eq_true, if_false]
    split_ifs with hraises
    · exact Or.inr ⟨_, hraises, rfl, rfl⟩
    · exact Or.inl h

theorem validatePlan_fresh {goal : SharedGoal} {plan : Plan} {registry : Coordinator.Registry}
    {nowMs : Int} (h : validatePlan goal plan registry nowMs = .ok ()) {step : PlanStep}
    (hstep : step ∈ plan.steps) : registry.isFresh step.assignedRobotId nowMs = true := by
  unfold validatePlan at h
  rcases bind_eq_ok.mp h with ⟨_, _, h⟩
  rcases bind_eq_ok.mp h with ⟨_, _, h⟩
  rcases bind_eq_ok.mp h with ⟨_, _, h⟩
  rcases bind_eq_ok.mp h with ⟨_, _, h⟩
  rcases bind_eq_ok.mp h with ⟨_, hsteps, _⟩
  have hcheck := checkAll_eq_ok hsteps step hstep
  unfold validateStep at hcheck
  rcases bind_eq_ok.mp hcheck with ⟨_, _, hcheck⟩
  rcases bind_eq_ok.mp hcheck with ⟨_, hpresent, _⟩
  have hknown : Coordinator.present registry step.assignedRobotId nowMs = true := by
    simpa using refuseWhen_eq_ok hpresent
  unfold Coordinator.present at hknown
  split at hknown
  · exact hknown
  · cases hknown

theorem noticed_of_stale {peers : Peers} {robotId : String} {nowMs : Int}
    (h : isFresh peers robotId nowMs = false) : Noticed peers robotId nowMs where
  stale := h
  watched watchdog hrequired raises := by
    have hstale := mem_stalePeers.mpr ⟨hrequired, h⟩
    exact ⟨hstale, mem_evaluate hstale raises⟩
  unplanned goal plan hassigned hvalid := by
    rcases hassigned with ⟨step, hstep, hrobot⟩
    have hfresh := validatePlan_fresh hvalid hstep
    rw [planned_isFresh, hrobot, h] at hfresh
    cases hfresh

/-!
## Runs

What a registry has heard of one robot: the states that it has accepted since it accepted
the session, each with the local time of its arrival.
-/

structure Reception where
  receivedAtMs : Int
  envelope : Envelope

structure Sightings where
  peers : Peers
  states : List Reception

def Sightings.initial : Sightings where
  peers := []
  states := []

/-- An accepted state is heard; a manifest of another session starts again. -/
def Sightings.receive (library : Library) (robotId : String) (sightings : Sightings)
    (reception : Reception) : Sightings :=
  let result := deliver library sightings.peers reception.envelope
  { peers := result.1
    states :=
      if reception.envelope.sourceId ≠ robotId ∨ result.2 ≠ .accepted then sightings.states
      else if reception.envelope.messageType = .state then sightings.states ++ [reception]
      else if (sightings.peers.view robotId).sessionId = some reception.envelope.sessionId then
        sightings.states
      else [] }

def Sightings.run (library : Library) (robotId : String) (receptions : List Reception) :
    Sightings :=
  receptions.foldl (Sightings.receive library robotId) .initial

/-- The newest of two states by the time of the sender, the later of two equal ones. -/
def newer (best : Option Reception) (next : Reception) : Option Reception :=
  match best with
  | none => some next
  | some held =>
      if next.envelope.timestampMs < held.envelope.timestampMs then some held else some next

def newest (states : List Reception) : Option Reception :=
  states.foldl newer none

/-- The view of a robot holds the newest state that has been heard of it. -/
def Held (library : Library) (view : PeerView) : Option Reception -> Prop
  | none => view.state = none ∧ view.stateTimestampMs = 0
  | some reception => view.stateTimestampMs = reception.envelope.timestampMs ∧
      exists state, stateOf library reception.envelope = .ok state ∧ view.state = some state

theorem held_takeState {library : Library} {view : PeerView} {best : Option Reception}
    {reception : Reception} {state : RobotState} (h : Held library view best)
    (hstate : stateOf library reception.envelope = .ok state)
    (hpositive : 0 ≤ reception.envelope.timestampMs) :
    Held library (view.takeState state reception.envelope) (newer best reception) := by
  unfold PeerView.takeState newer
  dsimp only
  cases best with
  | none =>
      rcases h with ⟨_, htime⟩
      rw [htime, if_neg (not_lt.mpr hpositive)]
      exact ⟨rfl, state, hstate, rfl⟩
  | some held =>
      rcases h with ⟨htime, hkept⟩
      rw [htime]
      dsimp only
      split_ifs with holder
      · exact ⟨rfl, hkept⟩
      · exact ⟨rfl, state, hstate, rfl⟩

theorem timestamp_of_decoded {envelope : Envelope} (h : envelope.checkDecoded = .ok ()) :
    0 ≤ envelope.timestampMs := by
  rcases bind_eq_ok.mp h with ⟨_, _, h⟩
  rcases bind_eq_ok.mp h with ⟨_, _, h⟩
  rcases bind_eq_ok.mp h with ⟨_, _, h⟩
  rcases bind_eq_ok.mp h with ⟨_, _, h⟩
  rcases bind_eq_ok.mp h with ⟨_, _, h⟩
  rcases bind_eq_ok.mp h with ⟨_, htimestamp, _⟩
  exact not_lt.mp (of_decide_eq_false (refuseWhen_eq_ok htimestamp))

theorem held_receive {library : Library} {robotId : String} {sightings : Sightings}
    {reception : Reception} (hdecoded : reception.envelope.checkDecoded = .ok ())
    (h : Held library (sightings.peers.view robotId) (newest sightings.states)) :
    Held library ((sightings.receive library robotId reception).peers.view robotId)
      (newest (sightings.receive library robotId reception).states) := by
  rcases deliver_taken library sightings.peers reception.envelope with ⟨view, htaken, hviews⟩
  have hpeers : (sightings.receive library robotId reception).peers =
      (deliver library sightings.peers reception.envelope).1 := rfl
  have hstates : (sightings.receive library robotId reception).states =
      if reception.envelope.sourceId ≠ robotId ∨
        (deliver library sightings.peers reception.envelope).2 ≠ .accepted then sightings.states
      else if reception.envelope.messageType = .state then sightings.states ++ [reception]
      else if (sightings.peers.view robotId).sessionId = some reception.envelope.sessionId then
        sightings.states
      else [] := rfl
  rw [hpeers, hviews, hstates]
  by_cases hsource : reception.envelope.sourceId = robotId
  · rw [if_pos hsource.symm]
    rw [hsource] at htaken
    generalize (deliver library sightings.peers reception.envelope).2 = verdict at htaken ⊢
    cases htaken with
    | same _ hverdict =>
        rw [if_pos (Or.inr hverdict)]
        exact h
    | entered manifest hmanifest htype hfloor =>
        rw [if_pos (Or.inr (by decide))]
        have hsame : (sightings.peers.view robotId).sessionId =
            some reception.envelope.sessionId := by
          by_contra hother
          rw [lastSequences_other hother] at hfloor
          have hpositive := sequence_of_decoded hdecoded
          omega
        rw [enterSession_same hsame]
        exact h
    | manifest manifest hmanifest htype hfloor =>
        rw [if_neg (by simp [hsource]), if_neg (by rw [htype]; decide)]
        split_ifs with hsame
        · rw [enterSession_same hsame]
          exact h
        · unfold PeerView.enterSession
          rw [if_neg hsame]
          exact ⟨rfl, rfl⟩
    | state state hstate htype hsession hfloor =>
        rw [if_neg (by simp [hsource]), if_pos htype]
        unfold newest at h ⊢
        rw [List.foldl_append]
        exact held_takeState h hstate (timestamp_of_decoded hdecoded)
  · rw [if_neg (Ne.symm hsource), if_pos (Or.inl hsource)]
    exact h

theorem held_run {library : Library} {robotId : String} {receptions : List Reception}
    (hdecoded : forall reception, reception ∈ receptions ->
      reception.envelope.checkDecoded = .ok ()) :
    Held library ((Sightings.run library robotId receptions).peers.view robotId)
      (newest (Sightings.run library robotId receptions).states) := by
  suffices hrun : forall sightings : Sightings,
      Held library (sightings.peers.view robotId) (newest sightings.states) ->
      Held library ((receptions.foldl (Sightings.receive library robotId) sightings).peers.view
        robotId) (newest (receptions.foldl (Sightings.receive library robotId) sightings).states)
    from hrun .initial ⟨rfl, rfl⟩
  induction receptions with
  | nil => exact fun _ h => h
  | cons reception rest ih =>
      intro sightings h
      apply ih (fun other hother => hdecoded other (List.mem_cons_of_mem _ hother))
      exact held_receive (hdecoded reception List.mem_cons_self) h

theorem isFresh_eq_true {peers : Peers} {robotId : String} {nowMs : Int} :
    isFresh peers robotId nowMs = true <->
      exists state, (peers.view robotId).state = some state ∧
        (nowMs : Rat) ≤ (peers.view robotId).stateTimestampMs + state.freshFor := by
  unfold isFresh Peers.view
  cases peers.lookup robotId with
  | none =>
      constructor
      · intro h
        cases h
      · rintro ⟨state, hstate, _⟩
        cases hstate
  | some view =>
      rcases view with ⟨manifest, kept, timestampMs, lastSequences, sessionId⟩
      cases kept with
      | none =>
          constructor
          · intro h
            cases h
          · rintro ⟨state, hstate, _⟩
            cases hstate
      | some kept =>
          show decide (((nowMs - timestampMs : Int) : Rat) ≤ kept.freshFor) = true <->
            exists state, some kept = some state ∧ (nowMs : Rat) ≤ timestampMs + state.freshFor
          rw [decide_eq_true_iff, Int.cast_sub, sub_le_iff_le_add']
          constructor
          · intro h
            exact ⟨kept, rfl, h⟩
          · rintro ⟨state, hstate, h⟩
            cases hstate
            exact h

/-- At every later local time the silence of the robot is noticed. -/
def NoticedAfter (peers : Peers) (robotId : String) (timeMs : Rat) : Prop :=
  forall nowMs : Int, timeMs < nowMs -> Noticed peers robotId nowMs

theorem noticedAfter_iff {library : Library} {peers : Peers} {robotId : String}
    {reception : Reception} {state : RobotState}
    (h : Held library (peers.view robotId) (some reception))
    (hstate : stateOf library reception.envelope = .ok state) (timeMs : Rat) :
    NoticedAfter peers robotId timeMs <->
      reception.envelope.timestampMs + ⌊state.freshFor⌋ ≤ ⌊timeMs⌋ := by
  rcases h with ⟨htime, kept, hkept, hview⟩
  rw [hstate] at hkept
  cases hkept
  have hfresh : forall nowMs : Int, isFresh peers robotId nowMs = true <->
      nowMs ≤ reception.envelope.timestampMs + ⌊state.freshFor⌋ := by
    intro nowMs
    rw [isFresh_eq_true, hview, htime, ← Int.floor_intCast_add, Int.le_floor]
    constructor
    · rintro ⟨other, hother, hle⟩
      cases hother
      exact hle
    · intro hle
      exact ⟨state, rfl, hle⟩
  constructor
  · intro hnoticed
    by_contra hlate
    rw [not_le, Int.floor_lt] at hlate
    have hstale := (hnoticed _ hlate).stale
    rw [(hfresh _).mpr (le_refl _)] at hstale
    cases hstale
  · intro hle nowMs hlater
    apply noticed_of_stale
    rw [← Bool.not_eq_true, hfresh, not_le]
    exact lt_of_le_of_lt hle (Int.floor_lt.mpr hlater)

/-- In every run of a registry, once the newest state of a robot has outlived its declaration
by the sender's time, the silence of the robot is noticed; and it is noticed by the local time
of the last state plus its declaration exactly when that time is no earlier. -/
theorem silence_noticed (library : Library) (robotId : String) (receptions : List Reception)
    (hdecoded : forall reception, reception ∈ receptions ->
      reception.envelope.checkDecoded = .ok ())
    (peers : Peers) (states : List Reception)
    (hrun : Sightings.run library robotId receptions = ⟨peers, states⟩) :
    (states = [] -> forall nowMs, Noticed peers robotId nowMs) ∧
    forall reception state, newest states = some reception ->
      stateOf library reception.envelope = .ok state ->
      NoticedAfter peers robotId (reception.envelope.timestampMs + state.freshFor) ∧
      forall last lastState, states.getLast? = some last ->
        stateOf library last.envelope = .ok lastState ->
        (NoticedAfter peers robotId (last.receivedAtMs + lastState.freshFor) <->
          reception.envelope.timestampMs + ⌊state.freshFor⌋ ≤
            last.receivedAtMs + ⌊lastState.freshFor⌋) := by
  have hheld := @held_run library robotId receptions hdecoded
  rw [hrun] at hheld
  constructor
  · rintro rfl nowMs
    apply noticed_of_stale
    rw [← Bool.not_eq_true, isFresh_eq_true]
    rintro ⟨state, hstate, _⟩
    rw [hheld.1] at hstate
    cases hstate
  · intro reception state hnewest hstate
    dsimp only at hheld
    rw [hnewest] at hheld
    constructor
    · rw [noticedAfter_iff hheld hstate, Int.floor_intCast_add]
    · intro last lastState _ _
      rw [noticedAfter_iff hheld hstate, Int.floor_intCast_add]

def heardRover : List Reception :=
  [⟨10, announced "s1" 1⟩, ⟨20, observed "s1" 3 .safety⟩, ⟨30, observed "s1" 2 .operational⟩]

theorem heardRover_noticed :
    newest (Sightings.run asciiLibrary "rover" heardRover).states =
      some ⟨20, observed "s1" 3 .safety⟩ ∧
    NoticedAfter (Sightings.run asciiLibrary "rover" heardRover).peers "rover" 2003 ∧
    NoticedAfter (Sightings.run asciiLibrary "rover" heardRover).peers "rover" 2030 := by
  have hdecoded : forall reception, reception ∈ heardRover ->
      reception.envelope.checkDecoded = .ok () := by
    intro reception hreception
    simp only [heardRover, List.mem_cons, List.not_mem_nil, or_false] at hreception
    rcases hreception with rfl | rfl | rfl <;> rfl
  rcases (silence_noticed asciiLibrary "rover" heardRover hdecoded
    (Sightings.run asciiLibrary "rover" heardRover).peers
    (Sightings.run asciiLibrary "rover" heardRover).states rfl).2
    ⟨20, observed "s1" 3 .safety⟩ _ rfl rfl with ⟨hnoticed, hexact⟩
  refine ⟨rfl, ?_, ?_⟩
  · convert hnoticed using 1
    decide +kernel
  · have hlast := (hexact ⟨30, observed "s1" 2 .operational⟩ _ rfl rfl).mpr (by decide +kernel)
    convert hlast using 1
    decide +kernel

def roverAhead : List Reception :=
  [⟨100, announced "s1" 1⟩,
    ⟨200, { observed "s1" 2 .operational with timestampMs := 1000000 }⟩]

theorem roverAhead_unnoticed :
    (forall reception, reception ∈ roverAhead -> reception.envelope.checkDecoded = .ok ()) ∧
    (Sightings.run asciiLibrary "rover" roverAhead).states = roverAhead.drop 1 ∧
    ¬ NoticedAfter (Sightings.run asciiLibrary "rover" roverAhead).peers "rover" (200 + 2000) := by
  refine ⟨?_, rfl, ?_⟩
  · intro reception hreception
    simp only [roverAhead, List.mem_cons, List.not_mem_nil, or_false] at hreception
    rcases hreception with rfl | rfl <;> rfl
  · intro hnoticed
    have hstale := (hnoticed 5000 (by norm_num)).stale
    exact absurd hstale (by decide)

end Ump.Registry
