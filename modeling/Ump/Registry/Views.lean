import Ump.Registry.Decoding

/-!
# The registry

## Peer views

A registry keeps one view of each robot that it has heard of, under the id of the envelope's
source. Its two handlers run under one lock, so deliveries follow one another.
-/

namespace Ump.Registry

/-- `last_sequences` is read with the default 0. -/
structure PeerView where
  manifest : Option Manifest
  state : Option RobotState
  stateTimestampMs : Int
  lastSequences : Stream -> Int
  sessionId : Option String

def PeerView.new : PeerView where
  manifest := none
  state := none
  stateTimestampMs := 0
  lastSequences _ := 0
  sessionId := none

abbrev Peers := List (String × PeerView)

namespace Peers

/-- The view of a robot, or the one that `setdefault` would add. -/
def view (peers : Peers) (robotId : String) : PeerView :=
  (peers.lookup robotId).getD .new

def setDefault (peers : Peers) (robotId : String) : Peers :=
  match peers.lookup robotId with
  | some _ => peers
  | none => peers ++ [(robotId, .new)]

def put (peers : Peers) (robotId : String) (view : PeerView) : Peers :=
  peers.map (fun entry => if entry.1 = robotId then (robotId, view) else entry)

end Peers

inductive Verdict where
  | accepted
  | ignored
  | raised (e : Exn)
deriving DecidableEq, Repr

namespace PeerView

/-- A manifest of another session makes the view forget the state and the floors. -/
def enterSession (view : PeerView) (sessionId : String) : PeerView :=
  if view.sessionId = some sessionId then
    view
  else
    { view with state := none, stateTimestampMs := 0, lastSequences := fun _ => 0 }

def raiseFloor (view : PeerView) (envelope : Envelope) : Stream -> Int :=
  fun stream => if stream = envelope.stream then envelope.sequence else view.lastSequences stream

/-- The end of `_manifest`. -/
def takeManifest (view : PeerView) (manifest : Manifest) (envelope : Envelope) :
    PeerView × Verdict :=
  let entered := view.enterSession envelope.sessionId
  if envelope.sequence ≤ entered.lastSequences envelope.stream then
    (entered, .ignored)
  else
    ({ entered with
        manifest := some manifest
        sessionId := some envelope.sessionId
        lastSequences := entered.raiseFloor envelope }, .accepted)

/-- The end of `_state`: the floor is raised, and an older state is not kept. -/
def takeState (view : PeerView) (state : RobotState) (envelope : Envelope) : PeerView :=
  let raised := { view with lastSequences := view.raiseFloor envelope }
  if envelope.timestampMs < view.stateTimestampMs then
    raised
  else
    { raised with state := some state, stateTimestampMs := envelope.timestampMs }

/-- The first checks of `_state`. -/
def hasSession (view : PeerView) (sessionId : String) : Bool :=
  decide (view.sessionId = some sessionId) && view.manifest.isSome

end PeerView

def checkRobotId (data : Json) (sourceId : String) : Except Exn Unit := do
  let robotId <- data.get "robot_id" .null
  refuseWhen (!robotId.isText sourceId)
    "state robot_id does not match authenticated source"

def stateOf (library : Library) (envelope : Envelope) : Except Exn RobotState := do
  checkRobotId envelope.payload envelope.sourceId
  readState library envelope.payload

/-- The manifest of an envelope, of the robot that has sent it. -/
def manifestOf (library : Library) (envelope : Envelope) : Except Exn Manifest := do
  let manifest <- readManifest library envelope.payload
  refuseWhen (decide (manifest.robotId ≠ envelope.sourceId))
    "manifest robot_id does not match authenticated source"
  .ok manifest

/-- `_manifest`. -/
def handleManifest (library : Library) (peers : Peers) (envelope : Envelope) :
    Peers × Verdict :=
  match manifestOf library envelope with
  | .error e => (peers, .raised e)
  | .ok manifest =>
      let known := peers.setDefault envelope.sourceId
      let taken := (known.view envelope.sourceId).takeManifest manifest envelope
      (known.put envelope.sourceId taken.1, taken.2)

/-- `_state`. -/
def handleState (library : Library) (peers : Peers) (envelope : Envelope) : Peers × Verdict :=
  let known := peers.setDefault envelope.sourceId
  let view := known.view envelope.sourceId
  if !view.hasSession envelope.sessionId then
    (known, .raised (.value "state received before manifest for this source session"))
  else if envelope.sequence ≤ view.lastSequences envelope.stream then
    (known, .ignored)
  else
    match stateOf library envelope with
    | .error e => (known, .raised e)
    | .ok state => (known.put envelope.sourceId (view.takeState state envelope), .accepted)

def deliver (library : Library) (peers : Peers) (envelope : Envelope) : Peers × Verdict :=
  match envelope.messageType with
  | .manifest => handleManifest library peers envelope
  | .state => handleState library peers envelope
  | _ => (peers, .ignored)

/-!
## Lookups
-/

theorem view_setDefault (peers : Peers) (robotId other : String) :
    (peers.setDefault robotId).view other = peers.view other := by
  unfold Peers.setDefault
  cases hknown : peers.lookup robotId with
  | some view => rfl
  | none =>
      unfold Peers.view
      dsimp only
      rw [List.lookup_append]
      by_cases hother : other = robotId
      · rw [hother, hknown]
        simp
      · have hne : (other == robotId) = false := beq_eq_false_iff_ne.mpr hother
        simp [List.lookup_cons, hne]

theorem lookup_put (peers : Peers) (robotId other : String) (view : PeerView) :
    (peers.put robotId view).lookup other =
      if other = robotId then (peers.lookup robotId).map (fun _ => view)
      else peers.lookup other := by
  unfold Peers.put
  induction peers with
  | nil => simp
  | cons head rest ih =>
      rcases head with ⟨name, old⟩
      rw [List.map_cons]
      by_cases hother : other = robotId
      · by_cases hname : name = robotId
        · simp [hother, hname]
        · have hne : (robotId == name) = false := beq_eq_false_iff_ne.mpr (Ne.symm hname)
          rw [if_pos hother] at ih
          simp [hother, hname, hne, List.lookup_cons] at ih ⊢
          exact ih
      · rw [if_neg hother] at ih ⊢
        by_cases hname : name = robotId
        · have hne : (other == robotId) = false := beq_eq_false_iff_ne.mpr hother
          simp [hname, hne, List.lookup_cons, ih]
        · simp [hname, List.lookup_cons, ih]

theorem view_put (peers : Peers) (robotId other : String) (view : PeerView) :
    ((peers.setDefault robotId).put robotId view).view other =
      if other = robotId then view else peers.view other := by
  have hknown : exists old, (peers.setDefault robotId).lookup robotId = some old := by
    unfold Peers.setDefault
    cases hlookup : peers.lookup robotId with
    | some old => exact ⟨old, hlookup⟩
    | none =>
        dsimp only
        rw [List.lookup_append, hlookup]
        exact ⟨.new, by simp⟩
  rcases hknown with ⟨old, hold⟩
  have hview := view_setDefault peers robotId other
  unfold Peers.view at hview ⊢
  rw [lookup_put]
  split_ifs with hother
  · rw [hold]
    rfl
  · exact hview

/-!
## What a delivery does
-/

@[simp] theorem takeState_lastSequences (view : PeerView) (state : RobotState)
    (envelope : Envelope) :
    (view.takeState state envelope).lastSequences = view.raiseFloor envelope := by
  unfold PeerView.takeState
  dsimp only
  split_ifs <;> rfl

@[simp] theorem takeState_sessionId (view : PeerView) (state : RobotState)
    (envelope : Envelope) : (view.takeState state envelope).sessionId = view.sessionId := by
  unfold PeerView.takeState
  dsimp only
  split_ifs <;> rfl

@[simp] theorem takeState_manifest (view : PeerView) (state : RobotState)
    (envelope : Envelope) : (view.takeState state envelope).manifest = view.manifest := by
  unfold PeerView.takeState
  dsimp only
  split_ifs <;> rfl

theorem hasSession_eq_true {view : PeerView} {sessionId : String} :
    view.hasSession sessionId = true <->
      view.sessionId = some sessionId ∧ view.manifest.isSome = true := by
  unfold PeerView.hasSession
  simp

theorem enterSession_same {view : PeerView} {sessionId : String}
    (h : view.sessionId = some sessionId) : view.enterSession sessionId = view :=
  if_pos h

/-- One delivery to the view of its source: the view stays, forgets an old session, takes a
manifest, or takes a state. -/
inductive Taken (library : Library) (view : PeerView) (envelope : Envelope) :
    PeerView -> Verdict -> Prop where
  | same (verdict : Verdict) (h : verdict ≠ .accepted) : Taken library view envelope view verdict
  | entered (manifest : Manifest) (hmanifest : manifestOf library envelope = .ok manifest)
      (htype : envelope.messageType = .manifest)
      (hfloor : envelope.sequence ≤
        (view.enterSession envelope.sessionId).lastSequences envelope.stream) :
      Taken library view envelope (view.enterSession envelope.sessionId) .ignored
  | manifest (manifest : Manifest) (hmanifest : manifestOf library envelope = .ok manifest)
      (htype : envelope.messageType = .manifest)
      (hfloor : (view.enterSession envelope.sessionId).lastSequences envelope.stream <
        envelope.sequence) :
      Taken library view envelope
        { view.enterSession envelope.sessionId with
          manifest := some manifest
          sessionId := some envelope.sessionId
          lastSequences := (view.enterSession envelope.sessionId).raiseFloor envelope } .accepted
  | state (state : RobotState) (hstate : stateOf library envelope = .ok state)
      (htype : envelope.messageType = .state)
      (hsession : view.hasSession envelope.sessionId = true)
      (hfloor : view.lastSequences envelope.stream < envelope.sequence) :
      Taken library view envelope (view.takeState state envelope) .accepted

theorem deliver_taken (library : Library) (peers : Peers) (envelope : Envelope) :
    exists view, Taken library (peers.view envelope.sourceId) envelope view
        (deliver library peers envelope).2 ∧
      forall other, (deliver library peers envelope).1.view other =
        if other = envelope.sourceId then view else peers.view other := by
  have hsame : forall other, peers.view other =
      if other = envelope.sourceId then peers.view envelope.sourceId else peers.view other := by
    intro other
    split_ifs with hother
    · rw [hother]
    · rfl
  have hdefault : forall other, (peers.setDefault envelope.sourceId).view other =
      if other = envelope.sourceId then peers.view envelope.sourceId else peers.view other := by
    intro other
    rw [view_setDefault]
    exact hsame other
  unfold deliver
  cases htype : envelope.messageType with
  | manifest =>
      dsimp only
      unfold handleManifest
      cases hmanifest : manifestOf library envelope with
      | error e => exact ⟨_, Taken.same _ (by simp), hsame⟩
      | ok manifest =>
          dsimp only
          rw [view_setDefault]
          unfold PeerView.takeManifest
          dsimp only
          split_ifs with hfloor
          · exact ⟨_, Taken.entered manifest hmanifest htype hfloor,
              fun other => view_put peers _ other _⟩
          · exact ⟨_, Taken.manifest manifest hmanifest htype (not_le.mp hfloor),
              fun other => view_put peers _ other _⟩
  | state =>
      dsimp only
      unfold handleState
      dsimp only
      rw [view_setDefault]
      split_ifs with hsession hfloor
      · exact ⟨_, Taken.same _ (by simp), hdefault⟩
      · exact ⟨_, Taken.same _ (by simp), hdefault⟩
      · cases hstate : stateOf library envelope with
        | error e => exact ⟨_, Taken.same _ (by simp), hdefault⟩
        | ok state =>
            exact ⟨_, Taken.state state hstate htype (by simpa using hsession)
              (not_le.mp hfloor), fun other => view_put peers _ other _⟩
  | _ => exact ⟨_, Taken.same _ (by simp), hsame⟩

end Ump.Registry
