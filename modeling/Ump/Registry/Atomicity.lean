import Ump.Registry.Replay

/-!
# Updates that fail

## What a handler leaves behind when it raises

A payload is read whole before a view is written, so only the look-up of the view can leave
something behind.
-/

namespace Ump.Registry

theorem setDefault_of_known {peers : Peers} {robotId : String}
    (h : (peers.lookup robotId).isSome = true) : peers.setDefault robotId = peers := by
  unfold Peers.setDefault
  cases hlookup : peers.lookup robotId with
  | some view => rfl
  | none => simp [hlookup] at h

theorem setDefault_of_new {peers : Peers} {robotId : String}
    (h : peers.lookup robotId = none) : peers.setDefault robotId ≠ peers := by
  unfold Peers.setDefault
  rw [h]
  intro hsame
  have hlength := congrArg List.length hsame
  simp at hlength

theorem hasSession_new (sessionId : String) : PeerView.new.hasSession sessionId = false := by
  unfold PeerView.hasSession PeerView.new
  simp

theorem handleManifest_of_raised {library : Library} {peers : Peers} {envelope : Envelope}
    {e : Exn} (h : (handleManifest library peers envelope).2 = .raised e) :
    (handleManifest library peers envelope).1 = peers := by
  unfold handleManifest at h ⊢
  cases hmanifest : manifestOf library envelope with
  | error e => rfl
  | ok manifest =>
      rw [hmanifest] at h
      dsimp only at h
      unfold PeerView.takeManifest at h
      dsimp only at h
      split_ifs at h

theorem handleState_of_raised {library : Library} {peers : Peers} {envelope : Envelope}
    {e : Exn} (h : (handleState library peers envelope).2 = .raised e) :
    (handleState library peers envelope).1 = peers.setDefault envelope.sourceId := by
  unfold handleState at h ⊢
  dsimp only at h ⊢
  split_ifs at h ⊢
  · rfl
  · cases hstate : stateOf library envelope with
    | error e => rfl
    | ok state =>
        rw [hstate] at h
        cases h

theorem handleState_of_new (library : Library) {peers : Peers} {envelope : Envelope}
    (h : peers.lookup envelope.sourceId = none) :
    exists e, (handleState library peers envelope).2 = .raised e := by
  have hview : (peers.setDefault envelope.sourceId).view envelope.sourceId = .new := by
    rw [view_setDefault]
    unfold Peers.view
    rw [h]
    rfl
  unfold handleState
  dsimp only
  rw [hview, hasSession_new]
  exact ⟨_, rfl⟩

/-- When handling the envelope raises, the registry is as before. -/
def UpdatesAtomically (library : Library) (peers : Peers) (envelope : Envelope) : Prop :=
  forall e, (deliver library peers envelope).2 = .raised e ->
    (deliver library peers envelope).1 = peers

/-- Exactly a state of a source without a view leaves something behind: an empty view. -/
theorem updatesAtomically_iff (library : Library) (peers : Peers) (envelope : Envelope) :
    UpdatesAtomically library peers envelope <->
      (envelope.messageType = .state -> (peers.lookup envelope.sourceId).isSome = true) := by
  unfold UpdatesAtomically deliver
  cases htype : envelope.messageType with
  | manifest =>
      constructor
      · intro _ hstate
        cases hstate
      · intro _ e hraised
        exact handleManifest_of_raised hraised
  | state =>
      dsimp only
      constructor
      · intro hatomic _
        by_contra hknown
        have hnew : peers.lookup envelope.sourceId = none :=
          Option.not_isSome_iff_eq_none.mp hknown
        obtain ⟨e, hraised⟩ := handleState_of_new library hnew
        have hsame := hatomic e hraised
        rw [handleState_of_raised hraised] at hsame
        exact setDefault_of_new hnew hsame
      · intro hknown e hraised
        rw [handleState_of_raised hraised]
        exact setDefault_of_known (hknown rfl)
  | _ =>
      constructor
      · intro _ hstate
        cases hstate
      · intro _ e hraised
        cases hraised

def strangerState : Envelope where
  messageId := "m"
  messageType := .state
  sourceId := "stranger"
  sessionId := "s"
  sequence := 1
  timestampMs := 0
  payload := .obj []
  correlationId := none
  stream := .operational

/-- The state of a stranger is refused, and the stranger is a peer from then on. -/
theorem stranger_left_in_registry :
    (deliver asciiLibrary [] strangerState).2 =
        .raised (.value "state received before manifest for this source session") ∧
      (deliver asciiLibrary [] strangerState).1.map Prod.fst = ["stranger"] ∧
      ¬ UpdatesAtomically asciiLibrary [] strangerState := by
  refine ⟨rfl, rfl, ?_⟩
  intro hatomic
  have hsame := hatomic _ rfl
  cases hsame

end Ump.Registry
