import Mathlib.Tactic.Linarith
import Ump.Delivery.Inbox
import Ump.Foundation.Log
import Ump.Registry.Views

/-!
# What the registry accepts

## Histories

The history of a registry is the list of the envelopes that it has accepted, in order.
-/

namespace Ump.Registry

open Foundation
open Delivery (Lane laneOf)

structure History where
  peers : Peers
  accepted : List Envelope

def History.initial : History where
  peers := []
  accepted := []

def History.deliver (library : Library) (history : History) (envelope : Envelope) : History :=
  let result := Registry.deliver library history.peers envelope
  { peers := result.1
    accepted := if result.2 = .accepted then history.accepted ++ [envelope] else history.accepted }

def History.replay (library : Library) (envelopes : List Envelope) : History :=
  envelopes.foldl (History.deliver library) .initial

/-- The accepted numbers of each source, session and stream rise. -/
def NeverReplays (history : History) : Prop :=
  Rising laneOf (fun envelope => envelope.sequence) history.accepted

/-- A manifest that changes the session of its source brings a number above everything that
has been accepted from its session, and all of that was on its own stream. -/
def EntersAbove (library : Library) (history : History) (envelope : Envelope) : Prop :=
  envelope.messageType = .manifest ->
  (exists manifest, manifestOf library envelope = .ok manifest) ->
  (history.peers.view envelope.sourceId).sessionId ≠ some envelope.sessionId ->
  forall earlier, earlier ∈ history.accepted -> earlier.sourceId = envelope.sourceId ->
    earlier.sessionId = envelope.sessionId ->
    earlier.stream = envelope.stream ∧ earlier.sequence < envelope.sequence

/-- Every delivery of a list meets the condition where it is made. -/
def AllEnterAbove (library : Library) : History -> List Envelope -> Prop
  | _, [] => True
  | history, envelope :: rest => EntersAbove library history envelope ∧
      AllEnterAbove library (history.deliver library envelope) rest

/-!
## The floors and the history
-/

/-- What has been accepted from the current session of a robot is at or below its floors. -/
structure Floored (history : History) : Prop where
  rising : NeverReplays history
  floors : forall earlier, earlier ∈ history.accepted ->
    (history.peers.view earlier.sourceId).sessionId = some earlier.sessionId ->
    earlier.sequence ≤ (history.peers.view earlier.sourceId).lastSequences earlier.stream

theorem sequence_of_decoded {envelope : Envelope} (h : envelope.checkDecoded = .ok ()) :
    1 ≤ envelope.sequence := by
  rcases bind_eq_ok.mp h with ⟨_, _, h⟩
  rcases bind_eq_ok.mp h with ⟨_, _, h⟩
  rcases bind_eq_ok.mp h with ⟨_, _, h⟩
  rcases bind_eq_ok.mp h with ⟨_, _, h⟩
  rcases bind_eq_ok.mp h with ⟨_, hsequence, _⟩
  exact not_lt.mp (of_decide_eq_false (refuseWhen_eq_ok hsequence))

theorem lastSequences_other {view : PeerView} {sessionId : String}
    (h : view.sessionId ≠ some sessionId) (stream : Stream) :
    (view.enterSession sessionId).lastSequences stream = 0 := by
  unfold PeerView.enterSession
  rw [if_neg h]

theorem Floored.refused {history history' : History} (h : Floored history)
    (haccepted : history'.accepted = history.accepted)
    (hviews : forall other, (history'.peers.view other).sessionId =
        (history.peers.view other).sessionId ∧
      (history'.peers.view other).lastSequences = (history.peers.view other).lastSequences) :
    Floored history' where
  rising := by
    unfold NeverReplays
    rw [haccepted]
    exact h.rising
  floors earlier hearlier hsession := by
    rw [haccepted] at hearlier
    rcases hviews earlier.sourceId with ⟨hsessions, hfloors⟩
    rw [hsessions] at hsession
    rw [hfloors]
    exact h.floors earlier hearlier hsession

theorem Floored.accepted {history history' : History} {envelope : Envelope} (h : Floored history)
    (haccepted : history'.accepted = history.accepted ++ [envelope])
    (hothers : forall other, other ≠ envelope.sourceId ->
      history'.peers.view other = history.peers.view other)
    (hsession : (history'.peers.view envelope.sourceId).sessionId = some envelope.sessionId)
    (hfloor : (history'.peers.view envelope.sourceId).lastSequences envelope.stream =
      envelope.sequence)
    (hearlier : forall earlier, earlier ∈ history.accepted ->
      earlier.sourceId = envelope.sourceId -> earlier.sessionId = envelope.sessionId ->
      (earlier.stream = envelope.stream -> earlier.sequence < envelope.sequence) ∧
        (earlier.stream ≠ envelope.stream -> earlier.sequence ≤
          (history'.peers.view envelope.sourceId).lastSequences earlier.stream)) :
    Floored history' := by
  constructor
  · unfold NeverReplays
    rw [haccepted]
    apply rising_concat h.rising
    intro earlier hmem hlane
    have hparts := Delivery.Lane.mk.inj hlane
    exact (hearlier earlier hmem hparts.1 hparts.2.1).1 hparts.2.2
  · intro earlier hmem hcurrent
    rw [haccepted] at hmem
    rcases List.mem_append.mp hmem with hold | hnew
    · by_cases hsource : earlier.sourceId = envelope.sourceId
      · rw [hsource] at hcurrent ⊢
        rw [hsession] at hcurrent
        have hsame := hearlier earlier hold hsource (Option.some.inj hcurrent).symm
        by_cases hstream : earlier.stream = envelope.stream
        · rw [hstream, hfloor]
          exact le_of_lt (hsame.1 hstream)
        · exact hsame.2 hstream
      · rw [hothers _ hsource] at hcurrent ⊢
        exact h.floors earlier hold hcurrent
    · rw [List.mem_singleton.mp hnew, hfloor]

theorem Floored.raised {history history' : History} {envelope : Envelope} (h : Floored history)
    (haccepted : history'.accepted = history.accepted ++ [envelope])
    (hothers : forall other, other ≠ envelope.sourceId ->
      history'.peers.view other = history.peers.view other)
    (hcurrent : (history.peers.view envelope.sourceId).sessionId = some envelope.sessionId)
    (hsession : (history'.peers.view envelope.sourceId).sessionId = some envelope.sessionId)
    (hfloors : (history'.peers.view envelope.sourceId).lastSequences =
      (history.peers.view envelope.sourceId).raiseFloor envelope)
    (habove : (history.peers.view envelope.sourceId).lastSequences envelope.stream <
      envelope.sequence) : Floored history' := by
  apply h.accepted haccepted hothers hsession
  · rw [hfloors]
    exact if_pos rfl
  · intro earlier hearlier hsource hsame
    have hbelow := h.floors earlier hearlier (by rw [hsource, hcurrent, hsame])
    rw [hsource] at hbelow
    constructor
    · intro hstream
      rw [hstream] at hbelow
      exact lt_of_le_of_lt hbelow habove
    · intro hstream
      rw [hfloors]
      exact le_of_le_of_eq hbelow (if_neg hstream).symm

theorem floored_deliver (library : Library) {history : History} {envelope : Envelope}
    (h : Floored history) (hdecoded : envelope.checkDecoded = .ok ())
    (habove : EntersAbove library history envelope) :
    Floored (history.deliver library envelope) := by
  rcases deliver_taken library history.peers envelope with ⟨view, htaken, hviews⟩
  have hown : ((history.deliver library envelope).peers).view envelope.sourceId = view := by
    show (Registry.deliver library history.peers envelope).1.view envelope.sourceId = view
    rw [hviews, if_pos rfl]
  have hothers : forall other, other ≠ envelope.sourceId ->
      (history.deliver library envelope).peers.view other = history.peers.view other := by
    intro other hother
    show (Registry.deliver library history.peers envelope).1.view other = _
    rw [hviews, if_neg hother]
  have haccepted : (history.deliver library envelope).accepted =
      if (Registry.deliver library history.peers envelope).2 = .accepted then
        history.accepted ++ [envelope] else history.accepted := rfl
  generalize (Registry.deliver library history.peers envelope).2 = verdict at htaken haccepted
  cases htaken with
  | same _ hverdict =>
      rw [if_neg hverdict] at haccepted
      apply h.refused haccepted
      intro other
      by_cases hother : other = envelope.sourceId
      · rw [hother, hown]
        exact ⟨rfl, rfl⟩
      · rw [hothers other hother]
        exact ⟨rfl, rfl⟩
  | entered manifest hmanifest htype hfloor =>
      rw [if_neg (by decide)] at haccepted
      have hsame : (history.peers.view envelope.sourceId).sessionId = some envelope.sessionId := by
        by_contra hother
        rw [lastSequences_other hother] at hfloor
        have hpositive := sequence_of_decoded hdecoded
        omega
      rw [enterSession_same hsame] at hown
      apply h.refused haccepted
      intro other
      by_cases hother : other = envelope.sourceId
      · rw [hother, hown]
        exact ⟨rfl, rfl⟩
      · rw [hothers other hother]
        exact ⟨rfl, rfl⟩
  | manifest manifest hmanifest htype hfloor =>
      rw [if_pos rfl] at haccepted
      by_cases hsame : (history.peers.view envelope.sourceId).sessionId = some envelope.sessionId
      · rw [enterSession_same hsame] at hfloor hown
        exact h.raised haccepted hothers hsame (by rw [hown]) (by rw [hown]) hfloor
      · apply h.accepted haccepted hothers (by rw [hown])
        · rw [hown]
          exact if_pos rfl
        · intro earlier hearlier hsource hsession
          rcases habove htype ⟨manifest, hmanifest⟩ hsame earlier hearlier hsource hsession with
            ⟨hstream, hlower⟩
          exact ⟨fun _ => hlower, fun hother => absurd hstream hother⟩
  | state state hstate htype hsession hfloor =>
      rw [if_pos rfl] at haccepted
      have hcurrent := (hasSession_eq_true.mp hsession).1
      apply h.raised haccepted hothers hcurrent _ _ hfloor
      · rw [hown, takeState_sessionId]
        exact hcurrent
      · rw [hown, takeState_lastSequences]

theorem floored_run (library : Library) (envelopes : List Envelope) {history : History}
    (h : Floored history)
    (hdecoded : forall envelope, envelope ∈ envelopes -> envelope.checkDecoded = .ok ())
    (habove : AllEnterAbove library history envelopes) :
    Floored (envelopes.foldl (History.deliver library) history) := by
  induction envelopes generalizing history with
  | nil => exact h
  | cons envelope rest ih =>
      have hfirst := floored_deliver library h (hdecoded envelope List.mem_cons_self) habove.1
      exact ih hfirst (fun other hother => hdecoded other (List.mem_cons_of_mem _ hother)) habove.2

theorem floored_initial : Floored .initial where
  rising := List.Pairwise.nil
  floors _ hearlier := by cases hearlier

/-- In every sequence of decoded envelopes in which each manifest that changes a session
enters above what has been accepted from its session, the registry accepts no envelope
twice and none that is older than an accepted one of its lane. -/
theorem accepted_never_replayed (library : Library) (envelopes : List Envelope)
    (hdecoded : forall envelope, envelope ∈ envelopes -> envelope.checkDecoded = .ok ())
    (habove : AllEnterAbove library .initial envelopes) :
    NeverReplays (History.replay library envelopes) :=
  (floored_run library envelopes floored_initial hdecoded habove).rising

/-!
## Entries below the history

The condition on an entry cannot be left out: an entry that violates it is a replay itself, or
lets one through.
-/

/-- What has been accepted was decoded, and the states among it could be read. -/
def Readable (library : Library) (history : History) : Prop :=
  forall earlier, earlier ∈ history.accepted -> earlier.checkDecoded = .ok () ∧
    (earlier.messageType = .state -> exists state, stateOf library earlier = .ok state)

theorem readable_deliver {library : Library} {history : History} {envelope : Envelope}
    (h : Readable library history) (hdecoded : envelope.checkDecoded = .ok ()) :
    Readable library (history.deliver library envelope) := by
  rcases deliver_taken library history.peers envelope with ⟨view, htaken, _⟩
  intro earlier hearlier
  unfold History.deliver at hearlier
  dsimp only at hearlier
  split_ifs at hearlier with haccepted
  · rcases List.mem_append.mp hearlier with hold | hnew
    · exact h earlier hold
    · rw [List.mem_singleton.mp hnew]
      rw [haccepted] at htaken
      refine ⟨hdecoded, ?_⟩
      intro htype
      cases htaken with
      | same _ hverdict => exact absurd rfl hverdict
      | manifest manifest hmanifest hother =>
          rw [htype] at hother
          cases hother
      | state state hstate => exact ⟨state, hstate⟩
  · exact h earlier hearlier

theorem readable_replay {library : Library} {envelopes : List Envelope}
    (hdecoded : forall envelope, envelope ∈ envelopes -> envelope.checkDecoded = .ok ()) :
    Readable library (History.replay library envelopes) := by
  suffices hrun : forall history, Readable library history ->
      Readable library (envelopes.foldl (History.deliver library) history) by
    apply hrun
    intro earlier hearlier
    cases hearlier
  induction envelopes with
  | nil => exact fun _ h => h
  | cons envelope rest ih =>
      intro history h
      apply ih (fun other hother => hdecoded other (List.mem_cons_of_mem _ hother))
      exact readable_deliver h (hdecoded envelope List.mem_cons_self)

theorem stream_of_manifest {envelope : Envelope} (hdecoded : envelope.checkDecoded = .ok ())
    (htype : envelope.messageType ≠ .state) : envelope.stream = .operational := by
  rcases bind_eq_ok.mp hdecoded with ⟨_, hstream, _⟩
  have hnot := refuseWhen_eq_ok hstream
  rw [decide_eq_true htype, Bool.and_true, decide_eq_false_iff_not] at hnot
  cases hstreams : envelope.stream with
  | operational => rfl
  | safety => exact absurd hstreams hnot

theorem deliver_entering {library : Library} {peers : Peers} {envelope : Envelope}
    {manifest : Manifest} (hmanifest : manifestOf library envelope = .ok manifest)
    (htype : envelope.messageType = .manifest) (hstream : envelope.stream = .operational)
    (hpositive : 1 ≤ envelope.sequence)
    (hother : (peers.view envelope.sourceId).sessionId ≠ some envelope.sessionId) :
    (deliver library peers envelope).2 = .accepted ∧
      ((deliver library peers envelope).1.view envelope.sourceId).hasSession
        envelope.sessionId = true ∧
      ((deliver library peers envelope).1.view envelope.sourceId).lastSequences .safety = 0 := by
  have hfloor : ¬ envelope.sequence ≤
      ((peers.view envelope.sourceId).enterSession envelope.sessionId).lastSequences
        envelope.stream := by
    rw [lastSequences_other hother]
    omega
  unfold deliver
  rw [htype]
  dsimp only
  unfold handleManifest
  rw [hmanifest]
  dsimp only
  rw [view_setDefault, view_put, if_pos rfl]
  unfold PeerView.takeManifest
  dsimp only
  rw [if_neg hfloor]
  refine ⟨rfl, hasSession_eq_true.mpr ⟨rfl, rfl⟩, ?_⟩
  show (if Stream.safety = envelope.stream then envelope.sequence else
    ((peers.view envelope.sourceId).enterSession envelope.sessionId).lastSequences .safety) = 0
  rw [if_neg (by rw [hstream]; decide)]
  exact lastSequences_other hother .safety

theorem deliver_state {library : Library} {peers : Peers} {envelope : Envelope}
    {state : RobotState} (hstate : stateOf library envelope = .ok state)
    (htype : envelope.messageType = .state)
    (hsession : (peers.view envelope.sourceId).hasSession envelope.sessionId = true)
    (hfloor : (peers.view envelope.sourceId).lastSequences envelope.stream < envelope.sequence) :
    (deliver library peers envelope).2 = .accepted := by
  unfold deliver
  rw [htype]
  dsimp only
  unfold handleState
  dsimp only
  rw [view_setDefault, hsession, if_neg (by decide), if_neg (not_le.mpr hfloor), hstate]

/-- An entry that violates the condition is no rise of its lane, or the state that it has
not stood above is accepted once more after it. -/
theorem replay_of_entry {library : Library} {envelopes : List Envelope} {history : History}
    {envelope : Envelope} (hrun : History.replay library envelopes = history)
    (hrunDecoded : forall earlier, earlier ∈ envelopes -> earlier.checkDecoded = .ok ())
    (hdecoded : envelope.checkDecoded = .ok ()) (hbelow : ¬ EntersAbove library history envelope) :
    ¬ NeverReplays (history.deliver library envelope) ∨
      exists earlier, earlier ∈ history.accepted ∧
        ¬ NeverReplays ((history.deliver library envelope).deliver library earlier) := by
  unfold EntersAbove at hbelow
  push Not at hbelow
  rcases hbelow with
    ⟨htype, ⟨manifest, hmanifest⟩, hother, earlier, hearlier, hsource, hsession, hbelow⟩
  have hoperational := stream_of_manifest hdecoded (by rw [htype]; decide)
  rcases deliver_entering hmanifest htype hoperational (sequence_of_decoded hdecoded) hother
    with
    ⟨hverdict, hhas, hfloor⟩
  have haccepted : (history.deliver library envelope).accepted =
      history.accepted ++ [envelope] := if_pos hverdict
  by_cases hstream : earlier.stream = envelope.stream
  · left
    intro hrising
    unfold NeverReplays at hrising
    rw [haccepted] at hrising
    have hlower := (List.pairwise_append.mp hrising).2.2 earlier hearlier envelope
      List.mem_cons_self (by unfold laneOf; rw [hsource, hsession, hstream])
    exact absurd hlower (not_lt.mpr (hbelow hstream))
  · right
    refine ⟨earlier, hearlier, ?_⟩
    have hsafety : earlier.stream = .safety := by
      cases hstreams : earlier.stream with
      | operational => exact absurd (hstreams.trans hoperational.symm) hstream
      | safety => rfl
    have hreadable := @readable_replay library envelopes hrunDecoded
    rw [hrun] at hreadable
    rcases hreadable earlier hearlier with ⟨hearlierDecoded, hread⟩
    have hstate : earlier.messageType = .state := by
      by_contra hne
      rw [stream_of_manifest hearlierDecoded hne] at hsafety
      cases hsafety
    rcases hread hstate with ⟨state, hstateOf⟩
    rw [← hsource] at hhas hfloor
    rw [← hsession] at hhas
    have hagain : (history.deliver library envelope |>.deliver library earlier).accepted =
        (history.deliver library envelope).accepted ++ [earlier] :=
      if_pos (deliver_state hstateOf hstate hhas (by
        rw [hsafety, hfloor]
        have hpositive := sequence_of_decoded hearlierDecoded
        omega))
    intro hrising
    unfold NeverReplays at hrising
    rw [hagain, haccepted] at hrising
    have hlower := (List.pairwise_append.mp hrising).2.2 earlier
      (List.mem_append_left _ hearlier) earlier List.mem_cons_self rfl
    exact absurd hlower (lt_irrefl _)

/-!
## Two sessions
-/

/-- A library that reads ASCII texts as Python does, for runs without references and poses. -/
def asciiLibrary : Library where
  urlScheme _ := .ok ""
  normalized _ := true
  isDigit := isAsciiDigit

def roverManifest : Json :=
  .obj [("robot_id", .str "rover"), ("manufacturer", .str "maker"), ("model", .str "m1"),
    ("robot_class", .str "rover"), ("capabilities", .arr [])]

def roverState : Json :=
  .obj [("robot_id", .str "rover"), ("mode", .str "idle"), ("safety", .str "normal"),
    ("activity", .str "waiting"), ("intent", .str "none"), ("progress", .int 0),
    ("summary", .str "ready")]

def roverEnvelope (messageType : MessageType) (sessionId : String) (sequence : Int)
    (payload : Json) (stream : Stream) : Envelope where
  messageId := "m"
  messageType := messageType
  sourceId := "rover"
  sessionId := sessionId
  sequence := sequence
  timestampMs := sequence
  payload := payload
  correlationId := none
  stream := stream

def announced (sessionId : String) (sequence : Int) : Envelope :=
  roverEnvelope .manifest sessionId sequence roverManifest .operational

def observed (sessionId : String) (sequence : Int) (stream : Stream) : Envelope :=
  roverEnvelope .state sessionId sequence roverState stream

def restartedRover : List Envelope :=
  [announced "s1" 1, observed "s1" 2 .operational, observed "s1" 1 .safety,
    announced "s2" 1, observed "s2" 2 .operational, observed "s1" 3 .operational]

theorem entersAbove_of_all {library : Library} {history : History} {envelope : Envelope}
    (h : forall earlier, earlier ∈ history.accepted ->
      earlier.sessionId ≠ envelope.sessionId ∨
        (earlier.stream = envelope.stream ∧ earlier.sequence < envelope.sequence)) :
    EntersAbove library history envelope := by
  intro _ _ _ earlier hearlier _ hsession
  exact (h earlier hearlier).resolve_left (fun hne => hne hsession)

theorem entersAbove_state {library : Library} {history : History} {envelope : Envelope}
    (h : envelope.messageType = .state) : EntersAbove library history envelope := by
  intro htype
  rw [h] at htype
  cases htype

theorem restartedRover_never_replayed :
    AllEnterAbove asciiLibrary .initial restartedRover ∧
      (History.replay asciiLibrary restartedRover).accepted = restartedRover.take 5 ∧
      NeverReplays (History.replay asciiLibrary restartedRover) := by
  have habove : AllEnterAbove asciiLibrary .initial restartedRover :=
    ⟨entersAbove_of_all (fun _ h => by cases h), entersAbove_state rfl, entersAbove_state rfl,
      entersAbove_of_all (by decide), entersAbove_state rfl, entersAbove_state rfl,
      trivial⟩
  refine ⟨habove, rfl, accepted_never_replayed asciiLibrary restartedRover ?_ habove⟩
  intro envelope henvelope
  simp only [restartedRover, List.mem_cons, List.not_mem_nil, or_false] at henvelope
  rcases henvelope with rfl | rfl | rfl | rfl | rfl | rfl <;> rfl

/-- After a restart, the first manifest of the session before it is accepted once more. -/
theorem old_manifest_replayed :
    (forall envelope, envelope ∈ [announced "s1" 1, announced "s2" 1, announced "s1" 1] ->
      envelope.checkDecoded = .ok ()) ∧
    (History.replay asciiLibrary
      [announced "s1" 1, announced "s2" 1, announced "s1" 1]).accepted =
      [announced "s1" 1, announced "s2" 1, announced "s1" 1] ∧
    ¬ NeverReplays (History.replay asciiLibrary
      [announced "s1" 1, announced "s2" 1, announced "s1" 1]) := by
  refine ⟨?_, rfl, ?_⟩
  · intro envelope henvelope
    simp only [List.mem_cons, List.not_mem_nil, or_false] at henvelope
    rcases henvelope with rfl | rfl | rfl <;> rfl
  · intro hrising
    have hfirst := (List.pairwise_cons.mp hrising).1 (announced "s1" 1)
      (List.mem_cons_of_mem _ List.mem_cons_self) rfl
    exact absurd hfirst (by decide)

end Ump.Registry
