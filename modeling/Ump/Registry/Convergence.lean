import Ump.Foundation.Merging
import Ump.Registry.Replay

/-!
# The two streams of a session

## What an envelope changes

Within a session the registry puts the content of an envelope into the view of its source
and raises the floor of the envelope's stream.
-/

namespace Ump.Registry

open Foundation

/-- The content of an envelope: a manifest, or a state with the sender's time. -/
inductive Content where
  | manifest (manifest : Manifest)
  | state (state : RobotState) (timestampMs : Int)

def contentOf (library : Library) (envelope : Envelope) : Except Exn Content :=
  match envelope.messageType with
  | .manifest => do
      let manifest <- manifestOf library envelope
      .ok (.manifest manifest)
  | .state => do
      let state <- stateOf library envelope
      .ok (.state state envelope.timestampMs)
  | _ => .error (.value "no registry message")

namespace PeerView

/-- A state that is older than the one in the view is not kept. -/
def hold (view : PeerView) : Content -> PeerView
  | .manifest manifest => { view with manifest := some manifest }
  | .state state timestampMs =>
      if timestampMs < view.stateTimestampMs then view
      else { view with state := some state, stateTimestampMs := timestampMs }

def withFloors (view : PeerView) (floors : Stream -> Int) : PeerView :=
  { view with lastSequences := floors }

def receive (view : PeerView) (envelope : Envelope) (content : Content) : PeerView :=
  if envelope.sequence ≤ view.lastSequences envelope.stream then view
  else (view.hold content).withFloors (view.raiseFloor envelope)

@[simp] theorem hold_sessionId (view : PeerView) (content : Content) :
    (view.hold content).sessionId = view.sessionId := by
  cases content with
  | manifest manifest => rfl
  | state state timestampMs =>
      unfold hold
      dsimp only
      split_ifs <;> rfl

theorem hold_isSome {view : PeerView} (h : view.manifest.isSome = true) (content : Content) :
    (view.hold content).manifest.isSome = true := by
  cases content with
  | manifest manifest => rfl
  | state state timestampMs =>
      unfold hold
      dsimp only
      split_ifs
      · exact h
      · exact h

theorem receive_hasSession {view : PeerView} {sessionId : String}
    (h : view.hasSession sessionId = true) (envelope : Envelope) (content : Content) :
    (view.receive envelope content).hasSession sessionId = true := by
  rcases hasSession_eq_true.mp h with ⟨hsession, hmanifest⟩
  unfold receive
  split_ifs
  · exact h
  · apply hasSession_eq_true.mpr
    exact ⟨(hold_sessionId view content).trans hsession, hold_isSome hmanifest content⟩

end PeerView

theorem view_deliver {library : Library} {peers : Peers} {envelope : Envelope}
    {content : Content} (hcontent : contentOf library envelope = .ok content)
    (hsession : (peers.view envelope.sourceId).hasSession envelope.sessionId = true)
    (other : String) :
    (deliver library peers envelope).1.view other =
      if other = envelope.sourceId then (peers.view envelope.sourceId).receive envelope content
      else peers.view other := by
  unfold contentOf at hcontent
  unfold deliver
  cases htype : envelope.messageType with
  | manifest =>
      rw [htype] at hcontent
      rcases bind_eq_ok.mp hcontent with ⟨manifest, hmanifest, hsame⟩
      cases hsame
      dsimp only
      unfold handleManifest
      rw [hmanifest]
      dsimp only
      rw [view_put, view_setDefault]
      have hsame := (hasSession_eq_true.mp hsession).1
      unfold PeerView.takeManifest PeerView.receive
      dsimp only
      rw [enterSession_same hsame, ← hsame]
      split_ifs <;> rfl
  | state =>
      rw [htype] at hcontent
      rcases bind_eq_ok.mp hcontent with ⟨state, hstate, hsame⟩
      cases hsame
      dsimp only
      unfold handleState
      dsimp only
      rw [view_setDefault, hsession, if_neg (by decide), hstate]
      unfold PeerView.receive
      by_cases hfloor : envelope.sequence ≤
          (peers.view envelope.sourceId).lastSequences envelope.stream
      · rw [if_pos hfloor, if_pos hfloor, view_setDefault]
        split_ifs with hother
        · rw [hother]
        · rfl
      · rw [if_neg hfloor, if_neg hfloor, view_put]
        unfold PeerView.takeState PeerView.hold
        dsimp only
        split_ifs <;> rfl
  | _ =>
      rw [htype] at hcontent
      cases hcontent

/-!
## Two envelopes of different streams
-/

/-- The contents do not compete: a manifest and a state, or states of two times. -/
def Distinct : Content -> Content -> Prop
  | .manifest _, .manifest _ => False
  | .state _ first, .state _ second => first ≠ second
  | _, _ => True

theorem hold_comm (view : PeerView) {first second : Content} (h : Distinct first second) :
    (view.hold first).hold second = (view.hold second).hold first := by
  cases first with
  | manifest manifest =>
      cases second with
      | manifest other => exact h.elim
      | state state timestampMs =>
          unfold PeerView.hold
          dsimp only
          split_ifs <;> rfl
  | state state timestampMs =>
      cases second with
      | manifest manifest =>
          unfold PeerView.hold
          dsimp only
          split_ifs <;> rfl
      | state other otherMs =>
          have hne : timestampMs ≠ otherMs := h
          unfold PeerView.hold
          dsimp only
          split_ifs <;> first | rfl | (dsimp only at *; omega)

theorem hold_withFloors (view : PeerView) (floors : Stream -> Int) (content : Content) :
    (view.withFloors floors).hold content = (view.hold content).withFloors floors := by
  cases content with
  | manifest manifest => rfl
  | state state timestampMs =>
      unfold PeerView.hold PeerView.withFloors
      dsimp only
      split_ifs <;> rfl

namespace PeerView

theorem receive_ignored {view : PeerView} {envelope : Envelope} (content : Content)
    (h : envelope.sequence ≤ view.lastSequences envelope.stream) :
    view.receive envelope content = view :=
  if_pos h

theorem receive_taken {view : PeerView} {envelope : Envelope} (content : Content)
    (h : view.lastSequences envelope.stream < envelope.sequence) :
    view.receive envelope content =
      (view.hold content).withFloors (view.raiseFloor envelope) :=
  if_neg (not_le.mpr h)

theorem raiseFloor_other (view : PeerView) {envelope : Envelope} {stream : Stream}
    (h : stream ≠ envelope.stream) : view.raiseFloor envelope stream = view.lastSequences stream :=
  if_neg h

theorem receive_other (view : PeerView) {envelope : Envelope} (content : Content)
    {stream : Stream} (h : stream ≠ envelope.stream) :
    (view.receive envelope content).lastSequences stream = view.lastSequences stream := by
  by_cases hfloor : envelope.sequence ≤ view.lastSequences envelope.stream
  · rw [receive_ignored content hfloor]
  · rw [receive_taken content (not_le.mp hfloor)]
    exact raiseFloor_other view h

end PeerView

theorem raised_comm {view left right : PeerView} {first second : Envelope}
    (hstreams : first.stream ≠ second.stream)
    (hleft : left.lastSequences = view.raiseFloor first)
    (hright : right.lastSequences = view.raiseFloor second) :
    left.raiseFloor second = right.raiseFloor first := by
  funext stream
  unfold PeerView.raiseFloor
  rw [hleft, hright]
  unfold PeerView.raiseFloor
  split_ifs with hsecond hfirst
  · exact absurd (hfirst.symm.trans hsecond) hstreams
  · rfl
  · rfl
  · rfl

theorem receive_comm (view : PeerView) {first second : Envelope} {content other : Content}
    (hstreams : first.stream ≠ second.stream) (h : Distinct content other) :
    (view.receive first content).receive second other =
      (view.receive second other).receive first content := by
  have hfirst := view.receive_other other hstreams
  have hsecond := view.receive_other content hstreams.symm
  by_cases hfirstFloor : first.sequence ≤ view.lastSequences first.stream
  · rw [PeerView.receive_ignored content hfirstFloor,
      PeerView.receive_ignored content (by rw [hfirst]; exact hfirstFloor)]
  · by_cases hsecondFloor : second.sequence ≤ view.lastSequences second.stream
    · rw [PeerView.receive_ignored other hsecondFloor,
        PeerView.receive_ignored other (by rw [hsecond]; exact hsecondFloor)]
    · have hfirstTaken := PeerView.receive_taken content (not_le.mp hfirstFloor)
      have hsecondTaken := PeerView.receive_taken other (not_le.mp hsecondFloor)
      have hleft := @PeerView.receive_taken (view.receive first content) second other
        (by rw [hsecond]; exact not_le.mp hsecondFloor)
      have hright := @PeerView.receive_taken (view.receive second other) first content
        (by rw [hfirst]; exact not_le.mp hfirstFloor)
      have hfloors := @raised_comm view ((view.hold content).withFloors (view.raiseFloor first))
        ((view.hold other).withFloors (view.raiseFloor second)) first second hstreams rfl rfl
      rw [hleft, hright, hfirstTaken, hsecondTaken, hold_withFloors, hold_withFloors,
        hold_comm view h, hfloors]
      rfl

/-!
## The two lists of a session
-/

/-- An envelope of a session that the registry can read. -/
structure WellFormed (library : Library) (sourceId sessionId : String) (envelope : Envelope) :
    Prop where
  source : envelope.sourceId = sourceId
  session : envelope.sessionId = sessionId
  content : exists content, contentOf library envelope = .ok content

def IsState (envelope : Envelope) : Prop :=
  envelope.messageType = .state

/-- No two states of the list have one time. -/
def DistinctTimes (envelopes : List Envelope) : Prop :=
  envelopes.Pairwise (fun first second => IsState first -> IsState second ->
    first.timestampMs ≠ second.timestampMs)

def deliverAll (library : Library) (peers : Peers) (envelopes : List Envelope) : Peers :=
  envelopes.foldl (fun peers envelope => (deliver library peers envelope).1) peers

/-- The lists of one session: its operational envelopes, and the states of its safety
stream. -/
structure TwoStreams (library : Library) (sourceId sessionId : String)
    (operational safety : List Envelope) : Prop where
  onOperational : forall envelope, envelope ∈ operational ->
    WellFormed library sourceId sessionId envelope ∧ envelope.stream = .operational
  onSafety : forall envelope, envelope ∈ safety ->
    WellFormed library sourceId sessionId envelope ∧ envelope.stream = .safety ∧
      IsState envelope
  times : DistinctTimes (operational ++ safety)

def InOrder (floor : Int) (envelopes : List Envelope) : Prop :=
  (forall envelope, envelope ∈ envelopes -> floor < envelope.sequence) ∧
    envelopes.Pairwise (fun earlier later => earlier.sequence < later.sequence)

theorem content_state {library : Library} {envelope : Envelope} {content : Content}
    (hcontent : contentOf library envelope = .ok content) :
    (exists manifest, content = .manifest manifest ∧ ¬ IsState envelope) ∨
      exists state, content = .state state envelope.timestampMs ∧ IsState envelope ∧
        stateOf library envelope = .ok state := by
  unfold contentOf at hcontent
  unfold IsState
  cases htype : envelope.messageType with
  | manifest =>
      rw [htype] at hcontent
      rcases bind_eq_ok.mp hcontent with ⟨manifest, _, hsame⟩
      cases hsame
      exact Or.inl ⟨manifest, rfl, by decide⟩
  | state =>
      rw [htype] at hcontent
      rcases bind_eq_ok.mp hcontent with ⟨state, hstate, hsame⟩
      cases hsame
      exact Or.inr ⟨state, rfl, rfl, hstate⟩
  | _ =>
      rw [htype] at hcontent
      cases hcontent

/-- The step of a view: what the registry cannot read is left out. -/
def received (library : Library) (view : PeerView) (envelope : Envelope) : PeerView :=
  match contentOf library envelope with
  | .ok content => view.receive envelope content
  | .error _ => view

theorem received_eq {library : Library} {envelope : Envelope} {content : Content}
    (h : contentOf library envelope = .ok content) (view : PeerView) :
    received library view envelope = view.receive envelope content := by
  unfold received
  rw [h]

theorem received_hasSession {library : Library} {view : PeerView} {sessionId : String}
    (h : view.hasSession sessionId = true) (envelope : Envelope) :
    (received library view envelope).hasSession sessionId = true := by
  unfold received
  split
  · exact PeerView.receive_hasSession h envelope _
  · exact h

theorem view_deliverAll {library : Library} {peers : Peers} {sourceId sessionId : String}
    {envelopes : List Envelope}
    (hsession : (peers.view sourceId).hasSession sessionId = true)
    (hwell : forall envelope, envelope ∈ envelopes ->
      WellFormed library sourceId sessionId envelope) (other : String) :
    (deliverAll library peers envelopes).view other =
      if other = sourceId then envelopes.foldl (received library) (peers.view sourceId)
      else peers.view other := by
  induction envelopes generalizing peers with
  | nil =>
      show peers.view other = if other = sourceId then peers.view sourceId else peers.view other
      split_ifs with hother
      · rw [hother]
      · rfl
  | cons envelope rest ih =>
      rcases hwell envelope List.mem_cons_self with ⟨hsource, henvelope, content, hcontent⟩
      have hfirst := fun robotId => @view_deliver library peers envelope content hcontent
        (by rw [hsource, henvelope]; exact hsession) robotId
      rw [hsource, ← received_eq hcontent] at hfirst
      have hown : (deliver library peers envelope).1.view sourceId =
          received library (peers.view sourceId) envelope := by
        rw [hfirst, if_pos rfl]
      show (deliverAll library (deliver library peers envelope).1 rest).view other = _
      rw [ih (by rw [hown]; exact received_hasSession hsession envelope)
        (fun next hnext => hwell next (List.mem_cons_of_mem _ hnext)), hown, List.foldl_cons]
      split_ifs with hother
      · rfl
      · rw [hfirst, if_neg hother]

theorem received_comm {library : Library} {sourceId sessionId : String}
    {operational safety : List Envelope}
    (h : TwoStreams library sourceId sessionId operational safety) (view : PeerView)
    {first second : Envelope} (hfirst : first ∈ operational) (hsecond : second ∈ safety) :
    received library (received library view first) second =
      received library (received library view second) first := by
  rcases h.onOperational first hfirst with ⟨⟨_, _, content, hcontent⟩, hfirstStream⟩
  rcases h.onSafety second hsecond with ⟨⟨_, _, other, hother⟩, hsecondStream, hstate⟩
  have hstreams : first.stream ≠ second.stream := by
    rw [hfirstStream, hsecondStream]
    decide
  have hdistinct : Distinct content other := by
    rcases content_state hother with ⟨_, _, hnot⟩ | ⟨state, rfl, _⟩
    · exact absurd hstate hnot
    · rcases content_state hcontent with ⟨manifest, rfl, _⟩ | ⟨earlier, rfl, hearlier, _⟩
      · trivial
      · exact (List.pairwise_append.mp h.times).2.2 first hfirst second hsecond hearlier hstate
  rw [received_eq hcontent, received_eq hother, received_eq hother, received_eq hcontent]
  exact receive_comm view hstreams hdistinct

/-!
## The newest state
-/

/-- The view holds the newest of the states that were sent, or the state from before when
that one is newer than all of them. -/
def HoldsNewest (library : Library) (before : PeerView) (sent : List Envelope)
    (after : PeerView) : Prop :=
  (after.state = before.state ∧ after.stateTimestampMs = before.stateTimestampMs ∧
    forall other, other ∈ sent -> IsState other ->
      other.timestampMs < before.stateTimestampMs) ∨
  exists newest, newest ∈ sent ∧ IsState newest ∧
    (exists state, stateOf library newest = .ok state ∧ after.state = some state) ∧
    after.stateTimestampMs = newest.timestampMs ∧
    before.stateTimestampMs ≤ newest.timestampMs ∧
    forall other, other ∈ sent -> IsState other -> other.timestampMs ≤ newest.timestampMs

theorem HoldsNewest.passed {library : Library} {before between after : PeerView}
    {envelope : Envelope} {rest : List Envelope}
    (hstate : between.state = before.state)
    (htime : between.stateTimestampMs = before.stateTimestampMs)
    (hpassed : IsState envelope -> envelope.timestampMs < before.stateTimestampMs)
    (h : HoldsNewest library between rest after) :
    HoldsNewest library before (envelope :: rest) after := by
  unfold HoldsNewest at h
  rw [hstate, htime] at h
  rcases h with ⟨hkept, htimes, holder⟩ | ⟨newest, hmem, hnewest, hkept, htimes, hbefore, hmax⟩
  · left
    refine ⟨hkept, htimes, ?_⟩
    intro other hother
    rcases List.mem_cons.mp hother with rfl | hrest
    · exact hpassed
    · exact holder other hrest
  · right
    refine ⟨newest, List.mem_cons_of_mem _ hmem, hnewest, hkept, htimes, hbefore, ?_⟩
    intro other hother hothers
    rcases List.mem_cons.mp hother with rfl | hrest
    · exact le_trans (le_of_lt (hpassed hothers)) hbefore
    · exact hmax other hrest hothers

theorem HoldsNewest.held {library : Library} {before between after : PeerView}
    {envelope : Envelope} {state : RobotState} {rest : List Envelope}
    (henvelope : IsState envelope) (hread : stateOf library envelope = .ok state)
    (hstate : between.state = some state)
    (htime : between.stateTimestampMs = envelope.timestampMs)
    (hbefore : before.stateTimestampMs ≤ envelope.timestampMs)
    (h : HoldsNewest library between rest after) :
    HoldsNewest library before (envelope :: rest) after := by
  unfold HoldsNewest at h
  rw [hstate, htime] at h
  right
  rcases h with ⟨hkept, htimes, holder⟩ | ⟨newest, hmem, hnewest, hkept, htimes, hbelow, hmax⟩
  · refine ⟨envelope, List.mem_cons_self, henvelope, ⟨state, hread, hkept⟩, htimes, hbefore, ?_⟩
    intro other hother hothers
    rcases List.mem_cons.mp hother with rfl | hrest
    · exact le_refl _
    · exact le_of_lt (holder other hrest hothers)
  · refine ⟨newest, List.mem_cons_of_mem _ hmem, hnewest, hkept, htimes, le_trans hbefore hbelow,
      ?_⟩
    intro other hother hothers
    rcases List.mem_cons.mp hother with rfl | hrest
    · exact hbelow
    · exact hmax other hrest hothers

theorem HoldsNewest.step {library : Library} {view after : PeerView} {envelope : Envelope}
    {rest : List Envelope} (hread : exists content, contentOf library envelope = .ok content)
    (hfloor : view.lastSequences envelope.stream < envelope.sequence)
    (h : HoldsNewest library (received library view envelope) rest after) :
    HoldsNewest library view (envelope :: rest) after := by
  rcases hread with ⟨content, hcontent⟩
  rw [received_eq hcontent, PeerView.receive_taken content hfloor] at h
  rcases content_state hcontent with ⟨manifest, rfl, hnot⟩ | ⟨state, rfl, hstate, hstateOf⟩
  · exact HoldsNewest.passed rfl rfl (fun hstate => absurd hstate hnot) h
  · by_cases holder : envelope.timestampMs < view.stateTimestampMs
    · have hsame : view.hold (.state state envelope.timestampMs) = view := if_pos holder
      rw [hsame] at h
      exact HoldsNewest.passed rfl rfl (fun _ => holder) h
    · have hnew : view.hold (.state state envelope.timestampMs) =
          { view with state := some state, stateTimestampMs := envelope.timestampMs } :=
        if_neg holder
      rw [hnew] at h
      exact HoldsNewest.held hstate hstateOf rfl rfl (not_lt.mp holder) h

theorem InOrder.tail {floor : Int} {envelope : Envelope} {rest : List Envelope}
    (h : InOrder floor (envelope :: rest)) : InOrder envelope.sequence rest := by
  rcases h with ⟨_, hrising⟩
  exact ⟨(List.pairwise_cons.mp hrising).1, (List.pairwise_cons.mp hrising).2⟩

theorem received_floor {library : Library} {view : PeerView} {envelope : Envelope}
    (hread : exists content, contentOf library envelope = .ok content)
    (hfloor : view.lastSequences envelope.stream < envelope.sequence) :
    (received library view envelope).lastSequences envelope.stream = envelope.sequence := by
  rcases hread with ⟨content, hcontent⟩
  rw [received_eq hcontent, PeerView.receive_taken content hfloor]
  exact if_pos rfl

theorem received_otherFloor {library : Library} (view : PeerView) {envelope : Envelope}
    {stream : Stream} (h : stream ≠ envelope.stream) :
    (received library view envelope).lastSequences stream = view.lastSequences stream := by
  unfold received
  split
  · exact view.receive_other _ h
  · rfl

theorem holdsNewest_merge {library : Library} {operational safety merged : List Envelope}
    (hmerge : Merge operational safety merged) {view : PeerView}
    (hoperational : forall envelope, envelope ∈ operational ->
      (exists content, contentOf library envelope = .ok content) ∧
        envelope.stream = .operational)
    (hsafety : forall envelope, envelope ∈ safety ->
      (exists content, contentOf library envelope = .ok content) ∧ envelope.stream = .safety)
    (hfirst : InOrder (view.lastSequences .operational) operational)
    (hsecond : InOrder (view.lastSequences .safety) safety) :
    HoldsNewest library view merged (merged.foldl (received library) view) := by
  induction hmerge generalizing view with
  | nil => exact Or.inl ⟨rfl, rfl, fun _ h => by cases h⟩
  | left envelope _ ih =>
      rcases hoperational envelope List.mem_cons_self with ⟨hread, hstream⟩
      have hfloor : view.lastSequences envelope.stream < envelope.sequence := by
        rw [hstream]
        exact hfirst.1 envelope List.mem_cons_self
      apply HoldsNewest.step hread hfloor
      apply ih (fun next hnext => hoperational next (List.mem_cons_of_mem _ hnext)) hsafety
      · rw [← hstream, received_floor hread hfloor]
        exact hfirst.tail
      · rw [received_otherFloor view (by rw [hstream]; decide)]
        exact hsecond
  | right envelope _ ih =>
      rcases hsafety envelope List.mem_cons_self with ⟨hread, hstream⟩
      have hfloor : view.lastSequences envelope.stream < envelope.sequence := by
        rw [hstream]
        exact hsecond.1 envelope List.mem_cons_self
      apply HoldsNewest.step hread hfloor
      apply ih hoperational (fun next hnext => hsafety next (List.mem_cons_of_mem _ hnext))
      · rw [received_otherFloor view (by rw [hstream]; decide)]
        exact hfirst
      · rw [← hstream, received_floor hread hfloor]
        exact hsecond.tail

/-!
## Convergence
-/

theorem hasSession_of_accepted {library : Library} {peers : Peers} {envelope : Envelope}
    (h : (deliver library peers envelope).2 = .accepted) :
    ((deliver library peers envelope).1.view envelope.sourceId).hasSession envelope.sessionId =
      true := by
  rcases deliver_taken library peers envelope with ⟨view, htaken, hviews⟩
  rw [hviews, if_pos rfl]
  rw [h] at htaken
  cases htaken with
  | same _ hverdict => exact absurd rfl hverdict
  | manifest => exact hasSession_eq_true.mpr ⟨rfl, rfl⟩
  | state state _ _ hsession =>
      rcases hasSession_eq_true.mp hsession with ⟨hcurrent, hmanifest⟩
      apply hasSession_eq_true.mpr
      rw [takeState_sessionId, takeState_manifest]
      exact ⟨hcurrent, hmanifest⟩

/-- In a session whose manifest has been accepted, every merge of the operational envelopes
with the states of the safety stream leaves the same views; when the numbers of both lists
rise from the floors, the view of the source holds the newest state. -/
theorem two_streams_converge (library : Library) (peers : Peers) (sourceId sessionId : String)
    (operational safety first second : List Envelope)
    (hsession : (peers.view sourceId).hasSession sessionId = true)
    (hstreams : TwoStreams library sourceId sessionId operational safety)
    (hfirst : Merge operational safety first) (hsecond : Merge operational safety second) :
    (forall robotId, (deliverAll library peers first).view robotId =
      (deliverAll library peers second).view robotId) ∧
    (InOrder ((peers.view sourceId).lastSequences .operational) operational ->
      InOrder ((peers.view sourceId).lastSequences .safety) safety ->
      HoldsNewest library (peers.view sourceId) first
        ((deliverAll library peers first).view sourceId)) := by
  have hwell : forall merged, Merge operational safety merged ->
      forall envelope, envelope ∈ merged ->
        WellFormed library sourceId sessionId envelope := by
    intro merged hmerge envelope henvelope
    rcases hmerge.mem.mp henvelope with hmem | hmem
    · exact (hstreams.onOperational envelope hmem).1
    · exact (hstreams.onSafety envelope hmem).1
  constructor
  · intro robotId
    rw [view_deliverAll hsession (hwell first hfirst),
      view_deliverAll hsession (hwell second hsecond),
      @merges_agree _ _ (received library) (fun _ => True) operational safety first second hfirst
        hsecond (fun _ _ _ _ => trivial) (fun _ _ _ _ => trivial)
        (fun view _ x hx y hy => received_comm hstreams view hx hy) _ trivial]
  · intro hoperational hsafety
    rw [view_deliverAll hsession (hwell first hfirst), if_pos rfl]
    apply holdsNewest_merge hfirst
    · intro envelope henvelope
      rcases hstreams.onOperational envelope henvelope with ⟨hread, hstream⟩
      exact ⟨hread.content, hstream⟩
    · intro envelope henvelope
      rcases hstreams.onSafety envelope henvelope with ⟨hread, hstream, _⟩
      exact ⟨hread.content, hstream⟩
    · exact hoperational
    · exact hsafety

def roverPeers : Peers :=
  (deliver asciiLibrary [] (announced "s1" 1)).1

theorem rover_converges :
    (forall robotId,
      (deliverAll asciiLibrary roverPeers [observed "s1" 2 .operational, announced "s1" 4,
        observed "s1" 1 .safety, observed "s1" 3 .safety]).view robotId =
      (deliverAll asciiLibrary roverPeers [observed "s1" 1 .safety, observed "s1" 3 .safety,
        observed "s1" 2 .operational, announced "s1" 4]).view robotId) ∧
    HoldsNewest asciiLibrary (roverPeers.view "rover") [observed "s1" 2 .operational,
        announced "s1" 4, observed "s1" 1 .safety, observed "s1" 3 .safety]
      ((deliverAll asciiLibrary roverPeers [observed "s1" 2 .operational, announced "s1" 4,
        observed "s1" 1 .safety, observed "s1" 3 .safety]).view "rover") := by
  have hsession : (roverPeers.view "rover").hasSession "s1" = true :=
    @hasSession_of_accepted asciiLibrary [] (announced "s1" 1) rfl
  have hstate : forall sequence stream, WellFormed asciiLibrary "rover" "s1"
      (observed "s1" sequence stream) := fun _ _ => ⟨rfl, rfl, _, rfl⟩
  have hstreams : TwoStreams asciiLibrary "rover" "s1"
      [observed "s1" 2 .operational, announced "s1" 4]
      [observed "s1" 1 .safety, observed "s1" 3 .safety] := by
    constructor
    · simp only [List.forall_mem_cons, List.not_mem_nil, false_implies, implies_true, and_true]
      exact ⟨⟨hstate 2 _, rfl⟩, ⟨rfl, rfl, _, rfl⟩, rfl⟩
    · simp only [List.forall_mem_cons, List.not_mem_nil, false_implies, implies_true, and_true]
      exact ⟨⟨hstate 1 _, rfl, rfl⟩, hstate 3 _, rfl, rfl⟩
    · unfold DistinctTimes IsState
      decide
  rcases two_streams_converge asciiLibrary roverPeers "rover" "s1" _ _ _ _ hsession hstreams
    (.left _ (.left _ (.right _ (.right _ .nil)))) (.right _ (.right _ (.left _ (.left _ .nil))))
    with ⟨hsame, hnewest⟩
  refine ⟨hsame, hnewest ?_ ?_⟩
  · unfold InOrder
    decide
  · unfold InOrder
    decide

end Ump.Registry
