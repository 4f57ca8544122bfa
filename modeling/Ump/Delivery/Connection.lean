import Ump.Delivery.AcknowledgedDurable

/-!
# One connection, handled alone

## The handler and its errors

The steps are those of the interleaved hand-over, taken one after the other. What
each of them raises is kept, since the handler records only some of the exception
classes and lets the others end its thread.
-/

namespace Ump.Delivery

open Foundation

inductive Raised where
  | exn (e : Exn)
  | replay (text : String)
  | os
deriving DecidableEq, Repr

/-- `except (OSError, ssl.SSLError, NetworkProtocolError, ValueError)`. -/
def Raised.isCaught : Raised -> Bool
  | .exn (.value _) => true
  | .exn _ => false
  | .replay _ => true
  | .os => true

def maximumErrors : Nat := 1000

structure Receiver where
  inbox : Inbox
  floors : Floors
  errors : List Raised

def Receiver.recordError (receiver : Receiver) (error : Raised) : Receiver :=
  let errors := receiver.errors ++ [error]
  { receiver with errors := errors.drop (errors.length - maximumErrors) }

def replayText (envelope : Envelope) : String :=
  "replayed sequence " ++ toString envelope.sequence ++ " for " ++ envelope.sourceId ++
    " session " ++ envelope.sessionId ++ " stream " ++ envelope.stream.value

def Floors.accept (protector : ReplayProtector) (floors : Floors) (envelope : Envelope) :
    Except Raised Floors :=
  if envelope.sequence ≤ floors.floor (laneOf envelope) then
    .error (.replay (replayText envelope))
  else
    (floors.commit protector (laneOf envelope) envelope.sequence).mapError .exn

/-- The end of the hand-over: `activate`, then the acknowledgement, which is sent or
lost with the connection. -/
def Receiver.conclude (receiver : Receiver) (envelope : Envelope) (status : Acknowledgement)
    (sent : Bool) : Receiver × Except Raised Acknowledgement :=
  ({ receiver with inbox := receiver.inbox.activate envelope.messageId },
    if sent then .ok status else .error .os)

/-- The inner `try` block and what follows it. -/
def Receiver.acceptStaged (config : Config) (receiver : Receiver) (envelope : Envelope)
    (isNew sent : Bool) : Receiver × Except Raised Acknowledgement :=
  match receiver.floors.accept config.protector envelope with
  | .ok floors =>
      { receiver with floors := floors }.conclude envelope
        (if isNew then .received else .duplicate) sent
  | .error (.replay text) =>
      if isNew then
        ({ receiver with inbox := receiver.inbox.discardStaged envelope.messageId },
          .error (.replay text))
      else
        match receiver.inbox.containsExact config.sha256 envelope with
        | .error e => (receiver, .error (.exn e))
        | .ok true => receiver.conclude envelope .duplicate sent
        | .ok false => (receiver, .error (.replay text))
  | .error error => (receiver, .error error)

/-- The outer `try` block of `_handle_connection`. -/
def Receiver.handOver (config : Config) (receiver : Receiver) (peerId : String)
    (envelope : Envelope) (sent : Bool) : Receiver × Except Raised Acknowledgement :=
  match checkReceived peerId envelope with
  | .error e => (receiver, .error (.exn e))
  | .ok () =>
      match receiver.inbox.enqueue config.sha256 envelope false with
      | .error e => (receiver, .error (.exn e))
      | .ok (isNew, inbox) =>
          { receiver with inbox := inbox }.acceptStaged config envelope isNew sent

/-- The second part is the exception that ends the thread. -/
def Receiver.handleConnection (config : Config) (receiver : Receiver) (peerId : String)
    (envelope : Envelope) (sent : Bool) : Receiver × Option Raised :=
  match receiver.handOver config peerId envelope sent with
  | (after, .ok _) => (after, none)
  | (after, .error error) =>
      if error.isCaught then (after.recordError error, none) else (after, some error)

/-!
## Accepted or refused as a whole
-/

/-- The message is in the inbox and below its floor, or an error is recorded and the two
stores are as before. -/
def Traceless (config : Config) (before : Receiver) (envelope : Envelope)
    (result : Receiver × Option Raised) : Prop :=
  result.2 = none ∧
    ((Settled config result.1.inbox envelope ∧
        envelope.sequence ≤ result.1.floors.floor (laneOf envelope)) ∨
      exists error, result.1 = before.recordError error)

def FitsColumn (n : Int) : Prop := -(2 ^ 63) ≤ n ∧ n < 2 ^ 63

/-- A known message has the stored content, a new one a sequence of its own in its lane;
a sequence that is written fits the column. -/
def Compatible (config : Config) (receiver : Receiver) (envelope : Envelope) (body : Text) :
    Prop :=
  match receiver.inbox.row? envelope.messageId with
  | some row =>
      row.digest = config.sha256 body ∧
        (config.protector = .sqlite ->
          receiver.floors.floor (laneOf envelope) < envelope.sequence ->
            FitsColumn envelope.sequence)
  | none =>
      FitsColumn envelope.sequence ∧
        forall row, row ∈ receiver.inbox.rows -> row.lane = laneOf envelope ->
          row.sequence ≠ envelope.sequence

/-- `ReplayProtector` refuses to be built for no session at all. -/
def ReplayProtector.Constructed : ReplayProtector -> Prop
  | .sqlite => True
  | .memory maximumSessions => 1 ≤ maximumSessions

/-!
## What each outcome says
-/

/-- Only `ValueError` is raised. -/
def Refuses (x : Except Exn value) : Prop :=
  forall e, x = .error e -> exists text, e = .value text

theorem Refuses.ok (v : value) : Refuses (.ok v) := by
  intro e h
  cases h

theorem Refuses.refuseWhen (condition : Bool) (text : String) :
    Refuses (refuseWhen condition text) := by
  intro e h
  cases condition with
  | true =>
      cases h
      exact ⟨text, rfl⟩
  | false => cases h

theorem Refuses.bind {x : Except Exn value} {f : value -> Except Exn result}
    (hx : Refuses x) (hf : forall v, Refuses (f v)) : Refuses (x >>= f) := by
  intro e h
  cases x with
  | error raised =>
      cases h
      exact hx e rfl
  | ok v => exact hf v e h

theorem checkReceived_refuses (peerId : String) (envelope : Envelope) :
    Refuses (checkReceived peerId envelope) := by
  have hdecoded : Refuses envelope.checkDecoded :=
    (Refuses.refuseWhen _ _).bind fun _ => (Refuses.refuseWhen _ _).bind fun _ =>
      (Refuses.refuseWhen _ _).bind fun _ => (Refuses.refuseWhen _ _).bind fun _ =>
        (Refuses.refuseWhen _ _).bind fun _ => (Refuses.refuseWhen _ _).bind fun _ =>
          (Refuses.refuseWhen _ _).bind fun _ => by
            cases envelope.correlationId with
            | none => exact .ok ()
            | some correlationId => exact .refuseWhen _ _
  exact hdecoded.bind fun _ => .refuseWhen _ _

theorem encode_refuses (envelope : Envelope) : Refuses envelope.encode :=
  (Refuses.refuseWhen _ _).bind fun _ => (Refuses.refuseWhen _ _).bind fun _ => .ok _

theorem bindInteger_eq_ok {n : Int} : bindInteger n = .ok () <-> FitsColumn n := by
  unfold bindInteger FitsColumn
  by_cases h : -(2 ^ 63) ≤ n ∧ n < 2 ^ 63
  · rw [if_pos h]
    exact ⟨fun _ => h, fun _ => rfl⟩
  · rw [if_neg h]
    exact ⟨fun hfalse => (by cases hfalse), fun htrue => absurd htrue h⟩

theorem bindInteger_of_not_fitsColumn {n : Int} (h : ¬ FitsColumn n) :
    bindInteger n = .error .overflow := if_neg h

theorem Floors.floor_commit {protector : ReplayProtector} (hprotector : protector.Constructed)
    {floors after : Floors} {lane : Lane} {sequence : Int}
    (h : floors.commit protector lane sequence = .ok after) :
    after.floor lane = sequence := by
  cases protector with
  | sqlite =>
      rcases bind_eq_ok.mp h with ⟨_, _, h⟩
      cases h
      exact floor_raiseTo_self floors lane sequence
  | memory maximumSessions =>
      cases h
      -- the entry just written is the last one, and the oldest are dropped
      have hpositive : 1 ≤ maximumSessions := hprotector
      have hkept : (floors.raiseTo lane sequence).drop
          ((floors.raiseTo lane sequence).length - maximumSessions) =
          (floors.filter (fun entry => entry.1 != lane)).drop
            ((floors.raiseTo lane sequence).length - maximumSessions) ++ [(lane, sequence)] := by
        unfold raiseTo
        rw [List.drop_append_of_le_length]
        simp only [List.length_append, List.length_singleton]
        omega
      show (List.lookup lane (List.drop _ _)).getD 0 = sequence
      rw [hkept, List.lookup_append, List.lookup_eq_none_iff.mpr]
      · simp
      · intro entry hentry
        have hfiltered := List.mem_filter.mp (List.mem_of_mem_drop hentry)
        simpa [bne, BEq.comm] using hfiltered.2

/-!
## Inversion of the hand-over
-/

/-- What the hand-over of a message can do to a receiver, and what it says of the
message. -/
inductive Outcome (config : Config) (receiver : Receiver) (peerId : String)
    (envelope : Envelope) : Receiver × Except Raised Acknowledgement -> Prop where
  /-- The message is refused, or cannot be encoded again. -/
  | refused (text : String)
      (h : checkReceived peerId envelope = .ok () -> forall body, envelope.encode ≠ .ok body) :
      Outcome config receiver peerId envelope (receiver, .error (.exn (.value text)))
  /-- A statement fails with another class of exception. -/
  | failed (e : Exn) {body : Text} (hchecked : checkReceived peerId envelope = .ok ())
      (hbody : envelope.encode = .ok body)
      (hincompatible : ¬ Compatible config receiver envelope body)
      (he : (Raised.exn e).isCaught = false) :
      Outcome config receiver peerId envelope (receiver, .error (.exn e))
  /-- The sequence was replayed by a message that the inbox does not know. -/
  | replayed (text : String) {body : Text} (hbody : envelope.encode = .ok body)
      (hcompatible : Compatible config receiver envelope body) :
      Outcome config receiver peerId envelope (receiver, .error (.replay text))
  | concluded {inbox : Inbox} {floors : Floors} {row : InboxRow} {body : Text}
      (status : Acknowledgement) (sent : Bool) (hbody : envelope.encode = .ok body)
      (hcompatible : Compatible config receiver envelope body)
      (hbound : Bound config inbox envelope row)
      (hfloor : envelope.sequence ≤ floors.floor (laneOf envelope)) :
      Outcome config receiver peerId envelope
        (Receiver.conclude ⟨inbox, floors, receiver.errors⟩ envelope status sent)

theorem Floors.accept_of_le {protector : ReplayProtector} {floors : Floors}
    {envelope : Envelope} (h : envelope.sequence ≤ floors.floor (laneOf envelope)) :
    floors.accept protector envelope = .error (.replay (replayText envelope)) := if_pos h

theorem Floors.accept_of_commit {protector : ReplayProtector} {floors : Floors}
    {envelope : Envelope} (h : floors.floor (laneOf envelope) < envelope.sequence)
    {result : Except Exn Floors}
    (hcommit : floors.commit protector (laneOf envelope) envelope.sequence = result) :
    floors.accept protector envelope = result.mapError .exn := by
  unfold accept
  rw [if_neg (not_le.mpr h), hcommit]

theorem Floors.commit_cases (protector : ReplayProtector) (floors : Floors) (lane : Lane)
    (sequence : Int) :
    (exists after, floors.commit protector lane sequence = .ok after ∧
        (protector = .sqlite -> FitsColumn sequence)) ∨
      (floors.commit protector lane sequence = .error .overflow ∧ protector = .sqlite ∧
        ¬ FitsColumn sequence) := by
  cases protector with
  | memory maximumSessions => exact Or.inl ⟨_, rfl, fun h => (by cases h)⟩
  | sqlite =>
      by_cases hstorable : FitsColumn sequence
      · refine Or.inl ⟨floors.raiseTo lane sequence, ?_, fun _ => hstorable⟩
        unfold commit
        simp only [bindInteger_eq_ok.mpr hstorable, bind, Except.bind]
      · refine Or.inr ⟨?_, rfl, hstorable⟩
        unfold commit
        simp only [bindInteger_of_not_fitsColumn hstorable, bind, Except.bind]

theorem Inbox.discardStaged_of_staged {inbox staged : Inbox} {envelope : Envelope}
    {digest : String}
    (hnew : forall row, row ∈ inbox.rows -> row.messageId ≠ envelope.messageId)
    (hrows : staged.rows = inbox.rows ++ [newRow envelope digest .staged]) :
    staged.discardStaged envelope.messageId = inbox := by
  apply Table.eq_of_rows
  show staged.rows.filter _ = inbox.rows
  rw [hrows, List.filter_append]
  have hkept : inbox.rows.filter (fun row => !(row.messageId == envelope.messageId &&
      row.status == .staged)) = inbox.rows := by
    rw [List.filter_eq_self]
    intro row hrow
    simp [hnew row hrow]
  have hdropped : [newRow envelope digest .staged].filter (fun row =>
      !(row.messageId == envelope.messageId && row.status == .staged)) = [] := by
    simp [newRow]
  rw [hkept, hdropped, List.append_nil]

/-- The four ways in which a message that can be encoded is staged or not. -/
inductive Staging (config : Config) (inbox : Inbox) (envelope : Envelope) (body : Text) :
    Except Exn (Bool × Inbox) -> Prop where
  | conflict {row : InboxRow} (text : String)
      (hrow : inbox.row? envelope.messageId = some row)
      (hdigest : row.digest ≠ config.sha256 body) :
      Staging config inbox envelope body (.error (.runtime text))
  | known {row : InboxRow} (hrow : inbox.row? envelope.messageId = some row)
      (hdigest : row.digest = config.sha256 body) :
      Staging config inbox envelope body (.ok (false, inbox))
  | unstorable (e : Exn) (hnew : inbox.row? envelope.messageId = none)
      (he : (Raised.exn e).isCaught = false)
      (h : ¬ (FitsColumn envelope.sequence ∧ forall row, row ∈ inbox.rows ->
        row.lane = laneOf envelope -> row.sequence ≠ envelope.sequence)) :
      Staging config inbox envelope body (.error e)
  | staged {after : Inbox} (hnew : inbox.row? envelope.messageId = none)
      (hstorable : FitsColumn envelope.sequence)
      (hlane : forall row, row ∈ inbox.rows -> row.lane = laneOf envelope ->
        row.sequence ≠ envelope.sequence)
      (hrows : after.rows = inbox.rows ++ [Inbox.newRow envelope (config.sha256 body) .staged]) :
      Staging config inbox envelope body (.ok (true, after))

theorem enqueue_staging (config : Config) (inbox : Inbox) {envelope : Envelope} {body : Text}
    (hbody : envelope.encode = .ok body) :
    Staging config inbox envelope body (inbox.enqueue config.sha256 envelope false) := by
  unfold Inbox.enqueue
  rw [hbody]
  simp only [bind, Except.bind]
  cases hrow : inbox.row? envelope.messageId with
  | some row =>
      by_cases hdigest : row.digest = config.sha256 body
      · simp only [hdigest, ne_eq, not_true_eq_false, if_false]
        exact .known hrow hdigest
      · simp only [ne_eq, hdigest, not_false_eq_true, if_true]
        exact .conflict _ hrow hdigest
  | none =>
      by_cases hstorable : FitsColumn envelope.sequence
      · simp only [bindInteger_eq_ok.mpr hstorable, if_neg Bool.false_ne_true]
        cases hinsert : inbox.insert? (Inbox.newRow envelope (config.sha256 body) .staged) with
        | none =>
            refine .unstorable _ hrow rfl ?_
            rintro ⟨_, hlane⟩
            have hid := Inbox.row?_eq_none.mp hrow
            rcases Table.insert?_of_no_clash (fun row hmem =>
              Inbox.clash_newRow.mpr ⟨hid row hmem, hlane row hmem⟩) with ⟨after, hafter⟩
            rw [hinsert] at hafter
            cases hafter
        | some after =>
            rcases Table.insert?_eq_some hinsert with ⟨hrows, hclash⟩
            exact .staged hrow hstorable
              (fun row hmem => (Inbox.clash_newRow.mp (hclash row hmem)).2) hrows
      · simp only [bindInteger_of_not_fitsColumn hstorable]
        exact .unstorable _ hrow rfl (fun h => hstorable h.1)

theorem compatible_of_known {config : Config} {receiver : Receiver} {envelope : Envelope}
    {body : Text} {row : InboxRow} (hrow : receiver.inbox.row? envelope.messageId = some row) :
    Compatible config receiver envelope body <->
      row.digest = config.sha256 body ∧
        (config.protector = .sqlite ->
          receiver.floors.floor (laneOf envelope) < envelope.sequence ->
            FitsColumn envelope.sequence) := by
  unfold Compatible
  rw [hrow]

theorem compatible_of_new {config : Config} {receiver : Receiver} {envelope : Envelope}
    {body : Text} (hnew : receiver.inbox.row? envelope.messageId = none) :
    Compatible config receiver envelope body <->
      FitsColumn envelope.sequence ∧
        forall row, row ∈ receiver.inbox.rows -> row.lane = laneOf envelope ->
          row.sequence ≠ envelope.sequence := by
  unfold Compatible
  rw [hnew]

theorem handOver_outcome (config : Config) (hprotector : config.protector.Constructed)
    (receiver : Receiver) (peerId : String) (envelope : Envelope) (sent : Bool) :
    Outcome config receiver peerId envelope
      (receiver.handOver config peerId envelope sent) := by
  unfold Receiver.handOver
  simp only [Receiver.acceptStaged]
  cases hchecked : checkReceived peerId envelope with
  | error e =>
      rcases checkReceived_refuses peerId envelope e hchecked with ⟨text, rfl⟩
      exact .refused text (fun h => by rw [hchecked] at h; cases h)
  | ok _ =>
  cases hbody : envelope.encode with
  | error e =>
      rcases encode_refuses envelope e hbody with ⟨text, rfl⟩
      have hfails : receiver.inbox.enqueue config.sha256 envelope false =
          .error (.value text) := by
        unfold Inbox.enqueue
        rw [hbody]
        rfl
      simp only [hfails]
      exact .refused text (fun _ body h => by rw [hbody] at h; cases h)
  | ok body =>
  have hstaging := enqueue_staging config receiver.inbox hbody
  generalize hresult : receiver.inbox.enqueue config.sha256 envelope false = result at hstaging ⊢
  cases hstaging with
  | conflict text hrow hdigest =>
      exact .failed _ hchecked hbody
        (fun h => hdigest ((compatible_of_known hrow).mp h).1) rfl
  | unstorable e hnew he h =>
      exact .failed _ hchecked hbody (fun hc => h ((compatible_of_new hnew).mp hc)) he
  | known hrow hdigest =>
      rcases Inbox.row?_eq_some hrow with ⟨hmem, hid⟩
      have hbound : Bound config receiver.inbox envelope _ := ⟨hmem, hid, body, hbody, hdigest⟩
      by_cases hfloor : envelope.sequence ≤ receiver.floors.floor (laneOf envelope)
      · simp only [Floors.accept_of_le hfloor, if_neg Bool.false_ne_true,
          Inbox.containsExact_of_mem hbody hmem hid hdigest]
        have hcompatible : Compatible config receiver envelope body :=
          (compatible_of_known hrow).mpr ⟨hdigest, fun _ h => absurd hfloor (not_le.mpr h)⟩
        exact .concluded .duplicate sent hbody hcompatible hbound hfloor
      · have habove := not_le.mp hfloor
        rcases Floors.commit_cases config.protector receiver.floors (laneOf envelope)
          envelope.sequence with ⟨floors, hcommit, hstorable⟩ | ⟨hcommit, hsqlite, hstorable⟩
        · simp only [Floors.accept_of_commit habove hcommit, Except.mapError]
          exact .concluded _ sent hbody
            ((compatible_of_known hrow).mpr ⟨hdigest, fun h _ => hstorable h⟩) hbound
            (Floors.floor_commit hprotector hcommit).ge
        · simp only [Floors.accept_of_commit habove hcommit, Except.mapError]
          exact .failed _ hchecked hbody
            (fun h => hstorable (((compatible_of_known hrow).mp h).2 hsqlite habove)) rfl
  | @staged after hnew hstorable hlane hrows =>
      have hcompatible : Compatible config receiver envelope body :=
        (compatible_of_new hnew).mpr ⟨hstorable, hlane⟩
      have hmem : Inbox.newRow envelope (config.sha256 body) .staged ∈ after.rows := by
        rw [hrows]
        exact List.mem_append_right _ (List.mem_singleton.mpr rfl)
      by_cases hfloor : envelope.sequence ≤ receiver.floors.floor (laneOf envelope)
      · simp only [Floors.accept_of_le hfloor, if_true,
          Inbox.discardStaged_of_staged (Inbox.row?_eq_none.mp hnew) hrows]
        exact .replayed _ hbody hcompatible
      · have habove := not_le.mp hfloor
        rcases Floors.commit_cases config.protector receiver.floors (laneOf envelope)
          envelope.sequence with ⟨floors, hcommit, _⟩ | ⟨_, _, hnot⟩
        · simp only [Floors.accept_of_commit habove hcommit, Except.mapError]
          exact .concluded _ sent hbody hcompatible ⟨hmem, rfl, body, hbody, rfl⟩
            (Floors.floor_commit hprotector hcommit).ge
        · exact absurd hstorable hnot

/-- A connection leaves no trace of a message that it has not taken exactly when the message
is compatible with the two stores, or does not get as far as them. -/
theorem handleConnection_traceless_iff (config : Config)
    (hprotector : config.protector.Constructed) (receiver : Receiver) (peerId : String)
    (envelope : Envelope) (sent : Bool) :
    Traceless config receiver envelope
        (receiver.handleConnection config peerId envelope sent) <->
      (checkReceived peerId envelope = .ok () ->
        forall body, envelope.encode = .ok body -> Compatible config receiver envelope body) := by
  have houtcome := handOver_outcome config hprotector receiver peerId envelope sent
  unfold Receiver.handleConnection
  generalize receiver.handOver config peerId envelope sent = result at houtcome ⊢
  cases houtcome with
  | refused text h =>
      refine iff_of_true ⟨rfl, Or.inr ⟨_, rfl⟩⟩ ?_
      intro hchecked body hbody
      exact absurd hbody (h hchecked body)
  | failed e hchecked hbody hincompatible he =>
      simp only [he, if_neg Bool.false_ne_true]
      refine iff_of_false (fun h => (by cases h.1)) ?_
      intro h
      exact hincompatible (h hchecked _ hbody)
  | replayed text hbody hcompatible =>
      refine iff_of_true ⟨rfl, Or.inr ⟨_, rfl⟩⟩ ?_
      intro _ body hbody'
      rw [hbody] at hbody'
      cases hbody'
      exact hcompatible
  | concluded status sent hbody hcompatible hbound hfloor =>
      have hleft := And.intro (settled_activate hbound) hfloor
      refine iff_of_true ?_ ?_
      · cases sent with
        | true => exact ⟨rfl, Or.inl hleft⟩
        | false => exact ⟨rfl, Or.inl hleft⟩
      · intro _ body hbody'
        rw [hbody] at hbody'
        cases hbody'
        exact hcompatible

def newReceiver : Receiver where
  inbox := Table.empty
  floors := []
  errors := []

theorem first_heartbeat_traceless :
    heartbeatConfig.protector.Constructed ∧ Traceless heartbeatConfig newReceiver (heartbeat 1)
      (newReceiver.handleConnection heartbeatConfig "r1" (heartbeat 1) true) := by
  refine ⟨trivial, (handleConnection_traceless_iff heartbeatConfig trivial newReceiver "r1"
    (heartbeat 1) true).mpr ?_⟩
  intro _ body _
  refine (compatible_of_new rfl).mpr ⟨by unfold FitsColumn; decide, ?_⟩
  intro row hrow
  cases hrow

theorem Traceless.of_escaped {config : Config} {before : Receiver} {envelope : Envelope}
    {result : Receiver × Option Raised} {escaped : Raised} (h : result.2 = some escaped) :
    ¬ Traceless config before envelope result := by
  intro htraceless
  have hnone := htraceless.1
  rw [h] at hnone
  cases hnone

def heartbeatReceiver : Receiver :=
  (newReceiver.handleConnection heartbeatConfig "r1" (heartbeat 1) true).1

/-- A second message with the sequence of the heartbeat, and one with its id, each end the
thread with an exception that nobody records. -/
theorem reused_sequence_and_id_escape :
    (newReceiver.handleConnection heartbeatConfig "r1" (heartbeat 1) true).2 = none ∧
      forall envelope escaped,
        (envelope, escaped) ∈
          [({ heartbeat 1 with messageId := "n" }, Raised.exn .integrity),
            ({ heartbeat 1 with timestampMs := 1 },
              .exn (.runtime "inbox message ID is bound to different content"))] ->
        checkReceived "r1" envelope = .ok () ∧
          (heartbeatReceiver.handleConnection heartbeatConfig "r1" envelope true).2 =
            some escaped ∧
          ¬ Traceless heartbeatConfig heartbeatReceiver envelope
            (heartbeatReceiver.handleConnection heartbeatConfig "r1" envelope true) := by
  refine ⟨by decide +kernel, ?_⟩
  intro envelope escaped hmem
  have hrun : checkReceived "r1" envelope = .ok () ∧
      (heartbeatReceiver.handleConnection heartbeatConfig "r1" envelope true).2 =
        some escaped := by
    rcases List.mem_cons.mp hmem with hsequence | hmem
    · cases hsequence
      exact ⟨rfl, by decide +kernel⟩
    · cases List.mem_singleton.mp hmem
      exact ⟨rfl, by decide +kernel⟩
  exact ⟨hrun.1, hrun.2, Traceless.of_escaped hrun.2⟩

end Ump.Delivery
