import Ump.Delivery.Inbox
import Ump.Delivery.Outbox
import Ump.Inspector.History
import Ump.Protocol.WireEnvelope

/-!
# The numbers of an envelope in their columns

## Bindings

Four tables store the sequence of an envelope in an `INTEGER` column, and the inspector's
table its timestamp too. A number beyond 64 bits raises `OverflowError` where it is bound.
-/

namespace Ump

open Foundation

def NoOverflow (x : Except Exn value) : Prop :=
  x ≠ .error .overflow

namespace NoOverflow

theorem ok (v : value) : NoOverflow (.ok v) := by
  intro h
  cases h

theorem bind {x : Except Exn value} {f : value -> Except Exn result} (hx : NoOverflow x)
    (hf : forall v, x = .ok v -> NoOverflow (f v)) : NoOverflow (x >>= f) := by
  cases x with
  | ok v => exact hf v rfl
  | error e =>
      intro h
      apply hx
      cases h
      rfl

theorem refuse (condition : Bool) (text : String) : NoOverflow (refuseWhen condition text) := by
  cases condition <;> (intro h; cases h)

theorem of_eq_ok {x : Except Exn value} {v : value} (h : x = .ok v) : NoOverflow x := by
  rw [h]
  exact .ok v

theorem encode (envelope : Envelope) : NoOverflow envelope.encode := by
  apply bind
  · exact refuse _ _
  · intro _ _
    apply bind
    · exact refuse _ _
    · intro _ _
      exact .ok _

end NoOverflow

/-!
## The stores
-/

section

variable {envelope : Envelope}

theorem Delivery.Inbox.enqueue_noOverflow (h : bindInteger envelope.sequence = .ok ())
    (sha256 : Text -> String) (inbox : Delivery.Inbox) (ready : Bool) :
    NoOverflow (inbox.enqueue sha256 envelope ready) := by
  unfold enqueue
  apply NoOverflow.bind (.encode envelope)
  intro body _
  cases inbox.row? envelope.messageId with
  | some row =>
      dsimp only
      split_ifs
      · intro hraised
        cases hraised
      · exact .ok _
  | none =>
      apply NoOverflow.bind (.of_eq_ok h)
      intro _ _
      cases inbox.insert? (newRow envelope (sha256 body)
          (if ready then .received else .staged)) with
      | some added => exact .ok _
      | none =>
          intro hraised
          cases hraised

theorem Inspector.record_noOverflow (hsequence : bindInteger envelope.sequence = .ok ())
    (htimestamp : bindInteger envelope.timestampMs = .ok ()) (events : Table EventRow) :
    NoOverflow (record events envelope) := by
  unfold record newRow
  apply NoOverflow.bind
  · apply NoOverflow.bind (.encode envelope)
    intro _ _
    apply NoOverflow.bind (.of_eq_ok hsequence)
    intro _ _
    apply NoOverflow.bind (.of_eq_ok htimestamp)
    intro _ _
    exact .ok _
  · intro row _
    cases events.insert? row <;> exact .ok _

end

theorem Delivery.Floors.commit_noOverflow {sequence : Int} (h : bindInteger sequence = .ok ())
    (protector : Delivery.ReplayProtector) (floors : Delivery.Floors) (lane : Delivery.Lane) :
    NoOverflow (floors.commit protector lane sequence) := by
  cases protector with
  | sqlite =>
      apply NoOverflow.bind (.of_eq_ok h)
      intro _ _
      exact .ok _
  | memory maximumSessions => exact .ok _

namespace Delivery.Outbox

theorem encodeAll_noOverflow (deliveries : List (String × Envelope)) :
    NoOverflow (encodeAll deliveries) := by
  induction deliveries with
  | nil => exact .ok _
  | cons delivery rest ih =>
      apply NoOverflow.bind (.encode delivery.2)
      intro _ _
      apply NoOverflow.bind ih
      intro _ _
      exact .ok _

theorem collect_noOverflow (outbox : Outbox) (seen : List ((String × String) × Text))
    (newItems items : List Item) : NoOverflow (outbox.collect seen newItems items) := by
  induction items generalizing seen newItems with
  | nil => exact .ok _
  | cons item rest ih =>
      unfold collect
      apply NoOverflow.bind (.refuse _ _)
      intro _ _
      cases outbox.row? item.key with
      | some row =>
          apply NoOverflow.bind (.refuse _ _)
          intro _ _
          exact ih _ _
      | none => exact ih _ _

theorem insertAll_noOverflow {nowMs : Int} (hnow : bindInteger nowMs = .ok ())
    {items : List Item}
    (hitems : forall item, item ∈ items -> bindInteger item.envelope.sequence = .ok ())
    (outbox : Outbox) : NoOverflow (insertAll nowMs items outbox) := by
  induction items generalizing outbox with
  | nil => exact .ok _
  | cons item rest ih =>
      rw [List.forall_mem_cons] at hitems
      unfold insertAll insertOne
      apply NoOverflow.bind
      · apply NoOverflow.bind (.of_eq_ok hitems.1)
        intro _ _
        apply NoOverflow.bind (.of_eq_ok hnow)
        intro _ _
        cases outbox.insert? (newRow nowMs item) with
        | some added => exact .ok _
        | none =>
            intro hraised
            cases hraised
      · intro added _
        exact ih hitems.2 added

theorem checkPending_noOverflow (limits : Limits) (pending : Nat) (newItems : List Item) :
    NoOverflow (checkPending limits pending newItems) := by
  unfold checkPending
  split_ifs <;> (intro hraised; cases hraised)

theorem checkOperational_noOverflow (limits : Limits) (operationalPending : Nat)
    (newItems : List Item) :
    NoOverflow (checkOperational limits operationalPending newItems) := by
  unfold checkOperational
  split_ifs <;> (intro hraised; cases hraised)

theorem enqueueMany_noOverflow {deliveries : List (String × Envelope)} {nowMs : Int}
    (hnow : bindInteger nowMs = .ok ())
    (hdeliveries : forall delivery, delivery ∈ deliveries ->
      bindInteger delivery.2.sequence = .ok ()) (limits : Limits) (outbox : Outbox) :
    NoOverflow (outbox.enqueueMany limits deliveries nowMs) := by
  cases deliveries with
  | nil => exact .ok _
  | cons first rest =>
      apply NoOverflow.bind (encodeAll_noOverflow _)
      intro items hitems
      apply NoOverflow.bind (collect_noOverflow outbox [] [] items)
      intro newItems hnew
      have hcollected := collect_eq_ok hnew ⟨List.nodup_nil, fun _ hitem => by cases hitem⟩
      apply NoOverflow.bind (checkPending_noOverflow _ _ _)
      intro _ _
      apply NoOverflow.bind (checkOperational_noOverflow _ _ _)
      intro _ _
      apply insertAll_noOverflow hnow
      intro item hitem
      rcases hcollected.fresh item hitem with hnone | ⟨hitem, _⟩
      · cases hnone
      · have hdelivery : (item.peerId, item.envelope) ∈ first :: rest := by
          rw [← (encodeAll_eq_ok hitems).1]
          exact List.mem_map.mpr ⟨item, hitem, rfl⟩
        exact hdeliveries _ hdelivery

end Delivery.Outbox

/-!
## Accepted numbers
-/

/-- The two numbers fit their columns, and no store overflows on an envelope that carries
them. The time of an `enqueue_many` is not a number of the envelope. -/
structure FitsStores (sequence timestampMs : Int) : Prop where
  sequenceFits : bindInteger sequence = .ok ()
  timestampFits : bindInteger timestampMs = .ok ()
  inbox : forall envelope : Envelope, envelope.sequence = sequence ->
    forall sha256 (inbox : Delivery.Inbox) ready,
      NoOverflow (inbox.enqueue sha256 envelope ready)
  outbox : forall deliveries : List (String × Envelope),
    (forall delivery, delivery ∈ deliveries -> delivery.2.sequence = sequence) ->
    forall nowMs, bindInteger nowMs = .ok () -> forall limits (outbox : Delivery.Outbox),
      NoOverflow (outbox.enqueueMany limits deliveries nowMs)
  floors : forall protector (floors : Delivery.Floors) lane,
    NoOverflow (floors.commit protector lane sequence)
  inspector : forall envelope : Envelope, envelope.sequence = sequence ->
    envelope.timestampMs = timestampMs ->
    forall events, NoOverflow (Inspector.record events envelope)

theorem fitsStores_of_bound {sequence timestampMs : Int}
    (hsequence : bindInteger sequence = .ok ()) (htimestamp : bindInteger timestampMs = .ok ()) :
    FitsStores sequence timestampMs where
  sequenceFits := hsequence
  timestampFits := htimestamp
  inbox envelope henvelope :=
    Delivery.Inbox.enqueue_noOverflow (by rw [henvelope]; exact hsequence)
  outbox deliveries hdeliveries _ hnow :=
    Delivery.Outbox.enqueueMany_noOverflow hnow (fun delivery hdelivery => by
      rw [hdeliveries delivery hdelivery]
      exact hsequence)
  floors := Delivery.Floors.commit_noOverflow hsequence
  inspector envelope hfirst hsecond :=
    Inspector.record_noOverflow (by rw [hfirst]; exact hsequence)
      (by rw [hsecond]; exact htimestamp)

theorem bindInteger_iff {n : Int} (h : 0 ≤ n) : bindInteger n = .ok () <-> n < 2 ^ 63 := by
  unfold bindInteger
  split_ifs with hfits
  · exact ⟨fun _ => hfits.2, fun _ => rfl⟩
  · constructor
    · intro hok
      cases hok
    · intro hlow
      exact absurd ⟨by omega, hlow⟩ hfits

namespace Wire

/-- The two numbers of a document are below `2 ** 63`. -/
structure Bounded (document : Members) : Prop where
  sequence : forall n, member? document "sequence" = some (.int n) -> n < 2 ^ 63
  timestamp : forall n, member? document "timestamp_ms" = some (.int n) -> n < 2 ^ 63

theorem numbers_of_decoded {document : Members} {envelope : WireEnvelope}
    (h : decodeMembers document = .ok envelope) :
    (member? document "sequence" = some (.int envelope.sequence) ∧ 1 ≤ envelope.sequence) ∧
      (member? document "timestamp_ms" = some (.int envelope.timestampMs) ∧
        0 ≤ envelope.timestampMs) := by
  unfold decodeMembers at h
  rcases bind_eq_ok.mp h with ⟨⟨_, _⟩, _, h⟩
  rcases bind_eq_ok.mp h with ⟨_, _, h⟩
  rcases bind_eq_ok.mp h with ⟨_, _, h⟩
  rcases bind_eq_ok.mp h with ⟨_, _, h⟩
  rcases bind_eq_ok.mp h with ⟨⟨sequence, timestampMs, payload⟩, hcontent, h⟩
  rcases bind_eq_ok.mp h with ⟨_, _, h⟩
  rcases content_eq_ok.mp hcontent with ⟨hsequence, htimestamp, _⟩
  cases h
  exact ⟨hsequence, htimestamp⟩

theorem members_of_decoded {loads : List UInt8 -> Except LoadsError Codec.Value}
    {encoded : List UInt8} {document : Members} {envelope : WireEnvelope}
    (hloads : loads encoded = .ok (.obj document))
    (h : decodeEnvelope loads encoded = .ok envelope) :
    decodeMembers document = .ok envelope := by
  unfold decodeEnvelope at h
  rcases bind_eq_ok.mp h with ⟨_, _, h⟩
  rw [hloads] at h
  exact h

/-- The numbers of an accepted envelope fit all their columns exactly when the document has
them below `2 ** 63`. -/
theorem accepted_numbers_fit (loads : List UInt8 -> Except LoadsError Codec.Value)
    (encoded : List UInt8) (document : Members) (envelope : WireEnvelope)
    (hloads : loads encoded = .ok (.obj document))
    (h : decodeEnvelope loads encoded = .ok envelope) :
    FitsStores envelope.sequence envelope.timestampMs <-> Bounded document := by
  rcases numbers_of_decoded (members_of_decoded hloads h) with
    ⟨⟨hsequence, hpositive⟩, htimestamp, hnatural⟩
  have hfirst := @bindInteger_iff envelope.sequence (by omega)
  have hsecond := @bindInteger_iff envelope.timestampMs hnatural
  constructor
  · intro hfits
    constructor
    · intro n hn
      rw [hsequence] at hn
      cases hn
      exact hfirst.mp hfits.sequenceFits
    · intro n hn
      rw [htimestamp] at hn
      cases hn
      exact hsecond.mp hfits.timestampFits
  · intro hbounded
    exact fitsStores_of_bound (hfirst.mpr (hbounded.sequence _ hsequence))
      (hsecond.mpr (hbounded.timestamp _ htimestamp))

def numbered (sequence timestampMs : Int) : Sample where
  text := "\x7b\"protocol\":\"ump/0.1\",\"message_id\":\"m\",\"message_type\":\"state\"," ++
    "\"source_id\":\"r1\",\"session_id\":\"s\",\"sequence\":" ++ toString sequence ++
    ",\"timestamp_ms\":" ++ toString timestampMs ++ ",\"payload\":\x7b\x7d\x7d"
  document := [(points "protocol", .str (points protocolVersion)),
    (points "message_id", .str (points "m")), (points "message_type", .str (points "state")),
    (points "source_id", .str (points "r1")), (points "session_id", .str (points "s")),
    (points "sequence", .int sequence), (points "timestamp_ms", .int timestampMs),
    (points "payload", .obj [])]

def acceptedNumbers (s : Sample) : Option (Int × Int) :=
  match decodeEnvelope (knows s) (asciiBytes s.text) with
  | .ok envelope => some (envelope.sequence, envelope.timestampMs)
  | .error _ => none

theorem decoded_of_acceptedNumbers {s : Sample} {sequence timestampMs : Int}
    (h : acceptedNumbers s = some (sequence, timestampMs)) :
    exists envelope, decodeEnvelope (knows s) (asciiBytes s.text) = .ok envelope ∧
      envelope.sequence = sequence ∧ envelope.timestampMs = timestampMs := by
  unfold acceptedNumbers at h
  cases hdecoded : decodeEnvelope (knows s) (asciiBytes s.text) with
  | ok envelope =>
      rw [hdecoded] at h
      cases h
      exact ⟨envelope, rfl, rfl, rfl⟩
  | error e =>
      rw [hdecoded] at h
      cases h

theorem small_numbers_fit :
    exists envelope, decodeEnvelope (knows (numbered 7 1000)) (asciiBytes (numbered 7 1000).text) =
        .ok envelope ∧
      FitsStores envelope.sequence envelope.timestampMs := by
  have hnumbers : acceptedNumbers (numbered 7 1000) = some (7, 1000) := by decide +kernel
  rcases decoded_of_acceptedNumbers hnumbers with ⟨envelope, hdecoded, _, _⟩
  refine ⟨envelope, hdecoded, ?_⟩
  have hfit := accepted_numbers_fit (knows (numbered 7 1000)) (asciiBytes (numbered 7 1000).text)
    (numbered 7 1000).document envelope (if_pos rfl) hdecoded
  have hsequence : member? (numbered 7 1000).document "sequence" = some (.int 7) := by rfl
  have htimestamp : member? (numbered 7 1000).document "timestamp_ms" = some (.int 1000) := by
    rfl
  apply hfit.mpr
  constructor
  · intro n hn
    rw [hsequence] at hn
    cases hn
    decide
  · intro n hn
    rw [htimestamp] at hn
    cases hn
    decide

/-- The first sequence beyond the column. -/
theorem large_sequence_accepted :
    exists envelope, decodeEnvelope (knows (numbered (2 ^ 63) 0))
        (asciiBytes (numbered (2 ^ 63) 0).text) = .ok envelope ∧
      ¬ FitsStores envelope.sequence envelope.timestampMs := by
  have hnumbers : acceptedNumbers (numbered (2 ^ 63) 0) = some (2 ^ 63, 0) := by decide +kernel
  rcases decoded_of_acceptedNumbers hnumbers with ⟨envelope, hdecoded, hsequence, _⟩
  refine ⟨envelope, hdecoded, ?_⟩
  intro hfits
  have hbound := hfits.sequenceFits
  rw [hsequence] at hbound
  cases hbound

end Wire

end Ump
