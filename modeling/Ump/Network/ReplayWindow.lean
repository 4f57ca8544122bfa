import Mathlib.Data.List.AList
import Ump.Delivery.Connection
import Ump.Foundation.Watermark

/-!
# Replay protection

## The call

The two protectors keep the last sequence of each session of a peer, one for each stream,
in a table of the database or in an ordered dictionary of bounded size.
-/

namespace Ump.Network

open Foundation
open Delivery (Raised FitsColumn bindInteger_eq_ok bindInteger_of_not_fitsColumn)

instance : Driver Raised where
  operational text := .exn (.runtime text)

structure SessionKey where
  peerId : String
  sessionId : String
  stream : String
deriving DecidableEq, Repr

structure Accept where
  peerId : String
  sessionId : String
  sequence : Int
  stream : String
deriving DecidableEq, Repr

namespace Accept

def key (call : Accept) : SessionKey where
  peerId := call.peerId
  sessionId := call.sessionId
  stream := call.stream

/-- The text of the `ReplayError`. -/
def refusal (call : Accept) : Raised :=
  .replay ("replayed sequence " ++ toString call.sequence ++ " for " ++ call.peerId ++
    " session " ++ call.sessionId ++ " stream " ++ call.stream)

def check (call : Accept) (previous : Option Int) : Except Raised Unit :=
  if call.sequence ≤ previous.getD 0 then .error call.refusal else .ok ()

theorem check_of_le {call : Accept} {previous : Option Int}
    (h : call.sequence ≤ previous.getD 0) : call.check previous = .error call.refusal :=
  if_pos h

theorem check_of_lt {call : Accept} {previous : Option Int}
    (h : previous.getD 0 < call.sequence) : call.check previous = .ok () :=
  if_neg (not_le.mpr h)

end Accept

/-!
## `SqliteReplayProtector`
-/

structure SessionRow where
  key : SessionKey
  lastSequence : Int
deriving DecidableEq, Repr

instance : Keyed SessionRow where
  clash a b := a.key == b.key
  clash_symm _ _ := BEq.comm

abbrev ReplaySessions := Table SessionRow

namespace ReplaySessions

def last? (sessions : ReplaySessions) (key : SessionKey) : Option Int :=
  (sessions.fetch (fun row => row.key == key)).map SessionRow.lastSequence

/-- The column that `ON CONFLICT(peer_id, session_id, stream) DO UPDATE SET` takes from the
new row. -/
def raisedTo (sequence : Int) (row : SessionRow) : SessionRow :=
  { row with lastSequence := sequence }

theorem keepsKeys_raisedTo (sequence : Int) : Table.KeepsKeys (raisedTo sequence) :=
  fun _ _ => rfl

def upsert (sessions : ReplaySessions) (key : SessionKey) (sequence : Int) : ReplaySessions :=
  match sessions.insert? ⟨key, sequence⟩ with
  | some sessions => sessions
  | none =>
      sessions.update (fun row => row.key == key) (raisedTo sequence)
        (keepsKeys_raisedTo sequence)

/-- The `INSERT` with its bound sequence. -/
def put (sessions : ReplaySessions) (call : Accept) : Except Raised ReplaySessions := do
  (bindInteger call.sequence).mapError .exn
  .ok (sessions.upsert call.key call.sequence)

def accept (sessions : ReplaySessions) (call : Accept) : Except Raised ReplaySessions := do
  call.check (sessions.last? call.key)
  sessions.put call

theorem last?_upsert (sessions : ReplaySessions) (key : SessionKey) (sequence : Int)
    (other : SessionKey) :
    (sessions.upsert key sequence).last? other =
      if key = other then some sequence else sessions.last? other := by
  unfold upsert last?
  cases hinsert : sessions.insert? ⟨key, sequence⟩ with
  | some after =>
      -- no row has the key
      rw [Table.fetch_insert hinsert]
      by_cases hkey : key = other
      · subst hkey
        have hnone : sessions.fetch (fun row => row.key == key) = none :=
          Table.fetch_eq_none.mpr (Table.insert?_eq_some hinsert).2
        rw [hnone, if_pos rfl]
        simp
      · rw [if_neg hkey]
        simp [hkey]
  | none =>
      have hupdate : (sessions.update (fun row => row.key == key) (raisedTo sequence)
          (keepsKeys_raisedTo sequence)).fetch (fun row => row.key == other) = _ :=
        Table.fetch_update (fun _ => rfl)
      rw [hupdate]
      by_cases hkey : key = other
      · subst hkey
        rw [if_pos rfl]
        cases hfetch : sessions.fetch (fun row => row.key == key) with
        | none =>
            obtain ⟨after, hafter⟩ := Table.insert?_of_no_clash (t := sessions)
              (r := SessionRow.mk key sequence) (Table.fetch_eq_none.mp hfetch)
            rw [hinsert] at hafter
            cases hafter
        | some row =>
            have hrow : (row.key == key) = true := (Table.fetch_eq_some hfetch).2
            simp only [Option.map_some, if_pos hrow, raisedTo]
      · rw [if_neg hkey, Option.map_map]
        apply Option.map_congr
        intro row hfetch
        have hrow : row.key = other := by simpa using (Table.fetch_eq_some hfetch).2
        have hne : ¬ (row.key == key) = true := by
          rw [hrow]
          simpa using fun h => hkey h.symm
        simp only [Function.comp_apply, if_neg hne]

end ReplaySessions

namespace SqliteReplayProtector

/-- `accept` as its statements on the connection. -/
def accept (call : Accept) : Sql Raised ReplaySessions Unit :=
  Sql.transaction (do
    let previous <- Sql.select (fun sessions => sessions.last? call.key)
    Sql.compute (call.check previous)
    Sql.execute (fun sessions => (sessions.put call).map (fun sessions => ((), sessions)))
    Sql.commit
    pure ())

theorem accept_refines (call : Accept) (sessions : ReplaySessions) :
    Refines (accept call) sessions
      ((sessions.accept call).map (fun sessions => ((), sessions))) := by
  unfold accept ReplaySessions.accept
  apply Commits.transaction
  apply Commits.bind (Yields.select _ sessions)
  rw [map_bind]
  apply Commits.compute
  intro _
  have hput : Yields (Sql.execute (fun sessions : ReplaySessions =>
      (sessions.put call).map (fun sessions => ((), sessions)))) sessions
        ((sessions.put call).map (fun sessions => ((), sessions))) := Yields.execute rfl
  cases hresult : sessions.put call with
  | error e =>
      rw [hresult] at hput
      exact Commits.bind_error hput
  | ok after =>
      rw [hresult] at hput
      exact Commits.bind hput (Commits.commit () after)

end SqliteReplayProtector

/-!
## `ReplayProtector`
-/

/-- The sessions stand with the one accepted last first. -/
structure ReplayProtector where
  maximumSessions : Nat
  positive : 1 ≤ maximumSessions
  sequences : AList (fun _ : SessionKey => Int)

namespace ReplayProtector

def new (maximumSessions : Nat) (positive : 1 ≤ maximumSessions) : ReplayProtector where
  maximumSessions := maximumSessions
  positive := positive
  sequences := ∅

/-- `popitem(last=False)` until no more than the maximum are left. -/
def evict (sequences : AList (fun _ : SessionKey => Int)) (maximumSessions : Nat) :
    AList (fun _ : SessionKey => Int) where
  entries := sequences.entries.take maximumSessions
  nodupKeys := sequences.nodupKeys.sublist (List.take_sublist maximumSessions _)

def accept (protector : ReplayProtector) (call : Accept) : Except Raised ReplayProtector := do
  call.check (protector.sequences.lookup call.key)
  .ok
    { protector with
      sequences :=
        evict (protector.sequences.insert call.key call.sequence) protector.maximumSessions }

end ReplayProtector

/-!
## Histories

A call may be the first one after a restart. A process that ends inside a call leaves the
database as it was before the call or after it.
-/

structure Request where
  call : Accept
  restarted : Bool
deriving DecidableEq, Repr

namespace Request

def key (request : Request) : SessionKey :=
  request.call.key

def sequence (request : Request) : Int :=
  request.call.sequence

end Request

def sqliteProtector :
    Responder (Session ReplaySessions) Request (Except Raised Unit) :=
  fun session request =>
    respond SqliteReplayProtector.accept
      (if request.restarted then .idle session.committed else session) request.call

/-- The window of one process, which does not restart. -/
def windowProtector : Responder ReplayProtector Request (Except Raised Unit) :=
  fun protector request =>
    match protector.accept request.call with
    | .ok protector => (.ok (), protector)
    | .error e => (.error e, protector)

/-- Both protectors are exact on a history and answer it alike; the window is asked about no
more sessions than it holds. -/
def ReplayExact (requests : List Request) (protector : ReplayProtector) : Prop :=
  sqliteProtector.Exact Request.key Request.sequence (.idle .empty) requests ∧
    ((requests.map Request.key).dedup.length ≤ protector.maximumSessions ->
      windowProtector.Exact Request.key Request.sequence protector requests ∧
        sqliteProtector.answers (.idle .empty) requests =
          windowProtector.answers protector requests)

/-!
## The marks of the table
-/

def Fits (request : Request) : Prop :=
  request.sequence < 2 ^ 63

def Idle (session : Session ReplaySessions) : Prop :=
  session.working = none

def tableMark (session : Session ReplaySessions) (key : SessionKey) : Int :=
  (session.committed.last? key).getD 0

theorem reopened {session : Session ReplaySessions} (h : Idle session) (restarted : Bool) :
    (if restarted then Session.idle session.committed else session) =
      .idle session.committed := by
  cases session
  cases h
  cases restarted <;> rfl

theorem fitsColumn_of_above {sequence mark : Int} (hmark : 0 ≤ mark) (habove : mark < sequence)
    (hfits : sequence < 2 ^ 63) : FitsColumn sequence := by
  constructor
  · have hbound : -(2 ^ 63 : Int) ≤ 0 := by decide
    omega
  · exact hfits

theorem ReplaySessions.put_of_fits {call : Accept} (sessions : ReplaySessions)
    (h : FitsColumn call.sequence) :
    sessions.put call = .ok (sessions.upsert call.key call.sequence) := by
  unfold put
  rw [bindInteger_eq_ok.mpr h]
  rfl

theorem ReplaySessions.put_of_not_fits {call : Accept} (sessions : ReplaySessions)
    (h : ¬ FitsColumn call.sequence) : sessions.put call = .error (.exn .overflow) := by
  unfold put
  rw [bindInteger_of_not_fitsColumn h]
  rfl

theorem sqliteProtector_of_accept {session : Session ReplaySessions} (h : Idle session)
    (request : Request) :
    sqliteProtector session request =
      match session.committed.accept request.call with
      | .ok sessions => (.ok (), .idle sessions)
      | .error e => (.error e, session) := by
  have hrefines := SqliteReplayProtector.accept_refines request.call session.committed
  have hsession : session = .idle session.committed := (reopened h false).symm.trans rfl |>.symm
  unfold sqliteProtector
  rw [reopened h]
  cases haccept : session.committed.accept request.call with
  | ok sessions =>
      rw [haccept] at hrefines
      exact respond_of_ok hrefines
  | error e =>
      rw [haccept] at hrefines
      rw [respond_of_error hrefines]
      exact congrArg _ hsession.symm

def Marked (session : Session ReplaySessions) : Prop :=
  Idle session ∧ forall key, 0 ≤ tableMark session key

theorem sqliteProtector_marks :
    Marks Request.key Request.sequence sqliteProtector tableMark Marked Fits
      (fun request => request.call.refusal) where
  admits := by
    intro session request hmarked hfits habove
    have hcolumn := fitsColumn_of_above (hmarked.2 request.key) habove hfits
    have haccept : session.committed.accept request.call =
        .ok (session.committed.upsert request.key request.sequence) := by
      have hcheck : request.call.check (session.committed.last? request.call.key) = .ok () :=
        Accept.check_of_lt habove
      unfold ReplaySessions.accept
      rw [hcheck]
      exact ReplaySessions.put_of_fits _ hcolumn
    have hmark : forall key,
        tableMark (.idle (session.committed.upsert request.key request.sequence)) key =
          if request.key = key then request.sequence else tableMark session key := by
      intro key
      show ((session.committed.upsert request.key request.sequence).last? key).getD 0 = _
      rw [ReplaySessions.last?_upsert]
      by_cases hkey : request.key = key
      · rw [if_pos hkey, if_pos hkey]
        rfl
      · rw [if_neg hkey, if_neg hkey]
        rfl
    rw [sqliteProtector_of_accept hmarked.1, haccept]
    refine ⟨rfl, ⟨rfl, ?_⟩, hmark⟩
    intro key
    rw [hmark]
    by_cases hkey : request.key = key
    · rw [if_pos hkey]
      exact Int.le_of_lt (Int.lt_of_le_of_lt (hmarked.2 request.key) habove)
    · rw [if_neg hkey]
      exact hmarked.2 key
  refuses := by
    intro session request hmarked _ hbelow
    have haccept : session.committed.accept request.call = .error request.call.refusal := by
      have hcheck : request.call.check (session.committed.last? request.call.key) =
          .error request.call.refusal := Accept.check_of_le hbelow
      unfold ReplaySessions.accept
      rw [hcheck]
      rfl
    rw [sqliteProtector_of_accept hmarked.1, haccept]

/-!
## The marks of the window
-/

def windowMark (protector : ReplayProtector) (key : SessionKey) : Int :=
  (protector.sequences.lookup key).getD 0

/-- The sessions of the window are among `keys`, which it has room for. -/
structure Roomy (keys : List SessionKey) (protector : ReplayProtector) : Prop where
  sessions : forall key, key ∈ protector.sequences.keys -> key ∈ keys
  room : keys.dedup.length ≤ protector.maximumSessions

theorem Roomy.evict_insert {keys : List SessionKey} {protector : ReplayProtector}
    (h : Roomy keys protector) {key : SessionKey} (hkey : key ∈ keys) (sequence : Int) :
    ReplayProtector.evict (protector.sequences.insert key sequence) protector.maximumSessions =
      protector.sequences.insert key sequence := by
  have hsubset : (protector.sequences.insert key sequence).keys ⊆ keys.dedup := by
    intro other hother
    rw [List.mem_dedup]
    rcases (AList.mem_insert protector.sequences).mp (AList.mem_keys.mpr hother) with rfl | hold
    · exact hkey
    · exact h.sessions other (AList.mem_keys.mp hold)
  have hlength : (protector.sequences.insert key sequence).keys.length ≤ keys.dedup.length :=
    ((AList.keys_nodup _).subperm hsubset).length_le
  have hentries : (protector.sequences.insert key sequence).entries.length ≤
      protector.maximumSessions := by
    have hroom := h.room
    have hkeys : (protector.sequences.insert key sequence).keys.length =
        (protector.sequences.insert key sequence).entries.length := List.length_map _
    omega
  apply AList.ext
  exact List.take_of_length_le hentries

theorem windowProtector_marks (keys : List SessionKey) :
    Marks Request.key Request.sequence windowProtector windowMark (Roomy keys)
      (fun request => request.key ∈ keys) (fun request => request.call.refusal) where
  admits := by
    intro protector request hroomy hkey habove
    have haccept : protector.accept request.call =
        .ok { protector with
          sequences := protector.sequences.insert request.key request.sequence } := by
      have hcheck : request.call.check (protector.sequences.lookup request.call.key) = .ok () :=
        Accept.check_of_lt habove
      unfold ReplayProtector.accept
      rw [hcheck, ← hroomy.evict_insert hkey request.sequence]
      rfl
    unfold windowProtector
    rw [haccept]
    refine ⟨rfl, ⟨?_, hroomy.room⟩, ?_⟩
    · intro key hmem
      rcases (AList.mem_insert protector.sequences).mp (AList.mem_keys.mpr hmem) with rfl | hold
      · exact hkey
      · exact hroomy.sessions key (AList.mem_keys.mp hold)
    · intro key
      show ((protector.sequences.insert request.key request.sequence).lookup key).getD 0 = _
      by_cases hsame : request.key = key
      · subst hsame
        rw [if_pos rfl, AList.lookup_insert]
        rfl
      · rw [if_neg hsame, AList.lookup_insert_ne (fun h => hsame h.symm)]
        rfl
  refuses := by
    intro protector request _ _ hbelow
    have hcheck : request.call.check (protector.sequences.lookup request.call.key) =
        .error request.call.refusal := Accept.check_of_le hbelow
    unfold windowProtector ReplayProtector.accept
    rw [hcheck]
    rfl

/-!
## Exactness
-/

theorem initial_marked : Marked (.idle .empty) :=
  ⟨rfl, fun _ => Int.le_refl 0⟩

theorem new_roomy {keys : List SessionKey} {maximumSessions : Nat}
    {positive : 1 ≤ maximumSessions} (h : keys.dedup.length ≤ maximumSessions) :
    Roomy keys (.new maximumSessions positive) where
  sessions := by
    intro key hkey
    cases hkey
  room := h

theorem fits_of_admitted {session : Session ReplaySessions} (hidle : Idle session)
    {requests : List Request} {key : SessionKey} {n : Int}
    (h : n ∈ sqliteProtector.admitted Request.key Request.sequence key session requests) :
    n < 2 ^ 63 := by
  induction requests generalizing session with
  | nil => cases h
  | cons request rest ih =>
      have hstep := sqliteProtector_of_accept hidle request
      cases haccept : session.committed.accept request.call with
      | error e =>
          rw [haccept] at hstep
          rw [Responder.admitted_of_error hstep] at h
          exact ih hidle h
      | ok sessions =>
          rw [haccept] at hstep
          have hnext : Idle (sqliteProtector session request).2 := by
            rw [hstep]
            rfl
          have hfits : request.sequence < 2 ^ 63 := by
            by_contra hlarge
            have hcolumn : ¬ FitsColumn request.call.sequence := fun hcolumn => hlarge hcolumn.2
            unfold ReplaySessions.accept at haccept
            rw [ReplaySessions.put_of_not_fits _ hcolumn] at haccept
            cases hcheck : request.call.check (session.committed.last? request.call.key) <;>
              rw [hcheck] at haccept <;> cases haccept
          rw [Responder.admitted_of_ok (by rw [hstep])] at h
          by_cases hkey : request.key = key
          · rw [if_pos hkey] at h
            rcases List.mem_cons.mp h with rfl | hrest
            · exact hfits
            · exact ih hnext hrest
          · rw [if_neg hkey] at h
            exact ih hnext h

theorem idle_final {session : Session ReplaySessions} (h : Idle session)
    (requests : List Request) : Idle (sqliteProtector.final session requests) := by
  induction requests generalizing session with
  | nil => exact h
  | cons request rest ih =>
      apply ih
      rw [sqliteProtector_of_accept h]
      cases session.committed.accept request.call with
      | ok sessions => rfl
      | error e => exact h

theorem fits_of_exact {requests : List Request}
    (h : sqliteProtector.Exact Request.key Request.sequence (.idle .empty) requests)
    {request : Request} (hrequest : request ∈ requests) : Fits request := by
  obtain ⟨before, after, hsplit⟩ := List.append_of_mem hrequest
  by_contra hlarge
  have hlarge : 2 ^ 63 ≤ request.sequence := not_lt.mp hlarge
  have habove : 0 < request.sequence ∧ forall n,
      n ∈ sqliteProtector.admitted Request.key Request.sequence request.key (.idle .empty) before ->
        n < request.sequence := by
    constructor
    · exact Int.lt_of_lt_of_le (by decide) hlarge
    · intro n hn
      exact Int.lt_of_lt_of_le (fits_of_admitted initial_marked.1 hn) hlarge
  have hanswer := (h before request after hsplit).1.mpr habove
  have hidle : Idle (sqliteProtector.final (.idle .empty) before) :=
    idle_final initial_marked.1 before
  -- so the number was admitted, and it is among what the table has admitted now
  have hadmitted : request.sequence ∈ sqliteProtector.admitted Request.key Request.sequence
      request.key (sqliteProtector.final (.idle .empty) before) [request] := by
    rw [Responder.admitted_of_ok hanswer, if_pos rfl]
    exact List.mem_cons_self
  exact absurd hlarge (not_le.mpr (fits_of_admitted hidle hadmitted))

/-- Replay protection is exact just if no sequence is beyond the column of the database. -/
theorem replayExact_iff (requests : List Request) (maximumSessions : Nat)
    (positive : 1 ≤ maximumSessions) :
    ReplayExact requests (.new maximumSessions positive) <->
      forall request, request ∈ requests -> request.sequence < 2 ^ 63 := by
  constructor
  · intro h request hrequest
    exact fits_of_exact h.1 hrequest
  · intro hfits
    have hmarks := windowProtector_marks (requests.map Request.key)
    have hkeys : forall request, request ∈ requests -> request.key ∈ requests.map Request.key :=
      fun request hrequest => List.mem_map_of_mem hrequest
    refine ⟨sqliteProtector_marks.exact initial_marked (fun _ => rfl) hfits, ?_⟩
    intro hroom
    have hroomy : Roomy (requests.map Request.key) (.new maximumSessions positive) :=
      new_roomy hroom
    constructor
    · exact hmarks.exact hroomy (fun _ => rfl) hkeys
    · exact sqliteProtector_marks.answers_eq hmarks initial_marked hroomy (fun _ => rfl)
        (fun request hrequest => ⟨hfits request hrequest, hkeys request hrequest⟩)

def patrolRequest (sequence : Int) (restarted : Bool) : Request where
  call :=
    { peerId := "peer"
      sessionId := "session"
      sequence := sequence
      stream := "operational" }
  restarted := restarted

theorem patrolRequests_exact :
    ReplayExact [patrolRequest 2 false, patrolRequest 2 true, patrolRequest 3 false]
      (.new 1 (by decide)) :=
  (replayExact_iff [patrolRequest 2 false, patrolRequest 2 true, patrolRequest 3 false] 1
    (by decide)).mpr (by decide)

theorem largeSequence_not_exact :
    ¬ ReplayExact [patrolRequest (2 ^ 63) false] (.new 4096 (by decide)) := by
  intro h
  have hanswer := (h.1 [] (patrolRequest (2 ^ 63) false) [] rfl).1.mpr
    ⟨by decide, fun n hn => (by cases hn)⟩
  have hraised : (sqliteProtector (.idle .empty) (patrolRequest (2 ^ 63) false)).1 =
      .error (.exn .overflow) := by
    rw [sqliteProtector_of_accept initial_marked.1]
    rfl
  rw [show sqliteProtector.final (.idle .empty) [] = .idle .empty from rfl, hraised] at hanswer
  cases hanswer

/-!
## The floors of the hand-over

The hand-over of a message keeps its floors by lane. The table has the same ones.
-/

def callOf (envelope : Envelope) : Accept where
  peerId := envelope.sourceId
  sessionId := envelope.sessionId
  sequence := envelope.sequence
  stream := envelope.stream.value

def keyOfLane (lane : Delivery.Lane) : SessionKey where
  peerId := lane.sourceId
  sessionId := lane.sessionId
  stream := lane.stream.value

def SameFloors (floors : Delivery.Floors) (sessions : ReplaySessions) : Prop :=
  forall lane, floors.floor lane = (sessions.last? (keyOfLane lane)).getD 0

theorem stream_eq_of_value {a b : Stream} (h : a.value = b.value) : a = b := by
  cases a <;> cases b <;> first | rfl | exact absurd h (by decide)

theorem keyOfLane_injective {a b : Delivery.Lane} (h : keyOfLane a = keyOfLane b) : a = b := by
  obtain ⟨sourceId, sessionId, stream⟩ := a
  obtain ⟨sourceId', sessionId', stream'⟩ := b
  simp only [keyOfLane, SessionKey.mk.injEq] at h
  rcases h with ⟨rfl, rfl, hstream⟩
  rw [stream_eq_of_value hstream]

theorem SameFloors.raise {floors : Delivery.Floors} {sessions : ReplaySessions}
    (h : SameFloors floors sessions) (lane : Delivery.Lane) (sequence : Int) :
    SameFloors (floors.raiseTo lane sequence) (sessions.upsert (keyOfLane lane) sequence) := by
  intro other
  rw [ReplaySessions.last?_upsert]
  by_cases hlane : other = lane
  · rw [hlane, Delivery.Floors.floor_raiseTo_self, if_pos rfl]
    rfl
  · rw [Delivery.Floors.floor_raiseTo_ne hlane, h other, if_neg]
    exact fun hkey => hlane (keyOfLane_injective hkey).symm

end Ump.Network
