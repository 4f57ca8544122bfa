import Mathlib.Data.Set.Basic
import Ump.Foundation.EdgeTrigger
import Ump.Registry.Freshness

/-!
# The communication watchdog

## Evaluations in a row

Between two evaluations the registry may change in any way, and the manufacturer's policy may
raise on any call.
-/

namespace Ump.Registry

open Foundation

def LossCall.stale : LossCall -> List String
  | .lost stalePeerIds _ => stalePeerIds
  | .restored _ _ => []

structure Turn where
  peers : Peers
  nowMs : Int
  raises : LossCall -> Bool

namespace Turn

def stale (turn : Turn) (requiredPeerIds : List String) : Set String :=
  fun peerId => peerId ∈ requiredPeerIds ∧ isFresh turn.peers peerId turn.nowMs = false

def call (turn : Turn) (previous current : List String) : LossCall :=
  if current.isEmpty then .restored previous turn.nowMs else .lost current turn.nowMs

def observation (turn : Turn) (requiredPeerIds : List String) : Observation (List String) where
  current := requiredPeerIds.filter (fun peerId => !isFresh turn.peers peerId turn.nowMs)
  fails := fun previous => turn.raises (turn.call previous
    (requiredPeerIds.filter (fun peerId => !isFresh turn.peers peerId turn.nowMs)))

theorem stale_call (turn : Turn) (previous current : List String) :
    (turn.call previous current).stale = current := by
  unfold call
  split_ifs with hempty
  · exact (List.isEmpty_iff.mp hempty).symm
  · rfl

theorem mem_observation {turn : Turn} {requiredPeerIds : List String} {peerId : String} :
    peerId ∈ (turn.observation requiredPeerIds).current <->
      peerId ∈ turn.stale requiredPeerIds := by
  unfold observation
  rw [List.mem_filter, Bool.not_eq_true']
  rfl

end Turn

namespace Watchdog

def evaluateAt (watchdog : Watchdog) (turn : Turn) : Evaluation :=
  watchdog.evaluate turn.raises turn.peers turn.nowMs

def after (watchdog : Watchdog) (turns : List Turn) : Watchdog :=
  turns.foldl (fun current turn => (current.evaluateAt turn).watchdog) watchdog

/-- The calls of evaluations in a row, each with whether it raised. -/
def calls (watchdog : Watchdog) : List Turn -> List (LossCall × Bool)
  | [] => []
  | turn :: rest =>
      match (watchdog.evaluateAt turn).call with
      | some call => (call, turn.raises call) :: calls (watchdog.evaluateAt turn).watchdog rest
      | none => calls (watchdog.evaluateAt turn).watchdog rest

end Watchdog

def lastDelivered (record : List (LossCall × Bool)) : List String :=
  (((record.filter (fun entry => !entry.2)).map (fun entry => entry.1.stale)).getLast?).getD []

namespace Watchdog

/-!
## The watchdog announces the stale list

The watchdog is an edge trigger whose observation is the list of stale peers: it remembers the
list of the last call that has not raised.
-/

theorem evaluateAt_eq (watchdog : Watchdog) (turn : Turn) :
    (watchdog.evaluateAt turn).watchdog =
        { watchdog with
          activeStale :=
            (turn.observation watchdog.requiredPeerIds).next watchdog.activeStale } ∧
      (watchdog.evaluateAt turn).call =
        ((turn.observation watchdog.requiredPeerIds).attempt watchdog.activeStale).map
          (turn.call watchdog.activeStale) := by
  have hcall : forall stale, turn.call watchdog.activeStale stale =
      if stale.isEmpty then .restored watchdog.activeStale turn.nowMs
      else .lost stale turn.nowMs := fun _ => rfl
  unfold evaluateAt evaluate
  dsimp only
  rw [<- hcall]
  by_cases hsame : watchdog.stalePeers turn.peers turn.nowMs = watchdog.activeStale
  · rw [if_pos hsame, Observation.next_of_same hsame, Observation.attempt_of_same hsame]
    exact ⟨rfl, rfl⟩
  · rw [if_neg hsame, Observation.attempt_of_ne hsame]
    cases hraises : turn.raises
        (turn.call watchdog.activeStale (watchdog.stalePeers turn.peers turn.nowMs)) with
    | true =>
        rw [if_pos rfl, Observation.next_of_fails hraises]
        exact ⟨rfl, rfl⟩
    | false =>
        rw [if_neg Bool.false_ne_true, Observation.next_of_announced hsame hraises]
        exact ⟨rfl, rfl⟩

theorem requiredPeerIds_after (watchdog : Watchdog) (turns : List Turn) :
    (watchdog.after turns).requiredPeerIds = watchdog.requiredPeerIds := by
  induction turns generalizing watchdog with
  | nil => rfl
  | cons turn rest ih =>
      rw [after, List.foldl_cons]
      refine (ih _).trans ?_
      rw [(watchdog.evaluateAt_eq turn).1]

theorem activeStale_after (watchdog : Watchdog) (turns : List Turn) :
    (watchdog.after turns).activeStale =
      Observation.after watchdog.activeStale
        (turns.map (fun turn => turn.observation watchdog.requiredPeerIds)) := by
  induction turns generalizing watchdog with
  | nil => rfl
  | cons turn rest ih =>
      rw [after, List.foldl_cons, List.map_cons, Observation.after, List.foldl_cons]
      refine (ih _).trans ?_
      rw [(watchdog.evaluateAt_eq turn).1]
      rfl

theorem calls_delivered (watchdog : Watchdog) (turns : List Turn) :
    ((watchdog.calls turns).filter (fun entry => !entry.2)).map (fun entry => entry.1.stale) =
      Observation.announcements watchdog.activeStale
        (turns.map (fun turn => turn.observation watchdog.requiredPeerIds)) := by
  induction turns generalizing watchdog with
  | nil => rfl
  | cons turn rest ih =>
      obtain ⟨hwatchdog, hcall⟩ := watchdog.evaluateAt_eq turn
      have hrest := ih (watchdog.evaluateAt turn).watchdog
      rw [calls, List.map_cons, Observation.announcements, hcall]
      rw [hwatchdog] at hrest ⊢
      by_cases hsame : (turn.observation watchdog.requiredPeerIds).current = watchdog.activeStale
      · rw [Observation.next_of_same hsame] at hrest ⊢
        rw [Observation.attempt_of_same hsame, Option.map_none, if_neg (fun h => h.1 hsame)]
        exact hrest
      · rw [Observation.attempt_of_ne hsame, Option.map_some]
        dsimp only
        cases hraises : turn.raises (turn.call watchdog.activeStale
            (turn.observation watchdog.requiredPeerIds).current) with
        | true =>
            have hfails : (turn.observation watchdog.requiredPeerIds).fails
                watchdog.activeStale = true := hraises
            rw [Observation.next_of_fails hfails] at hrest ⊢
            rw [if_neg (fun h => absurd h.2 (by simp [hfails]))]
            exact hrest
        | false =>
            have hfails : (turn.observation watchdog.requiredPeerIds).fails
                watchdog.activeStale = false := hraises
            rw [Observation.next_of_announced hsame hfails] at hrest ⊢
            rw [if_pos ⟨hsame, hfails⟩, List.filter_cons_of_pos rfl, List.map_cons,
              Turn.stale_call]
            exact congrArg _ hrest

theorem activeStale_eq_lastDelivered {watchdog : Watchdog} (h : watchdog.activeStale = [])
    (turns : List Turn) :
    (watchdog.after turns).activeStale = lastDelivered (watchdog.calls turns) := by
  unfold lastDelivered
  rw [calls_delivered, activeStale_after, Observation.after_eq_last, h]

/-!
## Sets of stale peers

A stale list is a part of the required peers in their order, so two of them are equal as lists
when they are equal as sets.
-/

theorem activeStale_filter {watchdog : Watchdog} (h : watchdog.activeStale = [])
    (turns : List Turn) :
    exists keep, (watchdog.after turns).activeStale = watchdog.requiredPeerIds.filter keep := by
  rw [activeStale_after, h]
  rcases Observation.after_mem ([] : List String)
      (turns.map (fun turn => turn.observation watchdog.requiredPeerIds)) with
    hnone | ⟨o, hmem, hlast⟩
  · exact ⟨fun _ => false, by rw [hnone, List.filter_false]⟩
  · obtain ⟨turn, _, rfl⟩ := List.mem_map.mp hmem
    exact ⟨_, hlast⟩

theorem filter_eq_iff_mem {items : List String} {keep other : String -> Bool} :
    items.filter keep = items.filter other <->
      forall item, item ∈ items.filter keep <-> item ∈ items.filter other := by
  constructor
  · intro hsame item
    rw [hsame]
  · intro hmembers
    apply List.filter_congr
    intro item hitem
    have hitem' := hmembers item
    simp only [List.mem_filter, hitem, true_and] at hitem'
    exact Bool.eq_iff_iff.mpr hitem'

theorem observed_ne_iff {watchdog : Watchdog} (h : watchdog.activeStale = [])
    (turns : List Turn) (turn : Turn) :
    (turn.observation watchdog.requiredPeerIds).current ≠ (watchdog.after turns).activeStale <->
      turn.stale watchdog.requiredPeerIds ≠
        {peerId | peerId ∈ (watchdog.after turns).activeStale} := by
  obtain ⟨keep, hkeep⟩ := watchdog.activeStale_filter h turns
  rw [not_iff_not, hkeep]
  refine filter_eq_iff_mem.trans ?_
  constructor
  · intro hmembers
    funext peerId
    exact propext (Turn.mem_observation.symm.trans (hmembers peerId))
  · intro hset peerId
    refine Turn.mem_observation.trans ?_
    rw [hset]
    rfl

/-!
## Edges

An evaluation calls the policy just if its stale list is another one, as a set, than the one that
was delivered last.
-/

/-- What an evaluation does after a record of calls. -/
structure Edges (requiredPeerIds : List String) (watchdog : Watchdog)
    (record : List (LossCall × Bool)) (turn : Turn) : Prop where
  kept : watchdog.activeStale = lastDelivered record
  invoked : (watchdog.evaluateAt turn).call.isSome = true <->
    turn.stale requiredPeerIds ≠ {peerId | peerId ∈ lastDelivered record}
  lost : forall call, (watchdog.evaluateAt turn).call = some call ->
    (turn.stale requiredPeerIds).Nonempty ->
    exists stalePeerIds, call = .lost stalePeerIds turn.nowMs ∧
      {peerId | peerId ∈ stalePeerIds} = turn.stale requiredPeerIds
  restored : forall call, (watchdog.evaluateAt turn).call = some call ->
    turn.stale requiredPeerIds = ∅ -> call = .restored (lastDelivered record) turn.nowMs
  retried : forall call, (watchdog.evaluateAt turn).call = some call ->
    turn.raises call = true -> forall later : Turn,
      (((watchdog.evaluateAt turn).watchdog.evaluateAt later).call.isSome = true <->
        later.stale requiredPeerIds ≠ {peerId | peerId ∈ lastDelivered record})

theorem call_eq_some {watchdog : Watchdog} {turn : Turn} {call : LossCall}
    (h : (watchdog.evaluateAt turn).call = some call) :
    call = turn.call watchdog.activeStale
      (turn.observation watchdog.requiredPeerIds).current := by
  rw [(watchdog.evaluateAt_eq turn).2] at h
  unfold Observation.attempt at h
  split_ifs at h with hsame
  · cases h
  · exact (Option.some.inj h).symm

theorem evaluateAt_of_raised {watchdog : Watchdog} {turn : Turn} {call : LossCall}
    (h : (watchdog.evaluateAt turn).call = some call) (hraises : turn.raises call = true) :
    (watchdog.evaluateAt turn).watchdog = watchdog := by
  rw [call_eq_some h] at hraises
  have hfails : (turn.observation watchdog.requiredPeerIds).fails watchdog.activeStale = true :=
    hraises
  rw [(watchdog.evaluateAt_eq turn).1, Observation.next_of_fails hfails]

theorem create_eq_ok {requiredPeerIds : List String} {watchdog : Watchdog}
    (h : create requiredPeerIds = .ok watchdog) :
    watchdog.activeStale = [] ∧
      forall turn : Turn, turn.stale watchdog.requiredPeerIds = turn.stale requiredPeerIds := by
  unfold create at h
  obtain ⟨_, _, h⟩ := bind_eq_ok.mp h
  cases h
  refine ⟨rfl, fun turn => ?_⟩
  funext peerId
  unfold Turn.stale
  rw [List.mem_insertionSort]

theorem call_isSome_iff {watchdog : Watchdog} (h : watchdog.activeStale = [])
    (before : List Turn) (turn : Turn) :
    ((watchdog.after before).evaluateAt turn).call.isSome = true <->
      turn.stale watchdog.requiredPeerIds ≠
        {peerId | peerId ∈ lastDelivered (watchdog.calls before)} := by
  rw [((watchdog.after before).evaluateAt_eq turn).2, Option.isSome_map,
    Observation.attempt_isSome_iff, requiredPeerIds_after, observed_ne_iff h,
    activeStale_eq_lastDelivered h]

/-- The evaluations of a watchdog, whatever happens to the registry between them and whichever
calls raise. -/
theorem edges_of_create {requiredPeerIds : List String} {watchdog : Watchdog}
    (h : create requiredPeerIds = .ok watchdog) (before : List Turn) (turn : Turn) :
    Edges requiredPeerIds (watchdog.after before) (watchdog.calls before) turn := by
  obtain ⟨hnone, hrequired⟩ := create_eq_ok h
  have hkept := activeStale_eq_lastDelivered hnone before
  have hmembers : {peerId | peerId ∈
      (turn.observation (watchdog.after before).requiredPeerIds).current} =
      turn.stale requiredPeerIds := by
    rw [requiredPeerIds_after, ← hrequired turn]
    exact Set.ext fun peerId => Turn.mem_observation
  constructor
  case kept => exact hkept
  case invoked =>
      rw [← hrequired turn]
      exact call_isSome_iff hnone before turn
  case lost =>
      rintro call hcall ⟨peerId, hstale⟩
      rw [← hmembers] at hstale
      have hcurrent : (turn.observation (watchdog.after before).requiredPeerIds).current.isEmpty =
          false := List.isEmpty_eq_false_iff.mpr (List.ne_nil_of_mem hstale)
      refine ⟨_, ?_, hmembers⟩
      rw [call_eq_some hcall]
      unfold Turn.call
      rw [hcurrent]
      rfl
  case restored =>
      intro call hcall hempty
      have hcurrent : (turn.observation (watchdog.after before).requiredPeerIds).current = [] := by
        apply List.eq_nil_iff_forall_not_mem.mpr
        intro peerId hmem
        have hstale : peerId ∈ turn.stale requiredPeerIds := hmembers ▸ hmem
        rw [hempty] at hstale
        exact hstale
      rw [call_eq_some hcall, hcurrent, hkept]
      rfl
  case retried =>
      intro call hcall hraises later
      rw [evaluateAt_of_raised hcall hraises, ← hrequired later]
      exact call_isSome_iff hnone before later

def silentTurn (raises : Bool) : Turn where
  peers := []
  nowMs := 1000
  raises _ := raises

theorem failed_loss_called_again :
    exists watchdog, create ["rover"] = .ok watchdog ∧
      Edges ["rover"] (watchdog.after [silentTurn true]) (watchdog.calls [silentTurn true])
        (silentTurn false) ∧
      ((watchdog.after [silentTurn true]).evaluateAt (silentTurn false)).call =
        some (.lost ["rover"] 1000) :=
  ⟨_, rfl, edges_of_create rfl _ _, rfl⟩

end Watchdog

end Ump.Registry
