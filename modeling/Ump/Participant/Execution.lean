import Ump.Foundation.Log
import Ump.Participant.Effects

/-!
# Native execution

## The way of a delivery to the adapter

A delivery is admitted, claimed, perhaps queued, and then handed to the adapter. The ids
of the deliveries handed over and of those still waiting are all different, since a claim
is new only when the journal has no record and no record is ever removed.
-/

namespace Ump.Participant

open Foundation Journal

def Delivery.assignmentId (delivery : Delivery) : String :=
  delivery.assignment.assignmentId

/-- What the checks of `_assignment` have found when they let a delivery pass. -/
structure Admissible (config : Config) (delivery : Delivery) : Prop where
  decoded : assignmentOf config.robotId delivery.envelope.payload =
    .ok (some delivery.assignment)
  opened : forall ms, bound delivery.assignment.step.notBeforeMs = some ms ->
    ms ≤ (delivery.reading.nowMs : Rat)
  current : forall ms, bound delivery.assignment.step.deadlineMs = some ms ->
    (delivery.reading.nowMs : Rat) ≤ ms
  authorized : delivery.reading.authority = .granted
  conforms : exists manifest capability, delivery.reading.manifest = .ok manifest ∧
    manifest.capability delivery.assignment.step.capability = some capability ∧
    config.validate capability.inputSchema delivery.assignment.step.inputs = .valid

theorem given_eq_false {limit : Option Rat} {compare : Rat -> Bool}
    (h : PlanStep.given limit compare = false) (ms : Rat) (hms : limit = some ms) :
    compare ms = false := by
  rw [hms] at h
  exact h

theorem checkDelivery_eq_ok {config : Config} {delivery : Delivery}
    (hdecoded : assignmentOf config.robotId delivery.envelope.payload =
      .ok (some delivery.assignment))
    (h : checkDelivery config delivery.assignment delivery.reading = .ok ()) :
    Admissible config delivery := by
  unfold checkDelivery at h
  split_ifs at h with hearly hlate
  have hopened := given_eq_false (Bool.eq_false_iff.mpr hearly)
  have hcurrent := given_eq_false (Bool.eq_false_iff.mpr hlate)
  cases hauthority : delivery.reading.authority with
  | denied error =>
      rw [hauthority] at h
      cases h
  | raised =>
      rw [hauthority] at h
      cases h
  | granted =>
      rw [hauthority] at h
      cases hmanifest : delivery.reading.manifest with
      | error typeName =>
          rw [hmanifest] at h
          cases h
      | ok manifest =>
          rw [hmanifest] at h
          dsimp only at h
          cases hcapability : manifest.capability delivery.assignment.step.capability with
          | none =>
              rw [hcapability] at h
              cases h
          | some capability =>
              rw [hcapability] at h
              dsimp only at h
              cases hvalid : config.validate capability.inputSchema
                  delivery.assignment.step.inputs with
              | valid =>
                  constructor
                  · exact hdecoded
                  · intro ms hms
                    exact Rat.not_lt.mp (of_decide_eq_false (hopened ms hms))
                  · intro ms hms
                    exact Rat.not_lt.mp (of_decide_eq_false (hcurrent ms hms))
                  · exact hauthority
                  · exact ⟨manifest, capability, hmanifest, hcapability, hvalid⟩
              | schemaError =>
                  rw [hvalid] at h
                  cases h
              | validationError =>
                  rw [hvalid] at h
                  cases h
              | raised typeName =>
                  rw [hvalid] at h
                  cases h

def Event.accepted? : Event -> Option Delivery
  | .accepted delivery => some delivery
  | _ => none

/-- The calls of `adapter.accept`, oldest first. -/
def Memory.calls (m : Memory) : List Delivery :=
  m.history.filterMap Event.accepted?

def awaiting (m : Memory) (ts : Multiset Task) : Multiset Delivery :=
  (m.queue : Multiset Delivery) + ts.filterMap Task.pending?

/-- The journal holds the record that the claim of the delivery has added. -/
def Recorded (config : Config) (journal : Journal) (delivery : Delivery) : Prop :=
  exists record, journal.lookup delivery.assignmentId = some record ∧
    record.fingerprint = assignmentFingerprint config.sha256 delivery.assignment ∧
    record.issuerId = delivery.envelope.sourceId

structure Claims (config : Config) (m : Memory) (ts : Multiset Task) : Prop where
  once : (((m.calls : Multiset Delivery) + awaiting m ts).map Delivery.assignmentId).Nodup
  admitted : forall d, .admitted d ∈ m.history -> Admissible config d
  claiming : forall t d, t ∈ ts -> t.claiming? = some d -> .admitted d ∈ m.history
  waiting : forall d, d ∈ awaiting m ts ->
    List.Sublist [.admitted d, .claimed d] m.history
  claimed : forall d, .claimed d ∈ m.history -> Recorded config m.journal d
  caused : forall d before after, m.history = before ++ .accepted d :: after ->
    List.Sublist [.admitted d, .claimed d] before
  running : forall t d, t ∈ ts -> t.running? = some d ->
    d.assignmentId ∈ m.calls.map Delivery.assignmentId

/-!
### Small facts
-/

theorem awaiting_idle {m : Memory} {tasks : List Task}
    (h : forall t, t ∈ tasks -> t.pending? = none) (ts : Multiset Task) :
    awaiting m ((tasks : Multiset Task) + ts) = awaiting m ts := by
  unfold awaiting
  rw [filterMap_idle h]

theorem awaiting_cons_some {m : Memory} {t : Task} {d : Delivery}
    (h : t.pending? = some d) (ts : Multiset Task) :
    awaiting m (t ::ₘ ts) = d ::ₘ awaiting m ts := by
  unfold awaiting
  rw [Multiset.filterMap_cons_some _ _ _ h, Multiset.add_cons]

theorem awaiting_cons_none {m : Memory} {t : Task} (h : t.pending? = none)
    (ts : Multiset Task) : awaiting m (t ::ₘ ts) = awaiting m ts := by
  unfold awaiting
  rw [Multiset.filterMap_cons_none _ _ h]

theorem awaiting_le {m : Memory} {ts ts' : Multiset Task} (h : ts' ≤ ts) :
    awaiting m ts' ≤ awaiting m ts :=
  add_le_add_right (Multiset.filterMap_le_filterMap _ h) _

theorem Recorded.grows {config : Config} {journal journal' : Journal} {d : Delivery}
    (h : Recorded config journal d) (hgrows : Grows journal journal') :
    Recorded config journal' d := by
  rcases h with ⟨record, hlookup, hfingerprint, hissuer⟩
  rcases hgrows _ record hlookup with ⟨record', hlookup', hcontinues⟩
  exact ⟨record', hlookup', hcontinues.fingerprint.trans hfingerprint,
    hcontinues.issuerId.trans hissuer⟩

theorem mem_of_mem_concat {history : List value} {last x : value}
    (h : x ∈ history ++ [last]) (hne : x ≠ last) : x ∈ history := by
  rcases List.mem_append.mp h with hold | hnew
  · exact hold
  · exact absurd (List.mem_singleton.mp hnew) hne

theorem caused_concat {history : List Event} {event : Event}
    (hevent : event.accepted? = none)
    (hcaused : forall d before after, history = before ++ .accepted d :: after ->
      List.Sublist [.admitted d, .claimed d] before) (d : Delivery)
    (before after : List Event) (h : history ++ [event] = before ++ .accepted d :: after) :
    List.Sublist [.admitted d, .claimed d] before := by
  rcases split_concat h with ⟨rfl, _⟩ | ⟨after', hsplit⟩
  · cases hevent
  · exact hcaused d before after' hsplit

theorem calls_of_history {m m' : Memory} (h : m'.history = m.history) :
    m'.calls = m.calls := by
  unfold Memory.calls
  rw [h]

theorem calls_concat (m : Memory) (event : Event) :
    Memory.calls { m with history := m.history ++ [event] } =
      m.calls ++ event.accepted?.toList := by
  unfold Memory.calls
  rw [List.filterMap_append]
  cases event <;> rfl

/-!
### What each kind of task keeps
-/

theorem Claims.drop {config : Config} {m : Memory} {ts ts' : Multiset Task}
    (h : Claims config m ts) (hle : ts' ≤ ts) : Claims config m ts' where
  once := by
    apply Multiset.nodup_of_le _ h.once
    exact Multiset.map_le_map (add_le_add_right (awaiting_le hle) _)
  admitted := h.admitted
  claiming t d ht := h.claiming t d (Multiset.mem_of_le hle ht)
  waiting d hd := h.waiting d (Multiset.mem_of_le (awaiting_le hle) hd)
  claimed := h.claimed
  caused := h.caused
  running t d ht := h.running t d (Multiset.mem_of_le hle ht)

theorem Claims.leave {config : Config} {m m' : Memory} {t : Task} {ts : Multiset Task}
    {tasks : List Task} (h : Claims config m (t ::ₘ ts))
    (hjournal : Grows m.journal m'.journal) (hqueue : m'.queue = m.queue)
    (hhistory : m'.history = m.history) (hleaves : forall t', t' ∈ tasks -> t.Leaves t') :
    Claims config m' ((tasks : Multiset Task) + ts) := by
  have hrest := h.drop (Multiset.le_cons_self ts t)
  have hcalls := calls_of_history hhistory
  have hawaiting : awaiting m' ((tasks : Multiset Task) + ts) = awaiting m ts := by
    rw [awaiting_idle (fun t' ht' => (hleaves t' ht').pending)]
    unfold awaiting
    rw [hqueue]
  constructor
  · rw [hcalls, hawaiting]
    exact hrest.once
  · rw [hhistory]
    exact hrest.admitted
  · intro t' d ht' hclaiming
    rw [hhistory]
    rcases Multiset.mem_add.mp ht' with hnew | hold
    · rw [(hleaves t' (Multiset.mem_coe.mp hnew)).claiming] at hclaiming
      cases hclaiming
    · exact hrest.claiming t' d hold hclaiming
  · rw [hhistory, hawaiting]
    exact hrest.waiting
  · intro d hd
    rw [hhistory] at hd
    exact (hrest.claimed d hd).grows hjournal
  · rw [hhistory]
    exact hrest.caused
  · intro t' d ht' hrunning
    rw [hcalls]
    rcases Multiset.mem_add.mp ht' with hnew | hold
    · have ht := (hleaves t' (Multiset.mem_coe.mp hnew)).running d hrunning
      exact h.running t d (Multiset.mem_cons_self t ts) ht
    · exact hrest.running t' d hold hrunning

theorem Claims.checked {config : Config} {m : Memory} {ts : Multiset Task} {d : Delivery}
    (h : Claims config m ts) (hadmissible : Admissible config d) :
    Claims config { m with history := m.history ++ [.admitted d] } (.claim d ::ₘ ts) := by
  have hcalls : Memory.calls { m with history := m.history ++ [.admitted d] } = m.calls := by
    rw [calls_concat]
    simp [Event.accepted?]
  have hawaiting : awaiting { m with history := m.history ++ [.admitted d] }
      (.claim d ::ₘ ts) = awaiting m ts := awaiting_cons_none rfl ts
  constructor
  · rw [hcalls, hawaiting]
    exact h.once
  · intro d' hd'
    rcases List.mem_append.mp hd' with hold | hnew
    · exact h.admitted d' hold
    · cases List.mem_singleton.mp hnew
      exact hadmissible
  · intro t d' ht hclaiming
    rcases Multiset.mem_cons.mp ht with rfl | ht
    · cases hclaiming
      simp
    · exact List.mem_append_left _ (h.claiming t d' ht hclaiming)
  · intro d' hd'
    rw [hawaiting] at hd'
    exact (h.waiting d' hd').trans (List.sublist_append_left _ _)
  · intro d' hd'
    exact h.claimed d' (mem_of_mem_concat hd' (by simp))
  · exact caused_concat rfl h.caused
  · intro t d' ht hrunning
    rw [hcalls]
    rcases Multiset.mem_cons.mp ht with rfl | ht
    · cases hrunning
    · exact h.running t d' ht hrunning

theorem Claims.recorded {config : Config} {m : Memory} {ts : Multiset Task}
    (h : Claims config m ts) {d : Delivery}
    (hd : d ∈ (m.calls : Multiset Delivery) + awaiting m ts) :
    Recorded config m.journal d := by
  rcases Multiset.mem_add.mp hd with hcalled | hwaiting
  · rcases List.mem_filterMap.mp (Multiset.mem_coe.mp hcalled) with ⟨event, hevent, haccepted⟩
    cases event with
    | accepted d' =>
        cases haccepted
        rcases List.append_of_mem hevent with ⟨before, after, hsplit⟩
        apply h.claimed
        have hcaused := h.caused d before after hsplit
        rw [hsplit]
        exact List.mem_append_left _ (hcaused.subset (by simp))
    | admitted d' => cases haccepted
    | claimed d' => cases haccepted
  · exact h.claimed d ((h.waiting d hwaiting).subset (by simp))

theorem Claims.claim {config : Config} {m : Memory} {ts : Multiset Task} {d : Delivery}
    {journal : Journal} {message : Message} {stamp : Option Int} {cause : Envelope}
    {next : Task} (h : Claims config m ts) (hadmitted : .admitted d ∈ m.history)
    (hclaimed : Claimed config.sha256 m.journal d.assignment d.envelope.sourceId .new journal)
    (hnext : next.pending? = some d) :
    Claims config { m with journal := journal, history := m.history ++ [.claimed d] }
      (.send message stamp cause ::ₘ next ::ₘ ts) := by
  have hgrows := hclaimed.grows
  have hquiet : next.claiming? = none ∧ next.running? = none := by
    cases next <;> first | exact ⟨rfl, rfl⟩ | cases hnext
  have hawaiting : forall ts', awaiting { m with
      journal := journal, history := m.history ++ [.claimed d] } ts' = awaiting m ts' :=
    fun _ => rfl
  have hcalls : Memory.calls { m with
      journal := journal, history := m.history ++ [.claimed d] } = m.calls := by
    show Memory.calls { m with history := m.history ++ [.claimed d] } = m.calls
    rw [calls_concat]
    simp [Event.accepted?]
  cases hclaimed with
  | new hfree hlookup =>
      have hfresh : d.assignmentId ∉
          ((m.calls : Multiset Delivery) + awaiting m ts).map Delivery.assignmentId := by
        intro hmem
        rcases Multiset.mem_map.mp hmem with ⟨other, hother, hid⟩
        rcases h.recorded hother with ⟨record, hrecord, _⟩
        rw [hid] at hrecord
        rw [Delivery.assignmentId, hfree] at hrecord
        cases hrecord
      constructor
      · rw [hcalls, hawaiting, awaiting_cons_none rfl, awaiting_cons_some hnext,
          Multiset.add_cons, Multiset.map_cons, Multiset.nodup_cons]
        exact ⟨hfresh, h.once⟩
      · intro d' hd'
        exact h.admitted d' (mem_of_mem_concat hd' (by simp))
      · intro t d' ht hclaiming
        rcases Multiset.mem_cons.mp ht with rfl | ht
        · cases hclaiming
        · rcases Multiset.mem_cons.mp ht with rfl | ht
          · rw [hquiet.1] at hclaiming
            cases hclaiming
          · exact List.mem_append_left _ (h.claiming t d' ht hclaiming)
      · intro d' hd'
        rw [hawaiting, awaiting_cons_none rfl, awaiting_cons_some hnext] at hd'
        rcases Multiset.mem_cons.mp hd' with rfl | hold
        · exact List.Sublist.append (List.singleton_sublist.mpr hadmitted)
            (List.Sublist.refl [Event.claimed d'])
        · exact (h.waiting d' hold).trans (List.sublist_append_left _ _)
      · intro d' hd'
        rcases List.mem_append.mp hd' with hold | hnew
        · exact (h.claimed d' hold).grows hgrows
        · cases List.mem_singleton.mp hnew
          refine ⟨newRecord config.sha256 d.assignment d.envelope.sourceId, ?_, rfl, rfl⟩
          show journal.lookup d.assignment.assignmentId = _
          rw [hlookup, if_pos rfl]
      · exact caused_concat rfl h.caused
      · intro t d' ht hrunning
        rw [hcalls]
        rcases Multiset.mem_cons.mp ht with rfl | ht
        · cases hrunning
        · rcases Multiset.mem_cons.mp ht with rfl | ht
          · rw [hquiet.2] at hrunning
            cases hrunning
          · exact h.running t d' ht hrunning

theorem Claims.move {config : Config} {m m' : Memory} {ts ts' : Multiset Task}
    (h : Claims config m ts) (hjournal : m'.journal = m.journal)
    (hhistory : m'.history = m.history) (hawaiting : awaiting m' ts' = awaiting m ts)
    (hquiet : forall t, t ∈ ts' -> t ∈ ts ∨ t.claiming? = none ∧ t.running? = none) :
    Claims config m' ts' := by
  have hcalls := calls_of_history hhistory
  constructor
  · rw [hcalls, hawaiting]
    exact h.once
  · rw [hhistory]
    exact h.admitted
  · intro t d ht hclaiming
    rw [hhistory]
    rcases hquiet t ht with hold | ⟨hnone, _⟩
    · exact h.claiming t d hold hclaiming
    · rw [hnone] at hclaiming
      cases hclaiming
  · rw [hhistory, hawaiting]
    exact h.waiting
  · rw [hhistory, hjournal]
    exact h.claimed
  · rw [hhistory]
    exact h.caused
  · intro t d ht hrunning
    rw [hcalls]
    rcases hquiet t ht with hold | ⟨_, hnone⟩
    · exact h.running t d hold hrunning
    · rw [hnone] at hrunning
      cases hrunning

theorem Claims.execute {config : Config} {m : Memory} {ts : Multiset Task} {d : Delivery}
    (h : Claims config m (.execute d ::ₘ ts)) :
    Claims config { m with history := m.history ++ [.accepted d] } (.settle d ::ₘ ts) := by
  have hcalls : Memory.calls { m with history := m.history ++ [.accepted d] } =
      m.calls ++ [d] := calls_concat m (.accepted d)
  have hbefore : awaiting m (.execute d ::ₘ ts) = d ::ₘ awaiting m ts :=
    awaiting_cons_some rfl ts
  have hafter : awaiting { m with history := m.history ++ [.accepted d] } (.settle d ::ₘ ts) =
      awaiting m ts := awaiting_cons_none rfl ts
  constructor
  · have honce := h.once
    rw [hbefore] at honce
    rw [hcalls, hafter, ← Multiset.coe_add, add_assoc, Multiset.coe_singleton,
      Multiset.singleton_add]
    exact honce
  · intro d' hd'
    exact h.admitted d' (mem_of_mem_concat hd' (by simp))
  · intro t d' ht hclaiming
    rcases Multiset.mem_cons.mp ht with rfl | ht
    · cases hclaiming
    · exact List.mem_append_left _ (h.claiming t d' (Multiset.mem_cons_of_mem ht) hclaiming)
  · intro d' hd'
    rw [hafter] at hd'
    have hwaiting := h.waiting d' (by rw [hbefore]; exact Multiset.mem_cons_of_mem hd')
    exact hwaiting.trans (List.sublist_append_left _ _)
  · intro d' hd'
    exact h.claimed d' (mem_of_mem_concat hd' (by simp))
  · intro d' before after hsplit
    rcases split_concat hsplit with ⟨heq, rfl⟩ | ⟨after', hold⟩
    · cases heq
      exact h.waiting d (by rw [hbefore]; exact Multiset.mem_cons_self _ _)
    · exact h.caused d' before after' hold
  · intro t d' ht hrunning
    rw [hcalls]
    rcases Multiset.mem_cons.mp ht with rfl | ht
    · cases hrunning
      simp
    · have hold := h.running t d' (Multiset.mem_cons_of_mem ht) hrunning
      rw [List.map_append]
      exact List.mem_append_left _ hold

theorem claims_keeps (config : Config) :
    (machine config).Keeps .always (fun _ _ => True) (Claims config) where
  drop := Claims.drop
  spawn {m ts entry} _ h _ := by
    have hnew := start_leaves entry
    rw [add_comm]
    refine h.move rfl rfl (awaiting_idle (fun t ht => (hnew t ht).1) ts) ?_
    intro t ht
    rcases Multiset.mem_add.mp ht with hfresh | hold
    · exact Or.inr (hnew t (Multiset.mem_coe.mp hfresh)).2
    · exact Or.inl hold
  crash {m ts} _ h := by
    show Claims config m.restart 0
    have hcalls : m.restart.calls = m.calls := rfl
    have hawaiting : awaiting m.restart 0 = 0 := rfl
    constructor
    · have honce := h.once
      rw [Multiset.map_add, Multiset.nodup_add] at honce
      rw [hcalls, hawaiting, add_zero]
      exact honce.1
    · exact h.admitted
    · intro t d ht
      cases Multiset.notMem_zero t ht
    · intro d hd
      rw [hawaiting] at hd
      cases Multiset.notMem_zero d hd
    · exact fun d hd => (h.claimed d hd).grows (grows_reopen m.journal)
    · exact h.caused
    · intro t d ht
      cases Multiset.notMem_zero t ht
  exec {m t ts r} _ h _ := by
    have hrest : Claims config m ts := h.drop (Multiset.le_cons_self ts t)
    have hgrows := exec_grows config m t r
    show Claims config (exec config m t r).1
      (((exec config m t r).2.tasks : Multiset Task) + ts)
    generalize hresult : exec config m t r = result at hgrows
    have heffect : Effect config m t result := hresult ▸ exec_effect config m t r
    cases heffect with
    | quiet _ hqueue hhistory hleaves => exact h.leave hgrows hqueue hhistory hleaves
    | @admitted d hdecoded hchecked =>
        exact hrest.checked (checkDelivery_eq_ok hdecoded hchecked)
    | @claimed d journal message stamp cause next hclaimed hnext =>
        have hadmitted := h.claiming _ d (Multiset.mem_cons_self _ _) rfl
        rw [Flow.tasks_next, ← Multiset.cons_coe, ← Multiset.cons_coe, Multiset.coe_nil,
          Multiset.cons_add, Multiset.cons_add, zero_add]
        exact hrest.claim hadmitted hclaimed hnext
    | submitted d =>
        rw [Flow.tasks_next, Multiset.coe_nil, zero_add]
        refine h.move rfl rfl ?_ (fun t ht => Or.inl (Multiset.mem_cons_of_mem ht))
        rw [awaiting_cons_some rfl]
        simp [awaiting, ← Multiset.coe_add, add_assoc]
    | @taken d rest hqueue =>
        refine hrest.move rfl rfl ?_ ?_
        · show awaiting { m with queue := rest } (.execute d ::ₘ ts) = awaiting m ts
          rw [awaiting_cons_some rfl]
          simp [awaiting, hqueue, ← Multiset.cons_coe]
        · intro t ht
          rcases Multiset.mem_cons.mp ht with rfl | ht
          · exact Or.inr ⟨rfl, rfl⟩
          · exact Or.inl ht
    | executed d => exact h.execute
    | recorded _ _ _ hqueue hhistory hleaves => exact h.leave hgrows hqueue hhistory hleaves
    | resolved => exact h.leave hgrows rfl rfl leaves_nil

theorem initial_claims (config : Config) : Claims config Memory.initial 0 := by
  constructor
  · simp [Memory.calls, awaiting, Memory.initial]
  · intro d hd
    cases hd
  · intro t d ht
    cases Multiset.notMem_zero t ht
  · intro d hd
    simp [awaiting, Memory.initial] at hd
  · intro d hd
    cases hd
  · intro d before after hsplit
    simp [Memory.initial] at hsplit
  · intro t d ht
    cases Multiset.notMem_zero t ht

theorem reaches_claims {config : Config} {C : Condition Memory Task Reading Entry}
    {p : Pool Memory Task} (h : (machine config).Reaches C initial p) :
    Claims config p.shared p.tasks :=
  (claims_keeps config).reaches (h.weaken (fun _ _ _ _ => trivial)) (fun _ _ => trivial)
    (initial_claims config)

/-- Over every history with its restarts, the adapter is called at most once for an
assignment id. Before each call, a delivery of that assignment has passed the checks and
then its claim was new, and the journal still holds the record of the claim. -/
theorem adapter_called_at_most_once (config : Config) (p : Pool Memory Task)
    (h : (machine config).Reaches .always initial p) :
    (p.shared.calls.map Delivery.assignmentId).Nodup ∧
    forall d before after, p.shared.history = before ++ .accepted d :: after ->
      List.Sublist [.admitted d, .claimed d] before ∧ Admissible config d ∧
        Recorded config p.shared.journal d := by
  have hclaims := reaches_claims h
  constructor
  · have honce := hclaims.once
    rw [Multiset.map_add, Multiset.nodup_add] at honce
    exact honce.1
  · intro d before after hsplit
    have hcaused := hclaims.caused d before after hsplit
    have hpast : forall event, event ∈ before -> event ∈ p.shared.history := by
      intro event hevent
      rw [hsplit]
      exact List.mem_append_left _ hevent
    refine ⟨hcaused, ?_, ?_⟩
    · exact hclaims.admitted d (hpast _ (hcaused.subset (by simp)))
    · exact hclaims.claimed d (hpast _ (hcaused.subset (by simp)))

set_option maxRecDepth 8000 in
theorem patrol_called_once :
    exists p, (machine (patrolConfig 1)).run initial
        (.spawn (.receive (patrolAssigned "c")) :: patrolTasks 0 4 0 ++ .spawn .work ::
          patrolTasks 1 6 0 ++ .crash :: .spawn (.receive (patrolAssigned "c")) ::
          patrolTasks 0 4 5) = some p ∧
      p.shared.calls.map Delivery.assignmentId = ["a"] ∧
      (p.shared.calls.map Delivery.assignmentId).Nodup ∧
      forall d before after, p.shared.history = before ++ .accepted d :: after ->
        List.Sublist [.admitted d, .claimed d] before ∧ Admissible (patrolConfig 1) d ∧
          Recorded (patrolConfig 1) p.shared.journal d := by
  have hcalls : ((machine (patrolConfig 1)).run initial
      (.spawn (.receive (patrolAssigned "c")) :: patrolTasks 0 4 0 ++ .spawn .work ::
        patrolTasks 1 6 0 ++ .crash :: .spawn (.receive (patrolAssigned "c")) ::
        patrolTasks 0 4 5)).map (fun p => p.shared.calls.map Delivery.assignmentId) =
      some ["a"] := by
    decide +kernel
  rcases Option.map_eq_some_iff.mp hcalls with ⟨p, hrun, hcalls⟩
  exact ⟨p, hrun, hcalls, adapter_called_at_most_once _ p (Machine.run_reaches hrun)⟩

end Ump.Participant
