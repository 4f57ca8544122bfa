import Ump.Foundation.Intervention
import Ump.Participant.Histories

/-!
# A second process on the journal

## Opening the file of a running participant

`ump-reconcile` opens the journal file and resolves unknown work. The constructor of the
journal marks accepted records as unknown, and it does so in whichever process it runs.
-/

namespace Ump.Participant

open Foundation Journal

inductive Command where
  | openJournal
  | resolveUnknown (assignmentId : String) (status : AssignmentStatus)
      (description resolverId evidence : String) (nowMs : Int)

def Command.operation : Command -> Operation
  | .openJournal => .reopen
  | .resolveUnknown assignmentId status description resolverId evidence nowMs =>
      .resolveUnknown assignmentId status description resolverId evidence nowMs

def intervene (config : Config) (c : Command) (m : Memory) : Memory :=
  { m with journal := m.journal.apply config.sha256 c.operation }

/-- The participant, and any number of other processes on its journal. -/
def reconciled (config : Config) :
    Machine Memory (Task ⊕ Command) Reading (Entry ⊕ Command) :=
  (machine config).beside (intervene config)

def initialReconciled : Pool Memory (Task ⊕ Command) where
  shared := .initial
  threads := []

/-!
## What an execution relies on
-/

/-- The delivery is claimed, and the participant has not ended its work on it. -/
def Engaged (m : Memory) (ts : Multiset Task) (delivery : Delivery) : Prop :=
  delivery ∈ awaiting m ts ∨ exists t, t ∈ ts ∧ t.running? = some delivery

def Executing (p : Pool Memory (Task ⊕ Command)) (assignmentId : String) : Prop :=
  exists delivery, Engaged p.shared (ownTasks p.tasks) delivery ∧
    delivery.assignmentId = assignmentId

def storedBy (p : Pool Memory (Task ⊕ Command)) :
    Action Reading (Entry ⊕ Command) -> Option String
  | .run i _ =>
      match p.nextTask i with
      | some (.inl t) => t.recording?
      | _ => none
  | _ => none

/-- The step leaves alone what is being executed and what is accepted, unless it stores
the outcome of that very assignment, and it interrupts no work. -/
structure Undisturbed (p : Pool Memory (Task ⊕ Command))
    (a : Action Reading (Entry ⊕ Command)) (q : Pool Memory (Task ⊕ Command)) : Prop where
  executing : forall assignmentId, Executing p assignmentId ->
    storedBy p a ≠ some assignmentId ->
    q.shared.journal.lookup assignmentId = p.shared.journal.lookup assignmentId ∧
      forall resource, p.shared.journal.owner? resource = some assignmentId ->
        q.shared.journal.owner? resource = some assignmentId
  accepted : forall assignmentId record,
    p.shared.journal.lookup assignmentId = some record -> record.status = .accepted ->
    storedBy p a ≠ some assignmentId ->
    q.shared.journal.lookup assignmentId = some record
  interrupted : forall assignmentId record,
    q.shared.journal.lookup assignmentId = some record -> record.status = .unknown ->
    record.outcome = none -> p.shared.journal.lookup assignmentId = some record

/-- Another process opens the file only while nothing is accepted. -/
def opensAtRest (m : Memory) : Command -> Prop
  | .openJournal => forall assignmentId record,
      m.journal.lookup assignmentId = some record -> record.status ≠ .accepted
  | .resolveUnknown _ _ _ _ _ _ => True

/-!
## Records that no other task touches
-/

def JournalRecord.firm (record : JournalRecord) : Prop :=
  record.status = .accepted ∨ record.outcome ≠ none

theorem firm_of_recorded (outcome : Outcome) (record : JournalRecord) :
    (recorded outcome record).outcome ≠ none := by
  cases houtcome : record.outcome with
  | none =>
      rw [(recorded_of_open houtcome outcome).2.1]
      exact Option.some_ne_none outcome
  | some stored =>
      rw [recorded_of_settled houtcome, houtcome]
      exact Option.some_ne_none stored

theorem lookup_resolved {journal : Journal} {resolvedId assignmentId : String}
    {stored record : JournalRecord} {outcome : Outcome}
    (hstored : journal.lookup resolvedId = some stored) (hunknown : stored.status = .unknown)
    (hopen : stored.outcome = none) (hrecord : journal.lookup assignmentId = some record)
    (hfirm : record.firm) :
    (journal.record resolvedId outcome).lookup assignmentId = some record := by
  have hother : assignmentId ≠ resolvedId := by
    rintro rfl
    cases hstored.symm.trans hrecord
    rcases hfirm with haccepted | hsettled
    · rw [hunknown] at haccepted
      cases haccepted
    · exact hsettled hopen
  rw [lookup_record_other hother]
  exact hrecord

theorem interrupted_before_record {journal : Journal} {recordedId assignmentId : String}
    {outcome : Outcome} {record : JournalRecord}
    (hrecord : (journal.record recordedId outcome).lookup assignmentId = some record)
    (hopen : record.outcome = none) : journal.lookup assignmentId = some record := by
  by_cases hid : assignmentId = recordedId
  · subst hid
    rw [lookup_record] at hrecord
    rcases Option.map_eq_some_iff.mp hrecord with ⟨before, _, rfl⟩
    rw [if_pos rfl] at hopen
    exact absurd hopen (firm_of_recorded outcome before)
  · rw [lookup_record_other hid] at hrecord
    exact hrecord

/-- The journal of a step that keeps firm records and interrupts none. -/
structure Gentle (journal journal' : Journal) (storedId : Option String) : Prop where
  kept : forall assignmentId record, journal.lookup assignmentId = some record ->
    record.firm -> storedId ≠ some assignmentId -> journal'.lookup assignmentId = some record
  firm : forall assignmentId record, journal.lookup assignmentId = some record ->
    record.firm -> exists record', journal'.lookup assignmentId = some record' ∧ record'.firm
  interrupted : forall assignmentId record, journal'.lookup assignmentId = some record ->
    record.status = .unknown -> record.outcome = none ->
    journal.lookup assignmentId = some record

theorem gentle_of_kept {journal journal' : Journal} {storedId : Option String}
    (hkept : forall assignmentId record, journal.lookup assignmentId = some record ->
      record.firm -> journal'.lookup assignmentId = some record)
    (hinterrupted : forall assignmentId record, journal'.lookup assignmentId = some record ->
      record.status = .unknown -> record.outcome = none ->
      journal.lookup assignmentId = some record) : Gentle journal journal' storedId where
  kept assignmentId record hrecord hfirm _ := hkept assignmentId record hrecord hfirm
  firm assignmentId record hrecord hfirm :=
    ⟨record, hkept assignmentId record hrecord hfirm, hfirm⟩
  interrupted := hinterrupted

theorem Gentle.rfl (journal : Journal) (storedId : Option String) :
    Gentle journal journal storedId :=
  gentle_of_kept (fun _ _ h _ => h) (fun _ _ h _ _ => h)

theorem gentle_of_resolved {journal journal' : Journal} {resolvedId : String}
    {stored : JournalRecord} {outcome : Outcome} {storedId : Option String}
    (hstored : journal.lookup resolvedId = some stored) (hunknown : stored.status = .unknown)
    (hopen : stored.outcome = none)
    (hlookup : forall otherId,
      journal'.lookup otherId = (journal.record resolvedId outcome).lookup otherId) :
    Gentle journal journal' storedId := by
  apply gentle_of_kept
  · intro assignmentId record hrecord hfirm
    rw [hlookup]
    exact lookup_resolved hstored hunknown hopen hrecord hfirm
  · intro assignmentId record hrecord _ houtcome
    rw [hlookup] at hrecord
    exact interrupted_before_record hrecord houtcome

theorem exec_gentle (config : Config) (m : Memory) (t : Task) (r : Reading) :
    Gentle m.journal (exec config m t r).1.journal t.recording? := by
  generalize hresult : exec config m t r = result
  have heffect : Effect config m t result := hresult ▸ exec_effect config m t r
  cases heffect with
  | quiet hjournal _ _ _ =>
      rw [hjournal]
      exact .rfl m.journal _
  | @claimed delivery journal _ _ _ _ hclaimed _ =>
      cases hclaimed with
      | new hfree hlookup =>
          apply gentle_of_kept
          · intro assignmentId record hrecord _
            have hother : assignmentId ≠ delivery.assignment.assignmentId := by
              rintro rfl
              cases hfree.symm.trans hrecord
            show journal.lookup assignmentId = some record
            rw [hlookup, if_neg hother]
            exact hrecord
          · intro assignmentId record hrecord hunknown _
            have hnew : journal.lookup assignmentId = some record := hrecord
            rw [hlookup] at hnew
            split_ifs at hnew with hid
            · cases hnew
              cases hunknown
            · exact hnew
  | @recorded _ _ recordedId outcome _ hrecording _ hjournal _ _ _ =>
      rw [hjournal, hrecording]
      constructor
      · intro assignmentId record hrecord _ hother
        rw [lookup_record_other (fun hid => hother (by rw [hid]))]
        exact hrecord
      · intro assignmentId record hrecord hfirm
        by_cases hid : assignmentId = recordedId
        · subst hid
          exact ⟨_, lookup_record_self hrecord outcome, Or.inr (firm_of_recorded outcome record)⟩
        · exact ⟨record, (lookup_record_other hid outcome).trans hrecord, hfirm⟩
      · intro assignmentId record hrecord _ houtcome
        exact interrupted_before_record hrecord houtcome
  | resolved hstored hunknown hopen hlookup =>
      exact gentle_of_resolved hstored hunknown hopen hlookup
  | _ => exact .rfl m.journal _

theorem lookup_reopen_at_rest {journal : Journal}
    (h : forall assignmentId record, journal.lookup assignmentId = some record ->
      record.status ≠ .accepted) (assignmentId : String) :
    journal.reopen.lookup assignmentId = journal.lookup assignmentId := by
  rw [lookup_reopen]
  cases hrecord : journal.lookup assignmentId with
  | none => rfl
  | some record =>
      have haccepted := h assignmentId record hrecord
      simp [Journal.interrupted, haccepted]

theorem reopen_gentle {journal : Journal} {storedId : Option String}
    (h : forall assignmentId record, journal.lookup assignmentId = some record ->
      record.status ≠ .accepted) : Gentle journal journal.reopen storedId := by
  apply gentle_of_kept
  · intro assignmentId record hrecord _
    rw [lookup_reopen_at_rest h]
    exact hrecord
  · intro assignmentId record hrecord _ _
    rw [lookup_reopen_at_rest h] at hrecord
    exact hrecord

theorem resolve_gentle (sha256 : Text -> String) (journal : Journal) (assignmentId : String)
    (status : AssignmentStatus) (description resolverId evidence : String) (nowMs : Int)
    (storedId : Option String) :
    Gentle journal (journal.apply sha256
      (.resolveUnknown assignmentId status description resolverId evidence nowMs)) storedId := by
  rw [apply_resolveUnknown]
  cases hresolve : journal.resolveUnknown assignmentId status description resolverId evidence
      nowMs with
  | error e => exact .rfl journal _
  | ok result =>
      rcases resolveUnknown_eq_ok hresolve with ⟨⟨stored, hstored, hunknown, hopen⟩, hlookup⟩
      exact gentle_of_resolved hstored hunknown hopen hlookup

/-!
## What a run keeps
-/

/-- The record of an execution is accepted until its outcome is stored. -/
structure Held (config : Config) (m : Memory) (ts : Multiset Task) : Prop where
  claims : Claims config m ts
  historic : Historic config m.journal
  firm : forall delivery, Engaged m ts delivery -> exists record,
    m.journal.lookup delivery.assignmentId = some record ∧ record.firm

theorem Engaged.mono {m : Memory} {ts ts' : Multiset Task} {delivery : Delivery}
    (h : Engaged m ts' delivery) (hle : ts' ≤ ts) : Engaged m ts delivery := by
  rcases h with hwaiting | ⟨t, ht, hrunning⟩
  · exact Or.inl (Multiset.mem_of_le (awaiting_le hle) hwaiting)
  · exact Or.inr ⟨t, Multiset.mem_of_le hle ht, hrunning⟩

theorem engaged_iff {m : Memory} {ts : Multiset Task} {delivery : Delivery} :
    Engaged m ts delivery <-> delivery ∈ m.queue ∨ exists t, t ∈ ts ∧
      (t.pending? = some delivery ∨ t.running? = some delivery) := by
  unfold Engaged awaiting
  rw [Multiset.mem_add, Multiset.mem_coe, Multiset.mem_filterMap]
  constructor
  · rintro ((hqueue | ⟨t, ht, hpending⟩) | ⟨t, ht, hrunning⟩)
    · exact Or.inl hqueue
    · exact Or.inr ⟨t, ht, Or.inl hpending⟩
    · exact Or.inr ⟨t, ht, Or.inr hrunning⟩
  · rintro (hqueue | ⟨t, ht, hpending | hrunning⟩)
    · exact Or.inl (Or.inl hqueue)
    · exact Or.inl (Or.inr ⟨t, ht, hpending⟩)
    · exact Or.inr ⟨t, ht, hrunning⟩

theorem engaged_left {m : Memory} {tasks : List Task} {ts : Multiset Task}
    {delivery : Delivery} (h : Engaged m ((tasks : Multiset Task) + ts) delivery) :
    delivery ∈ m.queue ∨ (exists t, t ∈ ts ∧
        (t.pending? = some delivery ∨ t.running? = some delivery)) ∨
      exists t, t ∈ tasks ∧ (t.pending? = some delivery ∨ t.running? = some delivery) := by
  rcases engaged_iff.mp h with hqueue | ⟨t, ht, hfound⟩
  · exact Or.inl hqueue
  · rcases Multiset.mem_add.mp ht with hnew | hold
    · exact Or.inr (Or.inr ⟨t, Multiset.mem_coe.mp hnew, hfound⟩)
    · exact Or.inr (Or.inl ⟨t, hold, hfound⟩)

theorem engaged_exec {config : Config} {m : Memory} {t : Task} {ts : Multiset Task}
    {r : Reading} {delivery : Delivery}
    (h : Engaged (exec config m t r).1
      (((exec config m t r).2.tasks : Multiset Task) + ts) delivery) :
    Engaged m (t ::ₘ ts) delivery ∨ exists record,
      (exec config m t r).1.journal.lookup delivery.assignmentId = some record ∧
        record.status = .accepted := by
  generalize hresult : exec config m t r = result at h ⊢
  have heffect : Effect config m t result := hresult ▸ exec_effect config m t r
  have hself : forall d, t.pending? = some d ∨ t.running? = some d ->
      Engaged m (t ::ₘ ts) d :=
    fun d hd => engaged_iff.mpr (Or.inr ⟨t, Multiset.mem_cons_self t ts, hd⟩)
  have hqueued : forall d, d ∈ m.queue -> Engaged m (t ::ₘ ts) d :=
    fun d hd => engaged_iff.mpr (Or.inl hd)
  rcases engaged_left h with hqueue | ⟨t', ht', hfound⟩ | ⟨t', ht', hfound⟩
  · cases heffect with
    | quiet _ hsame _ _ => exact Or.inl (hqueued _ (hsame ▸ hqueue))
    | recorded _ _ _ hsame _ _ => exact Or.inl (hqueued _ (hsame ▸ hqueue))
    | submitted d =>
        rcases List.mem_append.mp hqueue with hold | hnew
        · exact Or.inl (hqueued _ hold)
        · rw [List.mem_singleton.mp hnew]
          exact Or.inl (hself d (Or.inl rfl))
    | taken htaken =>
        refine Or.inl (hqueued _ ?_)
        rw [htaken]
        exact List.mem_cons_of_mem _ hqueue
    | _ => exact Or.inl (hqueued _ hqueue)
  · exact Or.inl (engaged_iff.mpr (Or.inr ⟨t', Multiset.mem_cons_of_mem ht', hfound⟩))
  · have hleft : (forall t', t' ∈ result.2.tasks -> t.Leaves t') ->
        Engaged m (t ::ₘ ts) delivery := by
      intro hleaves
      have hleave := hleaves t' ht'
      rcases hfound with hpending | hrunning
      · rw [hleave.pending] at hpending
        cases hpending
      · exact hself delivery (Or.inr (hleave.running delivery hrunning))
    cases heffect with
    | quiet _ _ _ hleaves => exact Or.inl (hleft hleaves)
    | recorded _ _ _ _ _ hleaves => exact Or.inl (hleft hleaves)
    | admitted =>
        rw [List.mem_singleton.mp ht'] at hfound
        rcases hfound with hfound | hfound <;> cases hfound
    | @claimed d journal _ _ _ next hclaimed hnext =>
        rcases List.mem_cons.mp ht' with rfl | ht'
        · rcases hfound with hfound | hfound <;> cases hfound
        · rw [List.mem_singleton.mp ht'] at hfound
          have hdelivery : delivery = d := by
            rcases hfound with hpending | hrunning
            · exact Option.some.inj (hpending.symm.trans hnext)
            · cases next <;> first | (cases hrunning; done) | cases hnext
          subst hdelivery
          cases hclaimed with
          | new hfree hlookup =>
              refine Or.inr ⟨newRecord config.sha256 delivery.assignment
                delivery.envelope.sourceId, ?_, rfl⟩
              show journal.lookup delivery.assignment.assignmentId = _
              rw [hlookup, if_pos rfl]
    | submitted => cases ht'
    | @taken d rest htaken =>
        rw [List.mem_singleton.mp ht'] at hfound
        rcases hfound with hpending | hrunning
        · cases hpending
          refine Or.inl (hqueued _ ?_)
          rw [htaken]
          exact List.mem_cons_self
        · cases hrunning
    | executed d =>
        rw [List.mem_singleton.mp ht'] at hfound
        rcases hfound with hpending | hrunning
        · cases hpending
        · cases hrunning
          exact Or.inl (hself _ (Or.inl rfl))
    | resolved => cases ht'

theorem held_keeps (config : Config) :
    (machine config).Keeps .always (fun _ _ => True) (Held config) where
  drop h hle :=
    ⟨h.claims.drop hle, h.historic, fun delivery hd => h.firm delivery (hd.mono hle)⟩
  spawn {m ts entry} _ h _ := by
    constructor
    · exact (claims_keeps config).spawn trivial h.claims trivial
    · exact h.historic
    · intro delivery hd
      apply h.firm
      rw [engaged_iff] at hd ⊢
      rcases hd with hqueue | ⟨t, ht, hfound⟩
      · exact Or.inl hqueue
      · rcases Multiset.mem_add.mp ht with hold | hnew
        · exact Or.inr ⟨t, hold, hfound⟩
        · have hleaves := start_leaves entry t (Multiset.mem_coe.mp hnew)
          rw [hleaves.1, hleaves.2.2] at hfound
          rcases hfound with hfound | hfound <;> cases hfound
  crash {m ts} _ h := by
    constructor
    · exact (claims_keeps config).crash trivial h.claims
    · exact (historic_keeps config).crash h.claims h.historic
    · intro delivery hd
      rcases engaged_iff.mp hd with hqueue | ⟨t, ht, _⟩
      · cases hqueue
      · cases Multiset.notMem_zero t ht
  exec {m t ts r} _ h _ := by
    constructor
    · exact (claims_keeps config).exec trivial h.claims trivial
    · exact (historic_keeps config).exec h.claims h.historic trivial
    · intro delivery hd
      rcases engaged_exec hd with hold | ⟨record, hrecord, haccepted⟩
      · rcases h.firm delivery hold with ⟨record, hrecord, hfirm⟩
        exact (exec_gentle config m t r).firm _ record hrecord hfirm
      · exact ⟨record, hrecord, Or.inl haccepted⟩

theorem built_command (c : Command) : c.operation.Built := by
  cases c <;> trivial

theorem command_gentle {config : Config} {m : Memory} {c : Command} (h : opensAtRest m c)
    (storedId : Option String) :
    Gentle m.journal (intervene config c m).journal storedId := by
  cases c with
  | openJournal => exact reopen_gentle h
  | resolveUnknown assignmentId status description resolverId evidence nowMs =>
      exact resolve_gentle _ _ _ _ _ _ _ _ _

theorem claims_intervene {config : Config} {m : Memory} {ts : Multiset Task} (c : Command)
    (h : Claims config m ts) : Claims config (intervene config c m) ts :=
  { h with
    claimed := fun d hd => (h.claimed d hd).grows (grows_apply _ _ _) }

theorem Held.intervene {config : Config} {m : Memory} {ts : Multiset Task} {c : Command}
    (h : Held config m ts) (hrest : opensAtRest m c) :
    Held config (intervene config c m) ts where
  claims := claims_intervene c h.claims
  historic := h.historic.apply (built_command c)
  firm delivery hd := by
    rcases h.firm delivery hd with ⟨record, hrecord, hfirm⟩
    exact (command_gentle hrest none).firm _ record hrecord hfirm

/-- The runs in which another process opens the file only at rest. -/
abbrev AtRest : Condition Memory (Task ⊕ Command) Reading (Entry ⊕ Command) :=
  Condition.beside .always opensAtRest

theorem reaches_held {config : Config} {p : Pool Memory (Task ⊕ Command)}
    (h : (reconciled config).Reaches AtRest initialReconciled p) :
    Held config p.shared (ownTasks p.tasks) := by
  have hkeeps : (reconciled config).Keeps AtRest (fun _ _ => True)
      (fun m ts => Held config m (ownTasks ts)) :=
    (held_keeps config).beside (fun _ _ _ _ hheld hrest => hheld.intervene hrest)
  apply hkeeps.reaches h (fun _ _ => trivial)
  constructor
  · exact initial_claims config
  · exact ⟨[], by simp, rfl⟩
  · intro delivery hd
    rcases engaged_iff.mp hd with hqueue | ⟨t, ht, _⟩
    · cases hqueue
    · cases Multiset.notMem_zero t ht

/-!
## Undisturbed executions
-/

theorem gentle_undisturbed {p q : Pool Memory (Task ⊕ Command)}
    {a : Action Reading (Entry ⊕ Command)} {config : Config}
    (hheld : Held config p.shared (ownTasks p.tasks)) (hafter : Orderly q.shared.journal)
    (h : Gentle p.shared.journal q.shared.journal (storedBy p a)) : Undisturbed p a q where
  executing assignmentId hexecuting hother := by
    rcases hexecuting with ⟨delivery, hengaged, rfl⟩
    rcases hheld.firm delivery hengaged with ⟨record, hrecord, hfirm⟩
    have hkept := h.kept _ record hrecord hfirm hother
    constructor
    · rw [hkept, hrecord]
    · intro resource howner
      have hdemand := (hheld.historic.orderly.reserved.matched resource _).mp howner
      rw [← demand_congr (hkept.trans hrecord.symm)] at hdemand
      exact (hafter.reserved.matched resource _).mpr hdemand
  accepted assignmentId record hrecord haccepted hother :=
    h.kept assignmentId record hrecord (Or.inl haccepted) hother
  interrupted := h.interrupted

theorem step_gentle {config : Config} {p q : Pool Memory (Task ⊕ Command)}
    {a : Action Reading (Entry ⊕ Command)} (hmeets : Machine.Meets AtRest p a)
    (hstep : (reconciled config).step p a = some q) (hrestart : a ≠ .crash) :
    Gentle p.shared.journal q.shared.journal (storedBy p a) := by
  cases Machine.stepped_of_step hstep with
  | spawned e => exact .rfl _ _
  | @ran i t rest r hthread =>
      have hnext := Machine.nextTask_of_thread hthread
      cases t with
      | inl t =>
          have hstored : storedBy p (.run i r) = t.recording? := by
            simp [storedBy, hnext]
          rw [hstored]
          exact exec_gentle config p.shared t r
      | inr c =>
          rcases hmeets.exec hthread with ⟨others, _, hrest⟩
          exact command_gentle hrest _
  | stopped i => exact .rfl _ _
  | crashed => exact absurd rfl hrestart

theorem accepted_open {record : JournalRecord} (h : record.status = .accepted) :
    record.outcome = none := by
  cases houtcome : record.outcome with
  | none => rfl
  | some outcome =>
      have hagrees := record.agrees outcome houtcome
      rw [h] at hagrees
      exact absurd hagrees outcome.notAccepted

theorem interrupted_accepted {record : JournalRecord} (h : record.status = .accepted) :
    (Journal.interrupted record).status = .unknown := by
  unfold Journal.interrupted
  rw [dif_pos ⟨h, accepted_open h⟩]

theorem undisturbed_by_opening {config : Config} {p q : Pool Memory (Task ⊕ Command)}
    {i : Nat} {r : Reading} (hnext : p.nextTask i = some (.inr .openJournal))
    (hstep : (reconciled config).step p (.run i r) = some q) :
    Undisturbed p (.run i r) q <-> opensAtRest p.shared .openJournal := by
  have hshared : q.shared.journal = p.shared.journal.reopen := by
    rw [Machine.shared_of_run hnext hstep]
    rfl
  constructor
  · intro h assignmentId record hrecord haccepted
    have hstored : storedBy p (.run i r) ≠ some assignmentId := by
      simp [storedBy, hnext]
    have hkept := h.accepted assignmentId record hrecord haccepted hstored
    rw [hshared, lookup_reopen, hrecord] at hkept
    have hunknown := interrupted_accepted haccepted
    rw [Option.some.inj hkept, haccepted] at hunknown
    cases hunknown
  · intro hrest
    have hsame := lookup_reopen_at_rest hrest
    constructor
    · intro assignmentId _ _
      rw [hshared]
      exact ⟨hsame assignmentId, fun resource howner => howner⟩
    · intro assignmentId record hrecord _ _
      rw [hshared, hsame]
      exact hrecord
    · intro assignmentId record hrecord _ _
      rw [hshared, hsame] at hrecord
      exact hrecord

/-- While no other process opens the file during accepted work, every step of every run
except a restart leaves executions undisturbed; and opening the file leaves them so
exactly when no work is accepted. -/
theorem executions_undisturbed (config : Config) (p q : Pool Memory (Task ⊕ Command))
    (a : Action Reading (Entry ⊕ Command)) (hstep : (reconciled config).step p a = some q) :
    ((reconciled config).Reaches AtRest initialReconciled p -> Machine.Meets AtRest p a ->
      a ≠ .crash -> Undisturbed p a q) ∧
    (forall i r, a = .run i r -> p.nextTask i = some (.inr .openJournal) ->
      (Undisturbed p a q <-> forall assignmentId record,
        p.shared.journal.lookup assignmentId = some record -> record.status ≠ .accepted)) := by
  constructor
  · intro hreach hmeets hrestart
    have hafter := reaches_held (hreach.tail ⟨a, hmeets, hstep⟩)
    exact gentle_undisturbed (reaches_held hreach) hafter.historic.orderly
      (step_gentle hmeets hstep hrestart)
  · rintro i r rfl hnext
    exact undisturbed_by_opening hnext hstep

/-!
## A patrol under reconciliation

The robot walks. Another process opens the journal, before the walk or during it, and
determines that the walk has failed.
-/

def atRest (p : Pool Memory (Task ⊕ Command)) : Action Reading (Entry ⊕ Command) -> Bool
  | .run i _ =>
      match p.nextTask i with
      | some (.inr .openJournal) =>
          p.shared.journal.assignments.rows.all (fun record => record.status != .accepted)
      | _ => true
  | _ => true

theorem meets_of_atRest (p : Pool Memory (Task ⊕ Command))
    (a : Action Reading (Entry ⊕ Command)) (h : atRest p a = true) :
    Machine.Meets AtRest p a := by
  cases a with
  | run i r =>
      intro t others hnext _
      cases t with
      | inl t => trivial
      | inr c =>
          cases c with
          | openJournal =>
              intro assignmentId record hrecord
              simp only [atRest, hnext, List.all_eq_true] at h
              simpa using h record (lookup_eq_some hrecord).1
          | resolveUnknown => trivial
  | spawn e => cases e <;> trivial
  | stop i => trivial
  | crash => trivial

def patrolWalking (thread : Nat) : List (Action Reading (Entry ⊕ Command)) :=
  .spawn (.inl (.receive (patrolAssigned "c"))) ::
    List.replicate 4 (.run thread (patrolReading 0))

def patrolOpened (thread : Nat) : List (Action Reading (Entry ⊕ Command)) :=
  [.spawn (.inr .openJournal), .run thread (patrolReading 0)]

def patrolDetermined : Action Reading (Entry ⊕ Command) :=
  .spawn (.inr (.resolveUnknown "a" .failed "Stuck" "operator" "log" 0))

/-- The status of the walk, whether it has an outcome, and how many tasks wait for the
adapter. -/
def walkingView (p : Pool Memory (Task ⊕ Command)) : Option (AssignmentStatus × Bool) × Nat :=
  ((p.shared.journal.lookup "a").map (fun record => (record.status, record.outcome.isSome)),
    (p.threads.flatten.filter (fun t =>
      match t with
      | .inl (.settle _) => true
      | _ => false)).length)

set_option maxRecDepth 8000 in
theorem patrol_undisturbed :
    exists p q, (reconciled (patrolConfig 0)).runWhere atRest initialReconciled
        (patrolOpened 0 ++ patrolWalking 1 ++ [patrolDetermined]) = some p ∧
      (reconciled (patrolConfig 0)).step p (.run 2 (patrolReading 0)) = some q ∧
      walkingView p = (some (.accepted, false), 1) ∧
      Undisturbed p (.run 2 (patrolReading 0)) q := by
  have hview : ((reconciled (patrolConfig 0)).runWhere atRest initialReconciled
      (patrolOpened 0 ++ patrolWalking 1 ++ [patrolDetermined])).map (fun p =>
        (walkingView p, atRest p (.run 2 (patrolReading 0)),
          ((reconciled (patrolConfig 0)).step p (.run 2 (patrolReading 0))).isSome)) =
      some ((some (.accepted, false), 1), true, true) := by
    decide
  rcases Option.map_eq_some_iff.mp hview with ⟨p, hrun, hviews⟩
  rcases Prod.mk.inj hviews with ⟨hwalking, hviews⟩
  rcases Prod.mk.inj hviews with ⟨hrest, hstepped⟩
  rcases Option.isSome_iff_exists.mp hstepped with ⟨q, hstep⟩
  refine ⟨p, q, hrun, hstep, hwalking, ?_⟩
  apply (executions_undisturbed (patrolConfig 0) p q _ hstep).1
  · exact Machine.runWhere_reaches meets_of_atRest hrun
  · exact meets_of_atRest p _ hrest
  · exact fun h => by cases h

set_option maxRecDepth 8000 in
/-- The walk has failed in the journal while the adapter still walks, and the opening of
the file alone has taken away that it was accepted. -/
theorem patrol_disturbed :
    (exists p, (reconciled (patrolConfig 0)).run initialReconciled
        (patrolWalking 0 ++ patrolOpened 1 ++ [patrolDetermined, .run 2 (patrolReading 0)]) =
          some p ∧ walkingView p = (some (.failed, true), 1)) ∧
    ¬ forall p q a, (reconciled (patrolConfig 0)).Reaches .always initialReconciled p ->
      (reconciled (patrolConfig 0)).step p a = some q -> a ≠ .crash -> Undisturbed p a q := by
  constructor
  · have hview : ((reconciled (patrolConfig 0)).run initialReconciled
        (patrolWalking 0 ++ patrolOpened 1 ++
          [patrolDetermined, .run 2 (patrolReading 0)])).map walkingView =
        some (some (.failed, true), 1) := by
      decide
    exact Option.map_eq_some_iff.mp hview
  · intro hall
    have hview : ((reconciled (patrolConfig 0)).run initialReconciled
        (patrolWalking 0 ++ [.spawn (.inr .openJournal)])).map (fun p =>
          (walkingView p, match p.nextTask 1 with
            | some (.inr .openJournal) => true
            | _ => false)) =
        some ((some (.accepted, false), 1), true) := by
      decide
    rcases Option.map_eq_some_iff.mp hview with ⟨p, hrun, hviews⟩
    rcases Prod.mk.inj hviews with ⟨hwalking, hopening⟩
    have hnext : p.nextTask 1 = some (.inr .openJournal) := by
      split at hopening
      next hnext => exact hnext
      next => cases hopening
    rcases Option.map_eq_some_iff.mp (Prod.mk.inj hwalking).1 with ⟨record, hrecord, hfields⟩
    rcases Machine.nextTask_eq_some hnext with ⟨rest, hthread⟩
    have hstep := Machine.step_run (M := reconciled (patrolConfig 0)) (r := patrolReading 0)
      hthread rfl
    have hundisturbed := hall p _ _ (Machine.run_reaches hrun) hstep (fun h => by cases h)
    exact (undisturbed_by_opening hnext hstep).mp hundisturbed "a" record hrecord
      (Prod.mk.inj hfields).1

end Ump.Participant
