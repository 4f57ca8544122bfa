import Ump.Participant.Assigned

/-!
# One issuer of an assignment

## What a participant says of it

The participant sends its answers to all peers, so a coordinator hears what another issuer is
told of the same assignment id. The condition below asks that the deliveries of one id come
from one issuer, and that a repeated delivery is answered as the first one was. Under it, what
the participant says of the id is what its journal holds for that issuer.
-/

namespace Ump.Participant

open Foundation Journal

def Known (status : AssignmentStatus) : Prop :=
  status ≠ .accepted ∧ status ≠ .unknown

def Task.subject? : Task -> Option String
  | .claim delivery => some delivery.assignment.assignmentId
  | .send message _ _ => message.says?.map Prod.fst
  | _ => none

/-- Nothing has been said of the assignment, and nothing is about to be. -/
structure Unspoken (assignmentId : String) (m : Memory) (ts : Multiset Task) : Prop where
  tasks : forall t, t ∈ ts -> t.subject? ≠ some assignmentId
  sent : forall publication, publication ∈ m.sent ->
    publication.message.says?.map Prod.fst ≠ some assignmentId

def Unclaimed (assignmentId : String) (ts : Multiset Task) : Prop :=
  forall delivery, .claim delivery ∈ ts -> delivery.assignment.assignmentId ≠ assignmentId

/-- The journal holds the status, or the assignment was refused and left no record. -/
def Upheld (journal : Journal) (assignmentId : String) (status : AssignmentStatus) : Prop :=
  Holds journal assignmentId (fun stored => stored.status = status) ∨
    (status = .rejected ∧ journal.lookup assignmentId = none)

/-- Deliveries of the assignment come from the issuer. The first one meets a participant that
has said nothing of it. A later one is refused while the journal has no record of the
assignment and will get none, or it meets the record and passes the checks before it. -/
def OneIssuer (config : Config) (issuerId assignmentId : String) :
    Condition Memory Task Reading Entry
  | m, ts, .exec (.assignment envelope) r =>
      forall assignment, assignmentOf config.robotId envelope.payload = .ok (some assignment) ->
        assignment.assignmentId = assignmentId ->
          envelope.sourceId = issuerId ∧
            ((m.journal.lookup assignmentId = none ∧ Unspoken assignmentId m ts) ∨
              (m.journal.lookup assignmentId = none ∧ Unclaimed assignmentId ts ∧
                checkDelivery config assignment r ≠ .ok ()) ∨
              (m.journal.lookup assignmentId ≠ none ∧
                checkDelivery config assignment r = .ok ()))
  | _, _, _ => True

theorem sentBy_of_oneIssuer {config : Config} {issuerId assignmentId : String} {m : Memory}
    {ts : Multiset Task} {move : Move Task Reading Entry}
    (h : OneIssuer config issuerId assignmentId m ts move) :
    SentBy config issuerId assignmentId m ts move := by
  cases move with
  | exec t r =>
      cases t with
      | assignment envelope => exact fun assignment hdecoded hid => (h assignment hdecoded hid).1
      | _ => trivial
  | spawn entry => trivial

/-- What has been said of the order is upheld, and nothing has been before its first claim. -/
structure Sole (order : Assignment) (m : Memory) (ts : Multiset Task) : Prop where
  first : forall delivery rest, ts = .claim delivery ::ₘ rest ->
    delivery.assignment.assignmentId = order.assignmentId ->
      m.journal.lookup order.assignmentId = none -> Unspoken order.assignmentId m rest
  sending : forall t message status, t ∈ ts -> t.message? = some message ->
    message.says? = some (order.assignmentId, status) -> Known status ->
      Upheld m.journal order.assignmentId status
  sent : forall publication status, publication ∈ m.sent ->
    publication.message.says? = some (order.assignmentId, status) -> Known status ->
      Upheld m.journal order.assignmentId status

/-!
## Steps
-/

theorem subject_of_message {t : Task} {message : Message} {said : String × AssignmentStatus}
    (hmessage : t.message? = some message) (hreported : message.says? = some said) :
    t.subject? = some said.1 := by
  cases t with
  | send carried stamp cause =>
      cases hmessage
      exact congrArg (Option.map Prod.fst) hreported
  | sendState snapshot nowMs cause stream =>
      cases hmessage
      cases hreported
  | _ => cases hmessage

theorem journal_of_refused {config : Config} {m : Memory} {r : Reading} {delivery : Delivery}
    {t : Task} {message : Message} {assignmentId : String} {status : AssignmentStatus}
    (ht : t ∈ (exec config m (.claim delivery) r).2.tasks) (hmessage : t.message? = some message)
    (hreported : message.says? = some (assignmentId, status)) (hknown : Known status) :
    (exec config m (.claim delivery) r).1.journal = m.journal := by
  rw [exec] at ht ⊢
  cases hclaim : m.journal.claim config.sha256 delivery.assignment delivery.envelope.sourceId
      delivery.reading.nowMs with
  | error e => rfl
  | ok claimed =>
      rcases claimed with ⟨result, journal⟩
      rw [hclaim] at ht
      dsimp only [attempt] at ht ⊢
      cases claim_eq_ok hclaim with
      | new hfree hlookup =>
          simp only [Flow.tasks_next, List.mem_cons, List.not_mem_nil, or_false] at ht
          rcases ht with rfl | rfl
          · cases hmessage
            cases hreported
            exact absurd rfl hknown.1
          · split_ifs at hmessage <;> cases hmessage
      | _ => exact journal_answer _ _ _ _

theorem says_of_report {outcome : Outcome} {nowMs : Int} {cause : Envelope} {t : Task}
    {message : Message} {said : String × AssignmentStatus} (ht : t ∈ report outcome nowMs cause)
    (hmessage : t.message? = some message) (hreported : message.says? = some said) :
    said = (outcome.assignmentId, outcome.status) := by
  unfold report at ht
  simp only [List.mem_cons, List.not_mem_nil, or_false] at ht
  rcases ht with rfl | rfl
  · cases hmessage
    cases hreported
    rfl
  · cases hmessage

theorem said_successor {config : Config} {m : Memory} {t t' : Task} {ts : Multiset Task}
    {r : Reading} (hids : Identified m (t ::ₘ ts)) (ht' : t' ∈ (exec config m t r).2.tasks)
    {message : Message} (hmessage : t'.message? = some message) {assignmentId : String}
    {status : AssignmentStatus} (hreported : message.says? = some (assignmentId, status))
    (hknown : Known status) :
    Upheld (exec config m t r).1.journal assignmentId status ∨
      (exists envelope assignment description, t = .assignment envelope ∧
        assignmentOf config.robotId envelope.payload = .ok (some assignment) ∧
        assignment.assignmentId = assignmentId ∧
        checkDelivery config assignment r = .error (.rejected description) ∧
        m.journal.lookup assignmentId ≠ none) ∨
      exists delivery stored, t = .claim delivery ∧
        delivery.assignment.assignmentId = assignmentId ∧
        m.journal.lookup assignmentId = some stored ∧
        (stored.fingerprint ≠ assignmentFingerprint config.sha256 delivery.assignment ∨
          stored.issuerId ≠ delivery.envelope.sourceId) := by
  have hmem : t ∈ t ::ₘ ts := Multiset.mem_cons_self t ts
  have hgrows := exec_grows config m t r
  cases exec_succeeds config m r ht' with
  | @refused envelope assignment description outcome _ hdecoded hrefused hown hanswers =>
      cases hmessage
      rw [says_of_answers hanswers (own_assignmentId hown), own_status hown] at hreported
      cases hreported
      by_cases hfree : m.journal.lookup assignment.assignmentId = none
      · left
        refine Or.inr ⟨rfl, ?_⟩
        apply Option.eq_none_iff_forall_ne_some.mpr
        intro record hrecord
        rcases lookup_of_exec hfree hrecord with ⟨delivery, hclaim, _⟩
        cases hclaim
      · exact Or.inr (Or.inl ⟨envelope, assignment, description, rfl, hdecoded, rfl, hrefused,
          hfree⟩)
  | @answered delivery outcome _ hanswer hanswers =>
      cases hmessage
      have hjournal := journal_of_refused ht' rfl hreported hknown
      rw [says_of_answers hanswers (id_of_claimAnswer hids hanswer)] at hreported
      cases hreported
      rw [hjournal]
      cases hanswer with
      | replay hstored houtcome => exact Or.inl (Or.inl ⟨_, _, hstored, houtcome, rfl⟩)
      | conflict hstored hdiffers _ =>
          exact Or.inr (Or.inr ⟨delivery, _, rfl, rfl, hstored, hdiffers⟩)
      | resourceConflict hfree hown => exact Or.inl (Or.inr ⟨own_status hown, hfree⟩)
      | uncertain _ _ hown => exact absurd (own_status hown) hknown.2
  | acknowledged hfree =>
      cases hmessage
      cases hreported
      exact absurd rfl hknown.1
  | @queried _ record hrequested =>
      cases hmessage
      rcases requested_eq_some hrequested with ⟨id, _, hrecord, _⟩
      rcases says_snapshotOf hreported with ⟨stored, hstored, heq⟩
      cases heq
      rw [<- (lookup_eq_some hrecord).2] at hrecord
      exact Or.inl (Or.inl (Holds.grows ⟨record, stored, hrecord, hstored, rfl⟩ hgrows))
  | @alreadyTerminal _ record outcome hrequested houtcome =>
      cases hmessage
      cases hreported
      rcases requested_eq_some hrequested with ⟨id, _, hrecord, _⟩
      have hid := hids.stored id _ _ hrecord houtcome
      rw [<- hid] at hrecord
      exact Or.inl (Or.inl (Holds.grows ⟨record, outcome, hrecord, houtcome, rfl⟩ hgrows))
  | @superseded delivery _ stored record _ hrecord hstored ht =>
      cases says_of_report ht hmessage hreported
      have hid := hids.stored _ _ _ hrecord hstored
      rw [<- hid] at hrecord
      exact Or.inl (Or.inl (Holds.grows ⟨record, stored, hrecord, hstored, rfl⟩ hgrows))
  | @completed delivery outcome nowMs journal _ hcomplete ht =>
      cases says_of_report ht hmessage hreported
      have hid := hids.pending (.complete delivery outcome nowMs) delivery outcome hmem rfl
      rw [hid, exec_journal]
      show Upheld (m.journal.apply config.sha256 _) _ _ ∨ _
      rw [apply_complete, hcomplete]
      rcases holds_of_complete hcomplete with ⟨record, stored, hrecord, hstored, hcanonical⟩
      exact Or.inl (Or.inl ⟨record, stored, hrecord, hstored,
        Outcome.status_of_canonical hcanonical⟩)
  | @cancellationRecorded assignment description envelope outcome journal hown hcomplete =>
      cases hmessage
      cases hreported
      rw [own_assignmentId hown, exec_journal, Task.operation?, hown]
      show Upheld (m.journal.apply config.sha256 _) _ _ ∨ _
      rw [apply_complete, hcomplete]
      rcases holds_of_complete hcomplete with ⟨record, stored, hrecord, hstored, hcanonical⟩
      exact Or.inl (Or.inl ⟨record, stored, hrecord, hstored,
        Outcome.status_of_canonical hcanonical⟩)
  | claimed hpending _ =>
      cases t' <;> first | (cases hpending; done) | cases hmessage
  | stated =>
      cases hmessage
      cases hreported
  | _ => first | (cases hmessage; done) | (cases hmessage; cases hreported)

theorem subject_of_report {outcome : Outcome} {nowMs : Int} {cause : Envelope} {t : Task}
    {assignmentId : String} (ht : t ∈ report outcome nowMs cause)
    (h : t.subject? = some assignmentId) : assignmentId = outcome.assignmentId := by
  unfold report at ht
  simp only [List.mem_cons, List.not_mem_nil, or_false] at ht
  rcases ht with rfl | rfl
  · cases h
    rfl
  · cases h

theorem subject_successor {config : Config} {m : Memory} {t t' : Task} {r : Reading}
    (ht' : t' ∈ (exec config m t r).2.tasks) {assignmentId : String}
    (hfree : m.journal.lookup assignmentId = none) {ts : Multiset Task}
    (hids : Identified m (t ::ₘ ts)) (hsubject : t'.subject? = some assignmentId) :
    (exists envelope assignment, t = .assignment envelope ∧
        assignmentOf config.robotId envelope.payload = .ok (some assignment) ∧
        assignment.assignmentId = assignmentId) ∨
      t.subject? = some assignmentId := by
  have hmem : t ∈ t ::ₘ ts := Multiset.mem_cons_self t ts
  -- a record of the assignment contradicts `hfree`
  have habsent : forall id record, m.journal.lookup id = some record -> id ≠ assignmentId := by
    rintro id record hrecord rfl
    rw [hfree] at hrecord
    cases hrecord
  cases exec_succeeds config m r ht' with
  | @admitted envelope assignment hdecoded _ =>
      cases hsubject
      exact Or.inl ⟨envelope, assignment, rfl, hdecoded, rfl⟩
  | @refused envelope assignment _ outcome message hdecoded _ hown hmessage =>
      rw [Task.subject?, says_of_answers hmessage (own_assignmentId hown)] at hsubject
      cases hsubject
      exact Or.inl ⟨envelope, assignment, rfl, hdecoded, rfl⟩
  | answered hanswer hmessage =>
      rw [Task.subject?, says_of_answers hmessage (id_of_claimAnswer hids hanswer)] at hsubject
      exact Or.inr hsubject
  | acknowledged _ => exact Or.inr hsubject
  | claimed hpending _ =>
      cases t' <;> first | (cases hpending; done) | cases hsubject
  | superseded hrecord hstored ht =>
      have hid := subject_of_report ht hsubject
      rw [hids.stored _ _ _ hrecord hstored] at hid
      exact absurd hid.symm (habsent _ _ hrecord)
  | @completed delivery outcome nowMs _ _ hcomplete ht =>
      have hid := subject_of_report ht hsubject
      rw [hids.pending (.complete delivery outcome nowMs) delivery outcome hmem rfl] at hid
      rcases complete_eq_ok hcomplete with ⟨_, stored, hstored, _⟩
      exact absurd hid.symm (habsent _ _ hstored)
  | @queried _ record hrequested =>
      rcases requested_eq_some hrequested with ⟨id, _, hrecord, _⟩
      rcases Option.map_eq_some_iff.mp hsubject with ⟨said, hsaid, rfl⟩
      rcases says_snapshotOf hsaid with ⟨stored, _, rfl⟩
      exact absurd (lookup_eq_some hrecord).2.symm (habsent id record hrecord)
  | @alreadyTerminal _ record outcome hrequested houtcome =>
      rcases requested_eq_some hrequested with ⟨id, _, hrecord, _⟩
      cases hsubject
      exact absurd (hids.stored id record outcome hrecord houtcome).symm (habsent id record hrecord)
  | cancellationRecorded hown hcomplete =>
      rw [Task.subject?, Message.says?, own_assignmentId hown] at hsubject
      rcases complete_eq_ok hcomplete with ⟨_, stored, hstored, _⟩
      exact absurd (Option.some.inj hsubject) (habsent _ _ hstored)
  | _ => cases hsubject

/-!
## The invariant
-/

theorem Upheld.grows {journal journal' : Journal} {assignmentId : String}
    {status : AssignmentStatus} (h : Upheld journal assignmentId status)
    (hgrows : Grows journal journal')
    (hfree : journal.lookup assignmentId = none -> journal'.lookup assignmentId = none) :
    Upheld journal' assignmentId status := by
  rcases h with hholds | ⟨hrejected, hnone⟩
  · exact Or.inl (hholds.grows hgrows)
  · exact Or.inr ⟨hrejected, hfree hnone⟩

theorem Unspoken.drop {assignmentId : String} {m : Memory} {ts ts' : Multiset Task}
    (h : Unspoken assignmentId m ts) (hle : ts' ≤ ts) : Unspoken assignmentId m ts' :=
  ⟨fun t ht => h.tasks t (Multiset.mem_of_le hle ht), h.sent⟩

section

variable {config : Config} {issuerId : String} {issued : List Envelope} {order : Assignment}
variable {m : Memory} {t : Task} {ts ts' : Multiset Task} {r : Reading}

theorem Sole.drop (h : Sole order m ts) (hle : ts' ≤ ts) :
    Sole order m ts' where
  first delivery rest hts hid hfree := by
    rcases Multiset.le_iff_exists_add.mp hle with ⟨others, rfl⟩
    have hbag : ts' + others = .claim delivery ::ₘ (rest + others) := by
      rw [hts, Multiset.cons_add]
    exact (h.first delivery _ hbag hid hfree).drop (Multiset.le_add_right rest others)
  sending t message status ht := h.sending t message status (Multiset.mem_of_le hle ht)
  sent := h.sent

theorem Sole.unspoken {delivery : Delivery}
    (h : Sole order m (.claim delivery ::ₘ ts))
    (hid : delivery.assignment.assignmentId = order.assignmentId)
    (hfree : m.journal.lookup order.assignmentId = none) :
    Unspoken order.assignmentId m ts :=
  h.first delivery ts rfl hid hfree

theorem Sole.stays_free (h : Sole order m (t ::ₘ ts))
    (hsaid : ¬ Unspoken order.assignmentId m ts)
    (hfree : m.journal.lookup order.assignmentId = none) :
    (exec config m t r).1.journal.lookup order.assignmentId = none := by
  apply Option.eq_none_iff_forall_ne_some.mpr
  intro record hrecord
  rcases lookup_of_exec hfree hrecord with ⟨delivery, rfl, hid, _⟩
  exact hsaid (h.unspoken hid hfree)

theorem upheld_successor (hassigned : Assigned config issuerId issued order m (t ::ₘ ts))
    (hids : Identified m (t ::ₘ ts)) (hC : OneIssuer config issuerId order.assignmentId m ts
      (.exec t r)) {t' : Task} (ht' : t' ∈ (exec config m t r).2.tasks) {message : Message}
    {status : AssignmentStatus} (hmessage : t'.message? = some message)
    (hreported : message.says? = some (order.assignmentId, status)) (hknown : Known status) :
    Upheld (exec config m t r).1.journal order.assignmentId status := by
  rcases said_successor hids ht' hmessage hreported hknown with hupheld |
    ⟨envelope, assignment, description, rfl, hdecoded, hid, hrefused, hsome⟩ |
    ⟨delivery, stored, rfl, hid, hstored, hdiffers⟩
  · exact hupheld
  · rcases (hC assignment hdecoded hid).2 with ⟨hnone, _⟩ | ⟨hnone, _⟩ | ⟨_, hchecked⟩
    · exact absurd hnone hsome
    · exact absurd hnone hsome
    · rw [hrefused] at hchecked
      cases hchecked
  · have hmem : .claim delivery ∈ Task.claim delivery ::ₘ ts := Multiset.mem_cons_self _ ts
    rcases hassigned.record stored hstored with ⟨hissuer, hfingerprint, _⟩
    have hsource := (hassigned.caused _ delivery.envelope hmem (by rw [<- hid]; rfl)).1
    rcases hdiffers with hdiffers | hdiffers
    · rw [hassigned.claiming delivery hmem hid] at hdiffers
      exact absurd hfingerprint hdiffers
    · exact absurd (hissuer.trans hsource.symm) hdiffers

theorem Sole.first_exec (h : Sole order m (t ::ₘ ts))
    (hids : Identified m (t ::ₘ ts)) (hC : OneIssuer config issuerId order.assignmentId m ts
      (.exec t r)) {delivery : Delivery} {rest : Multiset Task}
    (hbag : ((exec config m t r).2.tasks : Multiset Task) + ts = .claim delivery ::ₘ rest)
    (hid : delivery.assignment.assignmentId = order.assignmentId)
    (hfree : (exec config m t r).1.journal.lookup order.assignmentId = none) :
    Unspoken order.assignmentId (exec config m t r).1 rest := by
  have hbefore : m.journal.lookup order.assignmentId = none := by
    apply Option.eq_none_iff_forall_ne_some.mpr
    intro record hrecord
    rcases exec_grows config m t r _ record hrecord with ⟨after, hafter, _⟩
    rw [hfree] at hafter
    cases hafter
  -- a delivery of the order meets a participant that has said nothing of it, or is refused
  have hquiet : forall envelope assignment, t = .assignment envelope ->
      assignmentOf config.robotId envelope.payload = .ok (some assignment) ->
        assignment.assignmentId = order.assignmentId -> Unspoken order.assignmentId m ts ∨
          (Unclaimed order.assignmentId ts ∧ checkDelivery config assignment r ≠ .ok ()) := by
    rintro envelope assignment rfl hdecoded hsame
    rcases (hC assignment hdecoded hsame).2 with ⟨_, hunspoken⟩ | ⟨_, hrefused⟩ | ⟨hsome, _⟩
    · exact Or.inl hunspoken
    · exact Or.inr hrefused
    · exact absurd hbefore hsome
  have hclaim : .claim delivery ∈ ((exec config m t r).2.tasks : Multiset Task) + ts := by
    rw [hbag]
    exact Multiset.mem_cons_self _ rest
  by_cases hnew : .claim delivery ∈ (exec config m t r).2.tasks
  · rcases claim_of_exec hnew with ⟨rfl, hdecoded, htasks, hsent⟩
    rw [htasks, Multiset.coe_singleton, Multiset.singleton_add] at hbag
    rw [<- (Multiset.cons_inj_right _).mp hbag]
    rcases hquiet _ _ rfl hdecoded hid with hunspoken | ⟨_, hrefused⟩
    · exact ⟨hunspoken.tasks, by rw [hsent]; exact hunspoken.sent⟩
    · exact absurd (checked_of_exec hnew) hrefused
  · have hold : .claim delivery ∈ ts := by
      rcases Multiset.mem_add.mp hclaim with hmem | hmem
      · exact absurd (Multiset.mem_coe.mp hmem) hnew
      · exact hmem
    rcases Multiset.exists_cons_of_mem hold with ⟨others, rfl⟩
    rw [Multiset.add_cons] at hbag
    rw [<- (Multiset.cons_inj_right _).mp hbag]
    have hunspoken := h.first delivery (t ::ₘ others) (Multiset.cons_swap _ _ _) hid hbefore
    have hsilent := hunspoken.tasks t (Multiset.mem_cons_self t others)
    have hclaiming : .claim delivery ∈ Task.claim delivery ::ₘ others :=
      Multiset.mem_cons_self _ others
    constructor
    · intro t' ht' hsubject
      rcases Multiset.mem_add.mp ht' with hmem | hmem
      · rcases subject_successor (Multiset.mem_coe.mp hmem) hbefore hids hsubject with
          ⟨envelope, assignment, hassignment, hdecoded, hsame⟩ | hsame
        · rcases hquiet envelope assignment hassignment hdecoded hsame with hnone | ⟨hnone, _⟩
          · exact hnone.tasks _ hclaiming (congrArg some hid)
          · exact hnone delivery hclaiming hid
        · exact hsilent hsame
      · exact hunspoken.tasks t' (Multiset.mem_cons_of_mem hmem) hsubject
    · intro publication hpublication hreported
      rcases Option.map_eq_some_iff.mp hreported with ⟨said, hsaid, hsubject⟩
      rcases sent_of_exec hpublication (concerns_of_reported hsaid) with hsent | ⟨stamp, rfl⟩
      · exact hunspoken.sent publication hsent hreported
      · exact hsilent hreported

theorem Sole.exec (h : Sole order m (t ::ₘ ts))
    (hassigned : Assigned config issuerId issued order m (t ::ₘ ts))
    (hids : Identified m (t ::ₘ ts))
    (hC : OneIssuer config issuerId order.assignmentId m ts (.exec t r)) :
    Sole order (exec config m t r).1
      (((exec config m t r).2.tasks : Multiset Task) + ts) := by
  have hmem : t ∈ t ::ₘ ts := Multiset.mem_cons_self t ts
  have hgrows := exec_grows config m t r
  -- what has been said of the order keeps its record away
  have hupheld : forall {status}, ¬ Unspoken order.assignmentId m ts ->
      Upheld m.journal order.assignmentId status ->
        Upheld (Participant.exec config m t r).1.journal order.assignmentId status :=
    fun hsaid hbefore => hbefore.grows hgrows (h.stays_free hsaid)
  constructor
  · intro delivery rest hbag hid hfree
    exact h.first_exec hids hC hbag hid hfree
  · intro t' message status ht' hmessage hreported hknown
    rcases Multiset.mem_add.mp ht' with hnew | hold
    · exact upheld_successor hassigned hids hC (Multiset.mem_coe.mp hnew) hmessage hreported hknown
    · refine hupheld (fun hnone => hnone.tasks t' hold ?_)
        (h.sending t' message status (Multiset.mem_cons_of_mem hold) hmessage hreported hknown)
      exact subject_of_message hmessage hreported
  · intro publication status hpublication hreported hknown
    rcases sent_of_exec hpublication (concerns_of_reported hreported) with hold | ⟨stamp, rfl⟩
    · refine hupheld (fun hnone => ?_) (h.sent publication status hold hreported hknown)
      exact hnone.sent publication hold (congrArg (Option.map Prod.fst) hreported)
    · have hjournal : (Participant.exec config m
          (.send publication.message stamp publication.cause) r).1.journal = m.journal :=
        exec_journal config m _ r
      rw [hjournal]
      exact h.sending _ _ status hmem rfl hreported hknown

end

theorem sole_keeps (config : Config) (issuerId : String) (issued : List Envelope)
    (order : Assignment) :
    (machine config).Keeps
      ((ReceivesFrom issuerId issued).both (OneIssuer config issuerId order.assignmentId))
      (fun m ts => Identified m ts ∧ Assigned config issuerId issued order m ts) (Sole order) where
  drop := Sole.drop
  spawn {m ts entry} _ h _ := by
    have hstart : forall t, t ∈ (start entry : Multiset Task) -> Starts entry t :=
      fun t ht => start_cases (Multiset.mem_coe.mp ht)
    constructor
    · intro delivery rest hbag hid hfree
      have hclaim : .claim delivery ∈ ts + (start entry : Multiset Task) := by
        show _ ∈ ts + ((machine config).start entry : Multiset Task)
        rw [hbag]
        exact Multiset.mem_cons_self _ rest
      rcases Multiset.mem_add.mp hclaim with hold | hnew
      · rcases Multiset.exists_cons_of_mem hold with ⟨others, rfl⟩
        rw [Multiset.cons_add] at hbag
        rw [<- (Multiset.cons_inj_right _).mp hbag]
        have hunspoken := h.unspoken hid hfree
        refine ⟨fun t ht => ?_, hunspoken.sent⟩
        rcases Multiset.mem_add.mp ht with hmem | hmem
        · exact hunspoken.tasks t hmem
        · cases hstart _ hmem <;> exact fun hnone => by cases hnone
      · cases hstart _ hnew
    · intro t message status ht hmessage
      rcases Multiset.mem_add.mp ht with hold | hnew
      · exact h.sending t message status hold hmessage
      · cases hstart _ hnew <;> cases hmessage
    · exact h.sent
  crash {m ts} _ h := by
    have hgrows := grows_reopen m.journal
    have hfree : m.journal.lookup order.assignmentId = none ->
        m.journal.reopen.lookup order.assignmentId = none := by
      intro hnone
      rw [lookup_reopen, hnone]
      rfl
    constructor
    · intro delivery rest hbag
      exact absurd hbag.symm (Multiset.cons_ne_zero)
    · intro t message status ht
      cases Multiset.notMem_zero _ ht
    · intro publication status hpublication hreported hknown
      exact (h.sent publication status hpublication hreported hknown).grows hgrows hfree
  exec hJ h hC := h.exec hJ.2 hJ.1 hC.2

/-- In every run in which one issuer sends the order, what the participant has said of it is
what the journal holds for that issuer. -/
theorem reaches_sole {config : Config} {issuerId : String} {issued : List Envelope}
    {order : Assignment} (hcarries : Carries config issued order) {p : Pool Memory Task}
    (h : (machine config).Reaches
      ((ReceivesFrom issuerId issued).both (OneIssuer config issuerId order.assignmentId))
      initial p) :
    Assigned config issuerId issued order p.shared p.tasks ∧ Sole order p.shared p.tasks := by
  have hassigned : forall {q : Pool Memory Task}, (machine config).Reaches
      ((ReceivesFrom issuerId issued).both (OneIssuer config issuerId order.assignmentId))
      initial q -> Assigned config issuerId issued order q.shared q.tasks :=
    fun hq => reaches_assigned hcarries
      (hq.weaken (fun _ _ _ hC => ⟨hC.1, sentBy_of_oneIssuer hC.2⟩))
  refine ⟨hassigned h, (sole_keeps config issuerId issued order).reaches h ?_ ?_⟩
  · intro q hq
    exact ⟨reaches_settles (identified_settles config) (hq.weaken (fun _ _ _ _ => trivial)),
      hassigned hq⟩
  · constructor
    · intro delivery rest hbag
      exact absurd hbag.symm Multiset.cons_ne_zero
    · intro t message status ht
      cases Multiset.notMem_zero _ ht
    · intro publication status hsent
      cases hsent

end Ump.Participant
