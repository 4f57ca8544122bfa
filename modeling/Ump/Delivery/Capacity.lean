import Ump.Delivery.Outbox

/-!
# Capacity of the outbox

## The methods of the connection

Each method of the outbox as its statements on one SQLite connection. A batch reads and
inserts row by row, and any of its statements may raise.
-/

namespace Ump.Delivery

open Foundation

namespace Outbox

abbrev Method := Sql Exn Outbox

namespace Connection

def collect : List ((String × String) × Text) -> List Item -> List Item -> Method (List Item)
  | _, newItems, [] => pure newItems
  | seen, newItems, item :: rest => do
      Sql.compute (refuseRepeated seen item)
      let row <- Sql.select (fun outbox => outbox.row? item.key)
      match row with
      | some row => do
          Sql.compute (refuseStored row item)
          collect ((item.key, item.body) :: seen) newItems rest
      | none => collect ((item.key, item.body) :: seen) (addNew newItems item) rest

def insertAll (nowMs : Int) : List Item -> Method Unit
  | [] => pure ()
  | item :: rest => do
      Sql.execute (fun outbox => (outbox.insertOne nowMs item).map (fun outbox => ((), outbox)))
      insertAll nowMs rest

def enqueueMany (limits : Limits) (deliveries : List (String × Envelope)) (nowMs : Int) :
    Method Unit :=
  match deliveries with
  | [] => pure ()
  | _ => do
      let items <- Sql.compute (encodeAll deliveries)
      Sql.transaction (do
        let pending <- Sql.select Outbox.pending
        let newItems <- collect [] [] items
        Sql.compute (checkPending limits pending newItems)
        let operationalPending <- Sql.select Outbox.operationalPending
        Sql.compute (checkOperational limits operationalPending newItems)
        insertAll nowMs newItems
        Sql.commit
        pure ())

def ready (nowMs limit : Int) (stream? : Option Stream) : Method (List PendingDelivery) := do
  Sql.compute (refuseWhen (decide (limit < 1)) "delivery limit must be positive")
  Sql.compute (bindInteger nowMs)
  Sql.compute (bindInteger limit)
  let rows <- Sql.select (fun outbox => outbox.readyRows nowMs limit stream?)
  Sql.compute (decodeAll rows)

def delivered (key : String × String) (nowMs : Int) : Method Unit :=
  Sql.execute (fun outbox => (outbox.delivered key nowMs).map (fun outbox => ((), outbox)))

def failed (key : String × String) (nowMs baseDelayMs maximumDelayMs : Int) : Method Unit := do
  let row <- Sql.select (fun outbox => outbox.attempted key)
  match row with
  | none => pure ()
  | some row => Sql.execute (fun outbox =>
      (outbox.postpone key (row.attempts + 1) nowMs
        (nowMs + delay (row.attempts + 1) baseDelayMs maximumDelayMs)).map
          (fun outbox => ((), outbox)))

end Connection

/-!
## Sequences of operations
-/

inductive Operation where
  | enqueueMany (deliveries : List (String × Envelope)) (nowMs : Int)
  | ready (nowMs limit : Int) (stream? : Option Stream)
  | delivered (peerId messageId : String) (nowMs : Int)
  | failed (peerId messageId : String) (nowMs baseDelayMs maximumDelayMs : Int)
  | reopen

def method (limits : Limits) : Operation -> Method Unit
  | .enqueueMany deliveries nowMs => Connection.enqueueMany limits deliveries nowMs
  | .ready nowMs limit stream? => do
      let _ <- Connection.ready nowMs limit stream?
      pure ()
  | .delivered peerId messageId nowMs => Connection.delivered (peerId, messageId) nowMs
  | .failed peerId messageId nowMs baseDelayMs maximumDelayMs =>
      Connection.failed (peerId, messageId) nowMs baseDelayMs maximumDelayMs
  | .reopen => pure ()

/-- The session after an operation, whether it returns or raises. A restart opens a new
connection. -/
def perform (limits : Limits) (s : Session Outbox) (operation : Operation) :
    Session Outbox :=
  match operation with
  | .reopen => .idle s.committed
  | _ => sessionAfter (method limits operation s)

def replay (limits : Limits) (operations : List Operation) : Session Outbox :=
  operations.foldl (perform limits) (.idle Table.empty)

def commit (limits : Limits) (outbox : Outbox) : Operation -> Except Exn Outbox
  | .enqueueMany deliveries nowMs => enqueueMany limits outbox deliveries nowMs
  | .ready nowMs limit stream? => do
      let _ <- outbox.ready nowMs limit stream?
      .ok outbox
  | .delivered peerId messageId nowMs => outbox.delivered (peerId, messageId) nowMs
  | .failed peerId messageId nowMs baseDelayMs maximumDelayMs =>
      outbox.failed (peerId, messageId) nowMs baseDelayMs maximumDelayMs
  | .reopen => .ok outbox

/-- The outbox after an operation; one that raises leaves it alone. -/
def apply (limits : Limits) (outbox : Outbox) (operation : Operation) : Outbox :=
  match outbox.commit limits operation with
  | .ok outbox' => outbox'
  | .error _ => outbox

/-!
## The methods and the operations

Every method is the operation of the outbox on the committed rows, whatever statement raises.
-/

def silent (result : Except Exn Outbox) : Except Exn (Unit × Outbox) :=
  result.map (fun outbox => ((), outbox))

theorem yields_collect (seen : List ((String × String) × Text)) (newItems items : List Item)
    (w : Outbox) : Yields (Connection.collect seen newItems items) w
      ((w.collect seen newItems items).map (fun result => (result, w))) := by
  induction items generalizing seen newItems with
  | nil => exact Yields.pure newItems w
  | cons item rest ih =>
      unfold Connection.collect Outbox.collect
      rw [map_bind]
      apply Yields.compute_bind
      intro _
      apply Yields.bind (Yields.select _ w)
      cases w.row? item.key with
      | none => exact ih _ _
      | some row =>
          dsimp only
          rw [map_bind]
          apply Yields.compute_bind
          intro _
          exact ih _ _

theorem yields_insertAll (nowMs : Int) (items : List Item) (w : Outbox) :
    Yields (Connection.insertAll nowMs items) w (silent (insertAll nowMs items w)) := by
  induction items generalizing w with
  | nil => exact Yields.pure () w
  | cons item rest ih =>
      unfold Connection.insertAll Outbox.insertAll silent
      have hone : Yields (Sql.execute (fun outbox : Outbox =>
          (outbox.insertOne nowMs item).map (fun outbox => ((), outbox)))) w
          ((w.insertOne nowMs item).map (fun outbox => ((), outbox))) := Yields.execute rfl
      cases hinsert : w.insertOne nowMs item with
      | error e =>
          rw [hinsert] at hone
          exact Yields.bind_error hone
      | ok outbox =>
          rw [hinsert] at hone
          exact Yields.bind hone (ih outbox)

theorem enqueueMany_refines (limits : Limits) (deliveries : List (String × Envelope))
    (nowMs : Int) (d : Outbox) : Refines (Connection.enqueueMany limits deliveries nowMs) d
      (silent (enqueueMany limits d deliveries nowMs)) := by
  cases deliveries with
  | nil => rfl
  | cons first rest =>
      unfold Connection.enqueueMany enqueueMany silent
      dsimp only
      cases encodeAll (first :: rest) with
      | error e => rfl
      | ok items =>
          apply Commits.transaction
          apply Commits.bind (Yields.select _ d)
          have hcollect := yields_collect [] [] items d
          show Commits _ d ((d.collect [] [] items >>= _).map _)
          cases hitems : d.collect [] [] items with
          | error e =>
              rw [hitems] at hcollect
              exact Commits.bind_error hcollect
          | ok newItems =>
              rw [hitems] at hcollect
              apply Commits.bind hcollect
              show Commits _ d ((checkPending limits d.pending newItems >>= _).map _)
              rw [map_bind]
              apply Commits.compute
              intro _
              apply Commits.bind (Yields.select _ d)
              rw [map_bind]
              apply Commits.compute
              intro _
              have hinsert := yields_insertAll nowMs newItems d
              unfold silent at hinsert
              cases hrows : insertAll nowMs newItems d with
              | error e =>
                  rw [hrows] at hinsert
                  exact Commits.bind_error hinsert
              | ok outbox =>
                  rw [hrows] at hinsert
                  exact Commits.bind hinsert (Commits.commit () outbox)

theorem ready_refines (nowMs limit : Int) (stream? : Option Stream) (d : Outbox) :
    Refines (Connection.ready nowMs limit stream?) d
      ((d.ready nowMs limit stream?).map (fun items => (items, d))) := by
  unfold Connection.ready Outbox.ready
  rw [map_bind]
  apply Refines.compute_bind
  intro _
  rw [map_bind]
  apply Refines.compute_bind
  intro _
  rw [map_bind]
  apply Refines.compute_bind
  intro _
  apply Refines.select_bind
  exact Refines.compute _ d

theorem delivered_refines (key : String × String) (nowMs : Int) (d : Outbox) :
    Refines (Connection.delivered key nowMs) d (silent (d.delivered key nowMs)) := by
  unfold Connection.delivered silent
  exact Refines.execute rfl

theorem failed_refines (key : String × String) (nowMs baseDelayMs maximumDelayMs : Int)
    (d : Outbox) : Refines (Connection.failed key nowMs baseDelayMs maximumDelayMs) d
      (silent (d.failed key nowMs baseDelayMs maximumDelayMs)) := by
  unfold Connection.failed Outbox.failed
  apply Refines.select_bind
  cases d.attempted key with
  | none => rfl
  | some row => exact Refines.execute rfl

theorem method_refines (limits : Limits) (operation : Operation) (d : Outbox) :
    Refines (method limits operation) d (silent (d.commit limits operation)) := by
  cases operation with
  | enqueueMany deliveries nowMs => exact enqueueMany_refines limits deliveries nowMs d
  | ready nowMs limit stream? =>
      have hready := (ready_refines nowMs limit stream? d).bind_pure (fun _ => ())
      unfold silent commit
      rw [map_bind]
      cases hitems : d.ready nowMs limit stream? with
      | ok items =>
          rw [hitems] at hready
          exact hready
      | error e =>
          rw [hitems] at hready
          exact hready
  | delivered peerId messageId nowMs =>
      exact delivered_refines (peerId, messageId) nowMs d
  | failed peerId messageId nowMs baseDelayMs maximumDelayMs =>
      exact failed_refines (peerId, messageId) nowMs baseDelayMs maximumDelayMs d
  | reopen => rfl

theorem perform_idle (limits : Limits) (d : Outbox) (operation : Operation) :
    perform limits (.idle d) operation = .idle (d.apply limits operation) := by
  have hmethod : sessionAfter (method limits operation (.idle d)) =
      .idle (d.apply limits operation) := by
    have hrefines := method_refines limits operation d
    unfold Outbox.apply
    cases hcommit : d.commit limits operation with
    | ok outbox =>
        rw [hcommit] at hrefines
        rw [show method limits operation (.idle d) = _ from hrefines]
        rfl
    | error e =>
        rw [hcommit] at hrefines
        rw [show method limits operation (.idle d) = _ from hrefines]
        rfl
  cases operation with
  | reopen => exact hmethod
  | _ => exact hmethod

/-!
## The limits
-/

structure Within (limits : Limits) (outbox : Outbox) : Prop where
  pending : outbox.pending ≤ limits.maximumPending
  operational : outbox.operationalPending ≤ limits.maximumPending - limits.safetyReserve

theorem pending_added {outbox outbox' : Outbox} {nowMs : Int} {newItems : List Item}
    (h : outbox'.rows = outbox.rows ++ newItems.map (newRow nowMs)) :
    outbox'.pending = outbox.pending + newItems.length ∧
      outbox'.operationalPending = outbox.operationalPending + newOperational newItems := by
  unfold pending operationalPending newOperational
  rw [h, List.countP_append, List.countP_append, List.countP_map, List.countP_map]
  constructor
  · have hall : newItems.countP ((fun row : OutboxRow => row.status == .pending) ∘
        newRow nowMs) = newItems.length := by
      apply List.countP_eq_length.mpr
      intro item _
      rfl
    rw [hall]
  · rfl

theorem within_enqueueMany {limits : Limits} {outbox outbox' : Outbox}
    {deliveries : List (String × Envelope)} {nowMs : Int} (h : Within limits outbox)
    (henqueue : enqueueMany limits outbox deliveries nowMs = .ok outbox') :
    Within limits outbox' := by
  rcases enqueueMany_eq_ok henqueue with ⟨newItems, hadded⟩
  rcases pending_added hadded.rows with ⟨hpending, hoperational⟩
  rcases hadded.fits with rfl | ⟨hfits, hreserved⟩
  · constructor
    · rw [hpending]
      exact h.pending
    · rw [hoperational]
      exact h.operational
  · constructor
    · rw [hpending]
      exact hfits
    · rw [hoperational]
      exact hreserved

theorem within_update {limits : Limits} {outbox : Outbox} {p : OutboxRow -> Bool}
    {f : OutboxRow -> OutboxRow} {hf : Table.KeepsKeys f} (h : Within limits outbox)
    (hpending : forall row, (f row).status = .pending -> row.status = .pending)
    (hstream : forall row, (f row).stream = row.stream) :
    Within limits (outbox.update p f hf) := by
  constructor
  · apply Nat.le_trans _ h.pending
    unfold pending
    rw [Table.rows_update, List.countP_map]
    apply List.countP_mono_left
    intro row _ hrow
    dsimp only [Function.comp] at hrow
    split_ifs at hrow
    · simpa using hpending row (by simpa using hrow)
    · exact hrow
  · apply Nat.le_trans _ h.operational
    unfold operationalPending
    rw [Table.rows_update, List.countP_map]
    apply List.countP_mono_left
    intro row _ hrow
    dsimp only [Function.comp] at hrow
    split_ifs at hrow
    · rw [hstream row] at hrow
      rcases Bool.and_eq_true_iff.mp hrow with ⟨hstatus, hoperational⟩
      exact Bool.and_eq_true_iff.mpr
        ⟨by simpa using hpending row (by simpa using hstatus), hoperational⟩
    · exact hrow

theorem within_commit {limits : Limits} {outbox outbox' : Outbox} {operation : Operation}
    (h : Within limits outbox) (hcommit : outbox.commit limits operation = .ok outbox') :
    Within limits outbox' := by
  cases operation with
  | enqueueMany deliveries nowMs => exact within_enqueueMany h hcommit
  | ready nowMs limit stream? =>
      rcases bind_eq_ok.mp hcommit with ⟨_, _, hsame⟩
      cases hsame
      exact h
  | delivered peerId messageId nowMs =>
      rcases bind_eq_ok.mp hcommit with ⟨_, _, hupdate⟩
      cases hupdate
      exact within_update h (fun _ hpending => by cases hpending) (fun _ => rfl)
  | failed peerId messageId nowMs baseDelayMs maximumDelayMs =>
      rw [commit, failed] at hcommit
      cases hrow : outbox.attempted (peerId, messageId) with
      | none =>
          rw [hrow] at hcommit
          cases hcommit
          exact h
      | some row =>
          rw [hrow] at hcommit
          rcases bind_eq_ok.mp hcommit with ⟨_, _, hcommit⟩
          rcases bind_eq_ok.mp hcommit with ⟨_, _, hupdate⟩
          cases hupdate
          exact within_update h (fun _ hpending => hpending) (fun _ => rfl)
  | reopen =>
      cases hcommit
      exact h

theorem within_perform {limits : Limits} {outbox : Outbox} (h : Within limits outbox)
    (operation : Operation) : exists outbox',
      perform limits (.idle outbox) operation = .idle outbox' ∧ Within limits outbox' := by
  refine ⟨_, perform_idle limits outbox operation, ?_⟩
  unfold Outbox.apply
  cases hcommit : outbox.commit limits operation with
  | ok outbox' => exact within_commit h hcommit
  | error e => exact h

theorem replay_within (limits : Limits) (operations : List Operation) :
    exists outbox, replay limits operations = .idle outbox ∧ Within limits outbox := by
  unfold replay
  have hrun : forall outbox, Within limits outbox -> exists outbox',
      operations.foldl (perform limits) (.idle outbox) = .idle outbox' ∧
        Within limits outbox' := by
    induction operations with
    | nil => exact fun outbox h => ⟨outbox, rfl, h⟩
    | cons operation rest ih =>
        intro outbox h
        rcases within_perform h operation with ⟨next, hperform, hnext⟩
        rw [List.foldl_cons, hperform]
        exact ih next hnext
  exact hrun Table.empty ⟨Nat.zero_le _, Nat.zero_le _⟩

/-!
## Deliveries that are repeated

An item that is stored already, or that the batch has had before, changes nothing.
-/

/-- What has been seen of a stored key are the bytes stored for it. -/
def Consistent (outbox : Outbox) (seen : List ((String × String) × Text)) : Prop :=
  forall key row body, outbox.row? key = some row -> seen.lookup key = some body ->
    body = row.body

/-- The loop has nothing to do for the item: it is stored, or among the new ones. -/
def Known (outbox : Outbox) (seen : List ((String × String) × Text)) (newItems : List Item)
    (item : Item) : Prop :=
  (exists row, outbox.row? item.key = some row ∧ row.body = item.body) ∨
    seen.lookup item.key = some item.body ∧
      newItems.any (fun other => other.key == item.key) = true

/-- Two records of what has been seen that differ on stored keys only. -/
def Agree (outbox : Outbox) (seen seen' : List ((String × String) × Text)) : Prop :=
  forall key, seen.lookup key = seen'.lookup key ∨ exists row, outbox.row? key = some row ∧
    (forall body, seen.lookup key = some body -> body = row.body) ∧
    forall body, seen'.lookup key = some body -> body = row.body

theorem Agree.see {outbox : Outbox} {seen seen' : List ((String × String) × Text)}
    (h : Agree outbox seen seen') (item : Item) :
    Agree outbox ((item.key, item.body) :: seen) ((item.key, item.body) :: seen') := by
  intro key
  rw [lookup_seen, lookup_seen]
  split_ifs with hkey
  · exact Or.inl rfl
  · exact h key

theorem refuseRepeated_of_stored {seen : List ((String × String) × Text)}
    {item : Item} {row : OutboxRow}
    (hseen : forall body, seen.lookup item.key = some body -> body = row.body) :
    (refuseRepeated seen item >>= fun _ => refuseStored row item) = refuseStored row item := by
  unfold refuseRepeated refuseStored
  cases hprior : seen.lookup item.key with
  | none => rfl
  | some prior =>
      rw [hseen prior hprior, Option.any_some]
      by_cases hsame : row.body = item.body
      · simp [hsame, refuseWhen, bind, Except.bind]
      · simp [hsame, refuseWhen, bind, Except.bind]

theorem collect_agree {outbox : Outbox} {seen seen' : List ((String × String) × Text)}
    (h : Agree outbox seen seen') (newItems items : List Item) :
    outbox.collect seen newItems items = outbox.collect seen' newItems items := by
  induction items generalizing seen seen' newItems with
  | nil => rfl
  | cons item rest ih =>
      unfold collect
      rcases h item.key with hsame | ⟨row, hrow, hseen, hseen'⟩
      · have hrepeated : refuseRepeated seen item = refuseRepeated seen' item := by
          unfold refuseRepeated
          rw [hsame]
        rw [hrepeated, ih (h.see item), ih (h.see item)]
      · rw [hrow]
        dsimp only
        rw [ih (h.see item), ← bind_assoc, ← bind_assoc,
          refuseRepeated_of_stored hseen,
          refuseRepeated_of_stored hseen']

theorem Consistent.see {outbox : Outbox} {seen : List ((String × String) × Text)} {item : Item}
    (h : Consistent outbox seen)
    (hitem : forall row, outbox.row? item.key = some row -> item.body = row.body) :
    Consistent outbox ((item.key, item.body) :: seen) := by
  intro key row body hrow hbody
  rw [lookup_seen] at hbody
  split_ifs at hbody with hkey
  · rw [← Option.some.inj hbody]
    exact hitem row (hkey ▸ hrow)
  · exact h key row body hrow hbody

theorem any_addNew {newItems : List Item} {item : Item} {key : String × String}
    (h : newItems.any (fun other => other.key == key) = true) :
    (addNew newItems item).any (fun other => other.key == key) = true := by
  rcases List.any_eq_true.mp h with ⟨other, hother, hkey⟩
  exact List.any_eq_true.mpr ⟨other, mem_addNew hother, hkey⟩

theorem addNew_any (newItems : List Item) (item : Item) :
    (addNew newItems item).any (fun other => other.key == item.key) = true := by
  unfold addNew
  split_ifs with hany
  · exact hany
  · rw [List.any_append, Bool.or_eq_true]
    right
    simp

theorem Known.see {outbox : Outbox} {seen : List ((String × String) × Text)}
    {newItems newItems' : List Item} {item first : Item} (h : Known outbox seen newItems item)
    (hchecked : refuseRepeated seen first = .ok ())
    (hnew : forall key, newItems.any (fun other => other.key == key) = true ->
      newItems'.any (fun other => other.key == key) = true) :
    Known outbox ((first.key, first.body) :: seen) newItems' item := by
  rcases h with hstored | ⟨hseen, hany⟩
  · exact Or.inl hstored
  · right
    constructor
    · rw [lookup_seen]
      split_ifs with hkey
      · rw [hkey] at hseen
        rw [refuseRepeated_eq_ok hchecked hseen]
      · exact hseen
    · exact hnew item.key hany

theorem collect_known {outbox : Outbox} {seen : List ((String × String) × Text)}
    {newItems : List Item} {item : Item} (hconsistent : Consistent outbox seen)
    (h : Known outbox seen newItems item) (rest : List Item) :
    outbox.collect seen newItems (item :: rest) = outbox.collect seen newItems rest := by
  have hsame : (forall row, outbox.row? item.key = some row -> item.body = row.body) ->
      (seen.lookup item.key = some item.body ∨ exists row, outbox.row? item.key = some row) ->
      outbox.collect ((item.key, item.body) :: seen) newItems rest =
        outbox.collect seen newItems rest := by
    intro hitem hnoted
    apply collect_agree
    intro key
    rw [lookup_seen]
    split_ifs with hkey
    · rw [hkey]
      rcases hnoted with hseen | ⟨row, hrow⟩
      · exact Or.inl hseen.symm
      · refine Or.inr ⟨row, hrow, ?_, ?_⟩
        · intro body hbody
          rw [← Option.some.inj hbody]
          exact hitem row hrow
        · exact fun body hbody => hconsistent item.key row body hrow hbody
    · exact Or.inl rfl
  rw [collect]
  cases hrow : outbox.row? item.key with
  | some row =>
      have hbody : row.body = item.body := by
        rcases h with ⟨stored, hstored, hbody⟩ | ⟨hseen, _⟩
        · rw [hrow] at hstored
          rw [Option.some.inj hstored]
          exact hbody
        · exact (hconsistent item.key row item.body hrow hseen).symm
      have hstored : refuseStored row item = .ok () := by
        simp [refuseStored, hbody, refuseWhen]
      dsimp only
      rw [← bind_assoc, refuseRepeated_of_stored (hconsistent item.key row · hrow ·), hstored]
      refine hsame ?_ (Or.inr ⟨row, hrow⟩)
      intro other hother
      rw [hrow] at hother
      rw [← Option.some.inj hother]
      exact hbody.symm
  | none =>
      rcases h with ⟨stored, hstored, _⟩ | ⟨hseen, hany⟩
      · rw [hrow] at hstored
        cases hstored
      · have hchecked : refuseRepeated seen item = .ok () := by
          simp [refuseRepeated, hseen, refuseWhen]
        have hadded : addNew newItems item = newItems := by
          unfold addNew
          rw [if_pos hany]
        rw [hchecked]
        show outbox.collect _ (addNew newItems item) rest = _
        rw [hadded]
        refine hsame ?_ (Or.inl hseen)
        intro row hother
        rw [hrow] at hother
        cases hother

theorem collect_repeated {outbox : Outbox} {seen : List ((String × String) × Text)}
    {newItems before : List Item} {item : Item} (hconsistent : Consistent outbox seen)
    (h : Known outbox seen newItems item ∨ exists other, other ∈ before ∧
      other.key = item.key ∧ other.body = item.body) (after : List Item) :
    outbox.collect seen newItems (before ++ item :: after) =
      outbox.collect seen newItems (before ++ after) := by
  induction before generalizing seen newItems with
  | nil =>
      rcases h with hknown | ⟨other, hother, _⟩
      · exact collect_known hconsistent hknown after
      · cases hother
  | cons first rest ih =>
      rw [List.cons_append, List.cons_append, collect, collect]
      cases hchecked : refuseRepeated seen first with
      | error e => rfl
      | ok _ =>
          cases hrow : outbox.row? first.key with
          | some row =>
              dsimp only
              cases hstored : refuseStored row first with
              | error e => rfl
              | ok _ =>
                  have hbody : row.body = first.body := by
                    simpa using refuseWhen_eq_ok hstored
                  refine ih (hconsistent.see ?_) ?_
                  · intro other hother
                    rw [hrow] at hother
                    rw [← Option.some.inj hother]
                    exact hbody.symm
                  · rcases h with hknown | ⟨other, hother, hkey, hsame⟩
                    · exact Or.inl (hknown.see hchecked (fun _ hany => hany))
                    · rcases List.mem_cons.mp hother with rfl | hother
                      · exact Or.inl (Or.inl ⟨row, hkey ▸ hrow, hbody.trans hsame⟩)
                      · exact Or.inr ⟨other, hother, hkey, hsame⟩
          | none =>
              dsimp only
              refine ih (hconsistent.see ?_) ?_
              · intro other hother
                rw [hrow] at hother
                cases hother
              · rcases h with hknown | ⟨other, hother, hkey, hsame⟩
                · exact Or.inl (hknown.see hchecked (fun _ => any_addNew))
                · rcases List.mem_cons.mp hother with rfl | hother
                  · refine Or.inl (Or.inr ⟨?_, ?_⟩)
                    · rw [lookup_seen, if_pos hkey.symm, hsame]
                    · rw [← hkey]
                      exact addNew_any newItems other
                  · exact Or.inr ⟨other, hother, hkey, hsame⟩

/-- What `enqueue_many` does with the encoded items. -/
def store (limits : Limits) (outbox : Outbox) (nowMs : Int) (items : List Item) :
    Except Exn Outbox := do
  let newItems <- outbox.collect [] [] items
  checkPending limits outbox.pending newItems
  checkOperational limits outbox.operationalPending newItems
  insertAll nowMs newItems outbox

theorem enqueueMany_eq {limits : Limits} {outbox : Outbox} (h : Within limits outbox)
    (deliveries : List (String × Envelope)) (nowMs : Int) :
    enqueueMany limits outbox deliveries nowMs =
      encodeAll deliveries >>= store limits outbox nowMs := by
  cases deliveries with
  | cons first rest => rfl
  | nil =>
      have hpending : checkPending limits outbox.pending [] = .ok () := by
        exact if_neg (Nat.not_lt.mpr h.pending)
      have hoperational : checkOperational limits outbox.operationalPending [] = .ok () := by
        exact if_neg (Nat.not_lt.mpr h.operational)
      show Except.ok outbox = store limits outbox nowMs []
      unfold store
      show _ = (checkPending limits outbox.pending [] >>= _)
      rw [hpending]
      show _ = (checkOperational limits outbox.operationalPending [] >>= _)
      rw [hoperational]
      rfl

theorem encodeAll_append (before after : List (String × Envelope)) :
    encodeAll (before ++ after) =
      encodeAll before >>= fun items => encodeAll after >>= fun rest => .ok (items ++ rest) := by
  induction before with
  | nil =>
      rw [List.nil_append, encodeAll]
      cases encodeAll after <;> rfl
  | cons first rest ih =>
      rcases first with ⟨peerId, envelope⟩
      rw [List.cons_append, encodeAll, encodeAll, ih]
      cases envelope.encode with
      | error e => rfl
      | ok body =>
          cases encodeAll rest with
          | error e => rfl
          | ok items => cases encodeAll after <;> rfl

/-- The delivery is stored, or an earlier one of the batch is for the same peer and message
id, with the same bytes. -/
def Repeats (outbox : Outbox) (before : List (String × Envelope))
    (delivery : String × Envelope) : Prop :=
  exists body, delivery.2.encode = .ok body ∧
    ((exists row, row ∈ outbox.rows ∧ keyOf row = (delivery.1, delivery.2.messageId) ∧
        row.body = body) ∨
      exists other, other ∈ before ∧ other.1 = delivery.1 ∧
        other.2.messageId = delivery.2.messageId ∧ other.2.encode = .ok body)

theorem enqueueMany_repeated {limits : Limits} {outbox : Outbox} (h : Within limits outbox)
    {before : List (String × Envelope)} {delivery : String × Envelope}
    (hrepeats : Repeats outbox before delivery) (after : List (String × Envelope))
    (nowMs : Int) : enqueueMany limits outbox (before ++ delivery :: after) nowMs =
      enqueueMany limits outbox (before ++ after) nowMs := by
  rcases delivery with ⟨peerId, envelope⟩
  rcases hrepeats with ⟨body, hbody, hrepeated⟩
  let item : Item := { peerId := peerId, envelope := envelope, body := body }
  rw [enqueueMany_eq h, enqueueMany_eq h, encodeAll_append, encodeAll_append, encodeAll]
  cases hbefore : encodeAll before with
  | error e => rfl
  | ok items =>
      rcases encodeAll_eq_ok hbefore with ⟨hmap, hencoded⟩
      rw [hbody]
      cases encodeAll after with
      | error e => rfl
      | ok rest =>
          show store limits outbox nowMs (items ++ item :: rest) =
            store limits outbox nowMs (items ++ rest)
          unfold store
          rw [collect_repeated]
          · intro key row body _ hseen
            cases hseen
          · rcases hrepeated with ⟨row, hrow, hkey, hsame⟩ | ⟨other, hother, hpeer, hid, hsame⟩
            · refine Or.inl (Or.inl ⟨row, ?_, hsame⟩)
              have hfound := row?_of_mem hrow
              rw [hkey] at hfound
              exact hfound
            · rw [← hmap] at hother
              rcases List.mem_map.mp hother with ⟨earlier, hearlier, rfl⟩
              have hbodies := hencoded earlier hearlier
              rw [hsame] at hbodies
              refine Or.inr ⟨earlier, hearlier, ?_, (Except.ok.inj hbodies).symm⟩
              exact Prod.ext hpeer hid

/-!
## Batches
-/

/-- The rows that a batch adds: each delivery is stored with its bytes, and each added row
is a pending one for a delivery of the batch that was not stored before. -/
structure AddsBatch (outbox : Outbox) (deliveries : List (String × Envelope))
    (added : List OutboxRow) : Prop where
  stored : forall delivery, delivery ∈ deliveries -> exists row,
    row ∈ outbox.rows ++ added ∧ keyOf row = (delivery.1, delivery.2.messageId) ∧
      delivery.2.encode = .ok row.body
  new : forall row, row ∈ added -> row.status = .pending ∧
    (row.peerId, row.envelope) ∈ deliveries ∧ row.messageId = row.envelope.messageId ∧
      row.envelope.encode = .ok row.body ∧ outbox.row? (keyOf row) = none

/-- The method raises and leaves the rows alone, or it adds its whole batch. -/
def EnqueuesWhole (limits : Limits) (outbox : Outbox) (deliveries : List (String × Envelope))
    (nowMs : Int) : Prop :=
  (exists e, Connection.enqueueMany limits deliveries nowMs (.idle outbox) =
    .error e (.idle outbox)) ∨
  exists outbox' added,
    Connection.enqueueMany limits deliveries nowMs (.idle outbox) = .ok () (.idle outbox') ∧
      outbox'.rows = outbox.rows ++ added ∧ AddsBatch outbox deliveries added

theorem adds_batch {limits : Limits} {outbox outbox' : Outbox}
    {deliveries : List (String × Envelope)} {nowMs : Int} {newItems : List Item}
    (h : Added limits outbox deliveries nowMs newItems outbox') :
    AddsBatch outbox deliveries (newItems.map (newRow nowMs)) := by
  rcases h.items with ⟨items, hitems, hcollect⟩
  rcases encodeAll_eq_ok hitems with ⟨hmap, hencoded⟩
  have hcollected := collect_eq_ok hcollect ⟨List.nodup_nil, fun _ hitem => by cases hitem⟩
  constructor
  · intro delivery hdelivery
    rw [← hmap] at hdelivery
    rcases List.mem_map.mp hdelivery with ⟨item, hitem, rfl⟩
    rcases hcollected.covered item hitem with ⟨row, hrow, hkey, hbody⟩ |
      ⟨other, hother, hkey, hbody⟩
    · refine ⟨row, List.mem_append_left _ hrow, hkey, ?_⟩
      rw [hbody]
      exact hencoded item hitem
    · refine ⟨newRow nowMs other, ?_, hkey, ?_⟩
      · exact List.mem_append_right _ (List.mem_map_of_mem hother)
      · show item.envelope.encode = .ok other.body
        rw [hbody]
        exact hencoded item hitem
  · intro row hrow
    rcases List.mem_map.mp hrow with ⟨item, hnew, rfl⟩
    rcases hcollected.fresh item hnew with hnone | ⟨hitem, hfresh⟩
    · cases hnone
    · refine ⟨rfl, ?_, rfl, hencoded item hitem, hfresh⟩
      rw [← hmap]
      exact List.mem_map.mpr ⟨item, hitem, rfl⟩

theorem enqueues_whole (limits : Limits) (outbox : Outbox)
    (deliveries : List (String × Envelope)) (nowMs : Int) :
    EnqueuesWhole limits outbox deliveries nowMs := by
  have hrefines := enqueueMany_refines limits deliveries nowMs outbox
  cases henqueue : enqueueMany limits outbox deliveries nowMs with
  | error e =>
      rw [henqueue] at hrefines
      exact Or.inl ⟨e, hrefines⟩
  | ok outbox' =>
      rw [henqueue] at hrefines
      rcases enqueueMany_eq_ok henqueue with ⟨newItems, hadded⟩
      exact Or.inr ⟨outbox', _, hrefines, hadded.rows, adds_batch hadded⟩

theorem method_repeated {limits : Limits} {outbox : Outbox} (h : Within limits outbox)
    {before : List (String × Envelope)} {delivery : String × Envelope}
    (hrepeats : Repeats outbox before delivery) (after : List (String × Envelope))
    (nowMs : Int) :
    Connection.enqueueMany limits (before ++ delivery :: after) nowMs (.idle outbox) =
      Connection.enqueueMany limits (before ++ after) nowMs (.idle outbox) := by
  have hleft := enqueueMany_refines limits (before ++ delivery :: after) nowMs outbox
  have hright := enqueueMany_refines limits (before ++ after) nowMs outbox
  rw [enqueueMany_repeated h hrepeats] at hleft
  cases henqueue : enqueueMany limits outbox (before ++ after) nowMs with
  | error e =>
      rw [henqueue] at hleft hright
      exact Eq.trans hleft hright.symm
  | ok outbox' =>
      rw [henqueue] at hleft hright
      exact Eq.trans hleft hright.symm

/-- After every sequence of operations with fixed limits, the rows are within the limits, a
batch is added as a whole or not at all, and repeated deliveries change nothing about it. -/
theorem capacity_kept (limits : Limits) (operations : List Operation) :
    exists outbox, replay limits operations = .idle outbox ∧ Within limits outbox ∧
      (forall deliveries nowMs, EnqueuesWhole limits outbox deliveries nowMs) ∧
      forall before delivery after nowMs, Repeats outbox before delivery ->
        Connection.enqueueMany limits (before ++ delivery :: after) nowMs (.idle outbox) =
          Connection.enqueueMany limits (before ++ after) nowMs (.idle outbox) := by
  rcases replay_within limits operations with ⟨outbox, hreplay, hwithin⟩
  refine ⟨outbox, hreplay, hwithin, ?_, ?_⟩
  · intro deliveries nowMs
    exact enqueues_whole limits outbox deliveries nowMs
  · intro before delivery after nowMs hrepeats
    exact method_repeated hwithin hrepeats after nowMs

end Outbox

end Ump.Delivery
