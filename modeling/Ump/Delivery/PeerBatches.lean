import Ump.Delivery.Outbox

/-!
# Batches with one delivery for each peer

## What such a batch adds

An envelope is enqueued once for each peer that gets it. Then no key comes twice in the
batch, and the loop of `enqueue_many` keeps the items that are not stored.
-/

namespace Ump.Delivery.Outbox

open Foundation

def isNew (outbox : Outbox) (item : Item) : Bool :=
  (outbox.row? item.key).isNone

/-- `enqueue_many` once the envelopes are encoded. -/
def storeItems (limits : Limits) (outbox : Outbox) (nowMs : Int) (items : List Item) :
    Except Exn Outbox := do
  let newItems <- outbox.collect [] [] items
  checkPending limits outbox.pending newItems
  checkOperational limits outbox.operationalPending newItems
  insertAll nowMs newItems outbox

/-- The stored rows of the items have the bytes of the items. -/
def Unbound (outbox : Outbox) (items : List Item) : Prop :=
  forall item, item ∈ items -> forall row, outbox.row? item.key = some row -> row.body = item.body

def OnePerPeer (items : List Item) : Prop :=
  items.Pairwise (fun a b => a.peerId ≠ b.peerId)

theorem key_ne_of_peerId {a b : Item} (h : a.peerId ≠ b.peerId) : a.key ≠ b.key :=
  fun hsame => h (congrArg Prod.fst hsame)

theorem unbound_cons {outbox : Outbox} {item : Item} {rest : List Item} :
    Unbound outbox (item :: rest) <->
      (forall row, outbox.row? item.key = some row -> row.body = item.body) ∧
        Unbound outbox rest := by
  unfold Unbound
  rw [List.forall_mem_cons]

theorem collect_of_peers {outbox : Outbox} {seen : List ((String × String) × Text)}
    {newItems items result : List Item} (hpeers : OnePerPeer items)
    (hseen : forall item, item ∈ items -> seen.lookup item.key = none)
    (hnew : forall item other, item ∈ items -> other ∈ newItems -> other.peerId ≠ item.peerId) :
    outbox.collect seen newItems items = .ok result <->
      Unbound outbox items ∧ result = newItems ++ items.filter outbox.isNew := by
  induction items generalizing seen newItems with
  | nil =>
      rw [collect, Except.ok.injEq, List.filter_nil, List.append_nil]
      constructor
      · rintro rfl
        exact ⟨fun _ hitem => (by cases hitem), rfl⟩
      · exact fun h => h.2.symm
  | cons item rest ih =>
      rcases List.pairwise_cons.mp hpeers with ⟨hothers, hrest⟩
      have hfirst : refuseRepeated seen item = .ok () := by
        unfold refuseRepeated
        rw [hseen item List.mem_cons_self]
        rfl
      have hseenLater : forall other, other ∈ rest ->
          ((item.key, item.body) :: seen).lookup other.key = none := by
        intro other hother
        rw [lookup_seen, if_neg (key_ne_of_peerId (hothers other hother)).symm]
        exact hseen other (List.mem_cons_of_mem _ hother)
      rw [collect, hfirst, unbound_cons]
      simp only [bind, Except.bind]
      cases hrow : outbox.row? item.key with
      | some row =>
          have hold : outbox.isNew item = false := by
            unfold isNew
            rw [hrow]
            rfl
          rw [List.filter_cons_of_neg (by rw [hold]; exact Bool.false_ne_true)]
          dsimp only
          by_cases hbody : row.body = item.body
          · have hstored : refuseStored row item = .ok () := by
              unfold refuseStored
              rw [decide_eq_false (not_not.mpr hbody)]
              rfl
            rw [hstored]
            show outbox.collect ((item.key, item.body) :: seen) newItems rest = .ok result <-> _
            rw [ih hrest hseenLater
              (fun other new hother => hnew other new (List.mem_cons_of_mem _ hother))]
            constructor
            · rintro ⟨hunbound, hresult⟩
              refine ⟨⟨?_, hunbound⟩, hresult⟩
              rintro _ ⟨⟩
              exact hbody
            · exact fun h => ⟨h.1.2, h.2⟩
          · have hstored : refuseStored row item = .error (.value boundText) := by
              unfold refuseStored
              rw [decide_eq_true hbody]
              rfl
            rw [hstored]
            constructor
            · intro h
              cases h
            · exact fun h => absurd (h.1.1 row rfl) hbody
      | none =>
          have hfresh : outbox.isNew item = true := by
            unfold isNew
            rw [hrow]
            rfl
          have hadd : addNew newItems item = newItems ++ [item] := by
            unfold addNew
            rw [if_neg]
            intro hany
            rcases List.any_eq_true.mp hany with ⟨other, hother, hkey⟩
            exact key_ne_of_peerId (hnew item other List.mem_cons_self hother)
              (beq_iff_eq.mp hkey)
          rw [List.filter_cons_of_pos hfresh]
          dsimp only
          rw [hadd, ih hrest hseenLater, List.append_assoc, List.singleton_append]
          · constructor
            · rintro ⟨hunbound, hresult⟩
              exact ⟨⟨fun _ hfalse => (by cases hfalse), hunbound⟩, hresult⟩
            · exact fun h => ⟨h.1.2, h.2⟩
          · intro other new hother hmem
            rcases List.mem_append.mp hmem with hmem | hmem
            · exact hnew other new (List.mem_cons_of_mem _ hother) hmem
            · rw [List.mem_singleton.mp hmem]
              exact hothers other hother

/-!
## Inserting
-/

/-- The numbers fit the columns, and no row has the key or the sequence number of the item. -/
structure Insertable (outbox : Outbox) (nowMs : Int) (item : Item) : Prop where
  sequence : bindInteger item.envelope.sequence = .ok ()
  now : bindInteger nowMs = .ok ()
  free : forall row, row ∈ outbox.rows -> Keyed.clash row (newRow nowMs item) = false

theorem insertOne_of_insertable {outbox : Outbox} {nowMs : Int} {item : Item}
    (h : Insertable outbox nowMs item) : exists outbox',
      outbox.insertOne nowMs item = .ok outbox' ∧
        outbox'.rows = outbox.rows ++ [newRow nowMs item] := by
  rcases Table.insert?_of_no_clash h.free with ⟨outbox', hinsert⟩
  refine ⟨outbox', ?_, (Table.insert?_eq_some hinsert).1⟩
  unfold insertOne
  rw [h.sequence, h.now]
  simp only [bind, Except.bind, hinsert]

theorem insertable_of_insertOne {outbox outbox' : Outbox} {nowMs : Int} {item : Item}
    (h : outbox.insertOne nowMs item = .ok outbox') :
    Insertable outbox nowMs item ∧ outbox'.rows = outbox.rows ++ [newRow nowMs item] := by
  rcases bind_eq_ok.mp h with ⟨_, hsequence, h⟩
  rcases bind_eq_ok.mp h with ⟨_, hnow, h⟩
  cases hinsert : outbox.insert? (newRow nowMs item) with
  | none =>
      rw [hinsert] at h
      cases h
  | some inserted =>
      rw [hinsert] at h
      cases h
      rcases Table.insert?_eq_some hinsert with ⟨hrows, hfree⟩
      exact ⟨⟨hsequence, hnow, hfree⟩, hrows⟩

theorem clash_newRow {nowMs : Int} {a b : Item} (h : a.peerId ≠ b.peerId) :
    Keyed.clash (newRow nowMs a) (newRow nowMs b) = false := by
  have hpeer : (a.peerId == b.peerId) = false := beq_eq_false_iff_ne.mpr h
  show (a.peerId == b.peerId && _) = false
  rw [hpeer, Bool.false_and]

theorem insertAll_returns_iff {outbox : Outbox} {nowMs : Int} {items : List Item}
    (hpeers : OnePerPeer items) :
    (exists outbox', insertAll nowMs items outbox = .ok outbox') <->
      forall item, item ∈ items -> Insertable outbox nowMs item := by
  induction items generalizing outbox with
  | nil => exact ⟨fun _ _ hitem => (by cases hitem), fun _ => ⟨outbox, rfl⟩⟩
  | cons item rest ih =>
      rcases List.pairwise_cons.mp hpeers with ⟨hothers, hrest⟩
      constructor
      · rintro ⟨outbox', h⟩
        rcases bind_eq_ok.mp h with ⟨inserted, hone, h⟩
        rcases insertable_of_insertOne hone with ⟨hinsertable, hrows⟩
        intro other hother
        rcases List.mem_cons.mp hother with rfl | hother
        · exact hinsertable
        · have hlater := (ih hrest).mp ⟨outbox', h⟩ other hother
          refine ⟨hlater.sequence, hlater.now, ?_⟩
          intro row hrow
          apply hlater.free
          rw [hrows]
          exact List.mem_append_left _ hrow
      · intro h
        rcases insertOne_of_insertable (h item List.mem_cons_self) with ⟨inserted, hone, hrows⟩
        have hlater : forall other, other ∈ rest -> Insertable inserted nowMs other := by
          intro other hother
          have hbefore := h other (List.mem_cons_of_mem _ hother)
          refine ⟨hbefore.sequence, hbefore.now, ?_⟩
          intro row hrow
          rw [hrows] at hrow
          rcases List.mem_append.mp hrow with hold | hnew
          · exact hbefore.free row hold
          · rw [List.mem_singleton.mp hnew]
            exact clash_newRow (hothers other hother)
        rcases (ih hrest).mpr hlater with ⟨outbox', hall⟩
        refine ⟨outbox', ?_⟩
        rw [insertAll, hone]
        exact hall

/-!
## The whole batch
-/

theorem checkPending_eq_ok {limits : Limits} {pending : Nat} {newItems : List Item} :
    checkPending limits pending newItems = .ok () <->
      pending + newItems.length ≤ limits.maximumPending := by
  unfold checkPending
  split_ifs with hfull
  · exact ⟨fun h => (by cases h), fun h => absurd hfull (Nat.not_lt.mpr h)⟩
  · exact ⟨fun _ => Nat.not_lt.mp hfull, fun _ => rfl⟩

theorem checkOperational_eq_ok {limits : Limits} {operational : Nat} {newItems : List Item} :
    checkOperational limits operational newItems = .ok () <->
      operational + newOperational newItems ≤ limits.maximumPending - limits.safetyReserve := by
  unfold checkOperational
  split_ifs with hfull
  · exact ⟨fun h => (by cases h), fun h => absurd hfull (Nat.not_lt.mpr h)⟩
  · exact ⟨fun _ => Nat.not_lt.mp hfull, fun _ => rfl⟩

/-- There is something new in the batch, and nothing is in its way. -/
structure Fits (limits : Limits) (outbox : Outbox) (nowMs : Int) (items : List Item) : Prop where
  new : exists item, item ∈ items ∧ outbox.isNew item = true
  unbound : Unbound outbox items
  pending : outbox.pending + (items.filter outbox.isNew).length ≤ limits.maximumPending
  operational : outbox.operationalPending + newOperational (items.filter outbox.isNew) ≤
    limits.maximumPending - limits.safetyReserve
  insertable : forall item, item ∈ items -> outbox.isNew item = true ->
    Insertable outbox nowMs item

theorem storeItems_eq_ok {limits : Limits} {outbox outbox' : Outbox} {nowMs : Int}
    {items : List Item} (hpeers : OnePerPeer items)
    (h : outbox.storeItems limits nowMs items = .ok outbox') :
    outbox'.rows = outbox.rows ++ (items.filter outbox.isNew).map (newRow nowMs) ∧
      (outbox' = outbox ∨ Fits limits outbox nowMs items) := by
  rcases bind_eq_ok.mp h with ⟨newItems, hcollect, h⟩
  rcases bind_eq_ok.mp h with ⟨_, hpending, h⟩
  rcases bind_eq_ok.mp h with ⟨_, hoperational, h⟩
  rcases (collect_of_peers hpeers (fun _ _ => rfl) (fun _ _ _ hmem => (by cases hmem))).mp
    hcollect with ⟨hunbound, hnew⟩
  rw [List.nil_append] at hnew
  have hrows := insertAll_eq_ok h
  subst hnew
  refine ⟨hrows, ?_⟩
  by_cases hany : exists item, item ∈ items ∧ outbox.isNew item = true
  · refine Or.inr ⟨hany, hunbound, checkPending_eq_ok.mp hpending,
      checkOperational_eq_ok.mp hoperational, ?_⟩
    intro item hitem hfresh
    exact (insertAll_returns_iff (hpeers.filter _)).mp ⟨outbox', h⟩ item
      (List.mem_filter.mpr ⟨hitem, hfresh⟩)
  · have hnone : items.filter outbox.isNew = [] := by
      rw [List.filter_eq_nil_iff]
      exact fun item hitem hfresh => hany ⟨item, hitem, hfresh⟩
    rw [hnone, List.map_nil, List.append_nil] at hrows
    exact Or.inl (Table.eq_of_rows hrows)

theorem storeItems_of_fits {limits : Limits} {outbox : Outbox} {nowMs : Int} {items : List Item}
    (hpeers : OnePerPeer items) (h : Fits limits outbox nowMs items) :
    exists outbox', outbox.storeItems limits nowMs items = .ok outbox' ∧ outbox' ≠ outbox := by
  have hcollect : outbox.collect [] [] items = .ok (items.filter outbox.isNew) :=
    (collect_of_peers hpeers (fun _ _ => rfl) (fun _ _ _ hmem => (by cases hmem))).mpr
      ⟨h.unbound, rfl⟩
  have hinsertable : forall item, item ∈ items.filter outbox.isNew ->
      Insertable outbox nowMs item := by
    intro item hitem
    rcases List.mem_filter.mp hitem with ⟨hmem, hfresh⟩
    exact h.insertable item hmem hfresh
  rcases (insertAll_returns_iff (hpeers.filter _)).mpr hinsertable with ⟨outbox', hinsert⟩
  refine ⟨outbox', ?_, ?_⟩
  · unfold storeItems
    rw [hcollect]
    simp only [bind, Except.bind]
    rw [checkPending_eq_ok.mpr h.pending]
    dsimp only
    rw [checkOperational_eq_ok.mpr h.operational]
    exact hinsert
  · rintro rfl
    rcases h.new with ⟨item, hitem, hfresh⟩
    have hlength := congrArg List.length (insertAll_eq_ok hinsert)
    have hpos := List.length_pos_of_mem (List.mem_filter.mpr ⟨hitem, hfresh⟩)
    rw [List.length_append, List.length_map] at hlength
    omega

end Ump.Delivery.Outbox
