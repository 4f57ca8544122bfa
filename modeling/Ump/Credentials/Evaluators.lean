import Mathlib.Data.List.Sort
import Ump.Credentials.Soundness

/-!
# The evaluators of a credential

## The inventory

Whether a generation is the one in use is decided in three places: by the query of the
read-only inventory, by `require_active_bundle` of the store and by `read_active_credential`.
-/

namespace Ump.Credentials

open Foundation

inductive EffectiveStatus where
  | active
  | staged
  | retired
  | notYetValid
  | expired
  | revoked
deriving DecidableEq, Repr

namespace EffectiveStatus

def value : EffectiveStatus -> String
  | .active => "active"
  | .staged => "staged"
  | .retired => "retired"
  | .notYetValid => "not_yet_valid"
  | .expired => "expired"
  | .revoked => "revoked"

/-- `EFFECTIVE_CREDENTIAL_STATUSES`. -/
def all : List EffectiveStatus :=
  [.active, .staged, .retired, .notYetValid, .expired, .revoked]

theorem value_inj {a b : EffectiveStatus} (h : a.value = b.value) : a = b := by
  cases a <;> cases b <;> first | rfl | exact absurd h (by decide)

end EffectiveStatus

def GenerationStatus.value : GenerationStatus -> String
  | .staged => "staged"
  | .active => "active"
  | .retired => "retired"

def GenerationStatus.effective : GenerationStatus -> EffectiveStatus
  | .staged => .staged
  | .active => .active
  | .retired => .retired

structure CredentialGenerationSummary where
  generation : CredentialGeneration
  effectiveStatus : EffectiveStatus
  revoked : Bool
  createdAtMs : Int
  activatedAtMs : Option Int

structure InventoryQuery where
  robotId : String
  nowMs : Int
  effectiveStatus : Option String
  storedStatus : Option String
  limit : Int

def InventoryQuery.check (query : InventoryQuery) : Except Exn Unit := do
  refuseWhen (query.robotId.toList.all isSpace) "robot_id is required"
  refuseWhen (decide (query.nowMs < 0)) "now_ms must be a non-negative integer"
  refuseWhen (query.effectiveStatus.any (fun text =>
    !(EffectiveStatus.all.map EffectiveStatus.value).contains text))
    "effective credential status is invalid"
  refuseWhen (query.storedStatus.any (fun text =>
    !(["staged", "active", "retired"].contains text))) "stored credential status is invalid"
  refuseWhen (!decide (1 ≤ query.limit ∧ query.limit ≤ 1000))
    "credential limit must be between 1 and 1000"

namespace Database

def joins (db : Database) (fingerprint : String) : Bool :=
  (db.revoked.fetch (fun row => row.fingerprintSha256 == fingerprint)).isSome

/-- The `CASE` of the query. -/
def effectiveStatus (db : Database) (nowMs : Int) (row : GenerationRow) : EffectiveStatus :=
  if db.joins row.fingerprintSha256 then .revoked
  else if nowMs < row.notBeforeMs then .notYetValid
  else if row.notAfterMs ≤ nowMs then .expired
  else row.status.effective

/-- `_generation_summary`. -/
def summaryOf (db : Database) (nowMs : Int) (row : GenerationRow) :
    CredentialGenerationSummary where
  generation := generationOf row
  effectiveStatus := db.effectiveStatus nowMs row
  revoked := db.joins row.fingerprintSha256
  createdAtMs := row.createdAtMs
  activatedAtMs := row.activatedAtMs

def selects (db : Database) (query : InventoryQuery) (row : GenerationRow) : Bool :=
  row.robotId == query.robotId &&
    query.effectiveStatus.all (fun text => (db.effectiveStatus query.nowMs row).value == text) &&
    query.storedStatus.all (fun text => row.status.value == text)

def inventory (db : Database) (query : InventoryQuery) : List GenerationRow :=
  ((db.generations.rows.filter (db.selects query)).insertionSort
    (fun a b => b.generation ≤ a.generation)).take query.limit.toNat

def readCredentialGenerations (db : Database) (query : InventoryQuery) :
    Except Exn (List CredentialGenerationSummary) := do
  query.check
  bindInteger query.nowMs
  .ok ((db.inventory query).map (db.summaryOf query.nowMs))

end Database

/-!
### The configured files
-/

structure BundlePaths where
  certificatePath : String
  privateKeyPath : String
  caPath : String
deriving DecidableEq

def CredentialGeneration.paths (generation : CredentialGeneration) : BundlePaths where
  certificatePath := generation.certificatePath
  privateKeyPath := generation.privateKeyPath
  caPath := generation.caPath

def BundlePaths.resolved (resolve : String -> String) (paths : BundlePaths) : BundlePaths where
  certificatePath := resolve paths.certificatePath
  privateKeyPath := resolve paths.privateKeyPath
  caPath := resolve paths.caPath

def requireGeneration (resolve : String -> String) (generation : CredentialGeneration)
    (configured : BundlePaths) (revoked : Bool) (nowMs : Int) : Except Exn Unit := do
  refuseWhen (decide (configured.resolved resolve ≠ generation.paths.resolved resolve))
    "network TLS files do not match the active credential generation"
  refuseWhen revoked "active credential generation is revoked"
  refuseWhen (decide (nowMs < generation.notBeforeMs))
    "active credential generation is not yet valid"
  refuseWhen (decide (generation.notAfterMs ≤ nowMs)) "active credential generation is expired"

namespace Database

def requireActiveBundle (db : Database) (resolve : String -> String) (robotId : String)
    (configured : BundlePaths) (nowMs : Int) : Except Exn CredentialGeneration :=
  match db.active robotId with
  | none => .error (.value "robot has no active credential generation")
  | some row => do
      let revoked <- db.isRevoked row.fingerprintSha256
      requireGeneration resolve (generationOf row) configured revoked nowMs
      .ok (generationOf row)

/-- What `read_active_credential` does with the database that it has opened. -/
def inspectActive (db : Database) (resolve : String -> String) (robotId : String)
    (configured : BundlePaths) (nowMs : Int) : Except Exn CredentialGeneration :=
  match db.active robotId with
  | none => .error (.value "robot has no active credential generation")
  | some row => do
      requireGeneration resolve (generationOf row) configured
        (db.joins row.fingerprintSha256) nowMs
      .ok (generationOf row)

end Database

/-- The URI of `read_active_credential`. Nothing in the path is quoted, unlike in the URI of
the inventory. -/
def readOnlyUri (path : String) : String :=
  "file:" ++ path ++ "?mode=ro"

/-- `read_active_credential`, where `opens` is what SQLite finds for a URI. -/
def readActiveCredential (opens : String -> Except Exn Database) (path : String)
    (resolve : String -> String) (robotId : String) (configured : BundlePaths) (nowMs : Int) :
    Except Exn CredentialGeneration := do
  let db <- opens (readOnlyUri path)
  db.inspectActive resolve robotId configured nowMs

/-!
## What the evaluators decide

No other row of the table is active for the robot, so each evaluator finds the generation in use
or none.
-/

/-- The row is the robot's generation in use at the time. -/
structure InUse (db : Database) (robotId : String) (nowMs : Int) (row : GenerationRow) :
    Prop where
  mem : row ∈ db.generations.rows
  robotId : row.robotId = robotId
  status : db.effectiveStatus nowMs row = .active

theorem effectiveStatus_active_iff {db : Database} {nowMs : Int} {row : GenerationRow} :
    db.effectiveStatus nowMs row = .active <->
      db.joins row.fingerprintSha256 = false ∧ row.notBeforeMs ≤ nowMs ∧
        nowMs < row.notAfterMs ∧ row.isActive = true := by
  unfold Database.effectiveStatus
  by_cases hrevoked : db.joins row.fingerprintSha256 = true
  · rw [if_pos hrevoked, hrevoked]
    exact ⟨fun h => (by cases h), fun h => (by cases h.1)⟩
  · rw [if_neg hrevoked]
    have hjoins : db.joins row.fingerprintSha256 = false := by simpa using hrevoked
    by_cases hearly : nowMs < row.notBeforeMs
    · rw [if_pos hearly]
      exact ⟨fun h => (by cases h), fun h => absurd hearly (not_lt.mpr h.2.1)⟩
    · rw [if_neg hearly]
      by_cases hlate : row.notAfterMs ≤ nowMs
      · rw [if_pos hlate]
        exact ⟨fun h => (by cases h), fun h => absurd hlate (not_le.mpr h.2.2.1)⟩
      · rw [if_neg hlate, GenerationRow.isActive, decide_eq_true_iff]
        constructor
        · intro h
          refine ⟨hjoins, not_lt.mp hearly, not_le.mp hlate, ?_⟩
          cases hstatus : row.status with
          | active => rfl
          | staged =>
              rw [hstatus] at h
              cases h
          | retired =>
              rw [hstatus] at h
              cases h
        · rintro ⟨_, _, _, hstatus⟩
          rw [hstatus]
          rfl

theorem eq_of_active {db : Database} {a b : GenerationRow} (ha : a ∈ db.generations.rows)
    (hb : b ∈ db.generations.rows) (hrobot : a.robotId = b.robotId)
    (hactive : a.isActive = true) (hactive' : b.isActive = true) : a = b := by
  apply Table.eq_of_clash ha hb
  show (_ || _ || (a.isActive && b.isActive && a.robotId == b.robotId)) = true
  rw [hactive, hactive', hrobot, beq_self_eq_true]
  exact Bool.or_true _

theorem active_eq_some_iff {db : Database} {robotId : String} {row : GenerationRow} :
    db.active robotId = some row <->
      row ∈ db.generations.rows ∧ row.robotId = robotId ∧ row.isActive = true := by
  constructor
  · intro h
    rcases Table.fetch_eq_some h with ⟨hrow, htest⟩
    rw [Bool.and_eq_true, beq_iff_eq] at htest
    exact ⟨hrow, htest⟩
  · rintro ⟨hrow, hrobot, hactive⟩
    apply Table.fetch_of_mem hrow
    · rw [hrobot, hactive, beq_self_eq_true]
      rfl
    · intro other hother htest
      rw [Bool.and_eq_true, beq_iff_eq] at htest
      rw [eq_of_active hother hrow (htest.1.trans hrobot.symm) htest.2 hactive]
      show (row.generation == row.generation || _ || _) = true
      rw [beq_self_eq_true]
      rfl

theorem requireGeneration_iff {resolve : String -> String} {generation : CredentialGeneration}
    {configured : BundlePaths} {revoked : Bool} {nowMs : Int} :
    requireGeneration resolve generation configured revoked nowMs = .ok () <->
      configured.resolved resolve = generation.paths.resolved resolve ∧ revoked = false ∧
        generation.notBeforeMs ≤ nowMs ∧ nowMs < generation.notAfterMs := by
  constructor
  · intro h
    rcases bind_eq_ok.mp h with ⟨_, hpaths, h⟩
    rcases bind_eq_ok.mp h with ⟨_, hrevoked, h⟩
    rcases bind_eq_ok.mp h with ⟨_, hearly, hlate⟩
    have hsame := of_decide_eq_false (refuseWhen_eq_ok hpaths)
    exact ⟨not_not.mp hsame, refuseWhen_eq_ok hrevoked,
      not_lt.mp (of_decide_eq_false (refuseWhen_eq_ok hearly)),
      not_le.mp (of_decide_eq_false (refuseWhen_eq_ok hlate))⟩
  · rintro ⟨hpaths, rfl, hearly, hlate⟩
    unfold requireGeneration
    rw [decide_eq_false (not_not.mpr hpaths), decide_eq_false (not_lt.mpr hearly),
      decide_eq_false (not_le.mpr hlate)]
    rfl

def Digested (db : Database) : Prop :=
  forall row, row ∈ db.generations.rows ->
    normalFingerprint row.fingerprintSha256 = .ok row.fingerprintSha256

theorem isRevoked_of_digested {db : Database} (h : Digested db) {row : GenerationRow}
    (hrow : row ∈ db.generations.rows) :
    db.isRevoked row.fingerprintSha256 = .ok (db.joins row.fingerprintSha256) := by
  unfold Database.isRevoked
  rw [h row hrow]
  rfl

theorem requireActiveBundle_eq {db : Database} (h : Digested db) (resolve : String -> String)
    (robotId : String) (configured : BundlePaths) (nowMs : Int) :
    db.requireActiveBundle resolve robotId configured nowMs =
      db.inspectActive resolve robotId configured nowMs := by
  unfold Database.requireActiveBundle Database.inspectActive
  cases hactive : db.active robotId with
  | none => rfl
  | some row =>
      dsimp only
      rw [isRevoked_of_digested h (active_eq_some_iff.mp hactive).1]
      rfl

/-- With its own files a generation is what is returned just if it is the one in use. -/
theorem inspectActive_iff {db : Database} {resolve : String -> String} {robotId : String}
    {nowMs : Int} {generation : CredentialGeneration} :
    db.inspectActive resolve robotId generation.paths nowMs = .ok generation <->
      exists row, InUse db robotId nowMs row ∧ generationOf row = generation := by
  unfold Database.inspectActive
  constructor
  · intro h
    cases hactive : db.active robotId with
    | none =>
        rw [hactive] at h
        cases h
    | some row =>
        rw [hactive] at h
        rcases bind_eq_ok.mp h with ⟨_, hrequired, h⟩
        rcases requireGeneration_iff.mp hrequired with ⟨_, hrevoked, hearly, hlate⟩
        rcases active_eq_some_iff.mp hactive with ⟨hrow, hrobot, hstatus⟩
        exact ⟨row, ⟨hrow, hrobot, effectiveStatus_active_iff.mpr
          ⟨hrevoked, hearly, hlate, hstatus⟩⟩, Except.ok.inj h⟩
  · rintro ⟨row, hinUse, rfl⟩
    rcases effectiveStatus_active_iff.mp hinUse.status with ⟨hrevoked, hearly, hlate, hstatus⟩
    rw [active_eq_some_iff.mpr ⟨hinUse.mem, hinUse.robotId, hstatus⟩]
    dsimp only
    rw [requireGeneration_iff.mpr ⟨rfl, hrevoked, hearly, hlate⟩]
    rfl

theorem readActiveCredential_iff {opens : String -> Except Exn Database}
    {path robotId : String} {resolve : String -> String} {nowMs : Int}
    {generation : CredentialGeneration} :
    readActiveCredential opens path resolve robotId generation.paths nowMs = .ok generation <->
      exists opened, opens (readOnlyUri path) = .ok opened ∧
        exists row, InUse opened robotId nowMs row ∧ generationOf row = generation := by
  constructor
  · intro h
    rcases bind_eq_ok.mp h with ⟨opened, hopened, h⟩
    exact ⟨opened, hopened, inspectActive_iff.mp h⟩
  · rintro ⟨opened, hopened, h⟩
    exact bind_eq_ok.mpr ⟨opened, hopened, inspectActive_iff.mpr h⟩

/-!
## What the inventory lists

A query that cuts nothing off lists every row that it selects, and no listing has two generations
in use.
-/

def isUsed (summary : CredentialGenerationSummary) : Bool :=
  decide (summary.effectiveStatus = .active)

/-- A query for the active generation, or one that no generation of the robot is beyond the
limit of. A filter on the stored status is for `active`. -/
structure ShowsActive (db : Database) (query : InventoryQuery) : Prop where
  effective : query.effectiveStatus = some "active" ∨ query.effectiveStatus = none ∧
    (db.generations.rows.countP (fun row => row.robotId == query.robotId) : Int) ≤ query.limit
  stored : query.storedStatus = none ∨ query.storedStatus = some "active"

section

variable {db : Database} {query : InventoryQuery}

/-- The listing does not raise: the robot id is not blank, the time not negative, and the
rest of the query is in order. -/
def Accepts (query : InventoryQuery) : Prop :=
  query.check = .ok () ∧ bindInteger query.nowMs = .ok ()

theorem readCredentialGenerations_eq_ok {summaries : List CredentialGenerationSummary} :
    db.readCredentialGenerations query = .ok summaries <->
      Accepts query ∧ summaries = (db.inventory query).map (db.summaryOf query.nowMs) := by
  constructor
  · intro h
    rcases bind_eq_ok.mp h with ⟨_, hcheck, h⟩
    rcases bind_eq_ok.mp h with ⟨_, hbind, h⟩
    exact ⟨⟨hcheck, hbind⟩, (Except.ok.inj h).symm⟩
  · rintro ⟨⟨hcheck, hbind⟩, rfl⟩
    exact bind_eq_ok.mpr ⟨(), hcheck, bind_eq_ok.mpr ⟨(), hbind, rfl⟩⟩

theorem Accepts.limit (h : Accepts query) : 1 ≤ query.limit := by
  rcases bind_eq_ok.mp h.1 with ⟨_, _, hcheck⟩
  rcases bind_eq_ok.mp hcheck with ⟨_, _, hcheck⟩
  rcases bind_eq_ok.mp hcheck with ⟨_, _, hcheck⟩
  rcases bind_eq_ok.mp hcheck with ⟨_, _, hlimit⟩
  have hbounds := refuseWhen_eq_ok hlimit
  rw [Bool.not_eq_false', decide_eq_true_iff] at hbounds
  exact hbounds.1

theorem mem_of_inventory {row : GenerationRow} (h : row ∈ db.inventory query) :
    row ∈ db.generations.rows ∧ db.selects query row = true :=
  List.mem_filter.mp ((List.mem_insertionSort _).mp (List.mem_of_mem_take h))

theorem robotId_of_selects {row : GenerationRow} (h : db.selects query row = true) :
    row.robotId = query.robotId := by
  unfold Database.selects at h
  rw [Bool.and_eq_true, Bool.and_eq_true, beq_iff_eq] at h
  exact h.1.1

theorem mem_inventory (hlimit : ((db.generations.rows.filter (db.selects query)).length : Int) ≤
    query.limit) {row : GenerationRow} (hrow : row ∈ db.generations.rows)
    (hselects : db.selects query row = true) : row ∈ db.inventory query := by
  unfold Database.inventory
  rw [List.take_of_length_le (by rw [List.length_insertionSort]; omega)]
  exact (List.mem_insertionSort _).mpr (List.mem_filter.mpr ⟨hrow, hselects⟩)

theorem selects_of_inUse {row : GenerationRow} (h : InUse db query.robotId query.nowMs row)
    (hquery : ShowsActive db query) : db.selects query row = true := by
  have hstatus : row.status = .active := by
    have hactive := (effectiveStatus_active_iff.mp h.status).2.2.2
    exact of_decide_eq_true hactive
  have heffective : query.effectiveStatus.all (fun text =>
      (db.effectiveStatus query.nowMs row).value == text) = true := by
    rw [h.status]
    rcases hquery.effective with hactive | ⟨hnone, _⟩
    · rw [hactive]
      rfl
    · rw [hnone]
      rfl
  have hstored : query.storedStatus.all (fun text => row.status.value == text) = true := by
    rw [hstatus]
    rcases hquery.stored with hnone | hactive
    · rw [hnone]
      rfl
    · rw [hactive]
      rfl
  unfold Database.selects
  rw [h.robotId, heffective, hstored, beq_self_eq_true]
  rfl

theorem length_selects_le_one (h : query.effectiveStatus = some "active") :
    (db.generations.rows.filter (db.selects query)).length ≤ 1 := by
  have hactive : forall row, db.selects query row = true ->
      db.effectiveStatus query.nowMs row = .active := by
    intro row hrow
    unfold Database.selects at hrow
    rw [h, Bool.and_eq_true, Bool.and_eq_true, Option.all_some] at hrow
    exact EffectiveStatus.value_inj (beq_iff_eq.mp hrow.1.2)
  have hused := active_once db query.robotId
  rw [← List.countP_eq_length_filter] at hused ⊢
  apply Nat.le_trans (List.countP_mono_left _) hused
  intro row _ hrow
  rw [robotId_of_selects hrow, (effectiveStatus_active_iff.mp (hactive row hrow)).2.2.2,
    beq_self_eq_true]
  rfl

theorem inventory_complete (hlimit : 1 ≤ query.limit) (hquery : ShowsActive db query)
    {row : GenerationRow} (h : InUse db query.robotId query.nowMs row) :
    row ∈ db.inventory query := by
  apply mem_inventory _ h.mem (selects_of_inUse h hquery)
  rcases hquery.effective with hactive | ⟨_, hcount⟩
  · have hone : (db.generations.rows.filter (db.selects query)).length ≤ 1 :=
      length_selects_le_one hactive
    omega
  · apply le_trans _ hcount
    rw [← List.countP_eq_length_filter]
    apply Int.ofNat_le.mpr
    apply List.countP_mono_left
    intro row _ hrow
    rw [robotId_of_selects hrow, beq_self_eq_true]

theorem listed_iff (hlimit : 1 ≤ query.limit) (hquery : ShowsActive db query)
    {generation : CredentialGeneration} :
    (exists summary, summary ∈ (db.inventory query).map (db.summaryOf query.nowMs) ∧
      summary.effectiveStatus = .active ∧ summary.generation = generation) <->
      exists row, InUse db query.robotId query.nowMs row ∧ generationOf row = generation := by
  constructor
  · rintro ⟨_, hsummary, hactive, hgeneration⟩
    rcases List.mem_map.mp hsummary with ⟨row, hrow, rfl⟩
    rcases mem_of_inventory hrow with ⟨hmem, hselects⟩
    exact ⟨row, ⟨hmem, robotId_of_selects hselects, hactive⟩, hgeneration⟩
  · rintro ⟨row, hinUse, hgeneration⟩
    exact ⟨db.summaryOf query.nowMs row,
      List.mem_map.mpr ⟨row, inventory_complete hlimit hquery hinUse, rfl⟩, hinUse.status,
      hgeneration⟩

theorem listed_once (db : Database) (query : InventoryQuery) :
    (((db.inventory query).map (db.summaryOf query.nowMs)).filter isUsed).length ≤ 1 := by
  have hused := active_once db query.robotId
  rw [← List.countP_eq_length_filter] at hused ⊢
  rw [List.countP_map]
  have hselected : (db.inventory query).countP (isUsed ∘ db.summaryOf query.nowMs) ≤
      (db.generations.rows.filter (db.selects query)).countP
        (isUsed ∘ db.summaryOf query.nowMs) := by
    have hsorted := (List.perm_insertionSort
      (fun a b : GenerationRow => b.generation ≤ a.generation)
      (db.generations.rows.filter (db.selects query))).countP_eq
        (isUsed ∘ db.summaryOf query.nowMs)
    rw [← hsorted]
    exact (List.take_sublist _ _).countP_le
  apply Nat.le_trans hselected
  rw [List.countP_filter]
  apply Nat.le_trans (List.countP_mono_left _) hused
  intro row _ hrow
  rw [Bool.and_eq_true] at hrow
  have hactive := effectiveStatus_active_iff.mp (of_decide_eq_true hrow.1)
  rw [robotId_of_selects hrow.2, hactive.2.2.2, beq_self_eq_true]
  rfl

end

/-!
## Reachable databases

The fingerprints of the library are digests in lower case, and then so are the stored ones.
-/

section

variable {Certificate Key : Type} {library : Library Certificate Key}

def DigestsNormal (library : Library Certificate Key) : Prop :=
  forall certificate, normalFingerprint (library.fingerprint certificate) =
    .ok (library.fingerprint certificate)

theorem normal_of_validateBundle (hlibrary : DigestsNormal library) {robotId : String}
    {bundle : Bundle} {nowMs : Int} {parsed : Parsed}
    (h : validateBundle library robotId bundle nowMs = .ok parsed) :
    normalFingerprint parsed.fingerprint = .ok parsed.fingerprint := by
  rcases bind_eq_ok.mp h with ⟨certificate, _, h⟩
  rcases bind_eq_ok.mp h with ⟨_, _, h⟩
  rcases bind_eq_ok.mp h with ⟨_, _, h⟩
  rcases bind_eq_ok.mp h with ⟨_, _, h⟩
  rcases bind_eq_ok.mp h with ⟨_, _, h⟩
  rcases bind_eq_ok.mp h with ⟨_, _, h⟩
  rcases bind_eq_ok.mp h with ⟨_, _, h⟩
  rcases bind_eq_ok.mp h with ⟨_, _, h⟩
  rw [← Except.ok.inj h]
  exact hlibrary certificate

theorem Digested.enroll {db db' : Database} {store : CredentialStore} {parsed : Parsed}
    {written : Except Exn Unit} {nowMs generation : Int} (h : Digested db)
    (hnormal : normalFingerprint parsed.fingerprint = .ok parsed.fingerprint)
    (hok : db.enroll store parsed written nowMs = .ok (generation, db')) : Digested db' := by
  rcases bind_eq_ok.mp hok with ⟨⟨staged, staging⟩, hstage, hok⟩
  rcases bind_eq_ok.mp hok with ⟨_, _, hok⟩
  rcases bind_eq_ok.mp hok with ⟨last, hevent, hok⟩
  cases hok
  rcases stage_eq_ok hstage with ⟨new, _, hfingerprint, _, hrows, _⟩
  rw [event_eq_ok hevent]
  intro row hrow
  rcases mem_setPaths.mp hrow with ⟨old, hold, hsame⟩
  have hkept : row.fingerprintSha256 = old.fingerprintSha256 := by
    rw [← hsame, apply_ite GenerationRow.fingerprintSha256]
    exact ite_self old.fingerprintSha256
  rw [hrows, List.mem_append, List.mem_singleton] at hold
  rw [hkept]
  rcases hold with hold | rfl
  · exact h old hold
  · rw [hfingerprint]
    exact hnormal

theorem Digested.change {db db' : Database} {p : GenerationRow -> Bool}
    {f : GenerationRow -> GenerationRow} (h : Digested db) (hok : db.change p f = .ok db')
    (hf : forall row, (f row).fingerprintSha256 = row.fingerprintSha256) : Digested db' := by
  rcases change_eq_ok hok with ⟨generations, hchange, rfl⟩
  intro row hrow
  rcases (Table.mem_change?_iff hchange).mp hrow with ⟨old, hold, hsame⟩
  have hkept : row.fingerprintSha256 = old.fingerprintSha256 := by
    rw [← hsame, apply_ite GenerationRow.fingerprintSha256, hf]
    exact ite_self old.fingerprintSha256
  rw [hkept]
  exact h old hold

theorem Digested.effect (hlibrary : DigestsNormal library) {store : CredentialStore}
    {db db' : Database} {done : Done} (h : Digested db)
    (heffect : Effect library store db done db') : Digested db' := by
  cases heffect with
  | enrolled hparsed hok => exact h.enroll (normal_of_validateBundle hlibrary hparsed) hok
  | activated hok =>
      rcases bind_eq_ok.mp hok with ⟨row, _, hok⟩
      rcases bind_eq_ok.mp hok with ⟨_, _, hok⟩
      rcases bind_eq_ok.mp hok with ⟨retired, hretired, hok⟩
      rcases bind_eq_ok.mp hok with ⟨active, hactive, hevent⟩
      rcases bind_eq_ok.mp hactive with ⟨_, _, hactive⟩
      have hchanged := (h.change hretired (fun _ => rfl)).change hactive (fun _ => rfl)
      rw [event_eq_ok hevent]
      exact hchanged
  | revoked _ hok =>
      rcases bind_eq_ok.mp hok with ⟨inserted, hinsert, hok⟩
      rcases bind_eq_ok.mp hok with ⟨retired, hretired, hevent⟩
      rcases bind_eq_ok.mp hinsert with ⟨_, _, hinsert⟩
      have hinserted : Digested inserted := by
        split at hinsert
        · cases hinsert
          exact h
        · cases hinsert
      have hchanged := hinserted.change hretired (fun _ => rfl)
      rw [event_eq_ok hevent]
      exact hchanged

def Lists (db : Database) (query : InventoryQuery) (generation : CredentialGeneration) : Prop :=
  exists summaries summary, db.readCredentialGenerations query = .ok summaries ∧
    summary ∈ summaries ∧ summary.effectiveStatus = .active ∧ summary.generation = generation

/-- No listing has two active generations, and a generation is listed as active just if both
evaluators return it for its own files. -/
structure EvaluatorsAgree (db : Database) (opens : String -> Except Exn Database) (path : String)
    (resolve : String -> String) (query : InventoryQuery) : Prop where
  once : forall summaries, db.readCredentialGenerations query = .ok summaries ->
    (summaries.filter isUsed).length ≤ 1
  agree : forall generation : CredentialGeneration, Lists db query generation <->
    db.requireActiveBundle resolve query.robotId generation.paths query.nowMs = .ok generation ∧
      readActiveCredential opens path resolve query.robotId generation.paths query.nowMs =
        .ok generation

/-- If a generation of the robot is in use, the listing accepts the query just if the
database that is opened for the URI has the same generation in use. -/
def ReadsAlike (db : Database) (opens : String -> Except Exn Database) (path : String)
    (query : InventoryQuery) : Prop :=
  forall row, InUse db query.robotId query.nowMs row ->
    (Accepts query <-> exists opened, opens (readOnlyUri path) = .ok opened ∧
      exists copy, InUse opened query.robotId query.nowMs copy ∧
        generationOf copy = generationOf row)

theorem readsAlike_of_opens {db : Database} {opens : String -> Except Exn Database}
    {path : String} {query : InventoryQuery} (hopens : opens (readOnlyUri path) = .ok db)
    (haccepts : Accepts query) : ReadsAlike db opens path query :=
  fun row hinUse => ⟨fun _ => ⟨db, hopens, row, hinUse, rfl⟩, fun _ => haccepts⟩

theorem lists_iff {db : Database} {query : InventoryQuery} (hquery : ShowsActive db query)
    {generation : CredentialGeneration} : Lists db query generation <->
      Accepts query ∧
        exists row, InUse db query.robotId query.nowMs row ∧ generationOf row = generation := by
  constructor
  · rintro ⟨summaries, summary, hread, hsummary⟩
    rcases readCredentialGenerations_eq_ok.mp hread with ⟨haccepts, rfl⟩
    exact ⟨haccepts, (listed_iff haccepts.limit hquery).mp ⟨summary, hsummary⟩⟩
  · rintro ⟨haccepts, hinUse⟩
    rcases (listed_iff haccepts.limit hquery).mpr hinUse with ⟨summary, hsummary⟩
    exact ⟨_, summary, readCredentialGenerations_eq_ok.mpr ⟨haccepts, rfl⟩, hsummary⟩

theorem evaluatorsAgree_iff {db : Database} (hdigested : Digested db)
    (opens : String -> Except Exn Database) (path : String) (resolve : String -> String)
    {query : InventoryQuery} (hquery : ShowsActive db query) :
    EvaluatorsAgree db opens path resolve query <-> ReadsAlike db opens path query := by
  constructor
  · intro h row hinUse
    have hagree := h.agree (generationOf row)
    rw [lists_iff hquery, requireActiveBundle_eq hdigested, inspectActive_iff,
      readActiveCredential_iff] at hagree
    have hrow : exists other, InUse db query.robotId query.nowMs other ∧
        generationOf other = generationOf row := ⟨row, hinUse, rfl⟩
    constructor
    · intro haccepts
      exact (hagree.mp ⟨haccepts, hrow⟩).2
    · intro hopened
      exact (hagree.mpr ⟨hrow, hopened⟩).1
  · intro h
    constructor
    case once =>
        intro summaries hread
        rcases readCredentialGenerations_eq_ok.mp hread with ⟨_, rfl⟩
        exact listed_once db query
    case agree =>
        intro generation
        rw [lists_iff hquery, requireActiveBundle_eq hdigested, inspectActive_iff,
          readActiveCredential_iff, and_comm]
        apply and_congr_right
        rintro ⟨row, hinUse, rfl⟩
        exact h row hinUse

/-- After every sequence of calls of any stores on one database. -/
theorem evaluators_agree (hlibrary : DigestsNormal library) (calls : List Call)
    (opens : String -> Except Exn Database) (path : String) (resolve : String -> String) :
    exists db, (History.replay library calls).session = .idle db ∧
      forall query, ShowsActive db query ->
        (EvaluatorsAgree db opens path resolve query <-> ReadsAlike db opens path query) := by
  rcases replay_keeps library (P := Digested) (fun row hrow => by cases hrow)
    (fun h heffect => h.effect hlibrary heffect) calls with ⟨db, hidle, hdigested⟩
  exact ⟨db, hidle, fun query hquery => evaluatorsAgree_iff hdigested opens path resolve hquery⟩

end

theorem patrol_digestsNormal : DigestsNormal patrolLibrary := by
  intro certificate
  have hrepeated : forall c, c ∈ hexDigits -> normalFingerprint (String.ofList
      (List.replicate 64 c)) = .ok (String.ofList (List.replicate 64 c)) := by
    intro c hc
    apply normal_of_digits
    · rw [String.toList_ofList, List.length_replicate]
    · intro other hother
      rw [String.toList_ofList] at hother
      rw [List.eq_of_mem_replicate hother]
      exact hc
  apply hrepeated
  split_ifs <;> decide

def patrolDatabase : Database :=
  (History.replay patrolLibrary (patrolCalls.take 4)).session.committed

def patrolOpens (uri : String) : Except Exn Database :=
  if uri = "file:/srv/ump/credentials.sqlite3?mode=ro" then .ok patrolDatabase
  else .error (.value "credential database cannot be inspected: no such table")

def patrolQuery : InventoryQuery :=
  ⟨"r1", 60, some "active", none, 100⟩

theorem evaluators_agree_on_patrol :
    (exists db, (History.replay patrolLibrary (patrolCalls.take 4)).session = .idle db ∧
      EvaluatorsAgree db patrolOpens "/srv/ump/credentials.sqlite3" id patrolQuery) ∧
    (patrolDatabase.inventory patrolQuery).map GenerationRow.generation = [2] := by
  rcases evaluators_agree patrol_digestsNormal (patrolCalls.take 4) patrolOpens
    "/srv/ump/credentials.sqlite3" id with ⟨db, hidle, hagree⟩
  have hsame : patrolDatabase = db := by
    unfold patrolDatabase
    rw [hidle]
    rfl
  have hopens : patrolOpens (readOnlyUri "/srv/ump/credentials.sqlite3") = .ok db := by
    rw [← hsame]
    rfl
  refine ⟨⟨db, hidle, ?_⟩, by decide⟩
  exact (hagree patrolQuery ⟨Or.inl rfl, Or.inl rfl⟩).mpr
    (readsAlike_of_opens hopens ⟨by decide, by decide⟩)

/-- In a directory with a hash in its name the database is listed and required, but the URI
names another file. -/
theorem hash_in_path_disagrees :
    ¬ forall (opens : String -> Except Exn Database) (path : String) (query : InventoryQuery),
      ShowsActive patrolDatabase query ->
        EvaluatorsAgree patrolDatabase opens path id query := by
  intro hall
  have hagree := (hall patrolOpens "/srv/ump/lab#1/credentials.sqlite3" patrolQuery
    ⟨Or.inl rfl, Or.inl rfl⟩).agree
  have hlisted : exists summary,
      summary ∈ (patrolDatabase.inventory patrolQuery).map (patrolDatabase.summaryOf 60) ∧
        summary.effectiveStatus = .active := by
    decide +kernel
  rcases hlisted with ⟨summary, hsummary, hactive⟩
  have hread := ((hagree summary.generation).mp ⟨_, summary,
    readCredentialGenerations_eq_ok.mpr ⟨⟨by decide, by decide⟩, rfl⟩, hsummary, hactive,
    rfl⟩).2
  rcases bind_eq_ok.mp hread with ⟨opened, hopened, _⟩
  cases hopened

end Ump.Credentials
