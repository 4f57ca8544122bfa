import Ump.Credentials.Lifecycle

/-!
# Soundness of the credentials

## The invariant
-/

namespace Ump.Credentials

open Foundation

/-- The generation was activated by its own robot, inside its validity window. -/
def Activated (log : List Entry) (row : GenerationRow) : Prop :=
  exists activatedAtMs, row.activatedAtMs = some activatedAtMs ∧
    row.notBeforeMs ≤ activatedAtMs ∧ activatedAtMs < row.notAfterMs ∧
    ({ robotId := row.robotId, done := .activated row.generation activatedAtMs } : Entry) ∈ log

structure Sound (db : Database) (log : List Entry) : Prop where
  events : db.events = log.map Entry.event
  activated : forall row, row ∈ db.generations.rows -> row.isActive = true -> Activated log row
  unrevoked : forall row, row ∈ db.generations.rows -> row.isActive = true ->
    forall revoked, revoked ∈ db.revoked.rows ->
      revoked.fingerprintSha256 ≠ row.fingerprintSha256
  normal : forall revoked, revoked ∈ db.revoked.rows ->
    normalFingerprint revoked.fingerprintSha256 = .ok revoked.fingerprintSha256

theorem Activated.concat {log : List Entry} {row : GenerationRow} (h : Activated log row)
    (entry : Entry) : Activated (log ++ [entry]) row := by
  rcases h with ⟨activatedAtMs, hat, hafter, hbefore, hmem⟩
  exact ⟨activatedAtMs, hat, hafter, hbefore, List.mem_append_left _ hmem⟩

/-!
## Fingerprints
-/

theorem toLower_hexDigit {c : Char} (h : c ∈ hexDigits) : c.toLower = c := by
  have hall : hexDigits.all (fun d => d.toLower == d) = true := rfl
  exact eq_of_beq (List.all_eq_true.mp hall c h)

theorem hexDigits_of_normal {value fingerprint : String}
    (h : normalFingerprint value = .ok fingerprint) :
    fingerprint.toList.length = 64 ∧ forall c, c ∈ fingerprint.toList -> c ∈ hexDigits := by
  rcases bind_eq_ok.mp h with ⟨_, hchecked, h⟩
  have hcondition := refuseWhen_eq_ok hchecked
  rw [Bool.or_eq_false_iff, decide_eq_false_iff_not, not_not, List.any_eq_false] at hcondition
  rw [← Except.ok.inj h, String.toList_ofList]
  refine ⟨hcondition.1, ?_⟩
  intro c hc
  have hdigit := hcondition.2 c hc
  simpa using hdigit

theorem normal_of_digits {fingerprint : String} (hlength : fingerprint.toList.length = 64)
    (hdigits : forall c, c ∈ fingerprint.toList -> c ∈ hexDigits) :
    normalFingerprint fingerprint = .ok fingerprint := by
  have hlowered : fingerprint.toList.map Char.toLower = fingerprint.toList := by
    rw [List.map_congr_left (fun c hc => toLower_hexDigit (hdigits c hc)), List.map_id']
  unfold normalFingerprint
  dsimp only
  rw [hlowered]
  have hcondition : (decide (fingerprint.toList.length ≠ 64) ||
      fingerprint.toList.any (fun c => !hexDigits.contains c)) = false := by
    rw [Bool.or_eq_false_iff, decide_eq_false_iff_not, not_not, List.any_eq_false]
    refine ⟨hlength, ?_⟩
    intro c hc
    have hdigit := hdigits c hc
    simpa using hdigit
  rw [hcondition, String.ofList_toList]
  rfl

theorem normal_of_normal {value fingerprint : String}
    (h : normalFingerprint value = .ok fingerprint) :
    normalFingerprint fingerprint = .ok fingerprint := by
  rcases hexDigits_of_normal h with ⟨hlength, hdigits⟩
  exact normal_of_digits hlength hdigits

theorem ne_of_not_revoked {db : Database} {fingerprint : String}
    (hnormal : forall revoked, revoked ∈ db.revoked.rows ->
      normalFingerprint revoked.fingerprintSha256 = .ok revoked.fingerprintSha256)
    (h : db.isRevoked fingerprint = .ok false) (revoked : RevokedRow)
    (hrevoked : revoked ∈ db.revoked.rows) : revoked.fingerprintSha256 ≠ fingerprint := by
  intro hsame
  rcases bind_eq_ok.mp h with ⟨normal, hfingerprint, hfound⟩
  rw [← hsame, hnormal revoked hrevoked] at hfingerprint
  have hnone : db.revoked.fetch (fun row => row.fingerprintSha256 == normal) = none := by
    have hfalse := Except.ok.inj hfound
    rwa [Option.isSome_eq_false_iff, Option.isNone_iff_eq_none] at hfalse
  have hne := Table.fetch_eq_none.mp hnone revoked hrevoked
  rw [← Except.ok.inj hfingerprint, beq_self_eq_true] at hne
  cases hne

/-!
## The statements

What each writing statement does to the rows: an enrolment adds a staged generation with the next
number, an activation retires the active generation of the robot first, and a revocation
retires the generation of its fingerprint, whichever robot that belongs to.
-/

theorem event_eq_ok {db db' : Database} {robotId eventType : String} {occurredAtMs : Int}
    {detail : Json} (h : db.event robotId eventType occurredAtMs detail = .ok db') :
    db' = { db with
      events := db.events ++
        [{ robotId := robotId, eventType := eventType, occurredAtMs := occurredAtMs,
           detailJson := detail }] } := by
  rcases bind_eq_ok.mp h with ⟨_, _, h⟩
  exact (Except.ok.inj h).symm

theorem change_eq_ok {db db' : Database} {p : GenerationRow -> Bool}
    {f : GenerationRow -> GenerationRow} (h : db.change p f = .ok db') :
    exists generations, db.generations.change? p f = some generations ∧
      db' = { db with generations := generations } := by
  unfold Database.change at h
  cases hchange : db.generations.change? p f with
  | none =>
      rw [hchange] at h
      cases h
  | some generations =>
      rw [hchange] at h
      exact ⟨generations, rfl, (Except.ok.inj h).symm⟩

theorem eq_of_generation {table : Table GenerationRow} {a b : GenerationRow}
    (ha : a ∈ table.rows) (hb : b ∈ table.rows) (h : a.generation = b.generation) : a = b := by
  apply Table.eq_of_clash ha hb
  show (a.generation == b.generation || _ || _) = true
  rw [h, beq_self_eq_true]
  rfl

theorem mem_setPaths {db : Database} {generation : Int} {directory : String}
    {row : GenerationRow} : row ∈ (db.setPaths generation directory).generations.rows <->
      exists old, old ∈ db.generations.rows ∧
        (if old.generation == generation then Database.withPaths directory old else old) =
          row :=
  @Table.mem_update_iff _ _ _ _ _ (Database.keepsKeys_withPaths directory) _

theorem stage_eq_ok {db db' : Database} {robotId : String} {parsed : Parsed}
    {nowMs generation : Int} (h : db.stage robotId parsed nowMs = .ok (generation, db')) :
    exists row, row.generation = generation ∧ row.fingerprintSha256 = parsed.fingerprint ∧
      row.status = .staged ∧ db'.generations.rows = db.generations.rows ++ [row] ∧
      (forall old, old ∈ db.generations.rows -> old.generation ≠ generation) ∧
      db'.revoked = db.revoked ∧ db'.events = db.events ∧
      bindInteger generation = .ok () := by
  rcases bind_eq_ok.mp h with ⟨_, _, h⟩
  rcases bind_eq_ok.mp h with ⟨_, _, h⟩
  rcases bind_eq_ok.mp h with ⟨_, _, h⟩
  rcases bind_eq_ok.mp h with ⟨_, hfull, h⟩
  have hbound : db.lastGeneration < 2 ^ 63 - 1 := by
    unfold Database.refuseFull at hfull
    split_ifs at hfull with hcounter
    exact Nat.not_le.mp hcounter
  dsimp only at h
  split at h
  · rename_i generations hinsert
    rcases Table.insert?_eq_some hinsert with ⟨hrows, hclash⟩
    cases h
    refine ⟨_, rfl, rfl, rfl, hrows, ?_, rfl, rfl, ?_⟩
    · intro old hold hgeneration
      have hfalse := hclash old hold
      rw [show Keyed.clash old _ = (old.generation == _ || _ || _) from rfl, hgeneration,
        beq_self_eq_true] at hfalse
      cases hfalse
    · unfold bindInteger
      rw [if_pos (by omega)]
  · cases h

theorem active_of_stage {db db' : Database} {robotId directory : String} {parsed : Parsed}
    {nowMs generation : Int} (h : db.stage robotId parsed nowMs = .ok (generation, db'))
    {row : GenerationRow} (hrow : row ∈ (db'.setPaths generation directory).generations.rows)
    (hactive : row.isActive = true) : row ∈ db.generations.rows := by
  rcases stage_eq_ok h with ⟨new, _, _, hstaged, hrows, hnew, _⟩
  rcases mem_setPaths.mp hrow with ⟨old, hold, hsame⟩
  rw [hrows, List.mem_append, List.mem_singleton] at hold
  rcases hold with hold | hold
  · rw [if_neg (fun hgeneration => hnew old hold (beq_iff_eq.mp hgeneration))] at hsame
    rw [← hsame]
    exact hold
  · have hnot : row.isActive = false := by
      have hstatus : row.status = .staged := by
        rw [← hsame, hold, apply_ite GenerationRow.status]
        exact (ite_self new.status).trans hstaged
      unfold GenerationRow.isActive
      rw [hstatus]
      rfl
    rw [hnot] at hactive
    cases hactive

/-!
## One call
-/

theorem Sound.enroll {db db' : Database} {log : List Entry} (h : Sound db log)
    {store : CredentialStore} {parsed : Parsed} {written : Except Exn Unit}
    {nowMs generation : Int}
    (hok : db.enroll store parsed written nowMs = .ok (generation, db')) :
    Sound db' (log ++
      [{ robotId := store.robotId, done := .enrolled generation parsed.fingerprint nowMs }]) := by
  rcases bind_eq_ok.mp hok with ⟨⟨staged, staging⟩, hstage, hok⟩
  rcases bind_eq_ok.mp hok with ⟨_, _, hok⟩
  rcases bind_eq_ok.mp hok with ⟨last, hevent, hok⟩
  cases hok
  rcases stage_eq_ok hstage with ⟨_, _, _, _, _, _, hkeepsRevoked, hkeepsEvents, _⟩
  rw [event_eq_ok hevent]
  constructor
  · show staging.events ++ _ = _
    rw [hkeepsEvents, h.events, List.map_append]
    rfl
  · intro row hrow hactive
    exact (h.activated row (active_of_stage hstage hrow hactive) hactive).concat _
  · intro row hrow hactive revoked hrevoked
    have hstored : revoked ∈ staging.revoked.rows := hrevoked
    rw [hkeepsRevoked] at hstored
    exact h.unrevoked row (active_of_stage hstage hrow hactive) hactive revoked hstored
  · intro revoked hrevoked
    have hstored : revoked ∈ staging.revoked.rows := hrevoked
    rw [hkeepsRevoked] at hstored
    exact h.normal revoked hstored

theorem mem_of_retired {db db' : Database} {p : GenerationRow -> Bool}
    (h : db.change p Database.retired = .ok db') {row : GenerationRow}
    (hrow : row ∈ db'.generations.rows) (hactive : row.isActive = true) :
    row ∈ db.generations.rows ∧ p row = false := by
  rcases change_eq_ok h with ⟨generations, hchange, hdb⟩
  rw [hdb] at hrow
  rcases (Table.mem_change?_iff hchange).mp hrow with ⟨old, hold, hsame⟩
  by_cases hp : p old = true
  · rw [if_pos hp] at hsame
    rw [← hsame] at hactive
    cases hactive
  · rw [if_neg hp] at hsame
    rw [← hsame]
    exact ⟨hold, Bool.eq_false_iff.mpr hp⟩

theorem row_eq_ok {db : Database} {generation : Int} {row : GenerationRow}
    (h : db.row generation = .ok row) :
    row ∈ db.generations.rows ∧ row.generation = generation := by
  rcases bind_eq_ok.mp h with ⟨_, _, h⟩
  unfold required at h
  split at h
  · rename_i found hfetch
    rcases Table.fetch_eq_some hfetch with ⟨hmem, hgeneration⟩
    rw [← Except.ok.inj h]
    exact ⟨hmem, beq_iff_eq.mp hgeneration⟩
  · cases h

theorem checkActivation_eq_ok {db : Database} {robotId : String} {row : GenerationRow}
    {nowMs : Int} (h : checkActivation db robotId row nowMs = .ok ()) :
    row.robotId = robotId ∧ row.notBeforeMs ≤ nowMs ∧ nowMs < row.notAfterMs ∧
      db.isRevoked row.fingerprintSha256 = .ok false := by
  rcases bind_eq_ok.mp h with ⟨_, hrobot, h⟩
  rcases bind_eq_ok.mp h with ⟨_, hwindow, h⟩
  rcases bind_eq_ok.mp h with ⟨revoked, hrevoked, hnot⟩
  have hown := refuseWhen_eq_ok hrobot
  have hinside := refuseWhen_eq_ok hwindow
  rw [Bool.or_eq_false_iff, decide_eq_false_iff_not, decide_eq_false_iff_not] at hinside
  refine ⟨bne_eq_false_iff_eq.mp hown, by omega, by omega, ?_⟩
  rw [hrevoked, refuseWhen_eq_ok hnot]

theorem mem_of_activate {db retired active : Database} {robotId : String}
    {generation nowMs : Int} (hretired : db.retireActive robotId = .ok retired)
    (hactive : retired.setActive generation nowMs = .ok active) {row : GenerationRow}
    (hrow : row ∈ active.generations.rows) (hisActive : row.isActive = true) :
    row ∈ db.generations.rows ∨
      exists old, old ∈ db.generations.rows ∧ old.generation = generation ∧
        row = Database.activated nowMs { old with status := row.status } := by
  rcases bind_eq_ok.mp hactive with ⟨_, _, hchange⟩
  rcases change_eq_ok hchange with ⟨generations, hchanged, hdb⟩
  rw [hdb] at hrow
  rcases (Table.mem_change?_iff hchanged).mp hrow with ⟨middle, hmiddle, hsame⟩
  by_cases hgeneration : (middle.generation == generation) = true
  · right
    rw [if_pos hgeneration] at hsame
    rcases change_eq_ok hretired with ⟨before, hbefore, hretiredDb⟩
    rw [hretiredDb] at hmiddle
    rcases (Table.mem_change?_iff hbefore).mp hmiddle with ⟨old, hold, holdSame⟩
    refine ⟨old, hold, ?_, ?_⟩
    · rw [← beq_iff_eq.mp hgeneration, ← holdSame, apply_ite GenerationRow.generation]
      exact (ite_self old.generation).symm
    · rw [← hsame, ← holdSame]
      split_ifs <;> rfl
  · left
    rw [if_neg hgeneration] at hsame
    rw [hsame] at hmiddle
    exact (mem_of_retired hretired hmiddle hisActive).1

theorem kept_of_change {db db' : Database} {p : GenerationRow -> Bool}
    {f : GenerationRow -> GenerationRow} (h : db.change p f = .ok db') :
    db'.revoked = db.revoked ∧ db'.events = db.events := by
  rcases change_eq_ok h with ⟨generations, _, hdb⟩
  rw [hdb]
  exact ⟨rfl, rfl⟩

theorem Sound.activate {db db' : Database} {log : List Entry} (h : Sound db log)
    {store : CredentialStore} {generation nowMs : Int}
    (hok : db.activate store generation nowMs = .ok db') :
    Sound db' (log ++
      [{ robotId := store.robotId, done := .activated generation nowMs }]) := by
  rcases bind_eq_ok.mp hok with ⟨row, hrow, hok⟩
  rcases bind_eq_ok.mp hok with ⟨_, hchecked, hok⟩
  rcases bind_eq_ok.mp hok with ⟨retired, hretired, hok⟩
  rcases bind_eq_ok.mp hok with ⟨active, hactive, hevent⟩
  rcases row_eq_ok hrow with ⟨hrowMem, hrowGeneration⟩
  rcases checkActivation_eq_ok hchecked with ⟨hrobot, hbegins, hends, hnotRevoked⟩
  have hretiredKept := kept_of_change hretired
  have hactiveKept : active.revoked = retired.revoked ∧ active.events = retired.events := by
    rcases bind_eq_ok.mp hactive with ⟨_, _, hchange⟩
    exact kept_of_change hchange
  have hrevokedKept : active.revoked = db.revoked := hactiveKept.1.trans hretiredKept.1
  rw [event_eq_ok hevent]
  constructor
  · show active.events ++ _ = _
    rw [hactiveKept.2, hretiredKept.2, h.events, List.map_append]
    rfl
  · intro other hother hisActive
    rcases mem_of_activate hretired hactive hother hisActive with hold | hnew
    · exact (h.activated other hold hisActive).concat _
    · rcases hnew with ⟨old, hold, hgeneration, hsame⟩
      have hrowSame : old = row :=
        eq_of_generation hold hrowMem (hgeneration.trans hrowGeneration.symm)
      rw [hsame, hrowSame]
      refine ⟨nowMs, rfl, hbegins, hends, ?_⟩
      show ({ robotId := row.robotId, done := .activated row.generation nowMs } : Entry) ∈ _
      rw [hrobot, hrowGeneration]
      exact List.mem_append_right _ List.mem_cons_self
  · intro other hother hisActive revoked hrevoked
    rw [show Database.revoked _ = active.revoked from rfl, hrevokedKept] at hrevoked
    rcases mem_of_activate hretired hactive hother hisActive with hold | hnew
    · exact h.unrevoked other hold hisActive revoked hrevoked
    · rcases hnew with ⟨old, hold, hgeneration, hsame⟩
      have hrowSame : old = row :=
        eq_of_generation hold hrowMem (hgeneration.trans hrowGeneration.symm)
      rw [hsame, hrowSame]
      exact ne_of_not_revoked h.normal hnotRevoked revoked hrevoked
  · intro revoked hrevoked
    rw [show Database.revoked _ = active.revoked from rfl, hrevokedKept] at hrevoked
    exact h.normal revoked hrevoked

theorem Sound.revoke {db db' : Database} {log : List Entry} (h : Sound db log)
    {store : CredentialStore} {value fingerprint reason : String} {nowMs : Int}
    (hnormal : normalFingerprint value = .ok fingerprint)
    (hok : db.revoke store fingerprint reason nowMs = .ok db') :
    Sound db' (log ++
      [{ robotId := store.robotId, done := .revoked fingerprint reason nowMs }]) := by
  rcases bind_eq_ok.mp hok with ⟨inserted, hinsert, hok⟩
  rcases bind_eq_ok.mp hok with ⟨retired, hretired, hevent⟩
  rcases bind_eq_ok.mp hinsert with ⟨_, _, hinsert⟩
  have hinserted : exists table, db.revoked.insert?
      { fingerprintSha256 := fingerprint, reason := reason, revokedAtMs := nowMs } =
        some table ∧ inserted = { db with revoked := table } := by
    split at hinsert
    · rename_i table htable
      exact ⟨table, htable, (Except.ok.inj hinsert).symm⟩
    · cases hinsert
  rcases hinserted with ⟨table, htable, hdb⟩
  have hrows := (Table.insert?_eq_some htable).1
  have hkept := kept_of_change hretired
  rw [event_eq_ok hevent]
  constructor
  · show retired.events ++ _ = _
    rw [hkept.2, hdb, h.events, List.map_append]
    rfl
  · intro row hrow hactive
    have hold := (mem_of_retired hretired hrow hactive).1
    rw [hdb] at hold
    exact (h.activated row hold hactive).concat _
  · intro row hrow hactive revoked hrevoked
    rcases mem_of_retired hretired hrow hactive with ⟨hold, hne⟩
    rw [hdb] at hold
    rw [show Database.revoked _ = retired.revoked from rfl, hkept.1, hdb] at hrevoked
    rw [hrows, List.mem_append, List.mem_singleton] at hrevoked
    rcases hrevoked with hrevoked | hrevoked
    · exact h.unrevoked row hold hactive revoked hrevoked
    · rw [hrevoked]
      exact fun hsame => beq_eq_false_iff_ne.mp hne hsame.symm
  · intro revoked hrevoked
    rw [show Database.revoked _ = retired.revoked from rfl, hkept.1, hdb] at hrevoked
    rw [hrows, List.mem_append, List.mem_singleton] at hrevoked
    rcases hrevoked with hrevoked | hrevoked
    · exact h.normal revoked hrevoked
    · rw [hrevoked]
      exact normal_of_normal hnormal

/-!
## Whole histories

The calls of any stores on one database. A call that raises changes nothing, so the invariant
needs the effects of the returning ones only.
-/

theorem row_of_mem {db : Database} {row : GenerationRow} (hrow : row ∈ db.generations.rows)
    {generation : Int} (hgeneration : row.generation = generation)
    (hbind : bindInteger generation = .ok ()) : db.row generation = .ok row := by
  have hfetch : db.generations.fetch (fun other => other.generation == generation) =
      some row := by
    apply Table.fetch_of_mem hrow
    · exact beq_iff_eq.mpr hgeneration
    · intro other _ hother
      show (row.generation == other.generation || _ || _) = true
      rw [hgeneration, beq_iff_eq.mp hother, beq_self_eq_true]
      rfl
  unfold Database.row required
  rw [hbind, hfetch]
  rfl

theorem get_eq_ok {db : Database} {generation : Int} {row : GenerationRow}
    (h : db.row generation = .ok row) :
    Connection.get generation (.idle db) = .ok (generationOf row) (.idle db) := by
  have hselect : Sql.select (fun db : Database => db.row generation) (.idle db) =
      (.ok (.ok row) (.idle db) : EStateM.Result Exn (Session Database) _) := by
    show EStateM.Result.ok (db.row generation) _ = _
    rw [h]
  unfold Connection.get
  rw [bind_of_ok hselect]
  rfl

theorem enrolled_row {db db' : Database} {store : CredentialStore} {parsed : Parsed}
    {written : Except Exn Unit} {nowMs generation : Int}
    (hok : db.enroll store parsed written nowMs = .ok (generation, db')) :
    exists row, db'.row generation = .ok row ∧ row.generation = generation ∧
      row.fingerprintSha256 = parsed.fingerprint := by
  rcases bind_eq_ok.mp hok with ⟨⟨staged, staging⟩, hstage, hok⟩
  rcases bind_eq_ok.mp hok with ⟨_, _, hok⟩
  rcases bind_eq_ok.mp hok with ⟨last, hevent, hok⟩
  cases hok
  rcases stage_eq_ok hstage with ⟨row, hgeneration, hfingerprint, _, hrows, _, _, _, hbind⟩
  have hrow : row ∈ staging.generations.rows := by
    rw [hrows]
    exact List.mem_append_right _ List.mem_cons_self
  refine ⟨Database.withPaths (store.generationDirectory staged) row, ?_, hgeneration,
    hfingerprint⟩
  have hplaced : Database.withPaths (store.generationDirectory staged) row ∈
      (staging.setPaths staged (store.generationDirectory staged)).generations.rows :=
    mem_setPaths.mpr ⟨row, hrow, if_pos (beq_iff_eq.mpr hgeneration)⟩
  rw [event_eq_ok hevent]
  exact row_of_mem hplaced hgeneration hbind

theorem exists_of_change {db db' : Database} {p : GenerationRow -> Bool}
    {f : GenerationRow -> GenerationRow} (h : db.change p f = .ok db')
    (hf : forall row, (f row).generation = row.generation) {row : GenerationRow}
    (hrow : row ∈ db.generations.rows) :
    exists row', row' ∈ db'.generations.rows ∧ row'.generation = row.generation := by
  rcases change_eq_ok h with ⟨generations, hchange, hdb⟩
  rw [hdb]
  refine ⟨if p row then f row else row, (Table.mem_change?_iff hchange).mpr ⟨row, hrow, rfl⟩, ?_⟩
  rw [apply_ite GenerationRow.generation, hf row]
  exact ite_self row.generation

theorem activated_row {db db' : Database} {store : CredentialStore} {generation nowMs : Int}
    (hok : db.activate store generation nowMs = .ok db') :
    exists row, db'.row generation = .ok row := by
  rcases bind_eq_ok.mp hok with ⟨row, hrow, hok⟩
  rcases bind_eq_ok.mp hok with ⟨_, _, hok⟩
  rcases bind_eq_ok.mp hok with ⟨retired, hretired, hok⟩
  rcases bind_eq_ok.mp hok with ⟨active, hactive, hevent⟩
  rcases bind_eq_ok.mp hactive with ⟨_, _, hactive⟩
  rcases bind_eq_ok.mp hrow with ⟨_, hbind, _⟩
  rcases row_eq_ok hrow with ⟨hrowMem, hgeneration⟩
  rcases exists_of_change hretired (fun _ => rfl) hrowMem with ⟨middle, hmiddle, hsame⟩
  rcases exists_of_change hactive (fun _ => rfl) hmiddle with ⟨last, hlast, hlastSame⟩
  refine ⟨last, ?_⟩
  rw [event_eq_ok hevent]
  exact row_of_mem hlast ((hlastSame.trans hsame).trans hgeneration) hbind

section

variable {Certificate Key : Type} (library : Library Certificate Key)

/-- What one call leaves: it has raised and nothing has changed, or it has returned and the
invariant holds with one more entry. -/
def Performed (call : Call) (db : Database) (log : List Entry) : Prop :=
  (exists e, method library call (.idle db) = .error e (.idle db)) ∨
    exists result db' done, method library call (.idle db) = .ok result (.idle db') ∧
      doneBy call.operation result = [done] ∧
      Sound db' (log ++ [{ robotId := call.store.robotId, done := done }])

/-- What a call that returns has done to the database. -/
inductive Effect (store : CredentialStore) (db : Database) : Done -> Database -> Prop where
  | enrolled {bundle : Bundle} {parsed : Parsed} {written : Except Exn Unit}
      {nowMs generation : Int} {db' : Database}
      (hparsed : validateBundle library store.robotId bundle nowMs = .ok parsed)
      (hok : db.enroll store parsed written nowMs = .ok (generation, db')) :
      Effect store db (.enrolled generation parsed.fingerprint nowMs) db'
  | activated {generation nowMs : Int} {db' : Database}
      (hok : db.activate store generation nowMs = .ok db') :
      Effect store db (.activated generation nowMs) db'
  | revoked {value fingerprint reason : String} {nowMs : Int} {db' : Database}
      (hnormal : normalFingerprint value = .ok fingerprint)
      (hok : db.revoke store fingerprint reason nowMs = .ok db') :
      Effect store db (.revoked fingerprint reason nowMs) db'

/-- A call raises and leaves the database alone, or it returns after an effect. -/
def Answered (call : Call) (db : Database) : Prop :=
  (exists e, method library call (.idle db) = .error e (.idle db)) ∨
    exists result db' done, method library call (.idle db) = .ok result (.idle db') ∧
      doneBy call.operation result = [done] ∧ Effect library call.store db done db'

theorem raises_of_compute {x : Except Exn α} {k : α -> Method β} {db : Database} {e : Exn}
    (h : x = .error e) : (Sql.compute x >>= k) (.idle db) = .error e (.idle db) := by
  rw [h]
  rfl

theorem goesOn_of_compute {x : Except Exn α} {k : α -> Method β} {db : Database} {v : α}
    (h : x = .ok v) : (Sql.compute x >>= k) (.idle db) = k v (.idle db) := by
  rw [h]
  rfl

theorem enroll_answered (store : CredentialStore) (files : Except Exn Bundle)
    (written : Except Exn Unit) (nowMs : Int) (db : Database) :
    Answered library ⟨store, .enroll files written nowMs⟩ db := by
  have hmethod : method library ⟨store, .enroll files written nowMs⟩ =
      Connection.enroll library store files written nowMs >>= fun generation =>
        pure (some generation) := rfl
  cases hfiles : files with
  | error e =>
      left
      refine ⟨e, ?_⟩
      rw [← hfiles, hmethod]
      exact bind_of_error (raises_of_compute hfiles)
  | ok bundle =>
      cases hparsed : validateBundle library store.robotId bundle nowMs with
      | error e =>
          left
          refine ⟨e, ?_⟩
          rw [← hfiles, hmethod]
          apply bind_of_error
          unfold Connection.enroll
          rw [goesOn_of_compute hfiles]
          exact raises_of_compute hparsed
      | ok parsed =>
          have henroll : Connection.enroll library store files written nowMs (.idle db) =
              (Connection.enrollParsed store parsed written nowMs >>= fun generation =>
                Connection.get generation) (.idle db) := by
            unfold Connection.enroll
            rw [goesOn_of_compute hfiles, goesOn_of_compute hparsed]
          have hrefines := enrollParsed_refines store parsed written nowMs db
          have hread := hrefines.bind_read (fun generation => Connection.get generation)
            (fun p record => record.generation = p.1 ∧
              record.fingerprintSha256 = parsed.fingerprint) (by
              intro p hp
              rcases enrolled_row (renamed_eq_ok hp) with ⟨row, hrow, hsame, hfingerprint⟩
              exact ⟨generationOf row, ⟨hsame, hfingerprint⟩, get_eq_ok hrow⟩)
          rcases hread with
            ⟨⟨generation, db'⟩, record, hok, ⟨hgeneration, hfingerprint⟩, hread⟩ | ⟨e, he⟩
          · right
            refine ⟨some record, db', .enrolled generation parsed.fingerprint nowMs, ?_, ?_, ?_⟩
            · rw [← hfiles, hmethod, bind_of_ok (henroll.trans hread)]
              rfl
            · show [Done.enrolled record.generation record.fingerprintSha256 nowMs] = _
              rw [hgeneration, hfingerprint]
            · exact .enrolled hparsed (renamed_eq_ok hok)
          · left
            refine ⟨e, ?_⟩
            rw [← hfiles, hmethod]
            exact bind_of_error (henroll.trans he)

theorem activate_answered (store : CredentialStore) (generation nowMs : Int) (db : Database) :
    Answered library ⟨store, .activate generation nowMs⟩ db := by
  have hmethod : method library ⟨store, .activate generation nowMs⟩ =
      Connection.activate store generation nowMs >>= fun generation =>
        pure (some generation) := rfl
  have hrefines := activateRow_refines store generation nowMs db
  have hread := hrefines.bind_read (fun _ => Connection.get generation) (fun _ _ => True) (by
    intro p hp
    rcases activated_row (silent_eq_ok hp) with ⟨row, hrow⟩
    exact ⟨generationOf row, trivial, get_eq_ok hrow⟩)
  rcases hread with ⟨⟨_, db'⟩, record, hok, _, hread⟩ | ⟨e, he⟩
  · right
    refine ⟨some record, db', .activated generation nowMs, ?_, rfl, ?_⟩
    · rw [hmethod]
      exact bind_of_ok hread
    · exact .activated (silent_eq_ok hok)
  · left
    refine ⟨e, ?_⟩
    rw [hmethod]
    exact bind_of_error he

theorem revoke_answered (store : CredentialStore) (value reason : String) (nowMs : Int)
    (db : Database) : Answered library ⟨store, .revoke value reason nowMs⟩ db := by
  have hmethod : method library ⟨store, .revoke value reason nowMs⟩ =
      Connection.revoke store value reason nowMs >>= fun _ => pure none := rfl
  cases hnormal : normalFingerprint value with
  | error e =>
      left
      refine ⟨e, ?_⟩
      rw [hmethod]
      exact bind_of_error (raises_of_compute hnormal)
  | ok fingerprint =>
      cases hreason : checkReason reason with
      | error e =>
          left
          refine ⟨e, ?_⟩
          rw [hmethod]
          apply bind_of_error
          unfold Connection.revoke
          rw [goesOn_of_compute hnormal]
          exact raises_of_compute hreason
      | ok _ =>
          have hrevoke : Connection.revoke store value reason nowMs (.idle db) =
              Connection.revokeNormal store fingerprint reason nowMs (.idle db) := by
            unfold Connection.revoke
            rw [goesOn_of_compute hnormal, goesOn_of_compute hreason]
          have hrefines := revokeNormal_refines store fingerprint reason nowMs db
          cases hresult : renamed (integrityAs "certificate is already revoked")
              (silent (db.revoke store fingerprint reason nowMs)) with
          | error e =>
              rw [hresult] at hrefines
              left
              refine ⟨e, ?_⟩
              rw [hmethod]
              exact bind_of_error (hrevoke.trans hrefines)
          | ok p =>
              rw [hresult] at hrefines
              right
              refine ⟨none, p.2, .revoked fingerprint reason nowMs, ?_, ?_, ?_⟩
              · rw [hmethod]
                exact bind_of_ok (hrevoke.trans hrefines)
              · show (normalFingerprint value).toOption.toList.map _ = _
                rw [hnormal]
                rfl
              · exact .revoked hnormal (silent_eq_ok (renamed_eq_ok hresult))

theorem answered (call : Call) (db : Database) : Answered library call db := by
  rcases call with ⟨store, operation⟩
  cases operation with
  | enroll files written nowMs => exact enroll_answered library store files written nowMs db
  | activate generation nowMs => exact activate_answered library store generation nowMs db
  | revoke fingerprint reason nowMs =>
      exact revoke_answered library store fingerprint reason nowMs db

variable {library} in
theorem Sound.effect {store : CredentialStore} {db db' : Database} {log : List Entry}
    {done : Done} (h : Sound db log) (heffect : Effect library store db done db') :
    Sound db' (log ++ [{ robotId := store.robotId, done := done }]) := by
  cases heffect with
  | enrolled _ hok => exact h.enroll hok
  | activated hok => exact h.activate hok
  | revoked hnormal hok => exact h.revoke hnormal hok

theorem performed (call : Call) {db : Database} {log : List Entry} (h : Sound db log) :
    Performed library call db log := by
  rcases answered library call db with hraises | ⟨result, db', done, hok, hdone, heffect⟩
  · exact Or.inl hraises
  · exact Or.inr ⟨result, db', done, hok, hdone, h.effect heffect⟩

theorem replay_keeps {P : Database -> Prop} (hempty : P Database.empty)
    (heffect : forall {store db done db'}, P db -> Effect library store db done db' -> P db')
    (calls : List Call) :
    exists db, (History.replay library calls).session = .idle db ∧ P db := by
  have hfoldl : forall (calls : List Call) (history : History),
      (exists db, history.session = .idle db ∧ P db) ->
      exists db, (calls.foldl (History.perform library) history).session = .idle db ∧ P db := by
    intro calls
    induction calls with
    | nil => exact fun _ h => h
    | cons call rest ih =>
        rintro history ⟨db, hidle, hkept⟩
        apply ih
        unfold History.perform
        rw [hidle]
        rcases answered library call db with ⟨e, he⟩ | ⟨result, db', done, hok, _, hdone⟩
        · rw [he]
          exact ⟨db, rfl, hkept⟩
        · rw [hok]
          exact ⟨db', rfl, heffect hkept hdone⟩
  exact hfoldl calls .initial ⟨Database.empty, rfl, hempty⟩

def Kept (history : History) : Prop :=
  exists db, history.session = .idle db ∧ Sound db history.log

theorem Kept.perform {history : History} (h : Kept history) (call : Call) :
    Kept (history.perform library call) := by
  rcases h with ⟨db, hidle, hsound⟩
  unfold History.perform
  rw [hidle]
  rcases performed library call hsound with ⟨e, he⟩ | ⟨result, db', done, hok, hdone, hsound'⟩
  · rw [he]
    exact ⟨db, rfl, hsound⟩
  · rw [hok]
    refine ⟨db', rfl, ?_⟩
    show Sound db' (history.log ++ (doneBy call.operation result).map _)
    rw [hdone]
    exact hsound'

theorem kept_initial : Kept .initial := by
  refine ⟨Database.empty, rfl, ?_⟩
  constructor
  · rfl
  · intro row hrow
    cases hrow
  · intro row hrow
    cases hrow
  · intro revoked hrevoked
    cases hrevoked

theorem kept_replay (calls : List Call) : Kept (History.replay library calls) := by
  have hfoldl : forall (calls : List Call) (history : History), Kept history ->
      Kept (calls.foldl (History.perform library) history) := by
    intro calls
    induction calls with
    | nil => exact fun _ h => h
    | cons call rest ih => exact fun history h => ih _ (h.perform library call)
  exact hfoldl calls .initial kept_initial

theorem active_once (db : Database) (robotId : String) : (db.generations.rows.filter (fun row =>
    row.robotId == robotId && row.isActive)).length ≤ 1 := by
  apply Table.length_filter_le_one
  intro a b ha hb
  rw [Bool.and_eq_true, beq_iff_eq] at ha hb
  show (_ || _ || (a.isActive && b.isActive && a.robotId == b.robotId)) = true
  rw [ha.1, hb.1, ha.2, hb.2, beq_self_eq_true]
  exact Bool.or_true _

/-- After every sequence of calls of any stores on one database: each robot has one active
generation at most, no active generation is revoked, each was activated by its own robot
inside its validity window, a robot's audit events are what its calls have done, in order,
and a further call that raises leaves the database as it is. -/
theorem credentials_sound (calls : List Call) :
    exists db, (History.replay library calls).session = .idle db ∧
      (forall robotId, (db.generations.rows.filter (fun row =>
        row.robotId == robotId && row.isActive)).length ≤ 1) ∧
      (forall row, row ∈ db.generations.rows -> row.isActive = true ->
        (forall revoked, revoked ∈ db.revoked.rows ->
          revoked.fingerprintSha256 ≠ row.fingerprintSha256) ∧
        Activated (History.replay library calls).log row) ∧
      (forall robotId, db.eventsOf robotId =
        ((History.replay library calls).log.filter (fun entry =>
          entry.robotId == robotId)).map Entry.event) ∧
      forall call e session, method library call (.idle db) = .error e session ->
        session = .idle db := by
  rcases kept_replay library calls with ⟨db, hidle, hsound⟩
  refine ⟨db, hidle, ?_, ?_, ?_, ?_⟩
  · exact active_once db
  · intro row hrow hactive
    exact ⟨hsound.unrevoked row hrow hactive, hsound.activated row hrow hactive⟩
  · intro robotId
    unfold Database.eventsOf
    rw [hsound.events, List.filter_map]
    congr 1
    apply List.filter_congr
    intro entry _
    show (entry.event.robotId == robotId) = _
    rw [Entry.event_robotId]
  · intro call e session hraise
    rcases performed library call hsound with ⟨_, he⟩ | ⟨_, _, _, hok, _, _⟩
    · rw [he] at hraise
      injection hraise with _ hsession
      exact hsession.symm
    · rw [hok] at hraise
      cases hraise

end

/-!
## A small history
-/

def patrolLibrary : Library Bytes Bytes where
  loadPemCertificate := some
  loadPemPrivateKey := some
  alternativeUris _ := some ["urn:ump:robot:r1"]
  directlyIssuedBy _ _ := true
  publicBytes _ := []
  publicBytesOf _ := []
  notValidBeforeMs _ := 10
  notValidAfterMs _ := 100
  fingerprint certificate := String.ofList (List.replicate 64
    (if certificate.isEmpty then 'a' else 'b'))

def patrolStore : CredentialStore where
  robotId := "r1"
  directory := "managed"

def patrolCalls : List Call :=
  [⟨patrolStore, .enroll (.ok ⟨[], [], []⟩) (.ok ()) 20⟩,
    ⟨patrolStore, .activate 1 30⟩,
    ⟨patrolStore, .enroll (.ok ⟨[1], [], []⟩) (.ok ()) 40⟩,
    ⟨patrolStore, .activate 2 50⟩,
    ⟨⟨"r2", "managed"⟩, .revoke (String.ofList (List.replicate 64 'B')) "lost" 60⟩,
    ⟨patrolStore, .activate 2 70⟩]

example :
    (History.replay patrolLibrary patrolCalls).session.committed.generations.rows.map
        GenerationRow.status = [.retired, .retired] ∧
      (History.replay patrolLibrary patrolCalls).log.map Entry.robotId =
        ["r1", "r1", "r1", "r1", "r2"] := by
  decide +kernel

end Ump.Credentials
