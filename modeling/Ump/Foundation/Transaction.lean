/-!
# Transactions of one connection

## Sessions

A connection in autocommit mode holds what is committed and, inside a transaction,
a working copy that the statements read and write. A method is a program over the
session that may raise anywhere and keeps the session that it has reached.
-/

namespace Foundation

structure Session (db : Type) where
  committed : db
  working : Option db
deriving DecidableEq, Repr

class Driver (error : Type) where
  operational : String -> error

abbrev Sql (error db : Type) := EStateM error (Session db)

namespace Session

def idle (d : db) : Session db where
  committed := d
  working := none

def current (s : Session db) : db :=
  s.working.getD s.committed

/-- What a writing statement leaves; outside a transaction it is committed at once. -/
def write (s : Session db) (d : db) : Session db :=
  match s.working with
  | some _ => { s with working := some d }
  | none => { s with committed := d }

end Session

/-- The session that a program leaves, with a result or with an exception. -/
def sessionAfter : EStateM.Result error (Session db) value -> Session db
  | .ok _ s => s
  | .error _ s => s

namespace Sql

def select (f : db -> value) : Sql error db value :=
  fun s => .ok (f s.current) s

/-- A writing statement. One that is refused changes nothing. -/
def execute (f : db -> Except error (value × db)) : Sql error db value :=
  fun s =>
    match f s.current with
    | .ok (v, d) => .ok v (s.write d)
    | .error e => .error e s

def compute (x : Except error value) : Sql error db value :=
  fun s =>
    match x with
    | .ok v => .ok v s
    | .error e => .error e s

variable [Driver error]

def beginImmediate : Sql error db Unit :=
  fun s =>
    match s.working with
    | none => .ok () { s with working := some s.committed }
    | some _ =>
        .error (Driver.operational "cannot start a transaction within a transaction") s

def commit : Sql error db Unit :=
  fun s =>
    match s.working with
    | some d => .ok () { committed := d, working := none }
    | none => .error (Driver.operational "cannot commit - no transaction is active") s

def rollback : Sql error db Unit :=
  fun s =>
    match s.working with
    | some _ => .ok () { s with working := none }
    | none => .error (Driver.operational "cannot rollback - no transaction is active") s

/-- `BEGIN IMMEDIATE`, the body, and `ROLLBACK` when the body raises. The body commits. -/
def transaction (body : Sql error db value) : Sql error db value := do
  beginImmediate
  try
    body
  catch e =>
    rollback
    throw e

end Sql

/-!
## What a body does inside a transaction

`Yields` follows the working copy through the statements of a body up to a result or
an exception, and `Commits` adds the `COMMIT` before a result is returned.
-/

/-- On the working copy `w` the program has the result and the working copy of `r`, or
raises the exception of `r` with the transaction still open. -/
def Yields (x : Sql error db value) (w : db) : Except error (value × db) -> Prop
  | .ok (v, w') => forall d,
      x { committed := d, working := some w } = .ok v { committed := d, working := some w' }
  | .error e => forall d, exists w',
      x { committed := d, working := some w } = .error e { committed := d, working := some w' }

/-- As `Yields`, and the working copy of a result has been committed. -/
def Commits (x : Sql error db value) (w : db) : Except error (value × db) -> Prop
  | .ok (v, w') => forall d,
      x { committed := d, working := some w } = .ok v (.idle w')
  | .error e => forall d, exists w',
      x { committed := d, working := some w } = .error e { committed := d, working := some w' }

/-- A method whose session is the committed result, or the one before an exception. -/
def Refines (x : Sql error db value) (d : db) : Except error (value × db) -> Prop
  | .ok (v, d') => x (.idle d) = .ok v (.idle d')
  | .error e => x (.idle d) = .error e (.idle d)

theorem bind_of_ok {state : Type} {x : EStateM error state value}
    {k : value -> EStateM error state result} {s s' : state} {v : value}
    (h : x s = .ok v s') : (x >>= k) s = k v s' := by
  show EStateM.bind x k s = _
  unfold EStateM.bind
  rw [h]

theorem bind_of_error {state : Type} {x : EStateM error state value}
    {k : value -> EStateM error state result} {s s' : state} {e : error}
    (h : x s = .error e s') : (x >>= k) s = .error e s' := by
  show EStateM.bind x k s = _
  unfold EStateM.bind
  rw [h]

theorem Refines.bind_pure {x : Sql error db value} {d : db}
    {r : Except error (value × db)} (h : Refines x d r) (f : value -> result) :
    Refines (x >>= fun v => pure (f v)) d (r >>= fun v => .ok (f v.1, v.2)) := by
  cases r with
  | ok r => exact bind_of_ok h
  | error e => exact bind_of_error h

theorem map_bind {x : Except error value} {f : value -> Except error result}
    {g : result -> final} : (x >>= f).map g = x >>= (fun v => (f v).map g) := by
  cases x <;> rfl

/-!
### Methods without a transaction
-/

theorem Refines.execute {f : db -> Except error (value × db)} {d : db}
    {r : Except error (value × db)} (h : f d = r) : Refines (Sql.execute f) d r := by
  have hcurrent : f (Session.idle d).current = r := h
  cases r with
  | ok r =>
      show Sql.execute f (Session.idle d) = _
      unfold Sql.execute
      rw [hcurrent]
      rfl
  | error e =>
      show Sql.execute f (Session.idle d) = _
      unfold Sql.execute
      rw [hcurrent]

theorem Refines.select_bind {f : db -> value} {k : value -> Sql error db result} {d : db}
    {r : Except error (result × db)} (h : Refines (k (f d)) d r) :
    Refines (Sql.select f >>= k) d r := by
  have hselect : Sql.select f (Session.idle d) = (.ok (f d) (.idle d) :
      EStateM.Result error (Session db) value) := rfl
  cases r with
  | ok r =>
      show (Sql.select f >>= k) (Session.idle d) = _
      rw [bind_of_ok hselect]
      exact h
  | error e =>
      show (Sql.select f >>= k) (Session.idle d) = _
      rw [bind_of_ok hselect]
      exact h

theorem Refines.compute_bind {x : Except error value} {k : value -> Sql error db result}
    {d : db} {r : value -> Except error (result × db)} (h : forall v, Refines (k v) d (r v)) :
    Refines (Sql.compute x >>= k) d (x >>= r) := by
  cases x with
  | ok v => exact h v
  | error e => rfl

theorem Refines.compute (x : Except error value) (d : db) :
    Refines (Sql.compute x) d (x.map (fun v => (v, d))) := by
  cases x <;> rfl

namespace Yields

theorem pure (v : value) (w : db) : Yields (Pure.pure v : Sql error db value) w (.ok (v, w)) :=
  fun _ => rfl

theorem throw (e : error) (w : db) :
    Yields (MonadExcept.throw e : Sql error db value) w (.error e) :=
  fun _ => ⟨w, rfl⟩

theorem select (f : db -> value) (w : db) :
    Yields (Sql.select f : Sql error db value) w (.ok (f w, w)) :=
  fun _ => rfl

theorem execute {f : db -> Except error (value × db)} {w : db}
    {r : Except error (value × db)} (h : f w = r) : Yields (Sql.execute f) w r := by
  cases r with
  | ok r =>
      intro d
      unfold Sql.execute
      simp only [Session.current, Option.getD_some, h]
      rfl
  | error e =>
      intro d
      refine ⟨w, ?_⟩
      unfold Sql.execute
      simp only [Session.current, Option.getD_some, h]

theorem compute (x : Except error value) (w : db) :
    Yields (Sql.compute x) w (x.map (fun v => (v, w))) := by
  cases x with
  | ok v => exact fun _ => rfl
  | error e => exact fun _ => ⟨w, rfl⟩

theorem bind {x : Sql error db value} {k : value -> Sql error db result} {w w' : db}
    {v : value} {r : Except error (result × db)} (hx : Yields x w (.ok (v, w')))
    (hk : Yields (k v) w' r) : Yields (x >>= k) w r := by
  cases r with
  | ok r =>
      intro d
      rw [bind_of_ok (hx d)]
      exact hk d
  | error e =>
      intro d
      rw [bind_of_ok (hx d)]
      exact hk d

theorem bind_error {x : Sql error db value} {k : value -> Sql error db result} {w : db}
    {e : error} (hx : Yields x w (.error e)) : Yields (x >>= k) w (.error e) := by
  intro d
  rcases hx d with ⟨w', hw'⟩
  exact ⟨w', bind_of_error hw'⟩

theorem compute_bind {x : Except error value} {k : value -> Sql error db result} {w : db}
    {r : value -> Except error (result × db)} (hk : forall v, Yields (k v) w (r v)) :
    Yields (Sql.compute x >>= k) w (x >>= r) := by
  have hx := compute x w
  cases x with
  | ok v => exact bind hx (hk v)
  | error e => exact bind_error hx

end Yields

namespace Commits

variable [Driver error]

theorem commit (v : value) (w : db) :
    Commits (do Sql.commit; Pure.pure v : Sql error db value) w (.ok (v, w)) :=
  fun _ => rfl

omit [Driver error] in
theorem throw (e : error) (w : db) :
    Commits (MonadExcept.throw e : Sql error db value) w (.error e) :=
  fun _ => ⟨w, rfl⟩

omit [Driver error] in
theorem bind {x : Sql error db value} {k : value -> Sql error db result} {w w' : db}
    {v : value} {r : Except error (result × db)} (hx : Yields x w (.ok (v, w')))
    (hk : Commits (k v) w' r) : Commits (x >>= k) w r := by
  cases r with
  | ok r =>
      intro d
      rw [bind_of_ok (hx d)]
      exact hk d
  | error e =>
      intro d
      rw [bind_of_ok (hx d)]
      exact hk d

omit [Driver error] in
theorem bind_error {x : Sql error db value} {k : value -> Sql error db result} {w : db}
    {e : error} (hx : Yields x w (.error e)) : Commits (x >>= k) w (.error e) :=
  Yields.bind_error (k := k) hx

omit [Driver error] in
theorem compute {x : Except error value} {k : value -> Sql error db result} {w : db}
    {r : value -> Except error (result × db)} (hk : forall v, Commits (k v) w (r v)) :
    Commits (Sql.compute x >>= k) w (x >>= r) := by
  have hx := Yields.compute x w
  cases x with
  | ok v => exact Commits.bind hx (hk v)
  | error e => exact Commits.bind_error hx

theorem transaction {body : Sql error db value} {d : db} {r : Except error (value × db)}
    (h : Commits body d r) : Refines (Sql.transaction body) d r := by
  have hbegin : (Sql.beginImmediate : Sql error db Unit) (Session.idle d) =
      .ok () { committed := d, working := some d } := rfl
  cases r with
  | ok r =>
      show Sql.transaction body (Session.idle d) = .ok r.1 (.idle r.2)
      unfold Sql.transaction
      rw [bind_of_ok hbegin]
      show EStateM.tryCatch body _ _ = _
      unfold EStateM.tryCatch
      rw [h d]
  | error e =>
      rcases h d with ⟨w', hw'⟩
      show Sql.transaction body (Session.idle d) = .error e (.idle d)
      unfold Sql.transaction
      rw [bind_of_ok hbegin]
      show EStateM.tryCatch body _ _ = _
      unfold EStateM.tryCatch
      rw [hw']
      rfl

end Commits

end Foundation
