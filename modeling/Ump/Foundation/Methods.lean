import Ump.Foundation.Transaction

/-!
# Rules for whole methods

## Statements in sequence

A statement in front of the rest of a body, whatever its result is.
-/

namespace Foundation

namespace Commits

variable [Driver error]

omit [Driver error] in
theorem execute_bind {f : db -> Except error (value × db)} {k : value -> Sql error db result}
    {w : db} {r : value × db -> Except error (result × db)}
    (hk : forall v w', Commits (k v) w' (r (v, w'))) :
    Commits (Sql.execute f >>= k) w (f w >>= r) := by
  have hx : Yields (Sql.execute f) w (f w) := Yields.execute rfl
  cases hresult : f w with
  | ok p =>
      rw [hresult] at hx
      exact Commits.bind hx (hk p.1 p.2)
  | error e =>
      rw [hresult] at hx
      exact Commits.bind_error hx

omit [Driver error] in
theorem select_bind {f : db -> value} {k : value -> Sql error db result} {w : db}
    {r : Except error (result × db)} (hk : Commits (k (f w)) w r) :
    Commits (Sql.select f >>= k) w r :=
  Commits.bind (Yields.select f w) hk

end Commits

/-!
## Exceptions that are translated

`except ... as error: raise ... from error` around a transaction.
-/

def renamed (rename : error -> error) : Except error value -> Except error value
  | .ok v => .ok v
  | .error e => .error (rename e)

/-- The method with its exceptions translated; the session is the one it has reached. -/
def Sql.renaming (rename : error -> error) (x : Sql error db value) : Sql error db value :=
  fun s =>
    match x s with
    | .ok v s' => .ok v s'
    | .error e s' => .error (rename e) s'

theorem renamed_eq_ok {rename : error -> error} {x : Except error value} {v : value}
    (h : renamed rename x = .ok v) : x = .ok v := by
  cases x with
  | ok w => exact h
  | error e => cases h

theorem Refines.renaming {x : Sql error db value} {d : db} {r : Except error (value × db)}
    (h : Refines x d r) (rename : error -> error) :
    Refines (Sql.renaming rename x) d (renamed rename r) := by
  cases r with
  | ok p =>
      show Sql.renaming rename x (.idle d) = .ok p.1 (.idle p.2)
      unfold Sql.renaming
      rw [show x (.idle d) = .ok p.1 (.idle p.2) from h]
  | error e =>
      show Sql.renaming rename x (.idle d) = .error (rename e) (.idle d)
      unfold Sql.renaming
      rw [show x (.idle d) = .error e (.idle d) from h]

theorem Refines.bind_read {x : Sql error db value} {d : db}
    {r : Except error (value × db)} (h : Refines x d r) (k : value -> Sql error db result)
    (Read : value × db -> result -> Prop)
    (hk : forall p, r = .ok p -> exists w, Read p w ∧ k p.1 (.idle p.2) = .ok w (.idle p.2)) :
    (exists p w, r = .ok p ∧ Read p w ∧ (x >>= k) (.idle d) = .ok w (.idle p.2)) ∨
      (exists e, (x >>= k) (.idle d) = .error e (.idle d)) := by
  cases r with
  | ok p =>
      rcases hk p rfl with ⟨w, hread, hw⟩
      refine Or.inl ⟨p, w, rfl, hread, ?_⟩
      rw [bind_of_ok (show x (.idle d) = .ok p.1 (.idle p.2) from h)]
      exact hw
  | error e => exact Or.inr ⟨e, bind_of_error h⟩

end Foundation
