import Ump.Foundation.Interleaving

/-!
# One thread among others

## Turns

A thread that nobody stops runs its tasks one after the other while the other threads
move. The log of such a thread holds, for each of its tasks, the memory that the task
found and what it read.
-/

namespace Foundation

structure Turn (memory task reading : Type) where
  found : memory
  task : task
  reading : reading

def Action.Spares (i : Nat) : Action reading entry -> Prop
  | .spawn _ => True
  | .run j _ => j ≠ i
  | .stop j => j ≠ i
  | .crash => False

namespace Machine

/-- Thread `i` runs to its end, and the log holds its turns in order. -/
inductive Serves (M : Machine memory task reading entry) (i : Nat) :
    Pool memory task -> List (Turn memory task reading) -> Pool memory task -> Prop where
  | done {p : Pool memory task} (hdone : p.threads[i]? = some []) : Serves M i p [] p
  | other {p q p' : Pool memory task} {log : List (Turn memory task reading)}
      {a : Action reading entry} (hspares : a.Spares i) (hstep : M.step p a = some q)
      (hrest : Serves M i q log p') : Serves M i p log p'
  | own {p q p' : Pool memory task} {log : List (Turn memory task reading)} {t : task}
      {r : reading} (hnext : p.nextTask i = some t) (hstep : M.step p (.run i r) = some q)
      (hrest : Serves M i q log p') :
      Serves M i p ({ found := p.shared, task := t, reading := r } :: log) p'

theorem thread_of_spares {M : Machine memory task reading entry} {p q : Pool memory task}
    {i : Nat} {a : Action reading entry} {thread : List task} (hspares : a.Spares i)
    (hstep : M.step p a = some q) (hthread : p.threads[i]? = some thread) :
    q.threads[i]? = some thread := by
  cases stepped_of_step hstep with
  | spawned e =>
      have hi := (List.getElem?_eq_some_iff.mp hthread).1
      simp only [List.getElem?_append_left hi, hthread]
  | ran r hother => simp only [List.getElem?_set_ne hspares, hthread]
  | stopped j => simp only [List.getElem?_set_ne hspares, hthread]
  | crashed => cases hspares

theorem thread_of_run {M : Machine memory task reading entry} {p q : Pool memory task} {i : Nat}
    {t : task} {rest : List task} {r : reading} (hthread : p.threads[i]? = some (t :: rest))
    (hstep : M.step p (.run i r) = some q) :
    q.threads[i]? = some ((M.exec p.shared t r).2.resume rest) := by
  cases (step_run hthread rfl).symm.trans hstep
  have hi := (List.getElem?_eq_some_iff.mp hthread).1
  simp [hi]

theorem Serves.nil {M : Machine memory task reading entry} {i : Nat}
    {p p' : Pool memory task} {log : List (Turn memory task reading)}
    (h : M.Serves i p log p') (hthread : p.threads[i]? = some []) : log = [] := by
  induction h with
  | done hdone => rfl
  | other hspares hstep hrest ih => exact ih (thread_of_spares hspares hstep hthread)
  | own hnext hstep hrest ih => simp [Pool.nextTask, hthread] at hnext

theorem Serves.cons {M : Machine memory task reading entry} {i : Nat}
    {p p' : Pool memory task} {log : List (Turn memory task reading)} {t : task}
    {rest : List task} (h : M.Serves i p log p') (hthread : p.threads[i]? = some (t :: rest)) :
    exists q r log', M.Reaches .always p q ∧
      log = { found := q.shared, task := t, reading := r } :: log' ∧
      exists q', M.Step .always q q' ∧
        q'.threads[i]? = some ((M.exec q.shared t r).2.resume rest) ∧ M.Serves i q' log' p' := by
  induction h with
  | done hdone =>
      rw [hthread] at hdone
      cases hdone
  | @other p mid p' log a hspares hstep hrest ih =>
      rcases ih (thread_of_spares hspares hstep hthread) with
        ⟨q, r, log', hreach, hlog, hserves⟩
      exact ⟨q, r, log', .head ⟨a, meets_always p a, hstep⟩ hreach, hlog, hserves⟩
  | @own p q' p' log head r hnext hstep hrest ih =>
      have hhead : t = head := by simpa [Pool.nextTask, hthread] using hnext
      subst hhead
      exact ⟨p, r, log, .refl, rfl, q', ⟨_, meets_always p _, hstep⟩,
        thread_of_run hthread hstep, hrest⟩

/-- Thread `i` goes on from one pool to another, and the log holds its turns in order. -/
inductive Turns (M : Machine memory task reading entry) (i : Nat) :
    Pool memory task -> List (Turn memory task reading) -> Pool memory task -> Prop where
  | here (p : Pool memory task) : Turns M i p [] p
  | other {p q p' : Pool memory task} {log : List (Turn memory task reading)}
      {a : Action reading entry} (hspares : a.Spares i) (hstep : M.step p a = some q)
      (hrest : Turns M i q log p') : Turns M i p log p'
  | own {p q p' : Pool memory task} {log : List (Turn memory task reading)} {t : task}
      {r : reading} (hnext : p.nextTask i = some t) (hstep : M.step p (.run i r) = some q)
      (hrest : Turns M i q log p') :
      Turns M i p ({ found := p.shared, task := t, reading := r } :: log) p'

theorem Turns.reaches {M : Machine memory task reading entry} {i : Nat}
    {p p' : Pool memory task} {log : List (Turn memory task reading)}
    (h : M.Turns i p log p') : M.Reaches .always p p' := by
  induction h with
  | here p => exact .refl
  | other hspares hstep hrest ih => exact .head ⟨_, meets_always _ _, hstep⟩ ih
  | own hnext hstep hrest ih => exact .head ⟨_, meets_always _ _, hstep⟩ ih

theorem Turns.nil {M : Machine memory task reading entry} {i : Nat}
    {p p' : Pool memory task} {log : List (Turn memory task reading)}
    (h : M.Turns i p log p') (hthread : p.threads[i]? = some []) : log = [] := by
  induction h with
  | here p => rfl
  | other hspares hstep hrest ih => exact ih (thread_of_spares hspares hstep hthread)
  | own hnext hstep hrest ih => simp [Pool.nextTask, hthread] at hnext

theorem Turns.found {M : Machine memory task reading entry} {i : Nat}
    {p p' : Pool memory task} {log : List (Turn memory task reading)}
    (h : M.Turns i p log p') (turn : Turn memory task reading) (hturn : turn ∈ log) :
    exists q, M.Reaches .always p q ∧ q.shared = turn.found ∧ q.nextTask i = some turn.task := by
  induction h with
  | here p => cases hturn
  | other hspares hstep hrest ih =>
      rcases ih hturn with ⟨q, hreach, hfacts⟩
      exact ⟨q, .head ⟨_, meets_always _ _, hstep⟩ hreach, hfacts⟩
  | @own p _ _ _ t r hnext hstep hrest ih =>
      rcases List.mem_cons.mp hturn with rfl | hturn
      · exact ⟨p, .refl, rfl, hnext⟩
      · rcases ih hturn with ⟨q, hreach, hfacts⟩
        exact ⟨q, .head ⟨_, meets_always _ _, hstep⟩ hreach, hfacts⟩

/-- What every task keeps for a waiting thread, and a thread's own task for the rest of it,
holds at each of its turns. -/
theorem Turns.holds {M : Machine memory task reading entry} {i : Nat}
    {I : memory -> List task -> Prop}
    (hother : forall m t r tasks, I m tasks -> I (M.exec m t r).1 tasks)
    (hown : forall m t r rest, I m (t :: rest) ->
      I (M.exec m t r).1 ((M.exec m t r).2.resume rest))
    {p p' : Pool memory task} {log : List (Turn memory task reading)} {thread : List task}
    (h : M.Turns i p log p') (hthread : p.threads[i]? = some thread) (hI : I p.shared thread)
    (turn : Turn memory task reading) (hturn : turn ∈ log) :
    exists rest, I turn.found (turn.task :: rest) := by
  induction h generalizing thread with
  | here p => cases hturn
  | other hspares hstep hrest ih =>
      refine ih (thread_of_spares hspares hstep hthread) ?_ hturn
      cases stepped_of_step hstep with
      | spawned e => exact hI
      | ran r _ => exact hother _ _ r _ hI
      | stopped j => exact hI
      | crashed => cases hspares
  | own hnext hstep hrest ih =>
      rcases nextTask_eq_some hnext with ⟨rest, hfound⟩
      rw [hfound] at hthread
      cases hthread
      rcases List.mem_cons.mp hturn with rfl | hturn
      · exact ⟨rest, hI⟩
      · refine ih (thread_of_run hfound hstep) ?_ hturn
        rw [shared_of_run hnext hstep]
        exact hown _ _ _ _ hI

theorem Serves.turns {M : Machine memory task reading entry} {i : Nat}
    {p p' : Pool memory task} {log : List (Turn memory task reading)}
    (h : M.Serves i p log p') : M.Turns i p log p' := by
  induction h with
  | done hdone => exact .here _
  | other hspares hstep hrest ih => exact .other hspares hstep ih
  | own hnext hstep hrest ih => exact .own hnext hstep ih

theorem serves_of_run {M : Machine memory task reading entry} {i : Nat}
    {readings : List reading} {p p' : Pool memory task}
    (h : M.run p (readings.map (Action.run i)) = some p') (hdone : p'.threads[i]? = some []) :
    exists log, M.Serves i p log p' ∧ log.map (fun turn => turn.reading) = readings := by
  induction readings generalizing p with
  | nil =>
      have hp : p = p' := by simpa [run, runWhere] using h
      subst hp
      exact ⟨[], .done hdone, rfl⟩
  | cons r rest ih =>
      rw [List.map_cons] at h
      cases hstep : M.step p (.run i r) with
      | none => simp [run, runWhere, hstep] at h
      | some mid =>
          rw [run_cons hstep] at h
          rcases ih h with ⟨log, hserves, hreadings⟩
          cases stepped_of_step hstep with
          | ran r hthread =>
              refine ⟨_, .own (nextTask_of_thread hthread) hstep hserves, ?_⟩
              rw [List.map_cons, hreadings]

theorem Turns.last_of_raised {M : Machine memory task reading entry} {i : Nat}
    {p p' : Pool memory task} {before after : List (Turn memory task reading)}
    {turn : Turn memory task reading} (h : M.Turns i p (before ++ turn :: after) p')
    (hraised : (M.exec turn.found turn.task turn.reading).2 = .raised) : after = [] := by
  generalize hlog : before ++ turn :: after = log at h
  induction h generalizing before with
  | here p => simp at hlog
  | other hspares hstep hrest ih => exact ih hlog
  | @own p q _ log t r hnext hstep hrest ih =>
      cases before with
      | nil =>
          cases hlog
          rcases nextTask_eq_some hnext with ⟨rest, hthread⟩
          have hgone := thread_of_run hthread hstep
          rw [hraised] at hgone
          exact hrest.nil hgone
      | cons head before =>
          cases hlog
          exact ih rfl

/-!
## Where a task comes from

Every unfinished task is where some thread began, or was left by an earlier task.
-/

theorem mem_tasks_of_step {M : Machine memory task reading entry} {p q : Pool memory task}
    {a : Action reading entry} {t : task} (hstep : M.step p a = some q) (ht : t ∈ q.tasks) :
    t ∈ p.tasks ∨ (exists e, a = .spawn e ∧ t ∈ M.start e) ∨
      exists i r t', a = .run i r ∧ p.nextTask i = some t' ∧
        t ∈ (M.exec p.shared t' r).2.tasks := by
  cases stepped_of_step hstep with
  | spawned e =>
      have hmem : t ∈ p.threads.flatten ++ M.start e := by
        simpa [Pool.tasks] using ht
      rcases List.mem_append.mp hmem with hold | hnew
      · exact Or.inl (Multiset.mem_coe.mpr hold)
      · exact Or.inr (Or.inl ⟨e, rfl, hnew⟩)
  | @ran i t' rest r hthread =>
      rcases flatten_split hthread with ⟨others, hflat, hset⟩
      have hmem : t ∈ (((M.exec p.shared t' r).2.resume rest : List task) :
          Multiset task) + others := by
        rw [← hset]
        exact ht
      have hbefore : forall x, x ∈ rest ∨ x ∈ others -> x ∈ p.tasks := by
        intro x hx
        show x ∈ (p.threads.flatten : Multiset task)
        rw [hflat]
        rcases hx with hx | hx
        · exact Multiset.mem_add.mpr
            (Or.inl (Multiset.mem_coe.mpr (List.mem_cons_of_mem _ hx)))
        · exact Multiset.mem_add.mpr (Or.inr hx)
      rcases Multiset.mem_add.mp hmem with hown | hother
      · cases hflow : (M.exec p.shared t' r).2 with
        | next tasks =>
            rw [hflow] at hown
            rcases List.mem_append.mp (Multiset.mem_coe.mp hown) with hnew | hrest
            · refine Or.inr (Or.inr ⟨i, r, t', rfl, nextTask_of_thread hthread, ?_⟩)
              rw [hflow]
              exact hnew
            · exact Or.inl (hbefore t (Or.inl hrest))
        | raised =>
            rw [hflow] at hown
            cases Multiset.mem_coe.mp hown
      · exact Or.inl (hbefore t (Or.inr hother))
  | stopped i => exact Or.inl (Multiset.mem_of_le (flatten_set_nil_le _ _) ht)
  | crashed => cases Multiset.notMem_zero t ht

def Entered (M : Machine memory task reading entry) (C : Condition memory task reading entry)
    (p : Pool memory task) (e : entry) (p' : Pool memory task) : Prop :=
  exists q q', M.Reaches C p q ∧ M.step q (.spawn e) = some q' ∧ M.Reaches C q' p'

/-- The run has made a turn of a task that left the task `t`. -/
def LeftBy (M : Machine memory task reading entry) (C : Condition memory task reading entry)
    (p : Pool memory task) (t : task) (p' : Pool memory task) : Prop :=
  exists q q' i r t', M.Reaches C p q ∧ q.nextTask i = some t' ∧
    M.step q (.run i r) = some q' ∧ t ∈ (M.exec q.shared t' r).2.tasks ∧ M.Reaches C q' p'

theorem Reaches.origin {M : Machine memory task reading entry}
    {C : Condition memory task reading entry} {p p' : Pool memory task} {t : task}
    (h : M.Reaches C p p') (ht : t ∈ p'.tasks) :
    t ∈ p.tasks ∨ (exists e, t ∈ M.start e ∧ M.Entered C p e p') ∨ M.LeftBy C p t p' := by
  induction h with
  | refl => exact Or.inl ht
  | @tail mid last hreach hstep ih =>
      rcases hstep with ⟨a, hmeets, hstep⟩
      have hlast : M.Reaches C mid last := .single ⟨a, hmeets, hstep⟩
      rcases mem_tasks_of_step hstep ht with hold | ⟨e, rfl, hstart⟩ |
        ⟨i, r, t', rfl, hnext, hleft⟩
      · rcases ih hold with hold | ⟨e, hstart, q, q', hq, hspawn, hrest⟩ |
          ⟨q, q', i, r, t', hq, hnext, hrun, hleft, hrest⟩
        · exact Or.inl hold
        · exact Or.inr (Or.inl ⟨e, hstart, q, q', hq, hspawn, hrest.trans hlast⟩)
        · exact Or.inr (Or.inr ⟨q, q', i, r, t', hq, hnext, hrun, hleft, hrest.trans hlast⟩)
      · exact Or.inr (Or.inl ⟨e, hstart, mid, last, hreach, hstep, .refl⟩)
      · exact Or.inr (Or.inr ⟨mid, last, i, r, t', hreach, hnext, hstep, hleft, .refl⟩)

end Machine

end Foundation
