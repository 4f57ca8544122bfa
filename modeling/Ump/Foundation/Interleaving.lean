import Mathlib.Algebra.Order.Group.Multiset
import Mathlib.Logic.Relation

/-!
# Interleaved threads over one shared state

## Machines and pools

A machine describes what one atomic task does to a shared state. A pool runs
any number of threads, each a list of tasks still to do, and a scheduler picks
which thread moves next. Threads may stop at any point, and a crash removes all
of them at once.

The second half forgets which thread a task belongs to. Invariants of the
shared state and of the bag of unfinished tasks are then proved one task at a
time, and the run lemmas carry them over every interleaving.
-/

namespace Foundation

/-- What a finished task leaves to its thread: further tasks, or an exception. -/
inductive Flow (task : Type) where
  | next (tasks : List task)
  | raised
deriving DecidableEq, Repr

namespace Flow

def tasks : Flow task -> List task
  | next tasks => tasks
  | raised => []

/-- The thread after one of its tasks; an exception drops what is left of it. -/
def resume (rest : List task) : Flow task -> List task
  | next tasks => tasks ++ rest
  | raised => []

@[simp] theorem tasks_next (ts : List task) : (Flow.next ts).tasks = ts := rfl

@[simp] theorem tasks_raised : (Flow.raised : Flow task).tasks = [] := rfl

end Flow

/-- Continue with the value of a computation, or raise and leave the memory alone. -/
def attempt (m : memory) (x : Except error value) (next : value -> memory × Flow task) :
    memory × Flow task :=
  match x with
  | .ok v => next v
  | .error _ => (m, .raised)

/-- A program whose threads run atomic tasks over one shared memory. A reading
is what the environment answers to the task: a clock, a peer, an adapter. -/
structure Machine (memory task reading entry : Type) where
  exec : memory -> task -> reading -> memory × Flow task
  start : entry -> List task
  restart : memory -> memory

structure Pool (memory task : Type) where
  shared : memory
  threads : List (List task)
deriving DecidableEq

/-- Scheduler choices: a new thread, one task of a thread, the end of a thread
by an exception or a broken connection, and a crash of the whole process. -/
inductive Action (reading entry : Type) where
  | spawn (e : entry)
  | run (thread : Nat) (r : reading)
  | stop (thread : Nat)
  | crash
deriving Repr

namespace Machine

def step (M : Machine memory task reading entry) (p : Pool memory task) :
    Action reading entry -> Option (Pool memory task)
  | .spawn e => some { p with threads := p.threads ++ [M.start e] }
  | .run i r =>
      match p.threads[i]? with
      | some (t :: rest) =>
          let (shared, flow) := M.exec p.shared t r
          some { shared := shared, threads := p.threads.set i (flow.resume rest) }
      | _ => none
  | .stop i => some { p with threads := p.threads.set i [] }
  | .crash => some { shared := M.restart p.shared, threads := [] }

/-- Run a list of scheduler choices, each of which must pass the test; a choice that
is not possible or does not pass ends in `none`. -/
def runWhere (M : Machine memory task reading entry)
    (test : Pool memory task -> Action reading entry -> Bool) :
    Pool memory task -> List (Action reading entry) -> Option (Pool memory task)
  | p, [] => some p
  | p, a :: rest =>
      if test p a then
        match M.step p a with
        | some p' => runWhere M test p' rest
        | none => none
      else
        none

def run (M : Machine memory task reading entry) :
    Pool memory task -> List (Action reading entry) -> Option (Pool memory task) :=
  M.runWhere (fun _ _ => true)

end Machine

namespace Pool

def tasks (p : Pool memory task) : Multiset task :=
  (p.threads.flatten : Multiset task)

/-- The task a thread runs next, if it has one. -/
def nextTask (p : Pool memory task) (i : Nat) : Option task :=
  match p.threads[i]? with
  | some (t :: _) => some t
  | _ => none

end Pool

/-!
## Bags of tasks

Replacing one thread by another changes the bag of tasks by exactly the tasks
of the two threads.
-/

theorem flatten_split {threads : List (List task)} {i : Nat} {thread : List task}
    (h : threads[i]? = some thread) :
    exists others : Multiset task,
      (threads.flatten : Multiset task) = (thread : Multiset task) + others ∧
      forall replacement : List task,
        ((threads.set i replacement).flatten : Multiset task) =
          (replacement : Multiset task) + others := by
  induction threads generalizing i with
  | nil =>
      simp at h
  | cons head rest ih =>
      cases i with
      | zero =>
          have hhead : head = thread := by simpa using h
          subst hhead
          refine ⟨(rest.flatten : Multiset task), ?_, ?_⟩
          · simp
          · intro replacement
            simp
      | succ i =>
          rcases ih (by simpa using h) with ⟨others, hflat, hset⟩
          refine ⟨(head : Multiset task) + others, ?_, ?_⟩
          · rw [List.flatten_cons, ← Multiset.coe_add, hflat]
            exact add_left_comm _ _ _
          · intro replacement
            rw [List.set_cons_succ, List.flatten_cons, ← Multiset.coe_add,
              hset replacement]
            exact add_left_comm _ _ _

theorem flatten_set_nil_le (threads : List (List task)) (i : Nat) :
    ((threads.set i []).flatten : Multiset task) ≤
      (threads.flatten : Multiset task) := by
  cases h : threads[i]? with
  | none =>
      have hlen : threads.length ≤ i := List.getElem?_eq_none_iff.mp h
      rw [List.set_eq_of_length_le hlen]
  | some thread =>
      rcases flatten_split h with ⟨others, hflat, hset⟩
      rw [hset [], hflat, Multiset.coe_nil, zero_add]
      exact Multiset.le_add_left _ _

theorem filterMap_idle {f : task -> Option value} {tasks : List task}
    (h : forall t, t ∈ tasks -> f t = none) (ts : Multiset task) :
    ((tasks : Multiset task) + ts).filterMap f = ts.filterMap f := by
  rw [Multiset.filterMap_add, Multiset.filterMap_coe, List.filterMap_eq_nil_iff.mpr h,
    Multiset.coe_nil, zero_add]

/-!
## Conditioned runs

A condition looks at the shared state, at the other unfinished tasks and at the
move about to be made. A conditioned run is a run all of whose moves meet it.
-/

/-- A move as a condition sees it: a new thread, or one task with its reading. -/
inductive Move (task reading entry : Type) where
  | spawn (e : entry)
  | exec (t : task) (r : reading)

/-- For a task, the bag holds the other unfinished tasks. -/
abbrev Condition (memory task reading entry : Type) :=
  memory -> Multiset task -> Move task reading entry -> Prop

def Condition.always : Condition memory task reading entry :=
  fun _ _ _ => True

def Condition.both (C D : Condition memory task reading entry) :
    Condition memory task reading entry :=
  fun s ts move => C s ts move ∧ D s ts move

namespace Machine

def Meets (C : Condition memory task reading entry) (p : Pool memory task) :
    Action reading entry -> Prop
  | .spawn e => C p.shared p.tasks (.spawn e)
  | .run i r =>
      forall t others, p.nextTask i = some t -> p.tasks = t ::ₘ others ->
        C p.shared others (.exec t r)
  | .stop _ => True
  | .crash => True

/-- The ways in which a scheduler choice changes the pool. -/
inductive Stepped (M : Machine memory task reading entry) (p : Pool memory task) :
    Action reading entry -> Pool memory task -> Prop where
  | spawned (e : entry) :
      Stepped M p (.spawn e) { p with threads := p.threads ++ [M.start e] }
  | ran {i : Nat} {t : task} {rest : List task} (r : reading)
      (hthread : p.threads[i]? = some (t :: rest)) :
      Stepped M p (.run i r)
        { shared := (M.exec p.shared t r).1,
          threads := p.threads.set i ((M.exec p.shared t r).2.resume rest) }
  | stopped (i : Nat) : Stepped M p (.stop i) { p with threads := p.threads.set i [] }
  | crashed : Stepped M p .crash { shared := M.restart p.shared, threads := [] }

theorem stepped_of_step {M : Machine memory task reading entry} {p q : Pool memory task}
    {a : Action reading entry} (h : M.step p a = some q) : Stepped M p a q := by
  cases a with
  | spawn e =>
      cases h
      exact .spawned e
  | run i r =>
      cases hthread : p.threads[i]? with
      | none => simp [step, hthread] at h
      | some thread =>
          cases thread with
          | nil => simp [step, hthread] at h
          | cons t rest =>
              simp only [step, hthread, Option.some.injEq] at h
              rw [← h]
              exact .ran r hthread
  | stop i =>
      cases h
      exact .stopped i
  | crash =>
      cases h
      exact .crashed

theorem nextTask_of_thread {p : Pool memory task} {i : Nat} {t : task} {rest : List task}
    (h : p.threads[i]? = some (t :: rest)) : p.nextTask i = some t := by
  simp [Pool.nextTask, h]

theorem Meets.exec {C : Condition memory task reading entry} {p : Pool memory task} {i : Nat}
    {t : task} {rest : List task} {r : reading} (h : Meets C p (.run i r))
    (hthread : p.threads[i]? = some (t :: rest)) :
    exists others, p.tasks = t ::ₘ others ∧ C p.shared others (.exec t r) := by
  rcases flatten_split hthread with ⟨others, hflat, _⟩
  have htasks : p.tasks = t ::ₘ ((rest : Multiset task) + others) := by
    show (p.threads.flatten : Multiset task) = _
    rw [hflat, ← Multiset.cons_coe, Multiset.cons_add]
  exact ⟨_, htasks, h t _ (nextTask_of_thread hthread) htasks⟩

def Step (M : Machine memory task reading entry)
    (C : Condition memory task reading entry) (p p' : Pool memory task) : Prop :=
  exists a, Meets C p a ∧ M.step p a = some p'

def Reaches (M : Machine memory task reading entry)
    (C : Condition memory task reading entry) :
    Pool memory task -> Pool memory task -> Prop :=
  Relation.ReflTransGen (M.Step C)

theorem meets_always (p : Pool memory task) (a : Action reading entry) :
    Meets Condition.always p a := by
  cases a with
  | spawn e => trivial
  | run i r => intro t others _ _; trivial
  | stop i => trivial
  | crash => trivial

/-- A test that implies the condition makes an executable run a conditioned one. -/
theorem runWhere_reaches {M : Machine memory task reading entry}
    {C : Condition memory task reading entry}
    {test : Pool memory task -> Action reading entry -> Bool}
    (htest : forall p a, test p a = true -> Meets C p a)
    {actions : List (Action reading entry)} {p p' : Pool memory task}
    (h : M.runWhere test p actions = some p') : M.Reaches C p p' := by
  induction actions generalizing p with
  | nil =>
      have hp : p = p' := by simpa [runWhere] using h
      subst hp
      exact Relation.ReflTransGen.refl
  | cons a rest ih =>
      unfold runWhere at h
      split_ifs at h with hpass
      cases hstep : M.step p a with
      | none =>
          rw [hstep] at h
          cases h
      | some mid =>
          rw [hstep] at h
          exact Relation.ReflTransGen.head ⟨a, htest p a hpass, hstep⟩ (ih h)

theorem run_reaches {M : Machine memory task reading entry}
    {actions : List (Action reading entry)} {p p' : Pool memory task}
    (h : M.run p actions = some p') : M.Reaches Condition.always p p' :=
  runWhere_reaches (fun q a _ => meets_always q a) h

theorem run_cons {M : Machine memory task reading entry} {p q : Pool memory task}
    {a : Action reading entry} (h : M.step p a = some q)
    (rest : List (Action reading entry)) : M.run p (a :: rest) = M.run q rest := by
  simp only [run, runWhere, if_true, h]

theorem Reaches.weaken {M : Machine memory task reading entry}
    {C D : Condition memory task reading entry} {p p' : Pool memory task}
    (hCD : forall s ts m, C s ts m -> D s ts m) (h : M.Reaches C p p') :
    M.Reaches D p p' := by
  refine Relation.ReflTransGen.mono ?_ _ _ h
  rintro q q' ⟨a, hmeets, hstep⟩
  refine ⟨a, ?_, hstep⟩
  cases a with
  | spawn e => exact hCD _ _ _ hmeets
  | run i r => exact fun t others hnext htasks => hCD _ _ _ (hmeets t others hnext htasks)
  | stop i => trivial
  | crash => trivial

theorem Step.cases {M : Machine memory task reading entry}
    {C : Condition memory task reading entry} {p p' : Pool memory task}
    (h : M.Step C p p') :
    (exists e, C p.shared p.tasks (.spawn e) ∧ p'.shared = p.shared ∧
      p'.tasks = p.tasks + (M.start e : Multiset task)) ∨
    (exists t others r, p.tasks = t ::ₘ others ∧ C p.shared others (.exec t r) ∧
      p'.shared = (M.exec p.shared t r).1 ∧
      p'.tasks ≤ ((M.exec p.shared t r).2.tasks : Multiset task) + others) ∨
    (p'.shared = p.shared ∧ p'.tasks ≤ p.tasks) ∨
    (p'.shared = M.restart p.shared ∧ p'.tasks = 0) := by
  rcases h with ⟨a, hmeets, hstep⟩
  cases stepped_of_step hstep with
  | spawned e => exact Or.inl ⟨e, hmeets, rfl, by simp [Pool.tasks]⟩
  | @ran i t rest r hthread =>
      rcases flatten_split hthread with ⟨others, hflat, hset⟩
      have htasks : p.tasks = t ::ₘ ((rest : Multiset task) + others) := by
        show (p.threads.flatten : Multiset task) = _
        rw [hflat, ← Multiset.cons_coe, Multiset.cons_add]
      refine Or.inr (Or.inl ⟨t, (rest : Multiset task) + others, r, htasks, ?_, rfl, ?_⟩)
      · exact hmeets t _ (nextTask_of_thread hthread) htasks
      · show ((p.threads.set i _).flatten : Multiset task) ≤ _
        rw [hset]
        cases (M.exec p.shared t r).2 with
        | next tasks =>
            simp only [Flow.resume, Flow.tasks, ← Multiset.coe_add]
            rw [add_assoc]
        | raised =>
            rw [Flow.resume, Flow.tasks, Multiset.coe_nil, zero_add, zero_add]
            exact Multiset.le_add_left _ _
  | stopped i => exact Or.inr (Or.inr (Or.inl ⟨rfl, flatten_set_nil_le _ _⟩))
  | crashed => exact Or.inr (Or.inr (Or.inr ⟨rfl, rfl⟩))

/-!
## Invariants

An invariant speaks about the shared state and the bag of unfinished tasks. It
must survive the loss of tasks, since a thread may stop anywhere.
-/

/-- `I` is kept by every move that meets `C`, given that `J`
holds before it. -/
structure Keeps (M : Machine memory task reading entry)
    (C : Condition memory task reading entry)
    (J I : memory -> Multiset task -> Prop) : Prop where
  drop : forall {s ts ts'}, I s ts -> ts' ≤ ts -> I s ts'
  spawn : forall {s ts e}, J s ts -> I s ts -> C s ts (.spawn e) ->
    I s (ts + (M.start e : Multiset task))
  exec : forall {s t ts r}, J s (t ::ₘ ts) -> I s (t ::ₘ ts) -> C s ts (.exec t r) ->
    I (M.exec s t r).1 (((M.exec s t r).2.tasks : Multiset task) + ts)
  crash : forall {s ts}, J s ts -> I s ts -> I (M.restart s) 0

theorem Keeps.step {M : Machine memory task reading entry}
    {C : Condition memory task reading entry}
    {J I : memory -> Multiset task -> Prop} (hkeeps : M.Keeps C J I)
    {p p' : Pool memory task} (h : M.Step C p p')
    (hJ : J p.shared p.tasks) (hI : I p.shared p.tasks) :
    I p'.shared p'.tasks := by
  rcases h.cases with ⟨e, hC, hshared, htasks⟩ |
    ⟨t, others, r, hbag, hC, hshared, htasks⟩ | ⟨hshared, htasks⟩ |
    ⟨hshared, htasks⟩
  · rw [hshared, htasks]
    exact hkeeps.spawn hJ hI hC
  · rw [hbag] at hJ hI
    rw [hshared]
    exact hkeeps.drop (hkeeps.exec hJ hI hC) htasks
  · rw [hshared]
    exact hkeeps.drop hI htasks
  · rw [hshared, htasks]
    exact hkeeps.crash hJ hI

/-- The run lemma: an invariant that every step keeps holds in every state a
conditioned run reaches. -/
theorem Keeps.reaches {M : Machine memory task reading entry}
    {C : Condition memory task reading entry}
    {J I : memory -> Multiset task -> Prop} (hkeeps : M.Keeps C J I)
    {p p' : Pool memory task} (h : M.Reaches C p p')
    (hJ : forall q, M.Reaches C p q -> J q.shared q.tasks)
    (hI : I p.shared p.tasks) : I p'.shared p'.tasks := by
  induction h with
  | refl => exact hI
  | tail hreach hstep ih => exact hkeeps.step hstep (hJ _ hreach) ih

/-- A relation between an earlier and a later shared state that every task and
every restart respects relates the two ends of every run. -/
theorem Reaches.relates {M : Machine memory task reading entry}
    {C : Condition memory task reading entry} (R : memory -> memory -> Prop)
    (hrefl : forall s, R s s) (htrans : forall {a b c}, R a b -> R b c -> R a c)
    (hexec : forall s t r, R s (M.exec s t r).1)
    (hcrash : forall s, R s (M.restart s))
    {p p' : Pool memory task} (h : M.Reaches C p p') : R p.shared p'.shared := by
  induction h with
  | refl => exact hrefl _
  | tail _ hstep ih =>
      refine htrans ih ?_
      rcases hstep.cases with ⟨_, _, hshared, _⟩ | ⟨t, _, r, _, _, hshared, _⟩ |
        ⟨hshared, _⟩ | ⟨hshared, _⟩
      · rw [hshared]
        exact hrefl _
      · rw [hshared]
        exact hexec _ t r
      · rw [hshared]
        exact hrefl _
      · rw [hshared]
        exact hcrash _

theorem step_run {M : Machine memory task reading entry} {p : Pool memory task}
    {i : Nat} {t : task} {rest : List task} {r : reading} {shared : memory}
    {flow : Flow task} (hthread : p.threads[i]? = some (t :: rest))
    (hexec : M.exec p.shared t r = (shared, flow)) :
    M.step p (.run i r) =
      some { shared := shared, threads := p.threads.set i (flow.resume rest) } := by
  simp only [step, hthread, hexec]

theorem nextTask_eq_some {p : Pool memory task} {i : Nat} {t : task}
    (h : p.nextTask i = some t) : exists rest, p.threads[i]? = some (t :: rest) := by
  unfold Pool.nextTask at h
  cases hthread : p.threads[i]? with
  | none => simp [hthread] at h
  | some thread =>
      cases thread with
      | nil => simp [hthread] at h
      | cons head rest =>
          have hhead : head = t := by simpa [hthread] using h
          exact ⟨rest, by rw [hhead]⟩

theorem shared_of_run {M : Machine memory task reading entry} {p q : Pool memory task} {i : Nat}
    {t : task} {r : reading} (hnext : p.nextTask i = some t)
    (hstep : M.step p (.run i r) = some q) : q.shared = (M.exec p.shared t r).1 := by
  rcases nextTask_eq_some hnext with ⟨rest, hthread⟩
  cases (step_run hthread rfl).symm.trans hstep
  rfl

theorem step_nextTask {M : Machine memory task reading entry} {p : Pool memory task}
    {i : Nat} {t t' : task} {r : reading} {shared : memory} {tasks : List task}
    (hnext : p.nextTask i = some t)
    (hexec : M.exec p.shared t r = (shared, .next (t' :: tasks))) :
    exists q, M.step p (.run i r) = some q ∧ q.shared = shared ∧
      q.nextTask i = some t' := by
  rcases nextTask_eq_some hnext with ⟨rest, hthread⟩
  have hi : i < p.threads.length := (List.getElem?_eq_some_iff.mp hthread).1
  refine ⟨_, step_run hthread hexec, rfl, ?_⟩
  simp [Pool.nextTask, Flow.resume, hi]

theorem nextTask_mem {p : Pool memory task} {i : Nat} {t : task}
    (h : p.nextTask i = some t) : t ∈ p.tasks := by
  rcases nextTask_eq_some h with ⟨rest, hthread⟩
  rcases flatten_split hthread with ⟨others, hflat, _⟩
  show t ∈ (p.threads.flatten : Multiset task)
  rw [hflat]
  simp

end Machine

end Foundation
