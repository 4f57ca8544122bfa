import Ump.Foundation.Interleaving

/-!
# Machines beside which others act

## Interventions

Another process has the shared state open and acts on it with commands of its own, each
of them one atomic change. The machine does not know of it: its tasks and its restart are
as before, and a command may come between any two of them.
-/

namespace Foundation

def Flow.map (f : task -> task') : Flow task -> Flow task'
  | .next tasks => .next (tasks.map f)
  | .raised => .raised

/-- The machine, and threads that make one command each. -/
def Machine.beside (M : Machine memory task reading entry)
    (intervene : command -> memory -> memory) :
    Machine memory (task ⊕ command) reading (entry ⊕ command) where
  exec m t r :=
    match t with
    | .inl own => ((M.exec m own r).1, (M.exec m own r).2.map Sum.inl)
    | .inr c => (intervene c m, .next [])
  start
    | .inl e => (M.start e).map Sum.inl
    | .inr c => [.inr c]
  restart := M.restart

def ownTasks (ts : Multiset (task ⊕ command)) : Multiset task :=
  ts.filterMap Sum.getLeft?

/-- The machine's moves meet its own condition, and commands one of theirs. -/
def Condition.beside (C : Condition memory task reading entry)
    (D : memory -> command -> Prop) :
    Condition memory (task ⊕ command) reading (entry ⊕ command) :=
  fun m ts move =>
    match move with
    | .spawn (.inl e) => C m (ownTasks ts) (.spawn e)
    | .exec (.inl t) r => C m (ownTasks ts) (.exec t r)
    | .exec (.inr c) _ => D m c
    | .spawn (.inr _) => True

@[simp] theorem ownTasks_inl (t : task) (ts : Multiset (task ⊕ command)) :
    ownTasks (.inl t ::ₘ ts) = t ::ₘ ownTasks ts :=
  Multiset.filterMap_cons_some _ _ _ rfl

@[simp] theorem ownTasks_inr (c : command) (ts : Multiset (task ⊕ command)) :
    ownTasks (.inr c ::ₘ ts) = ownTasks ts :=
  Multiset.filterMap_cons_none _ _ rfl

theorem ownTasks_map_inl (tasks : List task) (ts : Multiset (task ⊕ command)) :
    ownTasks (((tasks.map Sum.inl : List (task ⊕ command)) : Multiset (task ⊕ command)) + ts) =
      (tasks : Multiset task) + ownTasks ts := by
  induction tasks with
  | nil =>
      rw [List.map_nil, Multiset.coe_nil, Multiset.coe_nil, zero_add, zero_add]
  | cons t rest ih =>
      rw [List.map_cons, ← Multiset.cons_coe, Multiset.cons_add, ownTasks_inl, ih,
        ← Multiset.cons_coe, Multiset.cons_add]

theorem Flow.tasks_map (f : task -> task') (flow : Flow task) :
    (flow.map f).tasks = flow.tasks.map f := by
  cases flow <;> rfl

namespace Machine

theorem Keeps.beside {M : Machine memory task reading entry}
    {intervene : command -> memory -> memory} {C : Condition memory task reading entry}
    {D : memory -> command -> Prop} {J I : memory -> Multiset task -> Prop}
    (hkeeps : M.Keeps C J I)
    (hstable : forall m ts c, J m ts -> I m ts -> D m c -> I (intervene c m) ts) :
    (M.beside intervene).Keeps (C.beside D) (fun m ts => J m (ownTasks ts))
      (fun m ts => I m (ownTasks ts)) where
  drop h hle := hkeeps.drop h (Multiset.filterMap_le_filterMap _ hle)
  spawn {m ts e} hJ hI hC := by
    cases e with
    | inl e =>
        show I m (ownTasks (ts + (((M.start e).map Sum.inl : List (task ⊕ command)) :
          Multiset (task ⊕ command))))
        rw [add_comm, ownTasks_map_inl, add_comm]
        exact hkeeps.spawn hJ hI hC
    | inr c =>
        show I m (ownTasks (ts + (([.inr c] : List (task ⊕ command)) :
          Multiset (task ⊕ command))))
        rw [add_comm, Multiset.coe_singleton, Multiset.singleton_add, ownTasks_inr]
        exact hI
  exec {m t ts r} hJ hI hC := by
    cases t with
    | inl own =>
        rw [ownTasks_inl] at hJ hI
        show I (M.exec m own r).1 (ownTasks
          (((((M.exec m own r).2.map Sum.inl).tasks : List (task ⊕ command)) :
            Multiset (task ⊕ command)) + ts))
        rw [Flow.tasks_map, ownTasks_map_inl]
        exact hkeeps.exec hJ hI hC
    | inr c =>
        rw [ownTasks_inr] at hJ hI
        show I (intervene c m) (ownTasks ((([] : List (task ⊕ command)) :
          Multiset (task ⊕ command)) + ts))
        rw [Multiset.coe_nil, zero_add]
        exact hstable m (ownTasks ts) c hJ hI hC
  crash hJ hI := hkeeps.crash hJ hI

end Machine

end Foundation
