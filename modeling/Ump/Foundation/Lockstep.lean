import Mathlib.Data.List.Forall2

/-!
# Two systems under the same calls

## Answers along a list of calls

A responder answers a call and goes on in a new state. Two of them are given one list of
calls. If related states answer a call alike exactly under a condition on the second one,
and stay related then, the two lists of answers are alike exactly when every call of the
list meets the condition.
-/

namespace Foundation

abbrev Responder (state call answer : Type) := state -> call -> answer × state

def respond (method : call -> EStateM error state answer) :
    Responder state call (Except error answer) :=
  fun s c =>
    match method c s with
    | .ok v s' => (.ok v, s')
    | .error e s' => (.error e, s')

theorem respond_of_ok {method : call -> EStateM error state answer} {s s' : state} {c : call}
    {v : answer} (h : method c s = .ok v s') : respond method s c = (.ok v, s') := by
  unfold respond
  rw [h]

theorem respond_of_error {method : call -> EStateM error state answer} {s s' : state}
    {c : call} {e : error} (h : method c s = .error e s') :
    respond method s c = (.error e, s') := by
  unfold respond
  rw [h]

namespace Responder

def answers (f : Responder state call answer) : state -> List call -> List answer
  | _, [] => []
  | s, c :: rest => (f s c).1 :: answers f (f s c).2 rest

def final (f : Responder state call answer) : state -> List call -> state
  | s, [] => s
  | s, c :: rest => final f (f s c).2 rest

/-- Every call is made in a state that meets the condition for it. -/
def Meets (f : Responder state call answer) (condition : state -> call -> Prop) :
    state -> List call -> Prop
  | _, [] => True
  | s, c :: rest => condition s c ∧ Meets f condition (f s c).2 rest

end Responder

/-- Related states answer a call alike and stay related, or the call fails the condition and
the answers differ. -/
def Lockstep (f : Responder state call answer) (g : Responder state' call answer')
    (Alike : answer -> answer' -> Prop) (Relates : state -> state' -> Prop)
    (condition : state' -> call -> Prop) (calls : List call) : Prop :=
  forall s t c, Relates s t -> c ∈ calls ->
    (condition t c ∧ Alike (f s c).1 (g t c).1 ∧ Relates (f s c).2 (g t c).2) ∨
      (¬ condition t c ∧ ¬ Alike (f s c).1 (g t c).1)

namespace Lockstep

variable {f : Responder state call answer} {g : Responder state' call answer'}
variable {Alike : answer -> answer' -> Prop} {Relates : state -> state' -> Prop}
variable {condition : state' -> call -> Prop} {calls : List call} {s : state} {t : state'}

theorem tail {c : call} (h : Lockstep f g Alike Relates condition (c :: calls)) :
    Lockstep f g Alike Relates condition calls :=
  fun s t other hrelated hmem => h s t other hrelated (List.mem_cons_of_mem c hmem)

theorem answers_iff (h : Lockstep f g Alike Relates condition calls) (hrelated : Relates s t) :
    List.Forall₂ Alike (f.answers s calls) (g.answers t calls) <-> g.Meets condition t calls := by
  induction calls generalizing s t with
  | nil => exact ⟨fun _ => trivial, fun _ => .nil⟩
  | cons c rest ih =>
      rw [Responder.answers, Responder.answers, Responder.Meets, List.forall₂_cons]
      rcases h s t c hrelated List.mem_cons_self with
        ⟨hcondition, halike, hnext⟩ | ⟨hcondition, halike⟩
      · rw [ih h.tail hnext]
        simp [hcondition, halike]
      · simp [hcondition, halike]

theorem final_related (h : Lockstep f g Alike Relates condition calls) (hrelated : Relates s t)
    (hmeets : g.Meets condition t calls) : Relates (f.final s calls) (g.final t calls) := by
  induction calls generalizing s t with
  | nil => exact hrelated
  | cons c rest ih =>
      rcases h s t c hrelated List.mem_cons_self with ⟨_, _, hnext⟩ | ⟨hcondition, _⟩
      · exact ih h.tail hnext hmeets.2
      · exact absurd hmeets.1 hcondition

end Lockstep

end Foundation
