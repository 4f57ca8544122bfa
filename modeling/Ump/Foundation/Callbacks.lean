import Mathlib.Data.List.Infix
import Mathlib.Logic.Function.Basic
import Mathlib.Logic.Relation

/-!
# Nested callbacks

## Publications and calls

A publication calls its receivers one after the other in the thread that makes it. A receiver
may publish too while it runs, and goes on when that is over. An exception of a receiver ends
the publication; the receiver that made the publication may catch it.
-/

namespace Foundation

structure Publication (message handler : Type) where
  thread : Nat
  content : message
  receivers : List handler

/-- A call of a receiver, with the number of publications that there were when it began. -/
structure Call (handler : Type) where
  number : Nat
  receiver : handler
  published : Nat

/-- A publication on the stack of its thread, and whether one of its receivers is running. -/
structure Frame (handler : Type) where
  number : Nat
  pending : List handler
  running : Bool

structure Callbacks (message handler : Type) where
  publications : List (Publication message handler)
  calls : List (Call handler)
  aborted : List Nat
  stack : Nat -> List (Frame handler)

namespace Callbacks

variable {message handler : Type}

def initial : Callbacks message handler where
  publications := []
  calls := []
  aborted := []
  stack := fun _ => []

/-- What a thread does next: its code runs between the calls of `publish`. -/
inductive Event (message handler : Type) where
  | publish (content : message) (receivers : List handler)
  | enter
  | leave
  | finish
  | raise

/-- No publication of the thread is about to call its next receiver. -/
def free : List (Frame handler) -> Bool
  | [] => true
  | frame :: _ => frame.running

def step (s : Callbacks message handler) (thread : Nat) :
    Event message handler -> Option (Callbacks message handler)
  | .publish content receivers =>
      if free (s.stack thread) then
        some
          { s with
            publications := s.publications ++ [⟨thread, content, receivers⟩]
            stack := Function.update s.stack thread
              (⟨s.publications.length, receivers, false⟩ :: s.stack thread) }
      else none
  | .enter =>
      match s.stack thread with
      | ⟨number, receiver :: pending, false⟩ :: rest =>
          some
            { s with
              calls := s.calls ++ [⟨number, receiver, s.publications.length⟩]
              stack := Function.update s.stack thread (⟨number, pending, true⟩ :: rest) }
      | _ => none
  | .leave =>
      match s.stack thread with
      | ⟨number, pending, true⟩ :: rest =>
          some { s with stack := Function.update s.stack thread (⟨number, pending, false⟩ :: rest) }
      | _ => none
  | .finish =>
      match s.stack thread with
      | ⟨_, [], false⟩ :: rest => some { s with stack := Function.update s.stack thread rest }
      | _ => none
  | .raise =>
      match s.stack thread with
      | ⟨number, _, true⟩ :: rest =>
          some
            { s with
              aborted := s.aborted ++ [number]
              stack := Function.update s.stack thread rest }
      | _ => none

/-- The ways in which an event changes the state. -/
inductive Stepped (s : Callbacks message handler) (thread : Nat) :
    Event message handler -> Callbacks message handler -> Prop where
  | published (content : message) (receivers : List handler)
      (hfree : free (s.stack thread) = true) :
      Stepped s thread (.publish content receivers)
        { s with
          publications := s.publications ++ [⟨thread, content, receivers⟩]
          stack := Function.update s.stack thread
            (⟨s.publications.length, receivers, false⟩ :: s.stack thread) }
  | entered {number : Nat} {receiver : handler} {pending : List handler}
      {rest : List (Frame handler)}
      (hstack : s.stack thread = ⟨number, receiver :: pending, false⟩ :: rest) :
      Stepped s thread .enter
        { s with
          calls := s.calls ++ [⟨number, receiver, s.publications.length⟩]
          stack := Function.update s.stack thread (⟨number, pending, true⟩ :: rest) }
  | left {number : Nat} {pending : List handler} {rest : List (Frame handler)}
      (hstack : s.stack thread = ⟨number, pending, true⟩ :: rest) :
      Stepped s thread .leave
        { s with stack := Function.update s.stack thread (⟨number, pending, false⟩ :: rest) }
  | finished {number : Nat} {rest : List (Frame handler)}
      (hstack : s.stack thread = ⟨number, [], false⟩ :: rest) :
      Stepped s thread .finish { s with stack := Function.update s.stack thread rest }
  | raised {number : Nat} {pending : List handler} {rest : List (Frame handler)}
      (hstack : s.stack thread = ⟨number, pending, true⟩ :: rest) :
      Stepped s thread .raise
        { s with
          aborted := s.aborted ++ [number]
          stack := Function.update s.stack thread rest }

theorem stepped_of_step {s s' : Callbacks message handler} {thread : Nat}
    {event : Event message handler} (h : s.step thread event = some s') :
    Stepped s thread event s' := by
  cases event with
  | publish content receivers =>
      simp only [step] at h
      split at h
      · next hfree =>
          cases h
          exact .published content receivers hfree
      · cases h
  | enter =>
      simp only [step] at h
      split at h
      · next hstack =>
          cases h
          exact .entered hstack
      · cases h
  | leave =>
      simp only [step] at h
      split at h
      · next hstack =>
          cases h
          exact .left hstack
      · cases h
  | finish =>
      simp only [step] at h
      split at h
      · next hstack =>
          cases h
          exact .finished hstack
      · cases h
  | raise =>
      simp only [step] at h
      split at h
      · next hstack =>
          cases h
          exact .raised hstack
      · cases h

/-!
## What is called
-/

def reached (calls : List (Call handler)) (number : Nat) : List handler :=
  (calls.filter (fun call => call.number == number)).map (fun call => call.receiver)

theorem reached_concat (calls : List (Call handler)) (call : Call handler) (number : Nat) :
    reached (calls ++ [call]) number =
      if call.number = number then reached calls number ++ [call.receiver]
      else reached calls number := by
  unfold reached
  by_cases hsame : call.number = number
  · simp [hsame]
  · simp [hsame]

theorem reached_of_lt {calls : List (Call handler)} {number : Nat}
    (h : forall call, call ∈ calls -> call.number < number) : reached calls number = [] := by
  unfold reached
  rw [List.filter_eq_nil_iff.mpr, List.map_nil]
  intro call hcall hsame
  exact absurd (beq_iff_eq.mp hsame) (Nat.ne_of_lt (h call hcall))

/-- The publication with this number is over: its receivers have all been called, or one of
them has raised an exception. -/
def Over (s : Callbacks message handler) (calls : List (Call handler)) (number : Nat)
    (publication : Publication message handler) : Prop :=
  number ∈ s.aborted ∨ reached calls number = publication.receivers

/-- When a call begins, no later publication of its thread is there before the first call, and
each later one is over. -/
def Timely (s : Callbacks message handler) (before : List (Call handler)) (call : Call handler) :
    Prop :=
  forall publication later number, s.publications[call.number]? = some publication ->
    call.number < number -> number < call.published ->
      s.publications[number]? = some later -> later.thread = publication.thread ->
        reached before call.number ≠ [] ∧ Over s before number later

/-- The stack of a thread: all of its publications that are not over, the last one on top. -/
structure Stacked (s : Callbacks message handler) (thread : Nat) (frames : List (Frame handler)) :
    Prop where
  known : forall frame, frame ∈ frames -> exists publication,
    s.publications[frame.number]? = some publication ∧ publication.thread = thread ∧
      reached s.calls frame.number ++ frame.pending = publication.receivers
  descending : frames.Pairwise
    (fun above below => below.number < above.number ∧ below.running = true)
  fresh : forall frame, frame ∈ frames -> reached s.calls frame.number = [] ->
    frame.running = false ∧ forall number publication, frame.number < number ->
      s.publications[number]? = some publication -> publication.thread ≠ thread
  closed : forall number publication, s.publications[number]? = some publication ->
    publication.thread = thread -> number ∉ frames.map (fun frame => frame.number) ->
      Over s s.calls number publication

structure Nested (s : Callbacks message handler) : Prop where
  stacked : forall thread, Stacked s thread (s.stack thread)
  called : forall number publication, s.publications[number]? = some publication ->
    reached s.calls number <+: publication.receivers
  bounded : forall call, call ∈ s.calls ->
    call.number < call.published ∧ call.published ≤ s.publications.length
  clocked : s.calls.Pairwise (fun before after => before.published ≤ after.published)
  timely : forall before call, before ++ [call] <+: s.calls -> Timely s before call

/-!
## One event
-/

theorem getElem?_concat {items : List value} {item other : value} {i : Nat} :
    (items ++ [item])[i]? = some other <->
      items[i]? = some other ∨ (i = items.length ∧ item = other) := by
  rcases Nat.lt_trichotomy i items.length with hlt | heq | hgt
  · rw [List.getElem?_append_left hlt]
    constructor
    · exact Or.inl
    · intro h
      rcases h with hold | ⟨heq, _⟩
      · exact hold
      · exact absurd heq (Nat.ne_of_lt hlt)
  · rw [heq, List.getElem?_concat_length, List.getElem?_eq_none (Nat.le_refl _)]
    simp
  · rw [List.getElem?_eq_none (by rw [List.length_append]; exact hgt),
      List.getElem?_eq_none (Nat.le_of_lt hgt)]
    simp [Nat.ne_of_gt hgt]

theorem lt_of_getElem? {items : List value} {item : value} {i : Nat}
    (h : items[i]? = some item) : i < items.length :=
  (List.getElem?_eq_some_iff.mp h).1

theorem running_of_free {frames : List (Frame handler)} (hfree : free frames = true)
    (hdescending : frames.Pairwise
      (fun above below => below.number < above.number ∧ below.running = true))
    {frame : Frame handler} (hframe : frame ∈ frames) : frame.running = true := by
  cases frames with
  | nil => cases hframe
  | cons top rest =>
      rcases List.mem_cons.mp hframe with rfl | hrest
      · exact hfree
      · exact ((List.pairwise_cons.mp hdescending).1 frame hrest).2

variable {s s' : Callbacks message handler} {thread : Nat}

theorem Over.imp {calls : List (Call handler)} {number : Nat}
    {publication : Publication message handler}
    (haborted : forall n, n ∈ s.aborted -> n ∈ s'.aborted)
    (h : Over s calls number publication) : Over s' calls number publication := by
  rcases h with hraised | hall
  · exact Or.inl (haborted number hraised)
  · exact Or.inr hall

theorem Stacked.lt_length {frames : List (Frame handler)} (h : Stacked s thread frames)
    {frame : Frame handler} (hframe : frame ∈ frames) :
    frame.number < s.publications.length := by
  rcases h.known frame hframe with ⟨_, hpublication, _⟩
  exact lt_of_getElem? hpublication

/-!
### A publication
-/

theorem Nested.reached_length (h : Nested s) : reached s.calls s.publications.length = [] :=
  reached_of_lt (fun call hcall =>
    Nat.lt_of_lt_of_le (h.bounded call hcall).1 (h.bounded call hcall).2)

section

variable {content : message} {receivers : List handler}

def publishing (s : Callbacks message handler) (thread : Nat) (content : message)
    (receivers : List handler) (stack : Nat -> List (Frame handler)) :
    Callbacks message handler :=
  { s with
    publications := s.publications ++ [⟨thread, content, receivers⟩]
    stack := stack }

theorem Stacked.other {stack : Nat -> List (Frame handler)} {other : Nat}
    (hother : other ≠ thread) {frames : List (Frame handler)} (h : Stacked s other frames) :
    Stacked (publishing s thread content receivers stack) other frames := by
  constructor
  case known =>
      intro frame hframe
      rcases h.known frame hframe with ⟨publication, hpublication, hrest⟩
      exact ⟨publication, getElem?_concat.mpr (Or.inl hpublication), hrest⟩
  case descending => exact h.descending
  case fresh =>
      intro frame hframe hnone
      rcases h.fresh frame hframe hnone with ⟨hidle, hlast⟩
      refine ⟨hidle, ?_⟩
      intro number publication hlater hpublication
      rcases getElem?_concat.mp hpublication with hpublication | ⟨_, rfl⟩
      · exact hlast number publication hlater hpublication
      · exact fun hsame => hother hsame.symm
  case closed =>
      intro number publication hpublication hthread hgone
      rcases getElem?_concat.mp hpublication with hpublication | ⟨_, rfl⟩
      · exact (h.closed number publication hpublication hthread hgone).imp (fun _ h => h)
      · exact absurd hthread.symm hother

theorem Stacked.pushed (h : Nested s) (hfree : free (s.stack thread) = true)
    {stack : Nat -> List (Frame handler)} :
    Stacked (publishing s thread content receivers stack) thread
      (⟨s.publications.length, receivers, false⟩ :: s.stack thread) := by
  have hold := h.stacked thread
  have hrunning : forall frame, frame ∈ s.stack thread -> frame.running = true :=
    fun frame => running_of_free hfree hold.descending
  constructor
  case known =>
      intro frame hframe
      rcases List.mem_cons.mp hframe with rfl | hframe
      · refine ⟨⟨thread, content, receivers⟩, getElem?_concat.mpr (Or.inr ⟨rfl, rfl⟩), rfl, ?_⟩
        show reached s.calls s.publications.length ++ receivers = receivers
        rw [h.reached_length, List.nil_append]
      · rcases hold.known frame hframe with ⟨publication, hpublication, hrest⟩
        exact ⟨publication, getElem?_concat.mpr (Or.inl hpublication), hrest⟩
  case descending =>
      apply List.pairwise_cons.mpr
      constructor
      · exact fun below hbelow => ⟨hold.lt_length hbelow, hrunning below hbelow⟩
      · exact hold.descending
  case fresh =>
      intro frame hframe hnone
      rcases List.mem_cons.mp hframe with rfl | hframe
      · refine ⟨rfl, ?_⟩
        intro number publication hlater hpublication
        have hlength := lt_of_getElem? hpublication
        dsimp only [publishing] at hlength
        rw [List.length_append, List.length_singleton] at hlength
        exact absurd hlater (Nat.not_lt.mpr (Nat.le_of_lt_succ hlength))
      · have hidle := (hold.fresh frame hframe hnone).1
        rw [hrunning frame hframe] at hidle
        cases hidle
  case closed =>
      intro number publication hpublication hthread hgone
      rw [List.map_cons, List.mem_cons, not_or] at hgone
      rcases getElem?_concat.mp hpublication with hpublication | ⟨hlast, _⟩
      · exact (hold.closed number publication hpublication hthread hgone.2).imp (fun _ h => h)
      · exact absurd hlast hgone.1

theorem Nested.published (h : Nested s) (hfree : free (s.stack thread) = true) :
    Nested (publishing s thread content receivers (Function.update s.stack thread
      (⟨s.publications.length, receivers, false⟩ :: s.stack thread))) := by
  constructor
  case stacked =>
      apply (Function.forall_update_iff s.stack
        (fun other frames => Stacked (publishing s thread content receivers _) other frames)).mpr
      exact ⟨Stacked.pushed h hfree, fun other hother => (h.stacked other).other hother⟩
  case called =>
      intro number publication hpublication
      rcases getElem?_concat.mp hpublication with hpublication | ⟨rfl, rfl⟩
      · exact h.called number publication hpublication
      · show reached s.calls s.publications.length <+: receivers
        rw [h.reached_length]
        exact List.nil_prefix
  case bounded =>
      intro call hcall
      rcases h.bounded call hcall with ⟨hnumber, hpublished⟩
      refine ⟨hnumber, ?_⟩
      have hgrows : s.publications.length ≤ (s.publications ++
          [(⟨thread, content, receivers⟩ : Publication message handler)]).length := by
        rw [List.length_append]
        exact Nat.le_add_right _ _
      exact Nat.le_trans hpublished hgrows
  case clocked => exact h.clocked
  case timely =>
      intro before call hbefore publication later number hpublication hlater hnumber hfound
        hthread
      have hcall : call ∈ s.calls := hbefore.subset (List.mem_append_right _ List.mem_cons_self)
      have hlt : number < s.publications.length :=
        Nat.lt_of_lt_of_le hnumber (h.bounded call hcall).2
      have hpublication' : s.publications[call.number]? = some publication :=
        (List.getElem?_append_left (Nat.lt_trans hlater hlt)).symm.trans hpublication
      have hfound' : s.publications[number]? = some later :=
        (List.getElem?_append_left hlt).symm.trans hfound
      rcases h.timely before call hbefore publication later number hpublication' hlater hnumber
        hfound' hthread with ⟨hfirst, hover⟩
      exact ⟨hfirst, hover.imp (fun _ h => h)⟩

end

/-!
### A call
-/

section

variable {number : Nat} {receiver : handler} {pending : List handler}
  {rest : List (Frame handler)}

def calling (s : Callbacks message handler) (number : Nat) (receiver : handler)
    (stack : Nat -> List (Frame handler)) : Callbacks message handler :=
  { s with
    calls := s.calls ++ [⟨number, receiver, s.publications.length⟩]
    stack := stack }

theorem reached_calling {stack : Nat -> List (Frame handler)} {other : Nat}
    (hother : other ≠ number) :
    reached (calling s number receiver stack).calls other = reached s.calls other := by
  unfold calling
  rw [reached_concat, if_neg (fun hsame => hother hsame.symm)]

theorem reached_calling_self {stack : Nat -> List (Frame handler)} :
    reached (calling s number receiver stack).calls number =
      reached s.calls number ++ [receiver] := by
  unfold calling
  rw [reached_concat, if_pos rfl]

theorem Stacked.uncalled {stack : Nat -> List (Frame handler)} {frames : List (Frame handler)}
    {other : Nat} (h : Stacked s other frames)
    (hothers : forall publication, s.publications[number]? = some publication ->
      publication.thread ≠ other) :
    Stacked (calling s number receiver stack) other frames := by
  have hsame : forall n publication, s.publications[n]? = some publication ->
      publication.thread = other ->
        reached (calling s number receiver stack).calls n = reached s.calls n := by
    intro n publication hpublication hthread
    apply reached_calling
    rintro rfl
    exact hothers publication hpublication hthread
  constructor
  case known =>
      intro frame hframe
      rcases h.known frame hframe with ⟨publication, hpublication, hthread, hreceivers⟩
      refine ⟨publication, hpublication, hthread, ?_⟩
      rw [hsame _ _ hpublication hthread]
      exact hreceivers
  case descending => exact h.descending
  case fresh =>
      intro frame hframe hnone
      rcases h.known frame hframe with ⟨publication, hpublication, hthread, _⟩
      rw [hsame _ _ hpublication hthread] at hnone
      exact h.fresh frame hframe hnone
  case closed =>
      intro n publication hpublication hthread hgone
      rcases h.closed n publication hpublication hthread hgone with hraised | hall
      · exact Or.inl hraised
      · exact Or.inr ((hsame n publication hpublication hthread).trans hall)

theorem Stacked.entered (h : Nested s)
    (hstack : s.stack thread = ⟨number, receiver :: pending, false⟩ :: rest)
    {stack : Nat -> List (Frame handler)} :
    Stacked (calling s number receiver stack) thread (⟨number, pending, true⟩ :: rest) := by
  have hold := h.stacked thread
  rw [hstack] at hold
  have hbelow := List.pairwise_cons.mp hold.descending
  have hne : forall frame, frame ∈ rest -> frame.number ≠ number :=
    fun frame hframe => Nat.ne_of_lt (hbelow.1 frame hframe).1
  constructor
  case known =>
      intro frame hframe
      rcases List.mem_cons.mp hframe with rfl | hframe
      · rcases hold.known _ List.mem_cons_self with
          ⟨publication, hpublication, hthread, hreceivers⟩
        refine ⟨publication, hpublication, hthread, ?_⟩
        rw [reached_calling_self, List.append_assoc]
        exact hreceivers
      · rw [reached_calling (hne frame hframe)]
        exact hold.known frame (List.mem_cons_of_mem _ hframe)
  case descending => exact List.pairwise_cons.mpr hbelow
  case fresh =>
      intro frame hframe hnone
      rcases List.mem_cons.mp hframe with rfl | hframe
      · rw [reached_calling_self] at hnone
        exact absurd hnone (List.append_ne_nil_of_right_ne_nil _ (List.cons_ne_nil _ _))
      · rw [reached_calling (hne frame hframe)] at hnone
        exact hold.fresh frame (List.mem_cons_of_mem _ hframe) hnone
  case closed =>
      intro n publication hpublication hthread hgone
      have hother : n ≠ number := by
        rintro rfl
        exact hgone List.mem_cons_self
      rcases hold.closed n publication hpublication hthread hgone with hraised | hall
      · exact Or.inl hraised
      · exact Or.inr ((reached_calling hother).trans hall)

theorem Nested.timely_entered (h : Nested s)
    (hstack : s.stack thread = ⟨number, receiver :: pending, false⟩ :: rest) :
    Timely s s.calls ⟨number, receiver, s.publications.length⟩ := by
  have hold := h.stacked thread
  rw [hstack] at hold
  intro publication later n hpublication hlater hn hfound hthread
  rcases hold.known _ List.mem_cons_self with ⟨publication', hpublication', hown, _⟩
  rw [hpublication'] at hpublication
  cases hpublication
  constructor
  · intro hnone
    exact (hold.fresh _ List.mem_cons_self hnone).2 n later hlater hfound (hthread.trans hown)
  · apply hold.closed n later hfound (hthread.trans hown)
    intro hmem
    rcases List.mem_map.mp hmem with ⟨frame, hframe, rfl⟩
    rcases List.mem_cons.mp hframe with rfl | hframe
    · exact Nat.lt_irrefl _ hlater
    · exact Nat.lt_asymm hlater ((List.pairwise_cons.mp hold.descending).1 frame hframe).1

theorem Nested.entered (h : Nested s)
    (hstack : s.stack thread = ⟨number, receiver :: pending, false⟩ :: rest) :
    Nested (calling s number receiver (Function.update s.stack thread
      (⟨number, pending, true⟩ :: rest))) := by
  have hold := h.stacked thread
  rw [hstack] at hold
  rcases hold.known _ List.mem_cons_self with ⟨own, hown, hownThread, hreceivers⟩
  constructor
  case stacked =>
      apply (Function.forall_update_iff s.stack
        (fun other frames => Stacked (calling s number receiver _) other frames)).mpr
      refine ⟨Stacked.entered h hstack, fun other hother => (h.stacked other).uncalled ?_⟩
      intro publication hpublication hthread
      rw [hown] at hpublication
      cases hpublication
      exact hother (hthread.symm.trans hownThread)
  case called =>
      intro n publication hpublication
      by_cases hsame : n = number
      · subst hsame
        have hpublication' : s.publications[n]? = some publication := hpublication
        rw [hown] at hpublication'
        cases hpublication'
        rw [reached_calling_self, ← hreceivers]
        exact ⟨pending, by simp⟩
      · rw [reached_calling hsame]
        exact h.called n publication hpublication
  case bounded =>
      intro call hcall
      rcases List.mem_append.mp hcall with hcall | hlast
      · exact h.bounded call hcall
      · rw [List.mem_singleton.mp hlast]
        exact ⟨lt_of_getElem? hown, Nat.le_refl _⟩
  case clocked =>
      apply List.pairwise_append.mpr
      refine ⟨h.clocked, List.pairwise_singleton _ _, ?_⟩
      intro call hcall last hlast
      rw [List.mem_singleton.mp hlast]
      exact (h.bounded call hcall).2
  case timely =>
      intro before call hbefore
      rcases List.prefix_concat_iff.mp hbefore with hlast | hold
      · rcases List.append_inj' hlast rfl with ⟨rfl, hcall⟩
        cases hcall
        exact h.timely_entered hstack
      · exact h.timely before call hold

end

/-!
### The end of a call
-/

section

variable {number : Nat} {pending : List handler} {rest : List (Frame handler)}

/-- The state with one more exception, or none, and the given stacks. -/
def ending (s : Callbacks message handler) (raised : List Nat)
    (stack : Nat -> List (Frame handler)) : Callbacks message handler :=
  { s with
    aborted := s.aborted ++ raised
    stack := stack }

theorem Nested.ended (h : Nested s) {raised : List Nat} {frames : List (Frame handler)}
    (hframes : Stacked (ending s raised s.stack) thread frames) :
    Nested (ending s raised (Function.update s.stack thread frames)) := by
  have hkept : forall n, n ∈ s.aborted -> n ∈ s.aborted ++ raised :=
    fun n => List.mem_append_left raised
  constructor
  case stacked =>
      apply (Function.forall_update_iff s.stack
        (fun other frames => Stacked (ending s raised _) other frames)).mpr
      refine ⟨⟨hframes.known, hframes.descending, hframes.fresh, hframes.closed⟩, ?_⟩
      intro other _
      have hother := h.stacked other
      exact ⟨hother.known, hother.descending, hother.fresh,
        fun n publication hpublication hthread hgone =>
          (hother.closed n publication hpublication hthread hgone).imp hkept⟩
  case called => exact h.called
  case bounded => exact h.bounded
  case clocked => exact h.clocked
  case timely =>
      intro before call hbefore publication later n hpublication hlater hn hfound hthread
      rcases h.timely before call hbefore publication later n hpublication hlater hn hfound
        hthread with ⟨hfirst, hover⟩
      exact ⟨hfirst, hover.imp hkept⟩

theorem Nested.left (h : Nested s)
    (hstack : s.stack thread = ⟨number, pending, true⟩ :: rest) :
    Stacked (ending s [] s.stack) thread (⟨number, pending, false⟩ :: rest) := by
  have hold := h.stacked thread
  rw [hstack] at hold
  constructor
  case known =>
      intro frame hframe
      rcases List.mem_cons.mp hframe with rfl | hframe
      · have hknown := hold.known _ List.mem_cons_self
        exact hknown
      · exact hold.known frame (List.mem_cons_of_mem _ hframe)
  case descending => exact List.pairwise_cons.mpr (List.pairwise_cons.mp hold.descending)
  case fresh =>
      intro frame hframe hnone
      rcases List.mem_cons.mp hframe with rfl | hframe
      · have hidle := (hold.fresh _ List.mem_cons_self hnone).1
        cases hidle
      · exact hold.fresh frame (List.mem_cons_of_mem _ hframe) hnone
  case closed =>
      intro n publication hpublication hthread hgone
      exact (hold.closed n publication hpublication hthread hgone).imp
        (fun m => List.mem_append_left [])

theorem Nested.popped (h : Nested s) {frame : Frame handler} {raised : List Nat}
    (hstack : s.stack thread = frame :: rest)
    (hover : frame.pending = [] ∨ frame.number ∈ raised) :
    Stacked (ending s raised s.stack) thread rest := by
  have hold := h.stacked thread
  rw [hstack] at hold
  constructor
  case known => exact fun other hother => hold.known other (List.mem_cons_of_mem _ hother)
  case descending => exact (List.pairwise_cons.mp hold.descending).2
  case fresh => exact fun other hother => hold.fresh other (List.mem_cons_of_mem _ hother)
  case closed =>
      intro n publication hpublication hthread hgone
      by_cases hsame : n = frame.number
      · rcases hover with hnone | hraised
        · right
          rcases hold.known frame List.mem_cons_self with ⟨own, hown, _, hreceivers⟩
          rw [hnone, List.append_nil] at hreceivers
          rw [hsame] at hpublication ⊢
          have hpublication' : s.publications[frame.number]? = some publication := hpublication
          rw [hown] at hpublication'
          cases hpublication'
          exact hreceivers
        · left
          rw [hsame]
          exact List.mem_append_right _ hraised
      · apply (hold.closed n publication hpublication hthread ?_).imp
          (fun m => List.mem_append_left raised)
        rw [List.map_cons, List.mem_cons, not_or]
        exact ⟨hsame, hgone⟩

end

/-!
## Runs
-/

theorem Nested.step (h : Nested s) {event : Event message handler}
    (hstep : s.step thread event = some s') : Nested s' := by
  cases stepped_of_step hstep with
  | published content receivers hfree => exact h.published hfree
  | entered hstack => exact h.entered hstack
  | left hstack =>
      have hended := h.ended (h.left hstack)
      unfold ending at hended
      rw [List.append_nil] at hended
      exact hended
  | @finished number rest hstack =>
      have hpopped : Stacked (ending s [] s.stack) thread rest := h.popped hstack (Or.inl rfl)
      have hended := h.ended hpopped
      unfold ending at hended
      rw [List.append_nil] at hended
      exact hended
  | raised hstack => exact h.ended (h.popped hstack (Or.inr List.mem_cons_self))

theorem initial_nested : Nested (initial : Callbacks message handler) where
  stacked thread :=
    { known := fun _ hframe => by cases hframe
      descending := List.Pairwise.nil
      fresh := fun _ hframe => by cases hframe
      closed := fun _ _ hpublication => by cases hpublication }
  called _ _ hpublication := by cases hpublication
  bounded _ hcall := by cases hcall
  clocked := List.Pairwise.nil
  timely before call hbefore :=
    absurd (List.prefix_nil.mp hbefore)
      (List.append_ne_nil_of_right_ne_nil _ (List.cons_ne_nil _ _))

end Callbacks

end Foundation
