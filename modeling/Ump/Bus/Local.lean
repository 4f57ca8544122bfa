import Ump.Foundation.Callbacks
import Ump.Protocol.EnvelopeCodec

/-!
# The local bus

## Subscriptions and deliveries

The bus inside one process calls the handlers of a message in the thread that publishes it.
The lock covers the trace and the choice of the handlers, and is free while they run: a handler
may publish and subscribe, and other threads may do so in between.
-/

namespace Ump.Bus

open Foundation Callbacks Wire Codec

/-- `InMemoryBus`: the lists of `_subscribers` in one, and the calls of `publish` so far, whose
contents are the `trace`. -/
structure LocalBus (handler : Type) where
  subscribers : List (String × handler)
  callbacks : Callbacks WireEnvelope handler

namespace LocalBus

variable {handler : Type}

def initial : LocalBus handler where
  subscribers := []
  callbacks := Callbacks.initial

/-- `_subscribers[message_type]`. -/
def subscribed (subscribers : List (String × handler)) (messageType : String) : List handler :=
  (subscribers.filter (fun subscriber => subscriber.1 == messageType)).map Prod.snd

/-- The two tuples of `publish`, in the order of the calls. -/
def receivers (subscribers : List (String × handler)) (envelope : WireEnvelope) :
    List handler :=
  subscribed subscribers envelope.messageType.value ++ subscribed subscribers "*"

/-- `decode_envelope(encode_envelope(envelope))`. -/
def canonical (library : FloatLibrary) (wide : Encoding -> List Nat -> Option Points)
    (draft : Draft) : Except DecodeError WireEnvelope :=
  match encodeEnvelope draft with
  | .error e => .error e
  | .ok encoded => decodeEnvelope (loads library wide) encoded

/-- What one thread does next. A handler that raises leaves the `publish` that has called it. -/
inductive LocalEvent (handler : Type) where
  | subscribe (messageType : String) (subscriber : handler)
  | publish (draft : Draft)
  | enter
  | leave
  | finish
  | raise

def advance (bus : LocalBus handler) (thread : Nat) (event : Event WireEnvelope handler) :
    Option (LocalBus handler) :=
  (bus.callbacks.step thread event).map (fun callbacks => { bus with callbacks := callbacks })

section

variable (library : FloatLibrary) (wide : Encoding -> List Nat -> Option Points)

/-- An envelope without a canonical form raises in the caller and changes nothing. -/
def step (bus : LocalBus handler) (thread : Nat) : LocalEvent handler -> Option (LocalBus handler)
  | .subscribe messageType subscriber =>
      if free (bus.callbacks.stack thread) then
        some { bus with subscribers := bus.subscribers ++ [(messageType, subscriber)] }
      else none
  | .publish draft =>
      match canonical library wide draft with
      | .error _ => if free (bus.callbacks.stack thread) then some bus else none
      | .ok envelope =>
          bus.advance thread (.publish envelope (receivers bus.subscribers envelope))
  | .enter => bus.advance thread .enter
  | .leave => bus.advance thread .leave
  | .finish => bus.advance thread .finish
  | .raise => bus.advance thread .raise

def Reaches : LocalBus handler -> LocalBus handler -> Prop :=
  Relation.ReflTransGen
    (fun bus bus' => exists thread event, step library wide bus thread event = some bus')

def run : LocalBus handler -> List (Nat × LocalEvent handler) -> Option (LocalBus handler)
  | bus, [] => some bus
  | bus, (thread, event) :: rest =>
      match step library wide bus thread event with
      | some next => run next rest
      | none => none

end

/-!
## What the handlers are told
-/

def Published (bus : LocalBus handler) (number : Nat)
    (publication : Publication WireEnvelope handler) : Prop :=
  bus.callbacks.publications[number]? = some publication

/-- All handlers of the message have been called, or one of them has raised. -/
def Done (bus : LocalBus handler) (calls : List (Foundation.Call handler)) (number : Nat)
    (publication : Publication WireEnvelope handler) : Prop :=
  Over bus.callbacks calls number publication

section

variable (library : FloatLibrary) (wide : Encoding -> List Nat -> Option Points)

/-- The publication is the one that a step of the run has made: it holds the canonical form of
a draft, and its receivers are the handlers that were subscribed before the step, first those
of its type. -/
structure Addressed (bus : LocalBus handler) (number : Nat)
    (publication : Publication WireEnvelope handler) : Prop where
  checked : publication.content.Checked
  made : exists before draft next, Reaches library wide initial before ∧
    before.callbacks.publications.length = number ∧
      canonical library wide draft = .ok publication.content ∧
        publication.receivers = receivers before.subscribers publication.content ∧
          step library wide before publication.thread (.publish draft) = some next ∧
            Reaches library wide next bus

structure Delivers (bus : LocalBus handler) : Prop where
  addressed : forall number publication, bus.Published number publication ->
    Addressed library wide bus number publication
  called : forall number publication, bus.Published number publication ->
    reached bus.callbacks.calls number <+: publication.receivers
  all : forall number publication, bus.Published number publication ->
    bus.callbacks.stack publication.thread = [] -> bus.Done bus.callbacks.calls number publication
  inOrder : forall before call earlier publication other,
    before ++ [call] <+: bus.callbacks.calls -> earlier ∈ before ->
      bus.Published call.number publication -> bus.Published earlier.number other ->
        other.thread = publication.thread -> reached before call.number = [] ->
          earlier.number < call.number
  reactionsFirst : forall before call number publication later,
    before ++ [call] <+: bus.callbacks.calls -> bus.Published call.number publication ->
      bus.Published number later -> later.thread = publication.thread ->
        call.number < number -> number < call.published -> bus.Done before number later

end

theorem all_of_nested {bus : LocalBus handler} (h : Nested bus.callbacks) {number : Nat}
    {publication : Publication WireEnvelope handler}
    (hpublication : bus.Published number publication)
    (hidle : bus.callbacks.stack publication.thread = []) :
    bus.Done bus.callbacks.calls number publication := by
  apply (h.stacked publication.thread).closed number publication hpublication rfl
  rw [hidle]
  exact List.not_mem_nil

theorem inOrder_of_nested {bus : LocalBus handler} (h : Nested bus.callbacks)
    {before : List (Foundation.Call handler)} {call earlier : Foundation.Call handler}
    {publication other : Publication WireEnvelope handler}
    (hbefore : before ++ [call] <+: bus.callbacks.calls) (hearlier : earlier ∈ before)
    (hpublication : bus.Published call.number publication)
    (hother : bus.Published earlier.number other) (hthread : other.thread = publication.thread)
    (hfirst : reached before call.number = []) : earlier.number < call.number := by
  have hclock : earlier.published ≤ call.published :=
    (List.pairwise_append.mp (h.clocked.sublist hbefore.sublist)).2.2 earlier hearlier call
      List.mem_cons_self
  have hbound := h.bounded earlier (hbefore.subset (List.mem_append_left _ hearlier))
  rcases Nat.lt_trichotomy earlier.number call.number with hlt | heq | hgt
  · exact hlt
  · have hmem : earlier.receiver ∈ reached before call.number := by
      unfold reached
      apply List.mem_map_of_mem
      exact List.mem_filter.mpr ⟨hearlier, beq_iff_eq.mpr heq⟩
    rw [hfirst] at hmem
    cases hmem
  · have htimely := h.timely before call hbefore publication other earlier.number hpublication hgt
      (Nat.lt_of_lt_of_le hbound.1 hclock) hother hthread
    exact absurd hfirst htimely.1

/-!
## Every run
-/

section

variable {library : FloatLibrary} {wide : Encoding -> List Nat -> Option Points}

theorem checked_of_canonical {draft : Draft} {envelope : WireEnvelope}
    (h : canonical library wide draft = .ok envelope) : envelope.Checked := by
  unfold canonical at h
  split at h
  · cases h
  · rcases decodeEnvelope_eq_ok.mp h with ⟨_, _, _, _, hchecked⟩
    exact hchecked

theorem published_of_advance {bus next : LocalBus handler} {thread : Nat}
    {event : Event WireEnvelope handler} (h : bus.advance thread event = some next)
    {number : Nat} {publication : Publication WireEnvelope handler}
    (hpublished : next.Published number publication) :
    bus.Published number publication ∨ number = bus.callbacks.publications.length ∧
      event = .publish publication.content publication.receivers ∧
        publication.thread = thread := by
  rcases Option.map_eq_some_iff.mp h with ⟨callbacks, hcallbacks, rfl⟩
  cases stepped_of_step hcallbacks with
  | published content receivers hfree =>
      rcases getElem?_concat.mp hpublished with hold | ⟨hnumber, rfl⟩
      · exact Or.inl hold
      · exact Or.inr ⟨hnumber, rfl, rfl⟩
  | entered hstack => exact Or.inl hpublished
  | left hstack => exact Or.inl hpublished
  | finished hstack => exact Or.inl hpublished
  | raised hstack => exact Or.inl hpublished

theorem published_of_step {bus next : LocalBus handler} {thread : Nat}
    {event : LocalEvent handler} (h : step library wide bus thread event = some next)
    {number : Nat} {publication : Publication WireEnvelope handler}
    (hpublished : next.Published number publication) :
    bus.Published number publication ∨ number = bus.callbacks.publications.length ∧
      publication.thread = thread ∧ exists draft, event = .publish draft ∧
        canonical library wide draft = .ok publication.content ∧
          publication.receivers = receivers bus.subscribers publication.content := by
  cases event with
  | subscribe messageType subscriber =>
      simp only [step] at h
      split at h
      · cases h
        exact Or.inl hpublished
      · cases h
  | publish draft =>
      simp only [step] at h
      split at h
      · split at h
        · cases h
          exact Or.inl hpublished
        · cases h
      · next envelope henvelope =>
          rcases published_of_advance h hpublished with hold | ⟨hnumber, hevent, hthread⟩
          · exact Or.inl hold
          · injection hevent with hcontent hreceivers
            rw [← hcontent, ← hreceivers]
            exact Or.inr ⟨hnumber, hthread, draft, rfl, henvelope, rfl⟩
  | _ =>
      rcases published_of_advance h hpublished with hold | ⟨_, hevent, _⟩
      · exact Or.inl hold
      · cases hevent

theorem nested_of_advance {bus next : LocalBus handler} (hnested : Nested bus.callbacks)
    {thread : Nat} {event : Event WireEnvelope handler}
    (h : bus.advance thread event = some next) : Nested next.callbacks := by
  rcases Option.map_eq_some_iff.mp h with ⟨callbacks, hcallbacks, rfl⟩
  exact hnested.step hcallbacks

theorem nested_of_step {bus next : LocalBus handler} (hnested : Nested bus.callbacks)
    {thread : Nat} {event : LocalEvent handler}
    (h : step library wide bus thread event = some next) : Nested next.callbacks := by
  cases event with
  | subscribe messageType subscriber =>
      simp only [step] at h
      split at h
      · cases h
        exact hnested
      · cases h
  | publish draft =>
      simp only [step] at h
      split at h
      · split at h
        · cases h
          exact hnested
        · cases h
      · exact nested_of_advance hnested h
  | _ => exact nested_of_advance hnested h

theorem reaches_nested {bus : LocalBus handler} (h : Reaches library wide initial bus) :
    Nested bus.callbacks := by
  induction h with
  | refl => exact initial_nested
  | tail _ hstep ih =>
      rcases hstep with ⟨thread, event, hstep⟩
      exact nested_of_step ih hstep

theorem reaches_addressed {bus : LocalBus handler} (h : Reaches library wide initial bus)
    {number : Nat} {publication : Publication WireEnvelope handler}
    (hpublished : bus.Published number publication) :
    Addressed library wide bus number publication := by
  induction h with
  | refl => cases hpublished
  | tail hreach hstep ih =>
      rcases hstep with ⟨thread, event, hstep⟩
      rcases published_of_step hstep hpublished with
        hold | ⟨hnumber, rfl, draft, rfl, hcanonical, hreceivers⟩
      · rcases ih hold with ⟨hchecked, before, draft, next, hbefore, hnumber, hcanonical,
          hreceivers, hmade, hnext⟩
        exact ⟨hchecked, before, draft, next, hbefore, hnumber, hcanonical, hreceivers, hmade,
          hnext.tail ⟨thread, event, hstep⟩⟩
      · exact ⟨checked_of_canonical hcanonical, _, draft, _, hreach, hnumber.symm, hcanonical,
          hreceivers, hstep, .refl⟩

end

/-- However the threads and the handlers publish, subscribe and raise: each message is told,
once and in their order, to the handlers that were subscribed when it was published. The first
call of a message comes after calls of earlier messages of the thread only, and each call comes
after what the thread has published since the message: a later handler hears the reactions of
the earlier ones first. -/
theorem local_delivery (library : FloatLibrary) (wide : Encoding -> List Nat -> Option Points)
    (bus : LocalBus handler) (h : Reaches library wide initial bus) :
    Delivers library wide bus := by
  have hnested := reaches_nested h
  constructor
  case addressed => exact fun number publication => reaches_addressed h
  case called => exact hnested.called
  case all => exact fun number publication => all_of_nested hnested
  case inOrder =>
      intro before call earlier publication other hbefore hearlier hpublication hother hthread
        hfirst
      exact inOrder_of_nested hnested hbefore hearlier hpublication hother hthread hfirst
  case reactionsFirst =>
      intro before call number publication later hbefore hpublication hlater hthread hnumber hclock
      exact (hnested.timely before call hbefore publication later number hpublication hnumber
        hclock hlater hthread).2

theorem run_reaches {library : FloatLibrary} {wide : Encoding -> List Nat -> Option Points}
    {events : List (Nat × LocalEvent handler)} {bus bus' : LocalBus handler}
    (h : run library wide bus events = some bus') : Reaches library wide bus bus' := by
  induction events generalizing bus with
  | nil =>
      cases h
      exact .refl
  | cons first rest ih =>
      rcases first with ⟨thread, event⟩
      unfold run at h
      split at h
      · next next hstep => exact .head ⟨thread, event, hstep⟩ (ih h)
      · cases h

/-! ### A reply inside a report -/

inductive Listener where
  | responder
  | recorder
deriving DecidableEq

def reportOf (source : String) : Draft :=
  { (reportWith []).draft with sourceId := points source }

/-- The responder answers the rover's report, and the recorder hears everything. -/
def reply : List (Nat × LocalEvent Listener) :=
  [(0, .subscribe "state" .responder), (0, .subscribe "*" .recorder),
    (0, .publish (reportOf "rover")), (0, .enter),
    (0, .publish (reportOf "base")), (0, .enter), (0, .leave), (0, .enter), (0, .leave),
    (0, .finish), (0, .leave), (0, .enter), (0, .leave), (0, .finish)]

def hears (bus : LocalBus Listener) : List (Nat × Listener) :=
  bus.callbacks.calls.map (fun call => (call.number, call.receiver))

theorem reply_heard_first : exists bus, run halfLibrary noWide initial reply = some bus ∧
    Delivers halfLibrary noWide bus ∧ hears bus =
      [(0, .responder), (1, .responder), (1, .recorder), (0, .recorder)] := by
  have hruns : (run halfLibrary noWide initial reply).map hears =
      some [(0, .responder), (1, .responder), (1, .recorder), (0, .recorder)] := by
    decide +kernel
  rcases Option.map_eq_some_iff.mp hruns with ⟨bus, hrun, hhears⟩
  exact ⟨bus, hrun, local_delivery halfLibrary noWide bus (run_reaches hrun), hhears⟩

end LocalBus

end Ump.Bus
