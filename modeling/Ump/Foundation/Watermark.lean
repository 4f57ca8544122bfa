import Mathlib.Data.Int.Order.Basic
import Ump.Foundation.Lockstep

/-!
# Rising numbers

## Exact guards

A guard answers calls that carry a key and a number. It is exact when it admits a call just
if the number is positive and above all that it has admitted for the key, and stays as it
is otherwise. An implementation keeps one mark for each key.
-/

namespace Foundation

namespace Responder

variable {state call key error : Type} [DecidableEq key]

/-- The numbers that are admitted for a key along a list of calls. -/
def admitted (keyOf : call -> key) (numberOf : call -> Int)
    (f : Responder state call (Except error Unit)) (k : key) : state -> List call -> List Int
  | _, [] => []
  | s, c :: rest =>
      match (f s c).1 with
      | .ok _ =>
          if keyOf c = k then
            numberOf c :: admitted keyOf numberOf f k (f s c).2 rest
          else
            admitted keyOf numberOf f k (f s c).2 rest
      | .error _ => admitted keyOf numberOf f k (f s c).2 rest

theorem admitted_of_ok {keyOf : call -> key} {numberOf : call -> Int}
    {f : Responder state call (Except error Unit)} {s : state} {c : call}
    (h : (f s c).1 = .ok ()) (k : key) (rest : List call) :
    f.admitted keyOf numberOf k s (c :: rest) =
      if keyOf c = k then numberOf c :: f.admitted keyOf numberOf k (f s c).2 rest
      else f.admitted keyOf numberOf k (f s c).2 rest := by
  rw [admitted, h]

theorem admitted_of_error {keyOf : call -> key} {numberOf : call -> Int}
    {f : Responder state call (Except error Unit)} {s : state} {c : call} {e : error}
    (h : f s c = (.error e, s)) (k : key) (rest : List call) :
    f.admitted keyOf numberOf k s (c :: rest) = f.admitted keyOf numberOf k s rest := by
  rw [admitted, h]

def Exact (keyOf : call -> key) (numberOf : call -> Int)
    (f : Responder state call (Except error Unit)) (s : state) (calls : List call) : Prop :=
  forall before c after, calls = before ++ c :: after ->
    ((f (f.final s before) c).1 = .ok () <->
      0 < numberOf c ∧
        forall n, n ∈ f.admitted keyOf numberOf (keyOf c) s before -> n < numberOf c) ∧
    ((f (f.final s before) c).1 ≠ .ok () -> (f (f.final s before) c).2 = f.final s before)

end Responder

/-!
## Marks
-/

variable {state call key error : Type} [DecidableEq key]
variable {keyOf : call -> key} {numberOf : call -> Int}

theorem foldl_max_lt_iff (numbers : List Int) (least n : Int) :
    numbers.foldl max least < n <-> least < n ∧ forall m, m ∈ numbers -> m < n := by
  induction numbers generalizing least with
  | nil => simp
  | cons number rest ih =>
      rw [List.foldl_cons, ih, Int.max_lt, List.forall_mem_cons, and_assoc]

/-- In the states that hold `Holds`, a call that `Fits` is admitted just if its number is
above the mark of its key, which it then becomes; another call is refused. -/
structure Marks (keyOf : call -> key) (numberOf : call -> Int)
    (f : Responder state call (Except error Unit)) (mark : state -> key -> Int)
    (Holds : state -> Prop) (Fits : call -> Prop) (refusal : call -> error) : Prop where
  admits : forall s c, Holds s -> Fits c -> mark s (keyOf c) < numberOf c ->
    (f s c).1 = .ok () ∧ Holds (f s c).2 ∧
      forall k, mark (f s c).2 k = if keyOf c = k then numberOf c else mark s k
  refuses : forall s c, Holds s -> Fits c -> numberOf c ≤ mark s (keyOf c) ->
    f s c = (.error (refusal c), s)

namespace Marks

variable {f : Responder state call (Except error Unit)} {mark : state -> key -> Int}
variable {Holds : state -> Prop} {Fits : call -> Prop} {refusal : call -> error} {s : state}

theorem holds_step (h : Marks keyOf numberOf f mark Holds Fits refusal) {c : call}
    (hs : Holds s) (hc : Fits c) : Holds (f s c).2 := by
  by_cases habove : mark s (keyOf c) < numberOf c
  · exact (h.admits s c hs hc habove).2.1
  · rw [h.refuses s c hs hc (not_lt.mp habove)]
    exact hs

theorem mark_final (h : Marks keyOf numberOf f mark Holds Fits refusal) {calls : List call}
    (hs : Holds s) (hcalls : forall c, c ∈ calls -> Fits c) (k : key) :
    mark (f.final s calls) k =
      (f.admitted keyOf numberOf k s calls).foldl max (mark s k) := by
  induction calls generalizing s with
  | nil => rfl
  | cons c rest ih =>
      have hc : Fits c := hcalls c List.mem_cons_self
      have hrest := ih (h.holds_step hs hc) (fun d hd => hcalls d (List.mem_cons_of_mem c hd))
      show mark (f.final (f s c).2 rest) k = _
      rw [hrest]
      by_cases habove : mark s (keyOf c) < numberOf c
      · rcases h.admits s c hs hc habove with ⟨hanswer, _, hmark⟩
        rw [Responder.admitted_of_ok hanswer, hmark k]
        by_cases hkey : keyOf c = k
        · subst hkey
          rw [if_pos rfl, if_pos rfl, List.foldl_cons, Int.max_eq_right (Int.le_of_lt habove)]
        · rw [if_neg hkey, if_neg hkey]
      · have hrefused := h.refuses s c hs hc (not_lt.mp habove)
        rw [Responder.admitted_of_error hrefused, hrefused]

theorem holds_final (h : Marks keyOf numberOf f mark Holds Fits refusal) {calls : List call}
    (hs : Holds s) (hcalls : forall c, c ∈ calls -> Fits c) : Holds (f.final s calls) := by
  induction calls generalizing s with
  | nil => exact hs
  | cons c rest ih =>
      exact ih (h.holds_step hs (hcalls c List.mem_cons_self))
        (fun d hd => hcalls d (List.mem_cons_of_mem c hd))

theorem exact (h : Marks keyOf numberOf f mark Holds Fits refusal) {calls : List call}
    (hs : Holds s) (hunmarked : forall k, mark s k = 0)
    (hcalls : forall c, c ∈ calls -> Fits c) : f.Exact keyOf numberOf s calls := by
  intro before c after hsplit
  have hbefore : forall d, d ∈ before -> Fits d := by
    intro d hd
    apply hcalls
    rw [hsplit]
    exact List.mem_append_left _ hd
  have hc : Fits c := by
    apply hcalls
    rw [hsplit]
    exact List.mem_append_right _ List.mem_cons_self
  have hreached : Holds (f.final s before) := h.holds_final hs hbefore
  have habove : mark (f.final s before) (keyOf c) < numberOf c <->
      0 < numberOf c ∧
        forall n, n ∈ f.admitted keyOf numberOf (keyOf c) s before -> n < numberOf c := by
    rw [h.mark_final hs hbefore, foldl_max_lt_iff, hunmarked]
  rw [← habove]
  by_cases hlt : mark (f.final s before) (keyOf c) < numberOf c
  · have hanswer := (h.admits _ c hreached hc hlt).1
    exact ⟨⟨fun _ => hlt, fun _ => hanswer⟩, fun hrefused => absurd hanswer hrefused⟩
  · have hrefused := h.refuses _ c hreached hc (not_lt.mp hlt)
    rw [hrefused]
    exact ⟨⟨fun hfalse => (by cases hfalse), fun htrue => absurd htrue hlt⟩, fun _ => rfl⟩

theorem answers_eq {state' : Type} {g : Responder state' call (Except error Unit)}
    {mark' : state' -> key -> Int} {Holds' : state' -> Prop} {Fits' : call -> Prop}
    {s' : state'} (h : Marks keyOf numberOf f mark Holds Fits refusal)
    (h' : Marks keyOf numberOf g mark' Holds' Fits' refusal) {calls : List call}
    (hs : Holds s) (hs' : Holds' s') (hsame : forall k, mark s k = mark' s' k)
    (hcalls : forall c, c ∈ calls -> Fits c ∧ Fits' c) :
    f.answers s calls = g.answers s' calls := by
  induction calls generalizing s s' with
  | nil => rfl
  | cons c rest ih =>
      rcases hcalls c List.mem_cons_self with ⟨hc, hc'⟩
      have hrest := fun d hd => hcalls d (List.mem_cons_of_mem c hd)
      rw [Responder.answers, Responder.answers]
      by_cases habove : mark s (keyOf c) < numberOf c
      · rcases h.admits s c hs hc habove with ⟨hanswer, hnext, hmark⟩
        rcases h'.admits s' c hs' hc' (by rw [← hsame]; exact habove) with
          ⟨hanswer', hnext', hmark'⟩
        have hmarks : forall k, mark (f s c).2 k = mark' (g s' c).2 k := by
          intro k
          rw [hmark, hmark', hsame]
        rw [hanswer, hanswer', ih hnext hnext' hmarks hrest]
      · have hbelow := not_lt.mp habove
        rw [h.refuses s c hs hc hbelow, h'.refuses s' c hs' hc' (by rw [← hsame]; exact hbelow),
          ih hs hs' hsame hrest]

end Marks

end Foundation
