import Mathlib.Tactic

/-!
A queue that logs what is put into it and what leaves it.

* `Departure`: an element leaves the queue because it is taken, or because it is dropped.
* `LoggedQueue`: the queue, what has been put in and what has left. `push`, `readFront` and `pop`;
  the last two note that they have found the queue empty.
* `Intact`: what has been put in is what has left, in this order, and then what is there, and
  neither `readFront` nor `pop` has found the queue empty. `Intact.push`, `Intact.readFront_iff`,
  `Intact.pop_iff`: when the operations keep this.
-/

namespace StreamFs

variable {α : Type*}

/-- An element leaves a queue. -/
inductive Departure (α : Type*) where
  | taken (x : α)
  | dropped (x : α)
deriving DecidableEq

/-- The element that leaves. -/
def Departure.value : Departure α → α
  | taken x => x
  | dropped x => x

/-- A queue and what it has been through. -/
structure LoggedQueue (α : Type*) where
  contents : List α
  put : List α
  left : List (Departure α)
  foundEmpty : Bool
deriving DecidableEq

namespace LoggedQueue

/-- The new queue. -/
def empty : LoggedQueue α := ⟨[], [], [], false⟩

/-- An element is put in at the back. -/
def push (q : LoggedQueue α) (x : α) : LoggedQueue α :=
  { q with contents := q.contents ++ [x], put := q.put ++ [x] }

/-- The front is read. -/
def readFront (q : LoggedQueue α) : LoggedQueue α :=
  { q with foundEmpty := q.foundEmpty || q.contents.isEmpty }

/-- The front is removed. What leaves is what `departure` makes of it. -/
def pop (q : LoggedQueue α) (departure : α → Departure α) : LoggedQueue α :=
  match q.contents with
  | [] => { q with foundEmpty := true }
  | x :: rest => { q with contents := rest, left := q.left ++ [departure x] }

/-- What has been put in is what has left and what is there, in order, and the queue has not been
read or removed from while it was empty. -/
structure Intact (q : LoggedQueue α) : Prop where
  put_eq : q.put = q.left.map Departure.value ++ q.contents
  foundEmpty_eq : q.foundEmpty = false

variable {q : LoggedQueue α}

lemma intact_empty : (empty : LoggedQueue α).Intact := ⟨rfl, rfl⟩

@[simp] lemma contents_push (q : LoggedQueue α) (x : α) :
    (q.push x).contents = q.contents ++ [x] := rfl

@[simp] lemma contents_pop (q : LoggedQueue α) (departure : α → Departure α) :
    (q.pop departure).contents = q.contents.tail := by
  rw [pop]
  cases q.contents <;> rfl

/-- A queue of more than one element is not empty without the front. -/
lemma tail_ne_nil {l : List α} (h : 1 < l.length) : l.tail ≠ [] := by
  refine List.ne_nil_of_length_pos ?_
  rw [List.length_tail]
  omega

lemma Intact.push (hq : q.Intact) (x : α) : (q.push x).Intact where
  put_eq := by
    rw [LoggedQueue.push, hq.put_eq, List.append_assoc]
  foundEmpty_eq := hq.foundEmpty_eq

/-- The front may be read where there is one. -/
lemma Intact.readFront_iff (hq : q.Intact) : q.readFront.Intact ↔ q.contents ≠ [] := by
  refine ⟨fun h hnil => ?_, fun h => ⟨hq.put_eq, by simp [readFront, hq.foundEmpty_eq, h]⟩⟩
  have hfound := h.foundEmpty_eq
  rw [readFront, hnil, List.isEmpty_nil, Bool.or_true] at hfound
  cases hfound

/-- The front may be removed where there is one, and it leaves as what it is. -/
lemma Intact.pop_iff (hq : q.Intact) {departure : α → Departure α} :
    (q.pop departure).Intact ↔ ∃ x, q.contents.head? = some x ∧ (departure x).value = x := by
  cases hcontents : q.contents with
  | nil =>
      refine ⟨fun h => ?_, by simp⟩
      have hfound := h.foundEmpty_eq
      rw [pop, hcontents] at hfound
      cases hfound
  | cons x rest =>
      have hput := hq.put_eq
      rw [hcontents] at hput
      have hpop : q.pop departure
          = { q with contents := rest, left := q.left ++ [departure x] } := by
        rw [pop, hcontents]
      rw [hpop]
      constructor
      · intro h
        have hafter := h.put_eq
        dsimp only at hafter
        rw [hput, List.map_append, List.append_assoc] at hafter
        have hx := List.append_cancel_left hafter
        exact ⟨x, rfl, (List.cons.inj hx).1.symm⟩
      · rintro ⟨y, hy, hvalue⟩
        obtain rfl : x = y := Option.some_injective _ hy
        refine ⟨?_, hq.foundEmpty_eq⟩
        dsimp only
        rw [hput, List.map_append, List.map_singleton, hvalue, List.append_assoc,
          List.singleton_append]

end LoggedQueue

end StreamFs
