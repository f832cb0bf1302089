import StreamFs.Base.Machine

/-!
A machine as a component of a machine.

* `Machine.Component`: what is seen of the states of the whole moves as the component does, on the
  events that are routed to it, and stays as it is on all others. Where an event goes may depend on
  the state.
* `Machine.routed`: the events that a run of the whole routes to the component.
* `Component.view_run`: a run of the whole is seen as the run of the component on the events routed
  to it. `Component.transition_mem_trace`: a transition of the whole is seen as one of this run.
-/

namespace StreamFs

namespace Machine

variable {σ ε ω τ δ ψ : Type*}

/-- The events that a run routes to a component. -/
def routed (M : Machine τ δ ψ) (route : τ → δ → Option ε) (s : τ) : List δ → List ε
  | [] => []
  | e :: es => (route s e).toList ++ M.routed route (M.next s e) es

/-- What is seen of the whole is a state of the component. -/
structure Component (M : Machine τ δ ψ) (m : Machine σ ε ω) (view : τ → σ)
    (route : τ → δ → Option ε) : Prop where
  next_of_some : ∀ s e e', route s e = some e' → view (M.next s e) = m.next (view s) e'
  next_of_none : ∀ s e, route s e = none → view (M.next s e) = view s

variable {M : Machine τ δ ψ} {m : Machine σ ε ω} {view : τ → σ} {route : τ → δ → Option ε}

lemma length_routed_le (route : τ → δ → Option ε) (s : τ) (es : List δ) :
    (M.routed route s es).length ≤ es.length := by
  induction es generalizing s with
  | nil => exact le_rfl
  | cons e es ih =>
      have htail := ih (M.next s e)
      rw [routed, List.length_append, List.length_cons]
      cases route s e with
      | none => exact (Nat.zero_add _).trans_le (htail.trans (Nat.le_succ _))
      | some e' =>
          rw [Option.toList_some, List.length_singleton]
          omega

lemma routed_append (s : τ) (es fs : List δ) :
    M.routed route s (es ++ fs) = M.routed route s es ++ M.routed route (M.run s es) fs := by
  induction es generalizing s with
  | nil => rfl
  | cons e es ih => rw [List.cons_append, routed, routed, ih, List.append_assoc, run_cons]

/-- What is routed along a run, one of its transitions routes. -/
lemma exists_of_mem_routed {s : τ} {es : List δ} {e' : ε} (h : e' ∈ M.routed route s es) :
    ∃ t ∈ M.trace s es, route t.before t.event = some e' := by
  induction es generalizing s with
  | nil => exact absurd h List.not_mem_nil
  | cons e es ih =>
      rw [routed, List.mem_append, Option.mem_toList] at h
      rcases h with h | h
      · exact ⟨M.transition s e, (M.mem_trace_cons ..).mpr (.inl rfl), h⟩
      · obtain ⟨t, ht, hroute⟩ := ih h
        exact ⟨t, (M.mem_trace_cons ..).mpr (.inr ht), hroute⟩

namespace Component

variable (h : Component M m view route)

include h

/-- **The component rule**: a run of the whole is seen as the run of the component on what is routed
to it. -/
theorem view_run (s : τ) (es : List δ) :
    view (M.run s es) = m.run (view s) (M.routed route s es) := by
  induction es generalizing s with
  | nil => rfl
  | cons e es ih =>
      rw [run_cons, ih, routed, run_append]
      cases hroute : route s e with
      | none => rw [h.next_of_none s e hroute]; rfl
      | some e' => rw [h.next_of_some s e e' hroute]; rfl

/-- A transition of the whole that reaches the component is seen as one of the component. -/
theorem transition_mem_trace {s : τ} {es : List δ} {t : Transition τ δ ψ} (ht : t ∈ M.trace s es)
    {e' : ε} (hroute : route t.before t.event = some e') :
    m.transition (view t.before) e' ∈ m.trace (view s) (M.routed route s es) := by
  obtain ⟨pre, e, post, rfl, rfl⟩ := M.exists_of_mem_trace ht
  change route (M.run s pre) e = some e' at hroute
  rw [routed_append, routed, hroute, Option.toList_some, List.singleton_append, trace_append, trace]
  refine List.mem_append_right _ (List.mem_cons.mpr (.inl ?_))
  show m.transition (view (M.run s pre)) e' = _
  rw [h.view_run]

end Component

end Machine

end StreamFs
