import Mathlib.Data.List.ReduceOption
import Mathlib.Tactic

/-!
Deterministic machines with outputs, and the rules by which a property of one step becomes
a property of every run.

* `Machine`, `run`, `outputs`, `trace`: a step function, the state after a list of events,
  the outputs given on the way, and the transitions taken, each with the states before and
  after it.
* `Machine.invariant_run`, `Machine.invariant_run_of_events`, `Machine.forall_trace`: an invariant
  of the step, or of the events of a kind, holds after every run, and what it gives at each
  transition holds along the run.
* `Machine.noted`: what an observer keeps of the transitions of a run, with the invariant rule for a
  state and the note on the run to it, `Machine.invariant_run_noted`.
* `Machine.forall_trace_iff`: two properties of transitions that agree wherever an invariant
  holds, and of which the first restores the invariant, hold along the same runs.
* `Machine.exists_reduceOption_eq_range'`: a machine that gives out the value of a counter, and
  raises the counter each time, gives out consecutive numbers.
* `Machine.filter_outputs_eq`: a machine that tags what it gives out with a counter, and raises the
  counter each time, gives out what is tagged with a number in one step.
* `Machine.outputs_eq_of_bisim`: related states give the same outputs on every run.
* `Machine.forall_filter_iff`: exactly when deleting the events of a kind leaves what is observed
  after a run unchanged.
-/

namespace StreamFs

variable {σ ε ω : Type*}

/-- A deterministic machine: each event takes a state to a state and gives an output. -/
structure Machine (σ ε ω : Type*) where
  step : σ → ε → σ × ω

/-- One step of a run, with the states around it. -/
structure Transition (σ ε ω : Type*) where
  before : σ
  event : ε
  output : ω
  after : σ

namespace Machine

variable (m : Machine σ ε ω)

/-- The state a machine moves to on an event. -/
def next (s : σ) (e : ε) : σ := (m.step s e).1

/-- The output a machine gives on an event. -/
def output (s : σ) (e : ε) : ω := (m.step s e).2

/-- The transition taken on an event. -/
def transition (s : σ) (e : ε) : Transition σ ε ω := ⟨s, e, m.output s e, m.next s e⟩

/-- The state after a list of events. -/
def run (s : σ) (es : List ε) : σ := es.foldl m.next s

/-- The transitions taken on a list of events, in order. -/
def trace (s : σ) : List ε → List (Transition σ ε ω)
  | [] => []
  | e :: es => m.transition s e :: trace (m.next s e) es

/-- The outputs given on a list of events, in order. -/
def outputs (s : σ) : List ε → List ω
  | [] => []
  | e :: es => m.output s e :: outputs (m.next s e) es

@[simp] lemma run_nil (s : σ) : m.run s [] = s := rfl

@[simp] lemma run_cons (s : σ) (e : ε) (es : List ε) :
    m.run s (e :: es) = m.run (m.next s e) es := rfl

@[simp] lemma run_singleton (s : σ) (e : ε) : m.run s [e] = m.next s e := rfl

lemma run_append (s : σ) (es fs : List ε) : m.run s (es ++ fs) = m.run (m.run s es) fs := by
  simp [run, List.foldl_append]

@[simp] lemma mem_trace_cons (s : σ) (e : ε) (es : List ε) (t : Transition σ ε ω) :
    t ∈ m.trace s (e :: es) ↔ t = m.transition s e ∨ t ∈ m.trace (m.next s e) es := by
  rw [trace, List.mem_cons]

/-- The transitions of a run in two parts. -/
lemma trace_append (s : σ) (es fs : List ε) :
    m.trace s (es ++ fs) = m.trace s es ++ m.trace (m.run s es) fs := by
  induction es generalizing s with
  | nil => rfl
  | cons e es ih => simp only [List.cons_append, trace, run_cons, ih]

/-- The last transition of a run. -/
lemma mem_trace_append (s : σ) (es : List ε) (e : ε) :
    m.transition (m.run s es) e ∈ m.trace s (es ++ [e]) := by
  rw [trace_append]
  exact List.mem_append_right _ (List.mem_singleton_self _)

/-- The outputs of a run in two parts. -/
lemma outputs_append (s : σ) (es fs : List ε) :
    m.outputs s (es ++ fs) = m.outputs s es ++ m.outputs (m.run s es) fs := by
  induction es generalizing s with
  | nil => rfl
  | cons e es ih => simp only [List.cons_append, outputs, run_cons, ih]

/-- The events of a run are the ones it is given. -/
lemma event_mem_of_mem_trace {s : σ} {es : List ε} {t : Transition σ ε ω}
    (h : t ∈ m.trace s es) : t.event ∈ es := by
  induction es generalizing s with
  | nil => simp [trace] at h
  | cons e es ih =>
      rw [mem_trace_cons] at h
      rcases h with rfl | h
      · exact List.mem_cons_self ..
      · exact List.mem_cons_of_mem _ (ih h)

/-- A transition of a run is taken in the state that the events before it lead to. -/
lemma exists_of_mem_trace {s : σ} {es : List ε} {t : Transition σ ε ω} (h : t ∈ m.trace s es) :
    ∃ pre e post, es = pre ++ e :: post ∧ t = m.transition (m.run s pre) e := by
  induction es generalizing s with
  | nil => simp [trace] at h
  | cons e es ih =>
      rw [mem_trace_cons] at h
      rcases h with rfl | h
      · exact ⟨[], e, es, rfl, rfl⟩
      · obtain ⟨pre, e', post, rfl, rfl⟩ := ih h
        exact ⟨e :: pre, e', post, rfl, rfl⟩

/-! ### Invariants -/

variable {m}

/-- **The invariant rule for runs of a kind**: what every step satisfying `Q` preserves holds
after every run that satisfies `Q` throughout. -/
theorem invariant_run_of {I : σ → Prop} {Q : Transition σ ε ω → Prop}
    (hstep : ∀ s e, I s → Q (m.transition s e) → I (m.next s e)) {s : σ} (hs : I s) (es : List ε)
    (hQ : ∀ t ∈ m.trace s es, Q t) : I (m.run s es) := by
  induction es generalizing s with
  | nil => exact hs
  | cons e es ih =>
      simp only [mem_trace_cons, forall_eq_or_imp] at hQ
      exact ih (hstep s e hs hQ.1) hQ.2

/-- **The invariant rule**: what every step preserves holds after every run. -/
theorem invariant_run {I : σ → Prop} (hstep : ∀ s e, I s → I (m.next s e)) {s : σ} (hs : I s)
    (es : List ε) : I (m.run s es) :=
  invariant_run_of (Q := fun _ => True) (fun s e hI _ => hstep s e hI) hs es fun _ _ => trivial

/-- **The invariant rule for events of a kind**: what every event satisfying `K` preserves holds
after every run of such events. -/
theorem invariant_run_of_events {I : σ → Prop} {K : ε → Prop}
    (hstep : ∀ s e, I s → K e → I (m.next s e)) {s : σ} (hs : I s) {es : List ε}
    (hK : ∀ e ∈ es, K e) : I (m.run s es) :=
  invariant_run_of (Q := fun t => K t.event) (fun s e hI hKe => hstep s e hI hKe) hs es
    fun _ ht => hK _ (m.event_mem_of_mem_trace ht)

/-- **The conditional rule**: if, where `I` holds, `Q` gives `P` at a transition and restores
`I`, then a run that satisfies `Q` throughout satisfies `P` throughout. -/
theorem forall_trace {I : σ → Prop} {P Q : Transition σ ε ω → Prop}
    (hstep : ∀ s e, I s → Q (m.transition s e) → P (m.transition s e) ∧ I (m.next s e)) {s : σ}
    (hs : I s) (es : List ε) (hQ : ∀ t ∈ m.trace s es, Q t) : ∀ t ∈ m.trace s es, P t := by
  induction es generalizing s with
  | nil => simp [trace]
  | cons e es ih =>
      simp only [mem_trace_cons, forall_eq_or_imp] at hQ ⊢
      obtain ⟨hP, hI⟩ := hstep s e hs hQ.1
      exact ⟨hP, ih hI hQ.2⟩

/-- **The exactness rule**: where `I` holds, `P` and `Q` agree on the transitions, and `P`
restores `I`. Then a run satisfies `P` throughout iff it satisfies `Q` throughout. -/
theorem forall_trace_iff {I : σ → Prop} {P Q : Transition σ ε ω → Prop}
    (hPQ : ∀ s e, I s → (P (m.transition s e) ↔ Q (m.transition s e)))
    (hI : ∀ s e, I s → P (m.transition s e) → I (m.next s e)) {s : σ} (hs : I s)
    (es : List ε) : (∀ t ∈ m.trace s es, P t) ↔ ∀ t ∈ m.trace s es, Q t := by
  induction es generalizing s with
  | nil => simp [trace]
  | cons e es ih =>
      have hhead := hPQ s e hs
      simp only [mem_trace_cons, forall_eq_or_imp]
      constructor
      · rintro ⟨hP, hrest⟩
        exact ⟨hhead.mp hP, (ih (hI s e hs hP)).mp hrest⟩
      · rintro ⟨hQ, hrest⟩
        have hP := hhead.mpr hQ
        exact ⟨hP, (ih (hI s e hs hP)).mpr hrest⟩

/-! ### Notes -/

/-- The note on a run, from `r` on: each transition adds to it. -/
def noted {μ : Type*} (m : Machine σ ε ω) (add : μ → Transition σ ε ω → μ) (r : μ) (s : σ)
    (es : List ε) : μ :=
  (m.trace s es).foldl add r

/-- **The invariant rule for notes**: what every step satisfying `Q` preserves of the state and the
note on the run to it holds after every run that satisfies `Q` throughout. -/
theorem invariant_run_noted {μ : Type*} (add : μ → Transition σ ε ω → μ) {I : σ → μ → Prop}
    {Q : Transition σ ε ω → Prop}
    (hstep : ∀ s r e, I s r → Q (m.transition s e) → I (m.next s e) (add r (m.transition s e)))
    {s : σ} {r : μ} (hs : I s r) (es : List ε) (hQ : ∀ t ∈ m.trace s es, Q t) :
    I (m.run s es) (m.noted add r s es) := by
  induction es generalizing s r with
  | nil => exact hs
  | cons e es ih =>
      simp only [mem_trace_cons, forall_eq_or_imp] at hQ
      exact ih (hstep s r e hs hQ.1) hQ.2

/-! ### Counters -/

/-- **The counter rule**: if each step gives out nothing and keeps the counter, or gives out the
counter and raises it, the outputs of a run are consecutive from the counter on. -/
theorem exists_reduceOption_eq_range' {m : Machine σ ε (Option ℕ)} {I : σ → Prop}
    {Q : Transition σ ε (Option ℕ) → Prop} (counter : σ → ℕ)
    (hI : ∀ s e, I s → Q (m.transition s e) → I (m.next s e))
    (hcounter : ∀ s e, I s → Q (m.transition s e) →
      m.output s e = none ∧ counter (m.next s e) = counter s ∨
        m.output s e = some (counter s) ∧ counter (m.next s e) = counter s + 1)
    {s : σ} (hs : I s) (es : List ε) (hQ : ∀ t ∈ m.trace s es, Q t) :
    ∃ n, (m.outputs s es).reduceOption = List.range' (counter s) n := by
  induction es generalizing s with
  | nil => exact ⟨0, rfl⟩
  | cons e es ih =>
      simp only [mem_trace_cons, forall_eq_or_imp] at hQ
      obtain ⟨n, hn⟩ := ih (hI s e hs hQ.1) hQ.2
      rcases hcounter s e hs hQ.1 with ⟨hout, hkept⟩ | ⟨hout, hraised⟩
      · exact ⟨n, by rw [outputs, hout, List.reduceOption_cons_of_none, hn, hkept]⟩
      · refine ⟨n + 1, ?_⟩
        rw [outputs, hout, List.reduceOption_cons_of_some, hn, hraised, List.range'_succ]

/-- What a step gives out is tagged with the counter, which the step raises if it gives out
anything. -/
structure Tagged {κ : Type*} (m : Machine σ ε (List κ)) (tag : κ → ℕ) (counter : σ → ℕ) :
    Prop where
  tag_eq : ∀ s e, ∀ x ∈ m.output s e, tag x = counter s
  le : ∀ s e, counter s ≤ counter (m.next s e)
  lt : ∀ s e, m.output s e ≠ [] → counter s < counter (m.next s e)

namespace Tagged

variable {κ : Type*} {m : Machine σ ε (List κ)} {tag : κ → ℕ} {counter : σ → ℕ}

lemma le_run (h : m.Tagged tag counter) (s : σ) (es : List ε) :
    counter s ≤ counter (m.run s es) := by
  induction es generalizing s with
  | nil => exact le_rfl
  | cons e es ih => exact (h.le s e).trans (ih (m.next s e))

/-- The tags of a run lie between the counters before and after it. -/
lemma tag_mem (h : m.Tagged tag counter) (s : σ) (es : List ε) :
    ∀ x ∈ (m.outputs s es).flatten, counter s ≤ tag x ∧ tag x < counter (m.run s es) := by
  induction es generalizing s with
  | nil => simp [outputs]
  | cons e es ih =>
      intro x hx
      rw [outputs, List.flatten_cons, List.mem_append] at hx
      rcases hx with hx | hx
      · have hlt := h.lt s e (List.ne_nil_of_mem hx)
        rw [h.tag_eq s e x hx]
        exact ⟨le_rfl, hlt.trans_le (h.le_run _ es)⟩
      · obtain ⟨hlow, hhigh⟩ := ih (m.next s e) x hx
        exact ⟨(h.le s e).trans hlow, hhigh⟩

/-- **The tag rule**: what is tagged with the counter of a step is what the step gives out. -/
lemma filter_outputs_eq (h : m.Tagged tag counter) (s : σ) (pre : List ε) (e : ε) (post : List ε)
    (hout : m.output (m.run s pre) e ≠ []) :
    (m.outputs s (pre ++ e :: post)).flatten.filter (fun x => tag x = counter (m.run s pre))
      = m.output (m.run s pre) e := by
  have hpre : (m.outputs s pre).flatten.filter (fun x => tag x = counter (m.run s pre)) = [] := by
    rw [List.filter_eq_nil_iff]
    intro x hx
    have hlt := (h.tag_mem s pre x hx).2
    simp only [decide_eq_true_eq]
    omega
  have hpost : (m.outputs (m.next (m.run s pre) e) post).flatten.filter
      (fun x => tag x = counter (m.run s pre)) = [] := by
    rw [List.filter_eq_nil_iff]
    intro x hx
    have hle := (h.tag_mem _ post x hx).1
    have hlt := h.lt _ e hout
    simp only [decide_eq_true_eq]
    omega
  have hstep : (m.output (m.run s pre) e).filter (fun x => tag x = counter (m.run s pre))
      = m.output (m.run s pre) e := by
    rw [List.filter_eq_self]
    intro x hx
    simpa using h.tag_eq _ e x hx
  rw [outputs_append, outputs, List.flatten_append, List.flatten_cons, List.filter_append,
    List.filter_append, hpre, hpost, hstep, List.nil_append, List.append_nil]

/-- What a run gives out, one of its steps gives out. -/
lemma exists_step (h : m.Tagged tag counter) {s : σ} {es : List ε} {x : κ}
    (hx : x ∈ (m.outputs s es).flatten) :
    ∃ pre e post, es = pre ++ e :: post ∧ x ∈ m.output (m.run s pre) e
      ∧ tag x = counter (m.run s pre) := by
  induction es generalizing s with
  | nil => simp [outputs] at hx
  | cons e es ih =>
      rw [outputs, List.flatten_cons, List.mem_append] at hx
      rcases hx with hx | hx
      · exact ⟨[], e, es, rfl, hx, h.tag_eq s e x hx⟩
      · obtain ⟨pre, e', post, rfl, hout, htag⟩ := ih hx
        exact ⟨e :: pre, e', post, rfl, hout, htag⟩

end Tagged

/-! ### Bisimulation -/

/-- **The bisimulation rule**: if related states give equal outputs and step to related
states, they give the same outputs on every run. -/
theorem outputs_eq_of_bisim {R : σ → σ → Prop}
    (hstep : ∀ s t e, R s t → m.output s e = m.output t e ∧ R (m.next s e) (m.next t e))
    {s t : σ} (hst : R s t) (es : List ε) : m.outputs s es = m.outputs t es := by
  induction es generalizing s t with
  | nil => rfl
  | cons e es ih =>
      obtain ⟨hout, hnext⟩ := hstep s t e hst
      simp only [outputs, hout, ih hnext]

/-! ### Deleting events -/

/-- **The deletion rule**: let `F` relate two states from which the kept events do the same to
what is observed, whatever is deleted in between, and let `A` say that the same is observed in
both.  Then all along a run the same is observed as without the deleted events iff each deleted
event satisfies the condition `Q` under which it leaves the observation alone. -/
theorem forall_filter_iff {F A : σ → σ → Prop} {Q : Transition σ ε ω → Prop} {keep : ε → Prop}
    [DecidablePred keep]
    (hkeep : ∀ s t e, keep e → F s t → F (m.next s e) (m.next t e))
    (hdelete : ∀ s t e, ¬ keep e → F s t → F (m.next s e) t)
    (hsame : ∀ s t e, keep e → F s t → A s t → A (m.next s e) (m.next t e))
    (hQ : ∀ s t e, ¬ keep e → F s t → A s t → (A (m.next s e) t ↔ Q (m.transition s e)))
    {s t : σ} (hF : F s t) (hA : A s t) (es : List ε) :
    (∀ fs, fs <+: es → A (m.run s fs) (m.run t (fs.filter keep)))
      ↔ ∀ x ∈ m.trace s es, ¬ keep x.event → Q x := by
  induction es generalizing s t with
  | nil =>
      refine ⟨fun _ x hx => absurd hx List.not_mem_nil, fun _ fs hfs => ?_⟩
      rw [List.prefix_nil.mp hfs]
      exact hA
  | cons e es ih =>
      have htail : (∀ fs, fs <+: e :: es → A (m.run s fs) (m.run t (fs.filter keep)))
          ↔ ∀ gs, gs <+: es → A (m.run (m.next s e) gs) (m.run t ((e :: gs).filter keep)) := by
        refine ⟨fun h gs hgs => h (e :: gs) ((List.prefix_cons_inj e).mpr hgs), fun h fs hfs => ?_⟩
        rcases List.prefix_cons_iff.mp hfs with rfl | ⟨gs, rfl, hgs⟩
        · exact hA
        · exact h gs hgs
      rw [htail]
      simp only [mem_trace_cons, forall_eq_or_imp]
      by_cases he : keep e
      · -- both runs take the event
        simp only [List.filter_cons_of_pos (p := fun e => decide (keep e)) (decide_eq_true he),
          run_cons]
        rw [ih (hkeep s t e he hF) (hsame s t e he hF hA)]
        exact ⟨fun h => ⟨fun hne => absurd he hne, h⟩, fun h => h.2⟩
      · -- only one run takes it
        simp only [List.filter_cons_of_neg (p := fun e => decide (keep e))
          (fun h => he (of_decide_eq_true h))]
        have hdel := hdelete s t e he hF
        constructor
        · intro h
          have hnow : A (m.next s e) t := h [] List.nil_prefix
          exact ⟨fun _ => (hQ s t e he hF hA).mp hnow, (ih hdel hnow).mp h⟩
        · rintro ⟨hhead, h⟩
          exact (ih hdel ((hQ s t e he hF hA).mpr (hhead he))).mpr h

end Machine

end StreamFs
