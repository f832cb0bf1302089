import StreamFs.Base.Machine

/-!
Ownership of resources that a party receives, uses and gives up.

* `Ownership`: the three things that happen to a resource.
* `Owns`: a list of such events uses and gives up only what is owned at that time.
* `Fresh`: no resource of the list is received twice, or while it is owned.
* `Owns.mem_iff`, `Owns.not_mem_of_release`, `Owns.count_release_le`: if every resource received is
  fresh, what is owned in the end is what was received and not given up, and nothing happens to a
  resource after it has been given up, which happens at most once.
* `Machine.owns_run`: a machine of which each step respects ownership does so along every run.
-/

namespace StreamFs

variable {ρ : Type*}

/-- What happens to a resource. -/
inductive Ownership (ρ : Type*) where
  | acquire (r : ρ)
  | use (r : ρ)
  | release (r : ρ)
  deriving DecidableEq

namespace Ownership

/-- The resources that are received, in order. -/
def acquired : List (Ownership ρ) → List ρ
  | [] => []
  | .acquire r :: ops => r :: acquired ops
  | .use _ :: ops => acquired ops
  | .release _ :: ops => acquired ops

/-- The events use and give up owned resources only, and take the set of the owned resources from
`live` to `live'`. -/
inductive Owns : Set ρ → List (Ownership ρ) → Set ρ → Prop where
  | nil (live : Set ρ) : Owns live [] live
  | acquire {live live' : Set ρ} {ops : List (Ownership ρ)} {r : ρ} :
      Owns (insert r live) ops live' → Owns live (.acquire r :: ops) live'
  | use {live live' : Set ρ} {ops : List (Ownership ρ)} {r : ρ} (hr : r ∈ live) :
      Owns live ops live' → Owns live (.use r :: ops) live'
  | release {live live' : Set ρ} {ops : List (Ownership ρ)} {r : ρ} (hr : r ∈ live) :
      Owns (live \ {r}) ops live' → Owns live (.release r :: ops) live'

/-- The resources received are new, and different from each other. -/
structure Fresh (live : Set ρ) (ops : List (Ownership ρ)) : Prop where
  nodup : (acquired ops).Nodup
  not_mem : ∀ r ∈ acquired ops, r ∉ live

variable {live mid live' : Set ρ} {ops ops' : List (Ownership ρ)} {r : ρ}

@[simp] lemma acquired_nil : acquired ([] : List (Ownership ρ)) = [] := rfl

@[simp] lemma acquired_acquire : acquired (.acquire r :: ops) = r :: acquired ops := rfl

@[simp] lemma acquired_use : acquired (.use r :: ops) = acquired ops := rfl

@[simp] lemma acquired_release : acquired (.release r :: ops) = acquired ops := rfl

@[simp] lemma acquired_append (ops ops' : List (Ownership ρ)) :
    acquired (ops ++ ops') = acquired ops ++ acquired ops' := by
  induction ops with
  | nil => rfl
  | cons op ops ih => cases op <;> simp [ih]

@[simp] lemma acquired_replicate_use (k : ℕ) : acquired (List.replicate k (.use r)) = [] := by
  induction k with
  | zero => rfl
  | succ k ih => rwa [List.replicate_succ, acquired_use]

@[simp] lemma acquired_replicate_release (k : ℕ) :
    acquired (List.replicate k (.release r)) = [] := by
  induction k with
  | zero => rfl
  | succ k ih => rwa [List.replicate_succ, acquired_release]

namespace Owns

lemma append (h : Owns live ops mid) (h' : Owns mid ops' live') :
    Owns live (ops ++ ops') live' := by
  induction h with
  | nil live => exact h'
  | acquire _ ih => exact acquire (ih h')
  | use hr _ ih => exact use hr (ih h')
  | release hr _ ih => exact release hr (ih h')

lemma exists_of_append (h : Owns live (ops ++ ops') live') :
    ∃ mid, Owns live ops mid ∧ Owns mid ops' live' := by
  induction ops generalizing live with
  | nil => exact ⟨live, nil live, h⟩
  | cons op ops ih =>
      cases h with
      | acquire h =>
          obtain ⟨mid, hops, hrest⟩ := ih h
          exact ⟨mid, acquire hops, hrest⟩
      | use hr h =>
          obtain ⟨mid, hops, hrest⟩ := ih h
          exact ⟨mid, use hr hops, hrest⟩
      | release hr h =>
          obtain ⟨mid, hops, hrest⟩ := ih h
          exact ⟨mid, release hr hops, hrest⟩

/-- The events determine what is owned in the end. -/
lemma unique (h : Owns live ops mid) (h' : Owns live ops live') : mid = live' := by
  induction h with
  | nil live =>
      cases h'
      rfl
  | acquire _ ih =>
      cases h' with
      | acquire h' => exact ih h'
  | use _ _ ih =>
      cases h' with
      | use _ h' => exact ih h'
  | release _ _ ih =>
      cases h' with
      | release _ h' => exact ih h'

/-- What is owned in the end was owned before or has been received. -/
lemma mem_or_mem_acquired (h : Owns live ops live') (hr : r ∈ live') :
    r ∈ live ∨ r ∈ acquired ops := by
  induction h with
  | nil live => exact Or.inl hr
  | acquire _ ih =>
      rcases ih hr with hr | hr
      · rcases Set.mem_insert_iff.mp hr with rfl | hr
        · exact Or.inr List.mem_cons_self
        · exact Or.inl hr
      · exact Or.inr (List.mem_cons_of_mem _ hr)
  | use _ _ ih => exact ih hr
  | release _ _ ih => exact (ih hr).imp_left fun hr => hr.1

/-- Nothing happens to a resource that is neither owned nor received. -/
lemma not_mem_of_not_mem (h : Owns live ops live') (hr : r ∉ live) (hops : r ∉ acquired ops) :
    r ∉ live' ∧ .use r ∉ ops ∧ .release r ∉ ops := by
  induction h with
  | nil live => exact ⟨hr, List.not_mem_nil, List.not_mem_nil⟩
  | @acquire live live' ops q _ ih =>
      rw [acquired_acquire, List.mem_cons, not_or] at hops
      have hq : r ∉ insert q live := fun h => (Set.mem_insert_iff.mp h).elim hops.1 hr
      simpa using ih hq hops.2
  | @use live live' ops q hq _ ih =>
      have hne : r ≠ q := fun h => hr (h ▸ hq)
      simpa [hne] using ih hr hops
  | @release live live' ops q hq _ ih =>
      have hne : r ≠ q := fun h => hr (h ▸ hq)
      simpa [hne] using ih (fun h => hr h.1) hops

/-- **Nothing happens to a resource after it has been given up.** -/
lemma not_mem_of_release (h : Owns live (ops ++ .release r :: ops') live')
    (hfresh : Fresh live (ops ++ .release r :: ops')) :
    r ∉ live' ∧ .use r ∉ ops' ∧ .release r ∉ ops' := by
  obtain ⟨mid, hops, hrest⟩ := h.exists_of_append
  have hnodup : (acquired ops ++ acquired ops').Nodup := by simpa using hfresh.nodup
  cases hrest with
  | release hr hrest =>
      -- the resource was there before, so it is not received again
      have hagain : r ∉ acquired ops' := by
        intro hagain
        rcases hops.mem_or_mem_acquired hr with hlive | hacq
        · exact hfresh.not_mem r (by simp [hagain]) hlive
        · exact (List.nodup_append'.mp hnodup).2.2 hacq hagain
      exact hrest.not_mem_of_not_mem (fun h => h.2 rfl) hagain

/-- A resource is given up at most once. -/
lemma count_release_le [DecidableEq ρ] (h : Owns live ops live') (hfresh : Fresh live ops) (r : ρ) :
    ops.count (.release r) ≤ 1 := by
  by_cases hr : .release r ∈ ops
  · obtain ⟨pre, post, rfl, hpre⟩ := List.eq_append_cons_of_mem hr
    have hpost := (h.not_mem_of_release hfresh).2.2
    rw [List.count_append, List.count_cons_self, List.count_eq_zero_of_not_mem hpre,
      List.count_eq_zero_of_not_mem hpost]
  · rw [List.count_eq_zero_of_not_mem hr]
    exact Nat.zero_le 1

/-- A resource stays owned until it is given up. -/
lemma mem_of_not_release (h : Owns live ops live') (hr : r ∈ live ∨ r ∈ acquired ops)
    (hops : .release r ∉ ops) : r ∈ live' := by
  induction h with
  | nil live => simpa using hr
  | @acquire live live' ops q _ ih =>
      refine ih ?_ (fun h => hops (List.mem_cons_of_mem _ h))
      rcases hr with hr | hr
      · exact Or.inl (Set.mem_insert_of_mem q hr)
      · rcases List.mem_cons.mp hr with rfl | hr
        · exact Or.inl (Set.mem_insert r live)
        · exact Or.inr hr
  | use _ _ ih => exact ih hr fun h => hops (List.mem_cons_of_mem _ h)
  | @release live live' ops q _ _ ih =>
      have hne : r ≠ q := fun h => hops (h ▸ List.mem_cons_self)
      exact ih (hr.imp_left fun hr => ⟨hr, hne⟩) fun h => hops (List.mem_cons_of_mem _ h)

/-- **What is owned in the end** is what was owned or received, and not given up. -/
lemma mem_iff (h : Owns live ops live') (hfresh : Fresh live ops) :
    r ∈ live' ↔ (r ∈ live ∨ r ∈ acquired ops) ∧ .release r ∉ ops := by
  constructor
  · intro hr
    refine ⟨h.mem_or_mem_acquired hr, fun hrel => ?_⟩
    obtain ⟨pre, post, rfl, -⟩ := List.eq_append_cons_of_mem hrel
    exact (h.not_mem_of_release hfresh).1 hr
  · rintro ⟨hr, hrel⟩
    exact h.mem_of_not_release hr hrel

/-- An owned resource is used any number of times. -/
lemma replicate_use (hr : r ∈ live) (k : ℕ) : Owns live (List.replicate k (.use r)) live := by
  induction k with
  | zero => exact nil live
  | succ k ih => exact use hr ih

/-- A resource is given up once, and only if it is owned. -/
lemma replicate_release_iff {k : ℕ} : Owns live (List.replicate k (.release r)) live' ↔
    k = 0 ∧ live' = live ∨ k = 1 ∧ r ∈ live ∧ live' = live \ {r} := by
  constructor
  · intro h
    match k with
    | 0 =>
        cases h
        exact .inl ⟨rfl, rfl⟩
    | 1 =>
        cases h with
        | release hr h =>
            cases h
            exact .inr ⟨rfl, hr, rfl⟩
    | k + 2 =>
        cases h with
        | release _ h =>
            cases h with
            | release hr _ => exact absurd rfl hr.2
  · rintro (⟨rfl, rfl⟩ | ⟨rfl, hr, rfl⟩)
    · exact nil live'
    · exact release hr (nil _)

/-- Owned resources are used and given up one after the other. -/
lemma flatMap_use_release {rs : List ρ} (hnodup : rs.Nodup) (hrs : ∀ r ∈ rs, r ∈ live) :
    Owns live (rs.flatMap fun r => [.use r, .release r]) (live \ {r | r ∈ rs}) := by
  induction rs generalizing live with
  | nil => simpa using nil live
  | cons r rs ih =>
      obtain ⟨hr, hnodup⟩ := List.nodup_cons.mp hnodup
      have hlive := hrs r List.mem_cons_self
      have hrest : ∀ q ∈ rs, q ∈ live \ {r} := by
        intro q hq
        exact ⟨hrs q (List.mem_cons_of_mem r hq), fun h => hr (h ▸ hq)⟩
      have hset : live \ {q | q ∈ r :: rs} = (live \ {r}) \ {q | q ∈ rs} := by
        ext q
        simp only [Set.mem_sdiff, Set.mem_ofPred_eq, List.mem_cons, not_or, Set.mem_singleton_iff,
          and_assoc]
      rw [hset]
      exact use hlive (release hlive (ih hnodup hrest))

end Owns

lemma Fresh.left (h : Fresh live (ops ++ ops')) : Fresh live ops := by
  have hnodup : (acquired ops ++ acquired ops').Nodup := by simpa using h.nodup
  exact ⟨(List.nodup_append'.mp hnodup).1, fun r hr => h.not_mem r (by simp [hr])⟩

/-- The rest of a list of events is fresh where the first part has led. -/
lemma Fresh.right (h : Fresh live (ops ++ ops')) (hops : Owns live ops mid) : Fresh mid ops' := by
  have hnodup : (acquired ops ++ acquired ops').Nodup := by simpa using h.nodup
  obtain ⟨-, hright, hdisj⟩ := List.nodup_append'.mp hnodup
  refine ⟨hright, fun r hr hmid => ?_⟩
  rcases hops.mem_or_mem_acquired hmid with hlive | hacq
  · exact h.not_mem r (by simp [hr]) hlive
  · exact hdisj hacq hr

/-- Resources used and given up one after the other are each used as often as they are listed. -/
lemma count_use_flatMap [DecidableEq ρ] (rs : List ρ) (r : ρ) :
    (rs.flatMap fun r => [Ownership.use r, .release r]).count (.use r) = rs.count r := by
  induction rs with
  | nil => rfl
  | cons q rs ih => simp [List.count_cons, ih]

/-- They are given up as often. -/
lemma count_release_flatMap [DecidableEq ρ] (rs : List ρ) (r : ρ) :
    (rs.flatMap fun r => [Ownership.use r, .release r]).count (.release r) = rs.count r := by
  induction rs with
  | nil => rfl
  | cons q rs ih => simp [List.count_cons, ih]

end Ownership

namespace Machine

open Ownership

variable {σ ε : Type*} {m : Machine σ ε (List (Ownership ρ))} {I : σ → Prop}

/-- **The ownership rule**: if each step that receives fresh resources respects ownership and keeps
the invariant `I`, then so does each run that receives fresh resources. -/
theorem owns_run (live : σ → Set ρ)
    (hstep : ∀ s e, I s → Fresh (live s) (m.output s e) →
      Owns (live s) (m.output s e) (live (m.next s e)) ∧ I (m.next s e))
    {s : σ} (hs : I s) (es : List ε) (hfresh : Fresh (live s) (m.outputs s es).flatten) :
    Owns (live s) (m.outputs s es).flatten (live (m.run s es)) ∧ I (m.run s es) := by
  induction es generalizing s with
  | nil => exact ⟨Owns.nil _, hs⟩
  | cons e es ih =>
      simp only [outputs, List.flatten_cons, run_cons] at hfresh ⊢
      obtain ⟨howns, hI⟩ := hstep s e hs hfresh.left
      obtain ⟨hrest, hend⟩ := ih hI (hfresh.right howns)
      exact ⟨howns.append hrest, hend⟩

end Machine

end StreamFs
