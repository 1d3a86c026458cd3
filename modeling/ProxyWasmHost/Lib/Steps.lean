/-
  Paths of a labelled step relation: what every step keeps, every path keeps.

  A step carries the list of the events it makes visible, so that a path
  carries the history of the events along it.
-/
import Mathlib.Data.List.Basic

variable {σ ρ τ : Type}

/-- A path of `Step`: its steps one after another, and their events. -/
inductive Steps (Step : σ → List τ → σ → Prop) : σ → List τ → σ → Prop
  | nil (s) : Steps Step s [] s
  | cons {s t s' u s''} (head : Step s t s') (tail : Steps Step s' u s'') :
      Steps Step s (t ++ u) s''

namespace Steps

variable {Step Step' : σ → List τ → σ → Prop} {s s' s'' : σ} {t u : List τ}

theorem single (h : Step s t s') : Steps Step s t s' := by
  have := cons h (nil s')
  rwa [List.append_nil] at this

theorem trans (h : Steps Step s t s') (h' : Steps Step s' u s'') : Steps Step s (t ++ u) s'' := by
  induction h with
  | nil s => exact h'
  | cons head tail ih =>
    rw [List.append_assoc]
    exact cons head (ih h')

theorem snoc (h : Steps Step s t s') (last : Step s' u s'') : Steps Step s (t ++ u) s'' :=
  h.trans (single last)

/-- A path of steps with one event each splits where its events do. -/
theorem split (hone : ∀ s t s', Step s t s' → ∃ e, t = [e]) {w : List τ}
    (h : Steps Step s w s'') :
    ∀ {t u}, w = t ++ u → ∃ s', Steps Step s t s' ∧ Steps Step s' u s'' := by
  induction h with
  | nil s =>
    intro t u hw
    obtain ⟨rfl, rfl⟩ := List.append_eq_nil_iff.1 hw.symm
    exact ⟨s, nil s, nil s⟩
  | cons head tail ih =>
    intro t u hw
    obtain ⟨e, rfl⟩ := hone _ _ _ head
    cases t with
    | nil =>
      rw [List.nil_append] at hw
      exact ⟨_, nil _, hw ▸ cons head tail⟩
    | cons e' t =>
      rw [List.cons_append, List.nil_append, List.cons_append, List.cons.injEq] at hw
      obtain ⟨rfl, hrest⟩ := hw
      obtain ⟨s', hpath, hpath'⟩ := ih hrest
      exact ⟨s', cons head hpath, hpath'⟩

/-- A path with one event is one step, when each step has one event. -/
theorem of_singleton (hone : ∀ s t s', Step s t s' → ∃ e, t = [e]) {e : τ}
    (h : Steps Step s [e] s'') : Step s [e] s'' := by
  generalize hw : [e] = w at h
  cases h with
  | nil => cases hw
  | cons head tail =>
    obtain ⟨e', rfl⟩ := hone _ _ _ head
    rw [List.cons_append, List.nil_append, List.cons.injEq] at hw
    obtain ⟨rfl, rfl⟩ := hw
    generalize hu : ([] : List τ) = u at tail
    cases tail with
    | nil => exact head
    | cons head' tail' =>
      obtain ⟨_, rfl⟩ := hone _ _ _ head'
      cases hu

/-- A step relation that allows more has all the paths. -/
theorem mono (hsub : ∀ s t s', Step s t s' → Step' s t s') (h : Steps Step s t s') :
    Steps Step' s t s' := by
  induction h with
  | nil s => exact nil s
  | cons head tail ih => exact cons (hsub _ _ _ head) ih

/-- What every step keeps is there before each step of a path. -/
theorem guarded {I : σ → Prop} (hstep : ∀ s t s', I s → Step s t s' → I s')
    (h : Steps Step s t s') (hI : I s) : Steps (fun s t s' => I s ∧ Step s t s') s t s' := by
  induction h with
  | nil s => exact nil s
  | cons head tail ih => exact cons ⟨hI, head⟩ (ih (hstep _ _ _ hI head))

/-- A path of a part of the state is a path of the whole. -/
theorem map {StepR : ρ → List τ → ρ → Prop} {r r' : ρ} (put : ρ → σ)
    (hstep : ∀ r t r', StepR r t r' → Step (put r) t (put r')) (h : Steps StepR r t r') :
    Steps Step (put r) t (put r') := by
  induction h with
  | nil r => exact nil (put r)
  | cons head tail ih => exact cons (hstep _ _ _ head) ih

/-- **Invariants**: what every step keeps, a path keeps. -/
theorem invariant {I : σ → Prop} (hstep : ∀ s t s', I s → Step s t s' → I s')
    (h : Steps Step s t s') (hI : I s) : I s' := by
  induction h with
  | nil s => exact hI
  | cons head tail ih => exact ih (hstep _ _ _ hI head)

/-- **Invariants of the history**: what every step keeps of the events so far and
    the state, a path keeps. -/
theorem history {I : List τ → σ → Prop}
    (hstep : ∀ past s t s', I past s → Step s t s' → I (past ++ t) s')
    (h : Steps Step s t s') {p : List τ} (hI : I p s) : I (p ++ t) s' := by
  induction h generalizing p with
  | nil s => rwa [List.append_nil]
  | cons head tail ih =>
    rw [← List.append_assoc]
    exact ih (hstep _ _ _ _ hI head)

/-- **Events in their past**: when every step has one event at most, and that fits the events
    before it, every event of a path fits the events before it. -/
theorem in_past {I : List τ → σ → Prop} {P : List τ → τ → Prop}
    (hone : ∀ s t s', Step s t s' → t = [] ∨ ∃ e, t = [e])
    (hstep : ∀ past s t s', I past s → Step s t s' → I (past ++ t) s' ∧ ∀ e ∈ t, P past e)
    (h : Steps Step s t s') {past : List τ} (hI : I past s) {t₁ t₂ : List τ} {e : τ}
    (ht : t = t₁ ++ e :: t₂) : P (past ++ t₁) e := by
  induction h generalizing past t₁ with
  | nil s => exact absurd ht (by simp)
  | cons head tail ih =>
    obtain ⟨hI', hevents⟩ := hstep _ _ _ _ hI head
    rcases hone _ _ _ head with rfl | ⟨e', rfl⟩
    · rw [List.append_nil] at hI'
      exact ih hI' ht
    · rcases t₁ with _ | ⟨_, t₁⟩
      · rw [List.append_nil]
        cases ht
        exact hevents _ (.head _)
      · cases ht
        rw [List.append_cons]
        exact ih hI' rfl

/-- A path splits at each of its events, when every step has one event at most. -/
theorem at_event (hone : ∀ s t s', Step s t s' → t = [] ∨ ∃ e, t = [e]) (h : Steps Step s t s')
    {t₁ t₂ : List τ} {e : τ} (ht : t = t₁ ++ e :: t₂) :
    ∃ r r', Steps Step s t₁ r ∧ Step r [e] r' ∧ Steps Step r' t₂ s' := by
  induction h generalizing t₁ with
  | nil s => exact absurd ht (by simp)
  | cons head tail ih =>
    rcases hone _ _ _ head with rfl | ⟨e', rfl⟩
    · obtain ⟨r, r', hbefore, hstep, hafter⟩ := ih ht
      exact ⟨r, r', cons head hbefore, hstep, hafter⟩
    · rcases t₁ with _ | ⟨_, t₁⟩
      · cases ht
        exact ⟨_, _, nil _, head, tail⟩
      · cases ht
        obtain ⟨r, r', hbefore, hstep, hafter⟩ := ih rfl
        exact ⟨r, r', cons head hbefore, hstep, hafter⟩

/-- **Relations**: a relation of two states and the events between them holds along
    every path when it holds along every step and composes. -/
theorem relation {R : σ → List τ → σ → Prop} (hrefl : ∀ s, R s [] s)
    (htrans : ∀ s t s' u s'', R s t s' → R s' u s'' → R s (t ++ u) s'')
    (hstep : ∀ s t s', Step s t s' → R s t s') (h : Steps Step s t s') : R s t s' := by
  induction h with
  | nil s => exact hrefl s
  | cons head tail ih => exact htrans _ _ _ _ _ (hstep _ _ _ head) ih

/-- A property of each event that every step from an invariant state gives, every
    event of a path has. -/
theorem events {I : σ → Prop} {P : τ → Prop} (hstep : ∀ s t s', I s → Step s t s' → I s')
    (hevent : ∀ s t s', I s → Step s t s' → ∀ e ∈ t, P e) (h : Steps Step s t s') (hI : I s) :
    ∀ e ∈ t, P e := by
  induction h with
  | nil s => intro e he; cases he
  | cons head tail ih =>
    intro e he
    rcases List.mem_append.1 he with he | he
    · exact hevent _ _ _ hI head e he
    · exact ih (hstep _ _ _ hI head) e he

end Steps
