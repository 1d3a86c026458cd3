/-
  Lists of events read with what the events before each of them add up to.
-/
import ProxyWasmHost.Lib.Steps

variable {σ ρ τ : Type}

/-- Every event of a list fits what `next` makes of the events before it. -/
def Scanned (next : ρ → τ → ρ) (P : ρ → τ → Prop) : ρ → List τ → Prop
  | _, [] => True
  | r, e :: t => P r e ∧ Scanned next P (next r e) t

instance Scanned.decidable {next : ρ → τ → ρ} {P : ρ → τ → Prop}
    [∀ r e, Decidable (P r e)] : ∀ (r : ρ) (t : List τ), Decidable (Scanned next P r t)
  | _, [] => inferInstanceAs (Decidable True)
  | r, e :: t => @instDecidableAnd _ _ _ (Scanned.decidable (next r e) t)

namespace Scanned

variable {next : ρ → τ → ρ} {P : ρ → τ → Prop} {r : ρ} {t u : List τ}

theorem append_iff : Scanned next P r (t ++ u) ↔
    Scanned next P r t ∧ Scanned next P (t.foldl next r) u := by
  induction t generalizing r with
  | nil => simp [Scanned]
  | cons e t ih =>
    simp only [List.cons_append, Scanned, ih, List.foldl_cons]
    exact and_assoc.symm

theorem append (ht : Scanned next P r t) (hu : ∀ r, Scanned next P r u) :
    Scanned next P r (t ++ u) :=
  append_iff.2 ⟨ht, hu _⟩

/-- A scanned list, at one of its events. -/
theorem fits {past rest : List τ} {e : τ} (h : Scanned next P r (past ++ e :: rest)) :
    P (past.foldl next r) e :=
  (append_iff.1 h).2.1

/-- Events that fit anything. -/
theorem of_forall (h : ∀ e ∈ t, ∀ r, P r e) : Scanned next P r t := by
  induction t generalizing r with
  | nil => trivial
  | cons e t ih => exact ⟨h e (.head _) r, ih fun e he => h e (.tail _ he)⟩

theorem foldl_of_still (hstill : ∀ e ∈ t, next r e = r) : t.foldl next r = r := by
  induction t with
  | nil => rfl
  | cons e t ih =>
    rw [List.foldl_cons, hstill e (.head _)]
    exact ih fun e he => hstill e (.tail _ he)

/-- Events that leave what they are read with. -/
theorem of_still (hstill : ∀ e ∈ t, next r e = r) (h : ∀ e ∈ t, P r e) :
    Scanned next P r t := by
  induction t with
  | nil => trivial
  | cons e t ih =>
    refine ⟨h e (.head _), ?_⟩
    rw [hstill e (.head _)]
    exact ih (fun e he => hstill e (.tail _ he)) fun e he => h e (.tail _ he)

/-- **Paths**: when every step from an invariant state is scanned whatever came before it, so is
    every path. -/
theorem of_steps {Step : σ → List τ → σ → Prop} {I : σ → Prop} {s s' : σ}
    (hstep : ∀ s t s', I s → Step s t s' → (∀ r, Scanned next P r t) ∧ I s')
    (path : Steps Step s t s') (hI : I s) : (∀ r, Scanned next P r t) ∧ I s' := by
  induction path with
  | nil s => exact ⟨fun _ => trivial, hI⟩
  | cons head tail ih =>
    obtain ⟨hhead, hI'⟩ := hstep _ _ _ hI head
    obtain ⟨htail, hlast⟩ := ih hI'
    exact ⟨fun r => (hhead r).append htail, hlast⟩

end Scanned

/-- **Since an event with `P`, every event has `Q`**: `t` has such an event, and all that comes
    after it. -/
def Since (P Q : τ → Prop) (t : List τ) : Prop :=
  ∃ before e after, t = before ++ e :: after ∧ P e ∧ ∀ e' ∈ after, Q e'

namespace Since

variable {P Q : τ → Prop} {t u : List τ} {e : τ}

theorem last (h : P e) : Since P Q (t ++ [e]) := ⟨t, e, [], rfl, h, by rintro e' ⟨⟩⟩

theorem append (h : Since P Q t) (hu : ∀ e ∈ u, Q e) : Since P Q (t ++ u) := by
  obtain ⟨before, e, after, rfl, he, hafter⟩ := h
  refine ⟨before, e, after ++ u, by simp, he, fun e' he' => ?_⟩
  rcases List.mem_append.1 he' with he' | he'
  · exact hafter e' he'
  · exact hu e' he'

end Since
