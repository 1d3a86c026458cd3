/-
  Programs that stay in a relation: whichever way they end, the state they began in, the trace
  they left and the state they reached are related. `AlongFrom` says so of one state they begin
  in, so that what a program found there can be used.
-/
import ProxyWasmHost.Lib.Leaves

namespace Prog

variable {σ τ ε ε' α β : Type} {R : σ → List τ → σ → Prop} {m n : Prog σ τ ε α}
  {f : α → Prog σ τ ε β}

/-- A relation that holds along sequences. -/
class Chain (R : σ → List τ → σ → Prop) : Prop where
  refl : ∀ s, R s [] s
  trans : ∀ {s t s' u s''}, R s t s' → R s' u s'' → R s (t ++ u) s''

/-- **`m` stays in `R`**, from every state. -/
class Along (R : σ → List τ → σ → Prop) (m : Prog σ τ ε α) : Prop where
  along : ∀ s, R s (m.run s).trace (m.run s).state

namespace Along

theorem modify {u : σ → σ} (h : ∀ s, R s [] (u s)) :
    Along R (Prog.modify u : Prog σ τ ε Unit) := ⟨h⟩

theorem act {e : σ → τ} {u : σ → σ} (h : ∀ s, R s [e s] (u s)) :
    Along R (Prog.act e u : Prog σ τ ε Unit) := ⟨h⟩

theorem emit {e : σ → τ} (h : ∀ s, R s [e s] s) : Along R (Prog.emit e : Prog σ τ ε Unit) := ⟨h⟩

/-- A program that only looks stays in any such relation. -/
instance (priority := low) quiet [Chain R] [hm : Quiet m] : Along R m := by
  refine ⟨fun s => ?_⟩
  obtain ⟨exit, hrun⟩ := hm.looks s
  rw [hrun]
  exact Chain.refl s

instance bind [Chain R] [hm : Along R m] [hf : ∀ a, Along R (f a)] : Along R (m >>= f) := by
  refine ⟨fun s => ?_⟩
  have hfirst := hm.along s
  cases hrun : m.run s with
  | mk exit s' t =>
    rw [hrun] at hfirst
    cases exit with
    | ok a =>
      rw [bind_of_ok hrun]
      exact Chain.trans hfirst ((hf a).along s')
    | err e =>
      rw [bind_of_err hrun]
      exact hfirst
    | panicked =>
      rw [bind_of_panicked hrun]
      exact hfirst

theorem andThen [Chain R] [Along R m] (hf : ∀ a, Along R (f a)) : Along R (m >>= f) := bind

instance ite {c : Prop} [Decidable c] [hm : Along R m] [hn : Along R n] :
    Along R (if c then m else n) := by
  split
  · exact hm
  · exact hn

instance attempt [hm : Along R m] : Along R (Prog.attempt m : Prog σ τ ε' (Except ε α)) := by
  refine ⟨fun s => ?_⟩
  have hbody := hm.along s
  unfold Prog.attempt
  cases hrun : m.run s with
  | mk exit s' t =>
    rw [hrun] at hbody
    cases exit <;> simpa only [hrun] using hbody

instance mapErr {g : ε → ε'} [hm : Along R m] : Along R (Prog.mapErr g m) := by
  refine ⟨fun s => ?_⟩
  have hbody := hm.along s
  unfold Prog.mapErr
  cases hrun : m.run s with
  | mk exit s' t =>
    rw [hrun] at hbody
    cases exit <;> simpa only [hrun] using hbody

/-- A cleanup that stays in the relation. -/
theorem cleanedUp [Chain R] [hm : Along R m] {cleanup : σ → σ} (hclean : ∀ s, R s [] (cleanup s)) :
    Along R (Prog.cleanedUp m cleanup) := by
  refine ⟨fun s => ?_⟩
  have hboth : R s ((m.run s).trace ++ []) (cleanup (m.run s).state) :=
    Chain.trans (hm.along s) (hclean _)
  rwa [List.append_nil] at hboth

/-- A part of the state that stays in its own relation. -/
theorem zoom {ρ : Type} {S : ρ → List τ → ρ → Prop} {get : σ → ρ} {put : σ → ρ → σ}
    {m : Prog ρ τ ε α} [hm : Along S m] (hput : ∀ s t r, S (get s) t r → R s t (put s r)) :
    Along R (Prog.zoom get put m) :=
  ⟨fun s => hput s _ _ (hm.along (get s))⟩

end Along

/-- **From `s`, `m` stays in `R`.** -/
def AlongFrom (R : σ → List τ → σ → Prop) (m : Prog σ τ ε α) (s : σ) : Prop :=
  R s (m.run s).trace (m.run s).state

theorem Along.of_from (h : ∀ s, AlongFrom R m s) : Along R m := ⟨h⟩

namespace AlongFrom

variable {s : σ}

theorem of_along [hm : Along R m] : AlongFrom R m s := hm.along s

/-- A program whose every exit leaves a state in the relation. -/
theorem of_leaves (h : Leaves m (fun _ t s' => R s t s') (fun _ t s' => R s t s')
    (fun t s' => R s t s') s) : AlongFrom R m s := by
  unfold Leaves at h
  unfold AlongFrom
  cases hexit : (m.run s).exit <;> rw [hexit] at h <;> exact h

theorem act {e : σ → τ} {u : σ → σ} (h : R s [e s] (u s)) :
    AlongFrom R (Prog.act e u : Prog σ τ ε Unit) s := h

theorem leaves (h : AlongFrom R m s) : Leaves m (fun _ t s' => R s t s') (fun _ t s' => R s t s')
    (fun t s' => R s t s') s := by
  unfold AlongFrom at h
  unfold Leaves
  cases hexit : (m.run s).exit <;> exact h

/-- **Sequencing**: what comes second starts from a state that the first stayed in `R` up to, and
    knows what else the first left. -/
theorem bind_leaves [Chain R] {Q : α → List τ → σ → Prop} {E : ε → List τ → σ → Prop}
    {U : List τ → σ → Prop} (hm : AlongFrom R m s) (hleaves : Leaves m Q E U s)
    (hf : ∀ a t s', Q a t s' → AlongFrom R (f a) s') : AlongFrom R (m >>= f) s := by
  unfold AlongFrom at hm ⊢
  unfold Leaves at hleaves
  cases hrun : m.run s with
  | mk exit s' t =>
    rw [hrun] at hm hleaves
    cases exit with
    | ok a =>
      rw [bind_of_ok hrun]
      exact Chain.trans hm (hf a t s' hleaves)
    | err e =>
      rw [bind_of_err hrun]
      exact hm
    | panicked =>
      rw [bind_of_panicked hrun]
      exact hm

theorem bind_knowing {S : σ → List τ → σ → Prop} [Chain R] (hm : AlongFrom R m s)
    (hknown : AlongFrom S m s) (hf : ∀ a t s', S s t s' → AlongFrom R (f a) s') :
    AlongFrom R (m >>= f) s :=
  .bind_leaves hm hknown.leaves hf

theorem bind [Chain R] (hm : AlongFrom R m s) (hf : ∀ a t s', R s t s' → AlongFrom R (f a) s') :
    AlongFrom R (m >>= f) s :=
  .bind_knowing hm hm hf

/-- What comes after a program that stays in `R` from every state may start from any. -/
theorem bind_along [Chain R] [hm : Along R m] (hf : ∀ a s', AlongFrom R (f a) s') :
    AlongFrom R (m >>= f) s :=
  .bind (hm.along s) fun a _ s' _ => hf a s'

theorem attempt (hm : AlongFrom R m s) :
    AlongFrom R (Prog.attempt m : Prog σ τ ε' (Except ε α)) s := by
  unfold AlongFrom Prog.attempt at *
  cases hrun : m.run s with
  | mk exit s' t =>
    rw [hrun] at hm
    cases exit <;> simpa only [hrun] using hm

theorem bind_modify {u : σ → σ} {f : Unit → Prog σ τ ε β} [Chain R] (hu : R s [] (u s))
    (hf : AlongFrom R (f ()) (u s)) : AlongFrom R (Prog.modify u >>= f) s :=
  .bind_knowing (S := fun _ _ s' => s' = u s) hu rfl fun _ _ _ heq => heq ▸ hf

theorem bind_read {g : σ → α} (h : AlongFrom R (f (g s)) s) : AlongFrom R (Prog.read g >>= f) s := h

/-- What comes after a look stays in `R` from the same state, and knows what was found. -/
theorem bind_finds [Chain R] {P : α → Prop} (hm : Finds m P s)
    (hf : ∀ a, P a → AlongFrom R (f a) s) : AlongFrom R (m >>= f) s := by
  obtain ⟨exit, hrun, hexit⟩ := hm
  unfold AlongFrom
  cases exit with
  | ok a =>
    rw [bind_of_ok_nil hrun]
    exact hf a (hexit a rfl)
  | err e =>
    rw [bind_of_err hrun]
    exact Chain.refl s
  | panicked =>
    rw [bind_of_panicked hrun]
    exact Chain.refl s

theorem bind_ofExcept [Chain R] {x : Except ε α} (hf : ∀ a, x = .ok a → AlongFrom R (f a) s) :
    AlongFrom R (Prog.ofExcept x >>= f) s := by
  cases x with
  | ok a => exact hf a rfl
  | error e => exact Chain.refl s

theorem bind_quiet [Chain R] [Quiet m] (hf : ∀ a, AlongFrom R (f a) s) : AlongFrom R (m >>= f) s :=
  bind_finds .quiet fun a _ => hf a

end AlongFrom

end Prog
