/-
  The trace of a program: rules as those of `Follows`, whose assertions read the trace
  the program left.
-/
import ProxyWasmHost.Lib.Prog

namespace Prog

variable {σ ρ τ ε ε' α β : Type}

/-! ## Programs that run alike -/

theorem bind_congr {m m' : Prog σ τ ε α} {f f' : α → Prog σ τ ε β} {s : σ}
    (hm : m'.run s = m.run s) (hf : ∀ a s' t, m.run s = ⟨.ok a, s', t⟩ → (f' a).run s' = (f a).run s') :
    (m' >>= f').run s = (m >>= f).run s := by
  cases hrun : m.run s with
  | mk exit s' t =>
    rw [hrun] at hm
    cases exit with
    | ok a => rw [bind_of_ok hm, bind_of_ok hrun, hf a s' t hrun]
    | err e => rw [bind_of_err hm, bind_of_err hrun]
    | panicked => rw [bind_of_panicked hm, bind_of_panicked hrun]

/-- What comes after a look runs alike, where it does for what the look may find. -/
theorem Finds.bind_congr {m : Prog σ τ ε α} {f f' : α → Prog σ τ ε β} {s : σ} {P : α → Prop}
    (hm : Finds m P s) (hf : ∀ a, P a → (f' a).run s = (f a).run s) :
    (m >>= f').run s = (m >>= f).run s := by
  refine Prog.bind_congr rfl fun a s' t hrun => ?_
  obtain ⟨exit, hlook, hexit⟩ := hm
  rw [hlook] at hrun
  cases hrun
  exact hf a (hexit a rfl)

/-! ## What a program leaves -/

/-- **From `s`, `m` leaves** a trace and a last state that the assertion of the exit it
    took accepts. -/
def Leaves (m : Prog σ τ ε α) (Q : α → List τ → σ → Prop) (E : ε → List τ → σ → Prop)
    (U : List τ → σ → Prop) (s : σ) : Prop :=
  Ends (fun a => Q a (m.run s).trace) (fun e => E e (m.run s).trace) (U (m.run s).trace)
    (m.run s).exit (m.run s).state

namespace Leaves

variable {m : Prog σ τ ε α} {f : α → Prog σ τ ε β} {s : σ}
  {Q M : α → List τ → σ → Prop} {E F : ε → List τ → σ → Prop} {U V : List τ → σ → Prop}
  {R : β → List τ → σ → Prop}

theorem mono (h : Leaves m M F V s) (hQ : ∀ a t s', M a t s' → Q a t s')
    (hE : ∀ e t s', F e t s' → E e t s') (hU : ∀ t s', V t s' → U t s') : Leaves m Q E U s := by
  unfold Leaves at h ⊢
  cases hexit : (m.run s).exit with
  | ok a => rw [hexit] at h; exact hQ _ _ _ h
  | err e => rw [hexit] at h; exact hE _ _ _ h
  | panicked => rw [hexit] at h; exact hU _ _ h

theorem always (hQ : ∀ a t s', Q a t s') (hE : ∀ e t s', E e t s') (hU : ∀ t s', U t s') :
    Leaves m Q E U s := by
  unfold Leaves
  cases (m.run s).exit with
  | ok a => exact hQ _ _ _
  | err e => exact hE _ _ _
  | panicked => exact hU _ _

/-- Two programs that run alike leave alike. -/
theorem congr {m' : Prog σ τ ε α} (h : Leaves m Q E U s) (hrun : m'.run s = m.run s) :
    Leaves m' Q E U s := by
  unfold Leaves at h ⊢
  rw [hrun]
  exact h

theorem and (h : Leaves m Q E U s) (h' : Leaves m M F V s) :
    Leaves m (fun a t s' => Q a t s' ∧ M a t s') (fun e t s' => E e t s' ∧ F e t s')
      (fun t s' => U t s' ∧ V t s') s := by
  unfold Leaves at h h' ⊢
  cases hexit : (m.run s).exit <;> rw [hexit] at h h' <;> exact ⟨h, h'⟩

/-- A path of a relation, and an assertion that does not read the trace. -/
theorem of_follows {Step : σ → List τ → σ → Prop} {Q : α → σ → Prop} {E : ε → σ → Prop}
    {U : σ → Prop} (h : Follows Step m Q E U s) :
    Leaves m (fun a t s' => Steps Step s t s' ∧ Q a s') (fun e t s' => Steps Step s t s' ∧ E e s')
      (fun t s' => Steps Step s t s' ∧ U s') s := by
  obtain ⟨hpath, hends⟩ := h
  unfold Leaves
  cases hexit : (m.run s).exit <;> rw [hexit] at hends <;> exact ⟨hpath, hends⟩

theorem pure {a : α} (h : Q a [] s) : Leaves (Pure.pure a) Q E U s := h

theorem throw {e : ε} (h : E e [] s) : Leaves (throw e : Prog σ τ ε α) Q E U s := h

/-- A program that only looks leaves no trace. -/
theorem finds {P : α → Prop} (hm : Finds m P s) (hQ : ∀ a, P a → Q a [] s) (hE : ∀ e, E e [] s)
    (hU : U [] s) : Leaves m Q E U s := by
  obtain ⟨exit, hrun, hexit⟩ := hm
  unfold Leaves
  rw [hrun]
  cases exit with
  | ok a => exact hQ a (hexit a rfl)
  | err e => exact hE e
  | panicked => exact hU

/-- **Sequencing**: what comes second is judged with the trace of the first before its
    own. -/
theorem bind (hm : Leaves m M E U s)
    (hf : ∀ a t s', M a t s' → Leaves (f a) (fun b u => R b (t ++ u)) (fun e u => E e (t ++ u))
      (fun u => U (t ++ u)) s') : Leaves (m >>= f) R E U s := by
  unfold Leaves at hm ⊢
  cases hres : m.run s with
  | mk exit s' t =>
    rw [hres] at hm
    cases exit with
    | ok a =>
      rw [bind_of_ok hres]
      exact hf a t s' hm
    | err e => rw [bind_of_err hres]; exact hm
    | panicked => rw [bind_of_panicked hres]; exact hm

/-- A first program that is known to return, and to leave no trace. -/
theorem bind_ok {a : α} {s' : σ} (hm : m.run s = ⟨.ok a, s', []⟩) (hf : Leaves (f a) R E U s') :
    Leaves (m >>= f) R E U s := by
  unfold Leaves
  rw [bind_of_ok_nil hm]
  exact hf

theorem bind_finds {P : α → Prop} (hm : Finds m P s) (hf : ∀ a, P a → Leaves (f a) R E U s)
    (hE : ∀ e, E e [] s) (hU : U [] s) : Leaves (m >>= f) R E U s :=
  bind (M := fun a t s' => P a ∧ t = [] ∧ s' = s) (finds hm (fun _ ha => ⟨ha, rfl, rfl⟩) hE hU)
    (by rintro a _ _ ⟨ha, rfl, rfl⟩; exact hf a ha)

theorem bind_read {g : σ → α} (h : Leaves (f (g s)) R E U s) :
    Leaves (Prog.read g >>= f) R E U s := h

theorem bind_modify {u : σ → σ} {f : Unit → Prog σ τ ε β} (h : Leaves (f ()) R E U (u s)) :
    Leaves (Prog.modify u >>= f) R E U s := h

theorem bind_emit {e : σ → τ} {f : Unit → Prog σ τ ε β}
    (h : Leaves (f ()) (fun b t => R b (e s :: t)) (fun x t => E x (e s :: t))
      (fun t => U (e s :: t)) s) : Leaves (Prog.emit e >>= f) R E U s := h

theorem bind_act {e : σ → τ} {u : σ → σ} {f : Unit → Prog σ τ ε β}
    (h : Leaves (f ()) (fun b t => R b (e s :: t)) (fun x t => E x (e s :: t))
      (fun t => U (e s :: t)) (u s)) : Leaves (Prog.act e u >>= f) R E U s := h

theorem bind_ofExcept {x : Except ε α} (h : ∀ a, x = .ok a → Leaves (f a) R E U s)
    (he : ∀ e, x = .error e → E e [] s) : Leaves (Prog.ofExcept x >>= f) R E U s := by
  cases x with
  | ok a => exact h a rfl
  | error e => exact he e rfl

theorem bind_require {c : Prop} [Decidable c] {e : ε} {f : Unit → Prog σ τ ε β}
    (h : c → Leaves (f ()) R E U s) (he : ¬ c → E e [] s) :
    Leaves (Prog.require c e >>= f) R E U s := by
  unfold Prog.require
  split
  · exact h ‹c›
  · exact he ‹¬ c›

theorem bind_orThrow {o : Option α} {e : ε} (h : ∀ a, o = some a → Leaves (f a) R E U s)
    (he : o = none → E e [] s) : Leaves (Prog.orThrow o e >>= f) R E U s := by
  cases o with
  | some a => exact h a rfl
  | none => exact he rfl

theorem attempt {Q : Except ε α → List τ → σ → Prop} {E : ε' → List τ → σ → Prop}
    (h : Leaves m (fun a => Q (.ok a)) (fun e => Q (.error e)) U s) :
    Leaves (attempt m) Q E U s := by
  unfold Leaves at h ⊢
  cases hres : m.run s with
  | mk exit s' t =>
    rw [hres] at h
    cases exit <;> simp only [Prog.attempt, hres] <;> exact h

theorem mapErr {g : ε → ε'} {E : ε' → List τ → σ → Prop}
    (h : Leaves m Q (fun e => E (g e)) U s) : Leaves (mapErr g m) Q E U s := by
  unfold Leaves at h ⊢
  cases hres : m.run s with
  | mk exit s' t =>
    rw [hres] at h
    cases exit <;> simp only [Prog.mapErr, hres] <;> exact h

theorem cleanedUp {cleanup : σ → σ} (h : Leaves m (fun a t s' => Q a t (cleanup s'))
    (fun e t s' => E e t (cleanup s')) (fun t s' => U t (cleanup s')) s) :
    Leaves (cleanedUp m cleanup) Q E U s := by
  unfold Leaves at h ⊢
  cases hres : m.run s with
  | mk exit s' t =>
    rw [hres] at h
    cases exit <;> simp only [Prog.cleanedUp, hres] <;> exact h

/-- A program that only looks, from what its exit satisfies. -/
theorem looks {P : Exit ε α → Prop}
    (h : Leaves m (fun a t s' => t = [] ∧ s' = s ∧ P (.ok a))
      (fun e t s' => t = [] ∧ s' = s ∧ P (.err e)) (fun t s' => t = [] ∧ s' = s ∧ P .panicked) s) :
    ∃ exit, m.run s = ⟨exit, s, []⟩ ∧ P exit := by
  unfold Leaves at h
  cases hres : m.run s with
  | mk exit s' t =>
    rw [hres] at h
    cases exit <;> obtain ⟨rfl, rfl, hP⟩ := h <;> exact ⟨_, rfl, hP⟩

end Leaves

end Prog
