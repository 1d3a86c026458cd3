/-
  Programs that return: from a state, what value they give and what state they leave.
-/
import ProxyWasmHost.Lib.Prog

namespace Prog

variable {σ ρ τ ε ε' α β : Type}

/-- **From `s`, `m` returns**, with a value and a state as `Q` says. -/
def Returns (m : Prog σ τ ε α) (Q : α → σ → Prop) (s : σ) : Prop :=
  ∃ a s' t, m.run s = ⟨.ok a, s', t⟩ ∧ Q a s'

namespace Returns

variable {m : Prog σ τ ε α} {f : α → Prog σ τ ε β} {s : σ} {Q M : α → σ → Prop} {R : β → σ → Prop}

theorem mono (h : Returns m M s) (hQ : ∀ a s', M a s' → Q a s') : Returns m Q s := by
  obtain ⟨a, s', t, hrun, hM⟩ := h
  exact ⟨a, s', t, hrun, hQ a s' hM⟩

theorem pure {a : α} (h : Q a s) : Returns (Pure.pure a : Prog σ τ ε α) Q s := ⟨a, s, [], rfl, h⟩

/-- **Sequencing.** -/
theorem bind (hm : Returns m M s) (hf : ∀ a s', M a s' → Returns (f a) R s') :
    Returns (m >>= f) R s := by
  obtain ⟨a, s', t, hrun, hM⟩ := hm
  obtain ⟨b, s'', u, hrest, hR⟩ := hf a s' hM
  refine ⟨b, s'', t ++ u, ?_, hR⟩
  rw [bind_of_ok hrun, hrest]

/-- A part of a program whose run is known. -/
theorem bind_of_run {a : α} {s' : σ} {t : List τ} (hm : m.run s = ⟨.ok a, s', t⟩)
    (hf : Returns (f a) R s') : Returns (m >>= f) R s := by
  refine bind (M := fun b r => b = a ∧ r = s') ⟨a, s', t, hm, rfl, rfl⟩ ?_
  rintro _ _ ⟨rfl, rfl⟩
  exact hf

theorem bind_read {g : σ → α} (h : Returns (f (g s)) R s) : Returns (Prog.read g >>= f) R s :=
  bind_of_run rfl h

theorem modify {u : σ → σ} {Q : Unit → σ → Prop} (h : Q () (u s)) :
    Returns (Prog.modify u : Prog σ τ ε Unit) Q s := ⟨(), u s, [], rfl, h⟩

theorem bind_modify {u : σ → σ} {f : Unit → Prog σ τ ε β} (h : Returns (f ()) R (u s)) :
    Returns (Prog.modify u >>= f) R s :=
  bind_of_run rfl h

theorem act {e : σ → τ} {u : σ → σ} {Q : Unit → σ → Prop} (h : Q () (u s)) :
    Returns (Prog.act e u : Prog σ τ ε Unit) Q s := ⟨(), u s, [e s], rfl, h⟩

theorem bind_act {e : σ → τ} {u : σ → σ} {f : Unit → Prog σ τ ε β}
    (h : Returns (f ()) R (u s)) : Returns (Prog.act e u >>= f) R s :=
  bind_of_run rfl h

theorem bind_emit {e : σ → τ} {f : Unit → Prog σ τ ε β} (h : Returns (f ()) R s) :
    Returns (Prog.emit e >>= f) R s :=
  bind_of_run rfl h

theorem require {c : Prop} [Decidable c] {e : ε} {Q : Unit → σ → Prop} (hc : c) (h : Q () s) :
    Returns (Prog.require c e : Prog σ τ ε Unit) Q s := by
  unfold Prog.require
  rw [if_pos hc]
  exact pure h

/-- A check that passes. -/
theorem bind_require {c : Prop} [Decidable c] {e : ε} {f : Unit → Prog σ τ ε β} (hc : c)
    (h : Returns (f ()) R s) : Returns (Prog.require c e >>= f) R s :=
  bind (M := fun _ s' => s' = s) (require hc rfl) (by rintro _ _ rfl; exact h)

theorem ofExcept {a : α} (h : Q a s) : Returns (Prog.ofExcept (.ok a) : Prog σ τ ε α) Q s := pure h

theorem attempt {Q : Except ε α → σ → Prop} (h : Returns m (fun a => Q (.ok a)) s) :
    Returns (Prog.attempt m : Prog σ τ ε' (Except ε α)) Q s := by
  obtain ⟨a, s', t, hrun, hQ⟩ := h
  refine ⟨.ok a, s', t, ?_, hQ⟩
  simp only [Prog.attempt, hrun]

/-- A part of the state that a program works on. -/
theorem zoom {get : σ → ρ} {put : σ → ρ → σ} {m : Prog ρ τ ε α}
    (h : Returns m (fun a r => Q a (put s r)) (get s)) : Returns (Prog.zoom get put m) Q s := by
  obtain ⟨a, r, t, hrun, hQ⟩ := h
  refine ⟨a, put s r, t, ?_, hQ⟩
  simp only [Prog.zoom, hrun]

end Returns

end Prog
