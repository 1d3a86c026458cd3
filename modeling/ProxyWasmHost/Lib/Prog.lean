/-
  Programs over a state that leave a trace, and rules to reason about them.

  A program returns, fails with an error, or panics; whichever it does, the
  state it reached and the trace it left stay. `Follows` is its program logic:
  the trace is a path of a step relation, and the last state satisfies the
  assertion of the exit that was taken.
-/
import ProxyWasmHost.Lib.Steps

/-- How a program ends. -/
inductive Exit (ε α : Type) where
  | ok (value : α)
  | err (error : ε)
  | panicked
  deriving DecidableEq

namespace Exit

variable {ε α β : Type}

protected def bind (x : Exit ε α) (f : α → Exit ε β) : Exit ε β :=
  match x with
  | .ok a => f a
  | .err e => .err e
  | .panicked => .panicked

instance : Monad (Exit ε) where
  pure := .ok
  bind := Exit.bind

/-- How an answer ends a program. -/
def ofExcept : Except ε α → Exit ε α
  | .ok a => .ok a
  | .error e => .err e

/-- The value of `o`, or a panic. -/
def orPanic : Option α → Exit ε α
  | some a => .ok a
  | none => .panicked

variable {f : α → Exit ε β} {a : α}

@[simp] theorem ok_bind : (Exit.ok a >>= f) = f a := rfl

@[simp] theorem err_bind {e : ε} : (Exit.err e >>= f) = .err e := rfl

@[simp] theorem panicked_bind : (Exit.panicked >>= f) = .panicked := rfl

@[simp] theorem orPanic_some : (orPanic (some a) : Exit ε α) = .ok a := rfl

@[simp] theorem orPanic_none : (orPanic none : Exit ε α) = .panicked := rfl

end Exit

/-- What a run of a program leaves: its exit, its state and its trace. -/
structure Res (σ τ ε α : Type) where
  exit : Exit ε α
  state : σ
  trace : List τ

/-- A program that reads and changes a state of type `σ`, leaves a trace of events
    of type `τ`, and fails with an `ε`. -/
structure Prog (σ τ ε α : Type) where
  run : σ → Res σ τ ε α

namespace Prog

variable {σ ρ τ ε ε' α β : Type}

protected def pure (a : α) : Prog σ τ ε α := ⟨fun s => ⟨.ok a, s, []⟩⟩

protected def bind (m : Prog σ τ ε α) (f : α → Prog σ τ ε β) : Prog σ τ ε β := ⟨fun s =>
  match m.run s with
  | ⟨.ok a, s', t⟩ => ⟨((f a).run s').exit, ((f a).run s').state, t ++ ((f a).run s').trace⟩
  | ⟨.err e, s', t⟩ => ⟨.err e, s', t⟩
  | ⟨.panicked, s', t⟩ => ⟨.panicked, s', t⟩⟩

instance : Monad (Prog σ τ ε) where
  pure := Prog.pure
  bind := Prog.bind

/-- The value `g` reads off the state. -/
def read (g : σ → α) : Prog σ τ ε α := ⟨fun s => ⟨.ok (g s), s, []⟩⟩

def modify (u : σ → σ) : Prog σ τ ε Unit := ⟨fun s => ⟨.ok (), u s, []⟩⟩

/-- Leaves an event that reads the state. -/
def emit (e : σ → τ) : Prog σ τ ε Unit := ⟨fun s => ⟨.ok (), s, [e s]⟩⟩

/-- Changes the state and leaves an event that reads the state before. -/
def act (e : σ → τ) (u : σ → σ) : Prog σ τ ε Unit := ⟨fun s => ⟨.ok (), u s, [e s]⟩⟩

def throw (e : ε) : Prog σ τ ε α := ⟨fun s => ⟨.err e, s, []⟩⟩

def panic : Prog σ τ ε α := ⟨fun s => ⟨.panicked, s, []⟩⟩

/-- Fails with `e` unless `c`. -/
def require (c : Prop) [Decidable c] (e : ε) : Prog σ τ ε Unit :=
  if c then Prog.pure () else throw e

def ofExcept : Except ε α → Prog σ τ ε α
  | .ok a => Prog.pure a
  | .error e => throw e

/-- The value of `o`, or the failure `e`. -/
def orThrow (o : Option α) (e : ε) : Prog σ τ ε α :=
  match o with
  | some a => Prog.pure a
  | none => throw e

/-- The value of `o`, or a panic. -/
def orPanic : Option α → Prog σ τ ε α
  | some a => Prog.pure a
  | none => panic

/-- Ends as a computation without state and events did. -/
def ofExit : Exit ε α → Prog σ τ ε α
  | .ok a => Prog.pure a
  | .err e => throw e
  | .panicked => panic

/-- Runs `m` and answers its error as a value. -/
def attempt (m : Prog σ τ ε α) : Prog σ τ ε' (Except ε α) := ⟨fun s =>
  match m.run s with
  | ⟨.ok a, s', t⟩ => ⟨.ok (.ok a), s', t⟩
  | ⟨.err e, s', t⟩ => ⟨.ok (.error e), s', t⟩
  | ⟨.panicked, s', t⟩ => ⟨.panicked, s', t⟩⟩

def mapErr (f : ε → ε') (m : Prog σ τ ε α) : Prog σ τ ε' α := ⟨fun s =>
  match m.run s with
  | ⟨.ok a, s', t⟩ => ⟨.ok a, s', t⟩
  | ⟨.err e, s', t⟩ => ⟨.err (f e), s', t⟩
  | ⟨.panicked, s', t⟩ => ⟨.panicked, s', t⟩⟩

/-- Runs `m`, and then `cleanup` whichever way `m` ended. -/
def cleanedUp (m : Prog σ τ ε α) (cleanup : σ → σ) : Prog σ τ ε α :=
  ⟨fun s => ⟨(m.run s).exit, cleanup (m.run s).state, (m.run s).trace⟩⟩

/-- Runs `m`, and `cleanup` when it panics. -/
def onPanic (m : Prog σ τ ε α) (cleanup : σ → σ) : Prog σ τ ε α := ⟨fun s =>
  match m.run s with
  | ⟨.panicked, s', t⟩ => ⟨.panicked, cleanup s', t⟩
  | ran => ran⟩

/-- Runs a program of a part of the state. -/
def zoom (get : σ → ρ) (put : σ → ρ → σ) (m : Prog ρ τ ε α) : Prog σ τ ε α :=
  ⟨fun s => ⟨(m.run (get s)).exit, put s (m.run (get s)).state, (m.run (get s)).trace⟩⟩

/-! ## How programs run -/

variable {m : Prog σ τ ε α} {f : α → Prog σ τ ε β} {s : σ}

theorem bind_of_ok {a : α} {s' : σ} {t : List τ} (h : m.run s = ⟨.ok a, s', t⟩) :
    (m >>= f).run s =
      ⟨((f a).run s').exit, ((f a).run s').state, t ++ ((f a).run s').trace⟩ := by
  simp only [Bind.bind, Prog.bind, h]

theorem bind_of_err {e : ε} {r : σ} {t : List τ} (h : m.run s = ⟨.err e, r, t⟩) :
    (m >>= f).run s = ⟨.err e, r, t⟩ := by
  simp only [Bind.bind, Prog.bind, h]

theorem bind_of_panicked {r : σ} {t : List τ} (h : m.run s = ⟨.panicked, r, t⟩) :
    (m >>= f).run s = ⟨.panicked, r, t⟩ := by
  simp only [Bind.bind, Prog.bind, h]

theorem bind_of_ok_nil {a : α} {r : σ} (h : m.run s = ⟨.ok a, r, []⟩) :
    (m >>= f).run s = (f a).run r := by
  rw [bind_of_ok h]; rfl

theorem ofExcept_ok_bind {a : α} : (ofExcept (.ok a) >>= f : Prog σ τ ε β) = f a := rfl

theorem ofExcept_error_bind {e : ε} : (ofExcept (.error e) >>= f : Prog σ τ ε β) = throw e := rfl

theorem orThrow_some_bind {a : α} {e : ε} : (orThrow (some a) e >>= f : Prog σ τ ε β) = f a := rfl

theorem orThrow_none_bind {e : ε} : (orThrow none e >>= f : Prog σ τ ε β) = throw e := rfl

theorem bind_assoc {γ : Type} (m : Prog σ τ ε α) (f : α → Prog σ τ ε β) (g : β → Prog σ τ ε γ) :
    m >>= f >>= g = m >>= fun a => f a >>= g := by
  have hrun : ∀ s, (m >>= f >>= g).run s = (m >>= fun a => f a >>= g).run s := by
    intro s
    cases hm : m.run s with
    | mk exit s' t =>
      cases exit with
      | ok a =>
        rw [bind_of_ok (f := fun a => f a >>= g) hm]
        cases hf : (f a).run s' with
        | mk exit' s'' t' =>
          have hfirst : (m >>= f).run s = ⟨exit', s'', t ++ t'⟩ := by rw [bind_of_ok hm, hf]
          cases exit' with
          | ok b => rw [bind_of_ok hfirst, bind_of_ok hf, List.append_assoc]
          | err e => rw [bind_of_err hfirst, bind_of_err hf]
          | panicked => rw [bind_of_panicked hfirst, bind_of_panicked hf]
      | err e => rw [bind_of_err (bind_of_err hm), bind_of_err hm]
      | panicked => rw [bind_of_panicked (bind_of_panicked hm), bind_of_panicked hm]
  exact congrArg Prog.mk (funext hrun)

/-! ## The program logic -/

/-- The assertion of the exit that was taken, on the last state. -/
def Ends (Q : α → σ → Prop) (E : ε → σ → Prop) (U : σ → Prop) : Exit ε α → σ → Prop
  | .ok a, s => Q a s
  | .err e, s => E e s
  | .panicked, s => U s

/-- **From `s`, `m` follows `Step`** and ends with `Q`, `E` or `U`. -/
def Follows (Step : σ → List τ → σ → Prop) (m : Prog σ τ ε α) (Q : α → σ → Prop)
    (E : ε → σ → Prop) (U : σ → Prop) (s : σ) : Prop :=
  Steps Step s (m.run s).trace (m.run s).state ∧ Ends Q E U (m.run s).exit (m.run s).state

namespace Follows

variable {Step : σ → List τ → σ → Prop} {Q M : α → σ → Prop} {E F : ε → σ → Prop}
  {U V : σ → Prop} {R : β → σ → Prop}

theorem mono (h : Follows Step m M F V s) (hQ : ∀ a s', M a s' → Q a s')
    (hE : ∀ e s', F e s' → E e s') (hU : ∀ s', V s' → U s') : Follows Step m Q E U s := by
  obtain ⟨hpath, hends⟩ := h
  refine ⟨hpath, ?_⟩
  cases hexit : (m.run s).exit with
  | ok a => rw [hexit] at hends; exact hQ _ _ hends
  | err e => rw [hexit] at hends; exact hE _ _ hends
  | panicked => rw [hexit] at hends; exact hU _ hends

/-- Before each step of the path, what every step keeps is there. -/
theorem guarded {I : σ → Prop} (h : Follows Step m Q E U s)
    (hstep : ∀ s t s', I s → Step s t s' → I s') (hI : I s) :
    Follows (fun s t s' => I s ∧ Step s t s') m Q E U s :=
  ⟨h.1.guarded hstep hI, h.2⟩

/-- What every path from `s` gives, the assertions may use. -/
theorem along {P : σ → Prop} (h : Follows Step m Q E U s) (hP : ∀ t s', Steps Step s t s' → P s') :
    Follows Step m (fun a s' => Q a s' ∧ P s') (fun e s' => E e s' ∧ P s')
      (fun s' => U s' ∧ P s') s := by
  obtain ⟨hpath, hends⟩ := h
  refine ⟨hpath, ?_⟩
  have hlast := hP _ _ hpath
  cases hexit : (m.run s).exit <;> rw [hexit] at hends <;> exact ⟨hends, hlast⟩

theorem pure {a : α} (h : Q a s) : Follows Step (Pure.pure a) Q E U s := ⟨.nil s, h⟩

theorem throw {e : ε} (h : E e s) : Follows Step (throw e : Prog σ τ ε α) Q E U s := ⟨.nil s, h⟩

theorem panic (h : U s) : Follows Step (panic : Prog σ τ ε α) Q E U s := ⟨.nil s, h⟩

theorem read {g : σ → α} (h : Q (g s) s) : Follows Step (read g) Q E U s := ⟨.nil s, h⟩

theorem modify {u : σ → σ} {Q : Unit → σ → Prop} (hstep : Step s [] (u s)) (h : Q () (u s)) :
    Follows Step (modify u) Q E U s := ⟨.single hstep, h⟩

theorem emit {e : σ → τ} {Q : Unit → σ → Prop} (hstep : Step s [e s] s) (h : Q () s) :
    Follows Step (emit e) Q E U s := ⟨.single hstep, h⟩

theorem act {e : σ → τ} {u : σ → σ} {Q : Unit → σ → Prop} (hstep : Step s [e s] (u s))
    (h : Q () (u s)) : Follows Step (act e u) Q E U s := ⟨.single hstep, h⟩

theorem require {c : Prop} [Decidable c] {e : ε} {Q : Unit → σ → Prop} (h : c → Q () s)
    (he : ¬ c → E e s) : Follows Step (require c e) Q E U s := by
  unfold Prog.require
  split
  · exact pure (h ‹c›)
  · exact throw (he ‹¬ c›)

theorem ofExcept {x : Except ε α} (h : ∀ a, x = .ok a → Q a s)
    (he : ∀ e, x = .error e → E e s) : Follows Step (ofExcept x) Q E U s := by
  cases x with
  | ok a => exact pure (h a rfl)
  | error e => exact throw (he e rfl)

theorem orThrow {o : Option α} {e : ε} (h : ∀ a, o = some a → Q a s) (he : o = none → E e s) :
    Follows Step (orThrow o e) Q E U s := by
  cases o with
  | some a => exact pure (h a rfl)
  | none => exact throw (he rfl)

theorem orPanic {o : Option α} (h : ∀ a, o = some a → Q a s) (hp : o = none → U s) :
    Follows Step (orPanic o) Q E U s := by
  cases o with
  | some a => exact pure (h a rfl)
  | none => exact panic (hp rfl)

/-- **Sequencing**. -/
theorem bind (hm : Follows Step m M E U s)
    (hf : ∀ a s', M a s' → Follows Step (f a) R E U s') : Follows Step (m >>= f) R E U s := by
  obtain ⟨hpath, hends⟩ := hm
  cases hres : m.run s with
  | mk exit s' t =>
    rw [hres] at hpath hends
    cases exit with
    | ok a =>
      obtain ⟨hpath', hends'⟩ := hf a s' hends
      rw [Follows, bind_of_ok hres]
      exact ⟨hpath.trans hpath', hends'⟩
    | err e => rw [Follows, bind_of_err hres]; exact ⟨hpath, hends⟩
    | panicked => rw [Follows, bind_of_panicked hres]; exact ⟨hpath, hends⟩

/-! What a program that leaves the state alone finds out is known to the rest. -/

theorem bind_read {g : σ → α} (h : Follows Step (f (g s)) R E U s) :
    Follows Step (Prog.read g >>= f) R E U s :=
  bind (M := fun a s' => a = g s ∧ s' = s) (read ⟨rfl, rfl⟩) (by rintro _ _ ⟨rfl, rfl⟩; exact h)

theorem bind_modify {u : σ → σ} {f : Unit → Prog σ τ ε β} (hstep : Step s [] (u s))
    (h : Follows Step (f ()) R E U (u s)) : Follows Step (Prog.modify u >>= f) R E U s :=
  bind (M := fun _ s' => s' = u s) (modify hstep rfl) (by rintro _ _ rfl; exact h)

theorem bind_emit {e : σ → τ} {f : Unit → Prog σ τ ε β} (hstep : Step s [e s] s)
    (h : Follows Step (f ()) R E U s) : Follows Step (Prog.emit e >>= f) R E U s :=
  bind (M := fun _ s' => s' = s) (emit hstep rfl) (by rintro _ _ rfl; exact h)

theorem bind_act {e : σ → τ} {u : σ → σ} {f : Unit → Prog σ τ ε β} (hstep : Step s [e s] (u s))
    (h : Follows Step (f ()) R E U (u s)) : Follows Step (Prog.act e u >>= f) R E U s :=
  bind (M := fun _ s' => s' = u s) (act hstep rfl) (by rintro _ _ rfl; exact h)

theorem bind_require {c : Prop} [Decidable c] {e : ε} {f : Unit → Prog σ τ ε β}
    (h : c → Follows Step (f ()) R E U s) (he : ¬ c → E e s) :
    Follows Step (Prog.require c e >>= f) R E U s :=
  bind (M := fun _ s' => c ∧ s' = s) (require (fun hc => ⟨hc, rfl⟩) he)
    (by rintro _ _ ⟨hc, rfl⟩; exact h hc)

theorem bind_ofExcept {x : Except ε α} (h : ∀ a, x = .ok a → Follows Step (f a) R E U s)
    (he : ∀ e, x = .error e → E e s) : Follows Step (Prog.ofExcept x >>= f) R E U s :=
  bind (M := fun a s' => x = .ok a ∧ s' = s) (ofExcept (fun _ hx => ⟨hx, rfl⟩) he)
    (by rintro a _ ⟨hx, rfl⟩; exact h a hx)

theorem bind_orThrow {o : Option α} {e : ε} (h : ∀ a, o = some a → Follows Step (f a) R E U s)
    (he : o = none → E e s) : Follows Step (Prog.orThrow o e >>= f) R E U s :=
  bind (M := fun a s' => o = some a ∧ s' = s) (orThrow (fun _ ho => ⟨ho, rfl⟩) he)
    (by rintro a _ ⟨ho, rfl⟩; exact h a ho)

theorem bind_orPanic {o : Option α} (h : ∀ a, o = some a → Follows Step (f a) R E U s)
    (hp : o = none → U s) : Follows Step (Prog.orPanic o >>= f) R E U s :=
  bind (M := fun a s' => o = some a ∧ s' = s) (orPanic (fun _ ho => ⟨ho, rfl⟩) hp)
    (by rintro a _ ⟨ho, rfl⟩; exact h a ho)

theorem attempt {Q : Except ε α → σ → Prop} {E : ε' → σ → Prop}
    (h : Follows Step m (fun a => Q (.ok a)) (fun e => Q (.error e)) U s) :
    Follows Step (attempt m) Q E U s := by
  obtain ⟨hpath, hends⟩ := h
  cases hres : m.run s with
  | mk exit s' t =>
    rw [hres] at hpath hends
    cases exit <;> simp only [Follows, Prog.attempt, hres] <;> exact ⟨hpath, hends⟩

/-- What goes on after an attempt goes on after each way in which the attempt ends. -/
theorem bind_attempt {f : Except ε α → Prog σ τ ε' β} {Q : α → σ → Prop} {F : ε → σ → Prop}
    {E : ε' → σ → Prop} (h : Follows Step m Q F U s)
    (hok : ∀ a s', Q a s' → Follows Step (f (.ok a)) R E U s')
    (herror : ∀ e s', F e s' → Follows Step (f (.error e)) R E U s') :
    Follows Step (Prog.attempt m >>= f) R E U s := by
  refine bind (M := fun result s' => (∃ a, result = .ok a ∧ Q a s') ∨
      ∃ e, result = .error e ∧ F e s') (attempt (h.mono ?_ ?_ fun _ hu => hu)) ?_
  · exact fun a _ hq => .inl ⟨a, rfl, hq⟩
  · exact fun e _ he => .inr ⟨e, rfl, he⟩
  · rintro _ s' (⟨a, rfl, hq⟩ | ⟨e, rfl, he⟩)
    · exact hok a s' hq
    · exact herror e s' he

theorem mapErr {g : ε → ε'} {E : ε' → σ → Prop}
    (h : Follows Step m Q (fun e => E (g e)) U s) : Follows Step (mapErr g m) Q E U s := by
  obtain ⟨hpath, hends⟩ := h
  cases hres : m.run s with
  | mk exit s' t =>
    rw [hres] at hpath hends
    cases exit <;> simp only [Follows, Prog.mapErr, hres] <;> exact ⟨hpath, hends⟩

/-- A cleanup that is a path without events. -/
theorem cleanedUp {cleanup : σ → σ} (hclean : ∀ s', Steps Step s' [] (cleanup s'))
    (h : Follows Step m (fun a s' => Q a (cleanup s')) (fun e s' => E e (cleanup s'))
      (fun s' => U (cleanup s')) s) : Follows Step (cleanedUp m cleanup) Q E U s := by
  obtain ⟨hpath, hends⟩ := h
  have hpath' := hpath.trans (hclean _)
  rw [List.append_nil] at hpath'
  refine ⟨hpath', ?_⟩
  cases hexit : (m.run s).exit <;> rw [hexit] at hends <;>
    simp only [Prog.cleanedUp, hexit] <;> exact hends

/-- A part of the state that follows its own relation moves the whole along. -/
theorem zoom {get : σ → ρ} {put : σ → ρ → σ} {StepR : ρ → List τ → ρ → Prop}
    {m : Prog ρ τ ε α} {Q : α → ρ → Prop} {E : ε → ρ → Prop} {U : ρ → Prop}
    (hput : put s (get s) = s)
    (hstep : ∀ r t r', StepR r t r' → Step (put s r) t (put s r'))
    (h : Follows StepR m Q E U (get s)) :
    Follows Step (zoom get put m) (fun a s' => ∃ r, s' = put s r ∧ Q a r)
      (fun e s' => ∃ r, s' = put s r ∧ E e r) (fun s' => ∃ r, s' = put s r ∧ U r) s := by
  obtain ⟨hpath, hends⟩ := h
  have hpath := hpath.map (put s) hstep
  rw [hput] at hpath
  refine ⟨hpath, ?_⟩
  cases hexit : (m.run (get s)).exit <;> rw [hexit] at hends <;>
    simp only [Prog.zoom, hexit] <;> exact ⟨_, rfl, hends⟩

end Follows

/-! ## Programs that only look -/

/-- `m` leaves the state alone, and no trace. -/
class Quiet (m : Prog σ τ ε α) : Prop where
  looks : ∀ s, ∃ exit, m.run s = ⟨exit, s, []⟩

namespace Quiet

instance pure {a : α} : Quiet (Pure.pure a : Prog σ τ ε α) := ⟨fun _ => ⟨_, rfl⟩⟩

instance purely {a : α} : Quiet (Prog.pure a : Prog σ τ ε α) := ⟨fun _ => ⟨_, rfl⟩⟩

instance throw {e : ε} : Quiet (throw e : Prog σ τ ε α) := ⟨fun _ => ⟨_, rfl⟩⟩

instance panic : Quiet (panic : Prog σ τ ε α) := ⟨fun _ => ⟨_, rfl⟩⟩

instance read {g : σ → α} : Quiet (read g : Prog σ τ ε α) := ⟨fun _ => ⟨_, rfl⟩⟩

instance ite {c : Prop} [Decidable c] {n : Prog σ τ ε α} [Quiet m] [Quiet n] :
    Quiet (if c then m else n) := by
  split <;> infer_instance

instance require {c : Prop} [Decidable c] {e : ε} :
    Quiet (require c e : Prog σ τ ε Unit) := by
  unfold Prog.require
  infer_instance

instance ofExcept {x : Except ε α} : Quiet (ofExcept x : Prog σ τ ε α) := by
  cases x
  · exact throw
  · exact purely

instance orThrow {o : Option α} {e : ε} : Quiet (orThrow o e : Prog σ τ ε α) := by
  cases o
  · exact throw
  · exact purely

instance orPanic {o : Option α} : Quiet (orPanic o : Prog σ τ ε α) := by
  cases o
  · exact panic
  · exact purely

instance ofExit {x : Exit ε α} : Quiet (ofExit x : Prog σ τ ε α) := by
  cases x
  · exact purely
  · exact throw
  · exact panic

instance bind [hm : Quiet m] [hf : ∀ a, Quiet (f a)] : Quiet (m >>= f) := by
  constructor
  intro s
  obtain ⟨exit, hrun⟩ := hm.looks s
  cases exit with
  | ok a =>
    obtain ⟨exit, hrun'⟩ := (hf a).looks s
    exact ⟨exit, by rw [bind_of_ok_nil hrun, hrun']⟩
  | err e => exact ⟨.err e, bind_of_err hrun⟩
  | panicked => exact ⟨.panicked, bind_of_panicked hrun⟩

instance mapErr {g : ε → ε'} [hm : Quiet m] : Quiet (mapErr g m) := by
  constructor
  intro s
  obtain ⟨exit, hrun⟩ := hm.looks s
  cases exit <;> simp only [Prog.mapErr, hrun] <;> exact ⟨_, rfl⟩

instance attempt [hm : Quiet m] : Quiet (attempt m : Prog σ τ ε' (Except ε α)) := by
  constructor
  intro s
  obtain ⟨exit, hrun⟩ := hm.looks s
  cases exit <;> simp only [Prog.attempt, hrun] <;> exact ⟨_, rfl⟩

end Quiet

/-- **From `s`, `m` only looks**, and what it returns satisfies `P`. -/
def Finds (m : Prog σ τ ε α) (P : α → Prop) (s : σ) : Prop :=
  ∃ exit, m.run s = ⟨exit, s, []⟩ ∧ ∀ a, exit = .ok a → P a

namespace Finds

variable {P : α → Prop} {R : β → Prop}

theorem quiet [hm : Quiet m] : Finds m (fun _ => True) s := by
  obtain ⟨exit, hrun⟩ := hm.looks s
  exact ⟨exit, hrun, fun _ _ => trivial⟩

theorem pure {a : α} (h : P a) : Finds (Pure.pure a : Prog σ τ ε α) P s :=
  ⟨_, rfl, by rintro _ ⟨⟩; exact h⟩

theorem throw {e : ε} : Finds (throw e : Prog σ τ ε α) P s := ⟨_, rfl, by rintro _ ⟨⟩⟩

theorem require {c : Prop} [Decidable c] {e : ε} :
    Finds (require c e : Prog σ τ ε Unit) (fun _ => c) s := by
  unfold Prog.require
  split
  · exact pure ‹c›
  · exact throw

theorem orThrow {o : Option α} {e : ε} :
    Finds (orThrow o e : Prog σ τ ε α) (fun a => o = some a) s := by
  cases o with
  | some a => exact pure rfl
  | none => exact throw

theorem mapErr {g : ε → ε'} (h : Finds m P s) : Finds (Prog.mapErr g m) P s := by
  obtain ⟨exit, hrun, hexit⟩ := h
  cases exit with
  | ok a =>
    refine ⟨.ok a, by simp only [Prog.mapErr, hrun], ?_⟩
    rintro _ ⟨⟩
    exact hexit a rfl
  | err e => exact ⟨.err (g e), by simp only [Prog.mapErr, hrun], by rintro _ ⟨⟩⟩
  | panicked => exact ⟨.panicked, by simp only [Prog.mapErr, hrun], by rintro _ ⟨⟩⟩

theorem mono {P' : α → Prop} (h : Finds m P' s) (hP : ∀ a, P' a → P a) : Finds m P s := by
  obtain ⟨exit, hrun, hexit⟩ := h
  exact ⟨exit, hrun, fun a ha => hP a (hexit a ha)⟩

theorem bind {f : α → Prog σ τ ε β} (hm : Finds m P s) (hf : ∀ a, P a → Finds (f a) R s) :
    Finds (m >>= f) R s := by
  obtain ⟨exit, hrun, hexit⟩ := hm
  cases exit with
  | ok a =>
    obtain ⟨exit, hrun', hexit'⟩ := hf a (hexit a rfl)
    exact ⟨exit, by rw [bind_of_ok_nil hrun, hrun'], hexit'⟩
  | err e => exact ⟨.err e, bind_of_err hrun, by rintro _ ⟨⟩⟩
  | panicked => exact ⟨.panicked, bind_of_panicked hrun, by rintro _ ⟨⟩⟩

theorem bind_read {g : σ → α} {f : α → Prog σ τ ε β} (h : Finds (f (g s)) R s) :
    Finds (Prog.read g >>= f) R s := h

end Finds

namespace Follows

variable {Step : σ → List τ → σ → Prop} {Q : α → σ → Prop} {E : ε → σ → Prop} {U : σ → Prop}
  {R : β → σ → Prop} {P : α → Prop}

/-- A program that only looks ends anyhow where it started. -/
theorem finds (hm : Finds m P s) (hQ : ∀ a, P a → Q a s) (hE : ∀ e, E e s) (hU : U s) :
    Follows Step m Q E U s := by
  obtain ⟨exit, hrun, hexit⟩ := hm
  rw [Follows, hrun]
  refine ⟨.nil s, ?_⟩
  cases exit with
  | ok a => exact hQ a (hexit a rfl)
  | err e => exact hE e
  | panicked => exact hU

/-- What comes after a program that only looks starts from the same state, and knows
    what that found. -/
theorem bind_finds (hm : Finds m P s) (hf : ∀ a, P a → Follows Step (f a) R E U s)
    (hE : ∀ e, E e s) (hU : U s) : Follows Step (m >>= f) R E U s :=
  bind (M := fun a s' => P a ∧ s' = s) (finds hm (fun _ ha => ⟨ha, rfl⟩) hE hU)
    (by rintro a _ ⟨ha, rfl⟩; exact hf a ha)

theorem quiet [Quiet m] (hQ : ∀ a, Q a s) (hE : ∀ e, E e s) (hU : U s) :
    Follows Step m Q E U s := finds .quiet (fun a _ => hQ a) hE hU

theorem bind_quiet [Quiet m] (hf : ∀ a, Follows Step (f a) R E U s) (hE : ∀ e, E e s)
    (hU : U s) : Follows Step (m >>= f) R E U s := bind_finds .quiet (fun a _ => hf a) hE hU

end Follows

end Prog
