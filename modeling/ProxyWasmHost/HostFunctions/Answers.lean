/-
  What a host function answers: OK exactly when its body returns.
-/
import ProxyWasmHost.HostFunctions.Serves

namespace ProxyWasmHost

open Prog

variable {h h' : HostState} {α β : Type}

/-! ## The answer of a body -/

section Complete

variable {body : Body Unit} {t : List Event}

theorem complete_of_ok (hbody : body.run h = ⟨.ok (), h', t⟩) :
    (complete body).run h = ⟨.ok Status.ok.toI32, h', t⟩ := by
  have hattempt : (Prog.attempt body : Host (Except Failure Unit)).run h = ⟨.ok (.ok ()), h', t⟩ := by
    simp only [Prog.attempt, hbody]
  rw [complete, bind_of_ok hattempt]
  simp [Pure.pure, Prog.pure]

theorem complete_of_status {status : Status} (hbody : body.run h = ⟨.err (.status status), h', t⟩) :
    (complete body).run h = ⟨.ok status.toI32, h', t⟩ := by
  have hattempt : (Prog.attempt body : Host (Except Failure Unit)).run h =
      ⟨.ok (.error (.status status)), h', t⟩ := by
    simp only [Prog.attempt, hbody]
  rw [complete, bind_of_ok hattempt]
  simp [Pure.pure, Prog.pure]

theorem complete_of_unwind {error : Error} {unwinds : error.unwinds}
    (hbody : body.run h = ⟨.err (.unwind error unwinds), h', t⟩) :
    (complete body).run h = ⟨.err error, h', t⟩ := by
  have hattempt : (Prog.attempt body : Host (Except Failure Unit)).run h =
      ⟨.ok (.error (.unwind error unwinds)), h', t⟩ := by
    simp only [Prog.attempt, hbody]
  rw [complete, bind_of_ok hattempt]
  simp [Prog.throw]

theorem complete_of_panicked (hbody : body.run h = ⟨.panicked, h', t⟩) :
    (complete body).run h = ⟨.panicked, h', t⟩ := by
  have hattempt : (Prog.attempt body : Host (Except Failure Unit)).run h = ⟨.panicked, h', t⟩ := by
    simp only [Prog.attempt, hbody]
  rw [complete, bind_of_panicked hattempt]

theorem Status.toI32_eq_ok {status : Status} :
    status.toI32 = Status.ok.toI32 ↔ status = .ok := by
  cases status <;> decide

/-- The guest finds the state and the trace that the body left. -/
theorem complete_leaves (body : Body Unit) (h : HostState) :
    ((complete body).run h).state = (body.run h).state ∧
      ((complete body).run h).trace = (body.run h).trace := by
  cases hbody : body.run h with
  | mk exit h' t =>
    rcases exit with ⟨⟩ | (_ | _) | _
    · rw [complete_of_ok hbody]
      exact ⟨rfl, rfl⟩
    · rw [complete_of_status hbody]
      exact ⟨rfl, rfl⟩
    · rw [complete_of_unwind hbody]
      exact ⟨rfl, rfl⟩
    · rw [complete_of_panicked hbody]
      exact ⟨rfl, rfl⟩

end Complete

/-! ## Bodies that fail with a refusal -/

/-- A status that is a refusal. -/
class Refusal (status : Status) : Prop where
  ne_ok : status ≠ .ok

section Statuses

instance : Refusal .notFound := ⟨by decide⟩

instance : Refusal .badArgument := ⟨by decide⟩

instance : Refusal .serializationFailure := ⟨by decide⟩

instance : Refusal .parseFailure := ⟨by decide⟩

instance : Refusal .invalidMemoryAccess := ⟨by decide⟩

instance : Refusal .internalFailure := ⟨by decide⟩

instance : Refusal .unimplemented := ⟨by decide⟩

end Statuses

/-- **An honest body** fails with a refusal, never with OK. -/
class Honest (m : Body α) : Prop where
  honest : ∀ h, (m.run h).exit ≠ .err (.status .ok)

/-- **An honest body answers OK exactly when it returns.** -/
theorem complete_ok_iff {body : Body Unit} [hbody : Honest body] :
    ((complete body).run h).exit = .ok Status.ok.toI32 ↔ (body.run h).exit = .ok () := by
  have hhonest := hbody.honest h
  cases hrun : body.run h with
  | mk exit h' t =>
    rw [hrun] at hhonest
    rcases exit with ⟨⟩ | (status | _) | _
    · rw [complete_of_ok hrun]
      exact iff_of_true rfl rfl
    · rw [complete_of_status hrun]
      refine iff_of_false (fun hok => hhonest ?_) (by rintro ⟨⟩)
      rw [Status.toI32_eq_ok.1 (Exit.ok.inj hok)]
    · rw [complete_of_unwind hrun]
      exact iff_of_false (by rintro ⟨⟩) (by rintro ⟨⟩)
    · rw [complete_of_panicked hrun]
      exact iff_of_false (by rintro ⟨⟩) (by rintro ⟨⟩)

namespace Honest

variable {m : Body α} {f : α → Body β}

instance pure {a : α} : Honest (Pure.pure a : Body α) := ⟨by rintro h ⟨⟩⟩

instance purely {a : α} : Honest (Prog.pure a : Body α) := ⟨by rintro h ⟨⟩⟩

instance read {g : HostState → α} : Honest (Prog.read g : Body α) := ⟨by rintro h ⟨⟩⟩

instance modify {u : HostState → HostState} : Honest (Prog.modify u : Body Unit) :=
  ⟨by rintro h ⟨⟩⟩

instance emit {e : HostState → Event} : Honest (Prog.emit e : Body Unit) := ⟨by rintro h ⟨⟩⟩

instance act {e : HostState → Event} {u : HostState → HostState} :
    Honest (Prog.act e u : Body Unit) := ⟨by rintro h ⟨⟩⟩

instance orPanic {o : Option α} : Honest (Prog.orPanic o : Body α) := by
  cases o <;> exact ⟨by rintro h ⟨⟩⟩

instance bind [hm : Honest m] [hf : ∀ a, Honest (f a)] : Honest (m >>= f) := by
  refine ⟨fun h => ?_⟩
  have hfirst := hm.honest h
  cases hrun : m.run h with
  | mk exit h' t =>
    rw [hrun] at hfirst
    cases exit with
    | ok a =>
      rw [bind_of_ok hrun]
      exact (hf a).honest h'
    | err e =>
      rw [bind_of_err hrun]
      rintro ⟨⟩
      exact hfirst rfl
    | panicked =>
      rw [bind_of_panicked hrun]
      rintro ⟨⟩

theorem andThen (hm : Honest m) (hf : ∀ a, Honest (f a)) : Honest (m >>= f) := bind

instance ite {c : Prop} [Decidable c] {n : Body α} [Honest m] [Honest n] :
    Honest (if c then m else n) := by
  split <;> infer_instance

instance fail {status : Status} [hstatus : Refusal status] :
    Honest (ProxyWasmHost.fail status : Body α) := by
  refine ⟨fun h hexit => ?_⟩
  cases hexit
  exact hstatus.ne_ok rfl

instance ofExcept {ε : Type} {x : Except ε α} {status : Status} [hstatus : Refusal status] :
    Honest (Prog.ofExcept (x.mapError fun _ => Failure.status status) : Body α) := by
  cases x with
  | ok a => exact purely
  | error e => exact fail

instance ofExit {ε : Type} {x : Exit ε α} {status : Status} [Refusal status] :
    Honest (Prog.mapErr (fun _ => Failure.status status) (Prog.ofExit x) : Body α) := by
  cases x with
  | ok a => exact purely
  | err e => exact fail
  | panicked => exact ⟨fun _ => nofun⟩

instance orStatus {o : Option α} {status : Status} [Refusal status] :
    Honest (ProxyWasmHost.orStatus o status) := by
  cases o with
  | some a => exact purely
  | none => exact fail

instance require {c : Prop} [Decidable c] {status : Status} [Refusal status] :
    Honest (ProxyWasmHost.require c status) := by
  unfold ProxyWasmHost.require Prog.require
  split
  · exact purely
  · exact fail

instance checked {access : Except MemoryError α} : Honest (ProxyWasmHost.checked access) :=
  ofExcept

instance fromEmbedder {answer : Except Status α} : Honest (ProxyWasmHost.fromEmbedder answer) := by
  unfold ProxyWasmHost.fromEmbedder
  split
  · exact purely
  · exact fail
  · rename_i status hne
    exact ⟨fun h hexit => by cases hexit; exact hne rfl⟩

/-- No error of host code is answered OK. -/
instance mapErr {m : Host α} : Honest (Prog.mapErr Failure.ofError m) := by
  refine ⟨fun h => ?_⟩
  cases hrun : m.run h with
  | mk exit h' t =>
    simp only [Prog.mapErr, hrun]
    cases exit with
    | ok a => rintro ⟨⟩
    | err e => cases e <;> rintro ⟨⟩
    | panicked => rintro ⟨⟩

end Honest

/-! ## Bodies that decline -/

/-- **From `h`, `m` declines**: it does not return, and leaves the state and no trace. -/
def Declines (m : Body α) (h : HostState) : Prop :=
  ∃ exit, m.run h = ⟨exit, h, []⟩ ∧ ∀ a, exit ≠ .ok a

namespace Declines

variable {m : Body α} {f : α → Body β}

theorem of_fail {status : Status} : Declines (fail status : Body α) h := ⟨_, rfl, by rintro a ⟨⟩⟩

/-- A look, after which the rest declines. -/
theorem bind [hm : Quiet m] (hf : ∀ a, m.run h = ⟨.ok a, h, []⟩ → Declines (f a) h) :
    Declines (m >>= f) h := by
  obtain ⟨exit, hrun⟩ := hm.looks h
  cases exit with
  | ok a =>
    obtain ⟨exit, hrest, hexit⟩ := hf a hrun
    exact ⟨exit, by rw [bind_of_ok_nil hrun, hrest], hexit⟩
  | err e => exact ⟨_, bind_of_err hrun, by rintro a ⟨⟩⟩
  | panicked => exact ⟨_, bind_of_panicked hrun, by rintro a ⟨⟩⟩

/-- What declines at once, whatever comes after it. -/
theorem andThen (hm : Declines m h) : Declines (m >>= f) h := by
  obtain ⟨exit, hrun, hexit⟩ := hm
  cases exit with
  | ok a => exact absurd rfl (hexit a)
  | err e => exact ⟨_, bind_of_err hrun, by rintro a ⟨⟩⟩
  | panicked => exact ⟨_, bind_of_panicked hrun, by rintro a ⟨⟩⟩

/-- The guest gets no OK from a body that declines, and nothing has happened. -/
theorem refused {body : Body Unit} [Honest body] (hbody : Declines body h) :
    ∃ exit, (complete body).run h = ⟨exit, h, []⟩ ∧ exit ≠ .ok Status.ok.toI32 := by
  obtain ⟨exit, hrun, hexit⟩ := hbody
  obtain ⟨hstate, htrace⟩ := complete_leaves body h
  have hnot : ((complete body).run h).exit ≠ .ok Status.ok.toI32 := by
    rw [Ne, complete_ok_iff, hrun]
    exact hexit ()
  rw [hrun] at hstate htrace
  cases hcomplete : (complete body).run h with
  | mk exit' h' t =>
    rw [hcomplete] at hstate htrace hnot
    obtain rfl : h' = h := hstate
    obtain rfl : t = [] := htrace
    exact ⟨exit', rfl, hnot⟩

end Declines

/-! ## What the looks of a body find -/

theorem split_run {memory : Bytes} (hmem : h.memory = some memory) :
    split.run h = ⟨.ok memory, h, []⟩ := by
  have hhost : hostSplit.run h = ⟨.ok memory, h, []⟩ := by
    refine (bind_of_ok_nil (a := h.memory) (r := h) rfl).trans ?_
    rw [hmem]
    rfl
  simp only [split, Prog.mapErr, hhost]

theorem memory_of_split {memory : Bytes} (hsplit : split.run h = ⟨.ok memory, h, []⟩) :
    h.memory = some memory := by
  cases hmem : h.memory with
  | none =>
    have hnone : split.run h = ⟨.err (Failure.ofError .missingMemory), h, []⟩ := by
      simp [split, hostSplit, Prog.mapErr, Bind.bind, Prog.bind, Prog.read, hmem, Prog.orThrow,
        Prog.throw]
    rw [hnone] at hsplit
    cases hsplit
  | some memory' =>
    rw [split_run hmem] at hsplit
    cases hsplit
    rfl

theorem ok_of_checked {access : Except MemoryError α} {a : α}
    (hrun : (checked access).run h = ⟨.ok a, h, []⟩) : access = .ok a := by
  cases access with
  | error e => cases hrun
  | ok b =>
    cases hrun
    rfl

theorem context_run {absent : Status} {c : ContextId} (hc : h.abi.context = some c) :
    (context absent).run h = ⟨.ok c, h, []⟩ := by
  refine (bind_of_ok_nil (a := h.abi.context) (r := h) rfl).trans ?_
  rw [hc]
  rfl

end ProxyWasmHost
