/-
  Guest code follows `HostStep`, and a guest call that fails poisons the state.
-/
import ProxyWasmHost.Guest.Code
import ProxyWasmHost.HostFunctions.TableServes

namespace ProxyWasmHost

open Prog

/-- **Guest code follows `HostStep`**, whatever it calls and whatever its allocator
    does. -/
theorem Code.exec_runs (code : Code) : GuestRuns code.exec := by
  induction code with
  | ret memory value => exact ⟨fun h live => .bind_modify (.memory h _ _) (.pure live)⟩
  | unwind fault => exact ⟨fun h live => .throw (by cases fault <;> rfl)⟩
  | call memory function world allocator next ihAllocator ihNext =>
    refine ⟨fun h live => ?_⟩
    have henv : AllocatorRuns ⟨world, fun size => (allocator size).exec⟩ := ⟨ihAllocator⟩
    unfold exec
    refine .bind_modify (.memory h _ _) (.bind_emit (.called live) ?_)
    refine .bind ((hostCall_runs function).follows _ live) fun answer h' live' => ?_
    exact .bind_read ((ihNext answer _).follows h' live')

/-- A guest call poisons the state exactly when it fails, and then its error unwinds. -/
theorem callTyped_follows (code : Code) (h : HostState) :
    Follows HostStep (callTyped code) (fun _ h' => h'.poisoned = false)
      (fun e h' => h'.poisoned = true ∧ e.unwinds = true) (fun _ => True) h := by
  unfold callTyped
  refine .bind_read (.bind_require (fun live => ?_) fun hpoisoned => ⟨by simpa using hpoisoned, rfl⟩)
  have live : h.poisoned = false := by simpa using live
  refine .bind_attempt (code.exec_runs.follows h live) ?_ ?_
  · exact fun _ _ hlive => .pure hlive
  · exact fun _ h' hunwinds => .bind_modify (.poison h') (.throw ⟨rfl, hunwinds⟩)

end ProxyWasmHost
