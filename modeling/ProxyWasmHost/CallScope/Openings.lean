/-
  What one step of a guest does to its open callouts, and the events that tell it.
-/
import ProxyWasmHost.CallScope.Step
import ProxyWasmHost.Lib.TreeMap
import ProxyWasmHost.Callout.Reserve

namespace ProxyWasmHost

open Std

/-! ## What keeps the callouts -/

namespace AbiState

@[simp] theorem callouts_removeContext (abi : AbiState) (c : ContextId) (isRoot : Bool) :
    (abi.removeContext c isRoot).callouts = abi.callouts := by
  cases isRoot <;> rfl

end AbiState

/-- Whether an event tells of the table of the callouts. -/
def Event.ofCallouts : Event → Bool
  | .callout _ _ _ _ _ | .ended _ _ | .dropped _ => true
  | _ => false

/-! ## Moves of the table -/

/-- **What one step does to the callouts** of `h`, and how its events tell it. -/
inductive CalloutTable.Moves (h : HostState) : List Event → CalloutTable → Prop
  | kept {t : List Event} (silent : ∀ e ∈ t, e.ofCallouts = false) : Moves h t h.abi.callouts
  | opened {service : ServiceId} {call : Invocation} {id : CalloutId} {op : CalloutOp}
      {kind : CalloutKind} {c root : ContextId} {reserved : CalloutTable}
      (answer : Answer (Except Status Unit)) (live : h.poisoned = false)
      (room : h.abi.callouts.len < h.limits.maxOpenCallouts)
      (reserve : h.abi.callouts.reserve = some (id, reserved)) (opens : op.opens = some kind) :
      Moves h [.callout service call id op answer]
        (if accepts answer then reserved.enter id (.new kind c root) else reserved)
  | told {service : ServiceId} {call : Invocation} {id : CalloutId} {op : CalloutOp}
      {answer : Answer (Except Status Unit)} (opens : op.opens = none)
      (stays : op ≠ .grpcCancel) : Moves h [.callout service call id op answer] h.abi.callouts
  | closed {service : ServiceId} {call : Invocation} {id : CalloutId} {op : CalloutOp}
      {answer : Answer (Except Status Unit)} (opens : op.opens = none)
      (stays : op ≠ .grpcCancel) :
      Moves h [.callout service call id op answer] (h.abi.callouts.closeByGuest id)
  | cancelled {service : ServiceId} {call : Invocation} {id : CalloutId}
      {answer : Answer (Except Status Unit)} :
      Moves h [.callout service call id .grpcCancel answer] (h.abi.callouts.remove id)
  | ended {id : CalloutId} {entry : Option Callout} :
      Moves h [.ended id entry] (h.abi.callouts.remove id)
  | dropped (ids : List CalloutId) : Moves h [.dropped ids] (ids.foldl .remove h.abi.callouts)
  | reentered (id : CalloutId) (entry : Callout) (poisoned : h.poisoned = true) :
      Moves h [] (h.abi.callouts.enter id entry)

/-- A step that leaves the callouts alone, and tells nothing of them. -/
theorem CalloutTable.Moves.of_eq {h : HostState} {t : List Event} {table : CalloutTable}
    (htable : table = h.abi.callouts) (silent : ∀ e ∈ t, e.ofCallouts = false) :
    Moves h t table :=
  htable ▸ .kept silent

theorem HostStep.callouts {h h' : HostState} {t : List Event} (step : HostStep h t h') :
    CalloutTable.Moves h t h'.abi.callouts := by
  cases step with
  | opened answer live hc hroot hdel hlen hres hop => exact .opened answer live hlen hres hop
  | sent message endOfStream answer live hc hget hkind hopen =>
    show CalloutTable.Moves h _ (if _ then _ else _)
    split
    · exact .closed rfl (by rintro ⟨⟩)
    · exact .told rfl (by rintro ⟨⟩)
  | cancelled => exact .cancelled
  | closed => exact .closed rfl (by rintro ⟨⟩)
  | announced => exact .of_eq (h.abi.callouts_takeAnnounced _) (by simp)
  | settled => exact .of_eq h.abi.callouts_settle (by simp [Event.ofCallouts])
  | shared => exact .of_eq (h.abi.callouts_recordShared _ _ _) (by simp [Event.ofCallouts])
  | _ => exact .kept (by simp [Event.ofCallouts])

theorem Session.Step.callouts {s s' : Session} {aim : Aim} {t : List Event}
    (step : s.Step aim t s') : CalloutTable.Moves s.host t s'.abi.callouts := by
  cases step with
  | host running step => exact step.callouts
  | ended => exact .ended
  | reentered id entry poisoned => exact .reentered id entry poisoned
  | dropped => exact .dropped _
  | deleted => exact .of_eq (s.abi.callouts_removeContext _ _) (by simp [Event.ofCallouts])
  | _ => exact .kept (by simp [Event.ofCallouts])

/-! ## How many are open -/

namespace CalloutTable

variable {t t' : CalloutTable} {id : CalloutId}

theorem len_enter_of_none (h : t.get id = none) (entry : Callout) :
    (t.enter id entry).len = t.len + 1 :=
  ExtTreeMap.size_insert_of_none h

theorem len_enter_of_some {held : Callout} (h : t.get id = some held) (entry : Callout) :
    (t.enter id entry).len = t.len :=
  ExtTreeMap.size_insert_of_some h

theorem len_remove_le (t : CalloutTable) (id : CalloutId) : (t.remove id).len ≤ t.len :=
  ExtTreeMap.size_erase_le

theorem len_closeByGuest (t : CalloutTable) (id : CalloutId) :
    (t.closeByGuest id).len = t.len :=
  ExtTreeMap.size_modify

theorem len_foldl_remove_le (ids : List CalloutId) (t : CalloutTable) :
    (ids.foldl remove t).len ≤ t.len := by
  induction ids generalizing t with
  | nil => exact Nat.le_refl _
  | cons id ids ih => exact (ih _).trans (t.len_remove_le id)

theorem len_of_reserve (h : t.reserve = some (id, t')) : t'.len = t.len := by
  unfold len
  rw [(get_of_reserveWith h).2]

end CalloutTable

end ProxyWasmHost
