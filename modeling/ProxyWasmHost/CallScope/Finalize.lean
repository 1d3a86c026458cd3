/-
  The callbacks that end a context, and the end of a scope.
-/
import ProxyWasmHost.CallScope.Delivery

namespace ProxyWasmHost

open Prologue

def onDone (context : ContextId) (code : Code) : Method Bool := do
  requireLive
  requireServedStream context
  let _ ← Prologue.require context
  let value ← run context .done [context.wire] code 1
  let done ← boolean .done value
  Prog.modify (·.mapContexts (·.setState context (if done then .done else .pending)))
  return done

def onLog (context : ContextId) (code : Code) : Method Unit := do
  requireLive
  requireServedStream context
  requireDone context
  let _ ← run context .log [context.wire] code 0

/-! ## The deletion of a context -/

/-- The gRPC status of a call that the crate ends, `CANCELLED`. -/
def cancelled : UInt32 := 1

/-- Takes every callout `context` made out of the table, with no delivery. -/
def dropOpenCallouts (context : ContextId) : Method (List CalloutId) := do
  let dropped := (← Prog.read (·.abi.callouts.madeBy context)).map (·.1)
  Prog.act (fun _ => .dropped dropped) (·.mapCallouts fun table => dropped.foldl .remove table)
  return dropped

/-- The loop of `fail_open_callouts` over the callouts that were open at its start: one
    that the guest ended meanwhile gets no delivery. -/
def failEach (root : ContextId) (codes : CalloutId → Code) :
    List (CalloutId × CalloutKind) → Method (List CalloutId)
  | [] => return []
  | (callout, kind) :: rest => do
    match ← Prog.read (·.abi.callouts.get callout) with
    | none => failEach root codes rest
    | some _ => do
      match kind with
      | .httpCall => deliverHttpResponse root callout .failed (codes callout)
      | .grpcCall | .grpcStream =>
        deliverGrpcClose root callout ⟨cancelled, []⟩ (codes callout)
      let ended ← failEach root codes rest
      return callout :: ended

/-- Delivers a failure for every callout `context` has open, or drops them when the
    guest refused its root. `codes` is what the guest does in each delivery. -/
def failOpenCallouts (context root : ContextId) (codes : CalloutId → Code) :
    Method (List CalloutId) := do
  let callouts ← Prog.read (·.abi.callouts.madeBy context)
  if (← contexts).rejectionOf root ≠ none then dropOpenCallouts context
  else failEach root codes callouts

/-- Takes a context out of the table; a root leaves every queue it registered. -/
def removeContext (context : ContextId) (isRoot : Bool) : Method Unit :=
  Prog.act (fun s => .deleted context s.abi) (·.mapAbi fun abi =>
    let abi := { abi with contexts := abi.contexts.remove context }
    if isRoot then abi.forgetRegistrant context else abi)

/-- The deletion proper: a root fails its callouts before `proxy_on_delete`, a stream
    after it and after it left the table. -/
def delete (context : ContextId) (codes : CalloutId → Code) (code : Code) :
    Method (List CalloutId) := do
  let root := (← contexts).parent context
  let ended ← match root with
    | none => failOpenCallouts context context codes
    | some _ => pure []
  let _ ← run context .delete [context.wire] code 0
  removeContext context root.isNone
  let failed ← match root with
    | some root => failOpenCallouts context root codes
    | none => pure []
  let dropped ← dropOpenCallouts context
  return ended ++ failed ++ dropped

def markDeleting (context : Option ContextId) : Method Unit :=
  Prog.modify (·.mapAbi fun abi => { abi with deleting := context })

/-- Deletes a context, and answers the callouts that ended with it. `codes` is what the
    guest does in the failure delivery of each callout, and `code` what it does in
    `proxy_on_delete`. -/
def onDelete (context : ContextId) (codes : CalloutId → Code) (code : Code) :
    Method (List CalloutId) := do
  requireLive
  requireServedStream context
  requireDeletable context
  markDeleting (some context)
  let ended ← Prog.attempt (delete context codes code)
  markDeleting none
  Prog.ofExcept ended

/-! ## The end of a scope -/

/-- Takes the stream state out, and leaves the scope behind. -/
def takeStreamState (s : Session) : Session :=
  { s.mapAbi fun abi => { abi with streamState := none } with scope := none }

/-- What a dropped scope leaves: its stream state detached, unless that is `NoStream`,
    and a guest whose callback never returned poisoned. -/
def dropped (s : Session) : Session :=
  let taken := takeStreamState s
  let detached := match s.abi.streamState with
    | some (.value type value) => some (.value type value)
    | _ => s.detached
  let taken := { taken with detached }
  if s.abi.currentCallback.isSome then
    (taken.mapHost HostState.poison).mapAbi fun abi => { abi with currentCallback := none }
  else taken

def Lent.type : Lent → Option ℕ
  | .noStream => none
  | .value type _ => some type

/-- Gives the stream state back, which has the type its scope was entered with. The scope is
    dropped at the end, with nothing to detach. -/
def finish : Method Lent := do
  let s ← Prog.read id
  Prog.modify fun s =>
    let s := if s.abi.currentCallback.isSome then s.mapHost HostState.poison else s
    dropped (takeStreamState s)
  let lends := s.scope.bind (·.lends)
  Prog.orPanic (s.abi.streamState.bind fun lent => if lent.type = lends then some lent else none)

end ProxyWasmHost
