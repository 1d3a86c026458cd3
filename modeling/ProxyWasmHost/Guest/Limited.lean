/-
  What the embedder of a guest gets in a run is within the limits it gave the guest.
-/
import ProxyWasmHost.Guest.Poisoned
import ProxyWasmHost.HostFunctions.Within

namespace ProxyWasmHost

open Prog Session Prologue

/-- From one session to another the limits stay, and all that happened is within them. -/
structure Session.KeepsLimits (s : Session) (t : List Event) (s' : Session) : Prop where
  limits : s'.host.limits = s.host.limits
  events : ∀ e ∈ t, e.Within s.host.limits

instance : Chain Session.KeepsLimits where
  refl s := ⟨rfl, by rintro e ⟨⟩⟩
  trans first second := by
    refine ⟨second.limits.trans first.limits, fun e he => ?_⟩
    rcases List.mem_append.1 he with he | he
    · exact first.events e he
    · exact first.limits ▸ second.events e he

/-- A program that keeps the limits of the guest. -/
abbrev Limited {ε α : Type} (m : Prog Session Event ε α) : Prop := Along Session.KeepsLimits m

variable {ε α : Type} {makes : Delivered → Prop} {s s' : Session}

theorem Session.KeepsLimits.silent (h : s'.host.limits = s.host.limits) : s.KeepsLimits [] s' :=
  ⟨h, by rintro e ⟨⟩⟩

theorem Session.KeepsLimits.single {e : Event} (h : s'.host.limits = s.host.limits)
    (he : ∀ limits, e.Within limits) : s.KeepsLimits [e] s' := by
  refine ⟨h, fun e' he' => ?_⟩
  rw [List.mem_singleton] at he'
  exact he' ▸ he _

/-! ## Callbacks and deliveries -/

instance {code : Code} {callback : Callback} {default : I32} :
    Limited (callCallback callback code default) := by
  unfold callCallback
  have hcall : Limited (Prog.zoom Session.host (fun s host => { s with host }) (callTyped code)) :=
    .zoom (S := KeepsWithin) fun s t h hkept => ⟨hkept.limits, hkept.events⟩
  infer_instance

instance {c : ContextId} {callback : Callback} {params : List I32} {code : Code} {default : I32} :
    Limited (Prologue.run c callback params code default) := by
  have hbegan : Limited (Prog.act
      (fun s : Session => Event.began callback c (s.abi.delivery.bind (·.callout)) params
        (s.exports callback) s.abi) (·.mapAbi fun abi => { abi with
          contexts := (abi.contexts.setEffective c).2, currentCallback := some callback }) :
      Prog Session Event GuestError Unit) := .act fun s => .single rfl fun _ => trivial
  have hfinished : Limited (Prog.act (fun s : Session => Event.finished s.abi)
      (·.mapAbi fun abi => { abi with currentCallback := none }) :
      Prog Session Event GuestError Unit) := .act fun s => .single rfl fun _ => trivial
  have hreturned : ∀ value, Limited (Prog.emit fun _ : Session => Event.returned callback c value :
      Prog Session Event GuestError Unit) := fun _ => .emit fun s => .single rfl fun _ => trivial
  have hunwound : Limited (Prog.emit fun _ : Session => Event.unwound callback c :
      Prog Session Event GuestError Unit) := .emit fun s => .single rfl fun _ => trivial
  unfold Prologue.run
  refine .andThen fun _ => .andThen fun result => .andThen fun _ => ?_
  cases result <;> infer_instance

instance {u : AbiState → AbiState} :
    Limited (Prog.modify (·.mapAbi u) : Prog Session Event ε Unit) :=
  .modify fun _ => .silent rfl

instance {u : CalloutTable → CalloutTable} :
    Limited (Prog.modify (·.mapCallouts u) : Prog Session Event ε Unit) :=
  .modify fun _ => .silent rfl

instance {delivery : Option Delivery} : Limited (setDelivery delivery) := by
  unfold setDelivery; infer_instance

instance {call : Delivered} : Limited (takeEnded call) := by
  unfold takeEnded
  cases if call.ends then call.callout else none with
  | none => infer_instance
  | some callout =>
    have hended : ∀ entry, Limited (Prog.act (fun _ : Session => Event.ended callout entry)
        (·.mapCallouts (·.remove callout)) : Prog Session Event GuestError Unit) :=
      fun _ => .act fun s => .single rfl fun _ => trivial
    infer_instance

instance {call : Delivered} {code : Code} : Limited (deliver call code) := by
  unfold deliver
  refine .andThen fun entry => .andThen fun _ => .andThen fun result => .andThen fun poisoned => ?_
  refine .andThen fun _ => ?_
  cases entry <;> infer_instance

instance : Limited requireLive := by
  have hpoison : Limited (Prog.modify (·.mapHost HostState.poison) : Method Unit) :=
    .modify fun _ => .silent rfl
  unfold requireLive
  infer_instance

/-! ## Calls -/

/-- **What is built keeps the limits.** -/
theorem Built.limited {unw : ε → Bool} {m : Prog Session Event ε α} (hm : Built makes unw m) :
    Limited m := by
  induction hm with
  | look quiet => infer_instance
  | bind first rest ihFirst ihRest => exact .andThen ihRest
  | known first finds rest ihFirst ihRest =>
    exact ⟨fun s => AlongFrom.bind_finds (finds s) fun a ha => (ihRest a ha).along s⟩
  | change silent => exact .modify fun s => .silent (silent.limits s)
  | tell silent told =>
    refine .act fun s => ⟨silent.limits s, fun e he => ?_⟩
    rw [List.mem_singleton] at he
    subst he
    rcases told s with ⟨_, _, htold⟩ | ⟨_, _, htold⟩ <;> rw [htold] <;> trivial
  | drop ids => exact .act fun s => .single rfl fun _ => trivial
  | requireLive => infer_instance
  | run c params code default plain => infer_instance
  | deliver code made => infer_instance
  | @closing ε α unw m u body silent ih =>
    have hclose : Limited (Prog.modify u : Prog Session Event ε Unit) :=
      .modify fun s => .silent (silent.limits s)
    infer_instance
  | mapErr agrees body ih => infer_instance
  | @rescued ε ε' α β unw unw' g m n u v agrees first second silent silent' ihFirst ihSecond =>
    have hfirst : Limited (Prog.cleanedUp (do
        let a ← m
        return (a, ← Prog.attempt (n a))) u) := .cleanedUp fun s => .silent (silent.limits s)
    refine .andThen fun result => ?_
    obtain ⟨a, e | b⟩ := result
    · have hlate : Limited (Prog.modify (v a e) : Prog Session Event ε Unit) :=
        .modify fun s => .silent ((silent' a e).limits s)
      unfold rescuing
      infer_instance
    · unfold rescuing
      infer_instance

theorem limits_dropped (s : Session) : (dropped s).host.limits = s.host.limits :=
  Built.silent_dropped.limits s

instance : Limited ProxyWasmHost.finish := by
  have hend : Limited (Prog.modify fun s : Session =>
      let s := if s.abi.currentCallback.isSome then s.mapHost HostState.poison else s
      dropped (takeStreamState s) : Method Unit) := by
    refine .modify fun s => .silent ?_
    dsimp only
    rw [limits_dropped]
    split <;> rfl
  unfold ProxyWasmHost.finish
  infer_instance

instance : Limited ProxyWasmHost.takeChanges := by
  unfold ProxyWasmHost.takeChanges; infer_instance

/-- **Every call of an embedder keeps the limits.** -/
theorem Op.limited (op : Op) : Limited op.perform := by
  by_cases htake : op = .takeChanges
  · subst htake
    exact .andThen fun _ => inferInstance
  · by_cases hfinish : op = .finish
    · subst hfinish
      exact .andThen fun _ => inferInstance
    · exact (Built.perform htake hfinish).limited

/-! ## Runs -/

theorem callAll_within : ∀ codes : List Code, Within (callAll codes)
  | [] => by unfold callAll; infer_instance
  | code :: codes => by
    have := callAll_within codes
    unfold callAll
    infer_instance

instance {module : Module} : Within (instantiate module) := by
  have hmemory : ∀ memory, Within (Prog.modify fun h => { h with memory } : Host Unit) :=
    fun _ => .modify fun _ => .silent rfl rfl
  have hallocator : Within (Prog.modify fun h => { h with allocator := true } : Host Unit) :=
    .modify fun _ => .silent rfl rfl
  have hinitializers := callAll_within module.initializers
  unfold instantiate
  cases module.start with
  | none => infer_instance
  | some code =>
    have := code.exec_within
    infer_instance

instance {module : Module} : Limited (Guest.new module) :=
  .zoom (S := KeepsWithin) fun _ _ _ hkept => ⟨hkept.limits, hkept.events⟩

/-- Everything that happens in a run is within the limits. -/
theorem Run.within (r : Run) : ∀ e ∈ r.trace, e.Within r.limits := by
  have hnew := (inferInstance : Limited (Guest.new r.module)).along r.first
  have hcalls : ∀ s calls s', Steps Session.Calls s calls s' → s.host.limits = r.limits →
      ∀ e ∈ calls.flatMap Call.trace, e.Within r.limits := by
    intro s calls s' path
    induction path with
    | nil s => rintro - e ⟨⟩
    | @cons s _ _ _ _ head tail ih =>
      intro hlimits e he
      obtain ⟨op, -, rfl, rfl⟩ := head
      have hkept := op.limited.along s
      rw [List.flatMap_append, List.flatMap_singleton] at he
      rcases List.mem_append.1 he with he | he
      · exact hlimits ▸ hkept.events e he
      · exact ih (hkept.limits.trans hlimits) e he
  intro e he
  rcases List.mem_append.1 he with he | he
  · exact hnew.events e he
  · exact hcalls _ _ _ r.called hnew.limits e he

/-- **What a guest passes on is within the limits** that its embedder gave it: every line of the
    log; the path of every property, and every key and name of the shared services; and every map
    that is decoded, for a local response, for a callout or to replace the pairs of a map, in number
    and in bytes. An HTTP call has the headers it must have. What the shared services are asked by
    name, a resolution apart, is for the VM that the guest has then. -/
theorem Run.passes_on_within_limits (r : Run) :
    (∀ context level message, .logged context level message ∈ r.trace →
      ∀ max ∈ r.limits.maxLogBytes, message.length ≤ max) ∧
    (∀ call op, .stream call op ∈ r.trace → op.Within r.limits) ∧
    (∀ service call id op answer, .callout service call id op answer ∈ r.trace →
      op.Within r.limits) ∧
    ∀ service call op answer abi, .shared service call op answer abi ∈ r.trace →
      (∀ name, op.name = some name → r.limits.AllowName name) ∧
        ∀ vmId, op.madeFor = some vmId → vmId = abi.services.vmId :=
  ⟨fun _ _ _ h => r.within _ h, fun _ _ h => r.within _ h, fun _ _ _ _ _ h => r.within _ h,
    fun _ _ _ _ _ h => r.within _ h⟩

end ProxyWasmHost
