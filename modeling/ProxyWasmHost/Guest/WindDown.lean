/-
  A guest that is not poisoned can be wound down: whatever happened to it, its contexts can be
  ended and deleted one after another, and nothing is left open.
-/
import ProxyWasmHost.Guest.Refusal
import ProxyWasmHost.Lib.Returns
import ProxyWasmHost.Lib.TreeMap

namespace ProxyWasmHost

open Std Prog Prologue Session

variable {s s' s'' : Session} {c root : ContextId} {memory : Bytes} {value : I32}

/-! ## Callbacks that return -/

/-- From `s` to `s'` the contexts stay, a scope stays, and the guest is live. -/
structure Session.Calm (s s' : Session) : Prop where
  live : s'.Live
  contexts : s'.abi.contexts.entries = s.abi.contexts.entries
  scope : s'.scope = s.scope

namespace Session.Calm

theorem refl (h : s.Live) : s.Calm s := ⟨h, rfl, rfl⟩

theorem trans (h : s.Calm s') (h' : s'.Calm s'') : s.Calm s'' :=
  ⟨h'.live, h'.contexts.trans h.contexts, h'.scope.trans h.scope⟩

end Session.Calm

theorem callTyped_returns {h : HostState} (hlive : h.poisoned = false) :
    Returns (callTyped (.ret memory value))
      (fun v h' => v = value ∧ h' = h.setMemory memory) h := by
  unfold callTyped
  refine .bind_read (.bind_require (by simp [hlive]) ?_)
  refine .bind (M := fun answer h' => answer = .ok value ∧ h' = h.setMemory memory)
    (.attempt (.bind_modify (.pure ⟨rfl, rfl⟩))) ?_
  rintro _ _ ⟨rfl, rfl⟩
  exact .pure ⟨rfl, rfl⟩

/-- **A callback returns** when the guest does nothing but return in it. -/
theorem run_returns {callback : Callback} {params : List I32} (hs : s.Live) :
    Returns (Prologue.run c callback params (.ret memory value) value)
      (fun v s' => v = value ∧ s.Calm s') s := by
  unfold Prologue.run
  have hsame := s.abi.contexts.entries_setEffective c
  refine .bind_act (.bind (M := fun answer s' => answer = .ok value ∧ s'.host.poisoned = false ∧
    s'.abi.contexts.entries = s.abi.contexts.entries ∧ s'.scope = s.scope) (.attempt ?_) ?_)
  · unfold callCallback
    refine .bind_read ?_
    split
    · refine .zoom ((callTyped_returns (h := (s.running c callback).host) hs.live).mono ?_)
      rintro _ _ ⟨rfl, rfl⟩
      exact ⟨rfl, hs.live, hsame, rfl⟩
    · exact .pure ⟨rfl, hs.live, hsame, rfl⟩
  · rintro _ s' ⟨rfl, hlive, hcontexts, hscope⟩
    exact .bind_act (.bind_emit (.pure ⟨rfl, ⟨rfl, hlive⟩, hcontexts, hscope⟩))

/-! ### Deliveries -/

theorem takeEnded_returns {call : Delivered} (hs : s.Live) :
    Returns (takeEnded call) (fun _ s' => s.Calm s') s := by
  unfold takeEnded
  split
  · exact .pure (.refl hs)
  · exact .bind_read (.bind_act (.pure ⟨⟨hs.idle, hs.live⟩, rfl, rfl⟩))

theorem deliver_returns {call : Delivered} (hs : s.Live) :
    Returns (deliver call (.ret memory 0)) (fun _ s' => s.Calm s') s := by
  unfold deliver
  refine .bind (takeEnded_returns hs) fun entry s₁ h₁ => .bind_modify ?_
  have hset : s.Calm (s₁.mapAbi fun abi => { abi with delivery := some call.delivery }) :=
    h₁.trans ⟨⟨h₁.live.idle, h₁.live.live⟩, rfl, rfl⟩
  refine .bind (M := fun answer s' => answer = .ok 0 ∧ s.Calm s')
    (.attempt ((run_returns hset.live).mono ?_)) ?_
  · rintro _ _ ⟨rfl, hrun⟩
    exact ⟨rfl, hset.trans hrun⟩
  · rintro _ s₂ ⟨rfl, h₂⟩
    refine .bind_read (.bind_modify ?_)
    have hlast : s.Calm (s₂.mapAbi fun abi => { abi with delivery := none }) :=
      h₂.trans ⟨⟨h₂.live.idle, h₂.live.live⟩, rfl, rfl⟩
    -- The guest survived, so the callout does not come back.
    rw [h₂.live.live]
    cases entry with
    | none => exact .pure hlast
    | some entry => exact .pure hlast

theorem deliverHttpResponse_returns {callout : CalloutId} (hs : s.Live) :
    Returns (deliverHttpResponse root callout .failed (.ret memory 0)) (fun _ s' => s.Calm s')
      s := by
  unfold deliverHttpResponse
  refine .bind_of_run (wireSize_of_lt (by decide)) ?_
  refine .bind_of_run (wireSize_of_lt (by decide)) ?_
  exact .bind_of_run (wireSize_of_lt (by decide)) (deliver_returns hs)

theorem deliverGrpcClose_returns {callout : CalloutId} (hs : s.Live) :
    Returns (deliverGrpcClose root callout ⟨cancelled, []⟩ (.ret memory 0))
      (fun _ s' => s.Calm s') s := by
  unfold deliverGrpcClose
  exact .bind_of_run (wireSize_of_lt (by decide)) (deliver_returns hs)

/-- Every callout of a list is failed, unless the guest ended it meanwhile. -/
theorem failEach_returns (callouts : List (CalloutId × CalloutKind)) (hs : s.Live) :
    Returns (failEach root (fun _ => .ret memory 0) callouts) (fun _ s' => s.Calm s') s := by
  induction callouts generalizing s with
  | nil => exact .pure (.refl hs)
  | cons callout rest ih =>
    obtain ⟨id, kind⟩ := callout
    unfold failEach
    refine .bind_read ?_
    split
    · exact ih hs
    · have hrest : ∀ s₁, s.Calm s₁ → Returns
          (do return id :: (← failEach root (fun _ => .ret memory 0) rest))
          (fun _ s' => s.Calm s') s₁ := fun s₁ h₁ =>
        .bind (ih h₁.live) fun _ s₂ h₂ => .pure (h₁.trans h₂)
      cases kind with
      | httpCall => exact .bind (deliverHttpResponse_returns hs) fun _ s₁ h₁ => hrest s₁ h₁
      | grpcCall => exact .bind (deliverGrpcClose_returns hs) fun _ s₁ h₁ => hrest s₁ h₁
      | grpcStream => exact .bind (deliverGrpcClose_returns hs) fun _ s₁ h₁ => hrest s₁ h₁

theorem dropOpenCallouts_returns (hs : s.Live) :
    Returns (dropOpenCallouts c) (fun _ s' => s.Calm s') s := by
  unfold dropOpenCallouts
  exact .bind_read (.bind_act (.pure ⟨⟨hs.idle, hs.live⟩, rfl, rfl⟩))

theorem failOpenCallouts_returns (hs : s.Live) :
    Returns (failOpenCallouts c root fun _ => .ret memory 0) (fun _ s' => s.Calm s') s := by
  unfold failOpenCallouts
  refine .bind_read (.bind_read ?_)
  split
  · exact dropOpenCallouts_returns hs
  · exact failEach_returns _ hs

/-! ## The end of one context -/

/-- A scope that serves no stream yet. -/
def Session.Undecided (s : Session) : Prop := ∃ lends, s.scope = some ⟨none, lends⟩

theorem requireServedStream_returns (hs : s.Live) (hscope : s.Undecided) :
    Returns (requireServedStream c)
      (fun _ s' => s'.Live ∧ s'.abi = s.abi ∧ s'.scope.isSome) s := by
  obtain ⟨lends, hscope⟩ := hscope
  have hsome : s.scope.isSome := by rw [hscope]; rfl
  unfold requireServedStream
  refine .bind_read ?_
  split
  · unfold requireServed
    refine .bind_read ?_
    rw [hscope]
    exact Returns.modify ⟨⟨hs.idle, hs.live⟩, rfl, by rw [hscope]; rfl⟩
  · exact .pure ⟨hs, rfl, hsome⟩

/-- **A context ends** when the guest agrees. -/
theorem onDone_returns (hs : s.Live) (hscope : s.Undecided) (hc : (s.abi.contexts.get c).isSome) :
    Returns (onDone c (.ret memory 1)) (fun _ s' => s'.Live ∧
      s'.abi.contexts.entries = (s.abi.contexts.setState c .done).entries ∧ s'.scope.isSome)
      s := by
  unfold onDone
  refine .bind_of_run (requireLive_of_live hs) ?_
  refine .bind (requireServedStream_returns hs hscope) ?_
  rintro _ s₁ ⟨hlive, habi, hsome⟩
  obtain ⟨type, htype⟩ : ∃ type, s₁.abi.contexts.contextType c = some type := by
    rw [habi]
    obtain ⟨entry, hget⟩ := Option.isSome_iff_exists.1 hc
    exact ⟨entry.contextType, by unfold ContextTable.contextType; rw [hget]; rfl⟩
  refine .bind_of_run (require_of_known htype) (.bind (run_returns hlive) ?_)
  rintro _ s₂ ⟨rfl, h⟩
  refine .bind_of_run (a := true) rfl (.bind_modify (.pure ⟨⟨h.live.idle, h.live.live⟩, ?_, ?_⟩))
  · show s₂.abi.contexts.entries.modify c _ = s.abi.contexts.entries.modify c _
    rw [h.contexts, habi]
    rfl
  · show s₂.scope.isSome = true
    rw [h.scope]
    exact hsome

/-- From `s` to `s'` the context `c` leaves the table, a scope stays, and the guest is
    live. -/
structure Session.Without (c : ContextId) (s s' : Session) : Prop where
  live : s'.Live
  contexts : s'.abi.contexts.entries = s.abi.contexts.entries.erase c
  scope : s'.scope = s.scope

theorem Session.Without.calm (h : s.Without c s') (h' : s'.Calm s'') : s.Without c s'' :=
  ⟨h'.live, h'.contexts.trans h.contexts, h'.scope.trans h.scope⟩

theorem removeContext_returns {isRoot : Bool} (hs : s.Live)
    (hc : (s.abi.contexts.get c).isSome) :
    Returns (removeContext c isRoot) (fun _ s' => s.Without c s') s := by
  unfold removeContext
  refine .act ⟨⟨?_, hs.live⟩, ?_, rfl⟩
  · cases isRoot <;> exact hs.idle
  · cases isRoot <;> exact ContextTable.entries_remove hc

/-- The deletion proper, up to the context leaving the table. -/
theorem bind_leave {β : Type} {params : List I32} {isRoot : Bool} {f : Unit → Method β}
    {R : β → Session → Prop} (hc : (s.abi.contexts.get c).isSome) (h : s.Calm s')
    (hf : ∀ s'', s.Without c s'' → Returns (f ()) R s'') :
    Returns (Prologue.run c .delete params (.ret memory 0) 0 >>= fun _ =>
      removeContext c isRoot >>= f) R s' := by
  refine .bind (run_returns h.live) ?_
  rintro _ s₁ ⟨-, h₁⟩
  have h₁ := h.trans h₁
  refine .bind (removeContext_returns h₁.live ?_) fun _ s₂ h₂ => hf s₂ ⟨h₂.live, ?_, ?_⟩
  · unfold ContextTable.get
    rw [h₁.contexts]
    exact hc
  · rw [h₂.contexts, h₁.contexts]
  · rw [h₂.scope, h₁.scope]

theorem delete_returns (hs : s.Live) (hc : (s.abi.contexts.get c).isSome) :
    Returns (delete c (fun _ => .ret memory 0) (.ret memory 0)) (fun _ s' => s.Without c s') s := by
  unfold delete
  refine .bind_read ?_
  have hdrop : ∀ (ids : List CalloutId) s', s.Without c s' → Returns
      (do return ids ++ (← dropOpenCallouts c)) (fun _ s' => s.Without c s') s' := fun _ s' h =>
    .bind (dropOpenCallouts_returns h.live) fun _ _ h' => .pure (h.calm h')
  -- A root fails its callouts before it leaves the table, and a stream after it.
  cases s.abi.contexts.parent c with
  | none =>
    dsimp only
    refine .bind (failOpenCallouts_returns hs) fun ended s₁ h₁ => bind_leave hc h₁ fun s₂ h₂ => ?_
    exact .bind_of_run rfl (hdrop (ended ++ []) s₂ h₂)
  | some root =>
    dsimp only
    refine .bind_of_run rfl (bind_leave hc (.refl hs) fun s₂ h₂ => ?_)
    exact .bind (failOpenCallouts_returns h₂.live) fun failed s₃ h₃ =>
      hdrop ([] ++ failed) s₃ (h₂.calm h₃)

/-- **A context that is done and has no children is deleted** when the guest returns. -/
theorem onDelete_returns (hs : s.Live) (hscope : s.Undecided)
    (hdone : s.abi.contexts.state c = some .done)
    (hchildren : s.abi.contexts.hasChildren c = false) :
    Returns (onDelete c (fun _ => .ret memory 0) (.ret memory 0)) (fun _ s' => s'.Live ∧
      s'.abi.contexts.entries = s.abi.contexts.entries.erase c ∧ s'.scope.isSome) s := by
  obtain ⟨entry, hget, -⟩ := Option.map_eq_some_iff.1 hdone
  have hc : (s.abi.contexts.get c).isSome := by rw [hget]; rfl
  unfold onDelete
  refine .bind_of_run (requireLive_of_live hs) ?_
  refine .bind (requireServedStream_returns hs hscope) ?_
  rintro _ s₁ ⟨hlive, habi, hsome⟩
  rw [← habi] at hdone hchildren hc
  refine .bind_of_run (requireDeletable_of_done hdone hchildren) (.bind_modify ?_)
  have hmarked : Session.Live (s₁.mapAbi fun abi => { abi with deleting := some c }) :=
    ⟨hlive.idle, hlive.live⟩
  refine .bind (M := fun answer s' => (∃ ids, answer = .ok ids) ∧ s₁.Without c s')
    (.attempt ((delete_returns hmarked hc).mono ?_)) ?_
  · intro ids s₂ h₂
    exact ⟨⟨ids, rfl⟩, h₂.live, h₂.contexts, h₂.scope⟩
  · rintro _ s₂ ⟨⟨ids, rfl⟩, h₂⟩
    refine .bind_modify (.ofExcept ⟨⟨h₂.live.idle, h₂.live.live⟩, ?_, ?_⟩)
    · rw [← habi]
      exact h₂.contexts
    · show s₂.scope.isSome = true
      rw [h₂.scope]
      exact hsome

/-! ## Runs that go on -/

/-- A call that winds a guest down: in its callbacks the guest only returns, leaving this
    memory, and it agrees when it is asked whether it is done. -/
inductive Op.WindsDown (memory : Bytes) : Op → Prop
  | enter : WindsDown memory (.enter .noStream)
  | onDone (c : ContextId) : WindsDown memory (.onDone c (.ret memory 1))
  | onDelete (c : ContextId) :
      WindsDown memory (.onDelete c (fun _ => .ret memory 0) (.ret memory 0))
  | dropScope : WindsDown memory .dropScope

/-- `r'` goes on from `r`, with calls that wind the guest down and all succeed. -/
structure Run.GoesOn (memory : Bytes) (r r' : Run) : Prop where
  guest : r'.guest = r.guest
  module : r'.module = r.module
  services : r'.services = r.services
  limits : r'.limits = r.limits
  calls : ∃ more, r'.calls = r.calls ++ more ∧
    ∀ call ∈ more, call.op.WindsDown memory ∧ ∃ reply, call.exit = .ok reply

namespace Run.GoesOn

variable {r r' r'' : Run}

theorem refl (r : Run) : GoesOn memory r r := ⟨rfl, rfl, rfl, rfl, [], by simp, by simp⟩

theorem trans (h : GoesOn memory r r') (h' : GoesOn memory r' r'') : GoesOn memory r r'' := by
  obtain ⟨more, hmore, hok⟩ := h.calls
  obtain ⟨more', hmore', hok'⟩ := h'.calls
  refine ⟨h'.guest.trans h.guest, h'.module.trans h.module, h'.services.trans h.services,
    h'.limits.trans h.limits, more ++ more', ?_, ?_⟩
  · rw [hmore', hmore, List.append_assoc]
  · exact List.forall_mem_append.2 ⟨hok, hok'⟩

/-- A call that succeeds takes a run on. -/
theorem call {op : Op} {Q : Reply → Session → Prop} (hwinds : op.WindsDown memory)
    (hop : op.Allowed r.last) (h : Returns op.perform Q r.last) :
    ∃ r', GoesOn memory r r' ∧ ∃ reply, Q reply r'.last := by
  obtain ⟨reply, s', t, hrun, hQ⟩ := h
  refine ⟨r.call op hop, ⟨rfl, rfl, rfl, rfl, _, rfl, ?_⟩, reply, ?_⟩
  · intro call hcall
    obtain rfl := List.mem_singleton.1 hcall
    exact ⟨hwinds, reply, by rw [hrun]⟩
  · show Q reply (op.perform.run r.last).state
    rw [hrun]
    exact hQ

end Run.GoesOn

theorem replying_returns {α : Type} {m : Method α} {reply : α → Reply}
    {Q : Session → Prop} (h : Returns m (fun _ => Q) s) :
    Returns (replying m reply) (fun _ => Q) s :=
  .bind h fun _ _ hQ => .pure hQ

/-- **A scope is left**, and the contexts stay. -/
theorem Run.leaves (r : Run) (memory : Bytes) (hlive : r.last.Live) :
    ∃ r', Run.GoesOn memory r r' ∧ r'.last.Live ∧ r'.last.scope = none ∧
      r'.last.abi.contexts.entries = r.last.abi.contexts.entries := by
  cases hscope : r.last.scope with
  | none => exact ⟨r, .refl r, hlive, hscope, rfl⟩
  | some scope =>
    have hdropped : (dropped r.last).Live ∧ (dropped r.last).scope = none ∧
        (dropped r.last).abi.contexts.entries = r.last.abi.contexts.entries := by
      unfold dropped
      rw [hlive.idle]
      exact ⟨⟨hlive.idle, hlive.live⟩, rfl, rfl⟩
    have hop : Op.dropScope.Allowed r.last := by
      unfold Op.Allowed
      rw [hscope]
      rfl
    obtain ⟨r', hgoes, _, hlast⟩ := Run.GoesOn.call
      (Q := fun _ s' => s'.Live ∧ s'.scope = none ∧
        s'.abi.contexts.entries = r.last.abi.contexts.entries)
      .dropScope hop (replying_returns (.modify hdropped))
    exact ⟨r', hgoes, hlast⟩

/-- **One call in a scope of its own.** -/
theorem Run.calls_in_scope (r : Run) {op : Op} {Q : Session → Prop} (hlive : r.last.Live)
    (hwinds : op.WindsDown memory) (hop : op.inScope = true)
    (h : ∀ s : Session, s.Live → s.Undecided →
      s.abi.contexts.entries = r.last.abi.contexts.entries →
        Returns op.perform (fun _ s' => s'.Live ∧ Q s' ∧ s'.scope.isSome) s) :
    ∃ r', Run.GoesOn memory r r' ∧ r'.last.Live ∧ Q r'.last := by
  obtain ⟨r₁, h₁, hlive₁, hscope₁, hentries₁⟩ := r.leaves memory hlive
  have henter : (Op.enter .noStream).Allowed r₁.last := by
    unfold Op.Allowed
    rw [hscope₁]
    rfl
  obtain ⟨r₂, h₂, -, hlive₂, hundecided, hentries₂⟩ := Run.GoesOn.call
    (Q := fun _ s' => s'.Live ∧ s'.Undecided ∧
      s'.abi.contexts.entries = r₁.last.abi.contexts.entries)
    .enter henter (replying_returns (.modify ⟨⟨hlive₁.idle, hlive₁.live⟩, ⟨_, rfl⟩, rfl⟩))
  have hallowed : op.Allowed r₂.last := by
    obtain ⟨lends, hscope⟩ := hundecided
    unfold Op.Allowed
    rw [hscope, hop]
    rfl
  obtain ⟨r₃, h₃, -, hlive₃, hQ, -⟩ :=
    Run.GoesOn.call hwinds hallowed (h r₂.last hlive₂ hundecided (hentries₂.trans hentries₁))
  exact ⟨r₃, (h₁.trans h₂).trans h₃, hlive₃, hQ⟩

/-- **A context without children is ended and deleted.** -/
theorem Run.deletes (r : Run) (hlive : r.last.Live) (hc : (r.last.abi.contexts.get c).isSome)
    (hchildren : r.last.abi.contexts.hasChildren c = false) :
    ∃ r', Run.GoesOn memory r r' ∧ r'.last.Live ∧
      r'.last.abi.contexts.entries = (r.last.abi.contexts.setState c .done).entries.erase c := by
  have hdone : ∀ s : Session, s.Live → s.Undecided →
      s.abi.contexts.entries = r.last.abi.contexts.entries →
        Returns (Op.onDone c (.ret memory 1)).perform (fun _ s' => s'.Live ∧
          s'.abi.contexts.entries = (r.last.abi.contexts.setState c .done).entries ∧
            s'.scope.isSome) s := by
    intro s hs hundecided hentries
    rw [← (ContextTable.eq_of_entries hentries c).1] at hc
    refine replying_returns ((onDone_returns hs hundecided hc).mono ?_)
    rintro _ s' ⟨hlive', hentries', hsome⟩
    refine ⟨hlive', hentries'.trans ?_, hsome⟩
    show s.abi.contexts.entries.modify c _ = r.last.abi.contexts.entries.modify c _
    rw [hentries]
  have hdelete : ∀ s : Session, s.Live → s.Undecided →
      s.abi.contexts.entries = (r.last.abi.contexts.setState c .done).entries →
        Returns (Op.onDelete c (fun _ => .ret memory 0) (.ret memory 0)).perform (fun _ s' =>
          s'.Live ∧ s'.abi.contexts.entries =
            (r.last.abi.contexts.setState c .done).entries.erase c ∧ s'.scope.isSome) s := by
    intro s hs hundecided hentries
    obtain ⟨-, hstate, hsame⟩ := ContextTable.eq_of_entries hentries c
    refine replying_returns ((onDelete_returns hs hundecided ?_ ?_).mono ?_)
    · obtain ⟨entry, hget⟩ := Option.isSome_iff_exists.1 hc
      rw [hstate]
      unfold ContextTable.state ContextTable.setState
      rw [ContextTable.get_modify, if_pos rfl, hget]
      rfl
    · rw [hsame]
      exact (ContextTable.Keeps.modify _ c (fun entry => { entry with state := .done })
        fun _ => rfl).hasChildren hchildren
    · rintro _ s' ⟨hlive', hentries', hsome⟩
      exact ⟨hlive', by rw [hentries', hentries], hsome⟩
  obtain ⟨r₁, h₁, hlive₁, hentries₁⟩ := r.calls_in_scope hlive (.onDone c) rfl hdone
  obtain ⟨r₂, h₂, hlive₂, hentries₂⟩ := r₁.calls_in_scope hlive₁ (.onDelete c) rfl
    fun s hs hundecided hentries => hdelete s hs hundecided (hentries.trans hentries₁)
  exact ⟨r₂, h₁.trans h₂, hlive₂, hentries₂⟩

/-- **The contexts are deleted one after another.** The induction is on how many there are. -/
theorem Run.deletes_all (r : Run) (memory : Bytes) (hlive : r.last.Live) :
    ∃ r', Run.GoesOn memory r r' ∧ r'.last.Live ∧ ∀ c, r'.last.abi.contexts.get c = none := by
  induction hsize : r.last.abi.contexts.entries.size using Nat.strong_induction_on
    generalizing r with
  | _ n ih =>
    by_cases hsome : ∃ c, (r.last.abi.contexts.get c).isSome
    · obtain ⟨c, hget⟩ := hsome
      obtain ⟨x, hx, hchildren⟩ := r.last_sound.contexts.exists_childless hget
      obtain ⟨r₁, h₁, hlive₁, hentries⟩ := r.deletes hlive hx hchildren
      have hless : r₁.last.abi.contexts.entries.size < n := by
        rw [hentries]
        refine (ExtTreeMap.size_erase_lt (ExtTreeMap.mem_modify.2 ?_)).trans_eq ?_
        · exact ExtTreeMap.mem_iff_isSome_getElem?.2 hx
        · exact ExtTreeMap.size_modify.trans hsize
      obtain ⟨r₂, h₂, hlive₂, hnone⟩ := ih _ hless r₁ hlive₁ rfl
      exact ⟨r₂, h₁.trans h₂, hlive₂, hnone⟩
    · refine ⟨r, .refl r, hlive, fun c => ?_⟩
      rw [← Option.not_isSome_iff_eq_none]
      exact fun hget => hsome ⟨c, hget⟩

/-- **A guest that goes on can be wound down**: from any state of a run in which the guest is not
    poisoned and no callback is running, calls that all succeed, in whose callbacks the guest
    only returns, and agrees to be done, take every context out of the table, and then nothing
    is left open. -/
theorem Run.winds_down (r : Run) (hpoisoned : r.last.host.poisoned = false)
    (hcurrent : r.last.abi.currentCallback = none) (memory : Bytes) :
    ∃ r', Run.GoesOn memory r r' ∧
      r'.last.host.poisoned = false ∧ r'.last.scope = none ∧
      (∀ c, r'.last.abi.contexts.get c = none) ∧ ∀ id, r'.last.abi.callouts.get id = none := by
  obtain ⟨r₁, h₁, hlive₁, hnone⟩ := r.deletes_all memory ⟨hcurrent, hpoisoned⟩
  obtain ⟨r₂, h₂, hlive₂, hscope, hentries⟩ := r₁.leaves memory hlive₁
  have hnone₂ : ∀ c, r₂.last.abi.contexts.get c = none := fun c =>
    (ContextTable.eq_of_entries hentries c).1.trans (hnone c)
  refine ⟨r₂, h₁.trans h₂, hlive₂.live, hscope, hnone₂, fun id => ?_⟩
  cases hget : r₂.last.abi.callouts.get id with
  | none => rfl
  | some entry =>
    exfalso
    -- An open callout has a live caller, or one that is being deleted.
    rcases r₂.last_sound.callouts with hpoisoned₂ | hanchors
    · rw [hlive₂.live] at hpoisoned₂
      cases hpoisoned₂
    · rcases hanchors id entry hget with hroot | hdeleting
      · unfold ContextTable.rootOf at hroot
        rw [hnone₂] at hroot
        cases hroot
      · rw [(r₂.last_rested.ready hlive₂).unmarked] at hdeleting
        cases hdeleting

namespace WindDown

/-- A guest with a plugin and a stream of it. -/
def serving : Run :=
  .of 11 .bare ⟨[], .warn, [8], [], 1, 2⟩ (.atMost none)
    [.start ⟨[3], [4], []⟩ ⟨.returning 0, .returning 1, .returning 1⟩, .enter .noStream,
      .onContextCreate (some .min) (.returning 0)]
    rfl (by decide)

/-- Its two contexts go, in a guest that leaves the memory it has. -/
theorem serving_winds_down : serving.last.abi.contexts.entries.size = 2 ∧
    serving.last.host.memory = some (List.replicate 16 0) ∧
    ∃ r', Run.GoesOn (List.replicate 16 0) serving r' ∧
      r'.last.host.poisoned = false ∧ r'.last.scope = none ∧
      (∀ c, r'.last.abi.contexts.get c = none) ∧ ∀ id, r'.last.abi.callouts.get id = none :=
  ⟨rfl, rfl, serving.winds_down rfl rfl _⟩

end WindDown

end ProxyWasmHost
