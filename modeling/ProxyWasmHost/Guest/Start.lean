/-
  The start of a plugin: what each exit of it leaves, and what the starts of a run tell of
  the VM and of their roots.
-/
import ProxyWasmHost.CallScope.Traces
import ProxyWasmHost.Guest.Names

namespace ProxyWasmHost

open Prog Session Prologue

/-- The guest accepts the start of its VM. -/
def Event.startsVm : Event → Bool
  | .returned .vmStart _ value => value == 1
  | _ => false

/-- An event that begins a callback of this kind. -/
def Event.Begins (callback : Callback) (e : Event) : Prop :=
  ∃ c abi, e.begun = some (callback, c, abi)

variable {aim : Aim} {s s' : Session} {root : ContextId} {t : List Event}

/-! ## What a callback counts for -/

theorem Event.startsVm_of_ofHost {e : Event} (h : e.ofHost = true) : e.startsVm = false := by
  cases e <;> first | rfl | cases h

theorem Event.begun_of_ofHost {e : Event} (h : e.ofHost = true) : e.begun = none := by
  cases e <;> first | rfl | cases h

theorem countP_of_ofHost (h : ∀ e ∈ t, e.ofHost = true) : t.countP Event.startsVm = 0 := by
  rw [List.countP_eq_zero]
  intro e he hstarts
  rw [Event.startsVm_of_ofHost (h e he)] at hstarts
  cases hstarts

/-- What a part of a start makes of the count of the VM starts, and that it creates no
    context. -/
structure Session.Counts (s : Session) (t : List Event) (s' : Session) : Prop where
  balance : t.countP Event.startsVm + s.abi.vmStarted.toNat = s'.abi.vmStarted.toNat
  made : ∀ id parent, Event.created id parent ∉ t

namespace Session.Counts

theorem trans {s'' : Session} {t' : List Event} (h : s.Counts t s') (h' : s'.Counts t' s'') :
    s.Counts (t ++ t') s'' where
  balance := by
    have h₁ := h.balance
    have h₂ := h'.balance
    rw [List.countP_append]
    omega
  made id parent hmem := by
    rcases List.mem_append.1 hmem with hmem | hmem
    · exact h.made id parent hmem
    · exact h'.made id parent hmem

/-- What changes neither the flag nor the trace counts for nothing. -/
theorem silent (h : s'.abi.vmStarted = s.abi.vmStarted) : s.Counts [] s' :=
  ⟨by rw [h]; exact Nat.zero_add _, fun _ _ hmem => by cases hmem⟩

end Session.Counts

section Callbacks

variable {c : ContextId} {callback : Callback} {params : List I32} {how : Event}

theorem Session.Performed.vmStarted (h : s.Performed callback c params how t s') :
    s'.abi.vmStarted = s.abi.vmStarted := by
  obtain ⟨inner, host, path, rfl, -⟩ := h
  exact (HostKeeps.of_steps path).vmStarted

theorem Session.Performed.countP (h : s.Performed callback c params how t s') :
    t.countP Event.startsVm = how.startsVm.toNat := by
  obtain ⟨inner, host, path, -, rfl⟩ := h
  have hinner := countP_of_ofHost (HostStep.ofHost_of_steps path)
  rw [List.countP_cons_of_neg Bool.false_ne_true, List.countP_append, hinner,
    List.countP_cons_of_neg Bool.false_ne_true, List.countP_singleton]
  cases how.startsVm <;> rfl

theorem Session.Performed.made (h : s.Performed callback c params how t s')
    (htells : how.Tells callback c) : ∀ id parent, Event.created id parent ∉ t := by
  obtain ⟨inner, host, path, -, rfl⟩ := h
  intro id parent hmem
  rcases List.mem_cons.1 hmem with hmem | hmem
  · cases hmem
  · rcases List.mem_append.1 hmem with hmem | hmem
    · cases HostStep.ofHost_of_steps path _ hmem
    · cases htells <;> simp at hmem

/-- The only callback that returned is the one that is over. -/
theorem Session.Performed.returned (h : s.Performed callback c params how t s')
    {callback' : Callback} {c' : ContextId} {value : I32}
    (hmem : Event.returned callback' c' value ∈ t) : how = .returned callback' c' value := by
  obtain ⟨inner, host, path, -, rfl⟩ := h
  rcases List.mem_cons.1 hmem with hmem | hmem
  · cases hmem
  · rcases List.mem_append.1 hmem with hmem | hmem
    · cases HostStep.ofHost_of_steps path _ hmem
    · rcases List.mem_cons.1 hmem with hmem | hmem
      · cases hmem
      · exact (List.mem_singleton.1 hmem).symm

theorem Session.Stuck.returned (h : s.Stuck callback c params t s') {callback' : Callback}
    {c' : ContextId} {value : I32} : Event.returned callback' c' value ∉ t := by
  obtain ⟨inner, host, path, -, rfl⟩ := h
  intro hmem
  rcases List.mem_cons.1 hmem with hmem | hmem
  · cases hmem
  · cases HostStep.ofHost_of_steps path _ hmem

/-- A callback that is over began no other. -/
theorem Session.Performed.only (h : s.Performed callback c params how t s')
    (htells : how.Tells callback c) : ∀ e ∈ t, ∀ callback', e.Begins callback' →
      callback' = callback := by
  obtain ⟨inner, host, path, -, rfl⟩ := h
  rintro e hmem callback' ⟨c', abi, hbegun⟩
  rcases List.mem_cons.1 hmem with rfl | hmem
  · cases hbegun
    rfl
  · rcases List.mem_append.1 hmem with hmem | hmem
    · rw [Event.begun_of_ofHost (HostStep.ofHost_of_steps path e hmem)] at hbegun
      cases hbegun
    · rcases List.mem_cons.1 hmem with rfl | hmem
      · cases hbegun
      · rcases List.mem_singleton.1 hmem with rfl
        cases htells <;> cases hbegun

theorem Session.Stuck.only (h : s.Stuck callback c params t s') :
    ∀ e ∈ t, ∀ callback', e.Begins callback' → callback' = callback := by
  obtain ⟨inner, host, path, -, rfl⟩ := h
  rintro e hmem callback' ⟨c', abi, hbegun⟩
  rcases List.mem_cons.1 hmem with rfl | hmem
  · cases hbegun
    rfl
  · rw [Event.begun_of_ofHost (HostStep.ofHost_of_steps path e hmem)] at hbegun
    cases hbegun

theorem Session.Stuck.contexts (h : s.Stuck callback c params t s') :
    s.abi.contexts.Keeps s'.abi.contexts := by
  obtain ⟨inner, host, path, rfl, -⟩ := h
  exact (ContextTable.Keeps.setEffective _ _).trans (HostKeeps.of_steps path).contexts

theorem Session.Performed.begins (h : s.Performed callback c params how t s') :
    ∃ e ∈ t, e.Begins callback := by
  obtain ⟨inner, host, path, -, rfl⟩ := h
  exact ⟨_, .head _, c, s.abi, rfl⟩

theorem Session.Stuck.begins (h : s.Stuck callback c params t s') :
    ∃ e ∈ t, e.Begins callback := by
  obtain ⟨inner, host, path, -, rfl⟩ := h
  exact ⟨_, .head _, c, s.abi, rfl⟩

/-- A callback that is over counts when it accepts the start of the VM. -/
theorem Session.Performed.counts (h : s.Performed callback c params how t s')
    (htells : how.Tells callback c) (hhow : how.startsVm = false) : s.Counts t s' :=
  ⟨by rw [h.countP, hhow, h.vmStarted]; exact Nat.zero_add _, h.made htells⟩

theorem Session.Stuck.counts (h : s.Stuck callback c params t s') : s.Counts t s' := by
  obtain ⟨inner, host, path, rfl, rfl⟩ := h
  have hinner := HostStep.ofHost_of_steps path
  refine ⟨?_, fun id parent hmem => ?_⟩
  · rw [List.countP_cons_of_neg Bool.false_ne_true, countP_of_ofHost hinner]
    show 0 + _ = (host.abi.vmStarted).toNat
    rw [(HostKeeps.of_steps path).vmStarted]
    exact Nat.zero_add _
  · rcases List.mem_cons.1 hmem with hmem | hmem
    · cases hmem
    · cases hinner _ hmem

end Callbacks

/-! ## A callback that asks the guest -/

/-- A root in the table. -/
structure Session.Hosts (s : Session) (root : ContextId) : Prop where
  type : s.abi.contexts.contextType root = some .root
  self : s.abi.contexts.rootOf root = some root

theorem Session.Hosts.keeps (h : s.Hosts root) (k : s.abi.contexts.Keeps s'.abi.contexts) :
    s'.Hosts root :=
  ⟨(k.contextType root).trans h.type, (k.rootOf root).trans h.self⟩

theorem Session.Hosts.setPlugin (h : s.Hosts root) (plugin : PluginConfig) :
    (s.mapContexts (·.setPlugin root plugin)).Hosts root :=
  ⟨(ContextTable.contextType_setPlugin plugin).trans h.type,
    (ContextTable.rootOf_setPlugin plugin).trans h.self⟩

theorem Session.Hosts.isRejected (h : s.Hosts root) :
    (s.abi.contexts.reject root).isRejected root = true := by
  obtain ⟨entry, hget⟩ := Option.isSome_iff_exists.1 (ContextTable.isSome_of_contextType h.type)
  unfold ContextTable.isRejected
  rw [ContextTable.rootOf_reject, h.self, Option.bind_some]
  unfold ContextTable.reject
  rw [ContextTable.get_modify, if_pos rfl, hget]
  rfl

/-- A callback of a root that a ready guest runs, with its trace. -/
theorem run_asks {callback : Callback} {params : List I32} {code : Code} {default : I32}
    (aim : Aim) (hs : s.Ready) (may : s.MayBegin aim callback root) :
    Leaves (run root callback params code default)
      (fun value t s' => s.Performed callback root params (.returned callback root value) t s' ∧
        s.Frame s' ∧ s'.Ready)
      (fun _ t s' => s.Performed callback root params (.unwound callback root) t s' ∧
        s.Frame s' ∧ s'.host.poisoned = true)
      (fun t s' => s.Stuck callback root params t s' ∧ s'.abi.currentCallback.isSome) s := by
  refine ((run_leaves s).and (.of_follows (run_follows may))).mono ?_ ?_ ?_
  · rintro value t s' ⟨hperformed, -, hran⟩
    exact ⟨hperformed, hran.frame, hs.of_frame hran.frame hran.live⟩
  · rintro e t s' ⟨hperformed, -, hunwound⟩
    exact ⟨hperformed, hunwound.frame, hunwound.poisoned⟩
  · rintro t s' ⟨hstuck, -, -, hrunning⟩
    exact ⟨hstuck, hrunning⟩

/-- A callback that failed, or that answered neither yes nor no. -/
structure Session.Unanswered (s : Session) (callback : Callback) (t : List Event) (s' : Session) :
    Prop where
  counts : s.Counts t s'
  begins : ∃ e ∈ t, e.Begins callback
  only : ∀ e ∈ t, ∀ callback', e.Begins callback' → callback' = callback
  frame : s.Frame s'

/-- A callback that never returned. -/
structure Session.Unreturned (s : Session) (callback : Callback) (t : List Event) (s' : Session) :
    Prop where
  counts : s.Counts t s'
  begins : ∃ e ∈ t, e.Begins callback
  only : ∀ e ∈ t, ∀ callback', e.Begins callback' → callback' = callback
  contexts : s.abi.contexts.Keeps s'.abi.contexts
  running : s'.abi.currentCallback.isSome

/-- A callback that the guest answered with yes or no. -/
structure Session.AnsweredBy (s : Session) (callback : Callback) (root : ContextId)
    (accepted : Bool) (t : List Event) (s' : Session) : Prop where
  trace : ∃ params, s.Performed callback root params
    (.returned callback root (if accepted then 1 else 0)) t s'
  frame : s.Frame s'
  ready : s'.Ready

/-- **A callback that asks the guest**, and what a refusal does. -/
theorem ask_leaves {callback : Callback} {params : List I32} {code : Code}
    {refuse : ContextTable → ContextTable} (aim : Aim) (hs : s.Ready)
    (may : s.MayBegin aim callback root) :
    Leaves (do
      let value ← run root callback params code 1
      let accepted ← boolean callback value
      if ¬ accepted then Prog.modify (·.mapContexts refuse)
      return accepted)
      (fun accepted t s' => ∃ s₁, s.AnsweredBy callback root accepted t s₁ ∧
        s' = if accepted then s₁ else s₁.mapContexts refuse)
      (fun _ => s.Unanswered callback) (s.Unreturned callback) s := by
  refine .bind ((run_asks aim hs may).mono (fun _ _ _ h => h) ?_ ?_) fun value t s₁ hran => ?_
  · rintro _ t s' ⟨hperformed, hframe, -⟩
    exact ⟨hperformed.counts .unwound rfl, hperformed.begins, hperformed.only .unwound, hframe⟩
  · rintro t s' ⟨hstuck, hrunning⟩
    exact ⟨hstuck.counts, hstuck.begins, hstuck.only, hstuck.contexts, hrunning⟩
  · obtain ⟨hperformed, hframe, hready⟩ := hran
    unfold boolean
    by_cases hno : value = 0
    · rw [if_pos hno]
      refine .bind_modify ⟨s₁, ⟨⟨params, ?_⟩, hframe, hready⟩, rfl⟩
      show s.Performed _ _ _ _ (t ++ []) s₁
      rw [List.append_nil]
      subst hno
      exact hperformed
    · rw [if_neg hno]
      by_cases hyes : value = 1
      · rw [if_pos hyes]
        refine ⟨s₁, ⟨⟨params, ?_⟩, hframe, hready⟩, rfl⟩
        show s.Performed _ _ _ _ (t ++ []) s₁
        rw [List.append_nil]
        subst hyes
        exact hperformed
      · rw [if_neg hyes]
        refine .bind (M := fun _ _ _ => False) (.throw ?_) (fun _ _ _ h => h.elim)
        rw [List.append_nil]
        refine ⟨hperformed.counts (.returned value) ?_, hperformed.begins,
          hperformed.only (.returned value), hframe⟩
        cases callback <;> first | rfl | skip
        show (value == 1) = false
        exact beq_false_of_ne hyes

section Start

variable {plugin : PluginConfig} {code : Code} {codes : StartCodes}

/-- A root that a ready guest can start: it is in the table, and not refused. -/
structure Session.Startable (s : Session) (root : ContextId) : Prop where
  ready : s.Ready
  hosts : s.Hosts root
  accepted : s.abi.contexts.rejectionOf root = none

theorem Session.Startable.mayBegin (h : s.Startable root) {callback : Callback}
    (hstream : callback.ofOneStream = false) (hvm : callback = .vmStart → aim = .vmStart) :
    s.MayBegin aim callback root :=
  mayBegin_of_accepted h.ready (ContextTable.isSome_of_contextType h.hosts.type) h.accepted hstream
    fun hcallback => .inl (hvm hcallback)

theorem Session.Startable.setPlugin (h : s.Startable root) (plugin : PluginConfig) :
    (s.mapContexts (·.setPlugin root plugin)).Startable root :=
  ⟨h.ready.of_mapContexts _, h.hosts.setPlugin plugin,
    (ContextTable.rejectionOf_setPlugin plugin).trans h.accepted⟩

theorem onVmStart_leaves (hs : s.Startable root) :
    Leaves (onVmStart root code)
      (fun accepted t s' => ∃ s₁, s.AnsweredBy .vmStart root accepted t s₁ ∧
        s' = if accepted then s₁ else s₁.mapContexts (·.rejectVm root))
      (fun _ t s' => s.Unanswered .vmStart t s' ∨
        2 ^ 31 ≤ s.abi.services.vmConfiguration.length ∧ t = [] ∧ s' = s)
      (s.Unreturned .vmStart) s := by
  unfold onVmStart
  refine .bind_ok (requireLive_of_live hs.ready.toLive) ?_
  refine .bind_ok (requireRoot_of_root hs.hosts.type) ?_
  refine .bind_ok (accepted_of_accepted hs.accepted) (.bind_read ?_)
  rcases lt_or_ge s.abi.services.vmConfiguration.length (2 ^ 31) with hshort | hlong
  · refine .bind_ok (wireSize_of_lt hshort) ?_
    exact (ask_leaves .vmStart hs.ready (hs.mayBegin rfl fun _ => rfl)).mono
      (fun _ _ _ h => h) (fun _ _ _ h => .inl h) fun _ _ h => h
  · unfold Leaves
    rw [bind_of_err (wireSize_of_le hlong)]
    exact .inr ⟨hlong, rfl, rfl⟩

theorem onConfigure_leaves (hs : s.Startable root) :
    Leaves (onConfigure root plugin code)
      (fun accepted t s' => ∃ s₁,
        (s.mapContexts (·.setPlugin root plugin)).AnsweredBy .configure root accepted t s₁ ∧
        s' = if accepted then s₁ else s₁.mapContexts (·.reject root))
      (fun _ t s' =>
        (s.mapContexts (·.setPlugin root plugin)).Unanswered .configure t s' ∨ t = [] ∧ s' = s)
      ((s.mapContexts (·.setPlugin root plugin)).Unreturned .configure) s := by
  unfold onConfigure
  refine .bind_ok (requireLive_of_live hs.ready.toLive) ?_
  refine .bind_ok (requireRoot_of_root hs.hosts.type) ?_
  refine .bind_ok (accepted_of_accepted hs.accepted) ?_
  rcases lt_or_ge plugin.configuration.length (2 ^ 31) with hshort | hlong
  · refine .bind_ok (wireSize_of_lt hshort) (.bind_modify ?_)
    have hs' := hs.setPlugin plugin
    exact (ask_leaves .configure hs'.ready (hs'.mayBegin rfl (by rintro ⟨⟩))).mono
      (fun _ _ _ h => h) (fun _ _ _ h => .inl h) fun _ _ h => h
  · unfold Leaves
    rw [bind_of_err (wireSize_of_le hlong)]
    exact .inr ⟨rfl, rfl⟩

/-! ## The two callbacks of a start -/

/-- The guest refused what the callback starts: the VM, or the root. -/
def AbiState.RefusedAt (abi : AbiState) (root : ContextId) (callback : Callback) : Prop :=
  if callback = .vmStart then abi.vmStarted = false ∧ abi.contexts.vmRejected.isSome
  else abi.vmStarted = true ∧ abi.contexts.isRejected root = true

/-- What an answer of a start says about the root. -/
def Session.Settled (s : Session) (plugin : PluginConfig) (root : ContextId) : Started → Prop
  | .serving r => r = root ∧ s.Live ∧ s.abi.contexts.rejectionOf root = none ∧
      s.abi.vmStarted = true ∧ s.abi.contexts.Holds root plugin
  | .refused r callback => r = root ∧ s.abi.RefusedAt root callback

/-- A callback of a start that failed, with the root still in the table. -/
structure Session.Failed (s : Session) (root : ContextId) (callback : Callback) : Prop where
  hosts : s.Hosts root
  phase : callback = .vmStart ∧ s.abi.vmStarted = false ∨
    callback = .configure ∧ s.abi.vmStarted = true

/-- Once its configuration began, the root holds the plugin. -/
def Session.Configures (s : Session) (root : ContextId) (plugin : PluginConfig) (t : List Event) :
    Prop :=
  (∃ e ∈ t, e.Begins .configure) → s.abi.contexts.Holds root plugin

theorem Session.Configures.nil : s.Configures root plugin [] := by
  rintro ⟨e, ⟨⟩, -⟩

/-- Another callback configures nothing. -/
theorem Session.Configures.of_only {callback : Callback} (hcallback : callback ≠ .configure)
    (h : ∀ e ∈ t, ∀ callback', e.Begins callback' → callback' = callback) :
    s.Configures root plugin t := by
  rintro ⟨e, he, hbegins⟩
  exact absurd (h e he _ hbegins).symm hcallback

/-- A callback before the configuration changes nothing of what follows. -/
theorem Session.Configures.append {callback : Callback} {u : List Event}
    (hcallback : callback ≠ .configure)
    (h : ∀ e ∈ t, ∀ callback', e.Begins callback' → callback' = callback)
    (hu : s.Configures root plugin u) : s.Configures root plugin (t ++ u) := by
  rintro ⟨e, he, hbegins⟩
  rcases List.mem_append.1 he with he | he
  · exact absurd (h e he _ hbegins).symm hcallback
  · exact hu ⟨e, he, hbegins⟩

/-- The configuration of a root, once the VM is started. -/
theorem configure_leaves (hs : s.Startable root) (hvm : s.abi.vmStarted = true) :
    Leaves (do
      let configured ← Prog.mapErr (Callback.configure, ·)
        (onConfigure root plugin codes.configure)
      if configured then return Started.serving root else return .refused root .configure)
      (fun started t s' => s.Counts t s' ∧ s'.Configures root plugin t ∧ s'.Settled plugin root started)
      (fun failure t s' => s.Counts t s' ∧ s'.Configures root plugin t ∧ s'.Failed root failure.1)
      (fun t s' => s.Counts t s' ∧ s'.Configures root plugin t ∧ s'.abi.currentCallback.isSome)
      s := by
  have hs' := hs.setPlugin plugin
  have hplugin : s.Counts [] (s.mapContexts (·.setPlugin root plugin)) := .silent rfl
  have hholds : (s.mapContexts (·.setPlugin root plugin)).abi.contexts.Holds root plugin :=
    ContextTable.holds_setPlugin hs.hosts.type
  refine .bind (M := fun configured t s' => s.Counts t s' ∧ s'.Configures root plugin t ∧
    s'.Settled plugin root (if configured then .serving root else .refused root .configure))
    (.mapErr ((onConfigure_leaves hs).mono ?_ ?_ ?_)) ?_
  · rintro accepted t _ ⟨s₁, ⟨⟨params, htrace⟩, hframe, hready⟩, rfl⟩
    have hcounts := hplugin.trans (htrace.counts (.returned _) rfl)
    have hvm' : s₁.abi.vmStarted = true := hframe.vmStarted.trans hvm
    have hkept := hholds.keeps hframe.contexts
    cases accepted with
    | true => exact ⟨hcounts, fun _ => hkept, rfl, hready.toLive,
        (hframe.contexts.rejectionOf root).trans hs'.accepted, hvm', hkept⟩
    | false =>
      exact ⟨⟨hcounts.balance, hcounts.made⟩, fun _ => hkept.modify fun _ => rfl, rfl, hvm',
        (hs'.hosts.keeps hframe.contexts).isRejected⟩
  · rintro e t s' (⟨hcounts, -, -, hframe⟩ | ⟨rfl, rfl⟩)
    · exact ⟨hplugin.trans hcounts, fun _ => hholds.keeps hframe.contexts,
        hs'.hosts.keeps hframe.contexts, .inr ⟨rfl, hframe.vmStarted.trans hvm⟩⟩
    · exact ⟨.silent rfl, .nil, hs.hosts, .inr ⟨rfl, hvm⟩⟩
  · rintro t s' ⟨hcounts, -, -, hkeeps, hrunning⟩
    exact ⟨hplugin.trans hcounts, fun _ => hholds.keeps hkeeps, hrunning⟩
  · rintro configured t s' ⟨hcounts, hconfigures, hsettled⟩
    cases configured <;>
    · refine .pure ?_
      rw [List.append_nil]
      exact ⟨hcounts, hconfigures, hsettled⟩

/-- A part of a start that runs `proxy_on_vm_start` when the VM is not started and its
    configuration is short. -/
def Session.Asks (s : Session) (t : List Event) : Prop :=
  s.abi.vmStarted = false → s.abi.services.vmConfiguration.length < 2 ^ 31 →
    ∃ e ∈ t, e.Begins .vmStart

theorem Session.Counts.started (h : s.AnsweredBy .vmStart root true t s')
    (hvm : s.abi.vmStarted = false) :
    s.Counts t (s'.mapAbi fun abi => { abi with vmStarted := true }) := by
  obtain ⟨params, htrace⟩ := h.trace
  exact ⟨by rw [htrace.countP, hvm]; rfl, htrace.made (.returned _)⟩

/-- What a start left before its configuration. -/
structure Session.Prepares (s₀ : Session) (t : List Event) (s : Session) : Prop where
  counts : s₀.Counts t s
  asks : ∀ u, s₀.Asks (t ++ u)
  only : ∀ e ∈ t, ∀ callback, e.Begins callback → callback = .vmStart

/-- What comes after the start of the VM, in a start that left `t` before. -/
theorem started_leaves {s₀ : Session}
    (hs : (s.mapAbi fun abi => { abi with vmStarted := true }).Startable root)
    (hprepares : s₀.Prepares t (s.mapAbi fun abi => { abi with vmStarted := true })) :
    Leaves (do
      Prog.modify (·.mapAbi fun abi => { abi with vmStarted := true })
      let configured ← Prog.mapErr (Callback.configure, ·)
        (onConfigure root plugin codes.configure)
      if configured then return Started.serving root else return .refused root .configure)
      (fun started u s' => s₀.Counts (t ++ u) s' ∧ s₀.Asks (t ++ u) ∧
        s'.Configures root plugin (t ++ u) ∧ s'.Settled plugin root started)
      (fun failure u s' => s₀.Counts (t ++ u) s' ∧ s₀.Asks (t ++ u) ∧
        s'.Configures root plugin (t ++ u) ∧ s'.Failed root failure.1)
      (fun u s' => s₀.Counts (t ++ u) s' ∧ s₀.Asks (t ++ u) ∧
        s'.Configures root plugin (t ++ u) ∧ s'.abi.currentCallback.isSome) s := by
  obtain ⟨hcounts, hasks, honly⟩ := hprepares
  have hvm : Callback.vmStart ≠ .configure := by decide
  refine .bind_modify ((configure_leaves hs rfl).mono ?_ ?_ ?_)
  · exact fun _ u _ h => ⟨hcounts.trans h.1, hasks u, h.2.1.append hvm honly, h.2.2⟩
  · exact fun _ u _ h => ⟨hcounts.trans h.1, hasks u, h.2.1.append hvm honly, h.2.2⟩
  · exact fun u _ h => ⟨hcounts.trans h.1, hasks u, h.2.1.append hvm honly, h.2.2⟩

/-- **The two callbacks of a start.** -/
theorem startRun_leaves (hs : s.Startable root) :
    Leaves (startRun root plugin codes)
      (fun started t s' => s.Counts t s' ∧ s.Asks t ∧ s'.Configures root plugin t ∧
        s'.Settled plugin root started)
      (fun failure t s' => s.Counts t s' ∧ s.Asks t ∧ s'.Configures root plugin t ∧
        s'.Failed root failure.1)
      (fun t s' => s.Counts t s' ∧ s.Asks t ∧ s'.Configures root plugin t ∧
        s'.abi.currentCallback.isSome) s := by
  have hconfigure : Callback.vmStart ≠ .configure := by decide
  unfold startRun
  refine .bind_read ?_
  cases hvm : s.abi.vmStarted with
  | true =>
    have hstarted : s.Prepares [] (s.mapAbi fun abi => { abi with vmStarted := true }) :=
      ⟨.silent hvm.symm, fun _ hnot => by (rw [hvm] at hnot; cases hnot), fun e he => by cases he⟩
    have hs' : (s.mapAbi fun abi => { abi with vmStarted := true }).Startable root :=
      ⟨hs.ready.started true, ⟨hs.hosts.type, hs.hosts.self⟩, hs.accepted⟩
    exact started_leaves hs' hstarted
  | false =>
    refine .bind (M := fun accepted t s' => ∃ s₁, s.AnsweredBy .vmStart root accepted t s₁ ∧
        s' = if accepted then s₁ else s₁.mapContexts (·.rejectVm root))
      (.mapErr ((onVmStart_leaves hs).mono (fun _ _ _ h => h) ?_ ?_)) ?_
    · rintro e t s' (h | ⟨hlong, rfl, rfl⟩)
      · exact ⟨h.counts, fun _ _ => h.begins, .of_only hconfigure h.only,
          hs.hosts.keeps h.frame.contexts, .inl ⟨rfl, h.frame.vmStarted.trans hvm⟩⟩
      · exact ⟨.silent rfl, fun _ hshort => absurd hshort (not_lt.2 hlong), .nil, hs.hosts,
          .inl ⟨rfl, hvm⟩⟩
    · exact fun t s' h => ⟨h.counts, fun _ _ => h.begins, .of_only hconfigure h.only, h.running⟩
    · rintro accepted t _ ⟨s₁, hanswered, rfl⟩
      obtain ⟨params, htrace⟩ := hanswered.trace
      have honly := htrace.only (.returned _)
      have hasks : ∀ u, s.Asks (t ++ u) := fun u _ _ => by
        obtain ⟨e, he, hbegins⟩ := htrace.begins
        exact ⟨e, List.mem_append_left _ he, hbegins⟩
      cases accepted with
      | false =>
        have hcounts := htrace.counts (.returned _) rfl
        refine .pure ⟨?_, hasks [], ?_, rfl, hanswered.frame.vmStarted.trans hvm, rfl⟩
        · rw [List.append_nil]
          exact ⟨hcounts.balance, hcounts.made⟩
        · rw [List.append_nil]
          exact .of_only hconfigure honly
      | true =>
        have hstarted := Session.Counts.started hanswered hvm
        have hs' : (s₁.mapAbi fun abi => { abi with vmStarted := true }).Startable root :=
          ⟨hanswered.ready.started true, hs.hosts.keeps hanswered.frame.contexts,
            (hanswered.frame.contexts.rejectionOf root).trans hs.accepted⟩
        exact started_leaves hs' ⟨hstarted, hasks, honly⟩

/-! ## A start -/

/-- A start of `plugin` that created `root`. -/
structure Session.Starts (s : Session) (plugin : PluginConfig) (root : ContextId)
    (t : List Event) (s' : Session) : Prop where
  created : Event.created root none ∈ t
  only : ∀ id parent, Event.created id parent ∈ t → id = root ∧ parent = none
  balance : t.countP Event.startsVm + s.abi.vmStarted.toNat = s'.abi.vmStarted.toNat
  asks : (∃ c value, Event.returned .contextCreate c value ∈ t) → s.Asks t
  configures : s'.Configures root plugin t

/-- A start whose creation is followed by what counts. -/
theorem Session.Starts.of_counts {s₀ : Session} (h : s₀.Counts t s')
    (hvm : s.abi.vmStarted = s₀.abi.vmStarted)
    (hasks : (∃ c value, Event.returned .contextCreate c value ∈ t) → s.Asks t)
    (hconfigures : s'.Configures root plugin t) :
    s.Starts plugin root (.created root none :: t) s' where
  created := .head _
  only id parent hmem := by
    rcases List.mem_cons.1 hmem with hmem | hmem
    · cases hmem
      exact ⟨rfl, rfl⟩
    · exact absurd hmem (h.made id parent)
  balance := by
    rw [List.countP_cons_of_neg Bool.false_ne_true, hvm]
    exact h.balance
  asks := by
    rintro ⟨c, value, hmem⟩ hnot hshort
    rcases List.mem_cons.1 hmem with hmem | hmem
    · cases hmem
    · obtain ⟨e, he, hbegins⟩ := hasks ⟨c, value, hmem⟩ hnot hshort
      exact ⟨e, .tail _ he, hbegins⟩
  configures := by
    rintro ⟨e, he, c, abi, hbegun⟩
    rcases List.mem_cons.1 he with rfl | he
    · cases hbegun
    · exact hconfigures ⟨e, he, c, abi, hbegun⟩

theorem Session.Hosts.of_creates {table : ContextTable}
    (h : s.abi.contexts.Creates none root table) : (s.mapContexts fun _ => table).Hosts root := by
  have hget : table.get root = some (ContextTable.fresh .root none) := by
    rw [h.get_eq, if_pos rfl]
    rfl
  refine ⟨?_, ?_⟩
  · show (table.get root).map (·.contextType) = _
    rw [hget]
    rfl
  · show (table.get root).map _ = _
    rw [hget]
    rfl

/-- A start that created no root. -/
structure Session.Unmade (s : Session) (t : List Event) (s' : Session) : Prop where
  trace : t = []
  contexts : s'.abi.contexts = s.abi.contexts
  vmStarted : s'.abi.vmStarted = s.abi.vmStarted

section Dropped

theorem contexts_dropped (s : Session) : (dropped s).abi.contexts = s.abi.contexts := by
  unfold dropped
  dsimp only
  split <;> rfl

theorem vmStarted_dropped (s : Session) : (dropped s).abi.vmStarted = s.abi.vmStarted := by
  unfold dropped
  dsimp only
  split <;> rfl

theorem poisoned_dropped (h : s.abi.currentCallback.isSome ∨ s.host.poisoned = true) :
    (dropped s).host.poisoned = true := by
  unfold dropped
  dsimp only
  split
  · rfl
  · rename_i hidle
    exact h.resolve_left hidle

theorem live_dropped (h : s.Live) : (dropped s).Live := by
  unfold dropped
  dsimp only
  rw [h.idle]
  exact ⟨h.idle, h.live⟩

end Dropped

/-- The creation of a root by a start. -/
theorem onContextCreate_leaves (plugin : PluginConfig) (hs : s.Rested)
    (hwf : s.abi.contexts.WellFormed) :
    Leaves (onContextCreate none code)
      (fun root t s' => ∃ inner, t = .created root none :: inner ∧ s.Counts inner s' ∧
        (∀ e ∈ inner, ∀ callback, e.Begins callback → callback = .contextCreate) ∧
        s.abi.services = s'.abi.services ∧ s.abi.vmStarted = s'.abi.vmStarted ∧ s'.Startable root)
      (fun _ t s' => s.Unmade t s' ∨ ∃ root, s.Starts plugin root t s' ∧ s'.host.poisoned = true)
      (fun t s' => s.Unmade t s' ∨ ∃ root, s.Starts plugin root t s' ∧
        s'.abi.currentCallback.isSome) s := by
  have hconfigure : Callback.contextCreate ≠ .configure := by decide
  unfold onContextCreate
  refine .bind ((requireLive_leaves s).mono (fun _ _ _ h => h) ?_ fun _ _ h => h.elim) ?_
  · rintro e t s' ⟨rfl, -, -, habi⟩
    exact .inl ⟨rfl, by rw [habi], by rw [habi]⟩
  rintro _ _ _ ⟨rfl, hsame, hlive⟩
  rw [hsame]
  have hunmade : s.Unmade [] s := ⟨rfl, rfl, rfl⟩
  refine .bind_finds vmAccepted_finds (fun _ hvm => ?_) (fun _ => .inl hunmade) (.inl hunmade)
  refine .bind_read (.bind_ofExcept ?_ fun _ _ => .inl hunmade)
  rintro ⟨root, table⟩ hcreate
  have hcreates := ContextTable.creates_of_create hcreate
  have hready : (s.mapContexts fun _ => table).Ready := (hs.ready hlive).of_mapContexts _
  have hhosts : (s.mapContexts fun _ => table).Hosts root := .of_creates hcreates
  have haccepted : (s.mapContexts fun _ => table).abi.contexts.rejectionOf root = none :=
    hwf.rejectionOf_of_create hcreates hvm (by rintro p ⟨⟩)
  have hstartable : (s.mapContexts fun _ => table).Startable root := ⟨hready, hhosts, haccepted⟩
  refine .bind_act (.bind ((run_asks .nothing hready
    (hstartable.mayBegin rfl (by rintro ⟨⟩))).mono (fun _ _ _ h => h) ?_ ?_) ?_)
  · rintro e t s' ⟨hperformed, -, hpoisoned⟩
    refine .inr ⟨root, .of_counts (hperformed.counts .unwound rfl) rfl ?_
      (.of_only hconfigure (hperformed.only .unwound)), hpoisoned⟩
    rintro ⟨c, value, hmem⟩
    cases hperformed.returned hmem
  · rintro t s' ⟨hstuck, hrunning⟩
    refine .inr ⟨root, .of_counts hstuck.counts rfl ?_ (.of_only hconfigure hstuck.only), hrunning⟩
    rintro ⟨c, value, hmem⟩
    exact absurd hmem hstuck.returned
  · rintro value t s' ⟨hperformed, hframe, hready'⟩
    refine .pure ⟨t, by rw [List.append_nil]; rfl, ?_, hperformed.only (.returned value),
      hframe.services.symm, hframe.vmStarted.symm, hready', hhosts.keeps hframe.contexts, (hframe.contexts.rejectionOf root).trans haccepted⟩
    have hcounts := hperformed.counts (.returned value) rfl
    exact ⟨hcounts.balance, hcounts.made⟩

/-- The session in the scope of its own that a start enters. -/
def Session.enteredRoot (s : Session) : Session :=
  { s.mapAbi fun abi => { abi with streamState := some .noStream } with
    detached := none, scope := some ⟨none, Lent.noStream.type⟩ }

/-- What comes before the two callbacks and after them. -/
theorem Session.Starts.of_run {t' : List Event} (hcreated : s.Counts t s')
    (hservices : s.abi.services = s'.abi.services) (hvm : s.abi.vmStarted = s'.abi.vmStarted)
    {s'' : Session} (hcounts : s'.Counts t' s'') (hasks : s'.Asks t')
    (hconfigures : s''.Configures root plugin (t ++ t')) :
    s.Starts plugin root (.created root none :: (t ++ t')) s'' := by
  refine .of_counts (hcreated.trans hcounts) rfl (fun _ hnot hshort => ?_) hconfigures
  rw [hvm] at hnot
  rw [hservices] at hshort
  obtain ⟨e, he, hbegins⟩ := hasks hnot hshort
  exact ⟨e, List.mem_append_right _ he, hbegins⟩

/-- A change after a start that leaves the flag of the VM, and the plugin of the root. -/
theorem Session.Starts.of_eq {s'' : Session} (h : s.Starts plugin root t s')
    (hvm : s''.abi.vmStarted = s'.abi.vmStarted)
    (hholds : s'.abi.contexts.Holds root plugin → s''.abi.contexts.Holds root plugin) :
    s.Starts plugin root t s'' :=
  ⟨h.created, h.only, h.balance.trans (by rw [hvm]), h.asks,
    fun hbegins => hholds (h.configures hbegins)⟩

theorem Session.Settled.of_dropped {started : Started} (h : s.Settled plugin root started) :
    (dropped s).Settled plugin root started := by
  cases started with
  | serving r =>
    obtain ⟨hr, hlive, haccepted, hvm, hholds⟩ := h
    exact ⟨hr, live_dropped hlive, by rw [contexts_dropped]; exact haccepted,
      by rw [vmStarted_dropped]; exact hvm, by rw [contexts_dropped]; exact hholds⟩
  | refused r callback =>
    refine ⟨h.1, ?_⟩
    unfold AbiState.RefusedAt
    rw [contexts_dropped, vmStarted_dropped]
    exact h.2

theorem Session.Settled.root_eq {started : Started} (h : s.Settled plugin root started) :
    started.root = root := by
  cases started <;> exact h.1

theorem Session.Failed.of_dropped {callback : Callback} (h : s.Failed root callback) :
    (dropped s).Failed root callback :=
  ⟨⟨by rw [contexts_dropped]; exact h.hosts.type, by rw [contexts_dropped]; exact h.hosts.self⟩,
    by rw [vmStarted_dropped]; exact h.phase⟩

/-- What the two later callbacks of a start leave, whether it ends or fails. -/
def Session.Concludes (s : Session) (plugin : PluginConfig) (root : ContextId) :
    Except (Callback × GuestError) Started → Prop
  | .ok started => s.Settled plugin root started
  | .error failure => s.Failed root failure.1

/-- What a failed callback of a start leaves refused. -/
theorem Session.Failed.refusedAt {callback : Callback} (h : s.Failed root callback) :
    (s.mapContexts fun table =>
      if callback = .vmStart then table.rejectVm root else table.reject root).abi.RefusedAt root
        callback := by
  unfold AbiState.RefusedAt
  rcases h.phase with ⟨rfl, hvm⟩ | ⟨rfl, hvm⟩
  · exact ⟨hvm, rfl⟩
  · exact ⟨hvm, h.hosts.isRejected⟩

/-- **A start**: it creates no root, or its root serves, or what it refused or failed at is
    refused, or the guest is poisoned. -/
theorem start_leaves (plugin : PluginConfig) (codes : StartCodes) (hs : s.Rested) (hwf : s.abi.contexts.WellFormed) :
    Leaves (start plugin codes)
      (fun started t s' => s.Starts plugin started.root t s' ∧ s'.Settled plugin started.root started)
      (fun _ t s' => s.Unmade t s' ∨ ∃ root, s.Starts plugin root t s' ∧
        (s'.host.poisoned = true ∨ ∃ callback, s'.abi.RefusedAt root callback))
      (fun t s' => s.Unmade t s' ∨ ∃ root, s.Starts plugin root t s' ∧ s'.host.poisoned = true)
      s := by
  unfold start
  refine .bind_read ?_
  split
  · refine .bind (M := fun _ _ _ => False) (.throw ?_) fun _ _ _ h => h.elim
    exact .inl ⟨rfl, rfl, rfl⟩
  · have hentered : s.enteredRoot.Rested := hs.of_eq rfl rfl rfl rfl
    have hunmade : ∀ {t s'}, s.enteredRoot.Unmade t s' → s.Unmade t (dropped s') := fun h =>
      ⟨h.trace, (contexts_dropped _).trans h.contexts, (vmStarted_dropped _).trans h.vmStarted⟩
    have hstarts : ∀ {root t s'}, s.enteredRoot.Starts plugin root t s' →
        s.Starts plugin root t (dropped s') := fun h =>
      ⟨h.created, h.only, h.balance.trans (by rw [vmStarted_dropped]), h.asks,
        fun hbegins => by rw [contexts_dropped]; exact h.configures hbegins⟩
    refine .bind_modify ?_
    refine .bind (M := fun answer t s' => s.Starts plugin answer.1 t s' ∧
      s'.Concludes plugin answer.1 answer.2) (.cleanedUp ?_) ?_
    · refine .bind ((onContextCreate_leaves plugin hentered hwf).mono (fun _ _ _ h => h) ?_ ?_) ?_
      · rintro e t s' (h | ⟨root, h, hpoisoned⟩)
        · exact .inl (hunmade h)
        · exact .inr ⟨root, hstarts h, .inl (poisoned_dropped (.inr hpoisoned))⟩
      · rintro t s' (h | ⟨root, h, hrunning⟩)
        · exact .inl (hunmade h)
        · exact .inr ⟨root, hstarts h, poisoned_dropped (.inl hrunning)⟩
      · rintro root _ s₁ ⟨inner, rfl, hcounts, honly, hservices, hvm, hstartable⟩
        have hconfigure : Callback.contextCreate ≠ .configure := by decide
        have hrun : ∀ {u s'}, s₁.Counts u s' → s₁.Asks u → s'.Configures root plugin u →
            s.Starts plugin root (.created root none :: inner ++ u) (dropped s') :=
          fun hcounts' hasks hconfigures =>
            hstarts (.of_run hcounts hservices hvm hcounts' hasks
              (hconfigures.append hconfigure honly))
        refine .bind (M := fun answer u s' => s₁.Counts u s' ∧ s₁.Asks u ∧
          s'.Configures root plugin u ∧ s'.Concludes plugin root answer)
          (.attempt ((startRun_leaves hstartable).mono (fun _ _ _ h => h) (fun _ _ _ h => h) ?_)) ?_
        · rintro u s' ⟨hcounts', hasks, hconfigures, hrunning⟩
          exact .inr ⟨root, hrun hcounts' hasks hconfigures, poisoned_dropped (.inl hrunning)⟩
        · rintro answer u s' ⟨hcounts', hasks, hconfigures, hend⟩
          refine .pure ⟨?_, ?_⟩
          · rw [List.append_nil]
            exact hrun hcounts' hasks hconfigures
          · cases answer with
            | ok started => exact hend.of_dropped
            | error failure => exact hend.of_dropped
    · rintro ⟨root, failure | started⟩ t s' ⟨h, hend⟩
      · refine .bind_modify (.throw (.inr ⟨root, ?_, .inr ⟨failure.1, hend.refusedAt⟩⟩))
        rw [List.append_nil]
        refine h.of_eq rfl fun hholds => ?_
        rw [contexts_mapContexts]
        split
        · exact hholds
        · exact hholds.modify fun _ => rfl
      · refine .pure ?_
        rw [List.append_nil, hend.root_eq]
        exact ⟨h, hend⟩

end Start

/-! ## The starts of the VM in a run -/

/-- Only a start records that the VM is started. -/
theorem Session.Step.vmStarted (step : s.Step aim t s') (haim : ∀ plugin, aim ≠ .start plugin) :
    s'.abi.vmStarted = s.abi.vmStarted := by
  cases step with
  | host running step => exact (HostKeeps.of_step step).vmStarted
  | started aimed =>
    obtain ⟨plugin, hstart⟩ := aimed
    exact absurd hstart (haim plugin)
  | deleted aimed idle live mark known root children =>
    rename_i c isRoot
    cases isRoot <;> rfl
  | _ => rfl

/-- A call that starts no VM gets no answer to a VM start. -/
theorem Session.Step.startsVm (step : s.Step aim t s') (haim : ∀ plugin, aim ≠ .start plugin)
    (hvm : aim ≠ .vmStart) : t.countP Event.startsVm = 0 := by
  cases step with
  | host running step => exact countP_of_ofHost step.ofHost
  | returned c value aimed =>
    rename_i callback
    rw [List.countP_singleton]
    by_cases hcallback : callback = .vmStart
    · rcases aimed hcallback with rfl | ⟨plugin, rfl⟩
      · exact absurd rfl hvm
      · exact absurd rfl (haim plugin)
    · cases callback <;> first | rfl | exact absurd rfl hcallback
  | _ => rfl

theorem Session.vmStarted_of_steps (path : Steps (Session.Step aim) s t s')
    (haim : ∀ plugin, aim ≠ .start plugin) : s'.abi.vmStarted = s.abi.vmStarted :=
  path.invariant (I := fun s' => s'.abi.vmStarted = s.abi.vmStarted)
    (fun _ _ _ h step => (step.vmStarted haim).trans h) rfl

theorem Session.startsVm_of_steps (path : Steps (Session.Step aim) s t s')
    (haim : ∀ plugin, aim ≠ .start plugin) (hvm : aim ≠ .vmStart) :
    t.countP Event.startsVm = 0 := by
  induction path with
  | nil => rfl
  | cons step _ ih => rw [List.countP_append, step.startsVm haim hvm, ih]

/-- Once the VM is started, no start begins `proxy_on_vm_start`. -/
theorem Session.Step.begins {plugin : PluginConfig} (step : s.Step (.start plugin) t s')
    (hvm : s.abi.vmStarted = true) :
    s'.abi.vmStarted = true ∧ ∀ e ∈ t, ¬ e.Begins .vmStart := by
  refine ⟨?_, fun e he ⟨c, abi, hbegun⟩ => ?_⟩
  · cases step with
    | host running step => exact (HostKeeps.of_step step).vmStarted.trans hvm
    | started aimed => rfl
    | deleted aimed idle live mark known root children => cases aimed
    | _ => exact hvm
  · obtain ⟨-, may, -⟩ := step.begun he hbegun
    rcases may.vmStart rfl with haim | ⟨-, hnot⟩
    · cases haim
    · rw [hvm] at hnot
      cases hnot

theorem Session.not_begins_of_steps {plugin : PluginConfig}
    (path : Steps (Session.Step (.start plugin)) s t s') (hvm : s.abi.vmStarted = true) :
    ∀ e ∈ t, ¬ e.Begins .vmStart := by
  have h : s'.abi.vmStarted = true ∧ ∀ e ∈ [] ++ t, ¬ e.Begins .vmStart := by
    refine path.history (I := fun past s => s.abi.vmStarted = true ∧
      ∀ e ∈ past, ¬ e.Begins .vmStart) ?_ ?_
    · rintro past s t s' ⟨hvm, hpast⟩ step
      obtain ⟨hvm', hbegins⟩ := step.begins hvm
      exact ⟨hvm', fun e he => (List.mem_append.1 he).elim (hpast e) (hbegins e)⟩
    · exact ⟨hvm, by rintro e ⟨⟩⟩
  exact h.2

theorem Session.Unmade.balance (h : s.Unmade t s') :
    t.countP Event.startsVm + s.abi.vmStarted.toNat = s'.abi.vmStarted.toNat := by
  rw [h.trace, h.vmStarted]
  exact Nat.zero_add _

/-- A start that the embedder drives by hand, and that the guest accepts. -/
def Call.StartsByHand (call : Call) : Prop :=
  ∃ root code, call.op = .onVmStart root code ∧ ∃ e ∈ call.trace, e.startsVm = true

/-- A call keeps the count of the accepted VM starts, unless it drives one by hand. -/
theorem Session.CallPath.balance {call : Call} (hcall : s.CallPath call s')
    (hhand : ¬ call.StartsByHand) :
    call.trace.countP Event.startsVm + s.abi.vmStarted.toNat = s'.abi.vmStarted.toNat := by
  by_cases hstart : ∃ plugin codes, call.op = .start plugin codes
  · obtain ⟨plugin, codes, hop⟩ := hstart
    have hleaves := replying_leaves Reply.started
      (start_leaves plugin codes hcall.rested hcall.sound.contexts)
    have hperform : (Op.start plugin codes).perform.run s = call.op.perform.run s := by rw [hop]
    rw [hcall.trace, hcall.last, ← hperform]
    show (List.countP _ ((replying (ProxyWasmHost.start plugin codes) .started).run s).trace) + _ =
      ((replying (ProxyWasmHost.start plugin codes) .started).run s).state.abi.vmStarted.toNat
    unfold Leaves at hleaves
    cases hexit : ((replying (ProxyWasmHost.start plugin codes) .started).run s).exit <;>
      rw [hexit] at hleaves
    · obtain ⟨_, _, hstarts, -⟩ := hleaves
      exact hstarts.balance
    · rcases hleaves with hunmade | ⟨root, hstarts, -⟩
      · exact hunmade.balance
      · exact hstarts.balance
    · rcases hleaves with hunmade | ⟨root, hstarts, -⟩
      · exact hunmade.balance
      · exact hstarts.balance
  · have haim : ∀ plugin, call.op.aim ≠ .start plugin := by
      intro plugin haim
      cases hop : call.op <;> rw [hop] at haim <;> cases haim
      exact hstart ⟨_, _, hop⟩
    rw [Session.vmStarted_of_steps hcall.path haim]
    suffices hnone : call.trace.countP Event.startsVm = 0 by rw [hnone]; exact Nat.zero_add _
    by_cases hvm : call.op.aim = .vmStart
    · rw [List.countP_eq_zero]
      intro e he hstarts
      cases hop : call.op <;> rw [hop] at hvm <;> cases hvm
      exact hhand ⟨_, _, hop, e, he, hstarts⟩
    · exact Session.startsVm_of_steps hcall.path haim hvm

/-- A run without a VM start accepted by hand counts what its flag says. -/
theorem Run.balance (r : Run) (hhand : ∀ call ∈ r.calls, ¬ call.StartsByHand) :
    r.trace.countP Event.startsVm = r.last.abi.vmStarted.toNat := by
  refine r.induction (I := fun past s =>
    (r.creation ++ past.flatMap Call.trace).countP Event.startsVm = s.abi.vmStarted.toNat) ?_ ?_
  · have hpath := r.fresh_ready.1
    rw [List.flatMap_nil, List.append_nil,
      Session.startsVm_of_steps hpath (by rintro plugin ⟨⟩) (by rintro ⟨⟩),
      Session.vmStarted_of_steps hpath (by rintro plugin ⟨⟩)]
    rfl
  · intro past s call s' hpast hmem hcall
    have hbalance := hcall.balance (hhand call hmem)
    rw [List.flatMap_append, ← List.append_assoc, List.flatMap_singleton, List.countP_append]
    omega

/-- A start that created its root asks a VM that is not started. -/
theorem Session.begins_of_returned {plugin : PluginConfig} {codes : StartCodes}
    (hs : s.Rested) (hwf : s.abi.contexts.WellFormed) (hvm : s.abi.vmStarted = false)
    (hshort : s.abi.services.vmConfiguration.length < 2 ^ 31)
    (hreturned : ∃ c value, Event.returned .contextCreate c value ∈
      ((Op.start plugin codes).perform.run s).trace) :
    ∃ e ∈ ((Op.start plugin codes).perform.run s).trace, e.Begins .vmStart := by
  have hunmade : ¬ s.Unmade ((Op.start plugin codes).perform.run s).trace
      ((Op.start plugin codes).perform.run s).state := by
    intro hunmade
    rw [hunmade.trace] at hreturned
    obtain ⟨c, value, hmem⟩ := hreturned
    cases hmem
  have hleaves := replying_leaves Reply.started
    (start_leaves plugin codes hs hwf)
  unfold Leaves at hleaves
  change Ends _ _ _ ((Op.start plugin codes).perform.run s).exit _ at hleaves
  cases hexit : ((Op.start plugin codes).perform.run s).exit <;> rw [hexit] at hleaves
  · obtain ⟨_, _, hstarts, -⟩ := hleaves
    exact hstarts.asks hreturned hvm hshort
  · obtain ⟨root, hstarts, -⟩ := hleaves.resolve_left hunmade
    exact hstarts.asks hreturned hvm hshort
  · obtain ⟨root, hstarts, -⟩ := hleaves.resolve_left hunmade
    exact hstarts.asks hreturned hvm hshort

/-- **The VM is started once**: in a run whose embedder drives no accepted VM start by hand,
    the guest accepts at most one, and a start that created its root asks it to start its
    VM, when the VM configuration is short, exactly as long as it accepted none. -/
theorem Run.starts_vm_once (r : Run) (hhand : ∀ call ∈ r.calls, ¬ call.StartsByHand) :
    r.trace.countP Event.startsVm ≤ 1 ∧ ∀ plugin codes,
      ((∃ e ∈ ((Op.start plugin codes).perform.run r.last).trace, e.Begins .vmStart) →
        ∀ e ∈ r.trace, e.startsVm = false) ∧
      ((∀ e ∈ r.trace, e.startsVm = false) →
        (∃ c value, Event.returned .contextCreate c value ∈
          ((Op.start plugin codes).perform.run r.last).trace) →
        r.last.abi.services.vmConfiguration.length < 2 ^ 31 →
        ∃ e ∈ ((Op.start plugin codes).perform.run r.last).trace, e.Begins .vmStart) := by
  have hbalance := r.balance hhand
  have hflag : (∀ e ∈ r.trace, e.startsVm = false) ↔ r.last.abi.vmStarted = false := by
    have hnone : r.trace.countP Event.startsVm = 0 ↔ ∀ e ∈ r.trace, e.startsVm = false := by
      simp [List.countP_eq_zero]
    rw [← hnone, hbalance]
    cases r.last.abi.vmStarted <;> simp
  refine ⟨hbalance.trans_le (Bool.toNat_le _), fun plugin codes => ⟨?_, ?_⟩⟩
  · rintro ⟨e, he, hbegins⟩
    rw [hflag, ← Bool.not_eq_true]
    intro hvm
    have hpath := ((Op.start plugin codes).perform_acts r.last_rested r.last_sound).1
    exact Session.not_begins_of_steps hpath hvm e he hbegins
  · intro hnone hreturned hshort
    exact Session.begins_of_returned r.last_rested r.last_sound.contexts (hflag.1 hnone) hshort
      hreturned

/-! ## A VM start by hand -/

namespace Starts

def services : VmServices := ⟨[], .info, [], [], 1, 2⟩

def plugin (rootId : Bytes) : PluginConfig := ⟨[], rootId, []⟩

/-- A guest that accepts whatever it is asked. -/
def accepting : StartCodes := ⟨.returning 0, .returning 1, .returning 1⟩

/-- An embedder creates a root and starts the VM by hand, and then starts a plugin. -/
def byHand : Run :=
  .of 0 .bare services (.atMost none)
    [.enter .noStream, .onContextCreate none (.returning 0),
      .onVmStart .min (.returning 1), .finish,
      .start (plugin [1]) accepting]
    rfl (by decide)

/-- The guest accepts the start of its VM twice. -/
theorem byHand_twice : byHand.trace.countP Event.startsVm = 2 := by decide

/-- An embedder that starts two plugins. -/
def twoPlugins : Run :=
  .of 0 .bare services (.atMost none)
    [.start (plugin [1]) accepting, .start (plugin [2]) accepting] rfl (by decide)

theorem twoPlugins_once : twoPlugins.trace.countP Event.startsVm ≤ 1 := by
  refine (Run.starts_vm_once twoPlugins ?_).1
  rintro call hmem ⟨root, code, hop, -⟩
  rcases List.mem_cons.1 hmem with rfl | hmem
  · cases hop
  · rcases List.mem_singleton.1 hmem with rfl
    cases hop

end Starts

end ProxyWasmHost
