/-
  An acknowledged `proxy_done` over a run: its context is done until the embedder asks
  for its end again.
-/
import ProxyWasmHost.CallScope.Traces
import ProxyWasmHost.Guest.Path

namespace ProxyWasmHost

open Prog Session Prologue

/-- The host begins `proxy_on_done` for `c`. -/
def Event.AsksDone (c : ContextId) (e : Event) : Prop := ∃ abi, e.begun = some (.done, c, abi)

/-- A `proxy_done` was answered OK for `c`, with no `proxy_on_done` begun since. -/
def Acked (c : ContextId) (past : List Event) : Prop :=
  ∃ before after, past = before ++ .acknowledged c :: after ∧ ∀ e ∈ after, ¬ e.AsksDone c

/-- The context is done, or no longer in the table. -/
def ContextTable.Ended (t : ContextTable) (c : ContextId) : Prop :=
  ∀ entry, t.get c = some entry → entry.state = .done

variable {aim : Aim} {s s' : Session} {t past : List Event} {c : ContextId}

theorem Acked.of_append (h : Acked c (past ++ t)) :
    (Acked c past ∧ ∀ e ∈ t, ¬ e.AsksDone c) ∨ Event.acknowledged c ∈ t := by
  obtain ⟨before, after, heq, hafter⟩ := h
  rcases List.append_eq_append_iff.1 heq with ⟨as, -, rfl⟩ | ⟨cs, rfl, hcs⟩
  · exact .inr (List.mem_append_right _ (.head _))
  · cases cs with
    | nil =>
      rw [List.nil_append] at hcs
      exact .inr (hcs ▸ .head _)
    | cons e cs =>
      rw [List.cons_append, List.cons.injEq] at hcs
      obtain ⟨rfl, rfl⟩ := hcs
      exact .inl ⟨⟨before, cs, rfl, fun e he => hafter e (List.mem_append_left _ he)⟩,
        fun e he => hafter e (List.mem_append_right _ he)⟩

/-! ## What the operations on the contexts keep -/

namespace ContextTable.Ended

variable {t t' : ContextTable} {x id : ContextId}

theorem of_get (h : t.Ended x) (hget : ∀ entry', t'.get x = some entry' →
    entry'.state = .done ∨ ∃ entry, t.get x = some entry ∧ entry'.state = entry.state) :
    t'.Ended x := by
  intro entry' hx
  rcases hget entry' hx with hdone | ⟨entry, hx₀, hstate⟩
  · exact hdone
  · exact hstate.trans (h entry hx₀)

theorem modify {f : ContextEntry → ContextEntry} (h : t.Ended x)
    (hf : ∀ entry, (f entry).state = entry.state ∨ (f entry).state = .done) :
    (t.modify id f).Ended x := by
  refine h.of_get fun entry' hx => ?_
  rw [get_modify] at hx
  split at hx
  · obtain ⟨entry, hx₀, rfl⟩ := Option.map_eq_some_iff.1 hx
    exact (hf entry).symm.imp_right fun hstate => ⟨entry, hx₀, hstate⟩
  · exact .inr ⟨entry', hx, rfl⟩

theorem done (h : t.Ended x) : t.done.2.Ended x := by
  rcases t.done_cases with heq | ⟨id, -, -, heq⟩ <;> rw [heq]
  · exact h
  · exact h.modify fun _ => .inr rfl

theorem setEffective (h : t.Ended x) : (t.setEffective id).2.Ended x := by
  intro entry hx
  rw [get_setEffective] at hx
  exact h entry hx

theorem setTickPeriod (h : t.Ended x) (period : Option ℕ) :
    (t.setTickPeriod id period).2.Ended x := by
  rcases t.setTickPeriod_cases id period with heq | ⟨root, entry, -, -, heq⟩ <;> rw [heq]
  · exact h
  · exact h.modify fun _ => .inl rfl

theorem setPlugin (h : t.Ended x) (plugin : PluginConfig) : (t.setPlugin id plugin).Ended x := by
  unfold ContextTable.setPlugin
  split
  · exact h.modify fun _ => .inl rfl
  · exact h

theorem remove (h : t.Ended x) : (t.remove id).Ended x := by
  intro entry hx
  rw [get_remove] at hx
  split at hx
  · cases hx
  · exact h entry hx

/-- A context that was there is not the one that is created. -/
theorem create {parent : Option ContextId} (h : t.Ended x) (hx : x.val < t.next.val)
    (hcreates : t.Creates parent id t') : t'.Ended x := by
  intro entry hget
  rw [hcreates.get_eq, if_neg] at hget
  · exact h entry hget
  · rintro rfl
    rw [hcreates.id_eq] at hx
    omega

/-- The context that `proxy_done` is answered OK for. -/
theorem of_done (heff : t.effective = some x) (hdone : t.done.1 = true) : t.done.2.Ended x := by
  rcases t.done_cases with heq | ⟨id, heff', -, heq⟩ <;> rw [heq] at hdone ⊢
  · cases hdone
  · cases heff.symm.trans heff'
    intro entry hx
    unfold ContextTable.setState at hx
    rw [get_modify, if_pos rfl] at hx
    obtain ⟨entry₀, -, rfl⟩ := Option.map_eq_some_iff.1 hx
    rfl

end ContextTable.Ended

/-! ## What a step keeps -/

/-- Every context that was acknowledged is done, now and in every state the events since
    showed. -/
structure Kept (past : List Event) (t : ContextTable) : Prop where
  known : ∀ c, Acked c past → c.val < t.next.val
  ended : ∀ c, Acked c past → t.Ended c
  shown : ∀ before e after, past = before ++ e :: after → ∀ abi, e.snapshot = some abi →
    ∀ c, Acked c before → abi.contexts.Ended c

theorem Kept.nil (t : ContextTable) : Kept [] t where
  known := by rintro c ⟨before, after, heq, -⟩; cases before <;> cases heq
  ended := by rintro c ⟨before, after, heq, -⟩; cases before <;> cases heq
  shown := by rintro before e after heq; cases before <;> cases heq

/-- One more event, or none. -/
theorem Kept.append {table table' : ContextTable} (h : Kept past table) (hone : t.length ≤ 1)
    (hshow : ∀ e ∈ t, ∀ abi, e.snapshot = some abi → abi.contexts = table)
    (hnext : table.next.val ≤ table'.next.val)
    (hkeep : ∀ c, c.val < table.next.val → (∀ e ∈ t, ¬ e.AsksDone c) → table.Ended c →
      table'.Ended c)
    (hnew : ∀ c, .acknowledged c ∈ t → c.val < table'.next.val ∧ table'.Ended c) :
    Kept (past ++ t) table' where
  known c hacked := by
    rcases hacked.of_append with ⟨hold, -⟩ | hmem
    · exact (h.known c hold).trans_le hnext
    · exact (hnew c hmem).1
  ended c hacked := by
    rcases hacked.of_append with ⟨hold, hnone⟩ | hmem
    · exact hkeep c (h.known c hold) hnone (h.ended c hold)
    · exact (hnew c hmem).2
  shown before e after heq abi hshown c hacked := by
    rcases List.append_eq_append_iff.1 heq with ⟨as, rfl, rfl⟩ | ⟨cs, rfl, hcs⟩
    · rw [List.length_append, List.length_cons] at hone
      have has : as = [] := List.length_eq_zero_iff.1 (by omega)
      rw [has, List.append_nil] at hacked
      rw [hshow e (List.mem_append_right _ (.head _)) abi hshown]
      exact h.ended c hacked
    · cases cs with
      | nil =>
        rw [List.nil_append] at hcs
        rw [List.append_nil] at h
        rw [hshow e (hcs ▸ .head _) abi hshown]
        exact h.ended c hacked
      | cons e' cs =>
        rw [List.cons_append, List.cons.injEq] at hcs
        obtain ⟨rfl, rfl⟩ := hcs
        exact h.shown before e cs rfl abi hshown c hacked

/-- A step with no event, or with one. -/
theorem HostStep.length_le {h h' : HostState} (step : HostStep h t h') : t.length ≤ 1 := by
  cases step <;> simp

theorem Session.Step.length_le (step : s.Step aim t s') : t.length ≤ 1 := by
  cases step with
  | host running step => exact step.length_le
  | _ => simp

/-- How a host function changes the contexts. -/
theorem HostStep.contexts_eq {h h' : HostState} (step : HostStep h t h') :
    h'.abi.contexts = h.abi.contexts ∨ h'.abi.contexts = h.abi.contexts.done.2 ∨
    (∃ id, h'.abi.contexts = (h.abi.contexts.setEffective id).2) ∨
    ∃ id period, h'.abi.contexts = (h.abi.contexts.setTickPeriod id period).2 := by
  cases step with
  | done => exact .inr (.inl rfl)
  | setEffective => exact .inr (.inr (.inl ⟨_, rfl⟩))
  | tickPeriod => exact .inr (.inr (.inr ⟨_, _, rfl⟩))
  | settled => exact .inl h.abi.contexts_settle
  | shared op answer => exact .inl (h.abi.contexts_recordShared _ op answer)
  | announced buffer => exact .inl (h.abi.contexts_takeAnnounced buffer)
  | _ => exact .inl rfl

theorem Kept.host {h h' : HostState} (hkept : Kept past h.abi.contexts)
    (hwf : h.abi.contexts.WellFormed) (step : HostStep h t h') :
    Kept (past ++ t) h'.abi.contexts := by
  have hnext := congrArg Id.val (HostKeeps.of_step step).contexts.next
  have hkeep : ∀ c, h.abi.contexts.Ended c → h'.abi.contexts.Ended c := by
    intro c hended
    rcases step.contexts_eq with heq | heq | ⟨id, heq⟩ | ⟨id, period, heq⟩ <;> rw [heq]
    · exact hended
    · exact hended.done
    · exact hended.setEffective
    · exact hended.setTickPeriod period
  refine hkept.append step.length_le (fun e he abi hshow => by rw [step.snapshot he hshow])
    hnext.ge (fun c _ _ => hkeep c) fun c hmem => ?_
  cases step with
  | done heff hdone =>
    rw [List.mem_singleton, Event.acknowledged.injEq] at hmem
    subst hmem
    obtain ⟨entry, hget⟩ := Option.isSome_iff_exists.1 (hwf.effective c heff)
    exact ⟨(hwf.below c entry hget).trans_le hnext.ge, .of_done heff hdone⟩
  | _ => simp at hmem

theorem Kept.host_steps {h h' : HostState} (hkept : Kept past h.abi.contexts)
    (hwf : h.abi.contexts.WellFormed) (path : Steps HostStep h t h') :
    Kept (past ++ t) h'.abi.contexts :=
  (path.history (I := fun past h => Kept past h.abi.contexts ∧ h.abi.contexts.WellFormed)
    (fun _ _ _ _ hI step => ⟨hI.1.host hI.2 step, step.wellFormed hI.2⟩) ⟨hkept, hwf⟩).1

/-- What the host does outside guest code acknowledges nothing. -/
theorem Session.Step.of_acknowledged (step : s.Step aim t s') (hmem : Event.acknowledged c ∈ t) :
    ∃ h, HostStep s.host t h ∧ s' = { s with host := h } := by
  cases step with
  | host running step => exact ⟨_, step, rfl⟩
  | _ => simp at hmem

/-- **Every step keeps what was acknowledged**, unless it answers `proxy_on_done`. -/
theorem Kept.step (hkept : Kept past s.abi.contexts) (hsound : s.Sound)
    (haim : ∀ c, aim ≠ .done c) (step : s.Step aim t s') : Kept (past ++ t) s'.abi.contexts := by
  by_cases hack : ∃ c, Event.acknowledged c ∈ t
  · obtain ⟨c, hmem⟩ := hack
    obtain ⟨h, hstep, rfl⟩ := step.of_acknowledged hmem
    exact hkept.host hsound.contexts hstep
  · refine hkept.append step.length_le (fun e he abi hshow => by rw [step.snapshot he hshow])
      step.evolves.next ?_ fun c hmem => absurd ⟨c, hmem⟩ hack
    intro c hc hnone hended
    cases step with
    | host running step =>
      rcases step.contexts_eq with heq | heq | ⟨id, heq⟩ | ⟨id, period, heq⟩
      · exact heq.symm ▸ hended
      · exact heq.symm ▸ hended.done
      · exact heq.symm ▸ hended.setEffective
      · exact heq.symm ▸ hended.setTickPeriod period
    | began params may => exact hended.setEffective
    | created aimed idle live vm accepted create =>
      exact hended.create hc (ContextTable.creates_of_create create)
    | streamKind stream agrees => exact hended.modify fun _ => .inl rfl
    | state state aimed => exact absurd aimed (haim _)
    | plugin root plugin aimed => exact hended.setPlugin plugin
    | rejected root aimed => exact hended.modify fun _ => .inl rfl
    | deleted aimed idle live mark known root children =>
      rename_i id isRoot
      have hremoved : (s.abi.removeContext id isRoot).contexts = s.abi.contexts.remove id := by
        cases isRoot <;> rfl
      have hend : (s.abi.contexts.remove id).Ended c := hended.remove
      exact hremoved.symm ▸ hend
    | _ => exact hended

theorem Kept.steps (hkept : Kept past s.abi.contexts) (hsound : s.Sound)
    (haim : ∀ c, aim ≠ .done c) (path : Steps (Session.Step aim) s t s') :
    Kept (past ++ t) s'.abi.contexts :=
  (path.history (I := fun past s => Kept past s.abi.contexts ∧ s.Sound)
    (fun _ _ _ _ hI step => ⟨hI.1.step hI.2 haim step, hI.2.step step⟩) ⟨hkept, hsound⟩).1

/-! ## The answer to `proxy_on_done` -/

/-- What a call of `on_done` leaves: nothing before it begins the callback, and the state
    that the guest answered once it is over. -/
theorem onDone_leaves (s : Session) (code : Code) :
    Leaves (onDone c code)
      (fun done t s' => ∃ s₀ s₁ : Session, s₀.abi.contexts = s.abi.contexts ∧
        s₀.Performed .done c [c.wire] (.returned .done c (if done then 1 else 0)) t s₁ ∧
        s' = s₁.mapContexts (·.setState c (if done then .done else .pending)))
      (fun _ t s' => t = [] ∧ s'.abi.contexts = s.abi.contexts ∨
        ∃ (s₀ : Session) (how : Event), s₀.abi.contexts = s.abi.contexts ∧ how.Tells .done c ∧
          s₀.Performed .done c [c.wire] how t s')
      (fun t s' => t = [] ∧ s'.abi.contexts = s.abi.contexts ∨
        ∃ s₀ : Session, s₀.abi.contexts = s.abi.contexts ∧ s₀.Stuck .done c [c.wire] t s') s := by
  unfold onDone
  refine .bind ((requireLive_leaves s).mono (fun _ _ _ h => h) ?_ fun _ _ h => h.elim) ?_
  · rintro e t s' ⟨rfl, -, -, habi⟩
    exact .inl ⟨rfl, by rw [habi]⟩
  rintro _ _ _ ⟨rfl, hsame, -⟩
  rw [hsame]
  refine .bind ((requireServedStream_silent s c).mono (fun _ _ _ h => h) ?_ ?_) ?_
  · exact fun _ _ _ h => .inl ⟨h.1, by rw [h.2]⟩
  · exact fun _ _ h => .inl ⟨h.1, by rw [h.2]⟩
  rintro _ _ s₀ ⟨rfl, habi⟩
  have hsilent : ([] : List Event) = [] ∧ s₀.abi.contexts = s.abi.contexts := ⟨rfl, by rw [habi]⟩
  refine .bind_finds require_finds (fun _ _ => ?_) (fun _ => .inl hsilent) (.inl hsilent)
  refine .bind ((run_leaves s₀).mono (fun _ _ _ h => h) ?_ ?_) fun value t s₁ hperformed => ?_
  · exact fun _ _ _ h => .inr ⟨s₀, _, hsilent.2, .unwound, h⟩
  · exact fun _ _ h => .inr ⟨s₀, hsilent.2, h⟩
  · unfold boolean
    by_cases hno : value = 0
    · rw [if_pos hno]
      subst hno
      refine ⟨s₀, s₁, hsilent.2, ?_, rfl⟩
      show s₀.Performed _ _ _ _ (t ++ []) s₁
      rw [List.append_nil]
      exact hperformed
    · rw [if_neg hno]
      by_cases hyes : value = 1
      · rw [if_pos hyes]
        subst hyes
        refine ⟨s₀, s₁, hsilent.2, ?_, rfl⟩
        show s₀.Performed _ _ _ _ (t ++ []) s₁
        rw [List.append_nil]
        exact hperformed
      · rw [if_neg hyes]
        refine .bind (M := fun _ _ _ => False) (.throw (.inr ⟨s₀, _, hsilent.2, .returned value, ?_⟩))
          fun _ _ _ h => h.elim
        rw [List.append_nil]
        exact hperformed

section Callback

variable {s₀ s₁ : Session} {callback : Callback} {params : List I32} {how : Event}

/-- What is acknowledged stays so while a callback begins and runs. -/
theorem Kept.stuck (hkept : Kept past s₀.abi.contexts) (hwf : s₀.abi.contexts.WellFormed)
    (h : s₀.Stuck callback c params t s₁) : Kept (past ++ t) s₁.abi.contexts := by
  obtain ⟨inner, host, path, rfl, rfl⟩ := h
  have hbegun : Kept (past ++ [s₀.beginning callback c params])
      (s₀.running c callback).host.abi.contexts := by
    refine hkept.append (by simp) ?_ ?_ (fun c _ _ hended => hended.setEffective) ?_
    · intro e he abi hshow
      rw [List.mem_singleton] at he
      subst he
      cases hshow
      rfl
    · exact (congrArg Id.val (ContextTable.Keeps.setEffective _ c).next).ge
    · intro c hmem
      rw [List.mem_singleton] at hmem
      cases hmem
  have hinner := hbegun.host_steps (hwf.setEffective c) path
  rw [List.append_assoc] at hinner
  exact hinner

theorem Kept.performed (hkept : Kept past s₀.abi.contexts) (hwf : s₀.abi.contexts.WellFormed)
    (h : s₀.Performed callback c params how t s₁) (htells : how.Tells callback c) :
    Kept (past ++ t) s₁.abi.contexts := by
  obtain ⟨inner, host, path, rfl, rfl⟩ := h
  have hstuck : s₀.Stuck callback c params (s₀.beginning callback c params :: inner)
      { s₀ with host } := ⟨inner, host, path, rfl, rfl⟩
  have hinner := hkept.stuck hwf hstuck
  have hover : Kept (past ++ s₀.beginning callback c params :: inner ++ [.finished host.abi])
      host.abi.contexts := by
    refine hinner.append (by simp) ?_ (Nat.le_refl _) (fun c _ _ hended => hended) ?_
    · intro e he abi hshow
      rw [List.mem_singleton] at he
      subst he
      cases hshow
      rfl
    · intro c hmem
      rw [List.mem_singleton] at hmem
      cases hmem
  have hlast : Kept (past ++ s₀.beginning callback c params :: inner ++ [.finished host.abi] ++ [how])
      host.abi.contexts := by
    refine hover.append (by simp) ?_ (Nat.le_refl _) (fun c _ _ hended => hended) ?_
    · intro e he abi hshow
      rw [List.mem_singleton] at he
      rw [he, htells.snapshot] at hshow
      cases hshow
    · intro c hmem
      rw [List.mem_singleton] at hmem
      cases htells <;> cases hmem
  show Kept _ host.abi.contexts
  simpa only [List.append_assoc, List.cons_append, List.nil_append] using hlast

end Callback

/-- A context whose `proxy_on_done` began was acknowledged in it, if at all. -/
theorem Acked.mem_of_performed {s₀ s₁ : Session} {params : List I32} {how : Event}
    (hacked : Acked c (past ++ t)) (h : s₀.Performed .done c params how t s₁) :
    Event.acknowledged c ∈ t := by
  rcases hacked.of_append with ⟨-, hnone⟩ | hmem
  · obtain ⟨inner, host, -, -, rfl⟩ := h
    exact absurd ⟨s₀.abi, rfl⟩ (hnone _ (.head _))
  · exact hmem

/-- The answer of `proxy_on_done` is recorded: it loses nothing when it says done, or when
    nothing was acknowledged since it began. -/
theorem Kept.setState {table : ContextTable} (hkept : Kept past table) (state : ContextState)
    (h : Acked c past → state = .done) : Kept past (table.setState c state) where
  known := hkept.known
  ended c' hacked := by
    unfold ContextTable.setState
    intro entry hget
    rw [ContextTable.get_modify] at hget
    split at hget
    · rename_i hc
      obtain ⟨entry₀, -, rfl⟩ := Option.map_eq_some_iff.1 hget
      exact h (hc ▸ hacked)
    · exact hkept.ended c' hacked entry hget
  shown := hkept.shown

/-! ## A run -/

/-- The guest acknowledges the end of a context inside a repeated `proxy_on_done` for it,
    and answers that it is not done. -/
def Call.Retracts (call : Call) : Prop :=
  ∃ c code, call.op = .onDone c code ∧ Event.acknowledged c ∈ call.trace ∧
    Event.returned .done c 0 ∈ call.trace

theorem Session.Performed.mem {s₀ s₁ : Session} {callback : Callback} {params : List I32}
    {how : Event} (h : s₀.Performed callback c params how t s₁) : how ∈ t := by
  obtain ⟨inner, host, -, -, rfl⟩ := h
  exact .tail _ (List.mem_append_right _ (.tail _ (.head _)))

/-- A call of `on_done` keeps what was acknowledged, unless the guest retracts in it. -/
theorem Kept.onDone (hkept : Kept past s.abi.contexts) (hwf : s.abi.contexts.WellFormed)
    (code : Code) (hretracts : Event.acknowledged c ∈ ((onDone c code).run s).trace →
      Event.returned .done c 0 ∉ ((onDone c code).run s).trace) :
    Kept (past ++ ((onDone c code).run s).trace) ((onDone c code).run s).state.abi.contexts := by
  have hleaves := onDone_leaves (c := c) s code
  unfold Leaves at hleaves
  generalize (ProxyWasmHost.onDone c code).run s = res at hleaves hretracts
  obtain ⟨exit, s', t⟩ := res
  dsimp only at hleaves hretracts ⊢
  have hsilent : t = [] ∧ s'.abi.contexts = s.abi.contexts → Kept (past ++ t) s'.abi.contexts := by
    rintro ⟨rfl, hsame⟩
    rw [List.append_nil, hsame]
    exact hkept
  cases exit with
  | ok done =>
    obtain ⟨s₀, s₁, hsame, hperformed, rfl⟩ := hleaves
    rw [← hsame] at hkept hwf
    refine (hkept.performed hwf hperformed (.returned _)).setState _ fun hacked => ?_
    cases done with
    | true => rfl
    | false => exact absurd hperformed.mem (hretracts (hacked.mem_of_performed hperformed))
  | err e =>
    rcases hleaves with h | ⟨s₀, how, hsame, htells, hperformed⟩
    · exact hsilent h
    · rw [← hsame] at hkept hwf
      exact hkept.performed hwf hperformed htells
  | panicked =>
    rcases hleaves with h | ⟨s₀, hsame, hstuck⟩
    · exact hsilent h
    · rw [← hsame] at hkept hwf
      exact hkept.stuck hwf hstuck

/-- **Acknowledged ends**: in a run in which the guest retracts none, a context whose
    `proxy_done` was answered OK is done, or deleted, from then until the embedder begins
    another `proxy_on_done` for it: between two calls, and in every state an event shows. -/
theorem Run.acknowledged (r : Run) (hretracts : ∀ call ∈ r.calls, ¬ call.Retracts) :
    (∀ c, Acked c r.trace → r.last.abi.contexts.Ended c) ∧
    ∀ before e after, r.trace = before ++ e :: after → ∀ abi, e.snapshot = some abi →
      ∀ c, Acked c before → abi.contexts.Ended c := by
  have hkept : Kept r.trace r.last.abi.contexts := by
    refine r.induction (I := fun past s =>
      Kept (r.creation ++ past.flatMap Call.trace) s.abi.contexts) ?_ ?_
    · rw [List.flatMap_nil, List.append_nil]
      exact (Kept.nil _).steps (Session.sound_new _ _ _ _) (by rintro c ⟨⟩) r.fresh_ready.1
    · intro past s call s' hpast hmem hcall
      rw [List.flatMap_append, ← List.append_assoc, List.flatMap_singleton]
      by_cases haim : ∃ c, call.op.aim = .done c
      · obtain ⟨c, haim⟩ := haim
        cases hop : call.op <;> rw [hop] at haim <;> cases haim
        rename_i code
        obtain ⟨htrace, hstate⟩ := replying_run (ProxyWasmHost.onDone c code) .bool s
        have hperform : call.op.perform = replying (ProxyWasmHost.onDone c code) .bool := by
          rw [hop]
          rfl
        have htrace' := hcall.trace
        rw [hperform, htrace] at htrace'
        rw [hcall.last, hperform, hstate, htrace']
        refine hpast.onDone hcall.sound.contexts code fun hacked hreturned => ?_
        exact hretracts call hmem ⟨c, code, hop, htrace' ▸ hacked, htrace' ▸ hreturned⟩
      · exact hpast.steps hcall.sound (fun c hc => haim ⟨c, hc⟩) hcall.path
  exact ⟨hkept.ended, hkept.shown⟩

/-! ## A guest that retracts -/

namespace Acknowledged

def root : ContextId := .min

/-- Guest code that calls `proxy_done` and answers that the context is not done. -/
def retract : Code := .calling .proxyDone .refusing 0

/-- A guest that is not done when it is asked, and retracts when it is asked again. -/
def retracting : Run :=
  .of 0 .bare ⟨[], .info, [], [], 1, 2⟩ (.atMost none)
    [.enter .noStream, .onContextCreate none (.returning 0), .onDone root (.returning 0),
      .onDone root retract]
    rfl (by decide)

/-- The acknowledged context is pending once the call returns. -/
theorem retracting_lost : Acked root retracting.trace ∧
    retracting.last.abi.contexts.state root = some .pending := by
  refine ⟨⟨retracting.trace.take 9, retracting.trace.drop 10, rfl, ?_⟩, by decide⟩
  rintro e he ⟨abi, hbegun⟩
  rcases List.mem_cons.1 (show e ∈ [.finished _, .returned .done root 0] from he) with rfl | he
  · cases hbegun
  · rcases List.mem_singleton.1 he with rfl
    cases hbegun

/-- A guest that acknowledges the end of its root in a log, once it is pending. -/
def later : Run :=
  .of 0 .bare ⟨[], .info, [], [], 1, 2⟩ (.atMost none)
    [.enter .noStream, .onContextCreate none (.returning 0), .onDone root (.returning 0),
      .onTick root retract]
    rfl (by decide)

theorem later_ended : later.last.abi.contexts.Ended root := by
  refine (Run.acknowledged later ?_).1 root ⟨later.trace.take 9, later.trace.drop 10, rfl, ?_⟩
  · rintro call hmem ⟨c, code, hop, hacked, -⟩
    rcases List.mem_cons.1 hmem with rfl | hmem
    · cases hop
    rcases List.mem_cons.1 hmem with rfl | hmem
    · cases hop
    rcases List.mem_cons.1 hmem with rfl | hmem
    · have htrace : Event.acknowledged c ∈
          [.began .done root none [1] true _, .finished _, .returned .done root 0] := hacked
      rcases List.mem_cons.1 htrace with hfalse | htrace
      · cases hfalse
      rcases List.mem_cons.1 htrace with hfalse | htrace
      · cases hfalse
      rcases List.mem_singleton.1 htrace with hfalse
      cases hfalse
    rcases List.mem_singleton.1 hmem with rfl
    cases hop
  · rintro e he ⟨abi, hbegun⟩
    rcases List.mem_cons.1 (show e ∈ [.finished _, .returned .tick root 0] from he) with rfl | he
    · cases hbegun
    · rcases List.mem_singleton.1 he with rfl
      cases hbegun

end Acknowledged

end ProxyWasmHost
