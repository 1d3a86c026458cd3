/-
  The life of one context, as the events of a run tell it: it is created, its creation callback
  runs, it lives through its states, its deletion callback runs, and it is gone. The table of the
  contexts refines this: its entry is at the state that the events add up to.
-/
import ProxyWasmHost.Guest.Turns
import ProxyWasmHost.Lib.Along

namespace ProxyWasmHost

open Prog Session Prologue

/-! ## The life of a context -/

/-- Where a context is in its life. -/
inductive Life where
  | unborn
  /-- It was created, and its creation callback is next. -/
  | born (parent : Option ContextId)
  | living (state : ContextState)
  /-- Its deletion callback returned, and it leaves the table next. -/
  | dying
  | gone

/-- The state of the entry that the table has for a context. -/
def Life.state : Life → Option ContextState
  | .unborn | .gone => none
  | .born _ => some .active
  | .living state => some state
  | .dying => some .done

/-- Where the context `c` is after an event. -/
def Event.lives (c : ContextId) (l : Life) : Event → Life
  | .created id parent => if id = c then .born parent else l
  | .began _ _ _ _ _ _ =>
    match l with
    | .born _ => .living .active
    | _ => l
  | .acknowledged id => if id = c then .living .done else l
  | .returned .done id value =>
    if id ≠ c then l
    else if value = 0 then .living .pending
    else if value = 1 then .living .done else l
  | .returned .delete id _ => if id = c then .dying else l
  | .deleted id _ => if id = c then .gone else l
  | _ => l

/-- The context that an event is about. -/
def Event.about : Event → Option ContextId
  | .began _ id _ _ _ _ | .unwound _ id | .returned _ id _ | .acknowledged id | .created id _
  | .deleted id _ => some id
  | .logged context _ _ => context.call.map (·.context)
  | .stream call _ | .shared _ call _ _ _ | .callout _ call _ _ _ => some call.context
  | _ => none

/-- The callbacks that run for a context that is done. -/
def Callback.ofDone : Callback → Bool
  | .log | .delete => true
  | _ => false

/-- An event that is about no context. -/
def Event.Quiet : Event → Prop
  | .ended _ _ | .dropped _ => True
  | _ => False

/-- An event can happen where `c` is in its life. -/
def Event.Permitted (c : ContextId) (e : Event) : Life → Prop
  | .unborn => e.about = some c → ∃ parent, e = .created c parent
  | .born parent => ∃ callout exported abi, e =
    .began .contextCreate c callout [c.wire, (parent.map Id.wire).getD 0] exported abi
  | .living state => (∀ parent, e ≠ .created c parent) ∧ (∀ abi, e ≠ .deleted c abi) ∧
    (∀ callback abi, e.begun = some (callback, c, abi) →
      callback ≠ .contextCreate ∧ (callback.ofDone = true → state = .done)) ∧
    (e = .acknowledged c → state = .pending)
  | .dying => ∃ abi, e = .deleted c abi
  | .gone => e.about ≠ some c

/-- An event can happen where `c` is in its life, and shows a table that is there too. -/
structure Event.Suits (c : ContextId) (l : Life) (e : Event) : Prop where
  shows : ∀ abi, e.snapshot = some abi → abi.contexts.state c = l.state
  permitted : e.Permitted c l

/-- The events of `t` follow the life of `c`, from `l` on. -/
abbrev Alive (c : ContextId) (l : Life) (t : List Event) : Prop :=
  Scanned (Event.lives c) (Event.Suits c) l t

/-- The table is where `c` is in its life, between two callbacks. -/
def ContextTable.Refines (t : ContextTable) (c : ContextId) : Life → Prop
  | .unborn => t.state c = none ∧ t.effective ≠ some c ∧ t.next.val ≤ c.val
  | .living state => t.state c = some state ∧ c.val < t.next.val
  | .gone => t.state c = none ∧ t.effective ≠ some c ∧ c.val < t.next.val
  | .born _ | .dying => False

/-! ## The table -/

namespace ContextTable

variable {t t' : ContextTable} {c id : ContextId} {l : Life}

theorem Refines.state_eq (h : t.Refines c l) : t.state c = l.state := by
  cases l with
  | unborn | gone | living => exact h.1
  | born | dying => exact h.elim

/-- A change that `c` does not notice. -/
theorem Refines.congr (h : t.Refines c l) (hstate : t'.state c = t.state c)
    (hnext : t'.next = t.next)
    (heffective : t'.effective = some c → t.effective = some c ∨ (t.state c).isSome) :
    t'.Refines c l := by
  have hother : t.state c = none → t.effective ≠ some c → t'.effective ≠ some c := by
    intro hnone hne heq
    rcases heffective heq with heq | hsome
    · exact hne heq
    · rw [hnone] at hsome
      cases hsome
  cases l with
  | unborn => exact ⟨hstate.trans h.1, hother h.1 h.2.1, hnext ▸ h.2.2⟩
  | living => exact ⟨hstate.trans h.1, hnext ▸ h.2⟩
  | gone => exact ⟨hstate.trans h.1, hother h.1 h.2.1, hnext ▸ h.2.2⟩
  | born | dying => exact h.elim

theorem state_modify {f : ContextEntry → ContextEntry} (hf : ∀ entry, (f entry).state = entry.state) :
    (t.modify id f).state c = t.state c := by
  unfold ContextTable.state
  rw [get_modify]
  split
  · rw [Option.map_map]
    exact congrArg (fun g => (t.get c).map g) (funext hf)
  · rfl

theorem state_setState (state : ContextState) : (t.setState id state).state c =
    if c = id then (t.state c).map fun _ => state else t.state c := by
  unfold ContextTable.state setState
  rw [get_modify]
  split
  · rw [Option.map_map, Option.map_map]
    rfl
  · rfl

theorem Refines.modify {f : ContextEntry → ContextEntry} (h : t.Refines c l)
    (hf : ∀ entry, (f entry).state = entry.state) : (t.modify id f).Refines c l :=
  h.congr (state_modify hf) rfl .inl

theorem Refines.setEffective (h : t.Refines c l) : (t.setEffective id).2.Refines c l := by
  refine h.congr ?_ (Keeps.setEffective t id).next fun heffective => ?_
  · unfold ContextTable.state
    rw [get_setEffective]
  · unfold ContextTable.setEffective at heffective
    split at heffective
    · rename_i entry hget
      cases heffective
      right
      unfold ContextTable.state
      rw [hget]
      rfl
    · exact .inl heffective

theorem Refines.setTickPeriod (h : t.Refines c l) {period : Option ℕ} :
    (t.setTickPeriod id period).2.Refines c l := by
  rcases t.setTickPeriod_cases id period with heq | ⟨root, entry, -, -, heq⟩ <;> rw [heq]
  · exact h
  · exact h.modify fun _ => rfl

theorem Refines.setPlugin (h : t.Refines c l) {plugin : PluginConfig} :
    (t.setPlugin id plugin).Refines c l := by
  unfold ContextTable.setPlugin
  split
  · exact h.modify fun _ => rfl
  · exact h

/-- A living context is set to another state. -/
theorem Refines.setState {state state' : ContextState} (h : t.Refines c (.living state)) :
    (t.setState c state').Refines c (.living state') := by
  refine ⟨?_, h.2⟩
  rw [state_setState, if_pos rfl, h.1]
  rfl

theorem Refines.setState_other {state : ContextState} (h : t.Refines c l) (hne : c ≠ id) :
    (t.setState id state).Refines c l :=
  h.congr (by rw [state_setState, if_neg hne]) rfl .inl

/-- An event that is about no context can happen between two callbacks. -/
theorem Refines.suits_quiet (h : t.Refines c l) {e : Event} (hquiet : e.Quiet) :
    e.Suits c l ∧ e.lives c l = l := by
  cases e with
  | ended | dropped =>
    refine ⟨⟨by rintro abi ⟨⟩, ?_⟩, rfl⟩
    cases l with
    | unborn => rintro ⟨⟩
    | gone => rintro ⟨⟩
    | living => exact ⟨by rintro _ ⟨⟩, by rintro _ ⟨⟩, by rintro _ _ ⟨⟩, by rintro ⟨⟩⟩
    | born | dying => exact h.elim
  | _ => exact hquiet.elim

/-- What a guest makes visible in a state whose table is where `c` is. -/
theorem Refines.suits (h : t.Refines c l) {e : Event} (hhost : e.ofHost = true)
    (hshows : ∀ abi, e.snapshot = some abi → abi.contexts = t)
    (habout : e.about = some c → t.effective = some c)
    (hpending : e = .acknowledged c → t.state c = some .pending) : e.Suits c l := by
  refine ⟨fun abi hshow => by rw [hshows abi hshow]; exact h.state_eq, ?_⟩
  cases l with
  | unborn => exact fun hc => absurd (habout hc) h.2.1
  | living state =>
    refine ⟨?_, ?_, ?_, fun he => Option.some.inj (h.1.symm.trans (hpending he))⟩
    · rintro parent rfl
      cases hhost
    · rintro abi rfl
      cases hhost
    · intro callback abi hbegun
      cases e <;> cases hbegun
      cases hhost
  | gone => exact fun hc => h.2.1 (habout hc)
  | born | dying => exact h.elim

end ContextTable

/-! ## What the guest does in a callback -/

variable {s s' : Session} {h h' : HostState} {t : List Event} {c id : ContextId} {l : Life}
  {callback : Callback} {params : List I32}

theorem Event.lives_of_ofHost {e : Event} (hhost : e.ofHost = true) (hack : e ≠ .acknowledged c) :
    e.lives c l = l := by
  cases e with
  | acknowledged id => exact if_neg (by rintro rfl; exact hack rfl)
  | called | logged | stream | settled | shared | callout => rfl
  | _ => cases hhost

/-- The call of a log line is one for the effective context. -/
theorem AbiState.effective_of_logContext {abi : AbiState}
    (h : abi.logContext.call.map (·.context) = some c) : abi.contexts.effective = some c := by
  unfold AbiState.logContext at h
  split at h
  · rename_i heffective
    rw [heffective]
    exact h
  · cases h

/-- **A step of a host function** follows the life of `c`. -/
theorem HostStep.alive (step : HostStep h t h') (hl : h.abi.contexts.Refines c l) :
    Alive c l t ∧ h'.abi.contexts.Refines c (t.foldl (Event.lives c) l) := by
  -- an event that changes no state
  have hstill : ∀ e, t = [e] → e ≠ .acknowledged c →
      (e.about = some c → h.abi.contexts.effective = some c) →
      h'.abi.contexts.Refines c l →
      Alive c l t ∧ h'.abi.contexts.Refines c (t.foldl (Event.lives c) l) := by
    rintro e rfl hack habout hl'
    have hhost := step.ofHost e (.head _)
    refine ⟨⟨hl.suits hhost (fun abi hshow => ?_) habout fun he => absurd he hack, trivial⟩, ?_⟩
    · rw [step.snapshot (.head _) hshow]
    · rw [List.foldl_cons, Event.lives_of_ofHost hhost hack]
      exact hl'
  have heffective : ∀ {c'}, h.abi.context = some c' → some c' = some c →
      h.abi.contexts.effective = some c := by
    intro c' hcontext heq
    cases heq
    exact (AbiState.effective_of_context hcontext).1
  have hsame : h'.abi.contexts = h.abi.contexts → h'.abi.contexts.Refines c l := fun heq => heq ▸ hl
  cases step with
  | memory | poison => exact ⟨trivial, hl⟩
  | announced buffer => exact ⟨trivial, hsame (h.abi.contexts_takeAnnounced buffer)⟩
  | called live => exact hstill _ rfl (by rintro ⟨⟩) (by rintro ⟨⟩) hl
  | logged level message =>
    exact hstill _ rfl (by rintro ⟨⟩) AbiState.effective_of_logContext hl
  | stream op live hcontext lent asked =>
    exact hstill _ rfl (by rintro ⟨⟩) (heffective hcontext) hl
  | settled => exact hstill _ rfl (by rintro ⟨⟩) (by rintro ⟨⟩) (hsame h.abi.contexts_settle)
  | shared op answer live hcontext hgranted hholds hroom =>
    exact hstill _ rfl (by rintro ⟨⟩) (heffective hcontext)
      (hsame (h.abi.contexts_recordShared _ op answer))
  | opened answer live hcontext hroot hdel hlen hres hop =>
    exact hstill _ rfl (by rintro ⟨⟩) (heffective hcontext) hl
  | sent message endOfStream answer live hcontext hget hkind hopen =>
    exact hstill _ rfl (by rintro ⟨⟩) (heffective hcontext) hl
  | cancelled answer live hcontext hget hkind =>
    exact hstill _ rfl (by rintro ⟨⟩) (heffective hcontext) hl
  | closed answer live hcontext hget hkind hopen =>
    exact hstill _ rfl (by rintro ⟨⟩) (heffective hcontext) hl
  | setEffective => exact ⟨trivial, hl.setEffective⟩
  | tickPeriod => exact ⟨trivial, hl.setTickPeriod⟩
  | done heff hdone =>
    rename_i c'
    rcases h.abi.contexts.done_cases with heq | ⟨id, heff', hpending, heq⟩
    · rw [heq] at hdone
      cases hdone
    cases heff.symm.trans heff'
    have hcontexts : (h.mapAbi fun abi => abi.withContexts abi.contexts.done.2).abi.contexts =
        h.abi.contexts.setState c' .done := congrArg Prod.snd heq
    by_cases hc : c' = c
    · subst hc
      -- the table has it pending, so it lives
      have hstate := hl.state_eq.symm.trans hpending
      refine ⟨⟨hl.suits rfl (by rintro _ ⟨⟩) (fun _ => heff) fun _ => hpending, trivial⟩, ?_⟩
      rw [hcontexts]
      cases l with
      | living state =>
        show (h.abi.contexts.setState c' .done).Refines c' (if c' = c' then .living .done else _)
        rw [if_pos rfl]
        exact hl.setState
      | unborn | gone => cases hstate
      | born | dying => exact hl.elim
    · refine hstill _ rfl (by rintro ⟨⟩; exact hc rfl) (by rintro ⟨⟩; exact absurd rfl hc) ?_
      rw [hcontexts]
      exact hl.setState_other (Ne.symm hc)

theorem HostStep.alive_steps (path : Steps HostStep h t h') (hl : h.abi.contexts.Refines c l) :
    Alive c l t ∧ h'.abi.contexts.Refines c (t.foldl (Event.lives c) l) := by
  refine path.history (I := fun past h => Alive c l past ∧
    h.abi.contexts.Refines c (past.foldl (Event.lives c) l)) (p := []) ?_ ⟨trivial, hl⟩
  rintro past h u h' ⟨hpast, hl'⟩ step
  obtain ⟨halive, hlast⟩ := step.alive hl'
  rw [List.foldl_append]
  exact ⟨Scanned.append_iff.2 ⟨hpast, halive⟩, hlast⟩

/-! ## Callbacks -/

/-- A context that the table has lives. -/
theorem ContextTable.Refines.living {table : ContextTable} (h : table.Refines c l)
    (hknown : (table.get c).isSome) : ∃ state, l = .living state ∧ table.state c = some state := by
  have hstate : (table.state c).isSome := by
    unfold ContextTable.state
    rwa [Option.isSome_map]
  cases l with
  | living state => exact ⟨state, rfl, h.1⟩
  | unborn | gone =>
    rw [h.1] at hstate
    cases hstate
  | born | dying => exact h.elim

/-- A callback can begin for a context that lives, and for no other. -/
theorem ContextTable.Refines.suits_beginning (params : List I32)
    (hl : s.abi.contexts.Refines c l)
    (hknown : (s.abi.contexts.get id).isSome)
    (hmay : id = c → callback ≠ .contextCreate ∧
      (callback.ofDone = true → s.abi.contexts.state c = some .done)) :
    (s.beginning callback id params).Suits c l ∧
      (s.beginning callback id params).lives c l = l := by
  have hshows : ∀ abi, (s.beginning callback id params).snapshot = some abi →
      abi.contexts.state c = l.state := by
    rintro abi ⟨⟩
    exact hl.state_eq
  have hother : s.abi.contexts.state c = none → (s.beginning callback id params).about ≠ some c := by
    rintro hnone ⟨⟩
    obtain ⟨state, -, hstate⟩ := hl.living hknown
    rw [hnone] at hstate
    cases hstate
  cases l with
  | unborn => exact ⟨⟨hshows, fun hc => absurd hc (hother hl.1)⟩, rfl⟩
  | gone => exact ⟨⟨hshows, hother hl.1⟩, rfl⟩
  | born | dying => exact hl.elim
  | living state =>
    refine ⟨⟨hshows, ?_, ?_, ?_, ?_⟩, rfl⟩
    · rintro parent ⟨⟩
    · rintro abi ⟨⟩
    · rintro _ abi ⟨⟩
      obtain ⟨hcreate, hdone⟩ := hmay rfl
      exact ⟨hcreate, fun h => Option.some.inj (hl.1.symm.trans (hdone h))⟩
    · rintro ⟨⟩

/-- How a callback ended can be told of a context that lives, and of no other. -/
theorem ContextTable.Refines.suits_how {table : ContextTable} {how : Event}
    (hl : table.Refines c l) (hknown : (table.get id).isSome) (hhow : how.Tells callback id) :
    how.Suits c l := by
  have habout : how.about = some id := by cases hhow <;> rfl
  have hother : table.state c = none → how.about ≠ some c := by
    intro hnone heq
    cases habout.symm.trans heq
    obtain ⟨state, -, hstate⟩ := hl.living hknown
    rw [hnone] at hstate
    cases hstate
  refine ⟨fun abi hshow => (by cases hhow.snapshot.symm.trans hshow), ?_⟩
  cases l with
  | unborn => exact fun hc => absurd hc (hother hl.1)
  | gone => exact hother hl.1
  | born | dying => exact hl.elim
  | living state =>
    refine ⟨?_, ?_, ?_, ?_⟩
    · rintro parent rfl
      cases hhow
    · rintro abi rfl
      cases hhow
    · intro callback abi hbegun
      cases hhow <;> cases hbegun
    · rintro rfl
      cases hhow

/-- What the guest does in a callback, and how it is over: the table it left is where `c` was
    before the end was told. -/
theorem alive_inner {inner : List Event} {how : Event}
    (path : Steps HostStep (s.running id callback).host inner h)
    (hl : s.abi.contexts.Refines c l) (hknown : (s.abi.contexts.get id).isSome)
    (hhow : how.Tells callback id) :
    ∃ l₁, Alive c l (inner ++ [.finished h.abi, how]) ∧
      (inner ++ [.finished h.abi, how]).foldl (Event.lives c) l = how.lives c l₁ ∧
      h.abi.contexts.Refines c l₁ ∧ (h.abi.contexts.get id).isSome := by
  have hl' : (s.running id callback).host.abi.contexts.Refines c l := hl.setEffective
  obtain ⟨halive, hlast⟩ := HostStep.alive_steps path hl'
  have hknown' : (h.abi.contexts.get id).isSome := by
    rw [(HostKeeps.of_steps path).contexts.isSome]
    show ((s.abi.contexts.setEffective id).2.get id).isSome
    rwa [ContextTable.get_setEffective]
  have hfinished : (Event.finished h.abi).Suits c (inner.foldl (Event.lives c) l) := by
    refine ⟨by rintro abi ⟨⟩; exact hlast.state_eq, ?_⟩
    generalize inner.foldl (Event.lives c) l = l₁ at hlast
    cases l₁ with
    | unborn => rintro ⟨⟩
    | gone => rintro ⟨⟩
    | born | dying => exact hlast.elim
    | living state =>
      exact ⟨by rintro _ ⟨⟩, by rintro _ ⟨⟩, by rintro _ _ ⟨⟩, by rintro ⟨⟩⟩
  refine ⟨_, Scanned.append_iff.2 ⟨halive, hfinished, hlast.suits_how hknown' hhow, trivial⟩, ?_,
    hlast, hknown'⟩
  rw [List.foldl_append]
  rfl

/-- Every callback that begins in `t` begins for a context that the guest knows. -/
def BeginsKnown (t : List Event) : Prop :=
  ∀ e ∈ t, ∀ callback c abi, e.begun = some (callback, c, abi) → (abi.contexts.get c).isSome

/-- **What happens from `s` to `s'` follows the life of `c`**, and the tables are where the events
    say it is. -/
def Follow (c : ContextId) (s : Session) (t : List Event) (s' : Session) : Prop :=
  BeginsKnown t → ∀ l, s.abi.contexts.Refines c l →
    Alive c l t ∧ s'.abi.contexts.Refines c (t.foldl (Event.lives c) l)

instance : Chain (Follow c) where
  refl s := fun _ l hl => ⟨trivial, hl⟩
  trans {s t s' u s''} first second := by
    intro hknown l hl
    obtain ⟨ht, hl'⟩ := first (fun e he => hknown e (List.mem_append_left _ he)) l hl
    obtain ⟨hu, hl''⟩ := second (fun e he => hknown e (List.mem_append_right _ he)) _ hl'
    rw [List.foldl_append]
    exact ⟨Scanned.append_iff.2 ⟨ht, hu⟩, hl''⟩

/-- A change of the session that `c` does not notice. -/
theorem Follow.of_eq (h : s'.abi.contexts = s.abi.contexts) : Follow c s [] s' :=
  fun _ _ hl => ⟨trivial, h ▸ hl⟩

/-- The context of a callback in `t` is known. -/
theorem BeginsKnown.beginning {rest : List Event}
    (h : BeginsKnown (s.beginning callback id params :: rest)) :
    (s.abi.contexts.get id).isSome :=
  h _ (.head _) callback id s.abi rfl

/-- A callback that is no part of the life of its context, or that its state allows. -/
def Callback.May (callback : Callback) (state : Option ContextState) : Prop :=
  callback ≠ .contextCreate ∧ (callback.ofDone = true → state = some .done)

/-- How a callback ended that leaves its context where it was. -/
theorem Event.Tells.lives_eq {how : Event} (h : how.Tells callback id)
    (hdone : callback ≠ .done) (hdelete : callback ≠ .delete) : how.lives c l = l := by
  cases h with
  | unwound => rfl
  | returned value =>
    cases callback with
    | done => exact absurd rfl hdone
    | delete => exact absurd rfl hdelete
    | _ => rfl

/-- A callback that is over, up to what its end says. -/
theorem alive_performed {how : Event} (ran : s.Performed callback id params how t s')
    (hhow : how.Tells callback id) (hmay : id = c → callback.May (s.abi.contexts.state id))
    (hknown : BeginsKnown t) (hl : s.abi.contexts.Refines c l) :
    ∃ l₁, Alive c l t ∧ t.foldl (Event.lives c) l = how.lives c l₁ ∧
      s'.abi.contexts.Refines c l₁ ∧ (s'.abi.contexts.get id).isSome := by
  obtain ⟨inner, h, path, rfl, rfl⟩ := ran
  obtain ⟨hsuits, hstill⟩ := hl.suits_beginning params hknown.beginning (by
    rintro rfl
    exact hmay rfl)
  obtain ⟨l₁, halive, hlast, hl₁, hknown₁⟩ := alive_inner path hl hknown.beginning hhow
  refine ⟨l₁, ⟨hsuits, ?_⟩, ?_, hl₁, hknown₁⟩
  · rw [hstill]
    exact halive
  · rw [List.foldl_cons, hstill]
    exact hlast

/-- A callback that never returned. -/
theorem alive_stuck (ran : s.Stuck callback id params t s')
    (hmay : id = c → callback.May (s.abi.contexts.state id)) : Follow c s t s' := by
  intro hknown l hl
  obtain ⟨inner, h, path, rfl, rfl⟩ := ran
  obtain ⟨hsuits, hstill⟩ := hl.suits_beginning params hknown.beginning (by
    rintro rfl
    exact hmay rfl)
  have hl' : (s.running id callback).host.abi.contexts.Refines c l := hl.setEffective
  obtain ⟨halive, hlast⟩ := HostStep.alive_steps path hl'
  refine ⟨⟨hsuits, by rw [hstill]; exact halive⟩, ?_⟩
  rw [List.foldl_cons, hstill]
  exact hlast

end ProxyWasmHost
