/-
  What becomes of the callouts of a table while a context is deleted: which stay, which are
  cancelled or taken, and which of them the deleted context made.
-/
import ProxyWasmHost.Guest.Endings
import ProxyWasmHost.Guest.Signalled

namespace ProxyWasmHost

open Prog Session Prologue

variable {s s' : Session} {h h' : HostState} {past t u : List Event} {id : CalloutId}
  {c : ContextId} {table table' table'' : CalloutTable}

/-! ## The callouts of a table over some events -/

/-- Few enough identifiers were reserved that none is given out twice. -/
def Few (past : List Event) : Prop := (reservedIn past).length + 1 < 2 ^ 32

theorem Few.of_append (h : Few (past ++ t)) : Few past := by
  unfold Few at h ⊢
  rw [reservedIn_append, List.length_append] at h
  omega

/-- The guest cancels the callout `id`, or the host takes it. -/
def Event.Removes (id : CalloutId) (e : Event) : Prop := e.Cancels id ∨ e.Takes id

theorem Event.not_removes {e : Event} (h : e.ofCallouts = false) : ¬ e.Removes id := by
  rintro (hcancels | htakes) <;> cases e <;> first | exact hcancels | exact htakes | cases h

/-- The service takes the callout `id`, which `caller` opens. -/
def Event.Opens (id : CalloutId) (caller : ContextId) (kind : CalloutKind) : Event → Prop
  | .callout _ call x op answer =>
    x = id ∧ call.context = caller ∧ op.opens = some kind ∧ accepts answer = true
  | _ => False

section Opens

variable {e : Event} {caller : ContextId} {kind : CalloutKind}

theorem Event.Opens.reserves (h : e.Opens id caller kind) : e.reserves = some id := by
  cases e with
  | callout service call x op answer =>
    obtain ⟨rfl, -, hop, -⟩ := h
    simp [Event.reserves, hop]
  | _ => exact h.elim

theorem Event.not_opens (h : e.reserves = none) : ¬ e.Opens id caller kind := by
  intro hopens
  rw [hopens.reserves] at h
  cases h

theorem Event.reserves_of_silent (h : e.ofCallouts = false) : e.reserves = none := by
  cases e <;> first | rfl | cases h

end Opens

namespace CalloutTable

/-- **What became of the callouts** of `table`, while those of `c` were the only ones that the
    host took, and `c` opened no other. -/
structure Tended (c : ContextId) (past : List Event) (table : CalloutTable) (t : List Event)
    (table' : CalloutTable) : Prop where
  numbered : table'.Numbered (past ++ t)
  kept : ∀ id entry, table.get id = some entry → (∀ e ∈ t, ¬ e.Removes id) →
    ∃ entry', table'.get id = some entry' ∧ entry'.report id = entry.report id
  gone : ∀ id ∈ reservedIn past, table.get id = none →
    table'.get id = none ∧ ∀ e ∈ t, ¬ e.Removes id
  removed : ∀ id ∈ reservedIn past, (∃ e ∈ t, e.Removes id) → table'.get id = none
  once : ∀ id ∈ reservedIn past, t.Pairwise fun e e' => e.Removes id → ¬ e'.Removes id
  own : ∀ id entry, table'.get id = some entry → entry.caller = c →
    ∃ entry₀, table.get id = some entry₀ ∧ entry₀.caller = c
  taken : ∀ id, (∃ e ∈ t, e.Takes id) → ∃ entry, table.get id = some entry ∧ entry.caller = c
  opened : ∀ e ∈ t, ∀ id caller kind, e.Opens id caller kind →
    id ∉ reservedIn past ∧ caller ≠ c ∧ ((∀ e ∈ t, ¬ e.Removes id) →
      ∃ entry, table'.get id = some entry ∧ entry.caller = caller ∧ entry.kind = kind)

theorem Numbered.mem_of_get (hnum : table.Numbered past) {entry : Callout}
    (hget : table.get id = some entry) : id ∈ reservedIn past :=
  (hnum.reserved id).2 (hnum.opened id (by rw [hget]; rfl))

namespace Tended

/-- Events that remove nothing. -/
theorem of_kept (hnum : table'.Numbered (past ++ t)) (hsilent : ∀ e ∈ t, ∀ id, ¬ e.Removes id)
    (hsame : ∀ id entry, table.get id = some entry →
      ∃ entry', table'.get id = some entry' ∧ entry'.report id = entry.report id)
    (hold : ∀ id entry', table'.get id = some entry' →
      (∃ entry, table.get id = some entry ∧ entry'.report id = entry.report id) ∨
        id ∉ reservedIn past ∧ entry'.caller ≠ c)
    (hopened : ∀ e ∈ t, ∀ id caller kind, e.Opens id caller kind → id ∉ reservedIn past ∧
      caller ≠ c ∧ ∃ entry, table'.get id = some entry ∧ entry.caller = caller ∧
        entry.kind = kind) : Tended c past table t table' where
  numbered := hnum
  kept id entry hget _ := hsame id entry hget
  gone id hid hnone := by
    refine ⟨?_, fun e he => hsilent e he id⟩
    by_contra hsome
    obtain ⟨entry', hget'⟩ := Option.ne_none_iff_exists'.1 hsome
    rcases hold id entry' hget' with ⟨entry, hget, -⟩ | ⟨hfresh, -⟩
    · rw [hnone] at hget
      cases hget
    · exact hfresh hid
  removed id _ := fun ⟨e, he, hremoves⟩ => absurd hremoves (hsilent e he id)
  once id _ := List.pairwise_of_forall_mem_list fun e he _ _ hremoves =>
    absurd hremoves (hsilent e he id)
  own id entry' hget' hcaller := by
    rcases hold id entry' hget' with ⟨entry, hget, hreport⟩ | ⟨-, hother⟩
    · exact ⟨entry, hget, (congrArg OpenCallout.caller hreport).symm.trans hcaller⟩
    · exact absurd hcaller hother
  taken id := fun ⟨e, he, htakes⟩ => absurd (.inr htakes) (hsilent e he id)
  opened e he id caller kind hopens :=
    let ⟨hfresh, hother, hentry⟩ := hopened e he id caller kind hopens
    ⟨hfresh, hother, fun _ => hentry⟩

/-- Events that leave the table alone. -/
theorem of_eq (hnum : table.Numbered past) (htable : table' = table)
    (hsilent : ∀ e ∈ t, e.ofCallouts = false) : Tended c past table t table' := by
  subst htable
  refine of_kept (hnum.congr ?_ rfl fun _ hx => hx) (fun e he id => Event.not_removes (hsilent e he))
    (fun id entry hget => ⟨entry, hget, rfl⟩) (fun id entry hget => .inl ⟨entry, hget, rfl⟩)
    fun e he _ _ _ hopens => absurd hopens (Event.not_opens (Event.reserves_of_silent (hsilent e he)))
  rw [reservedIn_append, reservedIn_of_silent hsilent, List.append_nil]

/-- An event that removes callouts that are open, and only those of `c` without a cancel. -/
theorem of_removed {e : Event} (hnum : table.Numbered past) (hnext : table'.next = table.next)
    (hreserves : e.reserves = none) (hget : ∀ id, e.Removes id → table'.get id = none)
    (hother : ∀ id, ¬ e.Removes id → table'.get id = table.get id)
    (hopen : ∀ id, e.Removes id →
      ∃ entry, table.get id = some entry ∧ (e.Takes id → entry.caller = c)) :
    Tended c past table [e] table' where
  numbered := by
    refine hnum.congr ?_ hnext fun id hid => ?_
    · rw [reservedIn_append]
      simp [reservedIn, hreserves]
    · by_cases hremoves : e.Removes id
      · rw [hget id hremoves] at hid
        cases hid
      · rwa [hother id hremoves] at hid
  kept id entry hentry hnone := ⟨entry, (hother id (hnone e (.head _))).trans hentry, rfl⟩
  gone id _ hnone := by
    have hspared : ¬ e.Removes id := by
      intro hremoves
      obtain ⟨entry, hentry, -⟩ := hopen id hremoves
      rw [hnone] at hentry
      cases hentry
    refine ⟨(hother id hspared).trans hnone, fun e' he' => ?_⟩
    cases List.mem_singleton.1 he'
    exact hspared
  removed id _ := by
    rintro ⟨e', he', hremoves⟩
    cases List.mem_singleton.1 he'
    exact hget id hremoves
  once id _ := List.pairwise_singleton _ _
  own id entry hentry hcaller := by
    by_cases hremoves : e.Removes id
    · rw [hget id hremoves] at hentry
      cases hentry
    · exact ⟨entry, (hother id hremoves).symm.trans hentry, hcaller⟩
  taken id := by
    rintro ⟨e', he', htakes⟩
    cases List.mem_singleton.1 he'
    obtain ⟨entry, hentry, hcaller⟩ := hopen id (.inr htakes)
    exact ⟨entry, hentry, hcaller htakes⟩
  opened e' he' id caller kind hopens := by
    cases List.mem_singleton.1 he'
    exact absurd hopens (Event.not_opens hreserves)

/-- An event after which a callout is at most closed by the guest. -/
theorem of_closed {x : CalloutId} {e : Event} (hreserves : e.reserves = none)
    (hsilent : ∀ id, ¬ e.Removes id)
    (hnum : (table.closeByGuest x).Numbered (past ++ [e])) :
    Tended c past table [e] (table.closeByGuest x) := by
  refine of_kept hnum (by simpa using hsilent) (fun id entry hget => ?_) (fun id entry' hget' => ?_) ?_
  · rw [get_closeByGuest, hget]
    split
    · exact ⟨_, rfl, rfl⟩
    · exact ⟨entry, rfl, rfl⟩
  · obtain ⟨entry, closed, hget, rfl⟩ := entry_of_closeByGuest hget'
    exact .inl ⟨entry, hget, rfl⟩
  · intro e' he' _ _ _ hopens
    cases List.mem_singleton.1 he'
    exact absurd hopens (Event.not_opens hreserves)

/-- An event with the identifier that the table reserves, which another context may open. -/
theorem of_opened {x : CalloutId} {entry : Callout} {e : Event} {reserved : CalloutTable}
    {accepted : Bool} (hnum : table.Numbered past) (hres : table.reserve = some (x, reserved))
    (hnum' : (if accepted then reserved.enter x entry else reserved).Numbered (past ++ [e]))
    (hcaller : entry.caller ≠ c) (hsilent : ∀ id, ¬ e.Removes id)
    (hopens : ∀ id caller kind, e.Opens id caller kind →
      accepted ∧ id = x ∧ caller = entry.caller ∧ kind = entry.kind) :
    Tended c past table [e] (if accepted then reserved.enter x entry else reserved) := by
  have hafter := get_of_asked hres accepted entry
  have hfresh : x ∉ reservedIn past := by
    rw [hnum.reserved, (reserve_of_get_next hnum.get_next hres).1]
    exact Nat.lt_irrefl _
  refine of_kept hnum' (by simpa using hsilent) (fun id held hget => ⟨held, ?_, rfl⟩)
    (fun id held hget => ?_) ?_
  · have hx : id ≠ x := by
      rintro rfl
      rw [(get_of_reserve hres).1] at hget
      cases hget
    rw [hafter, if_neg fun h => hx h.2, hget]
  · rw [hafter] at hget
    split at hget
    · rename_i hx
      cases hget
      exact .inr ⟨hx.2 ▸ hfresh, hcaller⟩
    · exact .inl ⟨held, hget, rfl⟩
  · intro e' he' id caller kind h
    cases List.mem_singleton.1 he'
    obtain ⟨haccepted, rfl, rfl, rfl⟩ := hopens id caller kind h
    refine ⟨hfresh, hcaller, entry, ?_, rfl, rfl⟩
    rw [hafter, if_pos ⟨haccepted, rfl⟩]

theorem trans (h : Tended c past table t table') (h' : Tended c (past ++ t) table' u table'') :
    Tended c past table (t ++ u) table'' := by
  have hlater : ∀ id ∈ reservedIn past, id ∈ reservedIn (past ++ t) := by
    intro id hid
    rw [reservedIn_append]
    exact List.mem_append_left _ hid
  refine ⟨?_, ?_, ?_, ?_, ?_, ?_, ?_, ?_⟩
  · rw [← List.append_assoc]
    exact h'.numbered
  · intro id entry hget hnone
    obtain ⟨entry', hget', hreport⟩ := h.kept id entry hget fun e he =>
      hnone e (List.mem_append_left _ he)
    obtain ⟨entry'', hget'', hreport'⟩ := h'.kept id entry' hget' fun e he =>
      hnone e (List.mem_append_right _ he)
    exact ⟨entry'', hget'', hreport'.trans hreport⟩
  · intro id hid hnone
    obtain ⟨hnone', hfirst⟩ := h.gone id hid hnone
    obtain ⟨hnone'', hsecond⟩ := h'.gone id (hlater id hid) hnone'
    exact ⟨hnone'', fun e he => (List.mem_append.1 he).elim (hfirst e) (hsecond e)⟩
  · rintro id hid ⟨e, he, hremoves⟩
    rcases List.mem_append.1 he with he | he
    · exact (h'.gone id (hlater id hid) (h.removed id hid ⟨e, he, hremoves⟩)).1
    · exact h'.removed id (hlater id hid) ⟨e, he, hremoves⟩
  · intro id hid
    refine List.pairwise_append.2 ⟨h.once id hid, h'.once id (hlater id hid), ?_⟩
    intro e he e' he' hremoves
    exact (h'.gone id (hlater id hid) (h.removed id hid ⟨e, he, hremoves⟩)).2 e' he'
  · intro id entry hget hcaller
    obtain ⟨entry', hget', hcaller'⟩ := h'.own id entry hget hcaller
    exact h.own id entry' hget' hcaller'
  · rintro id ⟨e, he, htakes⟩
    rcases List.mem_append.1 he with he | he
    · exact h.taken id ⟨e, he, htakes⟩
    · obtain ⟨entry', hget', hcaller'⟩ := h'.taken id ⟨e, he, htakes⟩
      exact h.own id entry' hget' hcaller'
  · intro e he id caller kind hopens
    rcases List.mem_append.1 he with he | he
    · obtain ⟨hfresh, hother, hentry⟩ := h.opened e he id caller kind hopens
      refine ⟨hfresh, hother, fun hnone => ?_⟩
      obtain ⟨entry, hget, rfl, rfl⟩ := hentry fun e he => hnone e (List.mem_append_left _ he)
      obtain ⟨entry', hget', hreport⟩ := h'.kept id entry hget fun e he =>
        hnone e (List.mem_append_right _ he)
      exact ⟨entry', hget', congrArg OpenCallout.caller hreport, congrArg OpenCallout.kind hreport⟩
    · obtain ⟨hfresh, hother, hentry⟩ := h'.opened e he id caller kind hopens
      exact ⟨fun hid => hfresh (hlater id hid), hother, fun hnone =>
        hentry fun e he => hnone e (List.mem_append_right _ he)⟩

end Tended

end CalloutTable

open CalloutTable

/-! ## What host functions do meanwhile -/

/-- **A step of a host function**, while `c` is being deleted. -/
theorem HostStep.tended (step : HostStep h t h') (hnum : h.abi.callouts.Numbered past)
    (hdel : h.abi.deleting = some c) (hfew : Few (past ++ t)) :
    Tended c past h.abi.callouts t h'.abi.callouts := by
  have hnum' := step.numbered hnum hfew
  cases step with
  | @opened c' root x reserved kind op answer live hc hroot hdel' hlen hres hop =>
    refine .of_opened hnum hres hnum' ?_ ?_ ?_
    · rintro rfl
      simp [AbiState.isDeleting, Callout.new, hdel] at hdel'
    · rintro id (hcancels | htakes)
      · rw [hcancels.2] at hop
        cases hop
      · exact htakes
    · rintro id caller kind' ⟨rfl, rfl, hop', haccepts⟩
      rw [hop] at hop'
      cases hop'
      exact ⟨haccepts, rfl, rfl, rfl⟩
  | @sent x entry message endOfStream answer =>
    have hsilent : ∀ id, ¬ (Event.callout h.abi.services.callouts (h.abi.invocation entry.caller) x
        (.grpcSend message endOfStream) answer).Removes id := by
      rintro id (⟨-, ⟨⟩⟩ | htakes)
      exact htakes
    dsimp only [HostState.mapAbi, AbiState.withCallouts] at hnum' ⊢
    split at hnum' <;> rename_i hends
    · rw [if_pos hends]
      exact .of_closed rfl hsilent hnum'
    · rw [if_neg hends]
      refine .of_kept hnum' (by simpa using hsilent) (fun id entry hget => ⟨entry, hget, rfl⟩)
        (fun id entry hget => .inl ⟨entry, hget, rfl⟩) fun e he _ _ _ hopens => ?_
      cases List.mem_singleton.1 he
      exact absurd hopens (Event.not_opens rfl)
  | @cancelled x entry answer live hc hget hkind =>
    have hafter := h.abi.callouts.get_remove x
    refine .of_removed hnum rfl rfl (fun id hremoves => ?_) (fun id hspared => ?_) fun id hremoves => ?_
    · obtain ⟨hx, -⟩ | htakes := hremoves
      · exact (hafter id).trans (if_pos hx.symm)
      · exact htakes.elim
    · exact (hafter id).trans (if_neg fun hx => hspared (.inl ⟨hx.symm, rfl⟩))
    · obtain ⟨rfl, -⟩ | htakes := hremoves
      · exact ⟨entry, hget, fun htakes => htakes.elim⟩
      · exact htakes.elim
  | @closed x entry answer =>
    refine .of_closed rfl ?_ hnum'
    rintro id (⟨-, ⟨⟩⟩ | htakes)
    exact htakes
  | announced buffer => exact .of_eq hnum (h.abi.callouts_takeAnnounced buffer) (by simp)
  | settled => exact .of_eq hnum h.abi.callouts_settle (by simp [Event.ofCallouts])
  | shared op answer =>
    exact .of_eq hnum (h.abi.callouts_recordShared _ _ _) (by simp [Event.ofCallouts])
  | _ => exact .of_eq hnum rfl (by simp [Event.ofCallouts])

theorem HostStep.tended_of_steps (path : Steps HostStep h t h') :
    ∀ {past : List Event}, h.abi.callouts.Numbered past → h.abi.deleting = some c →
      Few (past ++ t) → Tended c past h.abi.callouts t h'.abi.callouts := by
  induction path with
  | nil h => exact fun hnum _ _ => .of_eq hnum rfl (by rintro e ⟨⟩)
  | cons head tail ih =>
    intro past hnum hdel hfew
    rw [← List.append_assoc] at hfew
    have hhead := head.tended hnum hdel hfew.of_append
    exact hhead.trans (ih hhead.numbered ((HostKeeps.of_step head).deleting.trans hdel) hfew)

/-! ## Deliveries -/

/-- The callout that a callback delivers. -/
def Event.delivering : Event → Option CalloutId
  | .began _ _ delivered _ _ _ => delivered
  | _ => none

/-- The callbacks of `t` that deliver the callout `id`. -/
def deliveriesOf (id : CalloutId) (t : List Event) : List Event :=
  t.filter fun e => e.delivering = some id

theorem deliveriesOf_append (id : CalloutId) (t u : List Event) :
    deliveriesOf id (t ++ u) = deliveriesOf id t ++ deliveriesOf id u :=
  List.filter_append _ _

/-- A callback that delivers no callout. -/
@[simp] theorem deliveriesOf_began {callback : Callback} {x : ContextId} {params : List I32}
    {exported : Bool} {abi : AbiState} :
    deliveriesOf id (.began callback x none params exported abi :: t) = deliveriesOf id t := rfl

theorem deliveriesOf_nil (h : ∀ e ∈ t, e.delivering ≠ some id) : deliveriesOf id t = [] :=
  List.filter_eq_nil_iff.2 fun e he => by simpa using h e he

theorem Event.delivering_of_ofHost {e : Event} (h : e.ofHost = true) : e.delivering = none := by
  cases e <;> first | rfl | cases h

/-- The one delivery of a callout is its failure, to the root. -/
def FailedOnce (root : ContextId) (id : CalloutId) (kind : CalloutKind) (t : List Event) : Prop :=
  ∃ exported abi, deliveriesOf id t = [.began (failure root id kind).callback root (some id)
    (failure root id kind).params exported abi]

section Callbacks

variable {callback : Callback} {x root : ContextId} {params : List I32} {how : Event}

/-- What a callback that is over did to the callouts. -/
theorem Session.Performed.tended (hran : s.Performed callback x params how t s')
    (htells : how.Tells callback x) (hnum : s.abi.callouts.Numbered past)
    (hdel : s.abi.deleting = some c) (hfew : Few (past ++ t)) :
    Tended c past s.abi.callouts t s'.abi.callouts := by
  obtain ⟨inner, h, path, rfl, rfl⟩ := hran
  have hbegun : Tended c past s.abi.callouts [s.beginning callback x params]
      (s.running x callback).host.abi.callouts := .of_eq hnum rfl (by simp [beginning, Event.ofCallouts])
  have hfew' : Few (past ++ [s.beginning callback x params] ++ inner) := by
    refine Few.of_append (t := [.finished h.abi, how]) ?_
    simpa using hfew
  have hinner := HostStep.tended_of_steps path hbegun.numbered hdel hfew'
  have hover : Tended c (past ++ [s.beginning callback x params] ++ inner) h.abi.callouts
      [.finished h.abi, how] (s.leftBy h).abi.callouts := by
    refine .of_eq hinner.numbered rfl ?_
    cases htells <;> simp [Event.ofCallouts]
  have hall := (hbegun.trans hinner).trans (by rw [← List.append_assoc]; exact hover)
  simpa using hall

/-- What a callback that is over did not change. -/
theorem Session.Performed.frame (hran : s.Performed callback x params how t s') : s.Frame s' := by
  obtain ⟨inner, h, path, rfl, -⟩ := hran
  have hbegin : s.Frame (s.running x callback) :=
    ⟨rfl, rfl, rfl, rfl, rfl, rfl, rfl, rfl, .setEffective _ _⟩
  exact (hbegin.trans (frame_of_host (HostKeeps.of_steps path))).trans
    ⟨rfl, rfl, rfl, rfl, rfl, rfl, rfl, rfl, .refl _⟩

/-- A callback delivers what it was lent. -/
theorem Session.Performed.deliveriesOf (hran : s.Performed callback x params how t s')
    (htells : how.Tells callback x) :
    deliveriesOf id t = if s.abi.delivery.bind (·.callout) = some id then
      [s.beginning callback x params] else [] := by
  obtain ⟨inner, h, path, -, rfl⟩ := hran
  have hrest : ProxyWasmHost.deliveriesOf id (inner ++ [.finished h.abi, how]) = [] := by
    refine deliveriesOf_nil fun e he => ?_
    simp only [List.mem_append, List.mem_cons, List.not_mem_nil, or_false] at he
    rcases he with he | rfl | rfl
    · rw [Event.delivering_of_ofHost (HostStep.ofHost_of_steps path e he)]
      rintro ⟨⟩
    · rintro ⟨⟩
    · cases htells <;> rintro ⟨⟩
  unfold ProxyWasmHost.deliveriesOf at hrest ⊢
  rw [List.filter_cons, hrest]
  exact if_congr decide_eq_true_iff rfl rfl

end Callbacks

end ProxyWasmHost
