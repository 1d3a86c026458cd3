/-
  The service calls of one callout over a run: from its open to its end, the callout service
  sees what the kind of the callout allows, for the context that opened it.
-/
import ProxyWasmHost.Guest.Contexts
import ProxyWasmHost.Guest.Openings
import ProxyWasmHost.Lib.Scan

namespace ProxyWasmHost

open Session

/-! ## What the callout service sees of a callout -/

/-- Where a callout stands, by the events that tell of it. -/
inductive CalloutLine where
  | unopened
  | opened (kind : CalloutKind) (caller : ContextId) (closed : Bool)
  | over
  deriving DecidableEq

namespace CalloutLine

/-- The line after a context asked the service something about the callout. -/
def asked : CalloutLine → ContextId → CalloutOp → Bool → CalloutLine
  | .unopened, caller, op, accepted =>
    match op.opens with
    | some kind => if accepted then .opened kind caller false else .over
    | none => .unopened
  | .opened kind caller closed, _, op, accepted =>
    match op with
    | .grpcSend _ endOfStream => .opened kind caller (closed || (accepted && endOfStream))
    | .grpcClose => .opened kind caller true
    | .grpcCancel => .over
    | _ => .opened kind caller closed
  | .over, _, _, _ => .over

/-- The line after the deletion of a context. -/
def deleted : CalloutLine → ContextId → CalloutLine
  | .opened kind caller closed, c => if caller = c then .over else .opened kind caller closed
  | line, _ => line

/-- The line of the callout `id` after an event. -/
def next (id : CalloutId) (line : CalloutLine) : Event → CalloutLine
  | .callout _ call x op answer =>
    if x = id then line.asked call.context op (accepts answer) else line
  | .ended x (some _) => if x = id then .over else line
  | .dropped ids => if ids.contains id then .over else line
  | .deleted c _ => line.deleted c
  | _ => line

/-- What the service may be asked about a callout, and for which context. -/
def takes : CalloutLine → ContextId → CalloutOp → Prop
  | .unopened, _, op => op.opens.isSome
  | .opened kind caller closed, c, op =>
    c = caller ∧
      match op with
      | .grpcSend _ _ | .grpcClose => kind = .grpcStream ∧ closed = false
      | .grpcCancel => kind ≠ .httpCall
      | _ => False
  | .over, _, _ => False

/-- The line of the callout `id` takes an event. -/
def allows (id : CalloutId) (line : CalloutLine) : Event → Prop
  | .callout _ call x op _ => x = id → line.takes call.context op
  | _ => True

/-- The line of the callout `id` after the events `past`. -/
def told (id : CalloutId) (past : List Event) : CalloutLine := past.foldl (next id) .unopened

variable {id : CalloutId} {past t : List Event} {line : CalloutLine} {e : Event}

theorem told_snoc (id : CalloutId) (past : List Event) (e : Event) :
    told id (past ++ [e]) = (told id past).next id e := List.foldl_append

theorem told_of_still (h : ∀ e ∈ t, ∀ line : CalloutLine, line.next id e = line) :
    told id (past ++ t) = told id past := by
  unfold told
  rw [List.foldl_append]
  exact Scanned.foldl_of_still fun e he => h e he _

/-- A callout that is done with stays so. -/
theorem told_over (h : told id past = .over) : told id (past ++ t) = .over := by
  have hstill : t.foldl (next id) .over = .over := by
    refine Scanned.foldl_of_still fun e _ => ?_
    cases e with
    | ended x entry => cases entry <;> simp [next]
    | _ => simp [next, asked, deleted]
  unfold told at h ⊢
  rw [List.foldl_append, h, hstill]

/-- **The line of a callout and its entry**: an open callout stands where its entry stands,
    unless its caller was deleted, and an identifier that is not reserved yet is not opened. -/
structure Follows (id : CalloutId) (past : List Event) (table : CalloutTable) : Prop where
  held : ∀ entry, table.get id = some entry →
    told id past = .opened entry.kind entry.caller entry.closedByGuest ∨
      told id past = .over ∧ ∃ abi, .deleted entry.caller abi ∈ past
  fresh : id ∉ reservedIn past → told id past = .unopened

namespace Follows

variable {table table' : CalloutTable}

theorem new : Follows id [] .new where
  held entry h := by cases h
  fresh _ := rfl

/-- Events that leave the line of the callout, and its entry. -/
theorem still (hf : Follows id past table) (htable : table'.get id = table.get id)
    (h : told id (past ++ t) = told id past) : Follows id (past ++ t) table' := by
  refine ⟨fun entry hget => ?_, fun hnot => ?_⟩
  · rw [h]
    refine (hf.held entry (htable ▸ hget)).imp_right ?_
    rintro ⟨hover, abi, hmem⟩
    exact ⟨hover, abi, List.mem_append_left _ hmem⟩
  · rw [h]
    refine hf.fresh fun hmem => hnot ?_
    rw [reservedIn_append]
    exact List.mem_append_left _ hmem

/-- An event about a callout that is not open any more. -/
theorem closed (hnone : table'.get id = none) (hreserved : id ∈ reservedIn past) :
    Follows id (past ++ t) table' := by
  refine ⟨fun entry hget => ?_, fun hnot => absurd ?_ hnot⟩
  · rw [hnone] at hget
    cases hget
  · rw [reservedIn_append]
    exact List.mem_append_left _ hreserved

end Follows

/-! ## Steps -/

/-- An event that tells of no callout, and of no deletion. -/
theorem next_of_silent (hsilent : e.ofCallouts = false) (hgone : ∀ c abi, e ≠ .deleted c abi)
    (line : CalloutLine) : line.next id e = line := by
  cases e with
  | callout | ended | dropped => cases hsilent
  | deleted c abi => exact absurd rfl (hgone c abi)
  | _ => rfl

theorem allows_of_silent (hsilent : e.ofCallouts = false) : line.allows id e := by
  cases e with
  | callout => cases hsilent
  | _ => trivial

/-- The effective context is not deleted. -/
theorem not_deleted {abi : AbiState} {c : ContextId} (hwf : abi.contexts.WellFormed)
    (hrec : abi.contexts.Recorded past) (hc : abi.context = some c) :
    ∀ shown, .deleted c shown ∉ past := by
  have heff := (AbiState.effective_of_context hc).1
  obtain ⟨entry, hget⟩ := Option.isSome_iff_exists.1 (hwf.effective c heff)
  exact ((hrec.live c entry.parent).1 (by rw [hget, Option.map_some])).2

/-- The line of an open callout of the effective context. -/
theorem Follows.told_held {abi : AbiState} {entry : Callout} (hf : Follows id past abi.callouts)
    (hwf : abi.contexts.WellFormed) (hrec : abi.contexts.Recorded past)
    (hc : abi.context = some entry.caller) (hget : abi.callouts.get id = some entry) :
    told id past = .opened entry.kind entry.caller entry.closedByGuest := by
  rcases hf.held entry hget with htold | ⟨-, shown, hmem⟩
  · exact htold
  · exact absurd hmem (not_deleted hwf hrec hc shown)

/-- **A service call** for a callout that stands where it takes the call, and whose entry
    follows it. -/
theorem Follows.asks {table table' : CalloutTable} {service : ServiceId} {call : Invocation}
    {x : CalloutId} {op : CalloutOp} {answer : Answer (Except Status Unit)}
    (hf : Follows id past table) (hother : ∀ y, y ≠ x → table'.get y = table.get y)
    (hown : x = id → (told id past).takes call.context op ∧
      (id ∈ reservedIn past ∨ op.opens.isSome) ∧ ∀ entry, table'.get id = some entry →
        (told id past).asked call.context op (accepts answer) =
          .opened entry.kind entry.caller entry.closedByGuest) :
    (∀ e ∈ [Event.callout service call x op answer], (told id past).allows id e) ∧
      Follows id (past ++ [.callout service call x op answer]) table' := by
  by_cases hx : x = id
  · obtain ⟨htakes, hreserved, hheld⟩ := hown hx
    refine ⟨fun e he => ?_, fun entry hget => .inl ?_, fun hnot => absurd ?_ hnot⟩
    · cases List.mem_singleton.1 he
      exact fun _ => htakes
    · rw [told_snoc, ← hheld entry hget]
      exact if_pos hx
    · rw [reservedIn_append, List.mem_append]
      refine hreserved.imp_right fun hopens => ?_
      simp [reservedIn, Event.reserves, hopens, hx]
  · refine ⟨fun e he => ?_, hf.still (hother id (Ne.symm hx)) ?_⟩
    · cases List.mem_singleton.1 he
      exact fun hid => absurd hid hx
    · rw [told_snoc]
      exact if_neg hx

/-- **A step of a host function** keeps the line of a callout, which takes what the step asks. -/
theorem Follows.host {h h' : HostState} (hf : Follows id past h.abi.callouts) (hnum : h.abi.callouts.Numbered past)
    (hwf : h.abi.contexts.WellFormed) (hrec : h.abi.contexts.Recorded past)
    (step : HostStep h t h') :
    (∀ e ∈ t, (told id past).allows id e) ∧ Follows id (past ++ t) h'.abi.callouts := by
  have hkept : h'.abi.callouts = h.abi.callouts → (∀ e ∈ t, e.ofCallouts = false) →
      (∀ e ∈ t, ∀ c abi, e ≠ .deleted c abi) →
      (∀ e ∈ t, (told id past).allows id e) ∧ Follows id (past ++ t) h'.abi.callouts := by
    intro htable hsilent hgone
    refine ⟨fun e he => allows_of_silent (hsilent e he), hf.still (by rw [htable]) ?_⟩
    exact told_of_still fun e he => next_of_silent (hsilent e he) (hgone e he)
  have hreserved : ∀ {entry}, h.abi.callouts.get id = some entry → id ∈ reservedIn past :=
    fun hget => (hnum.reserved id).2 (hnum.opened id (by rw [hget]; rfl))
  cases step with
  | @opened c root x reserved kind op answer live hc hroot hdel hlen hres hop =>
    have hafter := CalloutTable.get_of_asked hres (accepts answer) (.new kind c root)
    refine hf.asks (fun y hy => (hafter y).trans (if_neg fun h => hy h.2)) fun hx => ?_
    · subst hx
      have hfresh : x ∉ reservedIn past := by
        rw [hnum.reserved, (CalloutTable.reserve_of_get_next hnum.get_next hres).1]
        exact Nat.lt_irrefl _
      rw [hf.fresh hfresh, takes, asked, hop]
      refine ⟨rfl, .inr rfl, fun entry hget => ?_⟩
      replace hget := (hafter x).symm.trans hget
      split at hget
      · rename_i haccepts
        cases hget
        exact if_pos haccepts.1
      · rw [(CalloutTable.get_of_reserve hres).1] at hget
        cases hget
  | @sent x entry message endOfStream answer live hc hget hkind hopen =>
    refine hf.asks (fun y hy => ?_) fun hx => ?_
    · dsimp only [HostState.mapAbi, AbiState.withCallouts]
      split
      · rw [CalloutTable.get_closeByGuest, if_neg hy]
      · rfl
    · subst hx
      rw [hf.told_held hwf hrec hc hget]
      refine ⟨⟨rfl, hkind, hopen⟩, .inl (hreserved hget), fun entry' hget' => ?_⟩
      show CalloutLine.opened _ _ (_ || (_ && _)) = _
      dsimp only [HostState.mapAbi, AbiState.withCallouts] at hget'
      split at hget'
      · rename_i hends
        rw [CalloutTable.get_closeByGuest, if_pos rfl, hget] at hget'
        cases hget'
        rw [hends, Bool.or_true]
      · rename_i hends
        rw [hget] at hget'
        cases hget'
        rw [Bool.eq_false_of_not_eq_true hends, Bool.or_false]
  | @cancelled x entry answer live hc hget hkind =>
    have hafter := h.abi.callouts.get_remove x
    refine hf.asks (fun y hy => (hafter y).trans (if_neg hy)) fun hx => ?_
    subst hx
    rw [hf.told_held hwf hrec hc hget]
    refine ⟨⟨rfl, hkind⟩, .inl (hreserved hget), fun entry' hget' => ?_⟩
    cases ((hafter x).trans (if_pos rfl)).symm.trans hget'
  | @closed x entry answer live hc hget hkind hopen =>
    have hafter := h.abi.callouts.get_closeByGuest x
    refine hf.asks (fun y hy => (hafter y).trans (if_neg hy)) fun hx => ?_
    subst hx
    rw [hf.told_held hwf hrec hc hget]
    refine ⟨⟨rfl, hkind, hopen⟩, .inl (hreserved hget), fun entry' hget' => ?_⟩
    have hentry := hafter x
    rw [if_pos rfl, hget] at hentry
    cases hentry.symm.trans hget'
    rfl
  | announced buffer => exact hkept (h.abi.callouts_takeAnnounced buffer) (by simp) (by simp)
  | settled =>
    exact hkept h.abi.callouts_settle (by simp [Event.ofCallouts]) (by simp)
  | shared op answer =>
    exact hkept (h.abi.callouts_recordShared _ _ _) (by simp [Event.ofCallouts]) (by simp)
  | _ => exact hkept rfl (by simp [Event.ofCallouts]) (by simp)

/-- **A step of a guest** that is not poisoned keeps the line of a callout, which takes what the
    step asks. -/
theorem Follows.step {s s' : Session} {aim : Aim} (hf : Follows id past s.abi.callouts)
    (hnum : s.abi.callouts.Numbered past) (hwf : s.abi.contexts.WellFormed)
    (hrec : s.abi.contexts.Recorded past) (hlive : s.host.poisoned = false)
    (step : s.Step aim t s') :
    (∀ e ∈ t, (told id past).allows id e) ∧ Follows id (past ++ t) s'.abi.callouts := by
  have hreserved : ∀ {entry}, s.abi.callouts.get id = some entry → id ∈ reservedIn past :=
    fun hget => (hnum.reserved id).2 (hnum.opened id (by rw [hget]; rfl))
  have hnil : s'.abi.callouts = s.abi.callouts → t = [] →
      (∀ e ∈ t, (told id past).allows id e) ∧ Follows id (past ++ t) s'.abi.callouts := by
    rintro htable rfl
    exact ⟨by rintro e ⟨⟩, hf.still (by rw [htable]) (by rw [List.append_nil])⟩
  have hone : ∀ e table, (∀ line : CalloutLine, line.allows id e ∧ line.next id e = line) →
      table.get id = s.abi.callouts.get id →
      (∀ e' ∈ [e], (told id past).allows id e') ∧ Follows id (past ++ [e]) table := by
    intro e table hstill htable
    refine ⟨fun e' he => ?_, hf.still htable (by rw [told_snoc, (hstill _).2])⟩
    cases List.mem_singleton.1 he
    exact (hstill _).1
  cases step with
  | host running step => exact hf.host hnum hwf hrec step
  | began | finished | returned | unwound | created =>
    exact hone _ _ (fun _ => ⟨trivial, rfl⟩) rfl
  | @ended x idle live aimed accepted =>
    have hafter := s.abi.callouts.get_remove x id
    by_cases hx : x = id
    · subst hx
      cases hget : s.abi.callouts.get x with
      | none =>
        refine hone _ _ (fun _ => ⟨trivial, rfl⟩) ?_
        rw [hget]
        exact hafter.trans (if_pos rfl)
      | some entry =>
        refine ⟨fun e he => ?_, .closed (hafter.trans (if_pos rfl)) (hreserved hget)⟩
        cases List.mem_singleton.1 he
        trivial
    · refine hone _ _ (fun line => ⟨trivial, ?_⟩) (hafter.trans (if_neg (Ne.symm hx)))
      cases s.abi.callouts.get x with
      | none => rfl
      | some entry => exact if_neg hx
  | @dropped c aimed idle live =>
    have hafter := CalloutTable.get_foldl_remove ((s.abi.callouts.madeBy c).map (·.1))
      s.abi.callouts id
    by_cases hmem : id ∈ (s.abi.callouts.madeBy c).map (·.1)
    · obtain ⟨entry, hget, -⟩ := CalloutTable.mem_madeBy_fst.1 hmem
      refine ⟨fun e he => ?_, .closed (hafter.trans (if_pos hmem)) (hreserved hget)⟩
      cases List.mem_singleton.1 he
      trivial
    · have hleft : ((s.abi.callouts.madeBy c).map (·.1)).contains id ≠ true := fun hcontains =>
        hmem (List.contains_iff_mem.1 hcontains)
      exact hone _ _ (fun line => ⟨trivial, if_neg hleft⟩) (hafter.trans (if_neg hmem))
  | @deleted c isRoot aimed idle live mark known root children =>
    have htable := s.abi.callouts_removeContext c isRoot
    refine ⟨fun e he => ?_, fun entry hget => ?_, fun hnot => ?_⟩
    · cases List.mem_singleton.1 he
      trivial
    · rw [told_snoc]
      change CalloutTable.get (s.abi.removeContext c isRoot).callouts id = some entry at hget
      rw [htable] at hget
      rcases hf.held entry hget with htold | ⟨hover, shown, hmem⟩
      · rw [htold]
        show (if entry.caller = c then CalloutLine.over else _) = _ ∨
          (if entry.caller = c then CalloutLine.over else _) = _ ∧ _
        by_cases hcaller : entry.caller = c
        · rw [if_pos hcaller, hcaller]
          exact .inr ⟨rfl, s.abi, List.mem_append_right _ (.head _)⟩
        · rw [if_neg hcaller]
          exact .inl rfl
      · rw [hover]
        exact .inr ⟨rfl, shown, List.mem_append_left _ hmem⟩
    · rw [told_snoc, hf.fresh fun hmem => hnot ?_]
      · rfl
      · rw [reservedIn_append]
        exact List.mem_append_left _ hmem
  | reentered x entry poisoned =>
    rw [hlive] at poisoned
    cases poisoned
  | _ => exact hnil rfl rfl

end CalloutLine

/-- A callout is asked about for the effective context of a guest that is not poisoned. -/
theorem HostStep.asking {h h' : HostState} {t : List Event} (step : HostStep h t h')
    {service : ServiceId} {call : Invocation} {id : CalloutId} {op : CalloutOp}
    {answer : Answer (Except Status Unit)} (he : .callout service call id op answer ∈ t) :
    h.poisoned = false ∧ h.abi.context = some call.context := by
  cases step with
  | opened answer live hc | sent message endOfStream answer live hc | cancelled answer live hc
  | closed answer live hc =>
    cases List.mem_singleton.1 he
    exact ⟨live, hc⟩
  | called | logged | stream | done | settled | shared => cases List.mem_singleton.1 he
  | _ => cases he

theorem Session.Step.asking {s s' : Session} {aim : Aim} {t : List Event} (step : s.Step aim t s')
    {service : ServiceId} {call : Invocation} {id : CalloutId} {op : CalloutOp}
    {answer : Answer (Except Status Unit)} (he : .callout service call id op answer ∈ t) :
    s.host.poisoned = false ∧ s.abi.context = some call.context := by
  cases step with
  | host running step => exact step.asking he
  | began | finished | returned | unwound | created | ended | deleted | dropped =>
    cases List.mem_singleton.1 he
  | _ => cases he

/-! ## Runs -/

namespace Run

variable (r : Run)

/-- **What is asked of the callout service**, as long as there are fewer reservations than
    identifiers. -/
theorem line_takes {past rest : List Event} {service : ServiceId} {call : Invocation}
    {id : CalloutId} {op : CalloutOp} {answer : Answer (Except Status Unit)}
    (ht : r.trace = past ++ .callout service call id op answer :: rest)
    (hfew : (reservedIn past).length + 1 < 2 ^ 32) :
    (CalloutLine.told id past).takes call.context op ∧
      ∀ abi, .deleted call.context abi ∉ past := by
  have hfits := r.path.in_past (I := fun past s => s.abi.contexts.Recorded past ∧
    (s.host.poisoned = false → (reservedIn past).length + 1 < 2 ^ 32 →
      s.abi.callouts.Numbered past ∧ ∀ id, CalloutLine.Follows id past s.abi.callouts))
    (P := fun past e => (reservedIn past).length + 1 < 2 ^ 32 →
      ∀ service call id op answer, e = .callout service call id op answer →
        (CalloutLine.told id past).allows id e ∧ ∀ abi, .deleted call.context abi ∉ past)
    ?_ ?_ ⟨.new, fun _ _ => ⟨.new, fun _ => .new⟩⟩ ht hfew _ _ _ _ _ rfl
  · exact ⟨hfits.1 rfl, hfits.2⟩
  · rintro s t s' ⟨aim, -, -, step⟩
    exact step.one
  · rintro past s t s' ⟨hrec, hlines⟩ ⟨aim, -, hsound, step⟩
    refine ⟨⟨hrec.moves step.moves, fun hlive' hfew' => ?_⟩, ?_⟩
    · have hlive : s.host.poisoned = false := by
        by_contra hpoisoned
        rw [step.poisoned (by simpa using hpoisoned)] at hlive'
        cases hlive'
      have hfew : (reservedIn past).length + 1 < 2 ^ 32 := by
        rw [reservedIn_append, List.length_append] at hfew'
        omega
      obtain ⟨hnum, hfollows⟩ := hlines hlive hfew
      exact ⟨hnum.moves hlive step.callouts hfew', fun id =>
        ((hfollows id).step hnum hsound.contexts hrec hlive step).2⟩
    · rintro e he hfew service call id op answer rfl
      obtain ⟨hlive, hc⟩ := step.asking he
      obtain ⟨hnum, hfollows⟩ := hlines hlive hfew
      exact ⟨((hfollows id).step hnum hsound.contexts hrec hlive step).1 _ he,
        CalloutLine.not_deleted hsound.contexts hrec hc⟩

/-- **The protocol of a callout.** In a run that reserves fewer identifiers than there are, every
    call of the callout service is one that the callout takes where it stands, for a context that
    is not deleted, and once a callout is done with the service hears of it no more. -/
theorem callout_protocol (hfew : (reservedIn r.trace).length < 2 ^ 32 - 1) (id : CalloutId) :
    (∀ past service call op answer rest,
      r.trace = past ++ .callout service call id op answer :: rest →
      (CalloutLine.told id past).takes call.context op ∧
        ∀ abi, .deleted call.context abi ∉ past) ∧
    ∀ past rest, r.trace = past ++ rest → CalloutLine.told id past = .over →
      ∀ service call op answer, .callout service call id op answer ∉ rest := by
  have htakes : ∀ past service call op answer rest,
      r.trace = past ++ .callout service call id op answer :: rest →
      (CalloutLine.told id past).takes call.context op ∧
        ∀ abi, .deleted call.context abi ∉ past := by
    intro past service call op answer rest ht
    refine r.line_takes ht ?_
    rw [ht, reservedIn_append, List.length_append] at hfew
    omega
  refine ⟨htakes, fun past rest ht hover service call op answer hmem => ?_⟩
  obtain ⟨before, after, rfl⟩ := List.append_of_mem hmem
  have hlater := (htakes (past ++ before) service call op answer after (by rw [ht]; simp)).1
  rw [CalloutLine.told_over hover] at hlater
  exact hlater

end Run

/-! ## A guest that ends a stream it half-closed -/

namespace Openings

/-- An embedder that takes every callout, and what is sent on it. -/
def talkative : World :=
  { accepting with
    callouts := { accepting.callouts with grpcSend := fun _ _ _ _ => some (.ok ()) } }

/-- A root opens a stream, sends the end of it, and cancels it. -/
def talking : Run :=
  .of 9 .bare ⟨[], .info, [], [], 1, 2⟩ (.atMost none)
    [.enter .noStream, .onContextCreate none (.returning 0), .onTick .min openStream,
      .onTick .min (.calling (.proxyGrpcSend 1 0 0 1) talkative 0),
      .onTick .min (.calling (.proxyGrpcCancel 1) talkative 0)]
    rfl (by decide)

/-- Half-closed, the stream takes its cancel, and nothing after it. -/
theorem talking_ends : CalloutLine.told .min (talking.trace.take 16) =
      .opened .grpcStream .min true ∧
    (CalloutLine.told .min (talking.trace.take 16)).takes .min .grpcCancel ∧
    ∀ service call op answer,
      .callout service call .min op answer ∉ talking.trace.drop 17 := by
  have hprotocol := talking.callout_protocol (by decide) .min
  have htrace : talking.trace = talking.trace.take 16 ++
      .callout 2 ⟨9, .min, some .tick, none⟩ .min .grpcCancel (some (.ok ())) ::
        talking.trace.drop 17 := rfl
  refine ⟨by decide, (hprotocol.1 _ _ _ _ _ _ htrace).1, ?_⟩
  exact hprotocol.2 (talking.trace.take 17) _ (List.take_append_drop 17 _).symm (by decide)

end Openings

end ProxyWasmHost
