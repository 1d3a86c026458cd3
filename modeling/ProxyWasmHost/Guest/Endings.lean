/-
  A delivery that ends a callout: when it leaves the callout ended, or open for the
  embedder to find, and nothing between the two.
-/
import ProxyWasmHost.Guest.Poisoned
import ProxyWasmHost.Guest.Openings

namespace ProxyWasmHost

open Prog Session Prologue

variable {s s' : Session} {h h' : HostState} {past t : List Event} {call : Delivered}
  {code : Code} {id : CalloutId} {entry : Callout}

/-! ## What a delivery leaves -/

/-- What the guest does in the callback of a delivery. -/
def Session.guestIn (s : Session) (call : Delivered) (code : Code) : Res Session Event Error I32 :=
  (callCallback call.callback code 0).run ((s.lending call).running call.context call.callback)

/-- The guest that a callback left. -/
def Session.idled (s : Session) : Session := s.mapAbi fun abi => { abi with currentCallback := none }

/-- **A callback ends as what the guest does in it.** -/
theorem run_guest {c : ContextId} {callback : Callback} {params : List I32} {default : I32}
    (s : Session) {guest : Res Session Event Error I32}
    (hguest : (callCallback callback code default).run (s.running c callback) = guest) :
    Leaves (run c callback params code default)
      (fun value _ s' => guest.exit = .ok value ∧ s' = guest.state.idled)
      (fun _ _ s' => (∃ e, guest.exit = .err e) ∧ s' = guest.state.idled)
      (fun _ s' => guest.exit = .panicked ∧ s' = guest.state) s := by
  unfold Prologue.run
  refine .bind_act ?_
  refine .bind (M := fun result _ s' => s' = guest.state ∧
    ((∃ value, result = .ok value ∧ guest.exit = .ok value) ∨
      ∃ e, result = .error e ∧ guest.exit = .err e)) (.attempt ?_) ?_
  · show Leaves _ _ _ _ (s.running c callback)
    unfold Leaves
    rw [hguest]
    cases hexit : guest.exit with
    | ok value => exact ⟨rfl, .inl ⟨value, rfl, rfl⟩⟩
    | err e => exact ⟨rfl, .inr ⟨e, rfl, rfl⟩⟩
    | panicked => exact ⟨rfl, rfl⟩
  · rintro _ _ _ ⟨rfl, ⟨value, rfl, hexit⟩ | ⟨e, rfl, hexit⟩⟩
    · exact .bind_act (.bind_emit (.pure ⟨hexit, rfl⟩))
    · exact .bind_act (.bind_emit (.throw ⟨⟨e, hexit⟩, rfl⟩))

/-- **A delivery ends as what the guest does in it.** -/
theorem deliver_guest (s : Session) (call : Delivered) (code : Code) :
    Leaves (deliver call code)
      (fun _ _ s' => (∃ value, (s.guestIn call code).exit = .ok value) ∧
        s' = s.settled call (s.guestIn call code).state.idled)
      (fun _ _ s' => (∃ e, (s.guestIn call code).exit = .err e) ∧
        s' = s.settled call (s.guestIn call code).state.idled)
      (fun _ s' => (s.guestIn call code).exit = .panicked ∧ s' = (s.guestIn call code).state) s := by
  obtain ⟨s₀, hrun, hlent⟩ := takeEnded_run s call
  unfold deliver
  refine .bind (M := fun entry t s₁ => entry = s.entryOf call ∧ t = s.taking call ∧ s₁ = s₀) ?_ ?_
  · unfold Leaves
    rw [hrun]
    exact ⟨rfl, rfl, rfl⟩
  · rintro entry t _ ⟨rfl, rfl, rfl⟩
    refine .bind_modify ?_
    rw [hlent]
    refine .bind (M := fun result _ s₁ => s₁ = (s.guestIn call code).state.idled ∧
      ((∃ value, result = .ok value ∧ (s.guestIn call code).exit = .ok value) ∨
        ∃ e : GuestError, result = .error e ∧ ∃ e', (s.guestIn call code).exit = .err e'))
      (.attempt ((run_guest (s.lending call) rfl).mono ?_ ?_ ?_)) ?_
    · exact fun value _ _ hends => ⟨hends.2, .inl ⟨value, rfl, hends.1⟩⟩
    · exact fun e _ _ hends => ⟨hends.2, .inr ⟨e, rfl, hends.1⟩⟩
    · exact fun _ _ hends => hends
    · rintro _ _ _ ⟨rfl, ⟨value, rfl, hexit⟩ | ⟨e, rfl, e', hexit⟩⟩
      · exact settle_leaves s _ _ (fun _ _ => ⟨⟨value, hexit⟩, rfl⟩) (by rintro _ ⟨⟩)
      · exact settle_leaves s _ _ (by rintro _ ⟨⟩) (fun _ _ => ⟨⟨e', hexit⟩, rfl⟩)

/-! ## The deliveries that end a callout -/

/-- What a delivery that ends a callout brings. -/
inductive Ending where
  | response (response : HttpCallResponse)
  | close (status : GrpcStatus)
  /-- The answer of a unary call. -/
  | message (message : Bytes)

namespace Ending

/-- The kinds of callouts that it ends. -/
def kinds : Ending → List CalloutKind
  | .response _ => [.httpCall]
  | .close _ => [.grpcCall, .grpcStream]
  | .message _ => [.grpcCall]

/-- What it brings fits the ABI, and a response that did not fail has a header. -/
def Fits : Ending → Prop
  | .response received => (received.isFailed ∨ received.headers ≠ []) ∧
      received.headers.length < 2 ^ 31 ∧ received.body.length < 2 ^ 31 ∧
      received.trailers.length < 2 ^ 31
  | .close status => status.message.length < 2 ^ 31
  | .message bytes => bytes.length < 2 ^ 31

/-- The call of the embedder. -/
def op (e : Ending) (c : ContextId) (id : CalloutId) (code : Code) : Op :=
  match e with
  | .response received => .onHttpCallResponse c id received code
  | .close status => .onGrpcClose c id status code
  | .message bytes => .onGrpcReceive c id bytes code

/-- The delivery to the root of the callout. -/
def delivered (e : Ending) (root : ContextId) (id : CalloutId) : Delivered :=
  match e with
  | .response received =>
    { context := root
      callout := some id
      delivery := .httpCallResponse id received
      callback := .httpCallResponse
      params := [root.wire, id.wire, UInt32.ofNat received.headers.length,
        UInt32.ofNat received.body.length, UInt32.ofNat received.trailers.length]
      ends := true }
  | .close status =>
    { context := root
      callout := some id
      delivery := .grpcClose id status
      callback := .grpcClose
      params := [root.wire, id.wire, status.code]
      ends := true }
  | .message bytes =>
    { context := root
      callout := some id
      delivery := .grpcMessage id bytes
      callback := .grpcReceive
      params := [root.wire, id.wire, UInt32.ofNat bytes.length]
      ends := true }

/-- It passes its checks in `s`, for a callout of `c` that is open. -/
structure Passes (e : Ending) (s : Session) (c : ContextId) (id : CalloutId) (entry : Callout) :
    Prop where
  live : s.Live
  held : s.abi.callouts.get id = some entry
  caller : entry.caller = c
  kind : entry.kind ∈ e.kinds
  root : s.abi.contexts.contextType entry.root = some .root
  accepted : s.abi.contexts.rejectionOf entry.root = none
  fits : e.Fits

theorem takes_delivered (e : Ending) (root : ContextId) (id : CalloutId) :
    (e.delivered root id).takes = some id := by
  cases e <;> rfl

end Ending

theorem requireOpen_of_held {c : ContextId} {kinds : List CalloutKind}
    (held : s.abi.callouts.get id = some entry) (caller : entry.caller = c)
    (kind : entry.kind ∈ kinds) : (requireOpen c id kinds).run s = ⟨.ok entry, s, []⟩ := by
  unfold requireOpen
  rw [bind_of_ok_nil (a := s.abi.callouts) (r := s) rfl, held,
    bind_of_ok_nil (a := entry) (r := s) rfl, Prog.require, if_pos caller,
    bind_of_ok_nil (a := ()) (r := s) rfl, Prog.require, if_pos kind]
  rfl

theorem grpcAccepted_of_held {c : ContextId} (held : s.abi.callouts.get id = some entry)
    (caller : entry.caller = c) (kind : entry.kind ∈ [CalloutKind.grpcCall, .grpcStream])
    (root : s.abi.contexts.contextType entry.root = some .root)
    (accepted : s.abi.contexts.rejectionOf entry.root = none) :
    (grpcAccepted c id).run s = ⟨.ok entry, s, []⟩ := by
  unfold grpcAccepted
  rw [bind_of_ok_nil (requireOpen_of_held held caller kind),
    bind_of_ok_nil (requireRoot_of_root root), bind_of_ok_nil (accepted_of_accepted accepted)]
  rfl

theorem replying_congr {α : Type} {m m' : Method α} {reply : α → Reply} (h : m.run s = m'.run s) :
    (replying m reply).run s = (replying m' reply).run s := by
  unfold replying
  cases hres : m'.run s with
  | mk exit s' t =>
    rw [hres] at h
    cases exit with
    | ok a => rw [bind_of_ok h, bind_of_ok hres]
    | err e => rw [bind_of_err h, bind_of_err hres]
    | panicked => rw [bind_of_panicked h, bind_of_panicked hres]

/-- **A delivery that passes its checks** is made to the root of the callout. -/
theorem Ending.Passes.perform {e : Ending} {c : ContextId} (h : e.Passes s c id entry)
    (code : Code) : (e.op c id code).perform.run s =
      (replying (deliver (e.delivered entry.root id) code) fun _ => .unit).run s := by
  cases e with
  | response response =>
    obtain ⟨hheader, hheaders, hbody, htrailers⟩ := h.fits
    have hkind : entry.kind ∈ [CalloutKind.httpCall] := h.kind
    refine replying_congr ?_
    unfold onHttpCallResponse
    rw [bind_of_ok_nil (requireLive_of_live h.live),
      bind_of_ok_nil (requireOpen_of_held h.held h.caller hkind), Prog.require, if_pos hheader,
      bind_of_ok_nil (a := ()) (r := s) rfl, bind_of_ok_nil (requireRoot_of_root h.root),
      bind_of_ok_nil (accepted_of_accepted h.accepted)]
    unfold deliverHttpResponse
    rw [bind_of_ok_nil (wireSize_of_lt hheaders), bind_of_ok_nil (wireSize_of_lt hbody),
      bind_of_ok_nil (wireSize_of_lt htrailers)]
    rfl
  | close status =>
    have hkind : entry.kind ∈ [CalloutKind.grpcCall, .grpcStream] := h.kind
    refine replying_congr ?_
    unfold onGrpcClose
    rw [bind_of_ok_nil (requireLive_of_live h.live),
      bind_of_ok_nil (grpcAccepted_of_held h.held h.caller hkind h.root h.accepted)]
    unfold deliverGrpcClose
    rw [bind_of_ok_nil (wireSize_of_lt h.fits)]
    rfl
  | message message =>
    have hkind : entry.kind = .grpcCall := List.mem_singleton.1 h.kind
    refine replying_congr ?_
    unfold onGrpcReceive
    rw [bind_of_ok_nil (requireLive_of_live h.live), bind_of_ok_nil (grpcAccepted_of_held h.held
      h.caller (by rw [hkind]; exact .head _) h.root h.accepted),
      bind_of_ok_nil (wireSize_of_lt h.fits)]
    simp only [hkind, decide_true]
    rfl

/-! ## Atomicity -/

/-- Every callout the guest has open, in identifier order. -/
def Guest.openCallouts (s : Session) : List OpenCallout :=
  s.abi.callouts.entries.toList.map fun entry => entry.2.report entry.1

theorem mem_openCallouts {report : OpenCallout} : report ∈ Guest.openCallouts s ↔
    ∃ entry, s.abi.callouts.get report.callout = some entry ∧
      entry.report report.callout = report := by
  unfold Guest.openCallouts CalloutTable.get
  simp only [List.mem_map, Prod.exists, Std.ExtTreeMap.mem_toList_iff_getElem?_eq_some]
  constructor
  · rintro ⟨x, entry, hget, rfl⟩
    exact ⟨entry, hget, rfl⟩
  · rintro ⟨entry, hget, hreport⟩
    exact ⟨_, entry, hget, hreport⟩

/-- The callout `id` that a delivery ends is over when the delivery returned. Otherwise,
    whatever the embedder calls after it, the guest refuses every call and has the callout
    open as it was. -/
structure Atomic (id : CalloutId) (entry : Callout) (res : Res Session Event GuestError Reply) :
    Prop where
  returned : ∀ reply, res.exit = .ok reply →
    ∀ report ∈ Guest.openCallouts res.state, report.callout ≠ id
  failed : (∀ reply, res.exit ≠ .ok reply) → ∀ calls s', Steps Session.Calls res.state calls s' →
    entry.report id ∈ Guest.openCallouts s' ∧ ∀ op : Op, op.Refused s'

/-- The guest does not open the callout again in the callback that gets its answer, and embedder
    code does not panic in it. -/
structure Survives (id : CalloutId) (entry : Callout) (guest : Res Session Event Error I32) :
    Prop where
  returned : ∀ value, guest.exit = .ok value → guest.state.abi.callouts.get id = none
  panicked : guest.exit = .panicked →
    ∃ held, guest.state.abi.callouts.get id = some held ∧ held.report id = entry.report id

/-- The guest of a delivery is poisoned when it unwound, and alive when it returned. -/
theorem Session.guestIn_lives (hlive : s.Live) (call : Delivered) (code : Code) :
    Ends (fun _ s' => s'.host.poisoned = false) (fun _ s' => s'.host.poisoned = true)
      (fun s' => s'.abi.currentCallback = some call.callback)
      (s.guestIn call code).exit (s.guestIn call code).state := by
  have hlives : Leaves (callCallback call.callback code 0) _ _ _
      ((s.lending call).running call.context call.callback) :=
    callCallback_lives (hlive.lending call).live
  exact hlives.mono (fun _ _ _ h => h) (fun _ _ _ h => h.1) fun _ _ h => h

/-- How a delivery that passes its checks ends, and what it leaves. -/
theorem Ending.Passes.guest {e : Ending} {c : ContextId} (h : e.Passes s c id entry)
    (code : Code) {guest : Res Session Event Error I32}
    (hguest : s.guestIn (e.delivered entry.root id) code = guest) :
    Leaves (e.op c id code).perform
      (fun _ _ s' => (∃ value, guest.exit = .ok value) ∧
        s' = guest.state.idled.mapAbi fun abi => { abi with delivery := none })
      (fun _ _ s' => (∃ error, guest.exit = .err error) ∧ s' = (guest.state.idled.mapAbi
        fun abi => { abi with delivery := none }).mapCallouts (·.enter id entry))
      (fun _ s' => guest.exit = .panicked ∧ s' = guest.state) s := by
  have hentry : s.entryOf (e.delivered entry.root id) = some (id, entry) := by
    unfold Session.entryOf
    rw [e.takes_delivered, Option.bind_some, h.held]
    rfl
  have hlives := s.guestIn_lives h.live (e.delivered entry.root id) code
  rw [hguest] at hlives
  have hdeliver := deliver_guest s (e.delivered entry.root id) code
  rw [hguest] at hdeliver
  have hreplies := (replying_leaves (fun _ => .unit) hdeliver).congr (h.perform code)
  refine hreplies.mono ?_ ?_ fun _ _ hends => hends
  · rintro _ _ _ ⟨_, _, ⟨value, hexit⟩, rfl⟩
    refine ⟨⟨value, hexit⟩, ?_⟩
    rw [hexit] at hlives
    have hlive : guest.state.idled.host.poisoned = false := hlives
    unfold Session.settled
    rw [hentry]
    simp only [hlive]
    rfl
  · rintro _ _ _ ⟨⟨error, hexit⟩, rfl⟩
    refine ⟨⟨error, hexit⟩, ?_⟩
    rw [hexit] at hlives
    have hpoisoned : guest.state.idled.host.poisoned = true := hlives
    unfold Session.settled
    rw [hentry]
    simp only [hpoisoned]
    rfl

/-- A guest that is not live lists what it listed, and refuses every call. -/
theorem Session.refusing_of_calls {calls : List Call} (hcalls : Steps Session.Calls s calls s')
    (hdead : ¬ s.Live) : s'.abi.callouts = s.abi.callouts ∧ ∀ op : Op, op.Refused s' := by
  have hdead' := hcalls.invariant (I := fun s' => ¬ s'.Live ∧ s'.abi.callouts = s.abi.callouts) ?_
    ⟨hdead, rfl⟩
  · exact ⟨hdead'.2, fun op => op.refused hdead'.1⟩
  · rintro s₁ _ s₂ ⟨hdead, hcallouts⟩ ⟨op, -, rfl, -⟩
    have hrefused := op.refused hdead
    exact ⟨hrefused.dead, hrefused.kept.callouts.trans hcallouts⟩

/-- **An ending delivery is atomic** when the guest of its callback survives, and only
    then. -/
theorem Ending.Passes.atomic {e : Ending} {c : ContextId} (h : e.Passes s c id entry)
    (code : Code) : Atomic id entry ((e.op c id code).perform.run s) ↔
      Survives id entry (s.guestIn (e.delivered entry.root id) code) := by
  have hlives := s.guestIn_lives h.live (e.delivered entry.root id) code
  have hends := h.guest code rfl
  generalize s.guestIn (e.delivered entry.root id) code = guest at hlives hends ⊢
  unfold Leaves at hends
  generalize (e.op c id code).perform.run s = res at hends ⊢
  obtain ⟨exit, state, trace⟩ := res
  cases exit with
  | ok reply =>
    obtain ⟨⟨value, hexit⟩, rfl⟩ := hends
    refine ⟨fun hatomic => ⟨fun _ _ => ?_, fun hpanic => ?_⟩, fun hsurvives => ⟨?_, ?_⟩⟩
    · by_contra hopen
      obtain ⟨held, hheld⟩ := Option.ne_none_iff_exists'.1 hopen
      exact hatomic.returned reply rfl (held.report id) (mem_openCallouts.2 ⟨held, hheld, rfl⟩) rfl
    · rw [hexit] at hpanic
      cases hpanic
    · rintro _ - report hreport rfl
      obtain ⟨held, hheld, -⟩ := mem_openCallouts.1 hreport
      have hnone := hsurvives.returned value hexit
      rw [show guest.state.abi.callouts.get report.callout = some held from hheld] at hnone
      cases hnone
    · exact fun hfailed => absurd rfl (hfailed reply)
  | err error =>
    obtain ⟨⟨error', hexit⟩, rfl⟩ := hends
    rw [hexit] at hlives
    refine iff_of_true ⟨by rintro _ ⟨⟩, fun _ calls s' hcalls => ?_⟩ ⟨?_, ?_⟩
    · obtain ⟨hcallouts, hrefused⟩ :=
        Session.refusing_of_calls hcalls (not_live_of_poisoned hlives)
      refine ⟨mem_openCallouts.2 ⟨entry, ?_, rfl⟩, hrefused⟩
      rw [hcallouts, callouts_mapCallouts]
      exact (CalloutTable.get_enter _ id id entry).trans (if_pos rfl)
    · rw [hexit]
      rintro _ ⟨⟩
    · rw [hexit]
      rintro ⟨⟩
  | panicked =>
    obtain ⟨hexit, rfl⟩ := hends
    rw [hexit] at hlives
    have hdead : ¬ guest.state.Live := by
      intro hlive
      rw [Ends, hlive.idle] at hlives
      cases hlives
    refine ⟨fun hatomic => ⟨?_, fun _ => ?_⟩, fun hsurvives => ⟨by rintro _ ⟨⟩, ?_⟩⟩
    · rw [hexit]
      rintro _ ⟨⟩
    · obtain ⟨hlisted, -⟩ := hatomic.failed (by rintro _ ⟨⟩) [] _ (.nil _)
      exact mem_openCallouts.1 hlisted
    · intro _ calls s' hcalls
      obtain ⟨hcallouts, hrefused⟩ := Session.refusing_of_calls hcalls hdead
      obtain ⟨held, hheld, hreport⟩ := hsurvives.panicked hexit
      exact ⟨mem_openCallouts.2 ⟨held, hcallouts ▸ hheld, hreport⟩, hrefused⟩

/-! ## Identifiers that are not given out again -/

/-- A poisoned guest opens nothing. -/
theorem HostStep.callouts_of_poisoned (step : HostStep h t h') (hpoisoned : h.poisoned = true) :
    h'.abi.callouts = h.abi.callouts ∧ reservedIn t = [] := by
  have hdead : h.poisoned ≠ false := by simp [hpoisoned]
  cases step with
  | called live | stream _ live | tickPeriod _ live | shared _ _ live | opened _ live
  | sent _ _ _ live | cancelled _ live | closed _ live => exact absurd live hdead
  | announced => exact ⟨h.abi.callouts_takeAnnounced _, rfl⟩
  | settled => exact ⟨h.abi.callouts_settle, rfl⟩
  | _ => exact ⟨rfl, rfl⟩

/-- As long as the counter has not gone round, it stays one past the reservations. -/
theorem HostStep.numbered (step : HostStep h t h') (hnum : h.abi.callouts.Numbered past)
    (hfew : (reservedIn (past ++ t)).length + 1 < 2 ^ 32) :
    h'.abi.callouts.Numbered (past ++ t) := by
  cases hpoisoned : h.poisoned with
  | true =>
    obtain ⟨hcallouts, hreserved⟩ := step.callouts_of_poisoned hpoisoned
    rw [hcallouts]
    refine hnum.congr ?_ rfl fun _ hx => hx
    rw [reservedIn_append, hreserved, List.append_nil]
  | false => exact hnum.moves hpoisoned step.callouts hfew

/-- **A step of a host function** opens nothing under an identifier that was reserved, as long
    as the counter has not gone round. -/
theorem HostStep.get_of_reserved (step : HostStep h t h') (hnum : h.abi.callouts.Numbered past)
    (hid : id ∈ reservedIn past) (hnone : h.abi.callouts.get id = none) :
    h'.abi.callouts.get id = none := by
  cases hpoisoned : h.poisoned with
  | true =>
    rw [(step.callouts_of_poisoned hpoisoned).1]
    exact hnone
  | false =>
    have hmoves := step.callouts
    generalize h'.abi.callouts = table at hmoves ⊢
    cases hmoves with
    | kept silent => exact hnone
    | @opened _ _ id' op kind c root reserved answer live room reserve opens =>
      have hnext := (CalloutTable.reserve_of_get_next hnum.get_next reserve).1
      have hlt := (hnum.reserved id).1 hid
      have hne : id ≠ id' := by
        rintro rfl
        rw [← hnext] at hlt
        exact Nat.lt_irrefl _ hlt
      rw [CalloutTable.get_of_asked reserve, if_neg fun h => hne h.2, hnone]
    | told opens stays => exact hnone
    | closed opens stays =>
      rw [CalloutTable.get_closeByGuest, hnone]
      split <;> rfl
    | cancelled | ended =>
      rw [CalloutTable.get_remove, hnone]
      split <;> rfl
    | dropped ids =>
      rw [CalloutTable.get_foldl_remove, hnone]
      split <;> rfl
    | reentered x entry poisoned =>
      rw [hpoisoned] at poisoned
      cases poisoned

theorem HostStep.get_of_steps (path : Steps HostStep h t h')
    (hnum : h.abi.callouts.Numbered past) (hid : id ∈ reservedIn past)
    (hnone : h.abi.callouts.get id = none)
    (hfew : (reservedIn (past ++ t)).length + 1 < 2 ^ 32) : h'.abi.callouts.get id = none := by
  have hlast := path.history (p := past) (I := fun past h => id ∈ reservedIn past ∧
    ((reservedIn past).length + 1 < 2 ^ 32 →
      h.abi.callouts.Numbered past ∧ h.abi.callouts.get id = none)) ?_ ⟨hid, fun _ => ⟨hnum, hnone⟩⟩
  · exact (hlast.2 hfew).2
  · rintro past h t h' ⟨hid, hI⟩ step
    refine ⟨by rw [reservedIn_append]; exact List.mem_append_left _ hid, fun hfew => ?_⟩
    obtain ⟨hnum, hnone⟩ := hI (by rw [reservedIn_append, List.length_append] at hfew; omega)
    exact ⟨step.numbered hnum hfew, step.get_of_reserved hnum hid hnone⟩

/-- What the guest does in the callback of a delivery is what host functions do. -/
theorem Session.guestIn_steps (s : Session) (call : Delivered) (code : Code) :
    Steps HostStep ((s.lending call).running call.context call.callback).host
      (s.guestIn call code).trace (s.guestIn call code).state.host := by
  have hleaves : Leaves (callCallback call.callback code 0) _ _ _ _ :=
    callCallback_leaves ((s.lending call).running call.context call.callback)
  unfold Leaves at hleaves
  unfold guestIn
  generalize (callCallback call.callback code 0).run _ = res at hleaves ⊢
  obtain ⟨exit, state, trace⟩ := res
  cases exit <;> obtain ⟨h, rfl, path⟩ := hleaves <;> exact path

/-- In a run whose counter has not gone round, the guest of a delivery does not get the
    identifier of the callout that ends. -/
theorem Run.get_guestIn (r : Run) {e : Ending} {c : ContextId} (h : e.Passes r.last c id entry)
    (code : Code) (hfew : (reservedIn r.trace).length +
      (reservedIn (r.last.guestIn (e.delivered entry.root id) code).trace).length + 1 < 2 ^ 32) :
    (r.last.guestIn (e.delivered entry.root id) code).state.abi.callouts.get id = none := by
  have hnum := r.numbered_steps r.path h.live.live (by omega)
  have hlent : (r.last.lending (e.delivered entry.root id)).abi.callouts =
      r.last.abi.callouts.remove id := by
    unfold Session.lending
    rw [e.takes_delivered]
    rfl
  refine HostStep.get_of_steps (r.last.guestIn_steps _ code)
    (?_ : CalloutTable.Numbered r.trace _) ?_ ?_ ?_
  · show (r.last.lending (e.delivered entry.root id)).abi.callouts.Numbered r.trace
    rw [hlent]
    refine hnum.congr rfl rfl fun x hx => ?_
    rw [CalloutTable.get_remove] at hx
    split at hx
    · cases hx
    · exact hx
  · rw [hnum.reserved]
    exact hnum.opened id (by rw [h.held]; rfl)
  · show (r.last.lending (e.delivered entry.root id)).abi.callouts.get id = none
    rw [hlent, CalloutTable.get_remove, if_pos rfl]
  · rw [reservedIn_append, List.length_append]
    exact hfew

/-- **The atomicity of ending deliveries**: a delivery that passes its checks is atomic exactly
    when the guest of its callback survives. While the counter of the callouts has not gone
    round, that is when no embedder code panics in the callback. -/
theorem endings_atomic (e : Ending) (s : Session) (c : ContextId) (id : CalloutId)
    (entry : Callout) (code : Code) (hpasses : e.Passes s c id entry) :
    (Atomic id entry ((e.op c id code).perform.run s) ↔
      Survives id entry (s.guestIn (e.delivered entry.root id) code)) ∧
    ∀ r : Run, r.last = s → (reservedIn r.trace).length +
        (reservedIn (s.guestIn (e.delivered entry.root id) code).trace).length + 1 < 2 ^ 32 →
      (Survives id entry (s.guestIn (e.delivered entry.root id) code) ↔
        (s.guestIn (e.delivered entry.root id) code).exit ≠ .panicked) := by
  refine ⟨hpasses.atomic code, ?_⟩
  rintro r rfl hfew
  have hnone := r.get_guestIn hpasses code hfew
  constructor
  · intro hsurvives hpanic
    obtain ⟨held, hheld, -⟩ := hsurvives.panicked hpanic
    rw [hnone] at hheld
    cases hheld
  · exact fun hreturns => ⟨fun _ _ => hnone, fun hpanic => absurd hpanic hreturns⟩

/-! ## A guest whose logger panics -/

namespace Endings

/-- A root opens a stream. -/
def opening : Run :=
  .of 6 .bare ⟨[], .info, [], [], 1, 2⟩ (.atMost none)
    [.enter .noStream, .onContextCreate none (.returning 0), .onTick .min Openings.openStream]
    rfl (by decide)

/-- Logs a line, which the embedder does not survive. -/
def logs : Code := .calling (.proxyLog 2 0 0) { World.refusing with log := fun _ _ _ => none } 0

theorem opening_passes :
    (Ending.close ⟨0, []⟩).Passes opening.last .min .min ⟨.grpcStream, .min, .min, false⟩ where
  live := ⟨rfl, rfl⟩
  held := by decide
  caller := rfl
  kind := by decide
  root := by decide
  accepted := by decide
  fits := Nat.two_pow_pos 31

/-- The stream is not listed any more once the embedder panicked in its close. -/
theorem close_not_atomic : ¬ ∀ (e : Ending) (s : Session) (c : ContextId) (id : CalloutId)
    (entry : Callout) (code : Code), e.Passes s c id entry →
      Atomic id entry ((e.op c id code).perform.run s) := by
  intro hall
  have hatomic := hall _ _ _ _ _ logs opening_passes
  have hexit : ((Op.onGrpcClose .min .min ⟨0, []⟩ logs).perform.run opening.last).exit =
      .panicked := rfl
  have hlisted := (hatomic.failed (by rintro _ hok; cases hexit.symm.trans hok) [] _ (.nil _)).1
  exact absurd hlisted (by decide)

/-- A close in which the guest traps leaves the stream open, in a guest that refuses
    everything. -/
theorem trap_atomic : Atomic .min ⟨.grpcStream, .min, .min, false⟩
    ((Op.onGrpcClose .min .min ⟨0, []⟩ (.unwind (.trap ""))).perform.run opening.last) := by
  obtain ⟨hatomic, hsurvives⟩ := endings_atomic (.close ⟨0, []⟩) _ _ _ _
    (.unwind (.trap "")) opening_passes
  refine hatomic.2 ((hsurvives opening rfl (by decide)).2 ?_)
  rintro ⟨⟩

end Endings

end ProxyWasmHost
