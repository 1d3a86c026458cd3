/-
  The identifiers that a guest passes to the functions that take an open callout: what
  the host answers for each, by the history of the callouts.
-/
import ProxyWasmHost.Guest.Openings
import ProxyWasmHost.HostFunctions.Answers

namespace ProxyWasmHost

open Prog

variable {h h' : HostState} {env : Env} {id : I32}

/-! ## The callout an identifier refers to -/

/-- What an identifier refers to in the state `abi`. -/
inductive Refers (abi : AbiState) (id : I32) : Exit Failure Found → Prop
  | unknown (absent : ∀ callout : CalloutId, callout.wire = id →
      abi.callouts.get callout = none ∧ abi.callouts.issued callout = false) :
      Refers abi id (.err (.status .notFound))
  | ended {callout : CalloutId} (named : callout.wire = id)
      (absent : abi.callouts.get callout = none) (issued : abi.callouts.issued callout = true) :
      Refers abi id (.ok .ended)
  | foreign {callout : CalloutId} {entry : Callout} (named : callout.wire = id)
      (held : abi.callouts.get callout = some entry) (other : abi.context ≠ some entry.caller) :
      Refers abi id (.err (.status .notFound))
  | opened {callout : CalloutId} {entry : Callout} (named : callout.wire = id)
      (held : abi.callouts.get callout = some entry) (own : abi.context = some entry.caller) :
      Refers abi id (.ok (.opened callout entry))

namespace Id

theorem wire_of_tryFrom {kind : IdKind} {value : I32} {x : Id kind}
    (h : tryFrom value = some x) : x.wire = value := by
  rw [wire, val_of_tryFrom h, UInt32.ofNat_toNat]

theorem tryFrom_wire {kind : IdKind} (x : Id kind) : tryFrom x.wire = some x := by
  have hval : x.wire.toNat = x.val := UInt32.toNat_ofNat_of_lt' x.lt
  unfold tryFrom
  rw [dif_pos (by rw [hval]; exact x.pos), Option.some.injEq]
  exact Id.ext hval

theorem wire_injective {kind : IdKind} {x y : Id kind} (h : x.wire = y.wire) : x = y := by
  have hx := tryFrom_wire x
  rw [h, tryFrom_wire, Option.some.injEq] at hx
  exact hx.symm

end Id

/-- **The search of an identifier** only looks. -/
theorem find_run (id : I32) (h : HostState) :
    ∃ exit, (find id).run h = ⟨exit, h, []⟩ ∧ Refers h.abi id exit := by
  refine Leaves.looks ?_
  unfold find
  refine .bind_orThrow (fun callout hid => ?_) fun hid => ⟨rfl, rfl, .unknown fun callout hcallout => ?_⟩
  · have hnamed := Id.wire_of_tryFrom hid
    refine .bind_read ?_
    split
    · rename_i hget
      refine .bind_require (fun hissued => ⟨rfl, rfl, .ended hnamed hget hissued⟩)
        fun hissued => ⟨rfl, rfl, .unknown fun callout' hcallout' => ?_⟩
      rw [Id.wire_injective (hcallout'.trans hnamed.symm)]
      exact ⟨hget, Bool.eq_false_of_not_eq_true hissued⟩
    · rename_i entry hget
      unfold context
      rw [Prog.bind_assoc]
      refine .bind_read (.bind_orThrow (fun caller hcaller => ?_) fun hnone => ?_)
      · refine .bind_require (fun heq => ⟨rfl, rfl, ?_⟩) fun hne => ⟨rfl, rfl, ?_⟩
        · exact .opened hnamed hget (heq ▸ hcaller)
        · refine .foreign hnamed hget ?_
          rw [hcaller]
          exact fun hsome => hne (Option.some.inj hsome)
      · refine ⟨rfl, rfl, .foreign hnamed hget ?_⟩
        rw [hnone]
        rintro ⟨⟩
  · rw [← hcallout, Id.tryFrom_wire] at hid
    cases hid

theorem askCallout_run {call : Invocation} {callout : CalloutId} {op : CalloutOp}
    {record : Bool → CalloutTable → CalloutTable} {reply : Except Status Unit} :
    (askCallout call callout op record (some reply)).run h =
      ⟨.ok reply, h.mapAbi fun abi =>
        { abi with callouts := record (accepts (some reply)) abi.callouts },
        [.callout h.abi.services.callouts call callout op (some reply)]⟩ := rfl

/-! ## The functions that take an open callout -/

/-- A function that takes an open callout, with its other arguments. -/
inductive CalloutFunction where
  | send (messageData messageSize endStream : I32)
  | cancel
  | close

/-- What the guest hears of a reply of the service. -/
def heard : Except Status Unit → Status
  | .ok () => .ok
  | .error .ok => .internalFailure
  | .error status => status

/-- How a call ends that asked the service. -/
def Answer.spoken : Answer (Except Status Unit) → Exit Error I32
  | some reply => .ok (heard reply).toI32
  | none => .panicked

namespace CalloutFunction

/-- The call of the function with an identifier. -/
def call (id : I32) : CalloutFunction → HostCall
  | send messageData messageSize endStream => .proxyGrpcSend id messageData messageSize endStream
  | cancel => .proxyGrpcCancel id
  | close => .proxyGrpcClose id

/-- Whether the function takes callouts of a kind. -/
def takes : CalloutFunction → CalloutKind → Bool
  | send _ _ _, kind => kind = .grpcStream
  | _, kind => kind ≠ .httpCall

/-- The memory has the bytes that the function reads. -/
def Readable (memory : Bytes) : CalloutFunction → Prop
  | send messageData messageSize _ => ∃ range bytes,
      GuestSlice.new messageData messageSize = .ok range ∧
        GuestMemory.read memory range = .ok bytes
  | _ => True

/-- **What a call of the function leads to**, by what its identifier refers to. -/
inductive Leads (f : CalloutFunction) (h : HostState) (id : I32) :
    Res HostState Event Error I32 → Prop
  | unknown (absent : ∀ callout : CalloutId, callout.wire = id →
      h.abi.callouts.get callout = none ∧ h.abi.callouts.issued callout = false) :
      Leads f h id ⟨.ok Status.notFound.toI32, h, []⟩
  | ended {callout : CalloutId} (named : callout.wire = id)
      (absent : h.abi.callouts.get callout = none)
      (issued : h.abi.callouts.issued callout = true) :
      Leads f h id ⟨.ok Status.ok.toI32, h, []⟩
  | refused {callout : CalloutId} {entry : Callout} (named : callout.wire = id)
      (held : h.abi.callouts.get callout = some entry)
      (other : h.abi.context ≠ some entry.caller ∨ f.takes entry.kind = false) :
      Leads f h id ⟨.ok Status.notFound.toI32, h, []⟩
  | closed {callout : CalloutId} {entry : Callout} (named : callout.wire = id)
      (held : h.abi.callouts.get callout = some entry)
      (own : h.abi.context = some entry.caller) (takes : f.takes entry.kind = true) :
      Leads f h id ⟨.ok Status.ok.toI32, h, []⟩
  | asked {callout : CalloutId} {entry : Callout} (named : callout.wire = id)
      (held : h.abi.callouts.get callout = some entry)
      (own : h.abi.context = some entry.caller) (takes : f.takes entry.kind = true)
      (op : CalloutOp) (answer : Answer (Except Status Unit)) (h' : HostState) :
      Leads f h id ⟨answer.spoken, h',
        [.callout h.abi.services.callouts (h.abi.invocation entry.caller) callout op answer]⟩

variable {f : CalloutFunction} {memory : Bytes} {body : Body Unit} {k : Found → Body Unit}

/-- What comes after the search, when it finds a callout of the effective context. -/
inductive Proceeds (f : CalloutFunction) (h : HostState) (callout : CalloutId) (entry : Callout) :
    Res HostState Event Failure Unit → Prop
  | refused (other : f.takes entry.kind = false) :
      Proceeds f h callout entry ⟨.err (.status .notFound), h, []⟩
  | closed (takes : f.takes entry.kind = true) : Proceeds f h callout entry ⟨.ok (), h, []⟩
  | told (takes : f.takes entry.kind = true) (op : CalloutOp)
      (reply : Except Status Unit) (h' : HostState) (exit : Exit Failure Unit)
      (hears : exit = if heard reply = .ok then .ok () else .err (.status (heard reply))) :
      Proceeds f h callout entry ⟨exit, h',
        [.callout h.abi.services.callouts (h.abi.invocation entry.caller) callout op (some reply)]⟩
  | panicked (takes : f.takes entry.kind = true) (op : CalloutOp) (h' : HostState) :
      Proceeds f h callout entry ⟨.panicked, h',
        [.callout h.abi.services.callouts (h.abi.invocation entry.caller) callout op none]⟩

/-- A body that searches first leads on from what it finds. -/
theorem leads_of_body (hbody : body.run h = (find id >>= k).run h) (hended : k .ended = pure ())
    (hopened : ∀ callout entry, h.abi.context = some entry.caller →
      f.Proceeds h callout entry ((k (.opened callout entry)).run h)) :
    f.Leads h id ((complete body).run h) := by
  obtain ⟨exit, hfind, hrefers⟩ := find_run id h
  cases hrefers with
  | unknown absent =>
    rw [complete_of_status (hbody.trans (bind_of_err hfind))]
    exact .unknown absent
  | foreign named held other =>
    rw [complete_of_status (hbody.trans (bind_of_err hfind))]
    exact .refused named held (.inl other)
  | ended named absent issued =>
    rw [bind_of_ok_nil hfind, hended] at hbody
    rw [complete_of_ok (hbody.trans rfl)]
    exact .ended named absent issued
  | @opened callout entry named held own =>
    rw [bind_of_ok_nil hfind] at hbody
    have hproceeds := hopened callout entry own
    rw [← hbody] at hproceeds
    generalize hres : body.run h = res at hproceeds
    cases hproceeds with
    | refused other =>
      rw [complete_of_status hres]
      exact .refused named held (.inr other)
    | closed takes =>
      rw [complete_of_ok hres]
      exact .closed named held own takes
    | told takes op reply h' exit hears =>
      have hasked := Leads.asked named held own takes op (some reply) h'
      by_cases hok : heard reply = .ok
      · rw [if_pos hok] at hears
        subst hears
        rw [complete_of_ok hres]
        rwa [Answer.spoken, hok] at hasked
      · rw [if_neg hok] at hears
        subst hears
        rw [complete_of_status hres]
        exact hasked
    | panicked takes op h' =>
      rw [complete_of_panicked hres]
      exact .asked named held own takes op none h'

/-- The end of a callout that the function takes. -/
theorem endCallout_proceeds {callout : CalloutId} {entry : Callout}
    (own : h.abi.context = some entry.caller) (takes : f.takes entry.kind = true) :
    f.Proceeds h callout entry ((endCallout env callout).run h) := by
  unfold endCallout
  rw [bind_of_ok_nil (a := h.abi.context) (r := h) rfl, own]
  dsimp only
  rw [bind_of_ok_nil (a := h.abi.invocation entry.caller) (r := h) rfl]
  cases hreply : env.world.callouts.grpcCancel (h.abi.invocation entry.caller) callout with
  | none => exact .panicked takes .grpcCancel _
  | some reply => exact .told takes .grpcCancel (.ok ()) _ _ rfl

theorem send_leads {messageData messageSize endStream : I32} (hmem : h.memory = some memory)
    (hread : (send messageData messageSize endStream).Readable memory) :
    (send messageData messageSize endStream).Leads h id
      ((complete (proxyGrpcSend env id messageData messageSize endStream)).run h) := by
  obtain ⟨range, bytes, hrange, hbytes⟩ := hread
  have hslice : (slice messageData messageSize).run h = ⟨.ok range, h, []⟩ := by
    rw [slice, hrange]
    rfl
  have hreads : (readSlice memory range).run h = ⟨.ok bytes, h, []⟩ := by
    rw [readSlice, hbytes]
    rfl
  apply leads_of_body
  case hbody =>
    unfold proxyGrpcSend
    rw [bind_of_ok_nil hslice, bind_of_ok_nil (split_run hmem), bind_of_ok_nil hreads]
  · rfl
  · intro callout entry own
    dsimp only
    unfold ProxyWasmHost.require Prog.require
    by_cases htakes : entry.kind = .grpcStream
    · have htakes' : (send messageData messageSize endStream).takes entry.kind = true :=
        decide_eq_true htakes
      rw [if_pos htakes, bind_of_ok_nil (a := ()) (r := h) rfl]
      cases hclosed : entry.closedByGuest with
      | true => exact .closed htakes'
      | false =>
        rw [if_neg (by simp), bind_of_ok_nil (context_run own),
          bind_of_ok_nil (a := h.abi.invocation entry.caller) (r := h) rfl]
        cases hreply : env.world.callouts.grpcSend (h.abi.invocation entry.caller) callout bytes
            (endStream ≠ 0) with
        | none => exact .panicked htakes' (.grpcSend bytes (endStream ≠ 0)) _
        | some reply =>
          rw [bind_of_ok askCallout_run]
          rcases reply with (_ | _) | _ <;> exact .told htakes' _ _ _ _ rfl
    · rw [if_neg htakes, bind_of_err (e := .status .notFound) (r := h) rfl]
      exact .refused (decide_eq_false htakes)

theorem cancel_leads (hmem : h.memory = some memory) :
    cancel.Leads h id ((complete (proxyGrpcCancel env id)).run h) := by
  apply leads_of_body
  case hbody =>
    unfold proxyGrpcCancel
    rw [bind_of_ok_nil (split_run hmem)]
  · rfl
  · intro callout entry own
    dsimp only
    unfold ProxyWasmHost.require Prog.require
    by_cases htakes : entry.kind ≠ .httpCall
    · rw [if_pos htakes, bind_of_ok_nil (a := ()) (r := h) rfl]
      exact endCallout_proceeds own (decide_eq_true htakes)
    · rw [if_neg htakes, bind_of_err (e := .status .notFound) (r := h) rfl]
      exact .refused (decide_eq_false htakes)

theorem close_leads (hmem : h.memory = some memory) :
    close.Leads h id ((complete (proxyGrpcClose env id)).run h) := by
  apply leads_of_body
  case hbody =>
    unfold proxyGrpcClose
    rw [bind_of_ok_nil (split_run hmem)]
  · rfl
  · intro callout entry own
    obtain ⟨kind, caller, root, closedByGuest⟩ := entry
    cases kind with
    | httpCall => exact .refused rfl
    | grpcCall => exact endCallout_proceeds own rfl
    | grpcStream =>
      dsimp only
      cases closedByGuest with
      | true => exact .closed rfl
      | false =>
        rw [if_neg (by simp), bind_of_ok_nil (context_run own),
          bind_of_ok_nil (a := h.abi.invocation caller) (r := h) rfl]
        cases hreply : env.world.callouts.grpcClose (h.abi.invocation caller) callout with
        | none => exact .panicked rfl .grpcClose _
        | some reply => exact .told rfl .grpcClose (.ok ()) _ _ rfl

/-- **Every call of the three functions** leads where its identifier refers to. -/
theorem leads (f : CalloutFunction) (hmem : h.memory = some memory) (hread : f.Readable memory) :
    f.Leads h id (((f.call id).run env).run h) := by
  cases f with
  | send => exact send_leads hmem hread
  | cancel => exact cancel_leads hmem
  | close => exact close_leads hmem

/-- A guest whose instance has no memory yet unwinds. -/
theorem call_of_absent (hmem : h.memory = none) (hf : f = cancel ∨ f = close) :
    ((f.call id).run env).run h = ⟨.err .missingMemory, h, []⟩ := by
  have hhost : hostSplit.run h = ⟨.err .missingMemory, h, []⟩ := by
    refine (bind_of_ok_nil (a := h.memory) (r := h) rfl).trans ?_
    rw [hmem]
    rfl
  have hsplit : split.run h = ⟨.err (.unwind .missingMemory rfl), h, []⟩ := by
    simp only [split, Prog.mapErr, hhost, Failure.ofError]
  rcases hf with rfl | rfl
  · exact complete_of_unwind (bind_of_err hsplit)
  · exact complete_of_unwind (bind_of_err hsplit)

/-- **What a guest hears of an identifier**, by the events `past` of its run. -/
structure Answers (f : CalloutFunction) (past : List Event) (h : HostState) (id : I32)
    (res : Res HostState Event Error I32) : Prop where
  /-- It was reserved, and is not open. -/
  ended : ∀ callout ∈ reservedIn past, callout.wire = id → callout ∉ openIn past →
    res = ⟨.ok Status.ok.toI32, h, []⟩
  /-- It was never reserved. -/
  unknown : (∀ callout ∈ reservedIn past, callout.wire ≠ id) →
    res = ⟨.ok Status.notFound.toI32, h, []⟩
  /-- It is open, and not for the effective context or not of a kind the function takes. -/
  refused : ∀ callout entry, callout.wire = id → h.abi.callouts.get callout = some entry →
    h.abi.context ≠ some entry.caller ∨ f.takes entry.kind = false →
    res = ⟨.ok Status.notFound.toI32, h, []⟩
  /-- It is open, and may be used. -/
  used : ∀ callout entry, callout.wire = id → h.abi.callouts.get callout = some entry →
    h.abi.context = some entry.caller → f.takes entry.kind = true →
    res = ⟨.ok Status.ok.toI32, h, []⟩ ∨ ∃ op answer, res.exit = Answer.spoken answer ∧ res.trace =
      [.callout h.abi.services.callouts (h.abi.invocation entry.caller) callout op answer]
  /-- No `BAD_ARGUMENT` is the host's own. -/
  honest : res.exit = .ok Status.badArgument.toI32 → ∃ service call callout op,
    res.trace = [.callout service call callout op (some (.error .badArgument))]

variable {past : List Event} {res : Res HostState Event Error I32}

theorem heard_eq_badArgument {reply : Except Status Unit}
    (h : (heard reply).toI32 = Status.badArgument.toI32) : reply = .error .badArgument := by
  rcases reply with status | _
  · cases status <;> first | rfl | cases h
  · cases h

theorem Leads.answers (hleads : f.Leads h id res) (htold : h.abi.callouts.Told past)
    (hnum : h.abi.callouts.Numbered past) : f.Answers past h id res := by
  have hissued : ∀ callout, h.abi.callouts.issued callout = true ↔ callout ∈ reservedIn past :=
    fun callout => decide_eq_true_iff.trans (hnum.reserved callout).symm
  have hreserved : ∀ {callout : CalloutId} {entry}, h.abi.callouts.get callout = some entry →
      callout ∈ reservedIn past := fun hget =>
    (hnum.reserved _).2 (hnum.opened _ (by rw [hget]; rfl))
  have hopen : ∀ {callout : CalloutId} {entry}, h.abi.callouts.get callout = some entry →
      callout ∈ openIn past := fun hget => (htold _).1 (by rw [hget]; rfl)
  cases hleads with
  | unknown absent =>
    refine ⟨fun callout hpast hid _ => ?_, fun _ => rfl, fun _ _ _ _ _ => rfl, ?_, by rintro ⟨⟩⟩
    · have hnot := (absent callout hid).2
      rw [(hissued callout).2 hpast] at hnot
      cases hnot
    · intro callout entry hid hget
      rw [(absent callout hid).1] at hget
      cases hget
  | @ended callout named absent issued =>
    refine ⟨fun _ _ _ _ => rfl, fun hnone => ?_, ?_, fun _ _ _ _ _ _ => .inl rfl, by rintro ⟨⟩⟩
    · exact absurd named (hnone callout ((hissued callout).1 issued))
    · intro callout' entry hid hget
      rw [Id.wire_injective (hid.trans named.symm), absent] at hget
      cases hget
  | @refused callout entry named held other =>
    refine ⟨fun callout' _ hid hclosed => ?_, fun _ => rfl, fun _ _ _ _ _ => rfl, ?_,
      by rintro ⟨⟩⟩
    · rw [Id.wire_injective (hid.trans named.symm)] at hclosed
      exact absurd (hopen held) hclosed
    · intro callout' entry' hid hget hown htakes
      rw [Id.wire_injective (hid.trans named.symm), held, Option.some.injEq] at hget
      subst hget
      rcases other with hother | hother
      · exact absurd hown hother
      · rw [hother] at htakes
        cases htakes
  | @closed callout entry named held own takes =>
    refine ⟨fun _ _ _ _ => rfl, fun hnone => ?_, ?_, fun _ _ _ _ _ _ => .inl rfl, by rintro ⟨⟩⟩
    · exact absurd named (hnone callout (hreserved held))
    · intro callout' entry' hid hget hother
      rw [Id.wire_injective (hid.trans named.symm), held, Option.some.injEq] at hget
      subst hget
      rcases hother with hother | hother
      · exact absurd own hother
      · rw [hother] at takes
        cases takes
  | @asked callout entry named held own takes op answer h' =>
    refine ⟨fun callout' _ hid hclosed => ?_, fun hnone => ?_, ?_, ?_, ?_⟩
    · rw [Id.wire_injective (hid.trans named.symm)] at hclosed
      exact absurd (hopen held) hclosed
    · exact absurd named (hnone callout (hreserved held))
    · intro callout' entry' hid hget hother
      rw [Id.wire_injective (hid.trans named.symm), held, Option.some.injEq] at hget
      subst hget
      rcases hother with hother | hother
      · exact absurd own hother
      · rw [hother] at takes
        cases takes
    · intro callout' entry' hid hget _ _
      rw [Id.wire_injective (hid.trans named.symm)] at hget ⊢
      rw [held, Option.some.injEq] at hget
      subst hget
      exact .inr ⟨op, answer, rfl, rfl⟩
    · intro hbad
      cases answer with
      | none => cases hbad
      | some reply =>
        rw [heard_eq_badArgument (Exit.ok.inj hbad)]
        exact ⟨_, _, callout, op, rfl⟩

end CalloutFunction

/-! ## Runs -/

/-- The state in which a guest calls the host. -/
theorem Run.at_called (r : Run) {t₁ t₂ : List Event} {abi : AbiState}
    (htrace : r.trace = t₁ ++ .called abi :: t₂) : ∃ s,
    Steps (Session.StepOf r.Aims) r.first t₁ s ∧ s.abi = abi ∧ s.host.poisoned = false := by
  have hone : ∀ s t s', Session.StepOf r.Aims s t s' → t = [] ∨ ∃ e, t = [e] := by
    rintro s t s' ⟨aim, -, -, step⟩
    exact step.one
  obtain ⟨s, s', hbefore, ⟨aim, -, -, step⟩, -⟩ := r.path.at_event hone htrace
  refine ⟨s, hbefore, (step.snapshot (.head _) rfl).symm, ?_⟩
  cases step with
  | host running step =>
    cases step with
    | called live => exact live

/-- **The identifiers a guest passes**: whenever the guest of a run calls one of the three
    functions, it hears what the history of its callouts says of the identifier, the
    reply of the service, or the failure that stands for a refusal with `OK`. -/
theorem identifiers_answered (r : Run) (t₁ t₂ : List Event) (abi : AbiState)
    (htrace : r.trace = t₁ ++ .called abi :: t₂) (hfew : (reservedIn t₁).length < 2 ^ 32 - 1)
    (h : HostState) (habi : h.abi = abi) (env : Env) (f : CalloutFunction) (id : I32) :
    (∀ callout, callout ∈ openIn t₁ ↔ (abi.callouts.get callout).isSome) ∧
    (h.memory = none → f = .cancel ∨ f = .close →
      ((f.call id).run env).run h = ⟨.err .missingMemory, h, []⟩) ∧
    ∀ memory, h.memory = some memory → f.Readable memory →
      f.Answers t₁ h id (((f.call id).run env).run h) := by
  obtain ⟨s, hbefore, hs, hlive⟩ := r.at_called htrace
  have htold := r.told_steps hbefore hlive
  have hnum := r.numbered_steps hbefore hlive (by omega)
  rw [hs] at htold hnum
  refine ⟨fun callout => (htold callout).symm, fun hmem hf => f.call_of_absent hmem hf, ?_⟩
  intro memory hmem hread
  refine (f.leads hmem hread).answers ?_ ?_
  · rw [habi]
    exact htold
  · rw [habi]
    exact hnum

/-! ## A guest that uses its stream -/

namespace Openings

/-- A service that refuses what is sent on a stream, with `OK`. -/
def refusingSends : Env where
  world :=
    { accepting with
      callouts := { accepting.callouts with grpcSend := fun _ _ _ _ => some (.error .ok) } }
  allocator _ := Prog.throw .missingAllocator

/-- The state of the host in the second tick. -/
def second (abi : AbiState) : HostState :=
  { HostState.new (.atMost none) abi with memory := some [] }

/-- In its second tick the guest cancels an identifier it was never given. -/
theorem unknown_answered : ∃ abi t₂, opening.trace = opening.trace.take 10 ++ .called abi :: t₂ ∧
    ((CalloutFunction.cancel.call 7).run refusingSends).run (second abi) =
      ⟨.ok Status.notFound.toI32, second abi, []⟩ := by
  refine ⟨_, _, rfl, ?_⟩
  refine ((identifiers_answered opening (opening.trace.take 10) _ _ rfl (by decide) (second _) rfl
    refusingSends .cancel 7).2.2 [] rfl trivial).unknown ?_
  have hreserved : reservedIn (opening.trace.take 10) = [.min] := by decide
  intro callout hcallout
  rw [hreserved, List.mem_singleton] at hcallout
  subst hcallout
  decide

/-- A refusal with `OK` is heard as a failure, which is not what the service replied. -/
theorem refusal_with_ok_unheard : ¬ ∀ (r : Run) (t₁ t₂ : List Event) (abi : AbiState),
    r.trace = t₁ ++ .called abi :: t₂ → (reservedIn t₁).length < 2 ^ 32 - 1 →
    ∀ (h : HostState) (env : Env) (f : CalloutFunction) (id : I32) (memory : Bytes)
      (callout : CalloutId) (entry : Callout), h.abi = abi → h.memory = some memory →
      f.Readable memory → callout.wire = id → abi.callouts.get callout = some entry →
      abi.context = some entry.caller → f.takes entry.kind = true →
      (((f.call id).run env).run h).exit = .ok Status.ok.toI32 ∨
        ∃ service call op status, .callout service call callout op (some (.error status)) ∈
          (((f.call id).run env).run h).trace ∧
          (((f.call id).run env).run h).exit = .ok status.toI32 := by
  intro hall
  have hused := hall opening (opening.trace.take 10) _ _ rfl (by decide) (second _) refusingSends
    (.send 0 0 0) 1 [] .min (.new .grpcStream .min .min) rfl rfl
    ⟨⟨0, 0, by decide⟩, [], rfl, rfl⟩ rfl rfl rfl rfl
  rcases hused with hexit | ⟨service, call, op, status, hmem, hexit⟩
  · exact absurd (Exit.ok.inj hexit) (by decide)
  · have hstatus : status = .ok := by
      cases List.mem_singleton.1 hmem
      rfl
    subst hstatus
    exact absurd (Exit.ok.inj hexit) (by decide)

end Openings

end ProxyWasmHost
