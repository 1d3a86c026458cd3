/-
  The callouts of a run, as its events tell them: which identifiers were reserved, and
  which callouts are open.
-/
import ProxyWasmHost.CallScope.Openings
import ProxyWasmHost.Guest.Path

namespace ProxyWasmHost

/-! ## What the events tell -/

/-- The identifier that an event reserves for a callout, whether the service accepts it
    or not. -/
def Event.reserves : Event → Option CalloutId
  | .callout _ _ id op _ => if op.opens.isSome then some id else none
  | _ => none

/-- The identifiers that were reserved, in order. -/
def reservedIn (past : List Event) : List CalloutId := past.filterMap Event.reserves

/-- The identifiers that are open once an event is over. -/
def Event.openAfter (opened : Finset CalloutId) : Event → Finset CalloutId
  | .callout _ _ id op answer =>
    if op.opens.isSome then if accepts answer then insert id opened else opened
    else if op = .grpcCancel then opened.erase id
    else opened
  | .ended id _ => opened.erase id
  | .dropped ids => opened.filter (· ∉ ids)
  | _ => opened

/-- The identifiers that are open after the events `past`. -/
def openIn (past : List Event) : Finset CalloutId := past.foldl Event.openAfter ∅

theorem openIn_append (past t : List Event) :
    openIn (past ++ t) = t.foldl Event.openAfter (openIn past) := List.foldl_append

theorem openIn_snoc (past : List Event) (e : Event) :
    openIn (past ++ [e]) = e.openAfter (openIn past) := openIn_append past [e]

theorem reservedIn_append (past t : List Event) :
    reservedIn (past ++ t) = reservedIn past ++ reservedIn t := List.filterMap_append

theorem Event.openAfter_of_silent {e : Event} (h : e.ofCallouts = false)
    (opened : Finset CalloutId) : e.openAfter opened = opened := by
  cases e <;> first | rfl | cases h

theorem openAfter_of_silent {t : List Event} (h : ∀ e ∈ t, e.ofCallouts = false)
    (opened : Finset CalloutId) : t.foldl Event.openAfter opened = opened := by
  induction t with
  | nil => rfl
  | cons e t ih =>
    rw [List.foldl_cons, Event.openAfter_of_silent (h e (.head _))]
    exact ih fun e he => h e (.tail _ he)

theorem reservedIn_of_silent {t : List Event} (h : ∀ e ∈ t, e.ofCallouts = false) :
    reservedIn t = [] := by
  refine List.filterMap_eq_nil_iff.2 fun e he => ?_
  have hsilent := h e he
  cases e <;> first | rfl | cases hsilent

/-! ## The table and the events -/

/-- A reservation is made by a live guest, of an identifier that is not open, and no open
    entry changes. -/
theorem CalloutTable.Moves.of_reserves {h : HostState} {t : List Event} {table : CalloutTable}
    {e : Event} {id : CalloutId} (hmoves : Moves h t table) (he : e ∈ t)
    (hreserves : e.reserves = some id) :
    h.poisoned = false ∧ h.abi.callouts.get id = none ∧
      ∀ x entry, h.abi.callouts.get x = some entry → table.get x = some entry := by
  cases hmoves with
  | kept silent =>
    have hsilent := silent e he
    cases e <;> first | cases hreserves | cases hsilent
  | @opened _ _ id' op kind c root reserved answer live _ reserve opens =>
    rw [List.mem_singleton] at he
    subst he
    obtain rfl : id' = id := by simpa [Event.reserves, opens] using hreserves
    have hnone := (get_of_reserve reserve).1
    refine ⟨live, hnone, fun x entry hx => ?_⟩
    have hne : x ≠ id' := by
      rintro rfl
      rw [hnone] at hx
      cases hx
    rw [get_of_asked reserve, if_neg fun h => hne h.2, hx]
  | told opens stays | closed opens stays =>
    rw [List.mem_singleton] at he
    subst he
    simp [Event.reserves, opens] at hreserves
  | cancelled | ended | dropped =>
    rw [List.mem_singleton] at he
    subst he
    cases hreserves
  | reentered => cases he

/-- The open callouts of the table are those the events tell. -/
def CalloutTable.Told (past : List Event) (t : CalloutTable) : Prop :=
  ∀ id, (t.get id).isSome ↔ id ∈ openIn past

/-- The counter is one past the reservations, as long as it has not gone round. -/
structure CalloutTable.Numbered (past : List Event) (t : CalloutTable) : Prop where
  next : t.next.val = (reservedIn past).length + 1
  reserved : ∀ id, id ∈ reservedIn past ↔ id.val < t.next.val
  opened : ∀ id, (t.get id).isSome → id.val < t.next.val

namespace CalloutTable

variable {past t : List Event} {h : HostState} {table : CalloutTable}

theorem Numbered.new : CalloutTable.new.Numbered [] where
  next := rfl
  reserved id := by
    have hpos := id.pos
    show id ∈ ([] : List CalloutId) ↔ id.val < 1
    simp only [List.not_mem_nil, false_iff]
    omega
  opened id hid := by cases hid

theorem Told.moves (hlive : h.poisoned = false) (htold : h.abi.callouts.Told past)
    (hmoves : Moves h t table) : table.Told (past ++ t) := by
  intro x
  have hx := htold x
  cases hmoves with
  | kept silent => rw [openIn_append, openAfter_of_silent silent, hx]
  | @opened _ _ id op kind c root reserved answer _ _ reserve opens =>
    rw [openIn_snoc, get_of_asked reserve]
    simp only [Event.openAfter, opens, Option.isSome_some, if_true]
    cases accepts answer with
    | false => simpa using hx
    | true =>
      by_cases hid : x = id
      · simp [hid]
      · simpa [hid] using hx
  | told opens stays =>
    rw [openIn_snoc]
    simp only [Event.openAfter, opens, Option.isSome_none, Bool.false_eq_true, if_false,
      if_neg stays]
    exact hx
  | closed opens stays =>
    rw [openIn_snoc]
    simp only [Event.openAfter, opens, Option.isSome_none, Bool.false_eq_true, if_false,
      if_neg stays, get_closeByGuest]
    split
    · rw [Option.isSome_map]
      exact hx
    · exact hx
  | @cancelled _ _ id =>
    rw [openIn_snoc]
    simp only [Event.openAfter, CalloutOp.opens, Option.isSome_none, Bool.false_eq_true, if_false,
      if_true, get_remove, Finset.mem_erase]
    split <;> simp [*]
  | @ended id =>
    rw [openIn_snoc]
    simp only [Event.openAfter, get_remove, Finset.mem_erase]
    split <;> simp [*]
  | dropped ids =>
    rw [openIn_snoc]
    simp only [Event.openAfter, get_foldl_remove, Finset.mem_filter]
    split <;> simp [*]
  | reentered id entry poisoned => rw [hlive] at poisoned; cases poisoned

/-- A move that reserves nothing, and opens nothing. -/
theorem Numbered.congr {past' : List Event} {table' : CalloutTable} (hnum : table.Numbered past)
    (hpast : reservedIn past' = reservedIn past) (hnext : table'.next = table.next)
    (hopened : ∀ id, (table'.get id).isSome → (table.get id).isSome) :
    table'.Numbered past' where
  next := by rw [hnext, hpast]; exact hnum.next
  reserved id := by rw [hpast, hnext]; exact hnum.reserved id
  opened id hid := by rw [hnext]; exact hnum.opened id (hopened id hid)

/-- A counter that has not gone round is not open. -/
theorem Numbered.get_next (hnum : table.Numbered past) : table.get table.next = none := by
  cases hget : table.get table.next with
  | none => rfl
  | some entry => exact absurd (hnum.opened _ (by rw [hget]; rfl)) (Nat.lt_irrefl _)

theorem Numbered.reserve {id : CalloutId} {reserved : CalloutTable} {e : Event}
    (hnum : table.Numbered past) (hreserve : table.reserve = some (id, reserved))
    (hone : e.reserves = some id) (hfew : (reservedIn past).length + 2 < 2 ^ 32) :
    reserved.Numbered (past ++ [e]) := by
  obtain ⟨rfl, rfl⟩ := reserve_of_get_next hnum.get_next hreserve
  have hpast : reservedIn (past ++ [e]) = reservedIn past ++ [table.next] := by
    rw [reservedIn_append]
    simp [reservedIn, hone]
  have hnext := hnum.next
  have hadvance := next_advance table (by omega)
  refine ⟨?_, fun x => ?_, fun x hx => ?_⟩
  · rw [hadvance, hpast, List.length_append, List.length_singleton, hnext]
  · rw [hadvance, hpast, List.mem_append, List.mem_singleton, hnum.reserved, Id.ext_iff]
    omega
  · have hlt := hnum.opened x hx
    omega

/-- A reserved identifier that is opened. -/
theorem Numbered.enter {id : CalloutId} (hnum : table.Numbered past) (hid : id ∈ reservedIn past)
    (entry : Callout) : (table.enter id entry).Numbered past where
  next := hnum.next
  reserved := hnum.reserved
  opened x hx := by
    rw [get_enter] at hx
    split at hx
    · rename_i hx'
      subst hx'
      exact (hnum.reserved x).1 hid
    · exact hnum.opened x hx

theorem Numbered.moves (hlive : h.poisoned = false) (hnum : h.abi.callouts.Numbered past)
    (hmoves : Moves h t table) (hfew : (reservedIn (past ++ t)).length + 1 < 2 ^ 32) :
    table.Numbered (past ++ t) := by
  cases hmoves with
  | @opened service call id op kind c root reserved answer _ _ reserve opens =>
    have hone : (Event.callout service call id op answer).reserves = some id := by
      simp [Event.reserves, opens]
    have hsome : reservedIn [Event.callout service call id op answer] = [id] := by
      simp [reservedIn, hone]
    rw [reservedIn_append, hsome, List.length_append, List.length_singleton] at hfew
    have hreserved := hnum.reserve reserve hone (by omega)
    split
    · refine hreserved.enter ?_ _
      rw [reservedIn_append, hsome]
      exact List.mem_append_right _ (.head _)
    · exact hreserved
  | kept silent =>
    refine hnum.congr ?_ rfl fun _ hx => hx
    rw [reservedIn_append, reservedIn_of_silent silent, List.append_nil]
  | told opens stays =>
    refine hnum.congr ?_ rfl fun _ hx => hx
    simp [reservedIn, Event.reserves, opens]
  | closed opens stays =>
    refine hnum.congr ?_ rfl fun x hx => ?_
    · simp [reservedIn, Event.reserves, opens]
    · rw [get_closeByGuest] at hx
      split at hx <;> simpa using hx
  | cancelled =>
    refine hnum.congr ?_ rfl fun x hx => ?_
    · simp [reservedIn, Event.reserves, CalloutOp.opens]
    · rw [get_remove] at hx
      split at hx
      · cases hx
      · exact hx
  | ended =>
    refine hnum.congr ?_ rfl fun x hx => ?_
    · simp [reservedIn, Event.reserves]
    · rw [get_remove] at hx
      split at hx
      · cases hx
      · exact hx
  | dropped ids =>
    refine hnum.congr ?_ (next_foldl_remove _ _) fun x hx => ?_
    · simp [reservedIn, Event.reserves]
    · rw [get_foldl_remove] at hx
      split at hx
      · cases hx
      · exact hx
  | reentered id entry poisoned => rw [hlive] at poisoned; cases poisoned

end CalloutTable

/-! ## Runs -/

namespace Run

variable (r : Run)

/-- While the guest is not poisoned, its open callouts are those its events tell. -/
theorem told_steps {s : Session} {t : List Event}
    (path : Steps (Session.StepOf r.Aims) r.first t s) (hlive : s.host.poisoned = false) :
    s.abi.callouts.Told t := by
  have htold := path.history (p := []) (I := fun past s => s.host.poisoned = false →
    s.abi.callouts.Told past) ?_ ?_
  · exact htold hlive
  · rintro past s t s' hI ⟨aim, -, -, step⟩ hlive'
    have hlive : s.host.poisoned = false := by
      by_contra hpoisoned
      rw [step.poisoned (by simpa using hpoisoned)] at hlive'
      cases hlive'
    exact (hI hlive).moves hlive step.callouts
  · intro _ id
    simp [openIn, first, Session.new, Session.abi, HostState.new, AbiState.new,
      CalloutTable.new, CalloutTable.get]

/-- As long as there are fewer reservations than identifiers, the counter is one past
    them. -/
theorem numbered_steps {s : Session} {t : List Event}
    (path : Steps (Session.StepOf r.Aims) r.first t s) (hlive : s.host.poisoned = false)
    (hfew : (reservedIn t).length + 1 < 2 ^ 32) : s.abi.callouts.Numbered t := by
  have hnum := path.history (p := []) (I := fun past s => s.host.poisoned = false →
    (reservedIn past).length + 1 < 2 ^ 32 → s.abi.callouts.Numbered past) ?_ ?_
  · exact hnum hlive hfew
  · rintro past s t s' hI ⟨aim, -, -, step⟩ hlive' hfew'
    have hlive : s.host.poisoned = false := by
      by_contra hpoisoned
      rw [step.poisoned (by simpa using hpoisoned)] at hlive'
      cases hlive'
    refine (hI hlive ?_).moves hlive step.callouts hfew'
    rw [reservedIn_append, List.length_append] at hfew'
    omega
  · exact fun _ _ => .new

/-- **A callout is opened under an identifier that is not open**, and no open entry
    changes. -/
theorem opens_fresh {t₁ t₂ : List Event} {e : Event} {id : CalloutId}
    (htrace : r.trace = t₁ ++ e :: t₂) (hreserves : e.reserves = some id) :
    id ∉ openIn t₁ ∧ ∃ s s', Steps (Session.StepOf r.Aims) r.first t₁ s ∧
      Session.StepOf r.Aims s [e] s' ∧ Steps (Session.StepOf r.Aims) s' t₂ r.last ∧
      s.abi.callouts.get id = none ∧
      ∀ x entry, s.abi.callouts.get x = some entry → s'.abi.callouts.get x = some entry := by
  have hone : ∀ s t s', Session.StepOf r.Aims s t s' → t = [] ∨ ∃ e, t = [e] := by
    rintro s t s' ⟨aim, -, -, step⟩
    exact step.one
  obtain ⟨s, s', hbefore, hstep, hafter⟩ := r.path.at_event hone htrace
  have hstep' := hstep
  obtain ⟨aim, -, -, step⟩ := hstep'
  obtain ⟨hlive, hnone, hkept⟩ := step.callouts.of_reserves (.head _) hreserves
  refine ⟨fun hopen => ?_, s, s', hbefore, hstep, hafter, hnone, hkept⟩
  have hsome := (r.told_steps hbefore hlive id).2 hopen
  have hnone' : s.abi.callouts.get id = none := hnone
  rw [hnone'] at hsome
  cases hsome

end Run

/-- **The reservation of a callout**: the search ends within one candidate more than the
    table holds, at an identifier that is neither zero nor open, and no callout of a run is
    opened under the identifier of an open one. -/
theorem callouts_reserved :
    (∀ t : CalloutTable, t.len < CalloutTable.ring → ∃ n id t', n ≤ t.len + 1 ∧
      (∀ fuel, CalloutTable.reserveWith fuel t = if n ≤ fuel then some (id, t') else none) ∧
        t.reserve = some (id, t') ∧ id.val ≠ 0 ∧ t.get id = none ∧ ∀ x, t'.get x = t.get x) ∧
    ∀ (r : Run) (t₁ t₂ : List Event) (e : Event) (id : CalloutId), r.trace = t₁ ++ e :: t₂ →
      e.reserves = some id → id ∉ openIn t₁ ∧
        ∃ s s', Steps (Session.StepOf r.Aims) r.first t₁ s ∧ Session.StepOf r.Aims s [e] s' ∧
          Steps (Session.StepOf r.Aims) s' t₂ r.last ∧ s.abi.callouts.get id = none ∧
          ∀ x entry, s.abi.callouts.get x = some entry → s'.abi.callouts.get x = some entry :=
  ⟨fun _ => CalloutTable.reserve_ends, fun r _ _ _ _ => r.opens_fresh⟩

/-! ## A guest that opens two streams -/

namespace Openings

/-- An embedder that takes every callout. -/
def accepting : World :=
  { World.refusing with
    callouts :=
      { World.refusing.callouts with
        httpCall := fun _ _ _ => some (.ok ())
        grpcCall := fun _ _ _ => some (.ok ())
        grpcStream := fun _ _ _ => some (.ok ()) } }

/-- Opens a stream with empty names and no metadata. -/
def openStream : Code := .calling (.proxyGrpcStream 0 0 0 0 0 0 0 0 0) accepting 0

/-- A root opens a stream in each of two ticks. -/
def opening : Run :=
  .of 3 .bare ⟨[], .info, [], [], 1, 2⟩ (.atMost none)
    [.enter .noStream, .onContextCreate none (.returning 0), .onTick .min openStream,
      .onTick .min openStream]
    rfl (by decide)

/-- The first reservation of an empty table, and the second of the run. -/
theorem opening_reserved :
    (∃ n id t', n ≤ 1 ∧ CalloutTable.reserveWith n .new = some (id, t') ∧ id.val ≠ 0) ∧
    ∃ e t₂ id, opening.trace = opening.trace.take 11 ++ e :: t₂ ∧ e.reserves = some id ∧
      id.val = 2 ∧ id ∉ openIn (opening.trace.take 11) := by
  constructor
  · obtain ⟨n, id, t', hn, hsearch, -, hzero, -⟩ := callouts_reserved.1 .new (by decide)
    exact ⟨n, id, t', hn, by rw [hsearch, if_pos (Nat.le_refl _)], hzero⟩
  · have hsecond : opening.trace[11]?.bind Event.reserves =
        some ⟨2, by decide, by decide⟩ := by decide
    obtain ⟨e, he, hid⟩ := Option.bind_eq_some_iff.1 hsecond
    obtain ⟨hlt, rfl⟩ := List.getElem?_eq_some_iff.1 he
    have htrace : opening.trace = opening.trace.take 11 ++ opening.trace[11] ::
        opening.trace.drop 12 := by
      rw [← List.drop_eq_getElem_cons, List.take_append_drop]
    exact ⟨_, _, _, htrace, hid, rfl, (callouts_reserved.2 opening _ _ _ _ htrace hid).1⟩

end Openings

end ProxyWasmHost
