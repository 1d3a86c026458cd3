/-
  How many callouts a guest has open: never more than its limit, as long as no delivery
  that ends a callout unwinds with the table full again.
-/
import ProxyWasmHost.Guest.Poisoned
import ProxyWasmHost.Guest.Openings

namespace ProxyWasmHost

variable {s s' : Session} {h h' : HostState} {past t : List Event} {m : ℕ}

/-! ## What host functions do to the number -/

theorem CalloutTable.len_enter_le (t : CalloutTable) (id : CalloutId) (entry : Callout) :
    (t.enter id entry).len ≤ t.len + 1 := by
  cases hget : t.get id with
  | none => rw [len_enter_of_none hget]
  | some held =>
    rw [len_enter_of_some hget]
    omega

/-- A host function opens a callout only where there is room for it. -/
theorem HostStep.len_le (step : HostStep h t h')
    (hlen : h.abi.callouts.len ≤ h.limits.maxOpenCallouts) :
    h'.abi.callouts.len ≤ h.limits.maxOpenCallouts := by
  cases step with
  | @opened c root id reserved kind op answer live hc hroot hdel hroom hres hop =>
    have hreserved := CalloutTable.len_of_reserve hres
    show CalloutTable.len (if _ then _ else _) ≤ _
    split
    · have henter := reserved.len_enter_le id (.new kind c root)
      omega
    · omega
  | sent =>
    show CalloutTable.len (if _ then _ else _) ≤ _
    split
    · rw [CalloutTable.len_closeByGuest]
      exact hlen
    · exact hlen
  | cancelled => exact (CalloutTable.len_remove_le _ _).trans hlen
  | closed => exact (CalloutTable.len_closeByGuest _ _).le.trans hlen
  | announced | settled | shared =>
    simp only [HostState.mapAbi, AbiState.callouts_takeAnnounced, AbiState.callouts_settle,
      AbiState.callouts_recordShared]
    exact hlen
  | _ => exact hlen

theorem HostStep.len_le_of_steps (path : Steps HostStep h t h')
    (hlen : h.abi.callouts.len ≤ h.limits.maxOpenCallouts) :
    h'.abi.callouts.len ≤ h.limits.maxOpenCallouts := by
  have hkeeps := path.invariant (I := fun h' => h'.limits = h.limits ∧
    h'.abi.callouts.len ≤ h.limits.maxOpenCallouts) ?_ ⟨rfl, hlen⟩
  · exact hkeeps.2
  · rintro h₁ t h₂ ⟨hlimits, hlen⟩ step
    refine ⟨(HostKeeps.of_step step).limits.trans hlimits, ?_⟩
    rw [← hlimits] at hlen ⊢
    exact step.len_le hlen

/-! ## Deliveries that unwind -/

/-- **No delivery that ends a callout unwinds with `m` callouts open.** -/
def LeavesRoom (m : ℕ) (past : List Event) : Prop :=
  ∀ before id entry callback c callout params exported abi inner after rest,
    past = before ++ .ended id (some entry) :: .began callback c callout params exported abi ::
      (inner ++ .finished after :: .unwound callback c :: rest) →
    (∀ e ∈ inner, e.ofHost = true) → after.callouts.len < m

theorem LeavesRoom.of_append (h : LeavesRoom m (past ++ t)) : LeavesRoom m past := by
  rintro before id entry callback c callout params exported abi inner after rest rfl hinner
  exact h before id entry callback c callout params exported abi inner after (rest ++ t)
    (by simp) hinner

section Delivery

variable {call : Delivered} {how : Event} {callback : Callback} {c : ContextId}
  {params : List I32}

theorem Session.len_lending_le (s : Session) (call : Delivered) :
    (s.lending call).abi.callouts.len ≤ s.abi.callouts.len := by
  unfold lending
  cases call.takes with
  | none => exact le_refl _
  | some id => exact CalloutTable.len_remove_le _ id

theorem Session.limits_lending (s : Session) (call : Delivered) :
    (s.lending call).host.limits = s.host.limits := by
  unfold lending
  cases call.takes <;> rfl

/-- What the steps inside a callback leave of the number. -/
theorem Session.len_le_of_inner {inner : List Event} {host : HostState}
    (path : Steps HostStep (s.running c callback).host inner host)
    (hlen : s.abi.callouts.len ≤ s.host.limits.maxOpenCallouts) :
    host.limits = s.host.limits ∧ host.abi.callouts.len ≤ s.host.limits.maxOpenCallouts :=
  ⟨(HostKeeps.of_steps path).limits,
    HostStep.len_le_of_steps (h := (s.running c callback).host) path hlen⟩

theorem Session.Performed.len_le (h : s.Performed callback c params how t s')
    (hlen : s.abi.callouts.len ≤ s.host.limits.maxOpenCallouts) :
    s'.host.limits = s.host.limits ∧ s'.abi.callouts.len ≤ s.host.limits.maxOpenCallouts := by
  obtain ⟨inner, host, path, rfl, -⟩ := h
  exact (len_le_of_inner path hlen :)

theorem Session.Stuck.len_le (h : s.Stuck callback c params t s')
    (hlen : s.abi.callouts.len ≤ s.host.limits.maxOpenCallouts) :
    s'.host.limits = s.host.limits ∧ s'.abi.callouts.len ≤ s.host.limits.maxOpenCallouts := by
  obtain ⟨inner, host, path, rfl, -⟩ := h
  exact (len_le_of_inner path hlen :)

/-- A delivery leaves as many open as its callback did, and one more when that unwound. -/
theorem Session.Delivers.len_le (h : s.Delivers call how t s')
    (hover : s'.Over call.callback call.context how)
    (hlen : s.abi.callouts.len ≤ s.host.limits.maxOpenCallouts)
    (hroom : LeavesRoom s.host.limits.maxOpenCallouts (past ++ t)) :
    s'.host.limits = s.host.limits ∧ s'.abi.callouts.len ≤ s.host.limits.maxOpenCallouts := by
  obtain ⟨u, s₁, ran, rfl, rfl⟩ := h
  have hlend := s.limits_lending call
  obtain ⟨hlimits, hlen₁⟩ := ran.len_le (by rw [hlend]; exact (s.len_lending_le call).trans hlen)
  rw [hlend] at hlimits hlen₁
  unfold settled
  cases hentry : s.entryOf call with
  | none => exact ⟨hlimits, hlen₁⟩
  | some taken =>
    obtain ⟨id, entry⟩ := taken
    dsimp only
    split
    · rename_i hpoisoned
      refine ⟨hlimits, (CalloutTable.len_enter_le _ _ _).trans ?_⟩
      -- The callback unwound, so the delivery is one of those that leave room.
      have hunwound : how = .unwound call.callback call.context := by
        cases hover with
        | unwound poisoned => rfl
        | returned value live =>
          have hdead := live.live
          rw [s.poisoned_settled, hpoisoned] at hdead
          cases hdead
      have htaking : s.taking call = [.ended id (some entry)] := by
        unfold taking
        unfold entryOf at hentry
        cases htakes : call.takes with
        | none => rw [htakes] at hentry; cases hentry
        | some id' =>
          rw [htakes] at hentry
          obtain ⟨entry', hget, hpair⟩ := Option.map_eq_some_iff.1 hentry
          cases hpair
          simp [hget]
      obtain ⟨inner, host, path, rfl, rfl⟩ := ran
      subst hunwound
      rw [htaking] at hroom
      exact hroom past id entry _ _ _ _ _ _ inner host.abi [] rfl
        (HostStep.ofHost_of_steps path)
    · exact ⟨hlimits, hlen₁⟩

end Delivery

/-- **One stage** keeps the number within the limit. -/
theorem Session.Stage.len_le (h : s.Stage t s')
    (hlen : s.abi.callouts.len ≤ s.host.limits.maxOpenCallouts)
    (hroom : LeavesRoom s.host.limits.maxOpenCallouts (past ++ t)) :
    s'.host.limits = s.host.limits ∧ s'.abi.callouts.len ≤ s.host.limits.maxOpenCallouts := by
  cases h with
  | between between =>
    refine ⟨between.limits, ?_⟩
    rw [between.callouts]
    exact hlen
  | performed live ran ends => exact ran.len_le hlen
  | stuck live ran ends => exact ran.len_le hlen
  | delivered live ran ends => exact ran.len_le ends hlen hroom
  | @stuckIn call _ _ live ran ends =>
    obtain ⟨u, ran, rfl⟩ := ran
    have hlend := s.limits_lending call
    have hran := ran.len_le (by rw [hlend]; exact (s.len_lending_le call).trans hlen)
    rw [hlend] at hran
    exact hran
  | dropped live ids => exact ⟨rfl, (CalloutTable.len_foldl_remove_le ids _).trans hlen⟩

/-! ## Runs -/

/-- **The limit of open callouts**: in a run in which no delivery that ends a callout unwinds
    with the table full, the guest has at most as many open as its limit says. -/
theorem open_callouts_limited (r : Run) (hroom : LeavesRoom r.limits.maxOpenCallouts r.trace) :
    r.last.abi.callouts.len ≤ r.limits.maxOpenCallouts := by
  obtain ⟨h, hfresh, path⟩ := r.creation_host
  have hlen : r.first.host.abi.callouts.len ≤ r.first.host.limits.maxOpenCallouts :=
    Nat.zero_le _
  have hlast := r.staged.history (p := r.creation)
    (I := fun past s => LeavesRoom r.limits.maxOpenCallouts past →
      s.host.limits = r.limits ∧ s.abi.callouts.len ≤ r.limits.maxOpenCallouts) ?_ ?_
  · exact (hlast hroom).2
  · intro past s t s' hI hstage hroom
    obtain ⟨hlimits, hlen⟩ := hI hroom.of_append
    rw [← hlimits] at hlen hroom ⊢
    exact hstage.len_le hlen hroom
  · intro _
    rw [hfresh]
    exact ⟨(HostKeeps.of_steps path).limits, HostStep.len_le_of_steps path hlen⟩

/-! ## A guest that fills its table inside a close -/

namespace OpenLimit

/-- One callout at a time. -/
def one : Limits := { Limits.atMost none with maxOpenCallouts := 1 }

/-- Opens a stream, and traps. -/
def openAndTrap : Code :=
  .call (List.replicate 16 0) (.proxyGrpcStream 0 0 0 0 0 0 0 0 0) Openings.accepting
    (fun _ => .unwind (.trap "")) fun _ _ => .unwind (.trap "")

/-- A root opens a stream, and opens another one while the first is closed, where it
    traps. -/
def refilling : Run :=
  .of 5 .bare ⟨[], .info, [], [], 1, 2⟩ one
    [.enter .noStream, .onContextCreate none (.returning 0), .onTick .min Openings.openStream,
      .onGrpcClose .min .min ⟨0, []⟩ openAndTrap]
    rfl (by decide)

/-- A root opens a stream, and traps while it is closed. -/
def trapping : Run :=
  .of 5 .bare ⟨[], .info, [], [], 1, 2⟩ one
    [.enter .noStream, .onContextCreate none (.returning 0), .onTick .min Openings.openStream,
      .onGrpcClose .min .min ⟨0, []⟩ (.unwind (.trap ""))]
    rfl (by decide)

/-- The guest that fills its table again has two callouts open, and may have one. -/
theorem refilling_exceeds :
    ¬ ∀ r : Run, r.last.abi.callouts.len ≤ r.limits.maxOpenCallouts := by
  intro hall
  exact absurd (hall refilling) (by decide)

/-- Whether an event ends a callout. -/
def ends : Event → Bool
  | .ended _ _ => true
  | _ => false

/-- How many callouts are open where a callback is over. -/
def openAt : Event → ℕ
  | .finished abi => abi.callouts.len
  | _ => 0

/-- The guest that only traps gets its one callout back. -/
theorem trapping_limited : trapping.last.abi.callouts.len ≤ 1 := by
  refine open_callouts_limited trapping ?_
  intro before id entry callback c callout params exported abi inner after rest htrace _
  -- The only callout that ends is the tenth event, and what is over later left none open.
  have hbefore : trapping.trace.take 9 <+: before := by
    refine List.prefix_of_prefix_length_le (List.take_prefix _ _) ⟨_, htrace.symm⟩ ?_
    by_contra hshort
    have hends : (trapping.trace.take 9).any ends = false := by decide
    rw [List.any_eq_false] at hends
    refine hends (.ended id (some entry)) ?_ rfl
    rw [htrace]
    refine List.mem_of_getElem? (i := before.length) ?_
    have hlt : before.length < 9 := by
      have hlength : (trapping.trace.take 9).length = 9 := by decide
      omega
    rw [List.getElem?_take_of_lt hlt, List.getElem?_append_right (le_refl _)]
    simp
  obtain ⟨w, rfl⟩ := hbefore
  have hmem : Event.finished after ∈ trapping.trace.drop 9 := by
    have hdrop : trapping.trace.take 9 ++ trapping.trace.drop 9 = _ :=
      (List.take_append_drop 9 _).trans htrace
    rw [List.append_assoc, List.append_cancel_left_eq] at hdrop
    rw [hdrop]
    simp
  have hopen : ∀ e ∈ trapping.trace.drop 9, openAt e < 1 := by decide
  exact hopen _ hmem

end OpenLimit

end ProxyWasmHost
