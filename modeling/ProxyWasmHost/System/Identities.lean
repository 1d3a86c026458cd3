/-
  The run and the identity that each guest has in a process, whatever becomes of the specs and of
  the other guests.
-/
import ProxyWasmHost.System.Pool

namespace ProxyWasmHost

/-! ## The runs of the guests -/

/-- What a guest is built from. -/
structure Origin where
  module : Module
  services : VmServices
  limits : Limits

/-- What the guest that an operation builds is built from. -/
def PoolOp.origin (p : Pool) : PoolOp → Option Origin
  | .build i => (p.spec i).map fun spec => ⟨spec.module, spec.services, spec.limits⟩
  | .newGuest module services limits => some ⟨module, services, limits⟩
  | _ => none

namespace Run

def origin (r : Run) : Origin := ⟨r.module, r.services, r.limits⟩

/-- The guest with number `n` is built in these operations as the run begins. -/
def BuiltIn (r : Run) (ops : List PoolOp) (n : ℕ) : Prop :=
  ∃ before op after p, ops = before ++ op :: after ∧ Pool.After before p ∧ p.guests.length = n ∧
    op.origin p = some r.origin

theorem BuiltIn.append {r : Run} {ops : List PoolOp} {n : ℕ} (h : r.BuiltIn ops n)
    (more : List PoolOp) : r.BuiltIn (ops ++ more) n := by
  obtain ⟨before, op, after, p, rfl, hp, hn, horigin⟩ := h
  exact ⟨before, op, after ++ more, p, by simp, hp, hn, horigin⟩

end Run

namespace Pool

/-- The identities that the operations take. -/
def taken (ops : List PoolOp) : ℕ := ops.countP PoolOp.takesId

theorem next_ofNat {n : ℕ} (h : n + 1 < 2 ^ 64) :
    GuestId.next (UInt64.ofNat (n + 1)) = (n + 1, UInt64.ofNat (n + 1 + 1)) := by
  have hnat : (UInt64.ofNat (n + 1)).toNat = n + 1 := by
    rw [UInt64.toNat_ofNat', Nat.mod_eq_of_lt h]
  have hne : UInt64.ofNat (n + 1) ≠ 0 := by
    intro hzero
    rw [hzero] at hnat
    exact absurd hnat (by simp)
  unfold GuestId.next
  rw [if_neg hne, hnat, UInt64.ofNat_add (n + 1) 1]
  rfl

/-- The guests are the ends of these runs, which have the identities that were taken, each once. -/
structure Runs (ops : List PoolOp) (p : Pool) (runs : List Run) : Prop where
  next : p.next = UInt64.ofNat (taken ops + 1)
  last : runs.map Run.last = p.guests.map Pooled.session
  distinct : (runs.map Run.guest ++ p.issued).Nodup
  below : ∀ id ∈ runs.map Run.guest ++ p.issued, id ≤ taken ops
  all : runs.length + p.issued.length = taken ops
  built : ∀ (n : ℕ) (r : Run), runs[n]? = some r → r.BuiltIn ops n

theorem set_of_getElem? {α : Type} {a : α} {l : List α} {i : ℕ} (h : l[i]? = some a) :
    l.set i a = l := by
  obtain ⟨hi, rfl⟩ := List.getElem?_eq_some_iff.1 h
  exact List.set_getElem_self hi

theorem taken_concat {ops : List PoolOp} {op : PoolOp} :
    Pool.taken (ops ++ [op]) = Pool.taken ops + op.takesId.toNat := by
  unfold Pool.taken
  rw [List.countP_append, List.countP_singleton]
  cases op.takesId <;> rfl

namespace Runs

variable {p p' : Pool} {g : Pooled} {i : ℕ} {ops : List PoolOp} {op : PoolOp} {runs : List Run}

theorem empty : Runs [] .empty [] := by
  refine ⟨rfl, rfl, List.nodup_nil, fun id hid => ?_, rfl, fun n r hr => ?_⟩
  · cases hid
  · cases hr

/-- What takes no identity and calls no guest leaves the runs. -/
theorem untouched (h : Runs ops p runs) (hnone : op.takesId = false) (hnext : p'.next = p.next)
    (hissued : p'.issued = p.issued)
    (hguests : p'.guests.map Pooled.session = p.guests.map Pooled.session) :
    Runs (ops ++ [op]) p' runs := by
  have htaken : Pool.taken (ops ++ [op]) = Pool.taken ops := by rw [taken_concat, hnone]; rfl
  refine ⟨?_, ?_, ?_, ?_, ?_, fun n r hr => (h.built n r hr).append _⟩
  · rw [hnext, htaken, h.next]
  · rw [hguests, h.last]
  · rw [hissued]
    exact h.distinct
  · rw [hissued, htaken]
    exact h.below
  · rw [hissued, htaken, h.all]

/-- **A guest that is called** goes on with its run. -/
theorem call {step : Op} (h : Runs ops p runs) (hg : p.guests[i]? = some g)
    (hallowed : step.Allowed g.session) : ∃ runs', Runs (ops ++ [.call i step])
      { p with guests := p.guests.set i { g with session := (step.perform.run g.session).state } }
      runs' := by
  have hlast : (runs.map Run.last)[i]? = some g.session := by
    rw [h.last, List.getElem?_map, hg]
    rfl
  rw [List.getElem?_map] at hlast
  obtain ⟨r, hr, hsession⟩ := Option.map_eq_some_iff.1 hlast
  have hstep : step.Allowed r.last := hsession ▸ hallowed
  have hguest : (runs.set i (r.call step hstep)).map Run.guest = runs.map Run.guest := by
    rw [List.map_set]
    exact set_of_getElem? (by rw [List.getElem?_map, hr]; rfl)
  have htaken : Pool.taken (ops ++ [.call i step]) = Pool.taken ops := taken_concat
  refine ⟨runs.set i (r.call step hstep), ?_, ?_, ?_, ?_, ?_, fun n r' hr' => ?_⟩
  · rw [htaken]
    exact h.next
  · rw [List.map_set, List.map_set, h.last, ← hsession]
    rfl
  · rw [hguest]
    exact h.distinct
  · rw [hguest, htaken]
    exact h.below
  · rw [List.length_set, htaken]
    exact h.all
  · rw [List.getElem?_set] at hr'
    split at hr'
    · rename_i hn
      split at hr'
      · cases hr'
        exact (h.built n r (hn ▸ hr)).append _
      · cases hr'
    · exact (h.built n r' hr').append _

theorem not_taken (h : Runs ops p runs) :
    Pool.taken ops + 1 ∉ runs.map Run.guest ++ p.issued := fun hmem =>
  absurd (h.below _ hmem) (Nat.not_succ_le_self _)

/-- An identity is taken that no guest has. -/
theorem issue (h : Runs ops p runs) (htakes : op.takesId = true) {next : UInt64}
    (hnext : next = UInt64.ofNat (Pool.taken ops + 1 + 1)) :
    Runs (ops ++ [op]) { p with next, issued := p.issued ++ [Pool.taken ops + 1] } runs := by
  have htaken : Pool.taken (ops ++ [op]) = Pool.taken ops + 1 := by rw [taken_concat, htakes]; rfl
  refine ⟨?_, h.last, ?_, ?_, ?_, fun n r hr => (h.built n r hr).append _⟩
  · rw [htaken]
    exact hnext
  · rw [← List.append_assoc, List.nodup_middle, List.append_nil]
    exact List.nodup_cons.2 ⟨h.not_taken, h.distinct⟩
  · rw [htaken, ← List.append_assoc]
    intro id hid
    rcases List.mem_append.1 hid with hold | hnew
    · exact (h.below id hold).trans (Nat.le_succ _)
    · exact (List.mem_singleton.1 hnew).le
  · rw [htaken, List.length_append, List.length_singleton, ← Nat.add_assoc, h.all]

/-- One more run begins, under the identity that is taken. -/
theorem begin (h : Runs ops p runs) (htakes : op.takesId = true) {r : Run} {counters : Option ℕ}
    {next : UInt64} (hnext : next = UInt64.ofNat (Pool.taken ops + 1 + 1))
    (hguest : r.guest = Pool.taken ops + 1) (hbuilt : r.BuiltIn (ops ++ [op]) p.guests.length) :
    Runs (ops ++ [op]) { p with next, guests := p.guests ++ [⟨r.last, counters, false⟩] }
      (runs ++ [r]) := by
  have htaken : Pool.taken (ops ++ [op]) = Pool.taken ops + 1 := by rw [taken_concat, htakes]; rfl
  have hids : (runs ++ [r]).map Run.guest ++ p.issued =
      runs.map Run.guest ++ (Pool.taken ops + 1) :: p.issued := by
    rw [List.map_append, List.append_assoc, ← hguest]
    rfl
  have hlength : runs.length = p.guests.length := by
    rw [← List.length_map Run.last, h.last, List.length_map]
  refine ⟨?_, ?_, ?_, ?_, ?_, fun n r' hr' => ?_⟩
  · rw [htaken]
    exact hnext
  · rw [List.map_append, List.map_append, h.last]
    rfl
  · rw [hids, List.nodup_middle]
    exact List.nodup_cons.2 ⟨h.not_taken, h.distinct⟩
  · rw [hids, htaken]
    intro id hid
    rcases List.mem_append.1 hid with hold | hnew
    · exact (h.below id (List.mem_append_left _ hold)).trans (Nat.le_succ _)
    · rcases List.mem_cons.1 hnew with rfl | hold
      · exact le_rfl
      · exact (h.below id (List.mem_append_right _ hold)).trans (Nat.le_succ _)
  · have hall := h.all
    rw [htaken, List.length_append, List.length_singleton]
    dsimp only
    omega
  · rw [List.getElem?_append] at hr'
    split at hr'
    · exact (h.built n r' hr').append _
    · rename_i hn
      have hzero : n = runs.length := by
        have := (List.getElem?_eq_some_iff.1 hr').1
        rw [List.length_singleton] at this
        omega
      subst hzero
      rw [Nat.sub_self] at hr'
      cases hr'
      rwa [hlength]

theorem count (h : Runs ops p runs) {record : BuildCounters → BuildCounters} {raised : Option ℕ} :
    Runs ops (p.count record raised) runs := by
  cases raised with
  | none => exact h
  | some c => exact ⟨h.next, h.last, h.distinct, h.below, h.all, h.built⟩

/-- **A guest that is built** begins a run of its own; one that is not has taken an identity. -/
theorem create (h : Runs ops p runs) (hp : Pool.After ops p) {origin : Origin}
    {counters : Option ℕ} (horigin : op.origin p = some origin) (htakes : op.takesId = true)
    (hfew : Pool.taken ops + 1 < 2 ^ 64) : ∃ runs', Runs (ops ++ [op])
      (p.create origin.module origin.services origin.limits counters) runs' := by
  have hid := next_ofNat hfew
  rw [← h.next] at hid
  unfold Pool.create
  rw [hid]
  dsimp only
  split
  · rename_i hcreated
    let r : Run := ⟨Pool.taken ops + 1, origin.module, origin.services, origin.limits, [], _,
      hcreated, .nil _⟩
    have hbuilt : r.BuiltIn (ops ++ [op]) p.guests.length :=
      ⟨ops, op, [], p, rfl, hp, rfl, horigin⟩
    exact ⟨runs ++ [r], (h.begin htakes rfl rfl hbuilt).count⟩
  · exact ⟨runs, h.issue htakes rfl⟩

/-- A guest that is dropped is the end of its run. -/
theorem drop (h : Runs ops p runs) (hg : p.guests[i]? = some g) :
    Runs (ops ++ [.dropGuest i]) (p.drop i g) runs := by
  have hsessions : (p.guests.set i { g with dropped := true }).map Pooled.session =
      p.guests.map Pooled.session := by
    rw [List.map_set]
    exact set_of_getElem? (by rw [List.getElem?_map, hg]; rfl)
  have hdropped : Runs (ops ++ [.dropGuest i])
      { p with guests := p.guests.set i { g with dropped := true } } runs :=
    h.untouched rfl rfl rfl hsessions
  unfold Pool.drop
  dsimp only
  split
  · exact hdropped.count
  · exact hdropped

/-- **What the embedder does keeps the runs**, while there are identities left. -/
theorem perform (h : Runs ops p runs) (hp : Pool.After ops p) (hop : op.perform p = some p')
    (hfew : Pool.taken (ops ++ [op]) < 2 ^ 64) : ∃ runs', Runs (ops ++ [op]) p' runs' := by
  rw [taken_concat] at hfew
  cases op with
  | newSpec module services limits =>
    cases hop
    exact ⟨runs, h.untouched rfl rfl rfl rfl⟩
  | cloneSpec i =>
    obtain ⟨spec, -, hp'⟩ := Option.bind_eq_some_iff.1 hop
    cases hp'
    exact ⟨runs, h.untouched rfl rfl rfl rfl⟩
  | setServices i services =>
    obtain ⟨spec, -, hp'⟩ := Option.bind_eq_some_iff.1 hop
    cases hp'
    exact ⟨runs, h.untouched rfl rfl rfl rfl⟩
  | dropSpec i =>
    obtain ⟨spec, -, hp'⟩ := Option.bind_eq_some_iff.1 hop
    cases hp'
    exact ⟨runs, h.untouched rfl rfl rfl rfl⟩
  | build i =>
    obtain ⟨spec, hspec, hp'⟩ := Option.bind_eq_some_iff.1 hop
    cases hp'
    have horigin : (PoolOp.build i).origin p = some ⟨spec.module, spec.services, spec.limits⟩ := by
      rw [PoolOp.origin, hspec]
      rfl
    exact h.create hp horigin rfl hfew
  | newGuest module services limits =>
    cases hop
    have horigin : (PoolOp.newGuest module services limits).origin p =
        some ⟨module, services, limits⟩ := rfl
    exact h.create hp horigin rfl hfew
  | call i step =>
    obtain ⟨g, hg, hp'⟩ := Option.bind_eq_some_iff.1 hop
    obtain ⟨hallowed, hp'⟩ := Option.ite_none_right_eq_some.1 hp'
    cases hp'
    exact h.call (guest_eq_some.1 hg).1 hallowed
  | dropGuest i =>
    obtain ⟨g, hg, hp'⟩ := Option.bind_eq_some_iff.1 hop
    obtain ⟨-, hp'⟩ := Option.ite_none_right_eq_some.1 hp'
    cases hp'
    exact ⟨runs, h.drop (guest_eq_some.1 hg).1⟩
  | nextId =>
    have hid := next_ofNat hfew
    rw [← h.next] at hid
    rw [PoolOp.perform, hid] at hop
    cases hop
    exact ⟨runs, h.issue rfl rfl⟩

end Runs

/-- **Every guest has a run and an identity of its own**: after anything the embedder did that
    took fewer than 2^64 identities, each guest there was is the end of a run that began in one
    of the operations, from what its spec held or its caller gave at that moment, whatever
    happened to the spec and to the other guests since; and each operation that takes an
    identity took one, all of them different: those of the guests, those of the guests that
    were not built, and those that the embedder took for itself. -/
theorem After.guests_run {ops : List PoolOp} {p : Pool} (h : Pool.After ops p)
    (hfew : Pool.taken ops < 2 ^ 64) : ∃ runs : List Run,
      runs.map Run.last = p.guests.map Pooled.session ∧
        (runs.map Run.guest ++ p.issued).Nodup ∧
        (runs.map Run.guest ++ p.issued).length = Pool.taken ops ∧
        ∀ (n : ℕ) (r : Run), runs[n]? = some r → r.BuiltIn ops n := by
  have hruns : Pool.After ops p ∧ (Pool.taken ops < 2 ^ 64 → ∃ runs, Pool.Runs ops p runs) := by
    refine Steps.history (I := fun past p =>
      Pool.After past p ∧ (Pool.taken past < 2 ^ 64 → ∃ runs, Pool.Runs past p runs)) ?_ h
      (p := []) ⟨.nil _, fun _ => ⟨[], .empty⟩⟩
    rintro past q _ q' ⟨hq, hruns⟩ ⟨op, rfl, hop⟩
    refine ⟨hq.snoc ⟨op, rfl, hop⟩, fun hfew' => ?_⟩
    have hpast : Pool.taken past < 2 ^ 64 := by
      rw [taken_concat] at hfew'
      omega
    obtain ⟨runs, hruns⟩ := hruns hpast
    exact hruns.perform hq hop hfew'
  obtain ⟨runs, hruns⟩ := hruns.2 hfew
  refine ⟨runs, hruns.last, hruns.distinct, ?_, hruns.built⟩
  rw [List.length_append, List.length_map, hruns.all]

/-- After the guest of `trapping`, one that traps as it is instantiated, an identity that the
    embedder takes for itself, and one more guest. -/
def failing : List PoolOp :=
  trapping ++ [
    .newGuest { Module.bare with initializers := [.unwind (.trap "trap")] }
      ⟨[], .info, [], [], 1, 2⟩ (.atMost none),
    .nextId, .build 0]

theorem failing_runs : ∃ p, Pool.After failing p ∧ p.issued = [2, 3] ∧ ∃ runs : List Run,
    runs.map Run.last = p.guests.map Pooled.session ∧ (runs.map Run.guest ++ p.issued).Nodup ∧
      (runs.map Run.guest ++ p.issued).length = Pool.taken failing ∧
        ∀ (n : ℕ) (r : Run), runs[n]? = some r → r.BuiltIn failing n := by
  have hafter : Pool.After failing _ := steps_of_performAll rfl
  exact ⟨_, hafter, rfl, After.guests_run hafter (by decide)⟩

end Pool

end ProxyWasmHost
