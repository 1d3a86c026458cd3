/-
  The specs and the guests that an embedder keeps in a process, and what a spec counts of the
  guests that it built.
-/
import ProxyWasmHost.Guest.Path

namespace ProxyWasmHost

/-! ## The counters and the identities -/

/-- `saturating_add(1)`. -/
def raise (counter : UInt64) : UInt64 := UInt64.ofNat (min (counter.toNat + 1) (2 ^ 64 - 1))

/-- What one spec counts, shared by every clone of it. -/
structure BuildCounters where
  builds : UInt64
  poisonedGuests : UInt64

namespace BuildCounters

def default : BuildCounters := ⟨0, 0⟩

def recordBuild (counters : BuildCounters) : BuildCounters :=
  { counters with builds := raise counters.builds }

def recordPoison (counters : BuildCounters) : BuildCounters :=
  { counters with poisonedGuests := raise counters.poisonedGuests }

end BuildCounters

/-- A fresh identity, and the number that the next one is made of. -/
def GuestId.next (value : UInt64) : GuestId × UInt64 :=
  (if value = 0 then 1 else value.toNat, value + 1)

/-! ## The pool -/

/-- What every guest of one VM is built from; the counters are those with this number. -/
structure GuestSpec where
  module : Module
  services : VmServices
  limits : Limits
  counters : ℕ

/-- A guest, the counters of the spec that built it, and whether it was dropped. -/
structure Pooled where
  session : Session
  counters : Option ℕ
  dropped : Bool

/-- All that an embedder keeps in a process: `next` is what the next identity is made of, and
    `issued` are the identities that no guest has, which the embedder took for itself or for a
    guest that was not built. -/
structure Pool where
  next : UInt64
  issued : List GuestId
  counters : List BuildCounters
  specs : List (Option GuestSpec)
  guests : List Pooled

namespace Pool

def empty : Pool := ⟨1, [], [], [], []⟩

/-- A spec that is not dropped. -/
def spec (p : Pool) (i : ℕ) : Option GuestSpec := p.specs[i]?.join

/-- A guest that is not dropped. -/
def guest (p : Pool) (i : ℕ) : Option Pooled := p.guests[i]?.filter (! ·.dropped)

def count (p : Pool) (record : BuildCounters → BuildCounters) : Option ℕ → Pool
  | some c => { p with counters := p.counters.modify c record }
  | none => p

/-- Builds a guest. One that is not built has taken its identity all the same. -/
def create (p : Pool) (module : Module) (services : VmServices) (limits : Limits)
    (counters : Option ℕ) : Pool :=
  let (id, next) := GuestId.next p.next
  let p := { p with next }
  let built := (Guest.new module).run (.new id module services limits)
  match built.exit with
  | .ok () =>
    let guest : Pooled := ⟨built.state, counters, false⟩
    { p with guests := p.guests ++ [guest] }.count .recordBuild counters
  | _ => { p with issued := p.issued ++ [id] }

/-- Drops the guest `g`, which is the one with number `i`. -/
def drop (p : Pool) (i : ℕ) (g : Pooled) : Pool :=
  let p := { p with guests := p.guests.set i { g with dropped := true } }
  if g.session.host.poisoned then p.count .recordPoison g.counters else p

end Pool

/-- What an embedder does with its specs and its guests, each named by its number. -/
inductive PoolOp where
  | newSpec (module : Module) (services : VmServices) (limits : Limits)
  | cloneSpec (spec : ℕ)
  | setServices (spec : ℕ) (services : VmServices)
  | dropSpec (spec : ℕ)
  | build (spec : ℕ)
  | newGuest (module : Module) (services : VmServices) (limits : Limits)
  | call (guest : ℕ) (op : Op)
  | dropGuest (guest : ℕ)
  | nextId

namespace PoolOp

instance {op : Op} {s : Session} : Decidable (op.Allowed s) :=
  inferInstanceAs (Decidable (_ = _))

/-- What is left after it, unless it names nothing the embedder has. A scope borrows its guest,
    which is not dropped then. -/
def perform (p : Pool) : PoolOp → Option Pool
  | .newSpec module services limits =>
    some { p with
      counters := p.counters ++ [.default]
      specs := p.specs ++ [some ⟨module, services, limits, p.counters.length⟩] }
  | .cloneSpec i => do
    let spec ← p.spec i
    return { p with specs := p.specs ++ [some spec] }
  | .setServices i services => do
    let spec ← p.spec i
    return { p with specs := p.specs.set i (some { spec with services }) }
  | .dropSpec i => do
    let _ ← p.spec i
    return { p with specs := p.specs.set i none }
  | .build i => do
    let spec ← p.spec i
    return p.create spec.module spec.services spec.limits (some spec.counters)
  | .newGuest module services limits => some (p.create module services limits none)
  | .call i op => do
    let g ← p.guest i
    if op.Allowed g.session then
      return { p with
        guests := p.guests.set i { g with session := (op.perform.run g.session).state } }
    else none
  | .dropGuest i => do
    let g ← p.guest i
    if g.session.scope.isNone then return p.drop i g else none
  | .nextId =>
    let (id, next) := GuestId.next p.next
    some { p with next, issued := p.issued ++ [id] }

/-- Whether it takes an identity. -/
def takesId : PoolOp → Bool
  | .build _ | .newGuest _ _ _ | .nextId => true
  | _ => false

end PoolOp

/-- One thing that an embedder does. -/
def Pool.Does (p : Pool) (ops : List PoolOp) (p' : Pool) : Prop :=
  ∃ op : PoolOp, ops = [op] ∧ op.perform p = some p'

/-- What is left of the empty pool. -/
abbrev Pool.After (ops : List PoolOp) (p : Pool) : Prop := Steps Pool.Does .empty ops p

/-- What the embedder does one after another. -/
def Pool.performAll (p : Pool) : List PoolOp → Option Pool
  | [] => some p
  | op :: ops => (op.perform p).bind (performAll · ops)

theorem Pool.steps_of_performAll {p p' : Pool} {ops : List PoolOp} (h : p.performAll ops = some p') :
    Steps Pool.Does p ops p' := by
  induction ops generalizing p with
  | nil =>
    cases h
    exact .nil _
  | cons op ops ih =>
    obtain ⟨q, hq, hrest⟩ := Option.bind_eq_some_iff.1 h
    exact .cons (t := [op]) ⟨op, rfl, hq⟩ (ih hrest)

/-! ## What a spec counts -/

namespace Pooled

/-- It was built by a spec that counts in `c`. -/
def builtBy (c : ℕ) (g : Pooled) : Bool := g.counters = some c

/-- It was built so, was poisoned, and was dropped. -/
def spent (c : ℕ) (g : Pooled) : Bool := g.builtBy c && g.session.host.poisoned && g.dropped

end Pooled

theorem toNat_raise (counter : UInt64) :
    (raise counter).toNat = min (counter.toNat + 1) (2 ^ 64 - 1) := by
  unfold raise
  rw [UInt64.toNat_ofNat', Nat.mod_eq_of_lt]
  omega

/-- The counters have as many builds and as many poisoned guests, as far as 64 bits hold them. -/
structure BuildCounters.Count (counters : BuildCounters) (built spent : ℕ) : Prop where
  builds : counters.builds.toNat = min built (2 ^ 64 - 1)
  poisoned : counters.poisonedGuests.toNat = min spent (2 ^ 64 - 1)

namespace BuildCounters.Count

variable {counters : BuildCounters} {built spent : ℕ}

theorem default : BuildCounters.default.Count 0 0 := ⟨rfl, rfl⟩

theorem recordBuild (h : counters.Count built spent) :
    counters.recordBuild.Count (built + 1) spent := by
  refine ⟨?_, h.poisoned⟩
  have hbuilds := h.builds
  rw [BuildCounters.recordBuild, toNat_raise]
  omega

theorem recordPoison (h : counters.Count built spent) :
    counters.recordPoison.Count built (spent + 1) := by
  refine ⟨h.builds, ?_⟩
  have hpoisoned := h.poisoned
  rw [BuildCounters.recordPoison, toNat_raise]
  omega

end BuildCounters.Count

namespace Pool

variable {p p' : Pool} {g : Pooled} {i c : ℕ}

theorem guest_eq_some : p.guest i = some g ↔ p.guests[i]? = some g ∧ g.dropped = false := by
  unfold guest
  rw [Option.filter_eq_some_iff]
  simp

/-- The counters of a pool say how many guests of each kind it has had. -/
structure Counted (p : Pool) : Prop where
  spec : ∀ spec, some spec ∈ p.specs → spec.counters < p.counters.length
  guest : ∀ g ∈ p.guests, ∀ c, g.counters = some c → c < p.counters.length
  count : ∀ (c : ℕ) (counters : BuildCounters), p.counters[c]? = some counters →
    counters.Count (p.guests.countP (·.builtBy c)) (p.guests.countP (·.spent c))

theorem mem_specs {spec : GuestSpec} (h : p.spec i = some spec) : some spec ∈ p.specs := by
  exact List.mem_of_getElem? (Option.join_eq_some_iff.1 h)

/-- One element of a list is replaced: the count changes by what the two are. -/
theorem countP_set {α : Type} (q : α → Bool) {a : α} (a' : α) {l : List α} {i : ℕ}
    (h : l[i]? = some a) :
    (l.set i a').countP q + (q a).toNat = l.countP q + (q a').toNat := by
  induction l generalizing i with
  | nil => cases h
  | cons b l ih =>
    cases i with
    | zero =>
      cases h
      simp only [List.set_cons_zero, List.countP_cons]
      cases q a <;> cases q a' <;> rfl
    | succ i =>
      have hrest := ih h
      simp only [List.set_cons_succ, List.countP_cons]
      omega

namespace Counted

theorem empty : Pool.empty.Counted := by
  refine ⟨fun spec h => ?_, fun g hg => ?_, fun c counters h => ?_⟩
  · cases h
  · cases hg
  · cases h

/-- Other specs, with counters that there are. -/
theorem withSpecs (h : p.Counted) {specs : List (Option GuestSpec)}
    (hspecs : ∀ spec, some spec ∈ specs → some spec ∈ p.specs ∨
      ∃ other, some other ∈ p.specs ∧ spec.counters = other.counters) :
    { p with specs }.Counted := by
  refine ⟨fun spec hspec => ?_, h.guest, h.count⟩
  obtain hspec | ⟨other, hother, heq⟩ := hspecs spec hspec
  · exact h.spec spec hspec
  · exact heq ▸ h.spec other hother

/-- A spec with counters of its own, that count nothing yet. -/
theorem newSpec (h : p.Counted) {spec : GuestSpec} (hspec : spec.counters = p.counters.length) :
    { p with
      counters := p.counters ++ [BuildCounters.default]
      specs := p.specs ++ [some spec] }.Counted := by
  refine ⟨fun spec' hspec' => ?_, fun g hg c hc => ?_, fun c counters hcounters => ?_⟩
  · rw [List.length_append, List.length_singleton]
    rcases List.mem_append.1 hspec' with hold | hnew
    · exact (h.spec spec' hold).trans (Nat.lt_succ_self _)
    · cases List.mem_singleton.1 hnew
      omega
  · rw [List.length_append]
    exact (h.guest g hg c hc).trans_le (Nat.le_add_right _ _)
  · rw [List.getElem?_append] at hcounters
    split at hcounters
    · exact h.count c counters hcounters
    · rename_i hlate
      obtain rfl : counters = BuildCounters.default := by
        have hmem := List.mem_of_getElem? hcounters
        exact List.mem_singleton.1 hmem
      -- No guest counts where there were no counters.
      have hnone : ∀ g ∈ p.guests, g.builtBy c = false := by
        intro g hg
        unfold Pooled.builtBy
        exact decide_eq_false fun hc => hlate (h.guest g hg c hc)
      have hbuilt : p.guests.countP (·.builtBy c) = 0 :=
        List.countP_eq_zero.2 fun g hg => by simp [hnone g hg]
      have hspent : p.guests.countP (·.spent c) = 0 :=
        List.countP_eq_zero.2 fun g hg => by simp [Pooled.spent, hnone g hg]
      simp only [hbuilt, hspent]
      exact .default

theorem length_count {p : Pool} {record : BuildCounters → BuildCounters} {raised : Option ℕ} :
    (p.count record raised).counters.length = p.counters.length := by
  cases raised with
  | none => rfl
  | some c => exact List.length_modify ..

theorem getElem?_count {p : Pool} {record : BuildCounters → BuildCounters} {raised : Option ℕ} :
    (p.count record raised).counters[c]? =
      p.counters[c]?.map fun counters => if raised = some c then record counters else counters := by
  cases raised with
  | none => simp [Pool.count]
  | some c' => simp [Pool.count, List.getElem?_modify]

/-- **Other guests**, and the counters that are raised for them. -/
theorem withGuests (h : p.Counted) {guests : List Pooled} {record : BuildCounters → BuildCounters}
    {raised : Option ℕ}
    (hguests : ∀ g ∈ guests, ∀ c, g.counters = some c → c < p.counters.length)
    (hcount : ∀ c counters,
      BuildCounters.Count counters (p.guests.countP (·.builtBy c)) (p.guests.countP (·.spent c)) →
      (if raised = some c then record counters else counters).Count
        (guests.countP (·.builtBy c)) (guests.countP (·.spent c))) :
    ({ p with guests }.count record raised).Counted := by
  have hspecs : ({ p with guests }.count record raised).specs = p.specs := by cases raised <;> rfl
  have hsame : ({ p with guests }.count record raised).guests = guests := by cases raised <;> rfl
  refine ⟨fun spec hspec => ?_, fun g hg c hc => ?_, fun c counters hcounters => ?_⟩
  · rw [length_count]
    exact h.spec spec (hspecs ▸ hspec)
  · rw [length_count]
    exact hguests g (hsame ▸ hg) c hc
  · rw [getElem?_count] at hcounters
    obtain ⟨before, hbefore, rfl⟩ := Option.map_eq_some_iff.1 hcounters
    rw [hsame]
    exact hcount c before (h.count c before hbefore)

/-- Other guests, that count as these do. -/
theorem recount (h : p.Counted) {guests : List Pooled}
    (hguests : ∀ g ∈ guests, ∀ c, g.counters = some c → c < p.counters.length)
    (hbuilt : ∀ c, guests.countP (·.builtBy c) = p.guests.countP (·.builtBy c))
    (hspent : ∀ c, guests.countP (·.spent c) = p.guests.countP (·.spent c)) :
    { p with guests }.Counted := by
  refine ⟨h.spec, hguests, fun c counters hcounters => ?_⟩
  rw [hbuilt, hspent]
  exact h.count c counters hcounters

/-- **A guest that is built** counts once. -/
theorem create (h : p.Counted) {module : Module} {services : VmServices} {limits : Limits}
    {counters : Option ℕ} (hcounters : ∀ c, counters = some c → c < p.counters.length) :
    (p.create module services limits counters).Counted := by
  unfold Pool.create
  dsimp only
  split
  · have hnext : { p with next := (GuestId.next p.next).2 }.Counted :=
      ⟨h.spec, h.guest, h.count⟩
    refine hnext.withGuests ?_ ?_
    · intro g hg
      rcases List.mem_append.1 hg with hg | hg
      · exact h.guest g hg
      · cases List.mem_singleton.1 hg
        exact hcounters
    · intro c counters' hcount
      have hspent : ∀ g : Pooled, g.dropped = false → g.spent c = false := by
        intro g hdropped
        rw [Pooled.spent, hdropped, Bool.and_false]
      simp only [List.countP_append, List.countP_singleton, hspent, Bool.false_eq_true, if_false,
        Nat.add_zero, Pooled.builtBy, decide_eq_true_eq]
      split
      · exact hcount.recordBuild
      · exact hcount
  · exact ⟨h.spec, h.guest, h.count⟩

section Replace

variable (g' : Pooled)

/-- Another guest in the place of one, that counts where that did. -/
theorem replaced (h : p.Counted) (hg : p.guests[i]? = some g) (hcounters : g'.counters = g.counters) :
    ∀ g'' ∈ p.guests.set i g', ∀ c, g''.counters = some c → c < p.counters.length := by
  intro g'' hmem
  rcases List.mem_or_eq_of_mem_set hmem with hold | rfl
  · exact h.guest g'' hold
  · rw [hcounters]
    exact h.guest g (List.mem_of_getElem? hg)

theorem countP_builtBy_set (hg : p.guests[i]? = some g) (hcounters : g'.counters = g.counters) :
    (p.guests.set i g').countP (·.builtBy c) = p.guests.countP (·.builtBy c) := by
  have hset := countP_set (·.builtBy c) g' hg
  rw [Pooled.builtBy, Pooled.builtBy, hcounters] at hset
  exact Nat.add_right_cancel hset

theorem countP_spent_set (hg : p.guests[i]? = some g) (hlive : g.dropped = false) :
    (p.guests.set i g').countP (·.spent c) = p.guests.countP (·.spent c) + (g'.spent c).toNat := by
  have hset := countP_set (·.spent c) g' hg
  have hspent : g.spent c = false := by rw [Pooled.spent, hlive, Bool.and_false]
  rwa [hspent, Bool.toNat_false, Nat.add_zero] at hset

end Replace

/-- **A guest that is dropped** counts once more if it is poisoned. -/
theorem drop (h : p.Counted) (hg : p.guest i = some g) : (p.drop i g).Counted := by
  obtain ⟨hat, hlive⟩ := guest_eq_some.1 hg
  have hguests := h.replaced { g with dropped := true } hat rfl
  unfold Pool.drop
  dsimp only
  split
  · rename_i hpoisoned
    refine h.withGuests hguests fun c counters hcount => ?_
    rw [countP_builtBy_set { g with dropped := true } hat rfl, countP_spent_set _ hat hlive,
      Pooled.spent, hpoisoned, Bool.and_true, Bool.and_true, Pooled.builtBy]
    split
    · rename_i hc
      rw [decide_eq_true hc]
      exact hcount.recordPoison
    · rename_i hc
      rw [decide_eq_false hc]
      exact hcount
  · rename_i hpoisoned
    refine h.recount hguests (fun c => countP_builtBy_set _ hat rfl) fun c => ?_
    rw [countP_spent_set _ hat hlive, Pooled.spent, Bool.eq_false_of_not_eq_true hpoisoned,
      Bool.and_false, Bool.false_and]
    rfl

/-- A guest that is called stays where it is, and counts as before. -/
theorem call (h : p.Counted) (hg : p.guest i = some g) (s : Session) :
    { p with guests := p.guests.set i { g with session := s } }.Counted := by
  obtain ⟨hat, hlive⟩ := guest_eq_some.1 hg
  have hguests := h.replaced { g with session := s } hat rfl
  refine h.recount hguests (fun c => countP_builtBy_set _ hat rfl) fun c => ?_
  rw [countP_spent_set _ hat hlive, Pooled.spent, hlive, Bool.and_false]
  rfl

/-- **What the embedder does keeps the counts.** -/
theorem perform (h : p.Counted) {op : PoolOp} (hop : op.perform p = some p') : p'.Counted := by
  cases op with
  | newSpec module services limits =>
    cases hop
    exact h.newSpec rfl
  | cloneSpec i =>
    obtain ⟨spec, hspec, hp⟩ := Option.bind_eq_some_iff.1 hop
    cases hp
    refine h.withSpecs fun other hother => ?_
    rcases List.mem_append.1 hother with hold | hnew
    · exact .inl hold
    · cases List.mem_singleton.1 hnew
      exact .inl (mem_specs hspec)
  | setServices i services =>
    obtain ⟨spec, hspec, hp⟩ := Option.bind_eq_some_iff.1 hop
    cases hp
    refine h.withSpecs fun other hother => ?_
    rcases List.mem_or_eq_of_mem_set hother with hold | hnew
    · exact .inl hold
    · cases hnew
      exact .inr ⟨spec, mem_specs hspec, rfl⟩
  | dropSpec i =>
    obtain ⟨spec, hspec, hp⟩ := Option.bind_eq_some_iff.1 hop
    cases hp
    refine h.withSpecs fun other hother => ?_
    rcases List.mem_or_eq_of_mem_set hother with hold | hnew
    · exact .inl hold
    · cases hnew
  | build i =>
    obtain ⟨spec, hspec, hp⟩ := Option.bind_eq_some_iff.1 hop
    cases hp
    refine h.create fun c hc => ?_
    cases hc
    exact h.spec spec (mem_specs hspec)
  | newGuest module services limits =>
    cases hop
    exact h.create fun c hc => by cases hc
  | call i op =>
    obtain ⟨g, hg, hp⟩ := Option.bind_eq_some_iff.1 hop
    obtain ⟨-, hp⟩ := Option.ite_none_right_eq_some.1 hp
    cases hp
    exact h.call hg _
  | dropGuest i =>
    obtain ⟨g, hg, hp⟩ := Option.bind_eq_some_iff.1 hop
    obtain ⟨-, hp⟩ := Option.ite_none_right_eq_some.1 hp
    cases hp
    exact h.drop hg
  | nextId =>
    cases hop
    exact ⟨h.spec, h.guest, h.count⟩

end Counted

/-- **A spec counts what it builds and what it loses**: after anything the embedder did, the
    counters have as many builds as there are guests of the specs that share them, and as many
    poisoned guests as there are poisoned ones among these that were dropped; and no more are
    poisoned than were built. -/
theorem After.counts_guests {ops : List PoolOp} (h : Pool.After ops p) {counters : BuildCounters}
    (hcounters : p.counters[c]? = some counters) :
    counters.Count (p.guests.countP (·.builtBy c)) (p.guests.countP (·.spent c)) ∧
      counters.poisonedGuests ≤ counters.builds := by
  have hcounted : p.Counted := by
    refine Steps.invariant (I := Counted) (fun q t q' hq hstep => ?_) h .empty
    obtain ⟨op, -, hop⟩ := hstep
    exact hq.perform hop
  have hcount := hcounted.count c counters hcounters
  refine ⟨hcount, ?_⟩
  have hle : p.guests.countP (·.spent c) ≤ p.guests.countP (·.builtBy c) := by
    refine List.countP_mono_left fun g _ hspent => ?_
    unfold Pooled.spent at hspent
    exact (Bool.and_eq_true_iff.1 (Bool.and_eq_true_iff.1 hspent).1).1
  rw [UInt64.le_iff_toNat_le, hcount.builds, hcount.poisoned]
  omega

/-- A spec builds a guest, which traps as it starts and is dropped. -/
def trapping : List PoolOp :=
  [.newSpec .bare ⟨[], .info, [], [], 1, 2⟩ (.atMost none), .build 0,
    .call 0 (.start ⟨[], [], []⟩ ⟨.unwind (.trap "trap"), .returning 0, .returning 1⟩), .dropGuest 0]

theorem trapping_counts : ∃ p counters, Pool.After trapping p ∧
    p.counters[0]? = some counters ∧ counters.poisonedGuests = 1 ∧
      counters.Count (p.guests.countP (·.builtBy 0)) (p.guests.countP (·.spent 0)) ∧
        counters.poisonedGuests ≤ counters.builds := by
  have hafter : Pool.After trapping _ := steps_of_performAll rfl
  exact ⟨_, _, hafter, rfl, rfl, After.counts_guests hafter rfl⟩

end Pool

end ProxyWasmHost
