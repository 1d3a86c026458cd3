/-
  The callouts a guest has open, and the identifiers that refer to them.
-/
import ProxyWasmHost.Types

namespace ProxyWasmHost

open Std

/-- One open callout. -/
structure Callout where
  kind : CalloutKind
  /-- The context that made the call. -/
  caller : ContextId
  /-- The root of the caller, which a callback passes as the plugin context. -/
  root : ContextId
  /-- Whether the guest closed its side of a gRPC stream. -/
  closedByGuest : Bool
  deriving DecidableEq

def Callout.new (kind : CalloutKind) (caller root : ContextId) : Callout :=
  ⟨kind, caller, root, false⟩

/-- The open callouts of one guest. -/
structure CalloutTable where
  entries : ExtTreeMap CalloutId Callout
  next : CalloutId

namespace CalloutTable

def new : CalloutTable := ⟨∅, .min⟩

def len (t : CalloutTable) : ℕ := t.entries.size

def get (t : CalloutTable) (id : CalloutId) : Option Callout := t.entries[id]?

/-- The counter after one candidate, which skips zero when it wraps. -/
def advance (t : CalloutTable) : CalloutTable := { t with next := t.next.checkedSucc.getD .min }

/-- The loop of `reserve`, for at most `fuel` candidates. -/
def reserveWith : ℕ → CalloutTable → Option (CalloutId × CalloutTable)
  | 0, _ => none
  | fuel + 1, t =>
    match t.get t.next with
    | none => some (t.next, t.advance)
    | some _ => reserveWith fuel t.advance

/-- The next identifier that is not open, which is not entered yet. One candidate
    more than the table holds is enough unless every identifier is open, when the
    loop of the source does not end. -/
def reserve (t : CalloutTable) : Option (CalloutId × CalloutTable) := reserveWith (t.len + 1) t

def enter (t : CalloutTable) (id : CalloutId) (callout : Callout) : CalloutTable :=
  { t with entries := t.entries.insert id callout }

def remove (t : CalloutTable) (id : CalloutId) : CalloutTable :=
  { t with entries := t.entries.erase id }

/-- Whether this table gave out the identifier. -/
def issued (t : CalloutTable) (id : CalloutId) : Bool := id.val < t.next.val

/-- Records that the guest closed its side of a gRPC stream. -/
def closeByGuest (t : CalloutTable) (id : CalloutId) : CalloutTable :=
  { t with entries := t.entries.modify id fun callout => { callout with closedByGuest := true } }

/-- The callouts `caller` made, in identifier order. -/
def madeBy (t : CalloutTable) (caller : ContextId) : List (CalloutId × CalloutKind) :=
  (t.entries.toList.filter fun entry => entry.2.caller = caller).map fun entry =>
    (entry.1, entry.2.kind)

/-! ## What the operations do to the entries -/

variable {t t' : CalloutTable} {id x : CalloutId} {entry : Callout}

theorem get_enter (t : CalloutTable) (id x : CalloutId) (entry : Callout) :
    (t.enter id entry).get x = if x = id then some entry else t.get x := by
  unfold get enter
  rw [ExtTreeMap.getElem?_insert]
  by_cases hx : x = id
  · rw [if_pos (by rw [hx]; exact compare_self), if_pos hx]
  · rw [if_neg (by rw [Std.LawfulEqOrd.compare_eq_iff_eq]; exact Ne.symm hx), if_neg hx]

theorem get_remove (t : CalloutTable) (id x : CalloutId) :
    (t.remove id).get x = if x = id then none else t.get x := by
  unfold get remove
  rw [ExtTreeMap.getElem?_erase]
  by_cases hx : x = id
  · rw [if_pos (by rw [hx]; exact compare_self), if_pos hx]
  · rw [if_neg (by rw [Std.LawfulEqOrd.compare_eq_iff_eq]; exact Ne.symm hx), if_neg hx]

theorem get_closeByGuest (t : CalloutTable) (id x : CalloutId) :
    (t.closeByGuest id).get x =
      if x = id then (t.get x).map fun entry => { entry with closedByGuest := true }
      else t.get x := by
  unfold get closeByGuest
  rw [ExtTreeMap.getElem?_modify]
  by_cases hx : x = id
  · rw [if_pos (by rw [hx]; exact compare_self), if_pos hx, hx]
  · rw [if_neg (by rw [Std.LawfulEqOrd.compare_eq_iff_eq]; exact Ne.symm hx), if_neg hx]

/-- An entry was there before the guest closed a side, but for its mark. -/
theorem entry_of_closeByGuest (h : (t.closeByGuest id).get x = some entry) :
    ∃ entry₀ closed, t.get x = some entry₀ ∧ entry = { entry₀ with closedByGuest := closed } := by
  rw [get_closeByGuest] at h
  split at h
  · obtain ⟨entry₀, hget₀, rfl⟩ := Option.map_eq_some_iff.1 h
    exact ⟨entry₀, true, hget₀, rfl⟩
  · exact ⟨entry, entry.closedByGuest, h, rfl⟩

theorem get_foldl_remove (ids : List CalloutId) (t : CalloutTable) (x : CalloutId) :
    (ids.foldl remove t).get x = if x ∈ ids then none else t.get x := by
  induction ids generalizing t with
  | nil => simp
  | cons id ids ih =>
    rw [List.foldl_cons, ih, get_remove]
    by_cases hx : x = id <;> by_cases hmem : x ∈ ids <;> simp [hx, hmem]

theorem next_foldl_remove (ids : List CalloutId) (t : CalloutTable) :
    (ids.foldl remove t).next = t.next := by
  induction ids generalizing t with
  | nil => rfl
  | cons id ids ih => rw [List.foldl_cons, ih]; rfl

theorem get_of_reserveWith {fuel : ℕ} (h : reserveWith fuel t = some (id, t')) :
    t.get id = none ∧ t'.entries = t.entries := by
  induction fuel generalizing t with
  | zero => cases h
  | succ fuel ih =>
    unfold reserveWith at h
    split at h
    · rename_i hnone
      cases h
      exact ⟨hnone, rfl⟩
    · have hrest := ih h
      exact hrest

/-- A reserved identifier is not open, and no entry changes. -/
theorem get_of_reserve (h : t.reserve = some (id, t')) :
    t.get id = none ∧ ∀ x, t'.get x = t.get x := by
  obtain ⟨hnone, hentries⟩ := get_of_reserveWith h
  exact ⟨hnone, fun x => by unfold get; rw [hentries]⟩

/-- The entries after a callout was asked for under a reserved identifier. -/
theorem get_of_asked (h : t.reserve = some (id, t')) (accepted : Bool) (entry : Callout)
    (x : CalloutId) : (if accepted then t'.enter id entry else t').get x =
      if accepted ∧ x = id then some entry else t.get x := by
  have hsame := (get_of_reserve h).2 x
  cases accepted with
  | true => simp [get_enter, hsame]
  | false => simp [hsame]

/-- The counter is the identifier that is reserved when it is not open. -/
theorem reserve_of_get_next (hnext : t.get t.next = none) (h : t.reserve = some (id, t')) :
    id = t.next ∧ t' = t.advance := by
  unfold reserve reserveWith at h
  rw [hnext] at h
  cases h
  exact ⟨rfl, rfl⟩

theorem next_advance (t : CalloutTable) (h : t.next.val + 1 < 2 ^ 32) :
    t.advance.next.val = t.next.val + 1 := by
  unfold advance Id.checkedSucc
  rw [dif_pos h]
  rfl

theorem mem_madeBy {caller : ContextId} {kind : CalloutKind} :
    (id, kind) ∈ t.madeBy caller ↔
      ∃ entry, t.get id = some entry ∧ entry.caller = caller ∧ entry.kind = kind := by
  unfold madeBy get
  simp only [List.mem_map, List.mem_filter, decide_eq_true_eq, Prod.exists, Prod.mk.injEq,
    ExtTreeMap.mem_toList_iff_getElem?_eq_some]
  constructor
  · rintro ⟨_, entry, ⟨hget, hcaller⟩, rfl, rfl⟩
    exact ⟨entry, hget, hcaller, rfl⟩
  · rintro ⟨entry, hget, hcaller, rfl⟩
    exact ⟨id, entry, ⟨hget, hcaller⟩, rfl, rfl⟩

theorem mem_madeBy_fst {caller : ContextId} :
    id ∈ (t.madeBy caller).map (·.1) ↔ ∃ entry, t.get id = some entry ∧ entry.caller = caller := by
  simp only [List.mem_map, Prod.exists, exists_and_right, exists_eq_right, mem_madeBy]
  constructor
  · rintro ⟨kind, entry, hget, hcaller, -⟩
    exact ⟨entry, hget, hcaller⟩
  · rintro ⟨entry, hget, hcaller⟩
    exact ⟨entry.kind, entry, hget, hcaller, rfl⟩

/-- The callouts of one caller come in ascending order. -/
theorem madeBy_ascending (t : CalloutTable) (caller : ContextId) :
    ((t.madeBy caller).map (·.1)).Pairwise fun a b => a.val < b.val := by
  unfold madeBy
  rw [List.map_map, List.pairwise_map]
  refine (ExtTreeMap.ordered_keys_toList.filter _).imp fun hlt => ?_
  exact Nat.compare_eq_lt.1 hlt

end CalloutTable

/-- One callout that a guest has open, as the guest reports it. -/
structure OpenCallout where
  callout : CalloutId
  caller : ContextId
  root : ContextId
  kind : CalloutKind
  deriving DecidableEq

def Callout.report (entry : Callout) (callout : CalloutId) : OpenCallout :=
  ⟨callout, entry.caller, entry.root, entry.kind⟩

end ProxyWasmHost
