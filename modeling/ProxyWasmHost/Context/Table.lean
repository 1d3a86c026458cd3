/-
  The table of live contexts, and what each one holds.
-/
import ProxyWasmHost.Services

namespace ProxyWasmHost

open Std

structure ContextEntry where
  contextType : ContextType
  streamKind : Option StreamKind
  parent : Option ContextId
  state : ContextState
  rejected : Bool
  plugin : Option PluginConfig
  /-- In milliseconds. -/
  tickPeriod : Option ℕ
  deriving DecidableEq

/-- The live contexts of one instance. -/
structure ContextTable where
  entries : ExtTreeMap ContextId ContextEntry
  next : ContextId
  effective : Option ContextId
  vmRejected : Option ContextId

namespace ContextTable

def new : ContextTable := ⟨∅, .min, none, none⟩

def get (t : ContextTable) (id : ContextId) : Option ContextEntry := t.entries[id]?

/-- Changes the entry of `id`, if there is one. -/
def modify (t : ContextTable) (id : ContextId) (f : ContextEntry → ContextEntry) : ContextTable :=
  { t with entries := t.entries.modify id f }

def contextType (t : ContextTable) (id : ContextId) : Option ContextType :=
  (t.get id).map (·.contextType)

def streamKind (t : ContextTable) (id : ContextId) : Option StreamKind :=
  (t.get id).bind (·.streamKind)

def parent (t : ContextTable) (id : ContextId) : Option ContextId := (t.get id).bind (·.parent)

def rootOf (t : ContextTable) (id : ContextId) : Option ContextId :=
  (t.get id).map fun entry => entry.parent.getD id

def state (t : ContextTable) (id : ContextId) : Option ContextState := (t.get id).map (·.state)

/-- The entry of a context that was just created. -/
def fresh (contextType : ContextType) (parent : Option ContextId) : ContextEntry where
  contextType := contextType
  streamKind := none
  parent := parent
  state := .active
  rejected := false
  plugin := none
  tickPeriod := none

/-- The type of a new context, whose parent has to be a root. -/
def childType (t : ContextTable) : Option ContextId → Except GuestError ContextType
  | none => .ok .root
  | some parent =>
    match t.contextType parent with
    | some .root => .ok .stream
    | some .stream => .error (.context parent .notRoot)
    | none => .error (.context parent .unknown)

def create (t : ContextTable) (parent : Option ContextId) :
    Except GuestError (ContextId × ContextTable) := do
  let contextType ← t.childType parent
  let id := t.next
  match id.checkedSucc with
  | none => .error .contextIdsExhausted
  | some successor =>
    let entries := t.entries.insert id (fresh contextType parent)
    return (id, { t with next := successor, entries })

def setStreamKind (t : ContextTable) (id : ContextId) (kind : StreamKind) : ContextTable :=
  t.modify id fun entry => { entry with streamKind := some kind }

def setState (t : ContextTable) (id : ContextId) (state : ContextState) : ContextTable :=
  t.modify id fun entry => { entry with state }

def hasChildren (t : ContextTable) (id : ContextId) : Bool :=
  t.contextType id == some .root && t.entries.toList.any fun entry => entry.2.parent == some id

def reject (t : ContextTable) (root : ContextId) : ContextTable :=
  t.modify root fun entry => { entry with rejected := true }

def isRejected (t : ContextTable) (id : ContextId) : Bool :=
  match (t.rootOf id).bind t.get with
  | some entry => entry.rejected
  | none => false

def rejectVm (t : ContextTable) (root : ContextId) : ContextTable :=
  { t with vmRejected := some root }

/-- The callback that refused `id`, with a VM rejection outranking a root
    rejection. -/
def rejectionOf (t : ContextTable) (id : ContextId) : Option Callback :=
  if t.vmRejected.isSome then some .vmStart
  else if t.isRejected id then some .configure else none

def remove (t : ContextTable) (id : ContextId) : ContextTable :=
  match t.get id with
  | none => t
  | some _ =>
    { t with
      entries := t.entries.erase id
      effective := if t.effective = some id then none else t.effective }

/-- Whether `id` became effective, and the table then. -/
def setEffective (t : ContextTable) (id : ContextId) : Bool × ContextTable :=
  match t.get id with
  | some _ => (true, { t with effective := some id })
  | none => (false, t)

/-- Whether the effective context was pending, and the table with it done. -/
def done (t : ContextTable) : Bool × ContextTable :=
  match t.effective with
  | none => (false, t)
  | some id =>
    if t.state id = some .pending then (true, t.setState id .done) else (false, t)

def setPlugin (t : ContextTable) (root : ContextId) (plugin : PluginConfig) : ContextTable :=
  if t.contextType root = some .root then
    t.modify root fun entry => { entry with plugin := some plugin }
  else t

/-- The plugin of the root context of `id`. -/
def plugin (t : ContextTable) (id : ContextId) : Option PluginConfig := do
  let root ← t.rootOf id
  (← t.get root).plugin

/-- The root context whose plugin has `rootId`. -/
def rootWithId (t : ContextTable) (rootId : Bytes) : Option ContextId :=
  t.entries.toList.findSome? fun entry =>
    match entry.2.plugin with
    | some plugin => if plugin.rootId = rootId then some entry.1 else none
    | none => none

/-- Records a tick period on the root context of `id`. -/
def setTickPeriod (t : ContextTable) (id : ContextId) (period : Option ℕ) :
    Bool × ContextTable :=
  match t.rootOf id with
  | none => (false, t)
  | some root =>
    match t.get root with
    | some _ => (true, t.modify root fun entry => { entry with tickPeriod := period })
    | none => (false, t)

/-- The tick period of a root context. -/
def tickPeriod (t : ContextTable) (root : ContextId) : Option ℕ := do
  let entry ← t.get root
  if entry.contextType = .root then entry.tickPeriod else none

/-! ## What the operations do to the entries -/

variable {t t' : ContextTable} {id root x : ContextId} {parent : Option ContextId}
  {entry : ContextEntry}

theorem get_modify (t : ContextTable) (id x : ContextId) (f : ContextEntry → ContextEntry) :
    (t.modify id f).get x = if x = id then (t.get x).map f else t.get x := by
  unfold get modify
  rw [ExtTreeMap.getElem?_modify]
  by_cases hx : x = id
  · rw [if_pos (by rw [hx]; exact compare_self), if_pos hx, hx]
  · rw [if_neg (by rw [Std.LawfulEqOrd.compare_eq_iff_eq]; exact Ne.symm hx), if_neg hx]

theorem get_insert (entries : ExtTreeMap ContextId ContextEntry) (id x : ContextId)
    (entry : ContextEntry) :
    (entries.insert id entry)[x]? = if x = id then some entry else entries[x]? := by
  rw [ExtTreeMap.getElem?_insert]
  by_cases hx : x = id
  · rw [if_pos (by rw [hx]; exact compare_self), if_pos hx]
  · rw [if_neg (by rw [Std.LawfulEqOrd.compare_eq_iff_eq]; exact Ne.symm hx), if_neg hx]

theorem get_remove (t : ContextTable) (id x : ContextId) :
    (t.remove id).get x = if x = id then none else t.get x := by
  unfold remove
  split
  · rename_i hnone
    split
    · rename_i hx; rw [hx, hnone]
    · rfl
  · show (t.entries.erase id)[x]? = _
    rw [ExtTreeMap.getElem?_erase]
    by_cases hx : x = id
    · rw [if_pos (by rw [hx]; exact compare_self), if_pos hx]
    · rw [if_neg (by rw [Std.LawfulEqOrd.compare_eq_iff_eq]; exact Ne.symm hx), if_neg hx]
      rfl

/-- The type of a context with this parent. -/
def typeUnder : Option ContextId → ContextType
  | none => .root
  | some _ => .stream

/-- What a creation does. -/
structure Creates (t : ContextTable) (parent : Option ContextId) (id : ContextId)
    (t' : ContextTable) : Prop where
  id_eq : id = t.next
  next_eq : t'.next.val = id.val + 1
  effective_eq : t'.effective = t.effective
  vmRejected_eq : t'.vmRejected = t.vmRejected
  parent_root : ∀ p, parent = some p → t.contextType p = some .root
  get_eq : ∀ x, t'.get x = if x = id then some (fresh (typeUnder parent) parent) else t.get x

theorem childType_ok {type : ContextType} (h : t.childType parent = .ok type) :
    type = typeUnder parent ∧ ∀ p, parent = some p → t.contextType p = some .root := by
  cases parent with
  | none => cases h; exact ⟨rfl, by rintro p ⟨⟩⟩
  | some p =>
    simp only [childType] at h
    split at h
    · rename_i htype
      cases h
      exact ⟨rfl, by rintro _ ⟨⟩; exact htype⟩
    · cases h
    · cases h

theorem creates_of_create (h : t.create parent = .ok (id, t')) : t.Creates parent id t' := by
  unfold create at h
  cases htype : t.childType parent with
  | error e => rw [htype] at h; cases h
  | ok type =>
    obtain ⟨rfl, hparent⟩ := childType_ok htype
    cases hsucc : t.next.checkedSucc with
    | none => simp only [htype, hsucc] at h; cases h
    | some successor =>
      simp only [htype, hsucc] at h
      cases h
      exact ⟨rfl, Id.val_of_checkedSucc hsucc, rfl, rfl, hparent, fun x => get_insert _ _ x _⟩

theorem entries_remove (h : (t.get id).isSome) : (t.remove id).entries = t.entries.erase id := by
  obtain ⟨entry, hget⟩ := Option.isSome_iff_exists.1 h
  unfold remove
  rw [hget]

theorem entries_setEffective (t : ContextTable) (id : ContextId) :
    (t.setEffective id).2.entries = t.entries := by
  unfold setEffective
  split <;> rfl

theorem get_setEffective (t : ContextTable) (id x : ContextId) :
    (t.setEffective id).2.get x = t.get x := by
  unfold setEffective
  split <;> rfl

/-- A context that is pending and effective is done. -/
theorem done_cases (t : ContextTable) : t.done = (false, t) ∨
    ∃ id, t.effective = some id ∧ t.state id = some .pending ∧
      t.done = (true, t.setState id .done) := by
  unfold done
  split
  · exact .inl rfl
  · rename_i id heff
    split
    · rename_i hpending
      exact .inr ⟨id, heff, hpending, rfl⟩
    · exact .inl rfl

/-- A tick period is set on the root of a context. -/
theorem setTickPeriod_cases (t : ContextTable) (id : ContextId) (period : Option ℕ) :
    t.setTickPeriod id period = (false, t) ∨
    ∃ root entry, t.rootOf id = some root ∧ t.get root = some entry ∧
      t.setTickPeriod id period =
        (true, t.modify root fun entry => { entry with tickPeriod := period }) := by
  unfold setTickPeriod
  split
  · exact .inl rfl
  · rename_i root hroot
    split
    · rename_i entry hget
      exact .inr ⟨root, entry, hroot, hget, rfl⟩
    · exact .inl rfl

theorem effective_done (t : ContextTable) : t.done.2.effective = t.effective := by
  rcases t.done_cases with heq | ⟨id, -, -, heq⟩ <;> rw [heq]
  rfl

theorem effective_setTickPeriod (t : ContextTable) (id : ContextId) (period : Option ℕ) :
    (t.setTickPeriod id period).2.effective = t.effective := by
  rcases t.setTickPeriod_cases id period with heq | ⟨root, entry, -, -, heq⟩ <;> rw [heq]
  rfl

theorem effective_of_setEffective (h : (t.setEffective id).1 = true) :
    (t.setEffective id).2.effective = some id ∧ (t.get id).isSome := by
  unfold setEffective at h ⊢
  split
  · rename_i hget; exact ⟨rfl, by rw [hget]; rfl⟩
  · rename_i hget; rw [hget] at h; cases h

theorem setEffective_of_get (h : t.get id = some entry) :
    t.setEffective id = (true, { t with effective := some id }) := by
  unfold setEffective
  rw [h]

/-- No entry of a table without children of `root` names it as its parent. -/
theorem parent_ne_of_hasChildren (hroot : t.contextType root = some .root)
    (h : t.hasChildren root = false) (hx : t.get x = some entry) : entry.parent ≠ some root := by
  intro hparent
  unfold hasChildren at h
  rw [hroot, beq_self_eq_true, Bool.true_and, List.any_eq_false] at h
  refine h (x, entry) (ExtTreeMap.mem_toList_iff_getElem?_eq_some.2 hx) ?_
  rw [hparent]
  exact beq_self_eq_true _

/-- A change of an entry that keeps its type keeps the types of the table. -/
theorem contextType_modify {f : ContextEntry → ContextEntry}
    (hf : ∀ entry, (f entry).contextType = entry.contextType) :
    (t.modify id f).contextType x = t.contextType x := by
  unfold contextType
  rw [get_modify]
  split
  · rw [Option.map_map]
    exact congrArg (fun g => (t.get x).map g) (funext hf)
  · rfl

theorem rootOf_modify {f : ContextEntry → ContextEntry}
    (hf : ∀ entry, (f entry).parent = entry.parent) :
    (t.modify id f).rootOf x = t.rootOf x := by
  unfold rootOf
  rw [get_modify]
  split
  · rw [Option.map_map]
    exact congrArg (fun g => (t.get x).map g) (funext fun entry => by
      rw [Function.comp_apply, hf])
  · rfl

theorem rejectionOf_eq_none :
    t.rejectionOf x = none ↔ t.vmRejected = none ∧ t.isRejected x = false := by
  unfold rejectionOf
  cases t.vmRejected <;> cases t.isRejected x <;> simp

/-- A rejection depends on the roots and the flags only. -/
theorem isRejected_congr (hroot : t'.rootOf x = t.rootOf x)
    (hflag : ∀ y, (t'.get y).map (·.rejected) = (t.get y).map (·.rejected)) :
    t'.isRejected x = t.isRejected x := by
  unfold isRejected
  rw [hroot]
  cases t.rootOf x with
  | none => rfl
  | some root =>
    have := hflag root
    show (match t'.get root with | some entry => entry.rejected | none => false) =
      match t.get root with | some entry => entry.rejected | none => false
    cases hx' : t'.get root <;> cases hx : t.get root <;> simp_all

/-- A change of an entry that keeps its parent and its flag keeps every rejection. -/
theorem rejectionOf_modify {f : ContextEntry → ContextEntry}
    (hparent : ∀ entry, (f entry).parent = entry.parent)
    (hrejected : ∀ entry, (f entry).rejected = entry.rejected) :
    (t.modify id f).rejectionOf x = t.rejectionOf x := by
  unfold rejectionOf
  rw [isRejected_congr (rootOf_modify hparent) fun y => ?_]
  · rfl
  · rw [get_modify]
    split
    · rw [Option.map_map]
      exact congrArg (fun g => (t.get y).map g) (funext hrejected)
    · rfl

@[simp] theorem contextType_setStreamKind (kind : StreamKind) :
    (t.setStreamKind id kind).contextType x = t.contextType x := by
  unfold setStreamKind
  rw [contextType_modify]
  intro entry
  rfl

theorem streamKind_setStreamKind_self (kind : StreamKind) (h : (t.get id).isSome) :
    (t.setStreamKind id kind).streamKind id = some kind := by
  obtain ⟨entry, hget⟩ := Option.isSome_iff_exists.1 h
  unfold streamKind setStreamKind
  rw [get_modify, if_pos rfl, hget]
  rfl

@[simp] theorem rejectionOf_setStreamKind (kind : StreamKind) :
    (t.setStreamKind id kind).rejectionOf x = t.rejectionOf x := by
  unfold setStreamKind
  rw [rejectionOf_modify]
  · intro entry; rfl
  · intro entry; rfl

@[simp] theorem contextType_setPlugin (plugin : PluginConfig) :
    (t.setPlugin root plugin).contextType x = t.contextType x := by
  unfold setPlugin
  split
  · rw [contextType_modify]
    intro entry
    rfl
  · rfl

@[simp] theorem rejectionOf_setPlugin (plugin : PluginConfig) :
    (t.setPlugin root plugin).rejectionOf x = t.rejectionOf x := by
  unfold setPlugin
  split
  · rw [rejectionOf_modify]
    · intro entry; rfl
    · intro entry; rfl
  · rfl

@[simp] theorem rootOf_setStreamKind (kind : StreamKind) :
    (t.setStreamKind id kind).rootOf x = t.rootOf x := by
  unfold setStreamKind
  rw [rootOf_modify]
  intro entry
  rfl

@[simp] theorem rootOf_setState (state : ContextState) :
    (t.setState id state).rootOf x = t.rootOf x := by
  unfold setState
  rw [rootOf_modify]
  intro entry
  rfl

@[simp] theorem rootOf_reject : (t.reject root).rootOf x = t.rootOf x := by
  unfold reject
  rw [rootOf_modify]
  intro entry
  rfl

@[simp] theorem rootOf_setPlugin (plugin : PluginConfig) :
    (t.setPlugin root plugin).rootOf x = t.rootOf x := by
  unfold setPlugin
  split
  · rw [rootOf_modify]
    intro entry
    rfl
  · rfl

theorem isSome_modify (t : ContextTable) (id x : ContextId) (f : ContextEntry → ContextEntry) :
    ((t.modify id f).get x).isSome = (t.get x).isSome := by
  rw [get_modify]
  split
  · exact Option.isSome_map
  · rfl

theorem isSome_of_contextType {type : ContextType} (h : t.contextType id = some type) :
    (t.get id).isSome := by
  unfold contextType at h
  cases hget : t.get id with
  | none => rw [hget] at h; cases h
  | some entry => rfl

/-- The root of a context is its parent, or itself. -/
theorem rootOf_of_get (h : (t.get id).isSome) : t.rootOf id = some ((t.parent id).getD id) := by
  obtain ⟨entry, hget⟩ := Option.isSome_iff_exists.1 h
  unfold rootOf parent
  rw [hget]
  rfl

theorem hasChildren_eq_false :
    t.hasChildren root = false ↔ t.contextType root = some .root →
      ∀ x entry, t.get x = some entry → entry.parent ≠ some root := by
  constructor
  · intro h hroot x entry
    exact parent_ne_of_hasChildren hroot h
  · intro h
    unfold hasChildren
    cases htype : t.contextType root == some .root with
    | false => rfl
    | true =>
      rw [Bool.true_and, List.any_eq_false]
      intro entry hmem hparent
      exact h (eq_of_beq htype) entry.1 entry.2
        (ExtTreeMap.mem_toList_iff_getElem?_eq_some.1 hmem) (eq_of_beq hparent)

/-- What the entries of a table alone decide. -/
theorem eq_of_entries (h : t'.entries = t.entries) (id : ContextId) :
    t'.get id = t.get id ∧ t'.state id = t.state id ∧ t'.hasChildren id = t.hasChildren id := by
  unfold hasChildren state contextType get
  rw [h]
  exact ⟨rfl, rfl, rfl⟩

/-! ## What a guest cannot change -/

/-- `t'` has the contexts of `t`, and what a host function never changes of each. -/
structure Keeps (t t' : ContextTable) : Prop where
  next : t'.next = t.next
  vmRejected : t'.vmRejected = t.vmRejected
  fixed : ∀ x, (t'.get x).map (fun entry => { entry with state := .active, tickPeriod := none }) =
    (t.get x).map fun entry => { entry with state := .active, tickPeriod := none }

namespace Keeps

variable {t'' : ContextTable}

theorem refl (t : ContextTable) : Keeps t t := ⟨rfl, rfl, fun _ => rfl⟩

theorem trans (h : Keeps t t') (h' : Keeps t' t'') : Keeps t t'' :=
  ⟨h'.next.trans h.next, h'.vmRejected.trans h.vmRejected,
    fun x => (h'.fixed x).trans (h.fixed x)⟩

/-- A component that the state and the tick period of an entry do not touch is kept. -/
theorem map_eq {β : Type} (h : Keeps t t') (g : ContextEntry → β)
    (hg : ∀ entry, g { entry with state := .active, tickPeriod := none } = g entry)
    (x : ContextId) : (t'.get x).map g = (t.get x).map g := by
  have := congrArg (Option.map g) (h.fixed x)
  rw [Option.map_map, Option.map_map] at this
  simpa only [Function.comp_def, hg] using this

theorem contextType (h : Keeps t t') (x : ContextId) : t'.contextType x = t.contextType x :=
  h.map_eq (·.contextType) (fun _ => rfl) x

theorem rootOf (h : Keeps t t') (x : ContextId) : t'.rootOf x = t.rootOf x :=
  h.map_eq (fun entry => entry.parent.getD x) (fun _ => rfl) x

theorem isSome (h : Keeps t t') (x : ContextId) : (t'.get x).isSome = (t.get x).isSome := by
  have := h.map_eq (fun _ => ()) (fun _ => rfl) x
  cases hx' : t'.get x <;> cases hx : t.get x <;> simp_all

/-- An entry of the later table is one of the earlier, but for its state and its
    tick period. -/
theorem entry_of {entry' : ContextEntry} (h : Keeps t t') (hx : t'.get x = some entry') :
    ∃ entry, t.get x = some entry ∧ entry' = { entry with
      state := entry'.state, tickPeriod := entry'.tickPeriod } := by
  have := h.fixed x
  rw [hx] at this
  cases hx0 : t.get x with
  | none => rw [hx0] at this; cases this
  | some entry =>
    rw [hx0] at this
    refine ⟨entry, rfl, ?_⟩
    have hfixed := Option.some.inj this
    obtain ⟨_, _, _, _, _, _, _⟩ := entry
    obtain ⟨_, _, _, _, _, _, _⟩ := entry'
    cases hfixed
    rfl

theorem isRejected (h : Keeps t t') (x : ContextId) : t'.isRejected x = t.isRejected x :=
  isRejected_congr (h.rootOf x) (h.map_eq (·.rejected) fun _ => rfl)

theorem rejectionOf (h : Keeps t t') (x : ContextId) : t'.rejectionOf x = t.rejectionOf x := by
  unfold ContextTable.rejectionOf
  rw [h.vmRejected, h.isRejected]

theorem parent_eq (h : Keeps t t') (x : ContextId) : t'.parent x = t.parent x := by
  have := h.map_eq (·.parent) (fun _ => rfl) x
  unfold ContextTable.parent
  cases hx' : t'.get x <;> cases hx : t.get x <;> simp_all

theorem hasChildren (h : Keeps t t') (hx : t.hasChildren x = false) :
    t'.hasChildren x = false := by
  rw [hasChildren_eq_false] at hx ⊢
  intro hroot y entry hget
  obtain ⟨entry₀, hget₀, hentry⟩ := h.entry_of hget
  rw [hentry]
  exact hx ((h.contextType x).symm.trans hroot) y entry₀ hget₀

/-- A table that differs in the states and the tick periods of its entries only. -/
theorem modify (t : ContextTable) (x : ContextId) (f : ContextEntry → ContextEntry)
    (hf : ∀ entry, { f entry with state := .active, tickPeriod := none } =
      { entry with state := .active, tickPeriod := none }) : Keeps t (t.modify x f) := by
  refine ⟨rfl, rfl, fun y => ?_⟩
  rw [get_modify]
  split
  · rw [Option.map_map]
    exact congrArg (fun g => (t.get y).map g) (funext hf)
  · rfl

theorem done (t : ContextTable) : Keeps t t.done.2 := by
  rcases t.done_cases with heq | ⟨id, -, -, heq⟩ <;> rw [heq]
  · exact refl t
  · exact modify t _ _ fun _ => rfl

theorem setEffective (t : ContextTable) (x : ContextId) : Keeps t (t.setEffective x).2 := by
  unfold ContextTable.setEffective
  split
  · exact ⟨rfl, rfl, fun _ => rfl⟩
  · exact refl t

theorem setTickPeriod (t : ContextTable) (x : ContextId) (period : Option ℕ) :
    Keeps t (t.setTickPeriod x period).2 := by
  rcases t.setTickPeriod_cases x period with heq | ⟨root, entry, -, -, heq⟩ <;> rw [heq]
  · exact refl t
  · exact modify t _ _ fun _ => rfl

end Keeps

end ContextTable

end ProxyWasmHost
