/-
  The end of a context: what `on_done`, `on_log` and `on_delete` do, and the order in
  which a deletion ends the callouts of its context.
-/
import ProxyWasmHost.CallScope.Methods

namespace ProxyWasmHost

open Prog Session Prologue

variable {aim : Aim} {s : Session} {α β : Type}

/-! ## The end of a context -/

/-- The callbacks at the end of a context, which run for a refused one too. -/
theorem mayBegin_of_afterRefusal {c : ContextId} {callback : Callback} (hs : s.Live)
    (hnone : s.abi.delivery = none) (hc : (s.abi.contexts.get c).isSome)
    (hafter : callback.afterRefusal = true)
    (hserves : s.abi.contexts.contextType c = some .stream → s.Serves c) :
    s.MayBegin aim callback c where
  idle := hs.idle
  live := hs.live
  known := hc
  allowed := .inl hafter
  belongs id entry hid := by rw [hnone] at hid; cases hid
  family kind hkind := by
    rw [Callback.family_of_afterRefusal hafter] at hkind
    cases hkind
  served _ := hserves
  vmStart hcallback := by rw [hcallback] at hafter; cases hafter

theorem LetThrough.mayBegin {s' : Session} {c : ContextId} {callback : Callback}
    (h : LetThrough c s s') (hs : s.Ready) (hc : (s.abi.contexts.get c).isSome)
    (hafter : callback.afterRefusal = true) : s'.MayBegin aim callback c := by
  refine mayBegin_of_afterRefusal (h.ready hs).toLive (h.ready hs).undelivered ?_ hafter fun hc => ?_
  · rw [h.abi]; exact hc
  · rw [h.abi] at hc; exact h.serves hc

theorem onDone_acts {c : ContextId} {code : Code} (hs : s.Rested) (haim : aim = .done c) :
    Acts aim s (onDone c code) := by
  unfold onDone
  refine bind_requireLive hs fun hready => ?_
  refine .bind (requireServedStream_reaches hs) fun _ s1 hlet => ?_
  have hready1 := hlet.ready hready
  refine bind_check hready1.rested require_finds fun _ htype => ?_
  have hget : (s.abi.contexts.get c).isSome := by
    rw [hlet.abi] at htype
    exact ContextTable.isSome_of_contextType htype
  refine .bind (run_reaches hready1 (hlet.mayBegin hready hget rfl))
    fun value s2 ⟨_, hready2⟩ => ?_
  refine bind_check hready2.rested .quiet fun done _ => ?_
  exact .bind_modify (.state s2 _ haim) (.pure (hready2.of_mapContexts _).rested)

theorem onLog_acts {c : ContextId} {code : Code} (hs : s.Rested) :
    Acts aim s (onLog c code) := by
  unfold onLog
  refine bind_requireLive hs fun hready => ?_
  refine .bind (requireServedStream_reaches hs) fun _ s1 hlet => ?_
  have hready1 := hlet.ready hready
  refine bind_check hready1.rested requireDone_finds fun _ hget => ?_
  rw [hlet.abi] at hget
  exact .bind (run_reaches hready1 (hlet.mayBegin hready hget rfl))
    fun _ s2 ⟨_, hready2⟩ => .pure hready2.rested

section Deletion

variable {c root : ContextId} {codes : CalloutId → Code} {code : Code}

/-- A guest in the middle of the deletion of `c`, in a scope that serves it. -/
structure Deleting (c : ContextId) (s : Session) : Prop extends s.Live where
  marked : s.abi.deleting = some c
  undelivered : s.abi.delivery = none
  serves : s.abi.contexts.contextType c = some .stream → s.Serves c

/-- From `s`, the deletion of `c` reaches `Q`, or leaves a poisoned guest, or one whose
    callback never returned. -/
abbrev Deletes (c : ContextId) (s : Session) (m : Method α) (Q : α → Session → Prop) : Prop :=
  Follows (Session.Step (.delete c)) m Q (fun _ s' => s'.host.poisoned = true)
    (fun s' => s'.abi.currentCallback.isSome) s

theorem Deleting.of_ran {s' : Session} {x : ContextId} (h : Deleting c s) (hran : Ran x s s') :
    Deleting c s' :=
  ⟨hran.live, hran.frame.deleting.trans h.marked, hran.frame.delivery.trans h.undelivered, by
    unfold Session.Serves
    rw [hran.frame.contexts.contextType, hran.frame.scope]
    exact h.serves⟩

theorem dropOpenCallouts_deletes (hs : Deleting c s) :
    Deletes c s (dropOpenCallouts c) fun _ s' => s' =
      s.mapCallouts fun table => ((table.madeBy c).map (·.1)).foldl .remove table :=
  .bind_read (.bind_act (.dropped rfl hs.idle hs.live) (.pure rfl))

/-- The callouts that `failEach` still has to fail belong to the root it fails them
    under. -/
def Belong (root : ContextId) (rest : List (CalloutId × CalloutKind)) (s : Session) : Prop :=
  ∀ id kind entry, (id, kind) ∈ rest → s.abi.callouts.get id = some entry → entry.root = root

/-- A guest in which the callouts of `root` may be failed. -/
structure Failing (c root : ContextId) (s : Session) : Prop extends Deleting c s where
  root_live : s.abi.contexts.contextType root = some .root
  root_self : s.abi.contexts.rootOf root = some root
  accepted : s.abi.contexts.rejectionOf root = none

theorem Failing.of_ran {s' : Session} {x : ContextId} (h : Failing c root s) (hran : Ran x s s') :
    Failing c root s' :=
  ⟨h.toDeleting.of_ran hran, (hran.frame.contexts.contextType root).trans h.root_live,
    (hran.frame.contexts.rootOf root).trans h.root_self,
    (hran.frame.contexts.rejectionOf root).trans h.accepted⟩

theorem Belong.of_ran {s' : Session} {rest : List (CalloutId × CalloutKind)}
    (h : Belong root rest s) (hran : Ran root s s')
    (hroot : s.abi.contexts.rootOf root = some root) : Belong root rest s' := by
  intro id kind entry hmem hget
  rcases (hran.confined root hroot).callouts id entry hget with ⟨hentry, -⟩ |
    ⟨entry₀, hget₀, -, hentry⟩
  · exact hentry
  · exact hentry ▸ h id kind entry₀ hmem hget₀

/-- The delivery of a failure, which announces no header, no body and no message. -/
def failure (root : ContextId) (id : CalloutId) : CalloutKind → Delivered
  | .httpCall =>
    { context := root
      callout := some id
      delivery := .httpCallResponse id .failed
      callback := .httpCallResponse
      params := [root.wire, id.wire, 0, 0, 0]
      ends := true }
  | .grpcCall | .grpcStream =>
    { context := root
      callout := some id
      delivery := .grpcClose id ⟨cancelled, []⟩
      callback := .grpcClose
      params := [root.wire, id.wire, cancelled]
      ends := true }

/-- The loop of the deletion, with the delivery it makes for each callout. -/
theorem failEach_cons (root : ContextId) (codes : CalloutId → Code) (id : CalloutId)
    (kind : CalloutKind) (rest : List (CalloutId × CalloutKind)) :
    failEach root codes ((id, kind) :: rest) = (do
      match ← Prog.read (·.abi.callouts.get id) with
      | none => failEach root codes rest
      | some _ => do
        deliver (failure root id kind) (codes id)
        let ended ← failEach root codes rest
        return id :: ended) := by
  cases kind <;> rfl

/-- One failure delivery. -/
theorem deliverFailure_deletes {call : Delivered} {id : CalloutId} (hs : Failing c root s)
    (hbelong : ∀ entry, s.abi.callouts.get id = some entry → entry.root = root)
    (hcontext : call.context = root) (hcallout : call.callout = some id)
    (hdelivery : call.delivery.callout = some id) (hplain : call.callback.ofOneStream = false)
    (hlater : call.callback ≠ .vmStart) :
    Deletes c s (deliver call code) fun _ s' => Ran root s s' := by
  subst hcontext
  refine (deliver_follows hs.toLive hs.undelivered
    ⟨?_, hs.accepted, ?_, ?_, ?_, hplain, hlater⟩).mono ?_ ?_ ?_
  · exact ContextTable.isSome_of_contextType hs.root_live
  · exact hdelivery.trans hcallout.symm
  · intro id' entry hid hget
    rw [hcallout] at hid
    cases hid
    exact hbelong entry hget
  · exact fun _ _ _ => .inr ⟨c, rfl⟩
  · exact fun _ _ hran => hran
  · exact fun _ _ hfailed => hfailed.poisoned
  · exact fun _ hrunning => hrunning

/-- **The loop of the failure deliveries**, on the callouts that are left. -/
theorem failEach_deletes (rest : List (CalloutId × CalloutKind)) (hs : Failing c root s)
    (hbelong : Belong root rest s) :
    Deletes c s (failEach root codes rest) fun _ s' =>
      Failing c root s' ∧ s.abi.contexts.Keeps s'.abi.contexts := by
  induction rest generalizing s with
  | nil => exact .pure ⟨hs, .refl _⟩
  | cons entry rest ih =>
    obtain ⟨id, kind⟩ := entry
    rw [failEach_cons]
    refine .bind_read ?_
    have hrest : Belong root rest s := fun x k e hmem => hbelong x k e (.tail _ hmem)
    cases hget : s.abi.callouts.get id with
    | none => exact ih hs hrest
    | some entry =>
      have hentry : ∀ e, s.abi.callouts.get id = some e → e.root = root :=
        fun e he => hbelong id kind e (.head _) he
      refine .bind (deliverFailure_deletes hs hentry ?_ ?_ ?_ ?_ ?_) fun _ s' hran => ?_
      · cases kind <;> rfl
      · cases kind <;> rfl
      · cases kind <;> rfl
      · cases kind <;> rfl
      · cases kind <;> rintro ⟨⟩
      · refine .bind (ih (hs.of_ran hran) (hrest.of_ran hran hs.root_self)) ?_
        exact fun _ _ ⟨hfailing, hkeeps⟩ => .pure ⟨hfailing, hran.frame.contexts.trans hkeeps⟩

/-- The callouts of `c` belong to `root`. -/
def Anchored (c root : ContextId) (s : Session) : Prop :=
  ∀ id entry, s.abi.callouts.get id = some entry → entry.caller = c → entry.root = root

theorem failOpenCallouts_deletes (hs : Deleting c s)
    (hroot : s.abi.contexts.contextType root = some .root)
    (hself : s.abi.contexts.rootOf root = some root) (hanchored : Anchored c root s) :
    Deletes c s (failOpenCallouts c root codes) fun _ s' =>
      Deleting c s' ∧ s.abi.contexts.Keeps s'.abi.contexts := by
  unfold failOpenCallouts
  refine .bind_read (.bind_read ?_)
  split
  · refine (dropOpenCallouts_deletes hs).mono ?_ (fun _ _ he => he) fun _ hu => hu
    rintro _ _ rfl
    exact ⟨⟨⟨hs.idle, hs.live⟩, hs.marked, hs.undelivered, hs.serves⟩, .refl _⟩
  · rename_i haccepted
    refine (failEach_deletes _ ⟨hs, hroot, hself, not_not.1 haccepted⟩ ?_).mono
      (fun _ _ ⟨hfailing, hkeeps⟩ => ⟨hfailing.toDeleting, hkeeps⟩) (fun _ _ he => he)
      fun _ hu => hu
    intro id kind entry hmem hget
    obtain ⟨entry', hget', hcaller, -⟩ := CalloutTable.mem_madeBy.1 hmem
    rw [hget] at hget'
    cases hget'
    exact hanchored id entry hget hcaller

/-- The callback of the deletion itself. -/
theorem runDelete_deletes (hs : Deleting c s) (hc : (s.abi.contexts.get c).isSome) :
    Deletes c s (run c .delete [c.wire] code 0) fun _ s' => Ran c s s' := by
  refine (run_follows (mayBegin_of_afterRefusal hs.toLive hs.undelivered hc rfl hs.serves)).mono
    ?_ ?_ ?_
  · exact fun _ _ hran => hran
  · exact fun _ _ hunwound => hunwound.poisoned
  · exact fun _ hrunning => hrunning.2

/-- The callouts of `c` still belong to `root` after a callback for `c`. -/
theorem Anchored.of_ran {s' : Session} (h : Anchored c root s) (hran : Ran c s s')
    (hroot : s.abi.contexts.rootOf c = some root) : Anchored c root s' := by
  intro id entry hget hcaller
  rcases (hran.confined root hroot).callouts id entry hget with ⟨hentry, -⟩ |
    ⟨entry₀, hget₀, hcaller₀, hroot₀⟩
  · exact hentry
  · exact hroot₀ ▸ h id entry₀ hget₀ (hcaller₀.trans hcaller)

/-- The session in which `c` has left the table. -/
theorem Deleting.of_remove {isRoot : Bool} (hs : Deleting c s) :
    Deleting c (s.mapAbi (·.removeContext c isRoot)) := by
  have hcontexts : ∀ abi : AbiState, (abi.removeContext c isRoot).contexts =
      abi.contexts.remove c := by intro abi; cases isRoot <;> rfl
  refine ⟨⟨?_, hs.live⟩, ?_, ?_, ?_⟩
  · cases isRoot <;> exact hs.idle
  · cases isRoot <;> exact hs.marked
  · cases isRoot <;> exact hs.undelivered
  · intro hstream
    unfold ContextTable.contextType at hstream
    rw [abi_mapAbi, hcontexts, ContextTable.get_remove, if_pos rfl] at hstream
    cases hstream

theorem bind_removeContext {f : Unit → Method α} {Q : α → Session → Prop} {isRoot : Bool}
    (hs : Deleting c s) (hknown : (s.abi.contexts.get c).isSome)
    (hroot : isRoot = (s.abi.contexts.parent c).isNone)
    (hchildren : s.abi.contexts.hasChildren c = false)
    (hf : Deleting c (s.mapAbi (·.removeContext c isRoot)) →
      Deletes c (s.mapAbi (·.removeContext c isRoot)) (f ()) Q) :
    Deletes c s (removeContext c isRoot >>= f) Q :=
  .bind_act (.deleted rfl hs.idle hs.live hs.marked hknown hroot hchildren) (hf hs.of_remove)

/-- What a deletion that got through leaves. -/
structure Emptied (c : ContextId) (s : Session) : Prop extends Deleting c s where
  empty : ∀ id entry, s.abi.callouts.get id = some entry → entry.caller ≠ c

/-- The drop that ends a deletion. -/
theorem lastDrop_deletes {β : Type} (hs : Deleting c s) {f : List CalloutId → β} :
    Deletes c s (do
      let dropped ← dropOpenCallouts c
      return f dropped) fun _ s' => Emptied c s' := by
  refine .bind (dropOpenCallouts_deletes hs) ?_
  rintro _ _ rfl
  refine .pure ⟨⟨⟨hs.idle, hs.live⟩, hs.marked, hs.undelivered, hs.serves⟩,
    fun id entry hget hcaller => ?_⟩
  rw [callouts_mapCallouts, CalloutTable.get_foldl_remove] at hget
  split at hget
  · cases hget
  · rename_i hmem
    exact hmem (CalloutTable.mem_madeBy_fst.2 ⟨entry, hget, hcaller⟩)

/-- A guest in which `c` may be deleted: it has no child, and its callouts are its
    root's. -/
structure Deletable (c : ContextId) (s : Session) : Prop where
  wf : s.abi.contexts.WellFormed
  known : (s.abi.contexts.get c).isSome
  children : s.abi.contexts.hasChildren c = false
  anchored : ∀ root, s.abi.contexts.rootOf c = some root → Anchored c root s

/-- **The deletion of a root**, whose callouts fail first. -/
theorem deleteRoot_deletes (hs : Deleting c s) (hc : Deletable c s)
    (hparent : s.abi.contexts.parent c = none) :
    Deletes c s (delete c codes code) fun _ s' => Emptied c s' := by
  have hself : s.abi.contexts.rootOf c = some c := by
    rw [ContextTable.rootOf_of_get hc.known, hparent, Option.getD_none]
  have hroot := hc.wf.contextType_of_rootOf hself
  unfold delete
  refine .bind_read ?_
  dsimp only
  rw [hparent]
  refine .bind (failOpenCallouts_deletes hs hroot hself (hc.anchored c hself)) ?_
  rintro ended s1 ⟨hs1, hkeeps1⟩
  refine .bind (runDelete_deletes hs1 (by rw [hkeeps1.isSome]; exact hc.known)) fun _ s2 hran => ?_
  have hs2 := hs1.of_ran hran
  have hkeeps2 := hkeeps1.trans hran.frame.contexts
  refine bind_removeContext hs2 ?_ ?_ (hkeeps2.hasChildren hc.children) fun hs3 => ?_
  · rw [hkeeps2.isSome]; exact hc.known
  · rw [hkeeps2.parent_eq, hparent]
  · exact lastDrop_deletes hs3

/-- **The deletion of a stream**, whose callouts fail once it has left the table. -/
theorem deleteStream_deletes (hs : Deleting c s) (hc : Deletable c s)
    (hparent : s.abi.contexts.parent c = some root) :
    Deletes c s (delete c codes code) fun _ s' => Emptied c s' := by
  have hrootOf : s.abi.contexts.rootOf c = some root := by
    rw [ContextTable.rootOf_of_get hc.known, hparent, Option.getD_some]
  have hroot := hc.wf.contextType_of_rootOf hrootOf
  have hne : root ≠ c := by
    rintro rfl
    rw [hc.wf.parent_eq_none hroot] at hparent
    cases hparent
  unfold delete
  refine .bind_read ?_
  dsimp only
  rw [hparent]
  refine .bind (M := fun _ s' => s' = s) (.pure rfl) ?_
  rintro ended _ rfl
  refine .bind (runDelete_deletes hs hc.known) fun _ s1 hran => ?_
  have hs1 := hs.of_ran hran
  have hkeeps := hran.frame.contexts
  have hget : (s1.abi.contexts.remove c).get root = s1.abi.contexts.get root := by
    rw [ContextTable.get_remove, if_neg hne]
  have hroot' : (s1.abi.contexts.remove c).contextType root = some .root := by
    unfold ContextTable.contextType
    rw [hget]
    exact (hkeeps.contextType root).trans hroot
  have hself' : (s1.abi.contexts.remove c).rootOf root = some root := by
    unfold ContextTable.rootOf
    rw [hget]
    exact (hkeeps.rootOf root).trans (hc.wf.rootOf_of_root hroot)
  have hanchored := (hc.anchored root hrootOf).of_ran hran hrootOf
  refine bind_removeContext hs1 ?_ ?_ (hkeeps.hasChildren hc.children) fun hs2 => ?_
  · rw [hkeeps.isSome]; exact hc.known
  · rw [hkeeps.parent_eq, hparent]
  · refine .bind (failOpenCallouts_deletes hs2 hroot' hself' hanchored) ?_
    rintro failed s3 ⟨hs3, -⟩
    exact lastDrop_deletes hs3

/-- **A deletion**: it marks its context, ends its callouts, and takes the mark back. -/
theorem onDelete_acts (hs : s.Rested) (hwf : s.abi.contexts.WellFormed)
    (hanchored : s.Ready → ∀ root, s.abi.contexts.rootOf c = some root → Anchored c root s) :
    Acts (.delete c) s (onDelete c codes code) := by
  unfold onDelete
  refine bind_requireLive hs fun hready => ?_
  refine .bind (requireServedStream_reaches hs) fun _ s1 hlet => ?_
  have hready1 := hlet.ready hready
  refine bind_check hready1.rested requireDeletable_finds fun _ ⟨hget, hchildren⟩ => ?_
  refine .bind_modify (.marked rfl hready1.unmarked) ?_
  have hdeleting : Deleting c (s1.mapAbi fun abi => { abi with deleting := some c }) := by
    refine ⟨⟨hready1.idle, hready1.live⟩, rfl, hready1.undelivered, fun hstream => ?_⟩
    exact hlet.serves (hlet.abi ▸ hstream)
  have hdeletable : Deletable c (s1.mapAbi fun abi => { abi with deleting := some c }) := by
    refine ⟨?_, hget, hchildren, fun root hroot => ?_⟩
    · rw [abi_mapAbi, hlet.abi]; exact hwf
    · have hcallouts := hanchored hready root (hlet.abi ▸ hroot)
      intro id entry hget
      rw [abi_mapAbi, hlet.abi] at hget
      exact hcallouts id entry hget
  have hdelete : Deletes c (s1.mapAbi fun abi => { abi with deleting := some c })
      (delete c codes code) fun _ s' => Emptied c s' := by
    cases hparent : s1.abi.contexts.parent c with
    | none => exact deleteRoot_deletes hdeleting hdeletable hparent
    | some root => exact deleteStream_deletes hdeleting hdeletable hparent
  refine .bind_attempt (hdelete.mono (fun _ _ hq => hq) (fun _ _ he => he)
    fun _ hu => .of_running hu) ?_ ?_
  · intro ended s2 hemptied
    refine .bind_modify (.unmarked rfl (.inr ⟨hemptied.marked, hemptied.empty⟩)) ?_
    exact .pure (Ready.rested ⟨⟨hemptied.idle, hemptied.live⟩, rfl, hemptied.undelivered⟩)
  · exact fun e s2 hpoisoned =>
      .bind_modify (.unmarked rfl (.inl hpoisoned)) (.throw (.of_poisoned hpoisoned))

end Deletion

end ProxyWasmHost
