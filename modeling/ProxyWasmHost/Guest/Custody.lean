/-
  The stream state that is lent: where it is after every call of a run, which call gives it
  back, and which loses it.
-/
import ProxyWasmHost.Guest.Lasting
import ProxyWasmHost.Guest.Poisoned

namespace ProxyWasmHost

open Prog Session Prologue

/-! ## Custody -/

/-- What a call does with the stream state that is lent. -/
inductive Move where
  | enters (stream : Lent)
  /-- A start enters with nothing to lend, and drops its scope. -/
  | visits
  | finishes
  | drops
  | forgets
  /-- Takes back what a dropped scope left, of one type or of any. -/
  | takes (type : Option ℕ)
  | stays

/-- What a call lends. -/
def Move.lends : Move → Option Lent
  | .enters stream => some stream
  | _ => none

/-- Where the stream state is that was lent last. -/
inductive Custody where
  | nowhere
  | lent (stream : Lent)
  | forgotten (stream : Lent)
  | left (type value : ℕ)

namespace Custody

def after : Custody → Move → Custody
  | _, .enters stream => .lent stream
  | _, .visits => .nowhere
  | .lent _, .finishes => .nowhere
  | .lent .noStream, .drops => .nowhere
  | .lent (.value type value), .drops => .left type value
  | .lent stream, .forgets => .forgotten stream
  | .left type value, .takes wanted =>
    if wanted = none ∨ wanted = some type then .nowhere else .left type value
  | c, _ => c

/-- What a call gives back. -/
def gives : Custody → Move → Option Lent
  | .lent stream, .finishes => some stream
  | .left type value, .takes wanted =>
    if wanted = none ∨ wanted = some type then some (.value type value) else none
  | _, _ => none

/-- What can still be given back, or is installed. -/
def holds : Custody → Option Lent
  | .nowhere => none
  | .lent stream | .forgotten stream => some stream
  | .left type value => some (.value type value)

/-- What a call loses: only one that enters a scope loses anything. -/
def loses : Custody → Move → Option Lent
  | c, .enters _ | c, .visits => c.holds
  | _, _ => none

def along (c : Custody) (moves : List Move) : Custody := moves.foldl after c

def given (c : Custody) : List Move → List Lent
  | [] => []
  | move :: moves => (c.gives move).toList ++ (c.after move).given moves

def lost (c : Custody) : List Move → List Lent
  | [] => []
  | move :: moves => (c.loses move).toList ++ (c.after move).lost moves

variable {c : Custody} {stream : Lent}

/-- **Nothing is lost in a move**: what a call lends and what was held before it is given back,
    lost, or held after it. -/
theorem conserves (c : Custody) (move : Move) (hstream : stream ≠ .noStream) :
    move.lends.toList.count stream + c.holds.toList.count stream =
      (c.gives move).toList.count stream + (c.loses move).toList.count stream +
        (c.after move).holds.toList.count stream := by
  cases move with
  | enters lent => cases c <;> simp [Move.lends, gives, loses, after, holds, Nat.add_comm]
  | visits => cases c <;> simp [Move.lends, gives, loses, after, holds]
  | drops =>
    rcases c with _ | (_ | _) | _ | _ <;> simp [Move.lends, gives, loses, after, holds]
    exact List.count_eq_zero_of_not_mem fun hmem => hstream (List.mem_singleton.1 hmem)
  | takes wanted =>
    cases c with
    | left type value =>
      simp only [gives, after]
      split <;> simp [Move.lends, loses, holds]
    | _ => simp [Move.lends, gives, loses, after, holds]
  | _ => cases c <;> simp [Move.lends, gives, loses, after, holds]

/-- **Conservation**: what was lent is given back once, lost once, or held. -/
theorem conserved (c : Custody) (moves : List Move) (hstream : stream ≠ .noStream) :
    (moves.filterMap Move.lends).count stream + c.holds.toList.count stream =
      (c.given moves).count stream + (c.lost moves).count stream +
        (c.along moves).holds.toList.count stream := by
  induction moves generalizing c with
  | nil => simp [given, lost, along]
  | cons move moves ih =>
    have hmove := c.conserves move hstream
    have hrest := ih (c.after move)
    have hlends : (move :: moves).filterMap Move.lends =
        move.lends.toList ++ moves.filterMap Move.lends := by
      cases move <;> rfl
    have halong : c.along (move :: moves) = (c.after move).along moves := rfl
    rw [hlends, halong, given, lost, List.count_append, List.count_append, List.count_append]
    omega

end Custody

/-! ## The custody of a session -/

/-- The slots of `s` are those of what is lent at `c`. -/
def Custody.Describes : Custody → Session → Prop
  | .nowhere, s => s.scope = none ∧ s.abi.streamState = none ∧ s.detached = none
  | .lent stream, s => s.scope.map (·.lends) = some stream.type ∧
      s.abi.streamState = some stream ∧ s.detached = none
  | .forgotten stream, s => s.scope = none ∧ s.abi.streamState = some stream ∧ s.detached = none
  | .left type value, s => s.scope = none ∧ s.abi.streamState = none ∧
      s.detached = some (.value type value)

/-- What a call does with what is lent. A start whose root id is in use enters no scope. -/
def Op.move (op : Op) (s : Session) : Move :=
  match op with
  | .enter stream => .enters stream
  | .start plugin _ =>
    if (s.abi.contexts.rootWithId plugin.rootId).isSome then .stays else .visits
  | .finish => .finishes
  | .dropScope => .drops
  | .forgetScope => .forgets
  | .takeStream type => .takes (some type)
  | .takeStreamAny => .takes none
  | _ => .stays

/-- The stream state that a scope reads between two callbacks; none is a panic. -/
def Session.stream (s : Session) : Answer Lent :=
  s.abi.streamState.bind fun lent => if lent.type = s.scope.bind (·.lends) then some lent else none

namespace Custody

variable {c : Custody} {s s' : Session} {stream : Lent} {t : List Event}

/-- What lasts is in the same custody. -/
theorem Describes.lasts (h : c.Describes s) (hlasts : s.Lasts t s') : c.Describes s' := by
  have hnone : s.scope = none → s'.scope = none := by
    intro hscope
    have hlends := hlasts.lends
    rw [hscope] at hlends
    exact Option.map_eq_none_iff.1 hlends
  cases c with
  | nowhere =>
    exact ⟨hnone h.1, hlasts.streamState.trans h.2.1, hlasts.detached.trans h.2.2⟩
  | lent stream =>
    exact ⟨hlasts.lends.trans h.1, hlasts.streamState.trans h.2.1, hlasts.detached.trans h.2.2⟩
  | forgotten stream =>
    exact ⟨hnone h.1, hlasts.streamState.trans h.2.1, hlasts.detached.trans h.2.2⟩
  | left type value =>
    exact ⟨hnone h.1, hlasts.streamState.trans h.2.1, hlasts.detached.trans h.2.2⟩

/-- In a scope the stream state is lent, and nowhere else. -/
theorem Describes.lent_of_scope (h : c.Describes s) (hscope : s.scope.isSome) :
    ∃ stream, c = .lent stream := by
  cases c with
  | lent stream => exact ⟨stream, rfl⟩
  | nowhere | forgotten | left =>
    rw [h.1] at hscope
    cases hscope

theorem Describes.not_lent (h : c.Describes s) (hscope : s.scope = none) :
    c ≠ .lent stream := by
  rintro rfl
  have hlends := h.1
  rw [hscope] at hlends
  cases hlends

/-- A scope finds what it lends, at its type. -/
theorem Describes.stream_eq (h : (lent stream).Describes s) : s.stream = some stream := by
  obtain ⟨hlends, hstream, -⟩ := h
  obtain ⟨scope, hscope, htype⟩ := Option.map_eq_some_iff.1 hlends
  unfold Session.stream
  rw [hstream, hscope, Option.bind_some, Option.bind_some, if_pos htype.symm]

end Custody

/-- What a scope leaves that is dropped with nothing to lend. -/
theorem Custody.describes_dropped {s : Session} (h : (Custody.lent .noStream).Describes s) :
    Custody.nowhere.Describes (dropped s) := by
  refine ⟨scope_dropped s, streamState_dropped s, ?_⟩
  rw [detached_dropped, h.2.1]
  exact h.2.2

/-! ## What a call does -/

/-- What a call does with what is lent: where it is afterwards, whether the reply gives it back,
    and what the guest can reach meanwhile. -/
structure Custody.Tracks (c : Custody) (op : Op) (s : Session) : Prop where
  describes : (c.after (op.move s)).Describes (op.perform.run s).state
  gives : ∀ stream, (op.perform.run s).exit = .ok (.stream (some stream)) ↔
    c.gives (op.move s) = some stream
  reaches : ∀ abi stream, .called abi ∈ (op.perform.run s).trace →
    abi.streamState = some stream → c = .lent stream ∨ op.move s = .visits ∧ stream = .noStream

/-- A program that leaves no trace. -/
abbrev Traceless {ε α : Type} (m : Prog Session Event ε α) : Prop := Along (fun _ t _ => t = []) m

instance : Chain fun (_ : Session) (t : List Event) (_ : Session) => t = [] :=
  ⟨fun _ => rfl, by rintro _ _ _ _ _ rfl rfl; rfl⟩

instance Traceless.modify {ε : Type} {u : Session → Session} :
    Traceless (Prog.modify u : Prog Session Event ε Unit) := Along.modify fun _ => rfl

theorem expectStreamKind_traceless {c : ContextId} {kind : StreamKind} :
    Traceless (expectStreamKind c kind) := by
  unfold expectStreamKind requireLive recordStreamKind
  infer_instance

section Calls

variable {α : Type} {m : Method α} {reply : α → Reply} {c : Custody} {s : Session} {op : Op}

/-- A reply is made of the value. -/
theorem replying_exit {r : Reply} :
    ((replying m reply).run s).exit = .ok r ↔ ∃ a, (m.run s).exit = .ok a ∧ r = reply a := by
  unfold replying
  cases hrun : m.run s with
  | mk exit s' t =>
    cases exit with
    | ok a =>
      rw [bind_of_ok hrun]
      constructor
      · rintro ⟨⟩
        exact ⟨a, rfl, rfl⟩
      · rintro ⟨a, ⟨⟩, rfl⟩
        rfl
    | err e =>
      rw [bind_of_err hrun]
      exact iff_of_false (by rintro ⟨⟩) (by rintro ⟨a, ⟨⟩, -⟩)
    | panicked =>
      rw [bind_of_panicked hrun]
      exact iff_of_false (by rintro ⟨⟩) (by rintro ⟨a, ⟨⟩, -⟩)

theorem Custody.after_stays (c : Custody) : c.after .stays = c := by
  cases c with
  | lent stream => cases stream <;> rfl
  | _ => rfl

theorem Custody.gives_stays (c : Custody) : c.gives .stays = none := by
  cases c <;> rfl

/-- **A call that moves nothing**: it runs in a scope, or leaves no trace. -/
theorem Custody.Tracks.of_lasting (hc : c.Describes s) (hop : op.perform = replying m reply)
    (hmove : op.move s = .stays) (hreply : ∀ a stream, reply a ≠ .stream (some stream))
    (hm : Lasting m) (hscope : s.scope.isSome ∨ Traceless m) : c.Tracks op s := by
  obtain ⟨htrace, hstate⟩ := replying_run m reply s
  have hlasts := hm.along s
  constructor
  · rw [hmove, c.after_stays, hop, hstate]
    exact hc.lasts hlasts
  · intro stream
    rw [hmove, c.gives_stays, hop, replying_exit]
    refine iff_of_false ?_ (by rintro ⟨⟩)
    rintro ⟨a, -, ha⟩
    exact hreply a stream ha.symm
  · intro abi stream hcalled hstream
    rw [hop, htrace] at hcalled
    rcases hscope with hscope | hsilent
    · obtain ⟨lent, rfl⟩ := hc.lent_of_scope hscope
      rw [hlasts.shown _ hcalled abi rfl, hc.2.1] at hstream
      exact .inl (congrArg _ (Option.some.inj hstream))
    · rw [hsilent.along s] at hcalled
      cases hcalled

/-- A call whose run is known and calls nothing. -/
theorem Custody.Tracks.of_run {exit : Exit GuestError Reply} {s' : Session}
    (hrun : op.perform.run s = ⟨exit, s', []⟩) (hdescribes : (c.after (op.move s)).Describes s')
    (hgives : ∀ stream, exit = .ok (.stream (some stream)) ↔ c.gives (op.move s) = some stream) :
    c.Tracks op s := by
  refine ⟨by rw [hrun]; exact hdescribes, by rw [hrun]; exact hgives, fun abi stream hcalled => ?_⟩
  rw [hrun] at hcalled
  cases hcalled

end Calls

section Scopes

variable {c : Custody} {s : Session} {stream : Lent} {op : Op}

/-- The end of a scope gives back what it lends. -/
theorem Custody.Describes.finish (hc : (lent stream).Describes s) : ∃ s',
    ProxyWasmHost.finish.run s = ⟨.ok stream, s', []⟩ ∧ Custody.nowhere.Describes s' := by
  have hfound := hc.stream_eq
  let barred := if s.abi.currentCallback.isSome then s.mapHost .poison else s
  have hdetached : barred.detached = none := by
    show (if s.abi.currentCallback.isSome then s.mapHost .poison else s).detached = none
    split <;> exact hc.2.2
  refine ⟨dropped (takeStreamState barred), ?_, scope_dropped _, streamState_dropped _, ?_⟩
  · unfold ProxyWasmHost.finish
    rw [bind_of_ok_nil (a := s) (r := s) rfl,
      bind_of_ok_nil (a := ()) (r := dropped (takeStreamState barred)) rfl]
    unfold Session.stream at hfound
    dsimp only
    rw [hfound]
    rfl
  · rw [detached_dropped]
    exact hdetached

theorem Custody.tracks_finish (hc : (lent stream).Describes s) : (lent stream).Tracks .finish s := by
  obtain ⟨s', hfinish, hlast⟩ := hc.finish
  have hrun : Op.finish.perform.run s = ⟨.ok (.stream (some stream)), s', []⟩ := bind_of_ok hfinish
  refine .of_run hrun hlast fun stream' => ?_
  show _ ↔ some stream = some stream'
  constructor <;> rintro ⟨⟩ <;> rfl

theorem Custody.tracks_dropScope (hc : (lent stream).Describes s) :
    (lent stream).Tracks .dropScope s := by
  have hrun : Op.dropScope.perform.run s = ⟨.ok .unit, dropped s, []⟩ := rfl
  refine .of_run hrun ?_ fun _ => iff_of_false (by rintro ⟨⟩) ?_
  · cases stream with
    | noStream => exact describes_dropped hc
    | value type value =>
      refine ⟨scope_dropped s, streamState_dropped s, ?_⟩
      rw [detached_dropped, hc.2.1]
  · cases stream <;> rintro ⟨⟩

theorem Custody.tracks_forgetScope (hc : (lent stream).Describes s) :
    (lent stream).Tracks .forgetScope s := by
  refine .of_run rfl ?_ fun _ => iff_of_false (by rintro ⟨⟩) ?_
  · cases stream <;> exact ⟨rfl, hc.2.1, hc.2.2⟩
  · cases stream <;> rintro ⟨⟩

/-- What a scope left is taken by its type, and by no other. -/
theorem takeStream_run (type : ℕ) (s : Session) : (Op.takeStream type).perform.run s =
    if s.detached.bind Lent.type = some type then
      ⟨.ok (.stream s.detached), { s with detached := none }, []⟩
    else ⟨.ok (.stream none), s, []⟩ := by
  have htake : (takeStream type).run s = if s.detached.bind Lent.type = some type then
      ⟨.ok s.detached, { s with detached := none }, []⟩ else ⟨.ok none, s, []⟩ := by
    unfold takeStream
    rw [bind_of_ok_nil (a := s.detached) (r := s) rfl]
    split <;> rfl
  show (replying (takeStream type) .stream).run s = _
  unfold replying
  split at htake
  · rw [bind_of_ok_nil htake, if_pos ‹_›]
    rfl
  · rw [bind_of_ok_nil htake, if_neg ‹_›]
    rfl

theorem Custody.tracks_takeStream (type : ℕ) (hc : c.Describes s) (hscope : s.scope = none) :
    c.Tracks (.takeStream type) s := by
  have hrun := takeStream_run type s
  cases c with
  | lent stream => exact absurd rfl (hc.not_lent hscope)
  | nowhere =>
    rw [hc.2.2, Option.bind_none, if_neg (by rintro ⟨⟩)] at hrun
    exact .of_run hrun hc fun _ => by constructor <;> rintro ⟨⟩
  | forgotten stream =>
    rw [hc.2.2, Option.bind_none, if_neg (by rintro ⟨⟩)] at hrun
    exact .of_run hrun hc fun _ => by constructor <;> rintro ⟨⟩
  | left type' value =>
    obtain ⟨-, hstream, hdetached⟩ := hc
    have htype : (s.detached.bind Lent.type = some type) ↔
        (some type = none ∨ some type = some type') := by
      rw [hdetached]
      constructor
      · exact fun h => .inr h.symm
      · rintro (⟨⟨⟩⟩ | h)
        exact h.symm
    by_cases hwanted : some type = none ∨ some type = some type'
    · rw [if_pos (htype.2 hwanted), hdetached] at hrun
      refine .of_run hrun ?_ fun stream => ?_
      · simp only [Op.move, after, if_pos hwanted]
        exact ⟨hscope, hstream, rfl⟩
      · simp only [Op.move, gives, if_pos hwanted, Exit.ok.injEq, Reply.stream.injEq]
    · rw [if_neg (mt htype.1 hwanted)] at hrun
      refine .of_run hrun ?_ fun stream => ?_
      · simp only [Op.move, after, if_neg hwanted]
        exact ⟨hscope, hstream, hdetached⟩
      · simp only [Op.move, gives, if_neg hwanted]
        constructor <;> rintro ⟨⟩

theorem Custody.tracks_takeStreamAny (hc : c.Describes s) (hscope : s.scope = none) :
    c.Tracks .takeStreamAny s := by
  have hrun : Op.takeStreamAny.perform.run s =
      ⟨.ok (.stream s.detached), { s with detached := none }, []⟩ := rfl
  cases c with
  | lent stream => exact absurd rfl (hc.not_lent hscope)
  | nowhere =>
    refine .of_run hrun ⟨hscope, hc.2.1, rfl⟩ fun stream => ?_
    rw [hc.2.2]
    constructor <;> rintro ⟨⟩
  | forgotten lent =>
    refine .of_run hrun ⟨hscope, hc.2.1, rfl⟩ fun stream => ?_
    rw [hc.2.2]
    constructor <;> rintro ⟨⟩
  | left type value =>
    refine .of_run hrun ⟨hscope, hc.2.1, rfl⟩ fun stream => ?_
    rw [hc.2.2]
    simp only [Op.move, gives, true_or, if_true, Exit.ok.injEq, Reply.stream.injEq]

/-- **A start** whose root id is in use enters no scope; any other enters one with nothing to
    lend, and leaves it. -/
theorem Custody.tracks_start (plugin : PluginConfig) (codes : StartCodes) (hc : c.Describes s) :
    c.Tracks (.start plugin codes) s := by
  cases hused : s.abi.contexts.rootWithId plugin.rootId with
  | some root =>
    have hstart : (start plugin codes).run s =
        ⟨.err (.duplicateRootId plugin.rootId root), s, []⟩ := by
      unfold start contexts
      rw [bind_of_ok_nil (a := s.abi.contexts) (r := s) rfl, hused]
      rfl
    have hrun : (Op.start plugin codes).perform.run s =
        ⟨.err (.duplicateRootId plugin.rootId root), s, []⟩ := bind_of_err hstart
    have hmove : (Op.start plugin codes).move s = .stays := by
      simp only [Op.move, hused, Option.isSome_some, if_true]
    refine .of_run hrun ?_ fun stream => ?_
    · rw [hmove, c.after_stays]
      exact hc
    · rw [hmove, c.gives_stays]
      constructor <;> rintro ⟨⟩
  | none =>
    have hmove : (Op.start plugin codes).move s = .visits := by
      simp only [Op.move, hused, Option.isSome_none, if_false, Bool.false_eq_true]
    let entered : Session := { s.mapAbi fun abi => { abi with streamState := some .noStream } with
      detached := none, scope := some ⟨none, Lent.noStream.type⟩ }
    let body : Method (ContextId × Except (Callback × GuestError) Started) := do
      let root ← onContextCreate none codes.contextCreate
      return (root, ← Prog.attempt (startRun root plugin codes))
    have hlasting : Lasting body := inferInstanceAs (Lasting (onContextCreate none
      codes.contextCreate >>= fun root => Prog.attempt (startRun root plugin codes) >>=
        fun answer => pure (root, answer)))
    have hbody := hlasting.along entered
    have hentered : (lent .noStream).Describes entered := ⟨rfl, rfl, rfl⟩
    have hleft := describes_dropped (hentered.lasts hbody)
    -- What comes after the scope leaves no trace, and lends nothing.
    obtain ⟨exit, s', hstart, hlast⟩ : ∃ exit s', (start plugin codes).run s =
        ⟨exit, s', (body.run entered).trace⟩ ∧ nowhere.Describes s' := by
      unfold start contexts
      rw [bind_of_ok_nil (a := s.abi.contexts) (r := s) rfl, hused]
      dsimp only
      rw [bind_of_ok_nil (a := ()) (r := entered) rfl]
      have hclean : (Prog.cleanedUp body dropped).run entered =
          ⟨(body.run entered).exit, dropped (body.run entered).state, (body.run entered).trace⟩ := rfl
      cases hexit : (body.run entered).exit with
      | ok result =>
        rw [hexit] at hclean
        obtain ⟨root, _ | started⟩ := result
        · rw [bind_of_ok hclean]
          exact ⟨_, _, congrArg _ (List.append_nil _), hleft.lasts (.of_eq rfl rfl rfl)⟩
        · rw [bind_of_ok hclean]
          exact ⟨_, _, congrArg _ (List.append_nil _), hleft⟩
      | err e =>
        rw [hexit] at hclean
        exact ⟨_, _, bind_of_err hclean, hleft⟩
      | panicked =>
        rw [hexit] at hclean
        exact ⟨_, _, bind_of_panicked hclean, hleft⟩
    obtain ⟨htrace, hstate⟩ := replying_run (start plugin codes) .started s
    rw [hstart] at htrace hstate
    constructor
    · show (c.after _).Describes ((replying (start plugin codes) .started).run s).state
      rw [hmove, hstate]
      cases c <;> exact hlast
    · intro stream
      rw [hmove]
      refine iff_of_false (fun hexit => ?_) (by cases c <;> rintro ⟨⟩)
      obtain ⟨_, -, ⟨⟩⟩ := replying_exit.1 hexit
    · intro abi stream hcalled hstream
      replace hcalled : .called abi ∈ ((replying (start plugin codes) .started).run s).trace :=
        hcalled
      rw [htrace] at hcalled
      rw [hbody.shown _ hcalled abi rfl] at hstream
      exact .inr ⟨hmove, (Option.some.inj hstream).symm⟩

/-- **Every call does with what is lent what its move says.** -/
theorem Custody.Describes.tracks (hc : c.Describes s) (hallowed : op.Allowed s) :
    c.Tracks op s := by
  have houtside : op.inScope = false → s.scope = none := by
    intro hop
    have hnone := hallowed.trans hop
    simpa using hnone
  cases op with
  | enter stream =>
    have hrun : (Op.enter stream).perform.run s =
        ⟨.ok .unit, { s.mapAbi fun abi => { abi with streamState := some stream } with
          detached := none, scope := some ⟨none, stream.type⟩ }, []⟩ := rfl
    refine .of_run hrun ?_ fun _ => ?_
    · cases c <;> exact ⟨rfl, rfl, rfl⟩
    · cases c <;> constructor <;> rintro ⟨⟩
  | start plugin codes => exact tracks_start plugin codes hc
  | takeStream type => exact tracks_takeStream type hc (houtside rfl)
  | takeStreamAny => exact tracks_takeStreamAny hc (houtside rfl)
  | setServices services =>
    exact .of_lasting hc rfl rfl (by rintro _ _ ⟨⟩) (Lasting.mapAbi fun _ => rfl) (.inr inferInstance)
  | takeChanges =>
    have hrun : Op.takeChanges.perform.run s = ⟨.ok (.changes s.abi.takeChanges.1),
        s.mapAbi fun _ => s.abi.takeChanges.2, []⟩ := rfl
    refine .of_run hrun ?_ fun _ => iff_of_false (by rintro ⟨⟩) ?_
    · rw [show Op.takeChanges.move s = .stays from rfl, c.after_stays]
      exact hc.lasts (.of_eq rfl rfl rfl)
    · rw [show Op.takeChanges.move s = .stays from rfl, c.gives_stays]
      rintro ⟨⟩
  | expectStreamKind context kind =>
    exact .of_lasting hc rfl rfl (by rintro _ _ ⟨⟩) inferInstance (.inr expectStreamKind_traceless)
  | finish =>
    obtain ⟨stream, rfl⟩ := hc.lent_of_scope hallowed
    exact tracks_finish hc
  | dropScope =>
    obtain ⟨stream, rfl⟩ := hc.lent_of_scope hallowed
    exact tracks_dropScope hc
  | forgetScope =>
    obtain ⟨stream, rfl⟩ := hc.lent_of_scope hallowed
    exact tracks_forgetScope hc
  | onContextCreate | onVmStart | onConfigure | scopeExpectStreamKind | onDone | onDelete
  | onQueueReady =>
    exact .of_lasting hc rfl rfl (by rintro _ _ ⟨⟩) inferInstance (.inl hallowed)
  | _ =>
    refine .of_lasting hc rfl rfl (by rintro _ _ ⟨⟩) ?_ (.inl hallowed)
    simp only [onRequestHeaders, onRequestBody, onRequestTrailers, onResponseHeaders,
      onResponseBody, onResponseTrailers, onNewConnection, onDownstreamData, onUpstreamData,
      onDownstreamConnectionClose, onUpstreamConnectionClose, onLog, onTick, onHttpCallResponse, onGrpcReceiveInitialMetadata, onGrpcReceive,
      onGrpcReceiveTrailingMetadata, onGrpcClose, onForeignFunction]
    infer_instance

end Scopes

/-! ## A group of callbacks -/

/-- Runs a group of callbacks and gives the stream state back, with the answer of the body. A
    body that panics drops the scope. -/
def Guest.with_ {α : Type} (stream : Lent) (body : Method α) :
    Method (Except GuestError α × Lent) := do
  enter stream
  let answer ← Prog.onPanic (Prog.attempt body) dropped
  let stream ← finish
  return (answer, stream)

/-- **A group gives back what was lent to it**, whatever its body answers; when the body panics
    it is left to be taken. -/
theorem Guest.with_gives {α : Type} (stream : Lent) (body : Method α) [hbody : Lasting body]
    (s : Session) :
    (∃ answer, ((Guest.with_ stream body).run s).exit = .ok (answer, stream) ∧
        Custody.nowhere.Describes ((Guest.with_ stream body).run s).state) ∨
      ((Guest.with_ stream body).run s).exit = .panicked ∧
        ((Custody.lent stream).after .drops).Describes ((Guest.with_ stream body).run s).state := by
  let entered : Session := { s.mapAbi fun abi => { abi with streamState := some stream } with
    detached := none, scope := some ⟨none, stream.type⟩ }
  have hentered : (Custody.lent stream).Describes entered := ⟨rfl, rfl, rfl⟩
  have hattempt : Lasting (Prog.attempt body : Method (Except GuestError α)) := inferInstance
  have hlasts := hattempt.along entered
  unfold Guest.with_
  rw [bind_of_ok_nil (a := ()) (r := entered) rfl]
  cases hrun : (Prog.attempt body : Method (Except GuestError α)).run entered with
  | mk exit s₁ t =>
    rw [hrun] at hlasts
    have hlent := hentered.lasts hlasts
    cases exit with
    | ok answer =>
      obtain ⟨s', hfinish, hlast⟩ := hlent.finish
      refine .inl ⟨answer, ?_⟩
      have hbody : (Prog.onPanic (Prog.attempt body : Method (Except GuestError α)) dropped).run
          entered = ⟨.ok answer, s₁, t⟩ := by simp only [Prog.onPanic, hrun]
      rw [bind_of_ok hbody, bind_of_ok_nil hfinish]
      exact ⟨rfl, hlast⟩
    | err e =>
      unfold Prog.attempt at hrun
      dsimp only at hrun
      split at hrun <;> cases hrun
    | panicked =>
      refine .inr ?_
      have hbody : (Prog.onPanic (Prog.attempt body : Method (Except GuestError α)) dropped).run
          entered = ⟨.panicked, dropped s₁, t⟩ := by simp only [Prog.onPanic, hrun]
      rw [bind_of_panicked hbody]
      exact ⟨rfl, (Custody.tracks_dropScope hlent).describes⟩

/-! ## Runs -/

namespace Session

/-- What the calls of a list do with what is lent, one after another. -/
def moves (s : Session) : List Op → List Move
  | [] => []
  | op :: ops => op.move s :: (op.perform.run s).state.moves ops

end Session

/-- The stream state that a call lends. -/
def Call.lends (call : Call) : Option Lent :=
  match call.op with
  | .enter stream => some stream
  | _ => none

/-- The stream state that a call gave back. -/
def Call.givenBack (call : Call) : Option Lent :=
  match call.exit with
  | .ok (.stream stream) => stream
  | _ => none

theorem Call.givenBack_eq_some (call : Call) {stream : Lent} :
    call.givenBack = some stream ↔ call.exit = .ok (.stream (some stream)) := by
  unfold givenBack
  split
  · rename_i given hexit
    rw [hexit]
    simp
  · rename_i hexit
    refine iff_of_false (by rintro ⟨⟩) fun h => hexit _ h

theorem Op.lends_move (op : Op) (s : Session) (exit : Exit GuestError Reply) (t : List Event) :
    (op.move s).lends = Call.lends ⟨op, exit, t⟩ := by
  cases op with
  | start plugin codes =>
    unfold move
    dsimp only
    split <;> rfl
  | _ => rfl

/-- **What is lent is where its moves put it**, and each call gave back what its move gives. -/
theorem Custody.Describes.along {s s' : Session} {calls : List Call}
    (path : Steps Session.Calls s calls s') : ∀ {c : Custody}, c.Describes s →
      (c.along (s.moves (calls.map Call.op))).Describes s' ∧
      c.given (s.moves (calls.map Call.op)) = calls.filterMap Call.givenBack ∧
      (s.moves (calls.map Call.op)).filterMap Move.lends = calls.filterMap Call.lends := by
  induction path with
  | nil s => exact fun hc => ⟨hc, rfl, rfl⟩
  | cons head tail ih =>
    rename_i s _ s₁ calls s'
    intro c hc
    obtain ⟨op, hallowed, rfl, rfl⟩ := head
    obtain ⟨hdescribes, hgives, -⟩ := hc.tracks hallowed
    obtain ⟨hlast, hgiven, hlends⟩ := ih hdescribes
    let call : Call := ⟨op, (op.perform.run s).exit, (op.perform.run s).trace⟩
    have hfilter : ∀ f : Call → Option Lent, ([call] ++ calls).filterMap f =
        (f call).toList ++ calls.filterMap f := by
      intro f
      rw [List.filterMap_append]
      cases hcall : f call <;> simp [hcall]
    refine ⟨hlast, ?_, ?_⟩
    · have hback : c.gives (op.move s) = call.givenBack :=
        Option.ext fun stream => (hgives stream).symm.trans call.givenBack_eq_some.symm
      rw [hfilter, ← hback, ← hgiven]
      rfl
    · have hlent : (op.move s).lends = call.lends := op.lends_move s _ _
      rw [hfilter, ← hlent, ← hlends]
      show List.filterMap Move.lends (op.move s :: _) = _
      cases hmove : (op.move s).lends <;> simp [hmove]

namespace Run

variable (r : Run)

/-- What the calls of a run do with what is lent. -/
def moves : List Move := r.fresh.moves (r.calls.map Call.op)

/-- Where the stream state is that was lent last. -/
def custody : Custody := Custody.nowhere.along r.moves

/-- A new guest has no stream state, and its creation shows none. -/
theorem creation_lasts : r.first.Lasts r.creation r.fresh := by
  obtain ⟨h, hfresh, path⟩ := r.creation_host
  rw [hfresh]
  exact .of_host path

theorem custody_describes : r.custody.Describes r.last ∧
    Custody.nowhere.given r.moves = r.calls.filterMap Call.givenBack ∧
    r.moves.filterMap Move.lends = r.calls.filterMap Call.lends := by
  have hfirst : Custody.nowhere.Describes r.first := ⟨rfl, rfl, rfl⟩
  exact Custody.Describes.along r.called (hfirst.lasts r.creation_lasts)

end Run

/-- **What is lent is conserved.** After every run the stream state is where its moves put it: in
    the scope that lends it, installed by a forgotten scope, left by a dropped one, or nowhere. A
    scope finds it at its type with no other one left, and `finish` and `with` give back the very
    value. A call gives back what the move gives, and the guest reaches what its scope lends, or
    the nothing that a start lends. What was lent is given back once, lost once to a later entry,
    or held. -/
theorem lent_streams (r : Run) :
    r.custody.Describes r.last ∧
    (∀ scope, r.last.scope = some scope → r.last.detached = none ∧
      ∃ stream, r.custody = .lent stream ∧ r.last.stream = some stream ∧
        (Op.finish.perform.run r.last).exit = .ok (.stream (some stream))) ∧
    (∀ op : Op, op.Allowed r.last →
      (∀ stream, (op.perform.run r.last).exit = .ok (.stream (some stream)) ↔
        r.custody.gives (op.move r.last) = some stream) ∧
      ∀ abi stream, .called abi ∈ (op.perform.run r.last).trace → abi.streamState = some stream →
        r.custody = .lent stream ∨ op.move r.last = .visits ∧ stream = .noStream) ∧
    (∀ abi, .called abi ∈ r.creation → abi.streamState = none) ∧
    (∀ {α : Type} (stream : Lent) (body : Method α), Lasting body →
      (∃ answer, ((Guest.with_ stream body).run r.last).exit = .ok (answer, stream) ∧
          Custody.nowhere.Describes ((Guest.with_ stream body).run r.last).state) ∨
        ((Guest.with_ stream body).run r.last).exit = .panicked ∧
          ((Custody.lent stream).after .drops).Describes
            ((Guest.with_ stream body).run r.last).state) ∧
    ∀ type value, (r.calls.filterMap Call.lends).count (.value type value) =
      (r.calls.filterMap Call.givenBack).count (.value type value) +
        (Custody.nowhere.lost r.moves).count (.value type value) +
          r.custody.holds.toList.count (.value type value) := by
  obtain ⟨hdescribes, hgiven, hlends⟩ := r.custody_describes
  refine ⟨hdescribes, ?_, ?_, ?_, ?_, ?_⟩
  · intro scope hscope
    obtain ⟨stream, hcustody⟩ := hdescribes.lent_of_scope (by rw [hscope]; rfl)
    rw [hcustody] at hdescribes ⊢
    refine ⟨hdescribes.2.2, stream, rfl, hdescribes.stream_eq, ?_⟩
    exact ((Custody.tracks_finish hdescribes).gives stream).2 rfl
  · intro op hallowed
    have htracks := hdescribes.tracks hallowed
    exact ⟨htracks.gives, htracks.reaches⟩
  · intro abi hcalled
    exact r.creation_lasts.shown _ hcalled abi rfl
  · exact fun stream body _ => Guest.with_gives stream body r.last
  · intro type value
    have hvalue : Lent.value type value ≠ .noStream := by rintro ⟨⟩
    have hconserved := Custody.nowhere.conserved r.moves hvalue
    rw [hlends, hgiven] at hconserved
    exact hconserved

namespace Custody

/-- A value is lent to a scope that is forgotten. -/
def forgetting : Run :=
  .of 7 .bare ⟨[], .info, [], [], 1, 2⟩ (.atMost none) [.enter (.value 1 7), .forgetScope]
    rfl (by decide)

/-- No call gives the value of a forgotten scope back, though no scope was entered since. -/
theorem forgotten_kept : ¬ ∀ (r : Run) (type value : ℕ),
    r.custody.holds = some (.value type value) → ∃ op : Op, op.Allowed r.last ∧
      (op.perform.run r.last).exit = .ok (.stream (some (.value type value))) := by
  intro hclaim
  obtain ⟨op, hallowed, hexit⟩ := hclaim forgetting 1 7 rfl
  have htracks := forgetting.custody_describes.1.tracks hallowed
  have hgives := (htracks.gives _).1 hexit
  have hforgotten : forgetting.custody = .forgotten (.value 1 7) := rfl
  rw [hforgotten] at hgives
  cases hgives

end Custody

end ProxyWasmHost
