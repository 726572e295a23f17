import ScriptBoundary.Proofs.Handles

/-!
# Every run is a sequence of moves

`Traced` says of a run that what it does to the world is a sequence of moves that leaves the stack
as it was; and that a run which fails does so in a scene that owes that very failure, with the stack
it had by then. The second half is why the moves keep a stack: the interpreter gives no state when
it fails, and the reason for a failure is in the calls that were in progress.

The proof follows the interpreter. A change of the world is a move; a script is edits and calls of
the host; an operation is what happens between its beginning and its end; a call of the host is
what happens between entering and leaving. The induction is on the number of levels that
`invokeAt` has left.

## Which moves

A host that never makes an instance leads to no move that makes one. `Path` carries that along
(`fresh` says whether instances may be made), so that what is special about a process with a
single instance can be read off the moves.

## Main results

* `traced_answer`, `traced_run`: requests and host programs, at any level
* `Scene.follows`: what the interpreter does from a scene, at any depth, is done by moves
-/

namespace ScriptBoundary.Boundary

open Script (Activation Anchor Comp Completion HostCall Program Ref)

variable {σ α β : Type}

/-! ## Host programs that ask for certain things only -/

/-- Whether a host program only ever makes requests of some kind, whatever the answers are. -/
def Act.Only (p : Request → Prop) : Act σ α → Prop
  | .done _ => True
  | .ask r next => p r ∧ ∀ a, (next a).Only p
  | .read next => ∀ s, (next s).Only p
  | .write _ next => next.Only p

/-- Whether all code of a host only ever makes requests of some kind. -/
structure Host.Only (host : Host σ) (p : Request → Prop) : Prop where
  native : ∀ name i this args, (host.native name i this args).Only p
  wrapper : ∀ pair i context this args, (host.wrapper pair i context this args).Only p

/-- A request to make an instance is allowed only if instances may be made. -/
def Request.Allowed (fresh : Prop) : Request → Prop
  | .newInstance _ => fresh
  | _ => True

theorem Act.Only.bind {p : Request → Prop} {m : Act σ α} {f : α → Act σ β} (hm : m.Only p)
    (hf : ∀ a, (f a).Only p) : (m >>= f).Only p := by
  show (m.bind f).Only p
  induction m with
  | done a => exact hf a
  | ask r next ih => exact ⟨hm.1, fun a => ih a (hm.2 a)⟩
  | read next ih => exact fun s => ih s (hm s)
  | write s next ih => exact ih hm

theorem Act.Only.request {p : Request → Prop} {r : Request} (h : p r) :
    (Act.request r : Act σ r.Answer).Only p :=
  ⟨h, fun _ => trivial⟩

theorem Act.Only.mono {p q : Request → Prop} (h : ∀ r, p r → q r) {m : Act σ α} (hm : m.Only p) :
    m.Only q := by
  induction m with
  | done a => trivial
  | ask r next ih => exact ⟨h r hm.1, fun a => ih a (hm.2 a)⟩
  | read next ih => exact fun s => ih s (hm s)
  | write s next ih => exact ih hm

theorem Act.only_true (m : Act σ α) : m.Only fun _ => True := by
  induction m with
  | done a => trivial
  | ask r next ih => exact ⟨trivial, ih⟩
  | read next ih => exact ih
  | write s next ih => exact ih

theorem Act.only_allowed (m : Act σ α) : m.Only (Request.Allowed True) :=
  m.only_true.mono fun r _ => by cases r <;> trivial

theorem Host.only_allowed (host : Host σ) : host.Only (Request.Allowed True) :=
  ⟨fun _ _ _ _ => Act.only_allowed _, fun _ _ _ _ _ => Act.only_allowed _⟩

private theorem only_releaseValue {fresh : Prop} (v : Value) :
    (Act.releaseValue v : Act σ Unit).Only (Request.Allowed fresh) := by
  rw [Act.releaseValue]
  split
  · exact .request trivial
  · trivial

private theorem only_releaseValues {fresh : Prop} (vs : List Value) :
    (Act.forEach Act.releaseValue vs : Act σ Unit).Only (Request.Allowed fresh) := by
  induction vs with
  | nil => trivial
  | cons v vs ih => exact (only_releaseValue v).bind fun _ => ih

private theorem only_consume {fresh : Prop} (d : Descriptor) :
    (Act.consume d : Act σ Value).Only (Request.Allowed fresh) := by
  rw [Act.consume]
  split
  · trivial
  · exact (Act.Only.request trivial).bind fun _ => trivial

private theorem only_refuse {fresh : Prop} (i : InstanceId) (message : String) (this : Value)
    (args : List Value) :
    (Host.refuse i message this args : Act σ Outcome).Only (Request.Allowed fresh) :=
  (Act.Only.request trivial).bind fun _ => (only_releaseValues args).bind fun _ =>
    (only_releaseValue this).bind fun _ => trivial

/-- What a foreign callback asks for besides what its wrapper does is always allowed. -/
theorem Host.Only.call {fresh : Prop} {host : Host σ} (h : host.Only (Request.Allowed fresh))
    (owner : InstanceId) (c : Callback) (this : Value) (args : List Value) :
    (host.call owner c this args).Only (Request.Allowed fresh) := by
  cases c with
  | native name => exact h.native name owner this args
  | foreign target context =>
    refine (Act.Only.request trivial).bind fun pair => ?_
    cases pair with
    | none => exact only_refuse ..
    | some pair =>
      dsimp only
      split
      · exact only_refuse ..
      · exact (h.wrapper ..).bind fun d => (only_consume d.value).bind fun _ => trivial

/-! ## Paths -/

/-- Whether a move is among those that may be made, if no instance or any may be. -/
def Move.Allowed (fresh : Prop) : Move → Prop
  | .change (.newInstance _) => fresh
  | _ => True

/-- One scene leads to another. -/
def Path (fresh : Prop) (c d : Scene) : Prop :=
  ∃ ms, (∀ m ∈ ms, Move.Allowed fresh m) ∧ c.run ms = some d

/-- The world after the arguments of a call of the host have been handed over. -/
def World.handOver (w : World) (k : HostCall) : World :=
  ((w.encode k.anchor.owner k.this).2.encodeAll k.anchor.owner k.args).2

theorem World.calls_handOver (w : World) (k : HostCall) : (w.handOver k).calls = w.calls :=
  (World.calls_encodeAll _ _ _).trans (World.calls_encode _ _ _)

/-- The world in which the code of a callback begins that a script calls. -/
def World.atEntry (w : World) (k : HostCall) : World :=
  (w.handOver k).enter ⟨k.anchor, k.activation⟩

namespace Path

variable {fresh : Prop} {c d e : Scene}

theorem refl (c : Scene) : Path fresh c c := ⟨[], by simp, rfl⟩

theorem trans (h : Path fresh c d) (h' : Path fresh d e) : Path fresh c e := by
  obtain ⟨ms, hms, hc⟩ := h
  obtain ⟨ns, hns, hd⟩ := h'
  refine ⟨ms ++ ns, fun m hm => ?_, Scene.run_trans hc hd⟩
  rcases List.mem_append.mp hm with hm | hm
  · exact hms m hm
  · exact hns m hm

theorem move {m : Move} (hm : m.Allowed fresh) (h : c.step m = some d) : Path fresh c d := by
  refine ⟨[m], fun m' h' => ?_, ?_⟩
  · rw [List.mem_singleton.mp h']
    exact hm
  · rw [Scene.run_cons, h]
    rfl

theorem change {w w' : World} {st : List CallFrame} {x : Change}
    (hx : (Move.change x).Allowed fresh) (h : x.apply w = some w') :
    Path fresh ⟨w, st⟩ ⟨w', st⟩ :=
  move hx (by simp [Scene.step, h])

/-- An instance that was made stays there, be it destroyed or not. -/
theorem hasInstance (h : Path fresh c d) {i : InstanceId} (hi : (c.world.instance? i).isSome) :
    (d.world.instance? i).isSome := by
  obtain ⟨ms, -, hms⟩ := h
  have hledger := (Scene.evolves_run hms).ledger i
  rw [World.purse, World.purse, Option.isSome_map, Option.isSome_map] at hledger
  exact hledger hi

variable {w w' : World} {st : List CallFrame} {i : InstanceId}

theorem newHandle (hi : (w.instance? i).isSome) (v : Script.Value) :
    Path fresh ⟨w, st⟩ ⟨(w.newHandle i v).2, st⟩ :=
  change (x := .newHandle i v) trivial (by simp [Change.apply, hi])

theorem note (e : Event) : Path fresh ⟨w, st⟩ ⟨w.note e, st⟩ :=
  change (x := .note e) trivial rfl

theorem encode (hi : (w.instance? i).isSome) (v : Script.Value) :
    Path fresh ⟨w, st⟩ ⟨(w.encode i v).2, st⟩ := by
  rw [World.encode]
  split
  · exact refl _
  · exact newHandle hi v

theorem encodeAll (hi : (w.instance? i).isSome) (vs : List Script.Value) :
    Path fresh ⟨w, st⟩ ⟨(w.encodeAll i vs).2, st⟩ := by
  induction vs generalizing w with
  | nil => exact refl _
  | cons v vs ih =>
    have hv : Path fresh ⟨w, st⟩ ⟨(w.encode i v).2, st⟩ := encode hi v
    exact hv.trans (ih (hv.hasInstance hi))

theorem decode (realm : Ref) (v : Value) : Path fresh ⟨w, st⟩ ⟨(w.decode realm v).2, st⟩ := by
  cases v with
  | date ms => exact change (x := .edit (.newObject ..)) trivial rfl
  | composite kind h => exact change (x := .releaseHandle h) trivial rfl
  | _ => exact refl _

theorem decodeAll (realm : Ref) (vs : List Value) :
    Path fresh ⟨w, st⟩ ⟨(w.decodeAll realm vs).2, st⟩ := by
  induction vs generalizing w with
  | nil => exact refl _
  | cons v vs ih => exact (decode realm v).trans ih

theorem newArray (hi : (w.instance? i).isSome) (realm : Ref) :
    Path fresh ⟨w, st⟩ ⟨(w.newArray i realm).2, st⟩ := by
  refine (change (x := .edit (.newObject ..)) trivial rfl).trans (newHandle ?_ _)
  exact hi

theorem newObject (hi : (w.instance? i).isSome) (realm : Ref) :
    Path fresh ⟨w, st⟩ ⟨(w.newObject i realm).2, st⟩ := by
  refine (change (x := .edit (.newObject ..)) trivial rfl).trans (newHandle ?_ _)
  exact hi

theorem register (h : w.isAlive i) (realm : Ref) (c : Callback) :
    Path fresh ⟨w, st⟩ ⟨(w.register i realm c).2, st⟩ :=
  change (x := .register i realm c) trivial (by simp [Change.apply, h])

theorem finalizeAll (as : List Anchor) : Path fresh ⟨w, st⟩ ⟨as.foldl World.finalize w, st⟩ := by
  induction as generalizing w with
  | nil => exact refl _
  | cons a as ih => exact (change (x := .finalize a) trivial rfl).trans ih

theorem collectFor (i : InstanceId) : Path fresh ⟨w, st⟩ ⟨w.collectFor i, st⟩ := by
  rw [World.collectFor]
  split
  · exact refl _
  · exact (finalizeAll _).trans (note _)

/-- What is left to be done when an instance was shut: lines in the log, and a pass. -/
theorem settle {x : Instance} (hx : w.live? i = some x) :
    Path fresh ⟨w.shut i, st⟩ ⟨w.destroy i, st⟩ := by
  have hnote : ∀ n, Path fresh ⟨w.shut i, st⟩
      ⟨if n = 0 then w.shut i else (w.shut i).note (.outstanding x.number n), st⟩ := by
    intro n
    split
    · exact refl _
    · exact note _
  rw [World.destroy, hx]
  exact (hnote _).trans ((finalizeAll _).trans (note _))

theorem destroy (i : InstanceId) : Path fresh ⟨w, st⟩ ⟨w.destroy i, st⟩ := by
  cases hx : w.live? i with
  | none =>
    rw [World.destroy, hx]
    exact refl _
  | some x =>
    have hshut : Path fresh ⟨w, st⟩ ⟨w.shut i, st⟩ :=
      change (x := .shut i) trivial (by simp [Change.apply, World.isAlive_of_live? hx])
    exact hshut.trans (settle hx)

/-- A call of the host hands its arguments over and enters the callback. -/
theorem atEntry {k : HostCall} (hst : isHostTurn st = false) (hk : (w.callbackOf k.anchor).isSome) :
    Path fresh ⟨w, st⟩ ⟨w.atEntry k,
      .callback ⟨k.anchor, k.activation⟩ (w.lentBy k.anchor.owner) :: st⟩ := by
  have hcalls := World.calls_handOver w k
  have hstill : ((w.handOver k).callbackOf k.anchor).isSome := by
    rwa [World.callbackOf_congr hcalls]
  have hhand : Path fresh ⟨w, st⟩ ⟨w.handOver k, st⟩ := by
    have hi := World.hasInstance_of_callbackOf hk
    have hthis : Path fresh ⟨w, st⟩ ⟨(w.encode k.anchor.owner k.this).2, st⟩ := encode hi _
    exact hthis.trans (encodeAll (hthis.hasInstance hi) _)
  refine hhand.trans (move (m := .enter ⟨k.anchor, k.activation⟩) trivial ?_)
  obtain ⟨c, hc⟩ := Option.isSome_iff_exists.mp hstill
  simp only [Scene.step, hst, hc, World.lentBy_congr hcalls]
  rfl

end Path

/-! ## Runs -/

/-- Whether a scene is one in which a run can fail in a certain way. -/
def Scene.Owes (c : Scene) : Fault → Prop
  | .contextInUse i =>
    isHostTurn c.stack ∧ ∃ x, c.world.live? i = some x ∧ x.lent = none ∧ x.borrowed = true
  | .instanceInUse i => c.world.isBusy i
  | .noInstance i => c.world.live? i = none
  | .exhausted => True

/-- What a run does from a state is a path that ends with the stack it started with; if it fails,
the path ends where that failure is due. -/
def Traced (fresh : Prop) (st : List CallFrame) (m : Run σ α) (s : State σ) : Prop :=
  match m s with
  | .ok (_, t) => Path fresh ⟨s.world, st⟩ ⟨t.world, st⟩
  | .error e => ∃ c, Path fresh ⟨s.world, st⟩ c ∧ c.Owes e

section Traced

variable {fresh : Prop} {st : List CallFrame} {s : State σ}

theorem Traced.of_eq {m : Run σ α} {a : α} {t : State σ} (h : m s = .ok (a, t))
    (hp : Path fresh ⟨s.world, st⟩ ⟨t.world, st⟩) : Traced fresh st m s := by
  simpa [Traced, h] using hp

theorem Traced.path {m : Run σ α} (hm : Traced fresh st m s) {a : α} {t : State σ}
    (h : m s = .ok (a, t)) : Path fresh ⟨s.world, st⟩ ⟨t.world, st⟩ := by
  simpa [Traced, h] using hm

theorem Traced.owes {m : Run σ α} (hm : Traced fresh st m s) {e : Fault}
    (h : m s = .error e) : ∃ c, Path fresh ⟨s.world, st⟩ c ∧ c.Owes e := by
  simpa [Traced, h] using hm

theorem Traced.pure (a : α) : Traced fresh st (Pure.pure a : Run σ α) s := .of_eq rfl (.refl _)

theorem Traced.view (f : World → α) : Traced fresh st (Run.view f : Run σ α) s :=
  .of_eq rfl (.refl _)

theorem Traced.update {f : World → World} (h : Path fresh ⟨s.world, st⟩ ⟨f s.world, st⟩) :
    Traced fresh st (Run.update f : Run σ Unit) s :=
  .of_eq rfl h

theorem Traced.alter {f : World → α × World} (h : Path fresh ⟨s.world, st⟩ ⟨(f s.world).2, st⟩) :
    Traced fresh st (Run.alter f : Run σ α) s :=
  .of_eq rfl h

theorem Traced.throw {e : Fault} (h : Scene.Owes ⟨s.world, st⟩ e) :
    Traced fresh st (throw e : Run σ α) s :=
  ⟨_, .refl _, h⟩

theorem Traced.bind {m : Run σ α} {f : α → Run σ β} (hm : Traced fresh st m s)
    (hf : ∀ a t, m s = .ok (a, t) → Traced fresh st (f a) t) : Traced fresh st (m >>= f) s := by
  rw [Traced, Run.bind_apply]
  cases hms : m s with
  | error e => exact hm.owes hms
  | ok p =>
    obtain ⟨a, t⟩ := p
    have hp := hm.path hms
    have ht := hf a t hms
    dsimp only
    cases hfa : f a t with
    | error e =>
      obtain ⟨c, hc, ho⟩ := ht.owes hfa
      exact ⟨c, hp.trans hc, ho⟩
    | ok q => exact hp.trans (ht.path hfa)

/-- Whatever answers the host calls of scripts does so by moves, as long as a script is running. -/
def TracedInvoke (fresh : Prop) (invoke : Invoke σ) : Prop :=
  ∀ c s st, isHostTurn st = false → Traced fresh st (invoke c) s

variable {invoke : Invoke σ}

/-- A script makes moves: edits, and what its host calls lead to. -/
theorem traced_runProgram (hi : TracedInvoke fresh invoke) (hst : isHostTurn st = false)
    (p : Program) (s : State σ) : Traced fresh st (runProgram invoke p) s := by
  induction p generalizing s with
  | done result => exact .of_eq rfl (.refl _)
  | look next ih => exact ih s.world.heap s
  | edit e next ih =>
    have hp : Path fresh ⟨s.world, st⟩ ⟨{ s.world with heap := (s.world.heap.apply e).1 }, st⟩ :=
      .change (x := .edit e) trivial rfl
    have ht := ih (s.world.heap.apply e).2
      { s with world := { s.world with heap := (s.world.heap.apply e).1 } }
    rw [Traced]
    rw [runProgram_edit]
    cases hr : runProgram invoke (next (s.world.heap.apply e).2) _ with
    | error e =>
      obtain ⟨c, hc, ho⟩ := ht.owes hr
      exact ⟨c, hp.trans hc, ho⟩
    | ok q => exact hp.trans (ht.path hr)
  | call c next ih =>
    have hc := hi c s st hst
    rw [Traced]
    rw [runProgram_call]
    cases hr : invoke c s with
    | error e => exact hc.owes hr
    | ok q =>
      have hp := hc.path hr
      have ht := ih q.1 q.2
      dsimp only
      cases hn : runProgram invoke (next q.1) q.2 with
      | error e =>
        obtain ⟨d, hd, ho⟩ := ht.owes hn
        exact ⟨d, hp.trans hd, ho⟩
      | ok q' => exact hp.trans (ht.path hn)
  | exhausted => exact ⟨_, .refl _, trivial⟩

theorem traced_runIn (hi : TracedInvoke fresh invoke) (hst : isHostTurn st = false)
    (act : Activation) (m : Comp Script.Value) : Traced fresh st (runIn invoke act m) s :=
  traced_runProgram hi hst _ s

/-- What happens in a context happens between the beginning and the end of an operation. -/
theorem traced_inContext {i : InstanceId} {body : Activation → Run σ α} (hst : isHostTurn st)
    (hb : ∀ f act t, isHostTurn (f :: st) = false → t.world.isAlive i →
      Traced fresh (f :: st) (body act) t) :
    Traced fresh st (inContext i body) s := by
  rw [Traced]
  cases hx : s.world.live? i with
  | none =>
    rw [inContext_gone hx]
    exact ⟨_, .refl _, hx⟩
  | some x =>
    have halive := World.isAlive_of_live? hx
    cases hl : x.lent with
    | some act =>
      have hbegin : Path fresh ⟨s.world, st⟩ ⟨s.world, .operation i act false :: st⟩ :=
        .move (m := .begin i) trivial (by simp [Scene.step, hst, Scene.begin, hx, hl])
      have ht := hb (.operation i act false) (s.world.current act) s rfl halive
      rw [inContext_lent hx hl]
      cases hr : body (s.world.current act) s with
      | error e =>
        obtain ⟨c, hc, ho⟩ := ht.owes hr
        exact ⟨c, hbegin.trans hc, ho⟩
      | ok q => exact (hbegin.trans (ht.path hr)).trans (.move (m := .finish) trivial rfl)
    | none =>
      cases hbor : x.borrowed with
      | true =>
        rw [inContext_borrowed hx hl hbor]
        exact ⟨_, .refl _, hst, x, hx, hl, hbor⟩
      | false =>
        have hbegin : Path fresh ⟨s.world, st⟩
            ⟨s.world.borrow i, .operation i (x.root i s.world.converting) true :: st⟩ :=
          .move (m := .begin i) trivial (by simp [Scene.step, hst, Scene.begin, hx, hl, hbor])
        have halive' : (s.world.borrow i).isAlive i := by
          simpa [World.isAlive, World.borrow, World.desk, World.instance?_updateInstance,
            Instance.desk, Function.comp_def] using halive
        have ht := hb (.operation i (x.root i s.world.converting) true)
          (x.root i s.world.converting) { s with world := s.world.borrow i } rfl halive'
        rw [inContext_own hx hl hbor]
        cases hr : body (x.root i s.world.converting) { s with world := s.world.borrow i } with
        | error e =>
          obtain ⟨c, hc, ho⟩ := ht.owes hr
          exact ⟨c, hbegin.trans hc, ho⟩
        | ok q => exact (hbegin.trans (ht.path hr)).trans (.move (m := .finish) trivial rfl)

/-! ## Requests -/

variable {i : InstanceId}

theorem traced_conclude (hi : TracedInvoke fresh invoke) (hst : isHostTurn st = false)
    (hx : (s.world.instance? i).isSome) (act : Activation) (r : Completion Script.Value) :
    Traced fresh st (conclude invoke i act r) s := by
  cases r with
  | value v => exact (Traced.alter (.encode hx v)).bind fun _ _ _ => .pure _
  | thrown v => exact (Traced.alter (.encode hx v)).bind fun _ _ _ => .pure _
  | limit fault =>
    have hrun := traced_runIn (s := s) hi hst act (Comp.newError .rangeError fault.message)
    refine hrun.bind fun r t ht => ?_
    have hx' := (hrun.path ht).hasInstance hx
    cases r with
    | value v => exact (Traced.alter (.encode hx' v)).bind fun _ _ _ => .pure _
    | thrown v => exact (Traced.alter (.encode hx' v)).bind fun _ _ _ => .pure _
    | limit fault => exact .pure _

theorem traced_operate (hi : TracedInvoke fresh invoke) (hst : isHostTurn st)
    (args : List Value) (body : List Script.Value → Comp Script.Value) :
    Traced fresh st (operate invoke i args body) s := by
  refine traced_inContext hst fun frame act t hframe ht => ?_
  have hdecode : Traced fresh (frame :: st)
      (Run.alter (·.decodeAll act.realm args)) t := .alter (.decodeAll act.realm args)
  refine hdecode.bind fun vs u hu => ?_
  have hrun : Traced fresh (frame :: st) (runIn invoke act (body vs)) u :=
    traced_runIn hi hframe act _
  refine hrun.bind fun r v hv => ?_
  exact traced_conclude hi hframe ((hrun.path hv).hasInstance
    ((hdecode.path hu).hasInstance (World.hasInstance_of_isAlive ht))) act r

theorem traced_listNames (hi : TracedInvoke fresh invoke) (hst : isHostTurn st)
    (object : Handle) (inherited : Bool) :
    Traced fresh st (listNames invoke i object inherited) s := by
  refine traced_inContext hst fun frame act t hframe ht => (Traced.view _).bind fun v u hu => ?_
  cases hu
  have hrun : Traced fresh (frame :: st)
      (runIn invoke act (Operation.keys (t.world.referent object) inherited)) t :=
    traced_runIn hi hframe act _
  refine hrun.bind fun r u hu => ?_
  have hx := (hrun.path hu).hasInstance (World.hasInstance_of_isAlive ht)
  have hnone : ∀ f : World → Event, Traced fresh (frame :: st)
      (Run.update (fun w => w.note (f w)) >>= fun _ => Run.alter (·.newArray i act.realm)) u := by
    intro f
    refine (Traced.update (.note (f u.world))).bind fun _ v hv => ?_
    cases hv
    have hx' : ((u.world.note (f u.world)).instance? i).isSome := hx
    exact .alter (.newArray hx' act.realm)
  cases r with
  | value names => exact .alter (.newHandle hx names)
  | thrown v => exact hnone _
  | limit fault => exact hnone _

/-- Taking the arguments over after a look at what a handle refers to. -/
private theorem traced_operateOn (hi : TracedInvoke fresh invoke) (hst : isHostTurn st)
    (h : Handle) (args : List Value) (body : Script.Value → List Script.Value → Comp Script.Value) :
    Traced fresh st (do
      let v ← Run.view (·.referent h)
      operate invoke i args (body v)) s :=
  (Traced.view _).bind fun _ _ _ => traced_operate hi hst args _

theorem traced_serve (hi : TracedInvoke fresh invoke) (hst : isHostTurn st) {r : Request}
    (hr : r.Allowed fresh) (hx : ∀ i, r.addressee? = some i → (s.world.instance? i).isSome) :
    Traced fresh st (serve invoke r) s := by
  simp only [serve]
  cases r with
  | newInstance limits => exact .alter (.change (x := .newInstance limits) hr rfl)
  | destroy i =>
    refine (Traced.view _).bind fun busy t ht => ?_
    cases ht
    dsimp only
    split
    · next hb =>
      have hthrow : Traced fresh st (throw (.instanceInUse i) : Run σ PUnit) s := .throw hb
      exact hthrow.bind fun _ t _ => Traced.update (f := fun w => w.destroy i) (.destroy i)
    · exact .update (.destroy i)
  | eval i source => exact traced_operate hi hst [] _
  | global i => exact .alter (.newHandle (hx i rfl) _)
  | createObject i =>
    exact traced_inContext hst fun _ act _ _ ht =>
      .alter (.newObject (World.hasInstance_of_isAlive ht) act.realm)
  | createArray i =>
    exact traced_inContext hst fun _ act _ _ ht =>
      .alter (.newArray (World.hasInstance_of_isAlive ht) act.realm)
  | createString i bytes => exact .alter (.newHandle (hx i rfl) _)
  | get i object key =>
    exact traced_operateOn hi hst object [key] fun v vs => Operation.get v (vs.getD 0 .undefined)
  | set i object key value =>
    exact traced_operateOn hi hst object [key, value] fun v vs =>
      Operation.set v (vs.getD 0 .undefined) (vs.getD 1 .undefined)
  | remove i object key =>
    exact traced_operateOn hi hst object [key] fun v vs => Operation.remove v (vs.getD 0 .undefined)
  | has i object key =>
    exact traced_operateOn hi hst object [key] fun v vs => Operation.has v (vs.getD 0 .undefined)
  | getIndex i object index =>
    exact traced_operateOn hi hst object [] fun v _ => Operation.getIndex v index
  | setIndex i object index value =>
    exact traced_operateOn hi hst object [value] fun v vs =>
      Operation.setIndex v index (vs.getD 0 .undefined)
  | keys i object inherited => exact traced_listNames hi hst object inherited
  | arrayLength i array =>
    refine (Traced.view _).bind fun isArray t _ => ?_
    cases isArray with
    | true => exact traced_inContext hst fun _ _ _ _ _ => .view _
    | false => exact .pure _
  | toUtf8 i text =>
    refine (Traced.view _).bind fun v t _ => ?_
    split
    · exact .pure _
    · exact traced_inContext hst fun _ act _ hframe _ =>
        (traced_runIn hi hframe act _).bind fun _ _ _ => .pure _
  | call i function this args =>
    exact traced_operateOn hi hst function (this :: args) fun v vs =>
      Operation.call v (vs.headD .undefined) vs.tail
  | register i c =>
    exact traced_inContext hst fun _ act _ _ ht => .alter (.register ht act.realm c)
  | toBoolean i v =>
    exact traced_inContext hst fun _ act _ _ _ =>
      (Traced.alter (.decode act.realm v)).bind fun _ _ _ => .pure _
  | toNumber i v => exact traced_operate hi hst [v] _
  | toText i v => exact traced_operate hi hst [v] _
  | errorValue i e =>
    refine traced_inContext hst fun frame act t hframe ht => ?_
    have hrun : Traced fresh (frame :: st) (runIn invoke act
        (Comp.newError (if e.isConversion then .typeError else .error) e.message)) t :=
      traced_runIn hi hframe act _
    refine hrun.bind fun r u hu => ?_
    have hx := (hrun.path hu).hasInstance (World.hasInstance_of_isAlive ht)
    exact (traced_conclude hi hframe hx act r).bind fun _ _ _ => .pure _
  | setSlot i slot data => exact .update (.change (x := .setSlot i slot data) trivial rfl)
  | collect i => exact .update (.collectFor i)
  | clone h => exact .alter (.change (x := .cloneHandle h) trivial rfl)
  | release h => exact .update (.change (x := .releaseHandle h) trivial rfl)
  | install pair => exact .update (.change (x := .install pair) trivial rfl)
  | note e => exact .update (.note e)
  | _ => exact .view _

/-- **Requests are moves**, when it is the host's turn. -/
theorem traced_answer (hi : TracedInvoke fresh invoke) (hst : isHostTurn st) {r : Request}
    (hr : r.Allowed fresh) : Traced fresh st (answer invoke r) s := by
  rw [Traced, answer_apply]
  cases ha : r.addressee? with
  | none => exact traced_serve hi hst hr fun i hi => by rw [ha] at hi; cases hi
  | some i =>
    cases hx : s.world.live? i with
    | none =>
      dsimp only
      rw [if_pos (by rw [hx]; rfl)]
      exact ⟨_, .refl _, hx⟩
    | some x =>
      dsimp only
      rw [if_neg (by rw [hx]; nofun)]
      refine traced_serve hi hst hr fun j hj => ?_
      rw [ha] at hj
      cases hj
      exact World.hasInstance_of_isAlive (World.isAlive_of_live? hx)

/-- **Host programs are moves.** -/
theorem traced_run (hi : TracedInvoke fresh invoke) (hst : isHostTurn st) {m : Act σ α}
    (hm : m.Only (Request.Allowed fresh)) : Traced fresh st (m.run (answer invoke)) s := by
  induction m generalizing s with
  | done a => exact .of_eq rfl (.refl _)
  | ask r next ih =>
    have ha := traced_answer (s := s) hi hst hm.1
    rw [Traced]
    rw [Act.run_ask]
    cases hr : answer invoke r s with
    | error e => exact ha.owes hr
    | ok q =>
      have hp := ha.path hr
      have ht := ih q.1 (s := q.2) (hm.2 q.1)
      dsimp only
      cases hn : (next q.1).run (answer invoke) q.2 with
      | error e =>
        obtain ⟨d, hd, ho⟩ := ht.owes hn
        exact ⟨d, hp.trans hd, ho⟩
      | ok q' => exact hp.trans (ht.path hn)
  | read next ih => exact ih s.host (hm s.host)
  | write host next ih => exact ih (s := { s with host }) hm

/-! ## Calls of the host -/

variable {host : Host σ}

/-- A call of a host function is what happens between entering a callback and leaving it. -/
theorem traced_invoke (hh : host.Only (Request.Allowed fresh)) (hi : TracedInvoke fresh invoke) :
    TracedInvoke fresh (Boundary.invoke host invoke) := by
  intro c s st hst
  rw [Traced, invoke_apply]
  cases hc : s.world.callbackOf c.anchor with
  | none => exact .refl _
  | some callback =>
    let this := s.world.encode c.anchor.owner c.this
    let args := this.2.encodeAll c.anchor.owner c.args
    let inside := CallFrame.callback ⟨c.anchor, c.activation⟩ (s.world.lentBy c.anchor.owner) :: st
    have hentry : Path fresh ⟨s.world, st⟩ ⟨s.world.atEntry c, inside⟩ :=
      .atEntry hst (by rw [hc]; rfl)
    have hrun : Traced fresh inside _ { s with world := s.world.atEntry c } :=
      traced_run hi rfl (hh.call c.anchor.owner callback this.1 args.1)
    have hbefore : args.2.lentBy c.anchor.owner = s.world.lentBy c.anchor.owner :=
      World.lentBy_congr (World.calls_handOver _ _) _
    dsimp only
    rw [World.instance?_bind_lent, hbefore]
    cases hr : (host.call c.anchor.owner callback this.1 args.1).run (answer invoke)
        { s with world := args.2.enter ⟨c.anchor, c.activation⟩ } with
    | error e =>
      obtain ⟨d, hd, ho⟩ := hrun.owes hr
      exact ⟨d, hentry.trans hd, ho⟩
    | ok q =>
      have hdecode : Path fresh ⟨q.2.world, inside⟩
          ⟨(q.2.world.decode c.activation.realm q.1.value).2, inside⟩ := .decode _ _
      exact ((hentry.trans (hrun.path hr)).trans hdecode).trans (.move (m := .leave) trivial rfl)

/-- **Calls of the host are moves**, at any number of levels. -/
theorem traced_invokeAt (hh : host.Only (Request.Allowed fresh)) (n : Nat) :
    TracedInvoke fresh (invokeAt host n) := by
  induction n with
  | zero => exact fun _ _ _ _ => ⟨_, .refl _, trivial⟩
  | succ n ih => exact traced_invoke hh ih

end Traced

/-- What the interpreter does from a scene is done by moves. -/
structure Scene.Follows (c : Scene) : Prop where
  /-- When it is the host's turn, its code leads to a scene with the same stack, at any depth. -/
  code : ∀ {σ α : Type} (host : Host σ) (n : Nat) (m : Act σ α) (s : σ) (a : α) (t : State σ),
    isHostTurn c.stack → m.run (answer (invokeAt host n)) ⟨c.world, s⟩ = .ok (a, t) →
    ∃ ms, c.run ms = some ⟨t.world, c.stack⟩
  /-- If the code fails, it has led to a scene in which that is bound to happen. -/
  failure : ∀ {σ α : Type} (host : Host σ) (n : Nat) (m : Act σ α) (s : σ) (e : Fault),
    isHostTurn c.stack → m.run (answer (invokeAt host n)) ⟨c.world, s⟩ = .error e →
    ∃ ms d, c.run ms = some d ∧ d.Owes e
  /-- When a script runs, the code of a callback that it calls begins in such a scene. -/
  callback : ∀ k : HostCall, isHostTurn c.stack = false → (c.world.callbackOf k.anchor).isSome →
    ∃ ms, c.run ms = some ⟨c.world.atEntry k,
      .callback ⟨k.anchor, k.activation⟩ (c.world.lentBy k.anchor.owner) :: c.stack⟩

theorem Scene.follows (c : Scene) : c.Follows where
  code host n m s a t hst hr := by
    obtain ⟨ms, -, hms⟩ := (traced_run (s := ⟨c.world, s⟩) (traced_invokeAt host.only_allowed n)
      hst m.only_allowed).path hr
    exact ⟨ms, hms⟩
  failure host n m s e hst hr := by
    obtain ⟨d, ⟨ms, -, hms⟩, hd⟩ := (traced_run (s := ⟨c.world, s⟩)
      (traced_invokeAt host.only_allowed n) hst m.only_allowed).owes hr
    exact ⟨ms, d, hms, hd⟩
  callback k hst hk := by
    have hentry : Path True ⟨c.world, c.stack⟩ _ := .atEntry hst hk
    obtain ⟨ms, -, hms⟩ := hentry
    exact ⟨ms, hms⟩

end ScriptBoundary.Boundary
