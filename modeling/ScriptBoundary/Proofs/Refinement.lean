import ScriptBoundary.Proofs.Canonical
import ScriptBoundary.Proofs.Client
import ScriptBoundary.Proofs.Mirror
import ScriptBoundary.Proofs.Path

/-!
# The C surface refines the engine

A client can be run in two ways: through the C surface, with its wrapper behind foreign callbacks,
or by asking the engine for what each call means, with the wrapper's code in native ones. The two
runs go side by side: they start in a state and its replacement (`World.asNative`), every call gives
the same in both, and after each call they are in a state and its replacement again.

The surface does more than the engine does in one respect: it reads descriptors, and notes what is
malformed. That is the only thing a run through the surface does in between (`Agree.consume`). All
else is one request for one request, so the two runs agree because requests are answered alike.

A wrapper is a client, so a callback agrees with its replacement because clients do, as long as the
host calls that are nested in it are answered alike; that is an induction on the levels.

## Main results

* `agree_call`, `tells_call`: one call of the surface, and what it gives
* `Client.agree`: a client, however many calls it makes
* `mirrors_invokeAt`: the calls that scripts make of the wrapper
-/

namespace ScriptBoundary.Boundary

open Act (request)
open Script (Activation Completion HostCall)

variable {σ α β : Type}

/-- Whether two host programs do the same, one in every state and the other in its replacement. -/
def Agree (invoke invoke' : Invoke σ) (m m' : Act σ α) : Prop :=
  ∀ s, Mirrors (m.run (answer invoke)) (m'.run (answer invoke')) s

namespace Agree

variable {invoke invoke' : Invoke σ}

theorem pure (a : α) : Agree invoke invoke' (Pure.pure a : Act σ α) (Pure.pure a) := fun _ => rfl

theorem bind {m m' : Act σ α} {f f' : α → Act σ β} (hm : Agree invoke invoke' m m')
    (hf : ∀ a, Agree invoke invoke' (f a) (f' a)) : Agree invoke invoke' (m >>= f) (m' >>= f') := by
  intro s
  rw [Mirrors, Act.run_bind, Act.run_bind, hm s]
  cases m.run (answer invoke) s with
  | error e => rfl
  | ok q => exact hf q.1 q.2

/-- Something that leaves the replacement of every state as it is need not be done in it. -/
theorem after {m : Act σ α} {a : α} {f : α → Act σ β} {m' : Act σ β}
    (hm : ∀ s, ∃ t, m.run (answer invoke) s = .ok (a, t) ∧ t.asNative = s.asNative)
    (hf : Agree invoke invoke' (f a) m') : Agree invoke invoke' (m >>= f) m' := by
  intro s
  obtain ⟨t, ht, hsame⟩ := hm s
  have hrest := hf t
  rw [Mirrors, hsame] at hrest
  rw [Mirrors, Act.run_bind, ht]
  exact hrest

theorem request (hi : MirrorsInvoke invoke invoke') {r : Request} (hr : r.IsShared) :
    Agree invoke invoke' (Act.request r) (Act.request r) := by
  intro s
  rw [Mirrors, Act.request, Act.run_ask, Act.run_ask, mirrors_answer hi hr]
  cases answer invoke r s <;> rfl

theorem register (i : InstanceId) (c : Callback) :
    Agree invoke invoke' (Act.request (.register i c) : Act σ Value)
      (Act.request (.register i c.asNative) : Act σ Value) := by
  intro s
  have hr : answer invoke' (.register i c.asNative) s.asNative =
    Run.inNative (answer invoke (.register i c) s) := mirrors_register i c
  rw [Mirrors, Act.request, Act.request, Act.run_ask, Act.run_ask, hr]
  cases answer invoke (.register i c) s <;> rfl

end Agree

/-! ## Raw values -/

section Consume

variable {invoke : Invoke σ}

/-- Reading a descriptor gives the value that it stands for and does nothing but take note. -/
theorem run_consume (d : Descriptor) (s : State σ) :
    ∃ t, (Act.consume d).run (answer invoke) s = .ok (d.toValue, t)
      ∧ t.asNative = s.asNative := by
  rw [Act.consume, Descriptor.toValue]
  cases d.toValue? with
  | ok v => exact ⟨s, rfl, rfl⟩
  | error e =>
    refine ⟨{ s with world := s.world.note (.malformed e) }, rfl, ?_⟩
    exact congrArg (State.mk · s.host) (World.asNative_note_foreign rfl s.world)

theorem run_consumeAll (ds : List Descriptor) (s : State σ) :
    ∃ t, (Act.gather Act.consume ds).run (answer invoke) s = .ok (ds.map Descriptor.toValue, t)
      ∧ t.asNative = s.asNative := by
  induction ds generalizing s with
  | nil => exact ⟨s, rfl, rfl⟩
  | cons d ds ih =>
    obtain ⟨t, ht, hsame⟩ : ∃ t, (Act.consume d).run (answer invoke) s = .ok (d.toValue, t)
      ∧ t.asNative = s.asNative := run_consume d s
    obtain ⟨u, hu, hsame'⟩ := ih t
    refine ⟨u, ?_, hsame'.trans hsame⟩
    rw [Act.gather, Act.run_bind, ht]
    dsimp only
    rw [Act.run_bind, hu]
    rfl

end Consume

/-- The arguments that a call takes over are those that are meant. -/
theorem map_takenArgs (args : Option (List Descriptor)) (argc : Int) :
    (Surface.takenArgs args argc).map Descriptor.toValue = SurfaceCall.decodedArgs args argc := by
  cases args with
  | none => rw [Surface.takenArgs, Option.getD_none, List.take_nil, List.map_nil]; rfl
  | some ds =>
    rw [Surface.takenArgs, Option.getD_some, SurfaceCall.decodedArgs]
    split
    · next hneg => rw [Int.toNat_of_nonpos hneg, List.take_zero, List.map_nil]
    · rfl

theorem getD_decodedBytes (bytes : Option (List UInt8)) :
    bytes.getD [] = SurfaceCall.decodedBytes bytes := by
  cases bytes <;> rfl

/-! ## Calls of the surface -/

section Call

variable {invoke invoke' : Invoke σ}

/-- **A call of the surface** and what it means for the engine do the same. -/
theorem agree_call (hi : MirrorsInvoke invoke invoke') (c : SurfaceCall) :
    Agree invoke invoke' (c.viaSurface : Act σ c.Result) c.viaEngine := by
  have hask : ∀ r : Request, r.IsShared →
      Agree invoke invoke' (request r : Act σ r.Answer) (request r) := fun _ => Agree.request hi
  have hgive : ∀ {α : Type} (r : Request) (f : r.Answer → α), r.IsShared →
      Agree invoke invoke' (request r >>= fun a => (pure (f a) : Act σ α))
        (request r >>= fun a => pure (f a)) := fun r f hr => (hask r hr).bind fun a => .pure (f a)
  cases c with
  | installLifecycle pair => exact hask (.install pair) trivial
  | instanceNew => exact hask (.newInstance Options.default) trivial
  | instanceDrop i => exact hask (.destroy i) trivial
  | instanceGlobal i => exact hgive (.global i) some trivial
  | instanceEval i source =>
    rw [SurfaceCall.viaEngine, SurfaceCall.ask, ← getD_decodedBytes]
    exact hgive (.eval i (source.getD [])) OutcomeDescriptor.ofOutcome trivial
  | instanceSetData i slot data => exact hask (.setSlot i slot data) trivial
  | instanceGetData i slot => exact hask (.getSlot i slot) trivial
  | instanceCollectGarbage i => exact hask (.collect i) trivial
  | valueClone i h => exact hgive (.clone h) some trivial
  | valueDrop h => exact hask (.release h) trivial
  | stringCreate i bytes =>
    rw [SurfaceCall.viaEngine, SurfaceCall.ask, ← getD_decodedBytes]
    exact hgive (.createString i (bytes.getD [])) some trivial
  | stringToUtf8 i text =>
    exact hgive (.toUtf8 i text) (fun t => some (TextView.ofString t)) trivial
  | arrayCreate i => exact hgive (.createArray i) some trivial
  | arrayLength i array => exact hask (.arrayLength i array) trivial
  | objectCreate i => exact hgive (.createObject i) some trivial
  | objectGet i object key =>
    exact .after (run_consume key)
      (hgive (.get i object key.toValue) OutcomeDescriptor.ofOutcome trivial)
  | objectSet i object key value =>
    exact .after (run_consume key) (.after (run_consume value)
      (hgive (.set i object key.toValue value.toValue) OutcomeDescriptor.ofOutcome trivial))
  | objectRemove i object key =>
    exact .after (run_consume key)
      (hgive (.remove i object key.toValue) OutcomeDescriptor.ofOutcome trivial)
  | objectHas i object key =>
    exact .after (run_consume key)
      (hgive (.has i object key.toValue) OutcomeDescriptor.ofOutcome trivial)
  | objectKeys i object inherited => exact hgive (.keys i object (inherited != 0)) some trivial
  | objectGetIndex i object index =>
    exact hgive (.getIndex i object index) OutcomeDescriptor.ofOutcome trivial
  | objectSetIndex i object index value =>
    exact .after (run_consume value)
      (hgive (.setIndex i object index value.toValue) OutcomeDescriptor.ofOutcome trivial)
  | coerceBoolean i v =>
    exact .after (run_consume v)
      (hgive (.toBoolean i v.toValue) (fun b => if b then 1 else 0) trivial)
  | coerceNumber i v =>
    exact .after (run_consume v) (hgive (.toNumber i v.toValue) OutcomeDescriptor.ofOutcome trivial)
  | coerceString i v =>
    exact .after (run_consume v) (hgive (.toText i v.toValue) OutcomeDescriptor.ofOutcome trivial)
  | functionCall i function this args argc =>
    rw [SurfaceCall.viaEngine, SurfaceCall.ask, ← map_takenArgs]
    exact .after (run_consume this) (.after (run_consumeAll _)
      (hgive (.call i function this.toValue _) OutcomeDescriptor.ofOutcome trivial))
  | functionCreate i context =>
    exact (Agree.register i (.foreign i context)).bind fun v => .pure v.handle?
  | version => exact .pure _

/-- The form in which the surface gives an answer tells of it. -/
theorem SurfaceCall.tells_encode (c : SurfaceCall) (a : c.Answer) : c.Tells (c.encode a) a := by
  have houtcome : ∀ o : Outcome, ((OutcomeDescriptor.ofOutcome o).isException != 0) = o.isException
      ∧ (OutcomeDescriptor.ofOutcome o).value.toValue = o.value := fun o => by
    have hread := OutcomeDescriptor.toOutcome_ofOutcome o
    exact ⟨congrArg Outcome.isException hread, congrArg Outcome.value hread⟩
  cases c with
  | instanceEval | objectGet | objectSet | objectRemove | objectHas | objectGetIndex
  | objectSetIndex | coerceNumber | coerceString | functionCall => exact houtcome a
  | stringToUtf8 => exact ⟨_, rfl, rfl, rfl⟩
  | coerceBoolean => cases a <;> rfl
  | _ => rfl

/-- **What a call of the surface gives** tells of what the engine answers, in a state and its
replacement. -/
theorem tells_call (hi : MirrorsInvoke invoke invoke') (c : SurfaceCall) (s : State σ) :
    (∃ e, c.viaSurface.run (answer invoke) s = .error e
      ∧ c.ask.run (answer invoke') s.asNative = .error e)
    ∨ ∃ d a t, c.viaSurface.run (answer invoke) s = .ok (d, t)
      ∧ c.ask.run (answer invoke') s.asNative = .ok (a, t.asNative) ∧ c.Tells d a := by
  have hcall := agree_call hi c s
  rw [Mirrors, SurfaceCall.viaEngine, Act.run_bind] at hcall
  cases hsurface : c.viaSurface.run (answer invoke) s with
  | error e =>
    rw [hsurface] at hcall
    split at hcall
    · cases hcall
    · next e' hask =>
      cases hcall
      exact .inl ⟨e, rfl, hask⟩
  | ok q =>
    obtain ⟨d, t⟩ := q
    rw [hsurface] at hcall
    split at hcall
    · next a u hask =>
      obtain ⟨hd, ht⟩ : c.encode a = d ∧ u = t.asNative := Prod.mk.inj (Except.ok.inj hcall)
      exact .inr ⟨d, a, t, rfl, ht ▸ hask, hd ▸ c.tells_encode a⟩
    · cases hcall

/-- **A client** does the same through the surface and by asking the engine. -/
theorem Client.agree (hi : MirrorsInvoke invoke invoke') (m : Client σ α) :
    Agree invoke invoke' (m.act SurfaceCall.viaSurface) (m.act SurfaceCall.viaEngine) := by
  induction m with
  | done a => exact .pure a
  | call c next ih => exact (agree_call hi c).bind ih
  | observe i next ih =>
    intro s
    have hrun : ∀ (way : Way σ) (invoke : Invoke σ) (s : State σ),
        ((Client.observe i next).act way).run (answer invoke) s =
          ((next ((s.world.live? i).map Instance.observe)).act way).run (answer invoke) s :=
      fun _ _ _ => rfl
    rw [Mirrors, hrun, hrun, State.world_asNative, World.observe_asNative]
    exact ih _ s
  | read next ih => exact fun s => ih s.host s
  | write host next ih => exact fun s => ih { s with host }

/-- So it does step by step. -/
theorem Client.mirrors_after (hi : MirrorsInvoke invoke invoke') (k : Nat) (m : Client σ α)
    (s : State σ) : Mirrors (m.after SurfaceCall.viaSurface invoke k)
      (m.after SurfaceCall.viaEngine invoke' k) s := by
  induction k generalizing m s with
  | zero => rfl
  | succ k ih =>
    cases m with
    | done a => rfl
    | call c next =>
      have hc := agree_call hi c s
      rw [Mirrors, after, after, hc]
      cases c.viaSurface.run (answer invoke) s with
      | error e => rfl
      | ok q => exact ih (next q.1) q.2
    | observe i next =>
      have hrest := ih (next ((s.world.live? i).map Instance.observe)) s
      rw [Mirrors, after, after, State.world_asNative, World.observe_asNative]
      exact hrest
    | read next => exact ih (next s.host) s
    | write host next => exact ih next { s with host }

end Call

/-! ## The wrapper -/

section Wrapper

variable {invoke invoke' : Invoke σ} (host : ClientHost σ)

/-- Refusing a call gives the same in both. -/
theorem agree_refuse (hi : MirrorsInvoke invoke invoke') (owner : InstanceId) (message : String)
    (this : Value) (args : List Value) :
    Agree invoke invoke' (Host.refuse owner message this args)
      (Host.refuse owner message this args) := by
  have hrelease : ∀ v, Agree invoke invoke' (Act.releaseValue v) (Act.releaseValue v) := by
    intro v
    rw [Act.releaseValue]
    split
    · exact Agree.request hi (r := .release _) trivial
    · exact .pure _
  have hreleaseAll : ∀ vs, Agree invoke invoke' (Act.forEach Act.releaseValue vs)
      (Act.forEach Act.releaseValue vs) := by
    intro vs
    induction vs with
    | nil => exact .pure _
    | cons v vs ih => exact (hrelease v).bind fun _ => ih
  exact (Agree.request hi (r := .errorValue owner (.external message)) trivial).bind fun _ =>
    (hreleaseAll args).bind fun _ => (hrelease this).bind fun _ => .pure _

/-- **A callback** does what the native one does that stands for it. -/
theorem agree_callback (hi : MirrorsInvoke invoke invoke') (owner : InstanceId) (c : Callback)
    (this : Value) (args : List Value) :
    Agree invoke invoke' (host.viaSurface.call owner c this args)
      (host.viaEngine.call owner c.asNative this args) := by
  cases c with
  | native name =>
    rw [host.viaEngine_native]
    exact .pure _
  | foreign target context =>
    rw [host.viaEngine_foreign]
    refine (Agree.request hi (r := .lifecycle) trivial).bind fun pair => ?_
    cases pair with
    | none => exact agree_refuse hi owner _ this args
    | some pair =>
      dsimp only
      split
      · exact agree_refuse hi owner _ this args
      · refine (Client.agree hi _).bind fun d => ?_
        exact .after (run_consume d.value) (.pure _)

/-- The values a callback is handed: `this` and the arguments. -/
def handed (w : World) (k : HostCall) : Value × List Value :=
  ((w.encode k.anchor.owner k.this).1,
    ((w.encode k.anchor.owner k.this).2.encodeAll k.anchor.owner k.args).1)

/-- The end of a call of the host: the value that was returned is taken and the callback is left. -/
def endCall (k : HostCall) (before : Option Activation) :
    Except Fault (Outcome × State σ) → Except Fault (Completion Script.Value × State σ)
  | .error e => .error e
  | .ok (outcome, t) =>
    let v := t.world.decode k.activation.realm outcome.value
    .ok (if outcome.isException then .thrown v.1 else .value v.1,
      { t with world := v.2.leave k.anchor before })

theorem invoke_eq_endCall {host : Host σ} {k : HostCall} {s : State σ} {c : Callback}
    (hc : s.world.callbackOf k.anchor = some c) :
    Boundary.invoke host invoke k s =
      endCall k (((s.world.handOver k).instance? k.anchor.owner).bind (·.lent))
        ((host.call k.anchor.owner c (handed s.world k).1 (handed s.world k).2).run (answer invoke)
          { s with world := s.world.atEntry k }) := by
  rw [invoke_apply, hc]
  dsimp only [World.atEntry, World.handOver, handed]
  cases (host.call k.anchor.owner c _ _).run (answer invoke) _ <;> rfl

theorem endCall_inNative (k : HostCall) (before : Option Activation)
    (r : Except Fault (Outcome × State σ)) :
    endCall k before (Run.inNative r) = Run.inNative (endCall k before r) := by
  cases r with
  | error e => rfl
  | ok q =>
    have hdecode := World.decode_asNative q.2.world k.activation.realm q.1.value
    simp only [Run.inNative, Except.map, endCall, State.world_asNative, hdecode]
    rw [← World.asNative_leave]
    rfl

/-- A callback is handed the same in a world and in its replacement, -/
theorem handed_asNative (w : World) (k : HostCall) : handed w.asNative k = handed w k := by
  rw [handed, World.encode_asNative]
  dsimp only
  rw [World.encodeAll_asNative]
  rfl

theorem handOver_asNative (w : World) (k : HostCall) :
    w.asNative.handOver k = (w.handOver k).asNative := by
  rw [World.handOver, World.encode_asNative]
  dsimp only
  rw [World.encodeAll_asNative]
  rfl

/-- and its code begins in a world and its replacement. -/
theorem atEntry_asNative (w : World) (k : HostCall) :
    w.asNative.atEntry k = (w.atEntry k).asNative := by
  rw [World.atEntry, World.atEntry, World.asNative_enter, handOver_asNative]

/-- **A call of the wrapper** is the same through the surface and without it. -/
theorem mirrors_invoke (hi : MirrorsInvoke invoke invoke') :
    MirrorsInvoke (Boundary.invoke host.viaSurface invoke)
      (Boundary.invoke host.viaEngine invoke') := by
  intro k s
  have hfound := World.callbackOf_asNative s.world k.anchor
  cases hc : s.world.callbackOf k.anchor with
  | none =>
    rw [hc] at hfound
    rw [Mirrors, invoke_apply, invoke_apply, State.world_asNative, hfound, hc]
    rfl
  | some c =>
    rw [hc] at hfound
    have hlent : ((s.world.asNative.handOver k).instance? k.anchor.owner).bind (·.lent) =
        ((s.world.handOver k).instance? k.anchor.owner).bind (·.lent) := by
      rw [handOver_asNative, World.instance?_asNative, Option.bind_map]
      rfl
    have hcode := agree_callback host hi k.anchor.owner c (handed s.world k).1
      (handed s.world k).2 { s with world := s.world.atEntry k }
    rw [Mirrors, invoke_eq_endCall (s := s.asNative) hfound, invoke_eq_endCall hc,
      ← endCall_inNative, State.world_asNative, hlent, handed_asNative, atEntry_asNative]
    exact congrArg _ hcode

/-- **The calls that scripts make** are answered alike, at any number of levels. -/
theorem mirrors_invokeAt (n : Nat) :
    MirrorsInvoke (invokeAt host.viaSurface n) (invokeAt host.viaEngine n) := by
  induction n with
  | zero => exact fun _ _ => rfl
  | succ n ih => exact mirrors_invoke host ih

end Wrapper

/-! ## The two runs -/

/-- Whether two worlds are the same as far as scripts and the operations of the boundary go. -/
structure World.Resembles (w w' : World) : Prop where
  heap : w'.heap = w.heap
  /-- Every handle has the same referent and the same owner. -/
  handles : ∀ h, w'.cell? h = w.cell? h
  /-- Every instance, destroyed or not, has the same handle counters, registrations, external bytes
  and slots; -/
  figures : ∀ i, (w'.instance? i).map Instance.observe = (w.instance? i).map Instance.observe
  /-- and the same are alive. -/
  alive : ∀ i, (w'.live? i).isSome = (w.live? i).isSome
  /-- The callbacks of the same registrations were dropped, in the same order. -/
  dropped : w'.dropped.map (·.anchor) = w.dropped.map (·.anchor)

theorem World.resembles_asNative (w : World) : w.Resembles w.asNative where
  heap := rfl
  handles _ := rfl
  figures i := by
    rw [instance?_asNative, Option.map_map]
    congr 1
    funext x
    exact x.observe_asNative
  alive i := by rw [live?_asNative, Option.isSome_map]
  dropped := by
    rw [World.asNative, Array.map_map]
    rfl

/-- What the raw arguments of a call stand for. -/
structure Decoding : Prop where
  /-- An owned pointer is the handle it came from. -/
  owned : ∀ (kind : Kind) (h : Handle),
    Descriptor.toValue ⟨kind.tag.toByte, .handle h⟩ = .composite kind h
  null : ∀ kind : Kind, Descriptor.toValue ⟨kind.tag.toByte, .clear⟩ = .undefined
  unknown : ∀ d : Descriptor, Tag.ofByte? d.tag = none → d.toValue = .undefined
  bytes : SurfaceCall.decodedBytes none = []
  noArgs : ∀ argc, SurfaceCall.decodedArgs none argc = []
  noCount : ∀ args argc, argc ≤ 0 → SurfaceCall.decodedArgs args argc = []

theorem decoding : Decoding where
  owned kind h := by cases kind <;> rfl
  null kind := by cases kind <;> rfl
  unknown d hd := by
    have hnone : d.toValue? = .error (.unknownTag d.tag) := by
      rw [Descriptor.toValue?, hd]
    rw [Descriptor.toValue, hnone]
  bytes := rfl
  noArgs _ := rfl
  noCount args argc h := by
    cases args with
    | none => rfl
    | some ds => rw [SurfaceCall.decodedArgs, if_pos h]

/-- What the raw form of values, outcomes and texts keeps. -/
structure Encoding : Prop where
  /-- A value that is handed over is taken back as it was, with its handle, -/
  value : ∀ v, (Descriptor.ofValue v).toValue = v
  handle : ∀ v, (Descriptor.ofValue v).payload.handle? = v.handle?
  /-- and an outcome as well, thrown or not. -/
  outcome : ∀ o, (OutcomeDescriptor.ofOutcome o).toOutcome = o
  flag : ∀ o, (OutcomeDescriptor.ofOutcome o).isException = if o.isException then 1 else 0
  /-- A view has the bytes of a text, and their number if that is no more than a view reports. -/
  text : ∀ t, (TextView.ofString t).text = t
  length : ∀ t, t.utf8ByteSize ≤ TextView.maxLength → (TextView.ofString t).length = t.utf8ByteSize

theorem encoding : Encoding where
  value := Descriptor.toValue_ofValue
  handle v := by cases v <;> rfl
  outcome := OutcomeDescriptor.toOutcome_ofOutcome
  flag o := by
    rw [OutcomeDescriptor.ofOutcome]
    split <;> rfl
  text _ := rfl
  length _ h := Nat.min_eq_left h

/-- That running clients through the C surface is running them on the engine. -/
structure Refines (host : ClientHost σ) : Prop where
  /-- One call, in whatever state it is made: both runs give the same or fail alike, and they lead
  to a state and its replacement. -/
  call : ∀ (n : Nat) (c : SurfaceCall) (s : State σ),
    c.viaEngine.run (answer (invokeAt host.viaEngine n)) s.asNative =
      Run.inNative (c.viaSurface.run (answer (invokeAt host.viaSurface n)) s)
  /-- What the call has given says what the engine answers to the request that is meant: whether it
  was thrown, which value it is, how long, true or false, and which handle. -/
  answers : ∀ (n : Nat) (c : SurfaceCall) (s : State σ),
    (∃ e, c.viaSurface.run (answer (invokeAt host.viaSurface n)) s = .error e
      ∧ c.ask.run (answer (invokeAt host.viaEngine n)) s.asNative = .error e)
    ∨ ∃ d a t, c.viaSurface.run (answer (invokeAt host.viaSurface n)) s = .ok (d, t)
      ∧ c.ask.run (answer (invokeAt host.viaEngine n)) s.asNative = .ok (a, t.asNative)
      ∧ c.Tells d a
  /-- Any number of steps of a client: both runs have come to the same point of it, in a state and
  its replacement. -/
  steps : ∀ {α : Type} (n k : Nat) (m : Client σ α) (s : State σ),
    m.after SurfaceCall.viaEngine (invokeAt host.viaEngine n) k s.asNative =
      Run.inNative (m.after SurfaceCall.viaSurface (invokeAt host.viaSurface n) k s)
  /-- Where a script calls a callback, the wrapper is handed the same, and its code begins in a
  state and its replacement, so that the steps it makes are steps of this kind as well. -/
  begins : ∀ (w : World) (k : HostCall), handed w.asNative k = handed w k
    ∧ w.asNative.atEntry k = (w.atEntry k).asNative
  /-- When it returns, the script goes on with the same result. -/
  returns : ∀ (n : Nat) (k : HostCall) (s : State σ),
    invokeAt host.viaEngine n k s.asNative = Run.inNative (invokeAt host.viaSurface n k s)
  /-- Whole runs of a process. -/
  processes : ∀ {α : Type} (m : Client σ α) (p : Platform) (s : σ),
    execute host.viaEngine (m.act SurfaceCall.viaEngine) (Scene.start p).world s =
      Run.inNative (execute host.viaSurface (m.act SurfaceCall.viaSurface) (Scene.start p).world s)
  /-- A state and its replacement agree on all that can be told of them. -/
  resembles : ∀ w : World, w.Resembles w.asNative
  decoding : Decoding
  encoding : Encoding

/-- **The C surface refines the engine.** Whatever a client does with live instances and handles,
from whatever state, in however many steps and from however deep inside its wrapper, it does to the
engine what asking the engine directly would do. -/
theorem surface_refines_engine (host : ClientHost σ) : Refines host where
  call n c s := agree_call (mirrors_invokeAt host n) c s
  answers n c s := tells_call (mirrors_invokeAt host n) c s
  steps n k m s := m.mirrors_after (mirrors_invokeAt host n) k s
  begins w k := ⟨handed_asNative w k, atEntry_asNative w k⟩
  returns n k s := mirrors_invokeAt host n k s
  processes m p s := by
    have hstart : (Scene.start p).world.asNative = (Scene.start p).world := by
      simp [World.asNative, Scene.start, World.blank]
    have hrun := Client.agree (mirrors_invokeAt host levels) m ⟨(Scene.start p).world, s⟩
    rw [Mirrors, State.asNative, hstart] at hrun
    exact hrun
  resembles := World.resembles_asNative
  decoding := Boundary.decoding
  encoding := Boundary.encoding

/-- A client that calls its own wrapper, which gives back what it is called on. -/
example : (((Client.call (.installLifecycle ⟨"echo"⟩) fun _ => .call .instanceNew fun i =>
    .call (.functionCreate i 5) fun f =>
      .call (.functionCall i (f.getD ⟨0⟩) (.boolean true) none (-1)) fun o =>
        .done (o.value.tag, o.isException) : Client Unit (UInt8 × UInt8)).act
      SurfaceCall.viaSurface).run
        (answer (invokeAt (ClientHost.mk fun _ _ _ this _ => .done ⟨this, 0⟩).viaSurface 1))
        ⟨World.started, ()⟩).toOption.map (·.1) = some (Tag.boolean.toByte, 0) := by
  decide +kernel

end ScriptBoundary.Boundary
