import ScriptBoundary.Proofs.AsNative
import ScriptBoundary.Proofs.Equations

/-!
# Runs with and without foreign callbacks

A run mirrors another if it does in the replacement of a state what the other does in the state: it
gives the same, or fails with the same fault, and ends in the replacement of where the other ends.

The interpreter runs scripts, finds contexts and answers requests without looking at callbacks, so
each part of it mirrors itself as long as the answers to host calls do. The requests whose answers
show a callback or where it is told of are set apart by `Request.IsShared`.

## Main results

* `mirrors_answer`: the answers to requests, if the answers to host calls are mirrored
-/

namespace ScriptBoundary.Boundary

open Script (Activation Comp Completion HostCall Program)

variable {σ α β : Type}

/-- A state with native callbacks in place of all others. -/
def State.asNative (s : State σ) : State σ := ⟨s.world.asNative, s.host⟩

@[simp] theorem State.world_asNative (s : State σ) : s.asNative.world = s.world.asNative := rfl

/-- What a run gives, with native callbacks in place of all others. -/
def Run.inNative (r : Except Fault (α × State σ)) : Except Fault (α × State σ) :=
  r.map fun p => (p.1, p.2.asNative)

/-- Whether a run does in the replacement of a state what another does in the state. -/
def Mirrors (m m' : Run σ α) (s : State σ) : Prop := m' s.asNative = Run.inNative (m s)

namespace Mirrors

variable {s : State σ}

theorem pure (a : α) : Mirrors (Pure.pure a : Run σ α) (Pure.pure a) s := rfl

theorem throw (e : Fault) : Mirrors (throw e : Run σ α) (throw e) s := rfl

theorem view {f : World → α} (h : f s.world.asNative = f s.world) :
    Mirrors (Run.view f : Run σ α) (Run.view f) s := by
  rw [Mirrors, Run.view_apply, State.world_asNative, h]
  rfl

theorem update {f : World → World} (h : (f s.world).asNative = f s.world.asNative) :
    Mirrors (Run.update f : Run σ Unit) (Run.update f) s := by
  rw [Mirrors, Run.update_apply, State.world_asNative, ← h]
  rfl

theorem alter {f g : World → α × World}
    (h : g s.world.asNative = ((f s.world).1, (f s.world).2.asNative)) :
    Mirrors (Run.alter f : Run σ α) (Run.alter g) s := by
  rw [Mirrors, Run.alter_apply, State.world_asNative, h]
  rfl

theorem bind {m m' : Run σ α} {f f' : α → Run σ β} (hm : Mirrors m m' s)
    (hf : ∀ a t, m s = .ok (a, t) → Mirrors (f a) (f' a) t) :
    Mirrors (m >>= f) (m' >>= f') s := by
  rw [Mirrors, Run.bind_apply, Run.bind_apply, hm]
  cases hr : m s with
  | error e => rfl
  | ok q => exact hf q.1 q.2 hr

end Mirrors

/-- Whether host calls of scripts are answered alike. -/
def MirrorsInvoke (invoke invoke' : Invoke σ) : Prop := ∀ k s, Mirrors (invoke k) (invoke' k) s

section Serve

variable {invoke invoke' : Invoke σ} {s : State σ} {i : InstanceId}

/-- A script sees the heap and nothing else. -/
theorem mirrors_runProgram (hi : MirrorsInvoke invoke invoke') (p : Program) (s : State σ) :
    Mirrors (runProgram invoke p) (runProgram invoke' p) s := by
  induction p generalizing s with
  | done result => rfl
  | look next ih => exact ih s.world.heap s
  | edit e next ih =>
    exact ih (s.world.heap.apply e).2
      { s with world := { s.world with heap := (s.world.heap.apply e).1 } }
  | call k next ih =>
    rw [Mirrors, runProgram_call, runProgram_call, hi k s]
    cases invoke k s with
    | error e => rfl
    | ok q => exact ih q.1 q.2
  | exhausted => rfl

theorem mirrors_runIn (hi : MirrorsInvoke invoke invoke') (act : Activation)
    (m : Comp Script.Value) : Mirrors (runIn invoke act m) (runIn invoke' act m) s :=
  mirrors_runProgram hi _ s

/-- An operation finds the same context. -/
theorem mirrors_inContext {body body' : Activation → Run σ α}
    (hb : ∀ act t, Mirrors (body act) (body' act) t) :
    Mirrors (inContext i body) (inContext i body') s := by
  have hlive := World.live?_asNative s.world i
  rw [Mirrors]
  cases hx : s.world.live? i with
  | none =>
    rw [hx] at hlive
    rw [inContext_gone hx, inContext_gone hlive]
    rfl
  | some x =>
    rw [hx] at hlive
    have hlive : s.asNative.world.live? i = some x.asNative := hlive
    cases hl : x.lent with
    | some act =>
      rw [inContext_lent hx hl, inContext_lent hlive hl]
      exact hb (s.world.current act) s
    | none =>
      cases hbor : x.borrowed with
      | true =>
        rw [inContext_borrowed hx hl hbor, inContext_borrowed hlive hl hbor]
        rfl
      | false =>
        have hown := hb (x.root i s.world.converting) { s with world := s.world.borrow i }
        rw [Mirrors, State.asNative, World.asNative_borrow] at hown
        rw [inContext_own hx hl hbor, inContext_own hlive hl hbor]
        refine (congrArg (handBack i) hown).trans ?_
        cases body (x.root i s.world.converting) { s with world := s.world.borrow i } with
        | error e => rfl
        | ok q =>
          exact congrArg (fun w => Except.ok (q.1, State.mk w q.2.host))
            (World.asNative_giveBack q.2.world i).symm

theorem mirrors_conclude (hi : MirrorsInvoke invoke invoke') (act : Activation)
    (c : Completion Script.Value) :
    Mirrors (conclude invoke i act c) (conclude invoke' i act c) s := by
  have hencode : ∀ (t : State σ) (v : Script.Value) (f : Value → Outcome),
      Mirrors (do return f (← Run.alter (·.encode i v)))
        (do return f (← Run.alter (·.encode i v))) t := fun t v f =>
    (Mirrors.alter (World.encode_asNative _ i v)).bind fun _ _ _ => .pure _
  cases c with
  | value v => exact hencode s v .ok
  | thrown v => exact hencode s v .exception
  | limit fault =>
    refine (mirrors_runIn hi act _).bind fun r t _ => ?_
    cases r with
    | value v => exact hencode t v .exception
    | thrown v => exact hencode t v .exception
    | limit fault => exact .pure _

theorem mirrors_operate (hi : MirrorsInvoke invoke invoke') (args : List Value)
    (body : List Script.Value → Comp Script.Value) :
    Mirrors (operate invoke i args body) (operate invoke' i args body) s :=
  mirrors_inContext fun act t =>
    (Mirrors.alter (World.decodeAll_asNative t.world act.realm args)).bind fun _ _ _ =>
      (mirrors_runIn hi act _).bind fun r _ _ => mirrors_conclude hi act r

theorem mirrors_listNames (hi : MirrorsInvoke invoke invoke') (object : Handle)
    (inherited : Bool) :
    Mirrors (listNames invoke i object inherited) (listNames invoke' i object inherited) s := by
  refine mirrors_inContext fun act t => (Mirrors.view rfl).bind fun v _ _ =>
    (mirrors_runIn hi act _).bind fun r u _ => ?_
  have hnone : ∀ f : World → Event, (∀ w, (f w).isForeign = false ∧ f w.asNative = f w) →
      Mirrors (Run.update (fun w => w.note (f w)) >>= fun _ => Run.alter (·.newArray i act.realm))
        (Run.update (fun w => w.note (f w)) >>= fun _ => Run.alter (·.newArray i act.realm)) u := by
    intro f hf
    refine (Mirrors.update ?_).bind fun _ v _ => .alter (World.newArray_asNative _ i act.realm)
    rw [(hf _).2]
    exact World.asNative_note (hf _).1 _
  cases r with
  | value names => exact .alter (World.newHandle_asNative _ i names)
  | thrown v => exact hnone _ fun _ => ⟨rfl, rfl⟩
  | limit fault => exact hnone _ fun _ => ⟨rfl, rfl⟩

/-- Whether a request is answered without showing a callback or saying anything about raw values. -/
def Request.IsShared : Request → Prop
  | .inspect _ | .register .. | .dropped | .log => False
  | .note e => e.isForeign = false
  | _ => True

/-- Taking the arguments over after a look at what a handle refers to. -/
private theorem mirrors_operateOn (hi : MirrorsInvoke invoke invoke') (h : Handle)
    (args : List Value) (body : Script.Value → List Script.Value → Comp Script.Value) :
    Mirrors (do
      let v ← Run.view (·.referent h)
      operate invoke i args (body v)) (do
      let v ← Run.view (·.referent h)
      operate invoke' i args (body v)) s :=
  (Mirrors.view rfl).bind fun _ _ _ => mirrors_operate hi args _

theorem mirrors_serve (hi : MirrorsInvoke invoke invoke') {r : Request} (hr : r.IsShared) :
    Mirrors (serve invoke r) (serve invoke' r) s := by
  simp only [serve]
  cases r with
  | newInstance limits => exact .alter (World.newInstance_asNative _ limits)
  | destroy i =>
    refine (Mirrors.view (World.isBusy_asNative _ i)).bind fun busy t _ => ?_
    have hdestroy : ∀ u : State σ,
        Mirrors (Run.update (·.destroy i)) (Run.update (·.destroy i)) u := fun u =>
      .update (World.asNative_destroy u.world i)
    cases busy with
    | true => exact Mirrors.bind (.throw _) fun _ u _ => hdestroy u
    | false => exact hdestroy t
  | inspect i => exact hr.elim
  | eval i source => exact mirrors_operate hi [] _
  | global i =>
    refine .alter ?_
    rw [World.instance?_asNative, Option.map_map]
    exact World.newHandle_asNative _ i _
  | createObject i => exact mirrors_inContext fun act t => .alter (World.newObject_asNative _ i _)
  | createArray i => exact mirrors_inContext fun act t => .alter (World.newArray_asNative _ i _)
  | createString i bytes => exact .alter (World.newHandle_asNative _ i _)
  | get i object key =>
    exact mirrors_operateOn hi object [key] fun v vs => Operation.get v (vs.getD 0 .undefined)
  | set i object key value =>
    exact mirrors_operateOn hi object [key, value] fun v vs =>
      Operation.set v (vs.getD 0 .undefined) (vs.getD 1 .undefined)
  | remove i object key =>
    exact mirrors_operateOn hi object [key] fun v vs => Operation.remove v (vs.getD 0 .undefined)
  | has i object key =>
    exact mirrors_operateOn hi object [key] fun v vs => Operation.has v (vs.getD 0 .undefined)
  | getIndex i object index =>
    exact mirrors_operateOn hi object [] fun v _ => Operation.getIndex v index
  | setIndex i object index value =>
    exact mirrors_operateOn hi object [value] fun v vs =>
      Operation.setIndex v index (vs.getD 0 .undefined)
  | keys i object inherited => exact mirrors_listNames hi object inherited
  | arrayLength i array =>
    refine (Mirrors.view rfl).bind fun isArray t _ => ?_
    cases isArray with
    | true => exact mirrors_inContext fun _ _ => .view rfl
    | false => exact .pure _
  | toUtf8 i text =>
    refine (Mirrors.view rfl).bind fun v t _ => ?_
    split
    · exact .pure _
    · exact mirrors_inContext fun act _ => (mirrors_runIn hi act _).bind fun _ _ _ => .pure _
  | call i function this args =>
    exact mirrors_operateOn hi function (this :: args) fun v vs =>
      Operation.call v (vs.headD .undefined) vs.tail
  | register i c => exact hr.elim
  | toBoolean i v =>
    exact mirrors_inContext fun act t =>
      (Mirrors.alter (World.decode_asNative _ act.realm v)).bind fun _ _ _ => .pure _
  | toNumber i v => exact mirrors_operate hi [v] _
  | toText i v => exact mirrors_operate hi [v] _
  | errorValue i e =>
    exact mirrors_inContext fun act t => (mirrors_runIn hi act _).bind fun r _ _ =>
      (mirrors_conclude hi act r).bind fun _ _ _ => .pure _
  | setSlot i slot data => exact .update (World.asNative_setSlot _ i slot data)
  | getSlot i slot => exact .view (World.slot_asNative _ i slot)
  | collect i => exact .update (World.asNative_collectFor _ i)
  | clone h => exact .alter (World.cloneHandle_asNative _ h)
  | release h => exact .update (World.asNative_releaseHandle _ h)
  | sameValue a b => exact .view rfl
  | typeName h => exact .view rfl
  | install pair => exact .update rfl
  | lifecycle => exact .view rfl
  | note e => exact .update (World.asNative_note hr _)
  | dropped => exact hr.elim
  | log => exact hr.elim

/-- **Requests are answered alike** in a state and in its replacement. -/
theorem mirrors_answer (hi : MirrorsInvoke invoke invoke') {r : Request} (hr : r.IsShared) :
    Mirrors (answer invoke r) (answer invoke' r) s := by
  have hlive : ∀ i, (s.asNative.world.live? i).isNone = (s.world.live? i).isNone := by
    intro i
    rw [State.world_asNative, World.live?_asNative, Option.isNone_map]
  rw [Mirrors, answer_apply, answer_apply]
  cases r.addressee? with
  | none => exact mirrors_serve hi hr
  | some i =>
    dsimp only
    rw [hlive]
    split
    · rfl
    · exact mirrors_serve hi hr

/-- Registering a callback is answered like registering the one that stands for it. -/
theorem mirrors_register (i : InstanceId) (c : Callback) :
    Mirrors (answer invoke (.register i c)) (answer invoke' (.register i c.asNative)) s := by
  have hserve : Mirrors (serve invoke (.register i c)) (serve invoke' (.register i c.asNative)) s :=
    mirrors_inContext fun act t => .alter (World.register_asNative t.world i act.realm c)
  rw [Mirrors, answer_apply, answer_apply]
  dsimp only [Request.addressee?]
  rw [State.world_asNative, World.live?_asNative, Option.isNone_map]
  split
  · rfl
  · exact hserve

end Serve

end ScriptBoundary.Boundary
