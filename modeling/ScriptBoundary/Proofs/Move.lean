import ScriptBoundary.Proofs.Desk
import ScriptBoundary.Proofs.Equations

/-!
# Moves

The interpreter runs a host program to its end, nested calls and all, and gives the last state. A
statement about the states in between needs them to be there. So this file says what a run is made
of: a `Scene` is a world with the stack of the calls that have not returned, and a `Move` is one
thing that happens to it. Every move is one of the interpreter's own functions on worlds; what it
adds is the stack.

## More than the interpreter does

Some moves are freer than any run. The collector may report any anchor at any time (`finalize`),
reachable or not, as often as it likes and in the middle of anything; an instance may be shut while
its callbacks run. What holds of every sequence of moves therefore holds however the collector is
scheduled. The stack discipline is not free: the host acts when no operation is at the top of the
stack, a script calls the host when one is, and only what is at the top can end.

That every run of the interpreter is a sequence of moves is the subject of `Proofs.Path`.
-/

namespace ScriptBoundary.Boundary

open Script (Activation Anchor Limits Ref)

/-- What can happen to a world without a call beginning or ending. -/
inductive Change where
  | edit (e : Script.Edit)
  | note (e : Event)
  | install (pair : LifecyclePair)
  | setSlot (i : InstanceId) (slot : UInt32) (data : UInt64)
  | newInstance (limits : Limits)
  | newHandle (i : InstanceId) (v : Script.Value)
  | cloneHandle (h : Handle)
  | releaseHandle (h : Handle)
  | register (i : InstanceId) (realm : Ref) (c : Callback)
  /-- The collector reports an anchor. -/
  | finalize (a : Anchor)
  | shut (i : InstanceId)

/-- Carries out a change. A handle is made at the expense of an instance that there is; a callback
can be registered on a live one only, and only a live one can be shut. -/
def Change.apply (w : World) : Change → Option World
  | .edit e => some { w with heap := (w.heap.apply e).1 }
  | .note e => some (w.note e)
  | .install pair => some { w with lifecycle := some pair }
  | .setSlot i slot data => some (w.setSlot i slot data)
  | .newInstance limits => some (w.newInstance limits).2
  | .newHandle i v => if (w.instance? i).isSome then some (w.newHandle i v).2 else none
  | .cloneHandle h => some (w.cloneHandle h).2
  | .releaseHandle h => some (w.releaseHandle h)
  | .register i realm c => if w.isAlive i then some (w.register i realm c).2 else none
  | .finalize a => some (w.finalize a)
  | .shut i => if w.isAlive i then some (w.shut i) else none

/-- A call that has not returned. -/
inductive CallFrame where
  /-- An operation on an instance: the context it was given, and whether it has borrowed the
  instance's own. -/
  | operation (i : InstanceId) (act : Activation) (own : Bool)
  /-- An invocation of a host callback, and what its instance had lent out before. -/
  | callback (v : Invocation) (before : Option Activation)

/-- A world and the calls in progress, innermost first. -/
structure Scene where
  world : World
  stack : List CallFrame

inductive Move where
  | change (x : Change)
  /-- An operation that needs a context begins. -/
  | begin (i : InstanceId)
  | finish
  /-- A script calls a host callback. -/
  | enter (v : Invocation)
  | leave

/-- Whether it is the host that acts: it does unless an operation is at the top of the stack. -/
def isHostTurn : List CallFrame → Bool
  | .operation .. :: _ => false
  | _ => true

namespace Scene

/-- A process in which no instance was ever made. -/
def start (p : Platform) : Scene := ⟨{ World.blank with platform := p }, []⟩

/-- An operation begins: in the context its instance has lent, or else in the instance's own. -/
def begin (c : Scene) (i : InstanceId) : Option Scene :=
  match c.world.live? i with
  | none => none
  | some x => match x.lent with
    | some act => some ⟨c.world, .operation i act false :: c.stack⟩
    | none =>
      if x.borrowed then none
      else some ⟨c.world.borrow i, .operation i (x.root i c.world.converting) true :: c.stack⟩

/-- One move, if it is possible. -/
def step (c : Scene) : Move → Option Scene
  | .change x => (x.apply c.world).map fun w => ⟨w, c.stack⟩
  | .begin i => if isHostTurn c.stack then c.begin i else none
  | .finish =>
    match c.stack with
    | .operation i _ own :: rest => some ⟨if own then c.world.giveBack i else c.world, rest⟩
    | _ => none
  | .enter v =>
    if isHostTurn c.stack || (c.world.callbackOf v.anchor).isNone then none
    else some ⟨c.world.enter v, .callback v (c.world.lentBy v.anchor.owner) :: c.stack⟩
  | .leave =>
    match c.stack with
    | .callback v before :: rest => some ⟨c.world.leave v.anchor before, rest⟩
    | _ => none

/-- What a move finds and what it leaves, one constructor for each way it can go. -/
inductive Step : Scene → Move → Scene → Prop where
  | change {w w' : World} {st : List CallFrame} {x : Change} (hx : x.apply w = some w') :
    Step ⟨w, st⟩ (.change x) ⟨w', st⟩
  | beginLent {w : World} {st : List CallFrame} {i : InstanceId} {x : Instance} {act : Activation}
      (hst : isHostTurn st = true) (hx : w.live? i = some x) (hl : x.lent = some act) :
    Step ⟨w, st⟩ (.begin i) ⟨w, .operation i act false :: st⟩
  | beginOwn {w : World} {st : List CallFrame} {i : InstanceId} {x : Instance}
      (hst : isHostTurn st = true) (hx : w.live? i = some x) (hl : x.lent = none)
      (hb : x.borrowed = false) :
    Step ⟨w, st⟩ (.begin i) ⟨w.borrow i, .operation i (x.root i w.converting) true :: st⟩
  | finishLent {w : World} {st : List CallFrame} {i : InstanceId} {act : Activation} :
    Step ⟨w, .operation i act false :: st⟩ .finish ⟨w, st⟩
  | finishOwn {w : World} {st : List CallFrame} {i : InstanceId} {act : Activation} :
    Step ⟨w, .operation i act true :: st⟩ .finish ⟨w.giveBack i, st⟩
  | enter {w : World} {st : List CallFrame} {v : Invocation} (hst : isHostTurn st = false)
      (hcb : (w.callbackOf v.anchor).isSome) :
    Step ⟨w, st⟩ (.enter v) ⟨w.enter v, .callback v (w.lentBy v.anchor.owner) :: st⟩
  | leave {w : World} {st : List CallFrame} {v : Invocation} {before : Option Activation} :
    Step ⟨w, .callback v before :: st⟩ .leave ⟨w.leave v.anchor before, st⟩

/-- **What a move can do.** Whatever is said of all moves is said by cases on this. -/
theorem stepped {c d : Scene} {m : Move} (hm : c.step m = some d) : Step c m d := by
  obtain ⟨w, st⟩ := c
  cases m with
  | change x =>
    obtain ⟨w', hx, rfl⟩ := Option.map_eq_some_iff.mp hm
    exact .change hx
  | begin i =>
    simp only [step, begin] at hm
    split at hm
    · next hst =>
      split at hm
      · cases hm
      · next x hx =>
        split at hm
        · next act hl =>
          obtain rfl := Option.some.inj hm
          exact .beginLent hst hx hl
        · next hl =>
          split at hm
          · cases hm
          · next hb =>
            obtain rfl := Option.some.inj hm
            exact .beginOwn hst hx hl (Bool.eq_false_iff.mpr hb)
    · cases hm
  | finish =>
    simp only [step] at hm
    split at hm
    · next own _ =>
      obtain rfl := Option.some.inj hm
      cases own with
      | false => exact .finishLent
      | true => exact .finishOwn
    · cases hm
  | enter v =>
    simp only [step] at hm
    split at hm
    · cases hm
    · next hno =>
      obtain rfl := Option.some.inj hm
      simp only [Bool.or_eq_true, not_or, Bool.not_eq_true, Option.isNone_eq_false_iff] at hno
      exact .enter hno.1 hno.2
  | leave =>
    simp only [step] at hm
    split at hm
    · obtain rfl := Option.some.inj hm
      exact .leave
    · cases hm

/-- Moves one after the other. -/
def run (c : Scene) : List Move → Option Scene
  | [] => some c
  | m :: ms => (c.step m).bind fun d => d.run ms

variable {c d e : Scene} {m : Move} {ms ns : List Move}

@[simp] theorem run_nil : c.run [] = some c := rfl

theorem run_cons : c.run (m :: ms) = (c.step m).bind fun d => d.run ms := rfl

theorem run_append : c.run (ms ++ ns) = (c.run ms).bind fun d => d.run ns := by
  induction ms generalizing c with
  | nil => rfl
  | cons m ms ih =>
    simp only [List.cons_append, run_cons, Option.bind_assoc]
    exact Option.bind_congr fun d _ => ih

theorem run_trans (h : c.run ms = some d) (h' : d.run ns = some e) :
    c.run (ms ++ ns) = some e := by
  rw [run_append, h]
  exact h'

/-- **What a run keeps.** Induction on the moves made so far, with the last one at hand. -/
theorem run_induction {P : List Move → Scene → Prop} (nil : P [] c)
    (snoc : ∀ {ms d m e}, P ms d → d.step m = some e → P (ms ++ [m]) e)
    (h : c.run ms = some d) : P ms d := by
  have key : ∀ ms ns d e, P ns d → d.run ms = some e → P (ns ++ ms) e := by
    intro ms
    induction ms with
    | nil =>
      intro ns d e hd h
      cases h
      simpa using hd
    | cons m ms ih =>
      intro ns d e hd h
      obtain ⟨d', hm, h⟩ := Option.bind_eq_some_iff.mp h
      simpa using ih (ns ++ [m]) d' e (snoc hd hm) h
  exact key ms [] c d nil h

end Scene

end ScriptBoundary.Boundary
