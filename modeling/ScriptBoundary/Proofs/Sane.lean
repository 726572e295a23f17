import ScriptBoundary.Proofs.Path
import ScriptBoundary.Proofs.Whereabouts

/-!
# Worlds that moves lead to

What holds after every sequence of moves is said of scenes, as a move needs the stack. Of a world
alone it can be said that its callbacks are accounted for and that addresses are right
(`World.Sane`). No stack is needed to see that this is kept: for every world there is a stack with
its invocations, and moves that leave the stack alone are possible with any.
-/

namespace ScriptBoundary.Boundary

open Script (Activation)

/-- Whether the callbacks of a scene are accounted for and everything is in its place. -/
structure Scene.Sane (c : Scene) : Prop where
  sound : ∃ ms, c.Sound ms
  placed : c.world.Placed

theorem Scene.Sane.step {c d : Scene} {m : Move} (h : c.Sane) (hm : c.step m = some d) :
    d.Sane := by
  obtain ⟨ms, hms⟩ := h.sound
  exact ⟨⟨ms ++ [m], (hms.step hm).1⟩, Scene.placed_step hms h.placed hm⟩

theorem Scene.Sane.path {fresh : Prop} {c d : Scene} (h : c.Sane) (hp : Path fresh c d) :
    d.Sane := by
  obtain ⟨ms, -, hms⟩ := hp
  induction ms generalizing c with
  | nil =>
    obtain rfl := Option.some.inj hms
    exact h
  | cons m ms ih =>
    obtain ⟨c', hm, hms⟩ := Option.bind_eq_some_iff.mp hms
    exact ih (h.step hm) hms

namespace World

/-- Whether the callbacks of a world are accounted for and everything is in its place. -/
structure Sane (w : World) : Prop where
  account : ∃ ms, Account (registrations ms) w
  placed : w.Placed

variable {w w' : World} {i : InstanceId}

theorem Sane.scene (h : w.Sane) (st : List CallFrame) (hst : w.inFlight = invocations st) :
    Scene.Sane ⟨w, st⟩ :=
  ⟨h.account.imp fun _ hms => ⟨hms, hst⟩, h.placed⟩

theorem Sane.of_scene {c : Scene} (h : c.Sane) : c.world.Sane :=
  ⟨h.sound.imp fun _ hms => hms.account, h.placed⟩

/-- A stack with the invocations of a world. -/
def calling (w : World) : List CallFrame := w.inFlight.map fun v => .callback v none

theorem invocations_map_callback (vs : List Invocation) :
    invocations (vs.map fun v => .callback v none) = vs := by
  induction vs with
  | nil => rfl
  | cons v vs ih => exact congrArg (v :: ·) ih

theorem isHostTurn_calling (w : World) : isHostTurn w.calling = true := by
  rw [calling]
  cases w.inFlight <;> rfl

/-- **What moves that leave the stack alone keep.** -/
theorem Sane.path (h : w.Sane) (hp : ∀ st, Path True ⟨w, st⟩ ⟨w', st⟩) : w'.Sane :=
  .of_scene ((h.scene _ (invocations_map_callback w.inFlight).symm).path (hp w.calling))

theorem Sane.change (h : w.Sane) {x : Change} (hx : x.apply w = some w') : w'.Sane :=
  h.path fun _ => Path.change (by cases x <;> trivial) hx

theorem Sane.borrow (h : w.Sane) {x : Instance} (hx : w.live? i = some x) (hl : x.lent = none)
    (hb : x.borrowed = false) : (w.borrow i).Sane := by
  have hstep : Scene.step ⟨w, w.calling⟩ (.begin i) =
      some ⟨w.borrow i, .operation i (x.root i w.converting) true :: w.calling⟩ := by
    simp [Scene.step, Scene.begin, isHostTurn_calling, hx, hl, hb]
  exact .of_scene ((h.scene _ (invocations_map_callback w.inFlight).symm).step hstep)

theorem Sane.giveBack (h : w.Sane) (i : InstanceId) : (w.giveBack i).Sane := by
  have hscene := h.scene (.operation i default true :: w.calling)
    (invocations_map_callback w.inFlight).symm
  exact .of_scene (hscene.step (m := .finish) rfl)

theorem Sane.enter (h : w.Sane) {v : Invocation} (hv : (w.callbackOf v.anchor).isSome) :
    (w.enter v).Sane := by
  obtain ⟨c, hc⟩ := Option.isSome_iff_exists.mp hv
  have hscene := h.scene (.operation 0 default true :: w.calling)
    (invocations_map_callback w.inFlight).symm
  have hstep : Scene.step ⟨w, .operation 0 default true :: w.calling⟩ (.enter v) =
      some ⟨w.enter v, .callback v (w.lentBy v.anchor.owner)
        :: .operation 0 default true :: w.calling⟩ := by
    simp [Scene.step, isHostTurn, hc]
  exact .of_scene (hscene.step hstep)

theorem Sane.leave (h : w.Sane) {v : Invocation} {rest : List Invocation}
    (hv : w.inFlight = v :: rest) (before : Option Activation) :
    (w.leave v.anchor before).Sane := by
  have hscene := h.scene (.callback v before :: rest.map fun v => .callback v none)
    (hv.trans (congrArg (v :: ·) (invocations_map_callback rest).symm))
  exact .of_scene (hscene.step (m := .leave) rfl)

end World

end ScriptBoundary.Boundary
