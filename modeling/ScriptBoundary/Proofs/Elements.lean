import ScriptBoundary.Boundary.Operation
import ScriptBoundary.Proofs.Numerals
import ScriptBoundary.Proofs.Rejection
import ScriptBoundary.Proofs.Work

/-!
# Elements by number, by double and by digits

A host has three ways to name an element. It can pass the number, a double, or a string of the
digits. The number becomes a key at once; the other two are values, and go through the conversion
that any value goes through when it is used as a key. All three meet at one key (`IsElementKey`),
and from there on nothing knows which way was taken: the computations are the same, with the same
objects held.

What is left over is the handle of the string. The operation takes it over when it has found its
context, and a host that passes the number gives the handle back itself, before the operation. That
this makes no difference is a matter of two changes to the state that have nothing to do with each
other, giving back a handle and borrowing a context (`borrow_releaseHandle`).

## Main results

* `Operation.get_elementKey`, `Operation.set_elementKey`: the computations
* `inContext_releaseHandle`: a handle given back by an operation, or before it
* `elements_have_three_names`: the requests
-/

namespace ScriptBoundary.Script

/-- The values that name an element by its number. -/
inductive IsElementKey (n : Nat) : Value → Prop where
  | double : IsElementKey n (.number (Float.ofNat n))
  | digits : IsElementKey n (.text (Text.ofNat n))

namespace IsElementKey

variable {n : Nat} {key : Value}

/-- Both are converted to the key that the number has. -/
theorem toKey (h : IsElementKey n key) (hn : n < twoPow 53) :
    machine.toKey key = pure (Key.ofNat n) := by
  cases h with
  | double =>
    rw [← Key.ofNumber_ofNat hn]
    rfl
  | digits =>
    rw [Key.ofNat_eq_ofText]
    rfl

/-- Neither is an object. -/
theorem links (h : IsElementKey n key) : key.links = [] := by cases h <;> rfl

end IsElementKey

theorem Key.index?_ofNat (n : Nat) : (ofNat n).index? = ArrayIndex.ofNat? n := by
  cases h : ArrayIndex.ofNat? n with
  | some i =>
    rw [ofNat, h]
    rfl
  | none =>
    rw [ofNat_eq_ofText, ofText_of_index?_none ((Text.index?_ofNat n).trans h)]
    rfl

/-- What is held counts, not the values that hold it. -/
theorem Comp.keeping_congr {α : Type} {us vs : List Value}
    (h : us.flatMap Value.links = vs.flatMap Value.links) (m : Comp α) :
    keeping us m = keeping vs m := by
  funext act next
  show m { act with held := us.flatMap Value.links ++ act.held } next = _
  rw [h]
  rfl

end ScriptBoundary.Script

namespace ScriptBoundary.Boundary

open Script (Activation Comp IsElementKey Key)

variable {σ α : Type} {k : UInt32}

theorem toNat_lt_twoPow (k : UInt32) : k.toNat < twoPow 53 :=
  Nat.lt_trans k.toNat_lt (by decide)

namespace Operation

variable {key : Script.Value}

theorem get_elementKey (h : IsElementKey k.toNat key) (object : Script.Value) :
    get object key = getIndex object k := by
  have hlinks : [object, key].flatMap Script.Value.links =
      [object].flatMap Script.Value.links := by simp [h.links]
  rw [get, getIndex, Comp.keeping_congr hlinks, h.toKey (toNat_lt_twoPow k)]
  rfl

theorem set_elementKey (h : IsElementKey k.toNat key) (object value : Script.Value) :
    set object key value = setIndex object k value := by
  have hlinks : [object, key, value].flatMap Script.Value.links =
      [object, value].flatMap Script.Value.links := by simp [h.links]
  rw [set, setIndex, Comp.keeping_congr hlinks, h.toKey (toNat_lt_twoPow k)]
  rfl

end Operation

/-! ## A handle given back, by an operation or before it -/

section Release

variable {w : World} {h : Handle} {i j : InstanceId}

theorem World.updateInstance_comm {f g : Instance → Instance} (hfg : ∀ x, f (g x) = g (f x)) :
    (w.updateInstance i f).updateInstance j g = (w.updateInstance j g).updateInstance i f := by
  have hinstances : (w.instances.modify i f).modify j g = (w.instances.modify j g).modify i f := by
    refine Array.ext_getElem? fun k => ?_
    simp only [Array.getElem?_modify]
    split <;> split <;> simp [Function.comp_def, hfg]
  rw [updateInstance, updateInstance, updateInstance, updateInstance, hinstances]

theorem World.borrow_releaseHandle :
    (w.releaseHandle h).borrow i = (w.borrow i).releaseHandle h := by
  have hcell : (w.borrow i).cell? h = w.cell? h := rfl
  rw [releaseHandle, releaseHandle, hcell]
  cases w.cell? h with
  | none => rfl
  | some c => exact updateInstance_comm fun _ => rfl

theorem World.live?_releaseHandle : (w.releaseHandle h).live? i =
    (w.live? i).map (·.releaseMany (if w.IsOutOf i h then 1 else 0)) := by
  rw [live?, live?, instance?_releaseHandle]
  cases w.instance? i with
  | none => rfl
  | some x => cases hx : x.isLive <;> simp [Option.filter, hx, Instance.releaseMany]

theorem World.inFlight_releaseHandle : (w.releaseHandle h).inFlight = w.inFlight := by
  rw [releaseHandle]
  split <;> rfl

theorem World.current_releaseHandle (act : Activation) :
    (w.releaseHandle h).current act = w.current act := by
  rw [current, current, converting, converting, inFlight_releaseHandle]

/-- A state in which a handle has been given back. -/
def State.without (s : State σ) (h : Handle) : State σ :=
  { s with world := s.world.releaseHandle h }

theorem inContext_congr {body body' : Activation → Run σ α} {s : State σ}
    (hbody : ∀ act t, body act t = body' act t) : inContext i body s = inContext i body' s := by
  rw [show body = body' from funext fun act => funext (hbody act)]

/-- **A handle that an operation would give back first** may as well be given back before it. -/
theorem inContext_releaseHandle {body body' : Activation → Run σ α} {s : State σ}
    (hbody : ∀ act t, t.world.referent h = s.world.referent h →
      body act t = body' act (t.without h)) :
    inContext i body s = inContext i body' (s.without h) := by
  rw [inContext_apply, inContext_apply, State.without, World.live?_releaseHandle]
  cases s.world.live? i with
  | none => rfl
  | some x =>
    dsimp only [Option.map_some, Instance.releaseMany]
    cases x.lent with
    | some act =>
      dsimp only
      rw [World.current_releaseHandle]
      exact hbody _ s rfl
    | none =>
      dsimp only
      cases x.borrowed with
      | true => rfl
      | false =>
        rw [World.borrow_releaseHandle, World.converting, World.converting,
          World.inFlight_releaseHandle]
        exact congrArg (handBack i) (hbody _ { s with world := s.world.borrow i } rfl)

end Release

/-! ## The requests -/

section Requests

variable {invoke : Invoke σ} {s : State σ} {i : InstanceId} {o h : Handle} {kind : Kind}

/-- An operation whose first argument is a handle takes it over first. -/
theorem operateIn_composite (args : List Value) (body : List Script.Value → Comp Script.Value)
    (act : Activation) (t : State σ) :
    operateIn invoke i (.composite kind h :: args) body act t =
      operateIn invoke i args (fun vs => body (t.world.referent h :: vs)) act (t.without h) := by
  rw [operateIn, operateIn, Run.bind_apply, Run.bind_apply, Run.alter_apply, Run.alter_apply]
  rfl

/-- A number leaves nothing to take over. -/
theorem operateIn_number (x : Float) (args : List Value)
    (body : List Script.Value → Comp Script.Value) (act : Activation) (t : State σ) :
    operateIn invoke i (.number x :: args) body act t =
      operateIn invoke i args (fun vs => body (.number x :: vs)) act t := by
  rw [operateIn, operateIn, Run.bind_apply, Run.bind_apply, Run.alter_apply, Run.alter_apply]
  rfl

theorem referent_without (hne : h ≠ o) : (s.without h).world.referent o = s.world.referent o := by
  rw [World.referent, World.referent, State.without, World.cell?_releaseHandle,
    if_neg (Ne.symm hne)]

theorem answer_get_digits (hne : h ≠ o)
    (ht : s.world.referent h = .text (Text.ofNat k.toNat)) :
    answer invoke (.get i o (.composite kind h)) s =
      answer invoke (.getIndex i o k) (s.without h) := by
  rw [answer_eq_inContext (r := .get i o (.composite kind h)) rfl rfl,
    answer_eq_inContext (r := .getIndex i o k) rfl rfl]
  refine inContext_releaseHandle fun act t hreferent => ?_
  rw [operateIn_composite, hreferent, ht, referent_without hne]
  have hget := Operation.get_elementKey (k := k) .digits (s.world.referent o)
  simp only [List.getD_cons_zero, hget]

theorem answer_set_digits (hne : h ≠ o)
    (ht : s.world.referent h = .text (Text.ofNat k.toNat)) (v : Value) :
    answer invoke (.set i o (.composite kind h) v) s =
      answer invoke (.setIndex i o k v) (s.without h) := by
  rw [answer_eq_inContext (r := .set i o (.composite kind h) v) rfl rfl,
    answer_eq_inContext (r := .setIndex i o k v) rfl rfl]
  refine inContext_releaseHandle fun act t hreferent => ?_
  rw [operateIn_composite, hreferent, ht, referent_without hne]
  have hset := Operation.set_elementKey (k := k) .digits (s.world.referent o)
  simp only [List.getD_cons_zero, List.getD_cons_succ, hset]

theorem answer_get_double : answer invoke (.get i o (.number (Float.ofNat k.toNat))) s =
    answer invoke (.getIndex i o k) s := by
  rw [answer_eq_inContext (r := .get i o (.number (Float.ofNat k.toNat))) rfl rfl,
    answer_eq_inContext (r := .getIndex i o k) rfl rfl]
  refine inContext_congr fun act t => ?_
  have hget := Operation.get_elementKey (k := k) .double (s.world.referent o)
  rw [operateIn_number]
  simp only [List.getD_cons_zero, hget]

theorem answer_set_double (v : Value) :
    answer invoke (.set i o (.number (Float.ofNat k.toNat)) v) s =
      answer invoke (.setIndex i o k v) s := by
  rw [answer_eq_inContext (r := .set i o (.number (Float.ofNat k.toNat)) v) rfl rfl,
    answer_eq_inContext (r := .setIndex i o k v) rfl rfl]
  refine inContext_congr fun act t => ?_
  have hset := Operation.set_elementKey (k := k) .double (s.world.referent o)
  rw [operateIn_number]
  simp only [List.getD_cons_zero, List.getD_cons_succ, hset]

end Requests

/-- That the element with a number is the same one under all its names, for whoever reads it and for
whoever writes it. Both sides of an equation are all there is to know of a request: what is answered
and the state it leaves, or the fault it ends in. -/
structure HasThreeNames (invoke : Invoke σ) (s : State σ) (i : InstanceId) (o : Handle)
    (k : UInt32) : Prop where
  get_double : answer invoke (.get i o (.number (Float.ofNat k.toNat))) s =
    answer invoke (.getIndex i o k) s
  set_double (v : Value) : answer invoke (.set i o (.number (Float.ofNat k.toNat)) v) s =
    answer invoke (.setIndex i o k v) s
  /-- A string of the digits is given up with the request, and another way before it. -/
  get_digits (kind : Kind) (h : Handle) : h ≠ o →
    s.world.referent h = .text (Text.ofNat k.toNat) →
    answer invoke (.get i o (.composite kind h)) s = answer invoke (.getIndex i o k) (s.without h)
  set_digits (kind : Kind) (h : Handle) (v : Value) : h ≠ o →
    s.world.referent h = .text (Text.ofNat k.toNat) →
    answer invoke (.set i o (.composite kind h) v) s =
      answer invoke (.setIndex i o k v) (s.without h)
  /-- All but the last number are indices. -/
  index : (Key.ofNat k.toNat).index?.isSome ↔ k.toNat ≠ twoPow 32 - 1

/-- **Elements have three names**: a number, a double and a string of digits. -/
theorem elements_have_three_names (invoke : Invoke σ) (s : State σ) (i : InstanceId) (o : Handle)
    (k : UInt32) : HasThreeNames invoke s i o k where
  get_double := answer_get_double
  set_double := answer_set_double
  get_digits _ _ hne ht := answer_get_digits hne ht
  set_digits _ _ v hne ht := answer_set_digits hne ht v
  index := by
    have hlt := k.toNat_lt
    have hbound : twoPow 32 - 1 = indexBound := by decide
    have hindex : indexBound = 4294967295 := rfl
    rw [Key.index?_ofNat, ArrayIndex.ofNat?, hbound]
    split
    · exact iff_of_true rfl (by omega)
    · exact iff_of_false Bool.false_ne_true (by omega)

/-- An array with a handle, and the handle of the digits of the number that is no index. -/
def lastNumber : List Move :=
  [.change (.newInstance default),
    .change (.edit (.newObject .array none
      (.listing ⟨.data (.ofNat 0) true, false, false⟩ []))),
    .change (.newHandle 0 (.object 258)), .change (.newHandle 0 (.text (Text.ofNat 4294967295)))]

/-- It names the same property under its digits as under the number. -/
theorem last_number_has_three_names : ∃ c, (Scene.start .ready).run lastNumber = some c
    ∧ ∀ (invoke : Invoke Unit) (v : Value),
      answer invoke (.set 0 ⟨0⟩ (.composite .string ⟨1⟩) v) ⟨c.world, ()⟩ =
          answer invoke (.setIndex 0 ⟨0⟩ 4294967295 v) (State.without ⟨c.world, ()⟩ ⟨1⟩)
        ∧ (Key.ofNat 4294967295).index? = none := by
  obtain ⟨c, hc, htext⟩ : ∃ c, (Scene.start .ready).run lastNumber = some c
      ∧ c.world.referent ⟨1⟩ = .text (Text.ofNat 4294967295) := ⟨_, rfl, rfl⟩
  refine ⟨c, hc, fun invoke v => ?_⟩
  have hnames := elements_have_three_names invoke ⟨c.world, ()⟩ 0 ⟨0⟩ 4294967295
  refine ⟨hnames.set_digits .string ⟨1⟩ v (by decide) htext, ?_⟩
  exact Option.not_isSome_iff_eq_none.mp fun h => hnames.index.mp h rfl

end ScriptBoundary.Boundary
