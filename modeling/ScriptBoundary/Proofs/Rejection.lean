import Mathlib
import ScriptBoundary.Boundary.Surface
import ScriptBoundary.Proofs.Canonical
import ScriptBoundary.Proofs.Path

/-!
# Calls that are rejected

A function of the C surface that finds a null pointer where it needs an instance or a handle does
not do what it is for. It must still take over what it owns, since its caller has given that up:
otherwise nobody would ever give back the handles in it.

A `PointerCall` is a call with raw pointers, any of which may be null. What it needs is told apart
from what it does: `instance?` and `handle?` say which pointers it looks at, `owned` which
descriptors it takes over. All three are written without the surface.

A handle may stand in several of the descriptors. It is given back once all the same, as there is
nothing behind it when it comes up again. So what shows in a ledger is how many different handles
are out at its expense (`World.due`).

## Main results

* `World.instance?_releaseAll`, `World.cell?_releaseAll`: what becomes of instances and handles
* `PointerCall.rejects`: a rejected call reads its descriptors and gives back what is in them
* `rejected_calls_settle`: that, and nothing besides
-/

namespace ScriptBoundary.Boundary

variable {σ α β : Type}

/-! ## Giving back handles, whatever they are -/

/-- Enters that so many handles were given back. -/
def Ledger.releaseMany (l : Ledger) (n : Nat) : Ledger := { l with released := l.released + n }

/-- The instance in whose ledger that was entered. -/
def Instance.releaseMany (x : Instance) (n : Nat) : Instance :=
  { x with ledger := x.ledger.releaseMany n }

namespace World

variable (w : World) (i : InstanceId)

/-- Gives back handles in their order. -/
def releaseAll (hs : List Handle) : World := hs.foldl releaseHandle w

/-- Whether a handle is out at the expense of an instance. -/
def IsOutOf (h : Handle) : Prop := (w.cell? h).map (·.owner) = some i

instance (h : Handle) : Decidable (w.IsOutOf i h) :=
  inferInstanceAs (Decidable ((w.cell? h).map (·.owner) = some i))

/-- What an instance gets back when some handles are given back: those of them that are out at its
expense, each of them once. -/
def due (hs : List Handle) : Finset Handle := hs.toFinset.filter (w.IsOutOf i)

theorem cell?_releaseHandle (h x : Handle) :
    (w.releaseHandle h).cell? x = if x = h then none else w.cell? x := by
  rw [← cell?_purse, purse_releaseHandle]
  split
  · next hx =>
    subst hx
    exact Purse.cell?_take _ _
  · next hx => exact Purse.cell?_take_of_ne hx

/-- **What becomes of handles** that are given back, and of the others. -/
theorem cell?_releaseAll (hs : List Handle) (x : Handle) :
    (w.releaseAll hs).cell? x = if x ∈ hs then none else w.cell? x := by
  induction hs generalizing w with
  | nil => rfl
  | cons h hs ih =>
    rw [releaseAll, List.foldl_cons]
    refine (ih (w.releaseHandle h)).trans ?_
    rw [cell?_releaseHandle]
    by_cases hx : x = h <;> by_cases hmem : x ∈ hs <;> simp [hx, hmem]

/-- No number of a handle is given out, and none is taken back. -/
theorem size_handles_releaseAll (hs : List Handle) :
    (w.releaseAll hs).handles.size = w.handles.size := by
  induction hs generalizing w with
  | nil => rfl
  | cons h hs ih =>
    refine (ih (w.releaseHandle h)).trans ?_
    rw [releaseHandle]
    split
    · rfl
    · exact Array.size_setIfInBounds

theorem instance?_releaseHandle (h : Handle) : (w.releaseHandle h).instance? i =
    (w.instance? i).map (·.releaseMany (if w.IsOutOf i h then 1 else 0)) := by
  have hnone : ∀ o : Option Instance, o = o.map (·.releaseMany 0) := fun _ => Option.map_id'.symm
  have hout : w.IsOutOf i h ↔ (w.cell? h).map (·.owner) = some i := .rfl
  rw [releaseHandle]
  cases hc : w.cell? h with
  | none =>
    rw [hc] at hout
    rw [if_neg (hout.not.mpr (Option.some_ne_none i).symm)]
    exact hnone _
  | some c =>
    rw [hc] at hout
    refine (instance?_updateInstance _ _ _ _).trans ?_
    by_cases hi : c.owner = i
    · rw [if_pos hi, if_pos (hout.mpr (congrArg some hi))]
      rfl
    · rw [if_neg hi, if_neg fun h => hi (Option.some.inj (hout.mp h))]
      exact hnone _

/-- When a handle has been given back, it is not due any more. -/
theorem due_releaseHandle (h : Handle) (hs : List Handle) :
    (w.releaseHandle h).due i hs = (w.due i hs).erase h := by
  ext x
  simp only [due, IsOutOf, Finset.mem_filter, List.mem_toFinset, Finset.mem_erase,
    cell?_releaseHandle]
  by_cases hx : x = h <;> simp [hx]

theorem due_cons (h : Handle) (hs : List Handle) :
    w.due i (h :: hs) = if w.IsOutOf i h then insert h (w.due i hs) else w.due i hs := by
  rw [due, List.toFinset_cons, Finset.filter_insert]
  rfl

/-- The handle that comes first is due once, and when it is back the others are due. -/
theorem card_due_cons (h : Handle) (hs : List Handle) : (w.due i (h :: hs)).card =
    (if w.IsOutOf i h then 1 else 0) + ((w.releaseHandle h).due i hs).card := by
  rw [due_releaseHandle, due_cons]
  split
  · rw [← Finset.card_erase_add_one (Finset.mem_insert_self _ _), Finset.erase_insert_eq_erase,
      Nat.add_comm]
  · next hout =>
    have hnot : h ∉ w.due i hs := fun hmem => hout (Finset.mem_filter.mp hmem).2
    rw [Finset.erase_eq_of_notMem hnot, Nat.zero_add]

/-- **What becomes of an instance** when handles are given back: its ledger shows those that were
due, and everything else about it stays. -/
theorem instance?_releaseAll (hs : List Handle) : (w.releaseAll hs).instance? i =
    (w.instance? i).map (·.releaseMany (w.due i hs).card) := by
  induction hs generalizing w with
  | nil => cases hx : w.instance? i <;> exact hx
  | cons h hs ih =>
    refine (ih (w.releaseHandle h)).trans ?_
    rw [instance?_releaseHandle, Option.map_map, card_due_cons]
    refine Option.map_congr fun x _ => ?_
    simp only [Function.comp_apply, Instance.releaseMany, Ledger.releaseMany, Nat.add_assoc]

/-- **What becomes of the rest** of the world: nothing. -/
theorem rest_releaseAll (hs : List Handle) :
    { w.releaseAll hs with instances := w.instances, handles := w.handles } = w := by
  have hone : ∀ (w : World) (h : Handle),
      ∃ xs cs, w.releaseHandle h = { w with instances := xs, handles := cs } := by
    intro w h
    rw [releaseHandle]
    split
    · exact ⟨_, _, rfl⟩
    · exact ⟨_, _, rfl⟩
  have hall : ∃ xs cs, w.releaseAll hs = { w with instances := xs, handles := cs } := by
    induction hs generalizing w with
    | nil => exact ⟨_, _, rfl⟩
    | cons h hs ih =>
      obtain ⟨xs, cs, hw⟩ := hone w h
      obtain ⟨ys, ds, hrest⟩ := ih (w.releaseHandle h)
      exact ⟨ys, ds, hrest.trans (by rw [hw])⟩
  obtain ⟨xs, cs, hw⟩ := hall
  rw [hw]

/-- The world in which some events have been logged. -/
def logging (es : List Event) : World := { w with log := w.log ++ es.toArray }

theorem releaseAll_logging (es : List Event) (hs : List Handle) :
    (w.logging es).releaseAll hs = (w.releaseAll hs).logging es := by
  have hone : ∀ (w : World) (h : Handle),
      (w.logging es).releaseHandle h = (w.releaseHandle h).logging es := by
    intro w h
    have hcell : (w.logging es).cell? h = w.cell? h := rfl
    rw [releaseHandle, releaseHandle, hcell]
    cases w.cell? h <;> rfl
  induction hs generalizing w with
  | nil => rfl
  | cons h hs ih =>
    rw [releaseAll, List.foldl_cons, hone]
    exact ih (w.releaseHandle h)

end World

/-! ## Reading descriptors and giving up what is in them -/

/-- What reading descriptors puts into the log: a complaint for each unknown tag. -/
def complaints (ds : List Descriptor) : List Event :=
  (ds.filter fun d => 8 < d.tag.toNat).map fun d => .malformed (.unknownTag d.tag)

/-- Requests that run no script and call no host code. -/
def Request.IsQuiet : Request → Prop
  | .note _ | .release _ => True
  | _ => False

namespace State

/-- The state in which descriptors have been read. -/
def reading (s : State σ) (ds : List Descriptor) : State σ :=
  { s with world := s.world.logging (complaints ds) }

/-- The state in which values have been given back. -/
def returning (s : State σ) (us : List Value) : State σ :=
  { s with world := s.world.releaseAll (Purse.handlesOf us) }

theorem reading_nil (s : State σ) : s.reading [] = s := by
  simp [reading, World.logging, complaints]

theorem reading_reading (s : State σ) (ds es : List Descriptor) :
    (s.reading ds).reading es = s.reading (ds ++ es) := by
  simp [reading, World.logging, complaints]

theorem returning_returning (s : State σ) (us vs : List Value) :
    (s.returning us).returning vs = s.returning (us ++ vs) := by
  simp [returning, World.releaseAll, Purse.handlesOf]

/-- It does not matter which comes first. -/
theorem reading_returning (s : State σ) (ds : List Descriptor) (us : List Value) :
    (s.returning us).reading ds = (s.reading ds).returning us :=
  congrArg (State.mk · s.host) (World.releaseAll_logging _ _ _).symm

theorem noting_eq_reading (s : State σ) (d : Descriptor) : s.noting d = s.reading [d] := by
  rw [noting]
  split <;> simp [reading, World.logging, complaints, World.note, *]

end State

/-- Whether a host program does nothing but read some descriptors and give back some values, in
whatever state and however host calls would be answered, and then ends with `a`. -/
structure Forgoes (m : Act σ α) (ds : List Descriptor) (us : List Value) (a : α) : Prop where
  run : ∀ (invoke : Invoke σ) (s : State σ),
    m.run (answer invoke) s = .ok (a, (s.reading ds).returning us)
  quiet : m.Only Request.IsQuiet

namespace Forgoes

theorem pure (a : α) : Forgoes (Pure.pure a : Act σ α) [] [] a where
  run _ s := by
    rw [State.reading_nil]
    rfl
  quiet := trivial

theorem bind {m : Act σ α} {f : α → Act σ β} {ds es : List Descriptor} {us vs : List Value} {a : α}
    {b : β} (hm : Forgoes m ds us a) (hf : Forgoes (f a) es vs b)
    (hq : ∀ a, (f a).Only Request.IsQuiet) : Forgoes (m >>= f) (ds ++ es) (us ++ vs) b where
  run invoke s := by
    rw [Act.run_bind, hm.run]
    dsimp only
    rw [hf.run, State.reading_returning, State.reading_reading, State.returning_returning]
  quiet := hm.quiet.bind hq

theorem give {m : Act σ α} {ds : List Descriptor} {us : List Value} {a : α}
    (hm : Forgoes m ds us a) (f : α → β) :
    Forgoes (m >>= fun a => Pure.pure (f a)) ds us (f a) where
  run invoke s := by
    rw [Act.run_bind, hm.run]
    rfl
  quiet := hm.quiet.bind fun _ => trivial

theorem consume (d : Descriptor) : Forgoes (Act.consume d : Act σ Value) [d] [] d.toValue where
  run invoke s := by
    rw [run_consume_noting, State.noting_eq_reading]
    rfl
  quiet := by
    rw [Act.consume]
    split
    · trivial
    · exact (Act.Only.request trivial).bind fun _ => trivial

theorem consumeAll (ds : List Descriptor) :
    Forgoes (Act.gather Act.consume ds : Act σ (List Value)) ds [] (ds.map Descriptor.toValue) := by
  induction ds with
  | nil => exact .pure []
  | cons d ds ih =>
    have hrest : ∀ u : Value, Forgoes
        (Act.gather Act.consume ds >>= fun us => Pure.pure (u :: us) : Act σ (List Value))
        ds [] (u :: ds.map Descriptor.toValue) := fun u => ih.give (u :: ·)
    exact (consume d).bind (hrest _) fun u => (hrest u).quiet

theorem release (v : Value) : Forgoes (Act.releaseValue v : Act σ Unit) [] [v] () where
  run invoke s := by
    rw [State.reading_nil, Act.releaseValue, State.returning, Purse.handlesOf]
    cases hv : v.handle? <;> simp [hv] <;> rfl
  quiet := by
    rw [Act.releaseValue]
    split
    · exact Act.Only.request trivial
    · trivial

theorem releaseAll (us : List Value) :
    Forgoes (Act.forEach Act.releaseValue us : Act σ Unit) [] us () := by
  induction us with
  | nil => exact .pure ()
  | cons v us ih => exact (release v).bind ih fun _ => ih.quiet

end Forgoes

/-! ## Calls with raw pointers -/

/-- A call of a function of the C surface that uses an instance or takes a handle, with raw
pointers. -/
inductive PointerCall where
  | instanceDrop (i : Option InstanceId)
  | instanceGlobal (i : Option InstanceId)
  | instanceEval (i : Option InstanceId) (source : Option (List UInt8))
  | instanceSetData (i : Option InstanceId) (slot : UInt32) (data : UInt64)
  | instanceGetData (i : Option InstanceId) (slot : UInt32)
  | instanceCollectGarbage (i : Option InstanceId)
  | valueClone (i : Option InstanceId) (h : Option Handle)
  | valueDrop (h : Option Handle)
  | stringCreate (i : Option InstanceId) (bytes : Option (List UInt8))
  | stringToUtf8 (i : Option InstanceId) (text : Option Handle)
  | arrayCreate (i : Option InstanceId)
  | arrayLength (i : Option InstanceId) (array : Option Handle)
  | objectCreate (i : Option InstanceId)
  | objectGet (i : Option InstanceId) (object : Option Handle) (key : Descriptor)
  | objectSet (i : Option InstanceId) (object : Option Handle) (key value : Descriptor)
  | objectRemove (i : Option InstanceId) (object : Option Handle) (key : Descriptor)
  | objectHas (i : Option InstanceId) (object : Option Handle) (key : Descriptor)
  | objectKeys (i : Option InstanceId) (object : Option Handle) (inherited : UInt8)
  | objectGetIndex (i : Option InstanceId) (object : Option Handle) (index : UInt32)
  | objectSetIndex (i : Option InstanceId) (object : Option Handle) (index : UInt32)
      (value : Descriptor)
  | coerceBoolean (i : Option InstanceId) (v : Descriptor)
  | coerceNumber (i : Option InstanceId) (v : Descriptor)
  | coerceString (i : Option InstanceId) (v : Descriptor)
  | functionCall (i : Option InstanceId) (function : Option Handle) (this : Descriptor)
      (args : Option (List Descriptor)) (argc : Int)
  | functionCreate (i : Option InstanceId) (context : UInt64)

namespace PointerCall

/-- What a call gives. -/
@[reducible] def Result : PointerCall → Type
  | .instanceDrop _ | .instanceSetData .. | .instanceCollectGarbage _ | .valueDrop _ => Unit
  | .instanceGlobal _ | .valueClone .. | .stringCreate .. | .arrayCreate _ | .objectCreate _
  | .objectKeys .. | .functionCreate .. => Option Handle
  | .instanceEval .. | .objectGet .. | .objectSet .. | .objectRemove .. | .objectHas ..
  | .objectGetIndex .. | .objectSetIndex .. | .coerceNumber .. | .coerceString ..
  | .functionCall .. => OutcomeDescriptor
  | .instanceGetData .. => UInt64
  | .stringToUtf8 .. => Option TextView
  | .arrayLength .. => Nat
  | .coerceBoolean .. => UInt8

/-- Makes a call. -/
def act : (c : PointerCall) → Act σ c.Result
  | .instanceDrop i => Surface.instanceDrop i
  | .instanceGlobal i => Surface.instanceGlobal i
  | .instanceEval i source => Surface.instanceEval i source
  | .instanceSetData i slot data => Surface.instanceSetData i slot data
  | .instanceGetData i slot => Surface.instanceGetData i slot
  | .instanceCollectGarbage i => Surface.instanceCollectGarbage i
  | .valueClone i h => Surface.valueClone i h
  | .valueDrop h => Surface.valueDrop h
  | .stringCreate i bytes => Surface.stringCreate i bytes
  | .stringToUtf8 i text => Surface.stringToUtf8 i text
  | .arrayCreate i => Surface.arrayCreate i
  | .arrayLength i array => Surface.arrayLength i array
  | .objectCreate i => Surface.objectCreate i
  | .objectGet i object key => Surface.objectGet i object key
  | .objectSet i object key value => Surface.objectSet i object key value
  | .objectRemove i object key => Surface.objectRemove i object key
  | .objectHas i object key => Surface.objectHas i object key
  | .objectKeys i object inherited => Surface.objectKeys i object inherited
  | .objectGetIndex i object index => Surface.objectGetIndex i object index
  | .objectSetIndex i object index value => Surface.objectSetIndex i object index value
  | .coerceBoolean i v => Surface.coerceBoolean i v
  | .coerceNumber i v => Surface.coerceNumber i v
  | .coerceString i v => Surface.coerceString i v
  | .functionCall i function this args argc => Surface.functionCall i function this args argc
  | .functionCreate i context => Surface.functionCreate i context

/-- The pointer to the instance a call uses, if it uses one. Copying a handle and giving one back
does not. -/
def instance? : PointerCall → Option (Option InstanceId)
  | .instanceDrop i | .instanceGlobal i | .instanceEval i _ | .instanceSetData i .. =>
    some i
  | .instanceGetData i _ | .instanceCollectGarbage i | .stringCreate i _ | .stringToUtf8 i _ =>
    some i
  | .arrayCreate i | .arrayLength i _ | .objectCreate i | .objectGet i .. | .objectSet i .. =>
    some i
  | .objectRemove i .. | .objectHas i .. | .objectKeys i .. | .objectGetIndex i .. => some i
  | .objectSetIndex i .. | .coerceBoolean i _ | .coerceNumber i _ | .coerceString i _ => some i
  | .functionCall i .. | .functionCreate i _ => some i
  | .valueClone .. | .valueDrop _ => none

/-- The pointer to the value, object, array, function or string a call takes, if it takes one. -/
def handle? : PointerCall → Option (Option Handle)
  | .valueClone _ h | .valueDrop h | .stringToUtf8 _ h | .arrayLength _ h => some h
  | .objectGet _ h _ | .objectSet _ h .. | .objectRemove _ h _ | .objectHas _ h _ => some h
  | .objectKeys _ h _ | .objectGetIndex _ h _ | .objectSetIndex _ h .. => some h
  | .functionCall _ h .. => some h
  | _ => none

/-- Whether a pointer is null that a call needs. -/
def IsRejected (c : PointerCall) : Prop := c.instance? = some none ∨ c.handle? = some none

instance : DecidablePred IsRejected := fun c =>
  inferInstanceAs (Decidable (c.instance? = some none ∨ c.handle? = some none))

/-- The arguments a call of a function owns: the first of them, as many as it is said, if there is
something to point at. -/
def ownedArgs (args : Option (List Descriptor)) (argc : Int) : List Descriptor :=
  match args with
  | none => []
  | some ds => if 0 < argc then ds.take argc.toNat else []

/-- The descriptors a call owns: keys, values, what a function is called on and its arguments. -/
def owned : PointerCall → List Descriptor
  | .objectGet _ _ key | .objectRemove _ _ key | .objectHas _ _ key => [key]
  | .objectSet _ _ key value => [key, value]
  | .objectSetIndex _ _ _ value => [value]
  | .coerceBoolean _ v | .coerceNumber _ v | .coerceString _ v => [v]
  | .functionCall _ _ this args argc => this :: ownedArgs args argc
  | _ => []

/-- The result that says nothing: null, zero, an empty view, or an undefined that was not
thrown. -/
def blank : (c : PointerCall) → c.Result
  | .instanceDrop _ | .instanceSetData .. | .instanceCollectGarbage _ | .valueDrop _ => ()
  | .instanceGlobal _ | .valueClone .. | .stringCreate .. | .arrayCreate _ | .objectCreate _ => none
  | .objectKeys .. | .functionCreate .. | .stringToUtf8 .. => none
  | .instanceEval .. | .objectGet .. | .objectSet .. | .objectRemove .. | .objectHas .. => .okEmpty
  | .objectGetIndex .. | .objectSetIndex .. | .coerceNumber .. | .coerceString .. => .okEmpty
  | .functionCall .. => .okEmpty
  | .instanceGetData .. => 0
  | .arrayLength .. => (0 : Nat)
  | .coerceBoolean .. => (0 : UInt8)

theorem takenArgs_eq (args : Option (List Descriptor)) (argc : Int) :
    Surface.takenArgs args argc = ownedArgs args argc := by
  cases args with
  | none => exact List.take_nil
  | some ds =>
    rw [Surface.takenArgs, Option.getD_some, ownedArgs]
    split
    · rfl
    · next hneg => rw [Int.toNat_of_nonpos (Int.not_lt.mp hneg), List.take_zero]

section Rejected

variable {i : Option InstanceId} {object : Option Handle}

/-- An operation without an instance or without an object gives back what it owns. -/
theorem forgoes_operate (h : i = none ∨ object = none) (us : List Value)
    (operation : InstanceId → Handle → Act σ Outcome) :
    Forgoes (Surface.operate i object us operation) [] us .okEmpty := by
  have hgive : Forgoes
      (Act.forEach Act.releaseValue us >>= fun _ => pure .okEmpty : Act σ OutcomeDescriptor)
      [] us .okEmpty := (Forgoes.releaseAll us).give fun _ => OutcomeDescriptor.okEmpty
  rcases h with rfl | rfl
  · exact hgive
  · cases i <;> exact hgive

/-- If it owns one descriptor, that is read first. -/
theorem forgoes_operateOn (h : i = none ∨ object = none) (d : Descriptor)
    (operation : Value → InstanceId → Handle → Act σ Outcome) :
    Forgoes (Act.consume d >>= fun u => Surface.operate i object [u] (operation u))
      [d] [d.toValue] .okEmpty :=
  (Forgoes.consume d).bind (forgoes_operate h _ _) fun u => (forgoes_operate h [u] _).quiet

/-- A conversion without an instance gives back the value. -/
theorem forgoes_coerce (d : Descriptor) (operation : Value → InstanceId → Act σ Outcome) :
    Forgoes (Act.consume d >>= fun u => Surface.coerce none u (operation u))
      [d] [d.toValue] .okEmpty := by
  have hrest : ∀ u, Forgoes (Surface.coerce none u (operation u)) [] [u] .okEmpty := fun u =>
    (Forgoes.release u).give fun _ => OutcomeDescriptor.okEmpty
  exact (Forgoes.consume d).bind (hrest _) fun u => (hrest u).quiet

/-- **A rejected call** reads the descriptors it owns and gives back what is in them. -/
theorem rejects (c : PointerCall) (hc : c.IsRejected) :
    Forgoes (c.act : Act σ c.Result) c.owned (c.owned.map Descriptor.toValue) c.blank := by
  have hone : ∀ {β γ : Type} {o : Option β},
      (some o = some none ∨ none = some (none : Option γ)) → o = none := by
    rintro β γ o (h | h)
    · exact Option.some.inj h
    · cases h
  have hboth : ∀ {β γ : Type} {o : Option β} {p : Option γ},
      (some o = some none ∨ some p = some none) → o = none ∨ p = none := by
    rintro β γ o p (h | h)
    · exact .inl (Option.some.inj h)
    · exact .inr (Option.some.inj h)
  cases c with
  | instanceDrop i => obtain rfl := hone hc; exact .pure _
  | instanceGlobal i => obtain rfl := hone hc; exact .pure _
  | instanceEval i source => obtain rfl := hone hc; exact .pure _
  | instanceSetData i slot data => obtain rfl := hone hc; exact .pure _
  | instanceGetData i slot => obtain rfl := hone hc; exact .pure _
  | instanceCollectGarbage i => obtain rfl := hone hc; exact .pure _
  | valueClone i h => obtain rfl := hone hc.symm; exact .pure _
  | valueDrop h => obtain rfl := hone hc.symm; exact .pure _
  | stringCreate i bytes => obtain rfl := hone hc; exact .pure _
  | stringToUtf8 i text =>
    obtain rfl | rfl := hboth hc
    · exact .pure _
    · cases i <;> exact .pure _
  | arrayCreate i => obtain rfl := hone hc; exact .pure _
  | arrayLength i array =>
    obtain rfl | rfl := hboth hc
    · exact .pure _
    · cases i <;> exact .pure _
  | objectCreate i => obtain rfl := hone hc; exact .pure _
  | objectGet i object key => exact forgoes_operateOn (hboth hc) key _
  | objectSet i object key value =>
    have hrest := fun k v => forgoes_operate (hboth hc) [k, v]
      fun i h => Act.request (σ := σ) (.set i h k v)
    have hvalue := fun k => (Forgoes.consume value).bind (hrest k _) fun v => (hrest k v).quiet
    exact (Forgoes.consume key).bind (hvalue _) fun k => (hvalue k).quiet
  | objectRemove i object key => exact forgoes_operateOn (hboth hc) key _
  | objectHas i object key => exact forgoes_operateOn (hboth hc) key _
  | objectKeys i object inherited =>
    obtain rfl | rfl := hboth hc
    · exact .pure _
    · cases i <;> exact .pure _
  | objectGetIndex i object index => exact forgoes_operate (hboth hc) [] _
  | objectSetIndex i object index value => exact forgoes_operateOn (hboth hc) value _
  | coerceBoolean i v =>
    obtain rfl := hone hc
    have hrest : ∀ u, Forgoes
        (Act.releaseValue u >>= fun _ => pure 0 : Act σ UInt8) [] [u] 0 := fun u =>
      (Forgoes.release u).give fun _ => 0
    exact (Forgoes.consume v).bind (hrest _) fun u => (hrest u).quiet
  | coerceNumber i v => obtain rfl := hone hc; exact forgoes_coerce v _
  | coerceString i v => obtain rfl := hone hc; exact forgoes_coerce v _
  | functionCall i function this args argc =>
    have hrest := fun u us => forgoes_operate (hboth hc) (u :: us)
      fun i h => Act.request (σ := σ) (.call i h u us)
    have hargs := fun u => (Forgoes.consumeAll (Surface.takenArgs args argc)).bind
      (hrest u _) fun us => (hrest u us).quiet
    have hcall := (Forgoes.consume this).bind (hargs _) fun u => (hargs u).quiet
    rw [List.append_nil] at hcall
    rw [owned, ← takenArgs_eq]
    exact hcall
  | functionCreate i context => obtain rfl := hone hc; exact .pure _

end Rejected

end PointerCall

/-- What is left when some descriptors were given up and nothing else was done. -/
structure GivenUp (ds : List Descriptor) (s t : State σ) : Prop where
  /-- Each of the handles in the descriptors is gone, -/
  gone : ∀ h ∈ Purse.handlesOf (ds.map Descriptor.toValue), t.world.cell? h = none
  /-- the other handles refer to what they referred to, -/
  kept : ∀ h ∉ Purse.handlesOf (ds.map Descriptor.toValue), t.world.cell? h = s.world.cell? h
  /-- and no handle was made. -/
  made : t.world.handles.size = s.world.handles.size
  /-- The ledger of each instance shows how many different ones of its handles that were out were
  in the descriptors. All else about the instance is as it was: its table, its slots and whether
  its context is lent out or in use. -/
  instances : ∀ i, t.world.instance? i = (s.world.instance? i).map
    (·.releaseMany (s.world.due i (Purse.handlesOf (ds.map Descriptor.toValue))).card)
  /-- Each unknown tag was complained of. -/
  log : t.world.log = s.world.log ++ (complaints ds).toArray
  /-- The rest of the world is as it was: the objects and their properties, the calls in progress,
  the pair that is installed and the callbacks that were dropped, -/
  rest : { t.world with
    instances := s.world.instances, handles := s.world.handles, log := s.world.log } = s.world
  /-- and so is the state of the host. -/
  host : t.host = s.host

theorem givenUp_reading_returning (s : State σ) (ds : List Descriptor) :
    GivenUp ds s ((s.reading ds).returning (ds.map Descriptor.toValue)) where
  gone h hmem := (World.cell?_releaseAll _ _ h).trans (if_pos hmem)
  kept h hmem := (World.cell?_releaseAll _ _ h).trans (if_neg hmem)
  made := World.size_handles_releaseAll _ _
  instances i := World.instance?_releaseAll _ i _
  log := by
    have hlog := congrArg World.log
      (World.rest_releaseAll s.world (Purse.handlesOf (ds.map Descriptor.toValue)))
    rw [← State.reading_returning]
    exact congrArg (· ++ (complaints ds).toArray) hlog
  rest := by
    rw [← State.reading_returning]
    exact congrArg (fun w : World => { w with log := s.world.log })
      (World.rest_releaseAll s.world _)
  host := rfl

/-- **Rejected calls settle what they own** and do nothing besides. If a call needs an instance or a
handle and the pointer is null, it gives a result that says nothing, whatever its other arguments
are and in whatever state it is made. The state it leaves behind does not depend on how scripts and
the host would have answered, as neither is asked. -/
theorem rejected_calls_settle (c : PointerCall) (hc : c.IsRejected) (s : State σ) :
    (c.act : Act σ c.Result).Only Request.IsQuiet
      ∧ ∃ t, (∀ invoke, (c.act : Act σ c.Result).run (answer invoke) s = .ok (c.blank, t))
        ∧ GivenUp c.owned s t :=
  have h := c.rejects hc
  ⟨h.quiet, _, fun invoke => h.run invoke s, givenUp_reading_returning s c.owned⟩

/-- A call without a function. Two handles of the first instance are among the arguments, and one of
the second instance is what the function would be called on. The last descriptor is not counted in,
so the handle in it stays. -/
theorem given_up_without_function : ∃ w : World,
    (Scene.start .ready).run [.change (.newInstance default), .change (.newInstance default),
      .change (.newHandle 0 .null), .change (.newHandle 0 .null), .change (.newHandle 1 .null),
      .change (.newHandle 1 .null)] = some ⟨w, []⟩
    ∧ (PointerCall.functionCall (some 0) none ⟨7, .handle ⟨2⟩⟩
        (some [⟨8, .handle ⟨0⟩⟩, ⟨42, .word 1⟩, ⟨8, .handle ⟨1⟩⟩, ⟨7, .handle ⟨3⟩⟩]) 3).IsRejected
    ∧ ∃ t : State Unit, (∀ invoke, (PointerCall.functionCall (some 0) none ⟨7, .handle ⟨2⟩⟩
        (some [⟨8, .handle ⟨0⟩⟩, ⟨42, .word 1⟩, ⟨8, .handle ⟨1⟩⟩, ⟨7, .handle ⟨3⟩⟩]) 3).act.run
          (answer invoke) ⟨w, ()⟩ = .ok (OutcomeDescriptor.okEmpty, t))
      ∧ (t.world.instance? 0).map (·.ledger) = some ⟨2, 0, 2⟩
      ∧ (t.world.instance? 1).map (·.ledger) = some ⟨2, 0, 1⟩
      ∧ (t.world.cell? ⟨3⟩).isSome := by
  have hnull : (PointerCall.functionCall (some 0) none ⟨7, .handle ⟨2⟩⟩
      (some [⟨8, .handle ⟨0⟩⟩, ⟨42, .word 1⟩, ⟨8, .handle ⟨1⟩⟩, ⟨7, .handle ⟨3⟩⟩]) 3).IsRejected :=
    .inr rfl
  refine ⟨_, rfl, hnull, ?_⟩
  obtain ⟨-, t, ht, hsettled⟩ := rejected_calls_settle _ hnull ⟨_, ()⟩
  refine ⟨t, ht, ?_, ?_, ?_⟩
  · rw [hsettled.instances 0]
    rfl
  · rw [hsettled.instances 1]
    rfl
  · rw [hsettled.kept ⟨3⟩ (by decide)]
    rfl

end ScriptBoundary.Boundary
