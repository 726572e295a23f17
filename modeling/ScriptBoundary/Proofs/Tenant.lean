import Mathlib.Logic.Function.Basic
import ScriptBoundary.Boundary.Invoke
import ScriptBoundary.Proofs.Path

/-!
# Two hosts in one process

Two host programs that know nothing of each other run on one thread, each with an instance of its
own. A `Tenant` is such a program. It refers to things by names of its own: its instance is number
zero, and its handles are numbered in the order in which it was given them. So it can name nothing
it was not given, and what it does cannot depend on the numbers that instances and handles happen to
have.

A `Lodging` is what is kept for a tenant: which instance is its own, which handles its names stand
for, and a diary of all it asked and was asked. `Act.lodged` lets a program of a tenant run: names
are replaced by what they stand for on the way out, and what comes back is named. A request that is
not a tenant's own, as it concerns the whole process or has a name that stands for nothing, is not
made.

The tenants take turns (`runTurns`). In a turn a tenant moves into a new instance or runs a program.
Scripts call the callbacks of either of them, and `house` finds out whose it is.

## What an instance shows

An instance has a number, and its realm an address, which depend on what else there is in the
process. It also depends on when the collector runs which of its registrations are finalized
already. `Instance.shown` leaves out the former and of the registrations shows how many there were.
-/

namespace ScriptBoundary.Boundary

open Script (Limits)

variable {σ α : Type}

/-! ## Other handles, other instances -/

namespace Value

/-- The same value with another handle. -/
def mapHandle (g : Handle → Handle) : Value → Value
  | .composite kind h => .composite kind (g h)
  | v => v

end Value

/-- The same outcome with another handle. -/
def Outcome.mapHandle (g : Handle → Handle) (o : Outcome) : Outcome :=
  { o with value := o.value.mapHandle g }

namespace Descriptor

/-- The handle in a raw value. -/
def handle? (d : Descriptor) : Option Handle := d.payload.handle?

/-- The same raw value with another handle. -/
def mapHandle (g : Handle → Handle) (d : Descriptor) : Descriptor :=
  match d.payload with
  | .word _ => d
  | .handle h => ⟨d.tag, .handle (g h)⟩

end Descriptor

namespace Callback

/-- The same callback, registered on another instance. -/
def mapOwner (f : InstanceId → InstanceId) : Callback → Callback
  | .native name => .native name
  | .foreign owner context => .foreign (f owner) context

/-- Whether a callback is told of no instance but the first. -/
def isOwn : Callback → Bool
  | .native _ => true
  | .foreign owner _ => owner == 0

end Callback

namespace Request

/-- The same request to another instance, with other handles. -/
def map (f : InstanceId → InstanceId) (g : Handle → Handle) : Request → Request
  | .newInstance limits => .newInstance limits
  | .destroy i => .destroy (f i)
  | .inspect i => .inspect (f i)
  | .eval i source => .eval (f i) source
  | .global i => .global (f i)
  | .createObject i => .createObject (f i)
  | .createArray i => .createArray (f i)
  | .createString i bytes => .createString (f i) bytes
  | .get i object key => .get (f i) (g object) (key.mapHandle g)
  | .set i object key value => .set (f i) (g object) (key.mapHandle g) (value.mapHandle g)
  | .remove i object key => .remove (f i) (g object) (key.mapHandle g)
  | .has i object key => .has (f i) (g object) (key.mapHandle g)
  | .getIndex i object index => .getIndex (f i) (g object) index
  | .setIndex i object index value => .setIndex (f i) (g object) index (value.mapHandle g)
  | .keys i object inherited => .keys (f i) (g object) inherited
  | .arrayLength i array => .arrayLength (f i) (g array)
  | .toUtf8 i text => .toUtf8 (f i) (g text)
  | .call i function this args =>
    .call (f i) (g function) (this.mapHandle g) (args.map (·.mapHandle g))
  | .register i callback => .register (f i) (callback.mapOwner f)
  | .toBoolean i v => .toBoolean (f i) (v.mapHandle g)
  | .toNumber i v => .toNumber (f i) (v.mapHandle g)
  | .toText i v => .toText (f i) (v.mapHandle g)
  | .errorValue i e => .errorValue (f i) e
  | .setSlot i slot data => .setSlot (f i) slot data
  | .getSlot i slot => .getSlot (f i) slot
  | .collect i => .collect (f i)
  | .clone h => .clone (g h)
  | .release h => .release (g h)
  | .sameValue a b => .sameValue (g a) (g b)
  | .typeName h => .typeName (g h)
  | .install pair => .install pair
  | .lifecycle => .lifecycle
  | .note e => .note e
  | .dropped => .dropped
  | .log => .log

/-- The handles in a request. -/
def handles : Request → List Handle
  | .get _ object key | .remove _ object key | .has _ object key => object :: key.handle?.toList
  | .set _ object key value => object :: key.handle?.toList ++ value.handle?.toList
  | .getIndex _ object _ | .keys _ object _ => [object]
  | .setIndex _ object _ value => object :: value.handle?.toList
  | .arrayLength _ h | .toUtf8 _ h | .clone h | .release h | .typeName h => [h]
  | .call _ function this args =>
    function :: this.handle?.toList ++ args.flatMap (·.handle?.toList)
  | .toBoolean _ v | .toNumber _ v | .toText _ v => v.handle?.toList
  | .sameValue a b => [a, b]
  | _ => []

/-- Whether a request is to the first instance, or to none and no concern of the whole process. -/
def isOwn : Request → Bool
  | .newInstance _ | .install _ | .dropped | .log => false
  | .inspect i => i == 0
  | .register i c => i == 0 && c.isOwn
  | r => r.addressee?.all (· == 0)

theorem answer_map (f : InstanceId → InstanceId) (g : Handle → Handle) (r : Request) :
    (r.map f g).Answer = r.Answer := by
  cases r <;> rfl

/-- What is answered if there is nothing to say. -/
def noAnswer : (r : Request) → r.Answer
  | .newInstance _ => (0 : Nat)
  | .inspect _ => none
  | .eval .. | .get .. | .set .. | .remove .. | .has .. | .getIndex .. | .setIndex .. | .call ..
  | .toNumber .. | .toText .. => Outcome.okEmpty
  | .global _ | .createObject _ | .createArray _ | .createString .. | .keys .. | .clone _ =>
    (⟨0⟩ : Handle)
  | .register .. | .errorValue .. => Value.undefined
  | .arrayLength .. => (0 : Nat)
  | .toUtf8 .. | .typeName _ => ""
  | .toBoolean .. | .sameValue .. => false
  | .getSlot .. => (0 : UInt64)
  | .lifecycle => none
  | .dropped => #[]
  | .log => #[]
  | .destroy _ | .setSlot .. | .collect _ | .release _ | .install _ | .note _ => ()

end Request

/-- What an instance shows of itself to whoever does not know the rest of the process. -/
def Instance.shown (x : Instance) : Instance :=
  { x with
    number := 0
    realm := 0
    lent := none
    table := ⟨[], x.table.nextId, x.table.live + x.table.finalized, 0⟩ }

namespace Request

/-- The handle that an answer hands out. -/
def handed? : (r : Request) → r.Answer → Option Handle
  | .eval .., o | .get .., o | .set .., o | .remove .., o | .has .., o | .getIndex .., o
  | .setIndex .., o | .call .., o | .toNumber .., o | .toText .., o => Outcome.value o |>.handle?
  | .global _, h | .createObject _, h | .createArray _, h | .createString .., h | .keys .., h
  | .clone _, h => some h
  | .register .., v | .errorValue .., v => Value.handle? v
  | _, _ => none

/-- An answer with another handle, and with as much of an instance as it shows. -/
def mapAnswer (g : Handle → Handle) : (r : Request) → r.Answer → r.Answer
  | .inspect _, x => Option.map Instance.shown x
  | .eval .., o | .get .., o | .set .., o | .remove .., o | .has .., o | .getIndex .., o
  | .setIndex .., o | .call .., o | .toNumber .., o | .toText .., o => Outcome.mapHandle g o
  | .global _, h | .createObject _, h | .createArray _, h | .createString .., h | .keys .., h
  | .clone _, h => g h
  | .register .., v | .errorValue .., v => Value.mapHandle g v
  | _, a => a

end Request

/-! ## Tenants -/

/-- The two hosts. -/
inductive Side where
  | left | right
deriving DecidableEq, Repr

/-- The one next door. -/
def Side.other : Side → Side
  | .left => .right
  | .right => .left

/-- The code of a host that scripts can call, for a host that has one instance. -/
structure Tenant (σ : Type) where
  native : Nat → Value → List Value → Act σ Outcome
  wrapper : LifecyclePair → UInt64 → Descriptor → List Descriptor → Act σ OutcomeDescriptor

/-- What a tenant has asked and what it was asked. -/
inductive DiaryEntry where
  | asked (r : Request) (a : r.Answer)
  | called (name : Nat) (this : Value) (args : List Value)
  | wrapped (pair : LifecyclePair) (context : UInt64) (this : Descriptor) (args : List Descriptor)

/-- What is kept for a tenant. -/
structure Lodging (σ : Type) where
  home : Option InstanceId
  /-- What its names stand for. -/
  names : List Handle
  /-- Latest first. -/
  diary : List DiaryEntry
  /-- Its own state. -/
  own : σ

/-- What is kept for the tenants. -/
abbrev House (σ : Type) := Side → Lodging σ

namespace Lodging

variable (l : Lodging σ)

/-- A tenant that has no instance yet. -/
def empty (own : σ) : Lodging σ := ⟨none, [], [], own⟩

/-- Whether a name stands for anything. -/
def knows (h : Handle) : Bool := decide (h.id < l.names.length)

/-- What a name stands for. -/
def find (h : Handle) : Handle := l.names.getD h.id default

/-- The names of handles that are being given to the tenant. -/
def naming (given : List Handle) (h : Handle) : Handle := ⟨l.names.length + given.idxOf h⟩

def receive (given : List Handle) : Lodging σ := { l with names := l.names ++ given }

def write (e : DiaryEntry) : Lodging σ := { l with diary := e :: l.diary }

/-- What the tenant is told in answer to a request. -/
def told (r : Request) (a : r.Answer) : r.Answer :=
  r.mapAnswer (l.naming (r.handed? a).toList) a

/-- The tenant is told an answer. -/
def hear (r : Request) (a : r.Answer) : Lodging σ :=
  (l.receive (r.handed? a).toList).write (.asked r (l.told r a))

/-- The value a tenant means. A name that stands for nothing counts as undefined. -/
def meant (v : Value) : Value := if v.handle?.all l.knows then v.mapHandle l.find else .undefined

/-- The raw value a tenant means. -/
def meantRaw (d : Descriptor) : Descriptor :=
  match d.toValue? with
  | .ok v => .ofValue (l.meant v)
  | .error _ => ⟨d.tag, .clear⟩

end Lodging

namespace Act

/-- Changes what is kept for a tenant. -/
def keep (s : Side) (f : Lodging σ → Lodging σ) (next : Act (House σ) α) : Act (House σ) α :=
  .read fun house => .write (Function.update house s (f (house s))) next

/-- Asks what a tenant asks, in the tenant's name. -/
def askFor (s : Side) (i : InstanceId) (l : Lodging σ) (r : Request)
    (next : r.Answer → Act (House σ) α) : Act (House σ) α :=
  .ask (r.map (fun _ => i) l.find) fun a =>
    let a := cast (r.answer_map (fun _ => i) l.find) a
    .read fun house => keep s (·.hear r a) (next ((house s).told r a))

/-- Runs a program of a tenant. -/
def lodged (s : Side) : Act σ α → Act (House σ) α
  | .done a => .done a
  | .ask r next => .read fun house =>
    match (house s).home with
    | some i =>
      if r.isOwn && r.handles.all (house s).knows then
        askFor s i (house s) r fun a => (next a).lodged s
      else (next r.noAnswer).lodged s
    | none => (next r.noAnswer).lodged s
  | .read next => .read fun house => (next (house s).own).lodged s
  | .write own next => keep s (fun l => { l with own }) (next.lodged s)

end Act

/-- Which tenant an instance is the home of. -/
def House.sideAt (house : House σ) (i : InstanceId) : Option Side :=
  if (house .left).home = some i then some .left
  else if (house .right).home = some i then some .right
  else none

namespace Tenant

variable (tenant : Tenant σ) (s : Side)

/-- What a native callback of a tenant does. -/
def serveNative (name : Nat) (this : Value) (args : List Value) : Act (House σ) Outcome :=
  let given := (this :: args).flatMap (·.handle?.toList)
  .read fun house =>
    let naming := (house s).naming given
    let this := this.mapHandle naming
    let args := args.map (·.mapHandle naming)
    .keep s (fun l => (l.receive given).write (.called name this args))
      (((tenant.native name this args).lodged s).bind fun o =>
        .read fun house => .done ⟨(house s).meant o.value, o.isException⟩)

/-- What the wrapper of a tenant does. -/
def serveWrapper (pair : LifecyclePair) (context : UInt64) (this : Descriptor)
    (args : List Descriptor) : Act (House σ) OutcomeDescriptor :=
  let given := (this :: args).flatMap (·.handle?.toList)
  .read fun house =>
    let naming := (house s).naming given
    let this := this.mapHandle naming
    let args := args.map (·.mapHandle naming)
    .keep s (fun l => (l.receive given).write (.wrapped pair context this args))
      (((tenant.wrapper pair context this args).lodged s).bind fun o =>
        .read fun house => .done ⟨(house s).meantRaw o.value, o.isException⟩)

end Tenant

/-- The code of both tenants. -/
def house (tenants : Side → Tenant σ) : Host (House σ) where
  native name i this args := .read fun house =>
    match house.sideAt i with
    | some s => (tenants s).serveNative s name this args
    | none => .done .okEmpty
  wrapper pair i context this args := .read fun house =>
    match house.sideAt i with
    | some s => (tenants s).serveWrapper s pair context this args
    | none => .done .okEmpty

/-! ## Turns -/

/-- What a tenant does in a turn. -/
inductive Deed (σ : Type) where
  /-- It has its instance made, if it has none. -/
  | moveIn (limits : Limits)
  | act (m : Act σ Unit)

def Deed.lodged (s : Side) : Deed σ → Act (House σ) Unit
  | .moveIn limits => .read fun house =>
    match (house s).home with
    | some _ => .done ()
    | none => .ask (.newInstance limits) fun i =>
      .keep s (fun l => { l with home := some i }) (.done ())
  | .act m => m.lodged s

/-- The turns of two tenants, one after the other. A failure ends it all, and is put down to the
tenant in whose turn it occurred. -/
def runTurns (tenants : Side → Tenant σ) :
    List (Side × Deed σ) → State (House σ) → Except (Side × Fault) (State (House σ))
  | [], t => .ok t
  | (s, deed) :: rest, t =>
    match execute (house tenants) (deed.lodged s) t.world t.host with
    | .ok (_, t) => runTurns tenants rest t
    | .error e => .error (s, e)

/-- A process in which no instance was ever made, and two tenants. -/
def emptyHouse (platform : Platform) (lifecycle : Option LifecyclePair) (own : Side → σ) :
    State (House σ) :=
  ⟨{ World.blank with platform, lifecycle }, fun s => .empty (own s)⟩

end ScriptBoundary.Boundary
