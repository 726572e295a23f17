import ScriptBoundary.Proofs.Enumeration
import ScriptBoundary.Proofs.Housekeeping

/-!
# What a host ever holds

A host has the turn before it asks for something, after it has been answered, and when a script has
called it: these are the states that are `Reached`, from a process without instances on, whatever
the host does. While a request is answered, its script has the turn, and `Request.ComesTo` says
which points that gets to. Where such a point is a call, the host has the turn again, one level
further down. The host is called nowhere else, and what its code does inside is reached as well
(`Reached.visited`, `Reached.run`).

In all these states handles hold texts and objects only, no dates among them, and whatever is handed
out is classified by its referent. A text and an object can be used where an object is wanted; only
undefined and null cannot. So an operation that reads or changes a property of what a handle holds
can fail in two places: where its key is converted, and where the property is accessed.

## Main results

* `Reached.orderly`: reached states are orderly
* `handles_hold_texts_and_objects`: what handles hold, and what follows for operations
-/

namespace ScriptBoundary.Boundary

open Script (Activation Comp Completion Failure HostCall Key Program Ref)

variable {σ α : Type} {host : Host σ} {n : Nat} {s t u : State σ} {r : Request}

/-! ## States that are reached -/

/-- Whether the script of a request comes to a certain point. -/
def Request.ComesTo (host : Host σ) (n : Nat) (r : Request) (s : State σ) (q : Program)
    (u : State σ) : Prop :=
  ∃ e act vs, r.runs? s.world = some e ∧ s.world.context? e.owner = some act
    ∧ Steps host n (e.program act s.world) (e.opening act s) vs q u

/-- **The states in which the host has the turn**, with so many levels of nesting left. -/
inductive Reached (host : Host σ) : Nat → State σ → Prop where
  | start (p : Platform) (n : Nat) (g : σ) : Reached host n ⟨(Scene.start p).world, g⟩
  /-- The host changes its own state. -/
  | write {n : Nat} {s : State σ} (h : Reached host n s) (g : σ) :
    Reached host n { s with host := g }
  /-- It has asked for something and has been answered. -/
  | answered {n : Nat} {s t : State σ} {r : Request} {a : r.Answer} (h : Reached host n s)
    (ha : answer (invokeAt host n) r s = .ok (a, t)) : Reached host n t
  /-- The script of what it has asked for calls it. -/
  | called {n : Nat} {s u : State σ} {r : Request} {k : HostCall} {c : Callback}
    {next : Completion Script.Value → Program} (h : Reached host (n + 1) s)
    (hk : r.ComesTo host (n + 1) s (.call k next) u) (hc : u.world.callbackOf k.anchor = some c) :
    Reached host n { u with world := u.world.atEntry k }

/-- The script of a request is at points where the world is orderly. -/
theorem Request.ComesTo.standing {q : Program} (h : r.ComesTo host n s q u)
    (hs : s.world.Orderly) : Standing q u := by
  obtain ⟨e, act, vs, he, hact, hsteps⟩ := h
  exact hsteps.standing (host.keepsOrder n) (standing_opening he hact hs)

/-- **Reached states are orderly.** -/
theorem Reached.orderly (h : Reached host n s) : s.world.Orderly := by
  induction h with
  | start p n g => exact World.orderly_start p
  | write h g ih => exact ih
  | answered h ha ih => exact (orderly_answer (host.keepsOrder _) ih ha).1
  | called h hk hc ih =>
    have hstanding := hk.standing ih
    exact hstanding.orderly.atEntry hstanding.passed

/-- Whatever the host does from a reached state, it gets to another one. -/
theorem Reached.run (h : Reached host n s) {m : Act σ α} {a : α}
    (hrun : m.run (answer (invokeAt host n)) s = .ok (a, t)) : Reached host n t :=
  Act.run_keeps (fun _ _ _ _ h ha => h.answered ha) (fun _ g h => h.write g) h hrun

/-- A script comes to each of the calls that it makes. -/
theorem Steps.exists_of_mem {p q : Program} {vs : List (Visit σ)} (h : Steps host n p s vs q t)
    {v : Visit σ} (hv : v ∈ vs) :
    ∃ ws next, Steps host n p s ws (.call v.call next) v.before := by
  induction h with
  | refl p s => cases hv
  | look _ ih =>
    obtain ⟨ws, next, hws⟩ := ih hv
    exact ⟨ws, next, .look hws⟩
  | edit _ ih =>
    obtain ⟨ws, next, hws⟩ := ih hv
    exact ⟨ws, next, .edit hws⟩
  | visit hw _ ih =>
    rcases List.mem_cons.mp hv with rfl | hv
    · exact ⟨[], _, .refl _ _⟩
    · obtain ⟨ws, next, hws⟩ := ih hv
      exact ⟨_, next, .visit hw hws⟩
  | gone hk hn _ ih =>
    obtain ⟨ws, next, hws⟩ := ih hv
    exact ⟨ws, next, .gone hk hn hws⟩

/-- **The host is called in reached states**, and they are reached when its code has ended: for each
call that is made while a request is answered. -/
theorem Reached.visited (h : Reached host (n + 1) s) {e : Errand} {act : Activation} {q : Program}
    {vs : List (Visit σ)} (he : r.runs? s.world = some e)
    (hact : s.world.context? e.owner = some act)
    (hsteps : Steps host (n + 1) (e.program act s.world) (e.opening act s) vs q u) :
    ∀ v ∈ vs, Reached host n { v.before with world := v.before.world.atEntry v.call }
      ∧ Reached host n v.after := by
  intro v hv
  obtain ⟨ws, next, hcall⟩ := hsteps.exists_of_mem hv
  have hgenuine := hsteps.genuine v hv
  have hentry := h.called ⟨e, act, ws, he, hact, hcall⟩ hgenuine.found
  obtain ⟨m, hm, hran⟩ := hgenuine.ran
  cases hm
  exact ⟨hentry, hentry.run hran⟩

/-! ## Access to properties -/

/-- A request for a property of what a handle holds: the key is converted first, and the property is
accessed last. -/
structure Access where
  owner : InstanceId
  object : Handle
  args : List Value
  convert : List Script.Value → Comp Key
  access : List Script.Value → Key → Ref → Comp Script.Value

/-- How a request accesses a property, if it does. -/
def Request.access? : Request → Option Access
  | .get i object key =>
    some ⟨i, object, [key], fun vs => Script.machine.toKey (vs.getD 0 .undefined),
      fun _ k r => Script.machine.get r k⟩
  | .set i object key value =>
    some ⟨i, object, [key, value], fun vs => Script.machine.toKey (vs.getD 0 .undefined),
      fun vs k r => do
        let _ ← Script.machine.set r k (vs.getD 1 .undefined)
        return .undefined⟩
  | .remove i object key =>
    some ⟨i, object, [key], fun vs => Script.machine.toKey (vs.getD 0 .undefined),
      fun _ k r => return .boolean (← Script.machine.deleteOrThrow r k)⟩
  | .has i object key =>
    some ⟨i, object, [key], fun vs => Script.machine.toKey (vs.getD 0 .undefined),
      fun _ k r => return .boolean (← Script.machine.has r k)⟩
  | .getIndex i object index =>
    some ⟨i, object, [], fun _ => pure (Key.ofNat index.toNat),
      fun _ k r => Script.machine.get r k⟩
  | .setIndex i object index value =>
    some ⟨i, object, [value], fun _ => pure (Key.ofNat index.toNat), fun vs k r => do
      let _ ← Script.machine.set r k (vs.getD 0 .undefined)
      return .undefined⟩
  | _ => none

namespace Access

variable {x : Access}

/-- The values of the arguments, once they have been taken. -/
def values (x : Access) (act : Activation) (w : World) : List Script.Value :=
  ((w.occupy x.owner).decodeAll act.realm x.args).1

/-- The state in which the script begins. -/
def opening (x : Access) (act : Activation) (s : State σ) : State σ :=
  { s with world := ((s.world.occupy x.owner).decodeAll act.realm x.args).2 }

/-- The script of a request for a property of a value. -/
def body (x : Access) (object : Script.Value) (vs : List Script.Value) : Comp Script.Value :=
  Comp.keeping (object :: vs) do
    let k ← x.convert vs
    let r ← Script.toObject object
    x.access vs k r

/-- **Where a request for a property fails**: in the conversion of the key, or in the access, once
there is a key and an object. -/
inductive Fails (host : Host σ) (n : Nat) (x : Access) (act : Activation) (s : State σ)
    (object : Script.Value) (f : Failure) (u : State σ) : Prop where
  | key (hk : (x.convert (x.values act s.world)).Leads host n
      (act.keeping (object :: x.values act s.world)) (x.opening act s) f.completion u)
  | access {k : Key} {r : Ref} {t t' : State σ}
      (hk : (x.convert (x.values act s.world)).Leads host n
        (act.keeping (object :: x.values act s.world)) (x.opening act s) (.value k) t)
      (hr : (Script.toObject object).Leads host n (act.keeping (object :: x.values act s.world)) t
        (.value r) t')
      (ha : (x.access (x.values act s.world) k r).Leads host n
        (act.keeping (object :: x.values act s.world)) t' f.completion u)

/-- What such a request does as an operation. -/
theorem exists_errand (hx : r.access? = some x) (s : State σ) :
    ∃ e, r.runs? s.world = some e ∧ e.owner = x.owner
      ∧ ∀ act, e.opening act s = x.opening act s ∧ e.program act s.world
        = (x.body (s.world.referent x.object) (x.values act s.world)).start act := by
  cases r with
  | get | set | remove | has | getIndex | setIndex =>
    obtain rfl := Option.some.inj hx
    exact ⟨_, rfl, rfl, fun _ => ⟨rfl, rfl⟩⟩
  | _ => cases hx

theorem stays_convert (hx : r.access? = some x) (vs : List Script.Value) :
    (x.convert vs).Stays (fun _ => True) fun _ => True := by
  cases r with
  | get | set | remove | has =>
    obtain rfl := Option.some.inj hx
    exact (Script.machine_stays.toKey (Script.Value.within_everywhere _)).any
  | getIndex | setIndex =>
    obtain rfl := Option.some.inj hx
    exact .pure trivial
  | _ => cases hx

theorem stays_access (hx : r.access? = some x) (vs : List Script.Value) (k : Key) (q : Ref) :
    (x.access vs k q).Stays (fun _ => True) fun _ => True := by
  cases r with
  | get | getIndex =>
    obtain rfl := Option.some.inj hx
    exact (Script.machine_stays.get trivial).any
  | set | setIndex =>
    obtain rfl := Option.some.inj hx
    exact .bind (Script.machine_stays.set trivial (Script.Value.within_everywhere _)) fun _ _ =>
      .pure trivial
  | remove =>
    obtain rfl := Option.some.inj hx
    exact .bind Script.machine_stays.deleteOrThrow fun _ _ => .pure trivial
  | has =>
    obtain rfl := Option.some.inj hx
    exact .bind Script.machine_stays.has fun _ _ => .pure trivial
  | _ => cases hx

end Access

theorem World.referent_of_cell? {w : World} {h : Handle} {c : HandleCell}
    (hc : w.cell? h = some c) : w.referent h = c.value := by
  rw [referent, hc]
  rfl

/-- An exception is what has become of a script that failed. -/
theorem exists_failure_of_exception {invoke : Invoke σ} {i : InstanceId} {act : Activation}
    {c : Completion Script.Value} {o : Outcome} (hc : conclude invoke i act c s = .ok (o, t))
    (ho : o.isException = true) : ∃ f : Failure, c = f.completion := by
  cases c with
  | value v =>
    cases hc
    cases ho
  | thrown v => exact ⟨.thrown v, rfl⟩
  | limit fault => exact ⟨.limit fault, rfl⟩

/-- Wherever a value that is not undefined or null is made an object, one is there. -/
theorem exists_object_of_not_nullish {v : Script.Value} (hv : v.isNullish = false)
    (act : Activation) (heap : Script.Heap) :
    ∃ q heap', (Script.toObject v).Gives act heap q heap' := by
  obtain ⟨q, heap', hgives, -⟩ := Script.exists_gives_toObject hv
  exact ⟨q, heap', hgives⟩

/-- **A script that accesses a property of what a handle holds** fails in the conversion of the key
or in the access. -/
theorem Access.fails_of_run {x : Access} (hx : r.access? = some x) {act : Activation}
    {object : Script.Value} (hobject : object.isNullish = false) {f : Failure}
    (hrun : runProgram (invokeAt host n) ((x.body object (x.values act s.world)).start act)
      (x.opening act s) = .ok (f.completion, u)) : x.Fails host n act s object f u := by
  have hkept : runProgram (invokeAt host n)
      ((x.convert (x.values act s.world) >>= fun k => Script.toObject object >>= fun q =>
        x.access (x.values act s.world) k q).start
          (act.keeping (object :: x.values act s.world))) (x.opening act s) =
      .ok (f.completion, u) := hrun
  obtain ⟨f', hf, hconvert⟩ | ⟨k, t, -, hconvert, hrest⟩ := (stays_convert hx _).run_bind hkept
  · obtain rfl : f' = f := by cases f' <;> cases f <;> cases hf <;> rfl
    exact .key hconvert
  · obtain ⟨q, h', hgives⟩ := exists_object_of_not_nullish hobject
      (act.keeping (object :: x.values act s.world)) t.world.heap
    rw [hgives.run_bind] at hrest
    exact .access hconvert (hgives.leads rfl) ((stays_access hx _ k q).leads_of_run hrest)

/-- **If the names of an object cannot be listed**, the walk along its prototypes has failed. -/
theorem leads_namesFrom_of_run {act : Activation} {object : Script.Value}
    (hobject : object.isNullish = false) {inherited : Bool} {f : Failure}
    (hrun : runProgram (invokeAt host n) ((Operation.keys object inherited).start act) s =
      .ok (f.completion, u)) : ∃ q t, Opens host n act object s q t
      ∧ (Operation.namesFrom inherited (s.world.heap.cells.size + 2) q []).Leads host n
        (act.keeping [object]) t f.completion u := by
  obtain ⟨q, h', hgives⟩ := exists_object_of_not_nullish hobject (act.keeping [object]) s.world.heap
  have hopened : Steps host n ((Operation.keys object inherited).start act) s [] _
      (s.withHeap h') := .look (hgives.steps host n s _ rfl)
  obtain ⟨vs, hvs⟩ := exists_steps_of_runProgram (hopened.runProgram_eq.symm.trans hrun)
  have hstays : (Operation.namesFrom inherited (s.world.heap.cells.size + 2) q []).Stays
    (fun _ => True) fun _ => True := .namesFrom _ trivial _
  obtain ⟨c, w, ws, -, hc, hrest⟩ := hstays.exists_leads hvs
  refine ⟨q, _, hgives.leads rfl, ?_⟩
  cases c with
  | value names =>
    have hended := hrest.runProgram_eq
    cases f <;> cases hended
  | thrown v =>
    cases f <;> cases hrest
    exact hc
  | limit fault =>
    cases f <;> cases hrest
    exact hc

/-! ## The guarantees -/

/-- What is so of handles in a state in which the host has the turn. -/
structure HandlesHold (host : Host σ) (n : Nat) (s : State σ) : Prop where
  /-- What a handle holds is a text, or an object that is there and is no date. -/
  held : ∀ h c, s.world.cell? h = some c → c.value.Holdable s.world.heap
  /-- So it is at each point of the script of a request. -/
  midway : ∀ (r : Request) q u, r.ComesTo host n s q u → ∀ h c, u.world.cell? h = some c →
    c.value.Holdable u.world.heap
  /-- What a handle holds is of one kind, -/
  kinds : ∀ h, s.world.cell? h ≠ none → ∃! kind, s.world.Refers kind h
  /-- for as long as the handle is out. -/
  lasting : ∀ kind h, s.world.Refers kind h → ∀ st ms d, Scene.run ⟨s.world, st⟩ ms = some d →
    d.world.cell? h = none ∨ d.world.Refers kind h
  /-- What a request is answered is of the kind that it is said to be, -/
  answered : ∀ r a t, answer (invokeAt host n) r s = .ok (a, t) → r.Classifies s.world t.world a
  /-- and so is what is handed to a callback when the script of a request calls it. -/
  handed : ∀ (r : Request) k next u, r.ComesTo host n s (.call k next) u →
    ∀ v ∈ u.world.handed k, (u.world.atEntry k).Names v
  /-- Wherever what a handle holds is made an object, one is there, and nothing is thrown. -/
  coerces : ∀ h c, s.world.cell? h = some c → ∀ act heap, ∃ q heap',
    (Script.toObject c.value).Gives act heap q heap'
  /-- If access to a property through a handle gives an exception, then the script has failed in the
  conversion of the key or in the access itself, and the exception is what has become of that. -/
  exceptions : ∀ r x c a o t, r.access? = some x → s.world.cell? x.object = some c →
    answer (invokeAt host n) r s = .ok (a, t) → r.outcome? a = some o → o.isException = true →
    ∃ act f u v, s.world.context? x.owner = some act ∧ x.Fails host n act s c.value f u
      ∧ conclude (invokeAt host n) x.owner act f.completion u = .ok (o, v)
  /-- If the names of what a handle holds cannot be listed, then the walk along the prototypes has
  failed, once there was an object to begin with. -/
  listing : ∀ i h inherited c f u, s.world.cell? h = some c →
    (Request.keys i h inherited).ComesTo host n s (.done (Failure.completion f)) u →
    ∃ act q t, s.world.context? i = some act ∧ Opens host n act c.value (s.occupied i) q t
      ∧ (Operation.namesFrom inherited (s.world.heap.cells.size + 2) q []).Leads host n
        (act.keeping [c.value]) t f.completion u

/-- **Handles hold texts and objects**, and no dates. What is handed out is classified by its
referent, and what is out can be used as an object. -/
theorem handles_hold_texts_and_objects (h : Reached host n s) : HandlesHold host n s := by
  have horderly := h.orderly
  constructor
  case held => exact fun h c hc => horderly.holds h c hc
  case midway => exact fun r q u hq h c hc => (hq.standing horderly).orderly.holds h c hc
  case kinds =>
    intro h hh
    obtain ⟨c, hc⟩ := Option.ne_none_iff_exists'.mp hh
    obtain ⟨kind, hkind⟩ := exists_describes (horderly.holds h c hc)
    refine ⟨kind, ⟨c, hc, hkind⟩, fun kind' ⟨c', hc', hkind'⟩ => ?_⟩
    obtain rfl := Option.some.inj (hc.symm.trans hc')
    exact hkind'.unique hkind
  case lasting =>
    intro kind h ⟨c, hc, hkind⟩ st ms d hms
    have hlt : h.id < s.world.purse.cells.size :=
      Purse.lt_of_cell? (p := s.world.purse) (by rw [World.cell?_purse, hc]; nofun)
    rcases (Scene.evolves_run hms).cell h hlt with hsame | hgone
    · exact .inr ⟨c, (World.cell?_purse _ _).symm.trans (hsame.trans hc),
        hkind.evolves (Scene.evolvesHeap_run hms)⟩
    · exact .inl hgone
  case answered => exact fun r a t ha => (orderly_answer (host.keepsOrder n) horderly ha).2
  case handed =>
    exact fun r k next u hk => World.names_handed (hk.standing horderly).passed
  case coerces => exact fun h c hc => exists_object_of_not_nullish (horderly.holds h c hc).isNullish
  case exceptions =>
    intro r x c a o t hx hc ha ho hexception
    obtain ⟨e, he, howner, hscript⟩ := Access.exists_errand hx s
    obtain ⟨act, d, u, v, hact, hrun, hmade, -⟩ := exists_of_script he ha
    obtain ⟨hopening, hprogram⟩ := hscript act
    rw [howner] at hact
    rw [hprogram, hopening, World.referent_of_cell? hc] at hrun
    cases hmade with
    | outcome ho' hconclude =>
      obtain rfl := Option.some.inj (ho.symm.trans ho')
      obtain ⟨f, rfl⟩ := exists_failure_of_exception hconclude hexception
      exact ⟨act, f, u, v, hact,
        Access.fails_of_run hx (horderly.holds _ c hc).isNullish hrun, howner ▸ hconclude⟩
    | _ => cases ho
  case listing =>
    intro i h inherited c f u hc hu
    obtain ⟨e, act, vs, he, hact, hsteps⟩ := hu
    obtain rfl := Option.some.inj he
    obtain ⟨q, t, hopens, hleads⟩ := leads_namesFrom_of_run (s := s.occupied i)
      (horderly.holds h c hc).isNullish (World.referent_of_cell? hc ▸ hsteps.runProgram_eq)
    rw [s.heap_occupied] at hleads
    exact ⟨act, q, t, hact, hopens, hleads⟩

/-- A host program that registers a callback and has it called with a text and an object. -/
def Act.passAround : Act Unit Outcome := do
  let i ← Act.request (.newInstance ⟨9, 9, 99⟩)
  let function ← Act.request (.register i (.native 0))
  let text ← Act.request (.createString i [104, 105])
  let object ← Act.request (.createObject i)
  match function.handle? with
  | some h => Act.request (.call i h (.composite .string text) [.composite .object object])
  | none => return .okEmpty

/-- The callback returns the text and keeps the object. -/
theorem text_passed_around : ∃ o t,
    Act.passAround.run (answer (invokeAt Host.mirror 2)) ⟨(Scene.start .ready).world, ()⟩ =
      .ok (o, t)
    ∧ o.value.kind? = some .string
    ∧ [0, 4, 5].map (fun k => t.world.heap.typeName (t.world.referent ⟨k⟩)) =
      ["function", "object", "string"]
    ∧ Reached Host.mirror 2 t ∧ HandlesHold Host.mirror 2 t := by
  have hrun : (Act.passAround.run (answer (invokeAt Host.mirror 2))
      ⟨(Scene.start .ready).world, ()⟩).toOption.any (fun q => q.1.value.kind? == some .string
        && [0, 4, 5].map (fun k => q.2.world.heap.typeName (q.2.world.referent ⟨k⟩)) ==
          ["function", "object", "string"]) = true := by
    decide +kernel
  cases hr : Act.passAround.run (answer (invokeAt Host.mirror 2))
      ⟨(Scene.start .ready).world, ()⟩ with
  | error e =>
    rw [hr] at hrun
    cases hrun
  | ok q =>
    rw [hr] at hrun
    obtain ⟨hkind, hnames⟩ := (Bool.and_eq_true _ _).mp hrun
    have hreached : Reached Host.mirror 2 q.2 := (Reached.start .ready 2 ()).run hr
    exact ⟨q.1, q.2, rfl, eq_of_beq hkind, eq_of_beq hnames, hreached,
      handles_hold_texts_and_objects hreached⟩

end ScriptBoundary.Boundary
