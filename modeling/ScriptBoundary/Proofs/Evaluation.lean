import ScriptBoundary.Proofs.Collection
import ScriptBoundary.Proofs.GlobalNames
import ScriptBoundary.Proofs.Lending

/-!
# Where a script is evaluated

Every instance has a global object, and `global` gives a handle of it. Whether a script that is
evaluated on the instance finds that object under `globalThis` is another question. It runs in the
context that the operation gets, in the realm this context is in, and a call of a host function
takes the context it is made in to the realm of that function, for as long as the call lasts.

So without a callback of the instance on the stack a script is evaluated in the realm of the
instance. With one it is evaluated in the context lent, and that may have been taken elsewhere: the
callback has called a function of another instance, and what runs there evaluates a script on the
first one. What this script declares goes to the global object of the other instance.

## Main results

* `answer_eval`: evaluating a script that comes to an end by itself
* `evaluation_follows_the_context`: in which realm a script is evaluated, and on which global object
* `evaluated_in_the_other`: a scene in which the two differ
-/

namespace ScriptBoundary.Boundary

open Script (Activation Anchor Comp Heap Program Ref ScriptCode)

variable {σ : Type}

/-! ## The realm of a context -/

/-- The innermost call on a stack that was made in a context. -/
def innermostIn (st : List CallFrame) (context : Nat) : Option Invocation :=
  (invocations st).find? (·.activation.context == context)

/-- New cells leave the global object of an instance alone. -/
theorem World.Apart.globalOf_extends {w u : World} {i : InstanceId} {x y : Instance} (h : w.Apart)
    (hx : w.instance? i = some x) (hext : w.heap.Extends u.heap) (hrealm : y.realm = x.realm) :
    u.globalOf y = w.globalOf x := by
  obtain ⟨s, o, ho⟩ := h.hasGlobal i x hx
  have hat : u.heap.globalAt x.realm = w.heap.globalAt x.realm := ho.globalAt_mono hext
  exact (congrArg u.heap.globalAt hrealm).trans hat

/-- What is lent is the activation of a call. -/
theorem exists_of_lentOf {st : List CallFrame} {i : InstanceId} {act : Activation}
    (hl : lentOf st i = some act) : ∃ v ∈ invocations st, v.activation = act := by
  induction st with
  | nil => cases hl
  | cons f rest ih =>
    cases f with
    | operation j act' own => exact ih hl
    | callback v before =>
      rw [lentOf] at hl
      split at hl
      · exact ⟨v, List.mem_cons_self, Option.some.inj hl⟩
      · obtain ⟨u, hu, hact⟩ := ih hl
        exact ⟨u, List.mem_cons_of_mem _ hu, hact⟩

namespace Scene.Disciplined

variable {c : Scene} {i : InstanceId} {act : Activation}

/-- **Without a callback** of its instance around, an operation runs in the instance's own realm. -/
theorem realm_of_own (h : c.Disciplined) {x : Instance} (hx : c.world.live? i = some x)
    (hcb : ¬CallbackOn c.stack i) (hact : c.world.context? i = some act) :
    act.realm = x.realm := by
  rw [World.context?, hx, Option.bind_some, (h.lent_none_iff hx).mpr hcb] at hact
  dsimp only at hact
  split at hact
  · cases hact
  · obtain rfl := Option.some.inj hact
    rfl

/-- **With one**, it runs in the realm of the innermost call made in the context that is lent. -/
theorem realm_of_lent (h : c.Disciplined) (hstack : c.world.inFlight = invocations c.stack)
    {lent : Activation} (hl : lentOf c.stack i = some lent)
    (hact : c.world.context? i = some act) :
    ∃ v, innermostIn c.stack lent.context = some v ∧ act.realm = v.activation.realm := by
  obtain ⟨x, hx, hact⟩ := Option.bind_eq_some_iff.mp hact
  rw [show x.lent = some lent by rw [← World.lentBy_of_live? hx, h.lent, hl]] at hact
  obtain rfl := Option.some.inj hact
  -- The call that the context was lent for was made in it, so there is an innermost one.
  obtain ⟨u, hu, hulent⟩ := exists_of_lentOf hl
  obtain ⟨v, hv⟩ := Option.isSome_iff_exists.mp
    (List.find?_isSome.mpr ⟨u, hu, hulent ▸ beq_self_eq_true u.activation.context⟩ :
      (innermostIn c.stack lent.context).isSome)
  refine ⟨v, hv, ?_⟩
  have hfound : (invocations c.stack).find? (·.activation.context == lent.context) = some v := hv
  rw [World.current, hstack, hfound]

end Scene.Disciplined

/-! ## Evaluating a script -/

section Evaluating

variable {w : World} {i : InstanceId} {act : Activation} {source : List UInt8} {v : Script.Value}
  {h : Heap}

/-- The world in which a script that was evaluated leaves its value, with the heap it leaves. -/
def World.evaluated (w : World) (i : InstanceId) (h : Heap) : World := { w.occupy i with heap := h }

/-- **Evaluating a script that comes to an end by itself** hands out what it gives. -/
theorem answer_eval (hact : w.context? i = some act)
    (hgives : (Script.evalSource (Utf8.decodeString source)).Gives act w.heap v h)
    (host : Host σ) (n : Nat) (g : σ) :
    answer (invokeAt host n) (.eval i source) ⟨w, g⟩ =
      .ok (.ok ((w.evaluated i h).encode i v).1,
        ⟨((w.evaluated i h).encode i v).2.relinquish (w.usesOwn i) i, g⟩) := by
  let e : Errand := ⟨i, [], fun _ => Script.evalSource (Utf8.decodeString source)⟩
  have hheap : (e.opening act ⟨w, g⟩).world.heap = w.heap := (World.SameStore.occupy w i).heap
  have hrun := (hgives.steps host n (e.opening act ⟨w, g⟩) .done hheap).runProgram_eq
  obtain ⟨o, ho, hanswer⟩ := answer_errand (r := .eval i source) (e := e) (s := ⟨w, g⟩) rfl hact
    hrun rfl
  obtain rfl := Option.some.inj ho
  exact hanswer

/-- If that is an ordinary object, the host gets a new handle of it, and the instance is there as it
was. -/
theorem answer_eval_object {x : Instance} {r : Ref} (hx : w.live? i = some x)
    (hact : w.context? i = some act)
    (hgives : (Script.evalSource (Utf8.decodeString source)).Gives act w.heap (.object r) h)
    (hplain : (h.object r).nature = .plain) (host : Host σ) (n : Nat) (g : σ) :
    ∃ kind hd u y, answer (invokeAt host n) (.eval i source) ⟨w, g⟩ =
        .ok (.ok (.composite kind hd), ⟨u, g⟩)
      ∧ u.cell? hd = some ⟨.object r, i⟩ ∧ u.live? i = some y ∧ y.realm = x.realm
      ∧ u.heap = h := by
  let u := ((w.evaluated i h).newHandle i (.object r)).2.relinquish (w.usesOwn i) i
  have hstore : ((w.evaluated i h).newHandle i (.object r)).2.SameStore u := .relinquish _ _ i
  -- An object that is no date is handed out by reference.
  have hform : Form.of (w.evaluated i h).heap (.object r) =
      .composite (Kind.ofNature ((w.evaluated i h).heap.object r).nature) := by
    refine Form.of_object ?_
    rintro ⟨t, ht⟩
    have hdate : (h.object r).nature = .date t := ht
    rw [hplain] at hdate
    cases hdate
  have heval := answer_eval hact hgives host n g
  rw [World.encode_composite hform] at heval
  have hset : u.setting = (w.evaluated i h).setting :=
    hstore.setting.trans (World.setting_newHandle _ _ _)
  have halive : u.isAlive i = true := by
    rw [hstore.isAlive, World.isAlive_congr (World.calls_newHandle _ _ _)]
    exact ((World.SameStore.occupy w i).isAlive i).trans (World.isAlive_of_live? hx)
  obtain ⟨y, hy⟩ := Option.isSome_iff_exists.mp (World.isAlive_eq_isSome_live? ▸ halive)
  have hrealm : (u.instance? i).map (·.realm) = (w.instance? i).map (·.realm) :=
    (World.realm_congr hset i).trans (World.realm_congr (World.SameStore.occupy w i).setting i)
  rw [(World.live?_eq_some_iff.mp hy).1, (World.live?_eq_some_iff.mp hx).1] at hrealm
  exact ⟨_, ⟨(w.evaluated i h).handles.size⟩, u, y, heval,
    (hstore.cell? _).trans (World.cell?_newHandle _ _ _), hy, Option.some.inj hrealm,
    World.heap_congr hset⟩

/-- What `global` answers. -/
theorem answer_global (invoke : Invoke σ) {x : Instance} (hx : w.live? i = some x) (g : σ) :
    answer invoke (.global i) ⟨w, g⟩ =
      .ok (⟨w.handles.size⟩, ⟨(w.newHandle i (.object (w.globalOf x))).2, g⟩) := by
  let realm := ((w.instance? i).map (·.realm)).getD 0
  have hrealm : realm = x.realm := by
    show ((w.instance? i).map (·.realm)).getD 0 = _
    rw [(World.live?_eq_some_iff.mp hx).1]
    rfl
  have hanswer : answer invoke (.global i) ⟨w, g⟩ =
      .ok (⟨w.handles.size⟩, ⟨(w.newHandle i (.object (w.heap.globalAt realm))).2, g⟩) :=
    answer_of_alive (r := .global i) rfl (World.isAlive_of_live? hx)
  rw [hanswer, hrealm]
  rfl

theorem answer_sameValue (invoke : Invoke σ) {a b : Handle} {r q : Ref}
    (ha : w.referent a = .object r) (hb : w.referent b = .object q) (g : σ) :
    answer invoke (.sameValue a b) ⟨w, g⟩ = .ok (decide (r = q), ⟨w, g⟩) := by
  have hanswer : answer invoke (.sameValue a b) ⟨w, g⟩ =
      .ok ((w.referent a).sameValue (w.referent b), ⟨w, g⟩) := rfl
  rw [hanswer, ha, hb]
  rfl

/-- Handles that were there refer to what they did when another one is made. -/
theorem World.referent_newHandle {a : Handle} {c : HandleCell} (hc : w.cell? a = some c)
    (v : Script.Value) : (w.newHandle i v).2.referent a = c.value := by
  have hlt : a.id < w.purse.cells.size :=
    Purse.lt_of_cell? (by rw [World.cell?_purse, hc]; exact Option.some_ne_none c)
  rw [World.referent, ← World.cell?_purse, World.purse_newHandle, Purse.cell?_make_of_lt _ _ hlt,
    World.cell?_purse, hc]
  rfl

theorem World.referent_newHandle_new (w : World) (i : InstanceId) (v : Script.Value) :
    (w.newHandle i v).2.referent ⟨w.handles.size⟩ = v := by
  rw [World.referent, World.cell?_newHandle]
  rfl

/-- A host program that evaluates a script on an instance and asks whether its value is the global
object of the instance. -/
def Act.givesGlobal (i : InstanceId) (source : List UInt8) : Act σ Bool := do
  let outcome ← Act.request (.eval i source)
  let own ← Act.request (.global i)
  match outcome.value.handle? with
  | some seen => Act.request (.sameValue seen own)
  | none => return false

/-- **What `globalThis` is** to a script that is evaluated on an instance: the global object of the
instance if the script runs in the realm of the instance, and another one if it does not. -/
theorem run_givesGlobal {x : Instance} (hw : w.Apart) (hx : w.live? i = some x)
    (hact : w.context? i = some act) (hsource : Utf8.decodeString source = "globalThis")
    (hnames : w.heap.NamesItself act.realm) (host : Host σ) (n : Nat) (g : σ) :
    ∃ t, (Act.givesGlobal i source).run (answer (invokeAt host n)) ⟨w, g⟩ =
      .ok (decide (w.heap.globalAt act.realm = w.globalOf x), t) := by
  have hgives := hsource ▸ Script.gives_globalThis hnames
  obtain ⟨s, o, -, -, hhouses, -⟩ := hnames
  have hext : w.heap.Extends (w.heap.add (.tally 0)).1 := w.heap.extends_add _
  have hplain : ((w.heap.add (.tally 0)).1.object (w.heap.globalAt act.realm)).nature =
      .plain := by
    have hobject := (hhouses.mono hext).object_eq
    rw [hhouses.globalAt_mono hext] at hobject
    exact hobject ▸ hhouses.plain
  obtain ⟨kind, hd, u, y, heval, hseen, hy, hrealm, hheap⟩ :=
    answer_eval_object hx hact hgives hplain host n g
  have hglobal : u.globalOf y = w.globalOf x :=
    hw.globalOf_extends (World.live?_eq_some_iff.mp hx).1 (hheap ▸ hext) hrealm
  refine ⟨⟨(u.newHandle i (.object (u.globalOf y))).2, g⟩, ?_⟩
  rw [Act.givesGlobal, Act.run_bind, Act.run_request, heval]
  dsimp only [Outcome.ok, Value.handle?]
  rw [Act.run_bind, Act.run_request, answer_global _ hy]
  dsimp only
  rw [Act.run_request, answer_sameValue _ (World.referent_newHandle hseen _)
    (World.referent_newHandle_new u i _), hglobal]

/-- Whether the names that a script declares are on a global object when its first statement begins,
and on no other one. -/
structure World.Declares (w : World) (i : InstanceId) (source : List UInt8) (act : Activation)
    (code : ScriptCode) (h : Heap) (o : Script.Object) : Prop where
  global : h.cells[w.heap.globalAt act.realm]? = some (.object o)
  shown : ∀ name ∈ code.properties, (o.slot? (Script.Key.ofString name)).isSome
  hidden : ∀ j y, w.instance? j = some y → w.globalOf y ≠ w.heap.globalAt act.realm →
    h.object (w.globalOf y) = w.heap.object (w.globalOf y)
  reached : ∀ {σ : Type} (host : Host σ) (n : Nat) (g : σ), ∃ e,
    (Request.eval i source).errand? w = some e ∧ Steps host n (e.program act w)
      (e.opening act ⟨w, g⟩) [] ((code.body (w.heap.realm act.realm).scope).start act)
      ((e.opening act ⟨w, g⟩).withHeap h)

/-- **What a script declares** is on the global object of the realm it is evaluated in. -/
theorem World.Apart.declares {s : Script.Scope} {o : Script.Object} {code : ScriptCode}
    (hw : w.Apart) (hsource : ScriptCode.parse? (Utf8.decodeString source) = some code)
    (hr : w.heap.Houses act.realm s o) (hfits : code.Fits s o) :
    ∃ h' o', w.Declares i source act code h' o' := by
  obtain ⟨h', o', hd, hsteps⟩ := Script.steps_evalScript hr hfits
  refine ⟨h', o', hd.global, hd.shown, fun j y hy hne => ?_, fun host n g => ?_⟩
  · obtain ⟨s', q, hq⟩ := hw.hasGlobal j y hy
    have hat : w.heap.cells[w.globalOf y]? = some (.object q) := hq.global
    -- The global object of that instance is an object, so it is not the scope of the realm.
    have hscope : w.globalOf y ≠ (w.heap.realm act.realm).scope := by
      intro heq
      rw [heq, hr.scope] at hat
      cases hat
    rw [Heap.object, Heap.object, hat, hd.other _ _ hat hne hscope]
  · let e : Errand := ⟨i, [], fun _ => Script.evalSource (Utf8.decodeString source)⟩
    have hprogram : e.program act w = Script.evalScript code act .done := by
      show (Script.evalSource (Utf8.decodeString source)).start act = _
      rw [Script.evalSource, hsource]
      rfl
    refine ⟨e, rfl, ?_⟩
    rw [hprogram]
    exact hsteps host n (e.opening act ⟨w, g⟩) .done (World.SameStore.occupy w i).heap

end Evaluating

/-! ## In every scene -/

/-- On which global object scripts are evaluated in a scene. -/
structure Evaluates (c : Scene) : Prop where
  /-- Every instance has a global object of its own, -/
  apart : ∀ i j x y, c.world.instance? i = some x → c.world.instance? j = some y →
    c.world.globalOf x = c.world.globalOf y → i = j
  /-- the same one for as long as it is there, -/
  lasts : ∀ i x ms d, c.world.instance? i = some x → c.run ms = some d →
    ∃ y, d.world.instance? i = some y ∧ d.world.globalOf y = c.world.globalOf x
  /-- and `global` gives a handle of it. -/
  shown : ∀ {σ : Type} (invoke : Invoke σ) (i : InstanceId) (x : Instance) (g : σ),
    c.world.live? i = some x → ∃ h t, answer invoke (.global i) ⟨c.world, g⟩ = .ok (h, t)
      ∧ t.world.referent h = .object (c.world.globalOf x)
  /-- Without a callback of the instance on the stack, an operation on it runs in its own realm. -/
  own : ∀ i x act, c.world.live? i = some x → c.world.context? i = some act →
    ¬CallbackOn c.stack i →
    act.realm = x.realm ∧ c.world.heap.globalAt act.realm = c.world.globalOf x
  /-- With one, it runs in the realm of the innermost call that was made in the context lent. -/
  lent : ∀ i lent act, lentOf c.stack i = some lent → c.world.context? i = some act →
    ∃ v, innermostIn c.stack lent.context = some v ∧ act.realm = v.activation.realm
  /-- An operation that calls a function of the host does so in the context that it runs in, which
  the call takes to the realm of the function. -/
  called : ∀ {σ : Type} (host : Host σ) (n : Nat) (i : InstanceId) (h : Handle) (this : Value)
    (args : List Value) (a : Anchor) (f realm : Ref) (act : Activation) (g : σ),
    c.world.referent h = .object f → IsFunctionOf c.world.heap a f →
    (c.world.heap.object f).nature = .hostFunction realm → c.world.context? i = some act →
    act.HasRoom → ∃ e k t, (Request.call i h this args).errand? c.world = some e
      ∧ Steps host n (e.program act c.world) (e.opening act ⟨c.world, g⟩) [] (.call k .done) t
      ∧ k.anchor = a ∧ k.activation.context = act.context ∧ k.activation.realm = realm
  /-- What a script declares is on the global object of the realm that it runs in, and instances
  with another global object see nothing of it. -/
  declares : ∀ i source act code s o, c.world.context? i = some act →
    ScriptCode.parse? (Utf8.decodeString source) = some code →
    c.world.heap.Houses act.realm s o → code.Fits s o →
    ∃ h' o', c.world.Declares i source act code h' o'
  /-- What it finds under `globalThis` is the global object of the instance exactly if the realm has
  that one. -/
  compares : ∀ {σ : Type} (host : Host σ) (n : Nat) (i : InstanceId) (x : Instance)
    (source : List UInt8) (act : Activation) (g : σ), c.world.live? i = some x →
    c.world.context? i = some act → Utf8.decodeString source = "globalThis" →
    c.world.heap.NamesItself act.realm →
    ∃ t, (Act.givesGlobal i source).run (answer (invokeAt host n)) ⟨c.world, g⟩ =
      .ok (decide (c.world.heap.globalAt act.realm = c.world.globalOf x), t)

theorem evaluates_of_run {p : Platform} {ms : List Move} {c : Scene}
    (h : (Scene.start p).run ms = some c) : Evaluates c := by
  obtain ⟨w, st⟩ := c
  have hw : w.Apart := Scene.apart_run h
  have hc := Scene.disciplined_run h
  refine ⟨hw.distinct, ?_, ?_, ?_, fun i lent act => hc.realm_of_lent (Scene.sound_run h).stack, ?_,
    ?_, ?_⟩
  · intro i x ms d hx hd
    have hlasts := Scene.lasts_run hd
    obtain ⟨y, hy, hyr⟩ := hlasts.realm i x hx
    refine ⟨y, hy, ?_⟩
    have hat := (hlasts.heap _ (hw.hasGlobal i x hx)).2
    exact (congrArg d.world.heap.globalAt hyr).trans hat
  · intro σ invoke i x g hx
    exact ⟨_, _, answer_global invoke hx g, World.referent_newHandle_new _ _ _⟩
  · intro i x act hx hact hcb
    have hrealm := hc.realm_of_own hx hcb hact
    exact ⟨hrealm, congrArg w.heap.globalAt hrealm⟩
  · intro σ host n i h this args a f realm act g href hf hnature hact hroom
    obtain ⟨e, k, he, -, -, ha, ⟨realm', held, hnature', hk⟩, -, hsteps⟩ :=
      steps_call host n (s := ⟨w, g⟩) i this args href hf hroom
    have hsame : Script.Nature.hostFunction realm' = .hostFunction realm :=
      hnature'.symm.trans hnature
    refine ⟨e, k, _, he, hsteps, ha, ?_, ?_⟩
    · rw [hk]
    · rw [hk]
      exact Script.Nature.hostFunction.inj hsame
  · intro i source act code s o _ hsource hr hfits
    exact hw.declares hsource hr hfits
  · intro σ host n i x source act g hx hact hsource hnames
    exact run_givesGlobal hw hx hact hsource hnames host n g

/-- **In which realm a script is evaluated, and on which global object**, in every scene that moves
lead to. What the interpreter does, at any depth, is done by moves. -/
theorem evaluation_follows_the_context (p : Platform) :
    (∀ ms c, (Scene.start p).run ms = some c → Evaluates c) ∧ ∀ c : Scene, c.Follows :=
  ⟨fun _ _ h => evaluates_of_run h, Scene.follows⟩

/-- A process with two instances. -/
def twoInstances : Scene :=
  ⟨(((Scene.start .ready).world.newInstance default).2.newInstance default).2, []⟩

/-- How it comes about. -/
def twiceNew : List Move := [.change (.newInstance default), .change (.newInstance default)]

theorem run_twiceNew : (Scene.start .ready).run twiceNew = some twoInstances := by
  have hnew : ∀ c : Scene, c.step (.change (.newInstance default)) =
      some ⟨(c.world.newInstance default).2, c.stack⟩ := fun _ => rfl
  rw [twiceNew, Scene.run_cons, hnew, Option.bind_some, Scene.run_cons, hnew, Option.bind_some]
  rfl

/-- The realm of the second instance. Each realm has 256 objects and a scope in front of it. -/
theorem addRealm_twice : Heap.empty.addRealm.1.addRealm.2 = 515 := by
  rw [Heap.addRealm_snd]
  decide +kernel

theorem realm_twoInstances : (twoInstances.world.instance? 1).map (·.realm) = some 515 := by
  have h := congrFun (congrArg Setting.realm
    (World.setting_newInstance ((Scene.start .ready).world.newInstance default).2 default)) 1
  rw [World.heap_newInstance] at h
  exact h.trans (congrArg some addRealm_twice)

/-- A context in a realm. -/
def inRealm (realm : Ref) : Activation := { (default : Activation) with realm }

/-- An operation on the first instance calls a function of that instance, and what runs there calls
a function of the second one. -/
def acrossMoves : List Move :=
  [.change (.register 0 257 (.native 7)), .change (.register 1 515 (.native 8)),
    .begin 0, .enter ⟨⟨0, 1⟩, inRealm 257⟩, .begin 0, .enter ⟨⟨1, 1⟩, inRealm 515⟩]

theorem run_acrossMoves : ∃ c x, twoInstances.run acrossMoves = some c ∧ c.world.live? 0 = some x
    ∧ c.world.context? 0 = some (inRealm 515)
    ∧ Heap.empty.addRealm.1.addRealm.1.Extends c.world.heap :=
  ⟨_, _, rfl, rfl, rfl, (Heap.extends_add _ _).trans (Heap.extends_add _ _)⟩

/-- A function of the second instance is called by one of the first, in a context of that one. What
it asks the host to evaluate on the first instance is evaluated on the global object of the
second. -/
theorem evaluated_in_the_other : ∃ c x, (Scene.start .ready).run (twiceNew ++ acrossMoves) = some c
    ∧ c.world.live? 0 = some x
    ∧ ∀ (host : Host Unit) (n : Nat), ∃ t, (Act.givesGlobal 0
        [103, 108, 111, 98, 97, 108, 84, 104, 105, 115]).run (answer (invokeAt host n))
          ⟨c.world, ()⟩ = .ok (false, t) := by
  obtain ⟨c, x, hc, hx, hact, hext⟩ := run_acrossMoves
  have hrun := Scene.run_trans run_twiceNew hc
  have hevaluates := (evaluation_follows_the_context .ready).1 _ c hrun
  have hnames : c.world.heap.NamesItself 515 :=
    addRealm_twice ▸ (Heap.namesItself_addRealm Heap.empty.addRealm.1).mono hext
  refine ⟨c, x, hrun, hx, fun host n => ?_⟩
  obtain ⟨t, ht⟩ := hevaluates.compares host n 0 x
    [103, 108, 111, 98, 97, 108, 84, 104, 105, 115] _ () hx hact (by decide +kernel) hnames
  refine ⟨t, ht.trans ?_⟩
  -- The second instance is in the realm that this runs in, and has another global object.
  obtain ⟨y₀, hy₀, hyr₀⟩ := Option.map_eq_some_iff.mp realm_twoInstances
  obtain ⟨y, hy, hyr⟩ := (Scene.lasts_run hc).realm 1 y₀ hy₀
  have hother : c.world.heap.globalAt (inRealm 515).realm = c.world.globalOf y :=
    congrArg c.world.heap.globalAt (hyr.trans hyr₀).symm
  have hne : c.world.globalOf y ≠ c.world.globalOf x := fun heq => Nat.one_ne_zero
    (hevaluates.apart 1 0 y x hy (World.live?_eq_some_iff.mp hx).1 heq)
  rw [decide_eq_false (hother ▸ hne)]

end ScriptBoundary.Boundary
