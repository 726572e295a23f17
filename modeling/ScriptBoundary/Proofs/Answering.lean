import ScriptBoundary.Proofs.SideBySide

/-!
# Requests side by side

A request of a tenant is made in a process of its own, to instance zero and with the handles it was
given there; and it is made in a shared process, to the instance that is the tenant's there and with
the handles that are the tenant's there. The answers tell the tenant the same (`Request.Tells`):
they hand out handles that correspond, and agree once the tenant has given these names of its own.

What a request runs is a script (`Request.script?`), which has to keep to what it is given
(`Request.IsConfined`). The only requests that are felt next door are those that have the collector
run (`Request.collects`).

## Main results

* `parallel_answer`: requests are answered side by side
-/

namespace ScriptBoundary.Boundary

open Script (Activation Comp Completion Embedding HostCall Ref)

variable {σ α β : Type}

namespace Request

/-- The script that a request runs, given the object that it is about and then its arguments. -/
def script? : Request → Option (List Script.Value → Comp Script.Value)
  | .eval _ source => some fun _ => Script.evalSource (Utf8.decodeString source)
  | .get .. => some fun vs => Operation.get (vs.getD 0 .undefined) (vs.getD 1 .undefined)
  | .set .. => some fun vs =>
    Operation.set (vs.getD 0 .undefined) (vs.getD 1 .undefined) (vs.getD 2 .undefined)
  | .remove .. => some fun vs => Operation.remove (vs.getD 0 .undefined) (vs.getD 1 .undefined)
  | .has .. => some fun vs => Operation.has (vs.getD 0 .undefined) (vs.getD 1 .undefined)
  | .getIndex _ _ index => some fun vs => Operation.getIndex (vs.getD 0 .undefined) index
  | .setIndex _ _ index _ => some fun vs =>
    Operation.setIndex (vs.getD 0 .undefined) index (vs.getD 1 .undefined)
  | .keys _ _ inherited => some fun vs => Operation.keys (vs.getD 0 .undefined) inherited
  | .toUtf8 .. => some fun vs => Operation.toText (vs.getD 0 .undefined)
  | .call .. => some fun vs =>
    Operation.call (vs.getD 0 .undefined) (vs.tail.headD .undefined) vs.tail.tail
  | .toNumber .. => some fun vs => Operation.toNumber (vs.headD .undefined)
  | .toText .. => some fun vs => Operation.toText (vs.headD .undefined)
  | _ => none

/-- Whether the script that a request runs touches nothing but what can be reached from its realm
and from what it is given. -/
def IsConfined (r : Request) : Prop := ∀ m ∈ r.script?, Comp.Confined m

/-- Whether a request has the collector run. -/
def collects : Request → Bool
  | .destroy _ | .collect _ => true
  | _ => false

/-- Whether an answer in a shared process tells a tenant what one in its own process does: it hands
out a handle if that does, and once these have the same name nothing is different. -/
def Tells (r : Request) (g : Handle → Handle) (size : Nat) (a a' : r.Answer) : Prop :=
  (∀ k ∈ r.handed? a, k.id < size) ∧ r.handed? a' = (r.handed? a).map g
    ∧ ∀ f f' : Handle → Handle, (∀ k ∈ r.handed? a, f' (g k) = f k) →
      r.mapAnswer f' a' = r.mapAnswer f a

/-- Whether the answers to a request that was made in two ways tell a tenant the same. -/
def Answered (r : Request) (i i' : InstanceId) (g g' : Handle → Handle) :
    Correspondence (r.map (fun _ => i) g).Answer (r.map (fun _ => i') g').Answer :=
  fun P _ w a a' => r.Tells P.handle w.handles.size (cast (r.answer_map ..) a)
    (cast (r.answer_map ..) a')

/-- An answer that hands out no handle has to be the same. -/
theorem Tells.unnamed {r : Request} {g : Handle → Handle} {size : Nat} {a a' : r.Answer}
    (hnone : r.handed? a = none) (hnone' : r.handed? a' = none)
    (hsame : ∀ f f' : Handle → Handle, r.mapAnswer f' a' = r.mapAnswer f a) :
    r.Tells g size a a' := by
  refine ⟨fun k hk => ?_, ?_, fun f f' _ => hsame f f'⟩
  · rw [hnone] at hk
    cases hk
  · rw [hnone, hnone']
    rfl

end Request

/-! ## Values and handles -/

/-- Handles that are the tenant's in a shared process, and those that are in its own. -/
def HandlesMatch (P : Passage) (size : Nat) (ks : List Handle) (g g' : Handle → Handle) : Prop :=
  ∀ k ∈ ks, (g k).id < size ∧ g' k = P.handle (g k)

namespace HandlesMatch

variable {P : Passage} {size : Nat} {ks : List Handle} {g g' : Handle → Handle}

theorem value (h : HandlesMatch P size ks g g') {u : Value} (hu : ∀ k ∈ u.handle?, k ∈ ks) :
    (u.mapHandle g).Known size ∧ u.mapHandle g' = (u.mapHandle g).mapHandle P.handle := by
  cases u with
  | composite kind k =>
    obtain ⟨hlt, hsame⟩ := h k (hu k rfl)
    exact ⟨fun k' hk' => Option.some.inj hk' ▸ hlt, congrArg (Value.composite kind) hsame⟩
  | _ => exact ⟨.of_none rfl, rfl⟩

theorem values (h : HandlesMatch P size ks g g') (us : List Value)
    (hus : ∀ u ∈ us, ∀ k ∈ u.handle?, k ∈ ks) :
    (∀ u ∈ us.map (·.mapHandle g), u.Known size)
      ∧ us.map (·.mapHandle g') = (us.map (·.mapHandle g)).map (·.mapHandle P.handle) := by
  refine ⟨List.forall_mem_map.mpr fun u hu => (h.value (hus u hu)).1, ?_⟩
  rw [List.map_map]
  exact List.map_congr_left fun u hu => (h.value (hus u hu)).2

end HandlesMatch

namespace Carried

variable {P : Passage} {D : Set Ref} {w : World}

/-- What a tenant is told of a value. -/
theorem value.tells {u u' : Value} (h : value P D w u u') :
    (∀ k ∈ u.handle?, k.id < w.handles.size) ∧ u'.handle? = u.handle?.map P.handle
      ∧ ∀ f f' : Handle → Handle, (∀ k ∈ u.handle?, f' (P.handle k) = f k) →
        u'.mapHandle f' = u.mapHandle f := by
  obtain ⟨hknown, rfl⟩ := h
  cases u with
  | composite kind k =>
    exact ⟨hknown, rfl, fun f f' hf => congrArg (Value.composite kind) (hf k rfl)⟩
  | _ => exact ⟨hknown, rfl, fun _ _ _ => rfl⟩

/-- What a tenant is told of an outcome. -/
theorem outcome.tells {o o' : Outcome} (h : outcome P D w o o') :
    (∀ k ∈ o.value.handle?, k.id < w.handles.size)
      ∧ o'.value.handle? = o.value.handle?.map P.handle
      ∧ ∀ f f' : Handle → Handle, (∀ k ∈ o.value.handle?, f' (P.handle k) = f k) →
        o'.mapHandle f' = o.mapHandle f := by
  obtain ⟨hknown, rfl⟩ := h
  obtain ⟨hk, hh, hm⟩ := value.tells (D := D) (u := o.value) ⟨hknown, rfl⟩
  exact ⟨hk, hh, fun f f' hf => congrArg (Outcome.mk · o.isException) (hm f f' hf)⟩

/-- What a tenant is told of a handle. -/
theorem handle.tells {k k' : Handle} (h : handle P D w k k') :
    (∀ l ∈ some k, l.id < w.handles.size) ∧ some k' = (some k).map P.handle
      ∧ ∀ f f' : Handle → Handle, (∀ l ∈ some k, f' (P.handle l) = f l) → f' k' = f k := by
  obtain ⟨hlt, rfl⟩ := h
  exact ⟨fun l hl => Option.some.inj hl ▸ hlt, rfl, fun f f' hf => hf k rfl⟩

end Carried

namespace Parallel

variable {n : Sleeper σ} {c : Prop} {R S : Correspondence α β} {P : Passage} {D E : Set Ref}
  {w : World}

/-- Results that correspond in one way do in another. -/
theorem imp {x : Except Fault (α × State (House σ))} {x' : Except Fault (β × State (House σ))}
    (h : Parallel n c R P D E w x x') (hR : ∀ {P D w a b}, R P D w a b → S P D w a b) :
    Parallel n c S P D E w x x' := by
  cases h with
  | ok beside onward narrows result => exact .ok beside onward narrows (hR result)
  | error e => exact .error e

end Parallel

section Serve

variable {n : Sleeper σ} {c : Prop} {P : Passage} {D E : Set Ref} {t t' : State (House σ)}
  {invoke invoke' : Invoke (House σ)} {act : Activation}

/-- A new empty array, with a handle to it. -/
theorem parallel_newArray (h : Beside n P D E t t') (hi : (t.world.instance? 0).isSome)
    (hact : act.Fits (t.world.heap.zone D)) :
    Parallel n c Carried.handle P D E t.world
      ((Run.alter (·.newArray 0 act.realm) : Run (House σ) Handle) t)
      ((Run.alter (·.newArray P.home (P.activation act).realm) : Run (House σ) Handle) t') := by
  obtain ⟨P₁, D₁, ha, ho, hhandle, hlt⟩ := h.abreast.newArray hi hact.realm
  exact .alter h hi ha ho ⟨hlt, hhandle⟩

/-- **The names of an object**, as an array. -/
theorem parallel_listNames (hinv : ParallelInvoke n c invoke invoke') (h : Beside n P D E t t')
    (hi : (t.world.instance? 0).isSome) {inherited : Bool}
    (hm : Comp.Confined fun vs => Operation.keys (vs.getD 0 .undefined) inherited) {k : Handle}
    (hk : k.id < t.world.handles.size) :
    Parallel n c Carried.handle P D E t.world (listNames invoke 0 k inherited t)
      (listNames invoke' P.home (P.handle k) inherited t') := by
  refine parallel_inContext h hi (fun hr => hr) fun {act u u' P₁} hb ho halive hact => ?_
  have hi₁ := ho.home hi
  have hfits := hb.abreast.together.fits_referent k
  have hview : Parallel n c (fun P D w x y => x.Fits (w.heap.zone D) ∧ y = P.value x) P₁ D E u.world
      ((Run.view (·.referent k) : Run (House σ) _) u)
      ((Run.view (·.referent (P.handle k)) : Run (House σ) _) u') := by
    rw [← ho.handle k hk]
    exact .view hb ⟨hfits, hb.abreast.together.referent (Nat.lt_of_lt_of_le hk ho.handles)⟩
  refine hview.bind fun {x x' u₂ u₂' P₂ D₂ E₂} hb₂ ho₂ hr => ?_
  obtain ⟨hx, rfl⟩ := hr
  have hrun := parallel_runIn hinv hb₂ (ho₂.home hi₁) hm (hact.mono ho₂.zone_le) [x]
    (fun v hv => List.mem_singleton.mp hv ▸ hx) (c := c)
  rw [Embedding.activation_congr ho₂.agrees hact] at hrun
  refine hrun.bind fun {r r' u₃ u₃' P₃ D₃ E₃} hb₃ ho₃ hr => ?_
  obtain ⟨hfits₃, rfl⟩ := hr
  have hi₃ := (ho₂.trans ho₃).home hi₁
  have hlost : ∀ (f f' : World → Event), Parallel n c Carried.handle P₃ D₃ E₃ u₃.world
      ((Run.update (fun w => w.note (f w)) >>= fun _ => Run.alter (·.newArray 0 act.realm) :
        Run (House σ) Handle) u₃)
      ((Run.update (fun w => w.note (f' w)) >>= fun _ =>
        Run.alter (·.newArray P.home (P₁.activation act).realm) : Run (House σ) Handle) u₃') := by
    intro f f'
    have hnote : Parallel n c Carried.same P₃ D₃ E₃ u₃.world
        ((Run.update (fun w => w.note (f w)) : Run (House σ) Unit) u₃)
        ((Run.update (fun w => w.note (f' w)) : Run (House σ) Unit) u₃') :=
      .update hb₃ hi₃ (hb₃.abreast.note _ _) (.of_same rfl rfl id) (.refl ..) rfl
    refine hnote.bind fun {_ _ u₄ u₄' P₄ D₄ E₄} hb₄ ho₄ _ => ?_
    have hlater := ho₂.trans (ho₃.trans ho₄)
    have harray := parallel_newArray hb₄ (ho₄.home hi₃) (hact.mono hlater.zone_le) (c := c)
    rwa [Embedding.activation_congr hlater.agrees hact, (ho.trans hlater).agrees.home] at harray
  cases r with
  | value x =>
    obtain ⟨ha, ho₄, hhandle, hlt⟩ := hb₃.abreast.newHandle hi₃ hfits₃
    rw [(ho.trans (ho₂.trans ho₃)).agrees.home] at ha hhandle
    exact .alter hb₃ hi₃ ha ho₄ ⟨hlt, hhandle⟩
  | thrown x => exact hlost _ _
  | limit fault => exact hlost _ _

/-- Taking the arguments over after a look at what a handle refers to. -/
private theorem parallel_operateOn (hinv : ParallelInvoke n c invoke invoke')
    (h : Beside n P D E t t') (hi : (t.world.instance? 0).isSome)
    {m : List Script.Value → Comp Script.Value} (hm : Comp.Confined m) {k k' : Handle}
    (hk : k.id < t.world.handles.size ∧ k' = P.handle k) {args args' : List Value}
    (hargs : (∀ u ∈ args, u.Known t.world.handles.size) ∧ args' = args.map (·.mapHandle P.handle))
    (body : Script.Value → List Script.Value → Comp Script.Value)
    (hbody : ∀ v vs, body v vs = m (v :: vs)) :
    Parallel n c Carried.outcome P D E t.world
      ((do
        let v ← Run.view (·.referent k)
        operate invoke 0 args (body v) : Run (House σ) Outcome) t)
      ((do
        let v ← Run.view (·.referent k')
        operate invoke' P.home args' (body v) : Run (House σ) Outcome) t') := by
  obtain ⟨hlt, rfl⟩ := hk
  obtain ⟨hknown, rfl⟩ := hargs
  have hbody' : ∀ v, body v = fun vs => m (v :: vs) := fun v => funext (hbody v)
  have hfits := h.abreast.together.fits_referent k
  rw [Run.bind_apply, Run.bind_apply, Run.view_apply, Run.view_apply]
  dsimp only
  rw [h.abreast.together.referent hlt, hbody', hbody']
  exact parallel_operate hinv h hi hm [t.world.referent k]
    (fun v hv => List.mem_singleton.mp hv ▸ hfits) _ hknown

/-- What an instance shows is the same. -/
theorem shown_eq {f : Embedding} {Z : Script.Zone} {x x' : Instance}
    (h : f.Matches Z x x') : x'.shown = x.shown := by
  rw [Instance.shown, Instance.shown, h.limits, h.ledger, h.slots, h.isLive, h.borrowed, h.nextId,
    h.census]

/-- What counts as true. -/
theorem truthy_value (f : Embedding) (x : Script.Value) : (f.value x).truthy = x.truthy := by
  cases x <;> rfl

/-- The text in a completion. -/
theorem textOf_completion (f : Embedding) (r : Completion Script.Value) :
    textOf (f.completion r) = textOf r := by
  cases r with
  | value x => cases x <;> rfl
  | thrown x => rfl
  | limit fault => rfl

theorem serve_destroy (invoke : Invoke σ) (i : InstanceId) (s : State σ) :
    serve invoke (.destroy i) s = if s.world.isBusy i then .error (.instanceInUse i)
      else .ok ((), { s with world := s.world.destroy i }) := by
  simp only [serve, Run.bind_apply, Run.view_apply]
  split <;> rfl

/-! ### Requests that run no operation -/

/-- An instance is destroyed. -/
theorem parallel_serve_destroy (h : Beside n P D E t t') (hi : (t.world.instance? 0).isSome)
    (halive : t.world.isAlive 0 = true) (hswept : Narrows c E n.world.reach) :
    Parallel n c Carried.same P D E t.world (serve invoke (.destroy 0) t)
      (serve invoke' (.destroy P.home) t') := by
  rw [serve_destroy, serve_destroy, h.abreast.together.isBusy hi]
  split
  · exact .error (.instanceInUse 0)
  · obtain ⟨ha, ho⟩ := h.abreast.destroy halive
    exact .ok (h.onward hi ha ho) ho hswept rfl

/-- What an instance shows. -/
theorem parallel_serve_inspect (h : Beside n P D E t t') (hi : (t.world.instance? 0).isSome) :
    Parallel n c (fun _ _ _ a b => b.map Instance.shown = a.map Instance.shown) P D E t.world
      (serve invoke (.inspect 0) t) (serve invoke' (.inspect P.home) t') := by
  simp only [serve]
  refine .view h ?_
  obtain ⟨hgone, hgone'⟩ | ⟨x, x', hx, hx', hmatch⟩ := h.abreast.together.live hi
  · rw [hgone, hgone']
  · rw [hx, hx']
    exact congrArg some (shown_eq hmatch)

/-- The global object. -/
theorem parallel_serve_global (h : Beside n P D E t t') (hi : (t.world.instance? 0).isSome)
    (halive : t.world.isAlive 0 = true) :
    Parallel n c Carried.handle P D E t.world (serve invoke (.global 0) t)
      (serve invoke' (.global P.home) t') := by
  have ht := h.abreast.together
  obtain ⟨x, hx⟩ := Option.isSome_iff_exists.mp (World.isAlive_eq_isSome_live? ▸ halive)
  obtain ⟨hthere, hlive⟩ := World.live?_eq_some_iff.mp hx
  obtain ⟨x', hthere', hmatch⟩ := ht.left.home x hthere
  obtain ⟨hrealm, hfits⟩ := hmatch.realm hlive
  obtain ⟨hglobal, hglobal'⟩ := ht.left.heap.intrinsic hfits .globalObject
  obtain ⟨ha, ho, hhandle, hlt⟩ := h.abreast.newHandle hi (x := .object _) hglobal
  have hnew : Parallel n c Carried.handle P D E t.world
      ((Run.alter (·.newHandle 0 (.object ((t.world.heap.realm x.realm).base +
        Script.Intrinsic.globalObject.ctorIdx))) : Run (House σ) Handle) t)
      ((Run.alter (·.newHandle P.home (.object (P.ref ((t.world.heap.realm x.realm).base +
        Script.Intrinsic.globalObject.ctorIdx)))) : Run (House σ) Handle) t') :=
    .alter h hi ha ho ⟨hlt, hhandle⟩
  simp only [serve]
  rwa [Run.alter_apply, Run.alter_apply, hthere, hthere', Option.map_some, Option.map_some,
    Option.getD_some, Option.getD_some, hrealm, hglobal']

/-- A new plain object. -/
theorem parallel_serve_createObject (h : Beside n P D E t t')
    (hi : (t.world.instance? 0).isSome) :
    Parallel n c Carried.handle P D E t.world (serve invoke (.createObject 0) t)
      (serve invoke' (.createObject P.home) t') := by
  refine parallel_inContext h hi (fun hr => hr) fun {act u u' P₁} hb ho _ hact => ?_
  obtain ⟨P₂, D₂, ha₂, ho₂, hhandle, hlt⟩ := hb.abreast.newPlain (ho.home hi) hact.realm
  rw [ho.agrees.home] at ha₂ hhandle
  exact .alter hb (ho.home hi) ha₂ ho₂ ⟨hlt, hhandle⟩

/-- A new empty array. -/
theorem parallel_serve_createArray (h : Beside n P D E t t') (hi : (t.world.instance? 0).isSome) :
    Parallel n c Carried.handle P D E t.world (serve invoke (.createArray 0) t)
      (serve invoke' (.createArray P.home) t') := by
  refine parallel_inContext h hi (fun hr => hr) fun {act u u' P₁} hb ho _ hact => ?_
  have harray := parallel_newArray hb (ho.home hi) hact (c := c)
  rwa [ho.agrees.home] at harray

/-- The length of an array. -/
theorem parallel_serve_arrayLength (h : Beside n P D E t t') (hi : (t.world.instance? 0).isSome)
    {k k' : Handle} (hk : k.id < t.world.handles.size ∧ k' = P.handle k) :
    Parallel n c Carried.same P D E t.world (serve invoke (.arrayLength 0 k) t)
      (serve invoke' (.arrayLength P.home k') t') := by
  obtain ⟨hlt, rfl⟩ := hk
  simp only [serve]
  rw [Run.bind_apply, Run.bind_apply, Run.view_apply, Run.view_apply]
  dsimp only
  rw [h.abreast.together.isArray hlt]
  split
  · refine parallel_inContext h hi (fun hr => hr) fun {act u u' P₁} hb ho _ _ => .view hb ?_
    rw [← ho.handle _ hlt]
    exact hb.abreast.together.arrayLength (Nat.lt_of_lt_of_le hlt ho.handles)
  · exact .pure h rfl

/-- Whether a value counts as true. -/
theorem parallel_serve_toBoolean (h : Beside n P D E t t') (hi : (t.world.instance? 0).isSome)
    {u u' : Value} (hu : u.Known t.world.handles.size ∧ u' = u.mapHandle P.handle) :
    Parallel n c Carried.same P D E t.world (serve invoke (.toBoolean 0 u) t)
      (serve invoke' (.toBoolean P.home u') t') := by
  obtain ⟨hknown, hsame⟩ := hu
  refine parallel_inContext h hi (fun hr => hr) fun {act u₁ u₁' P₁} hb ho _ hact => ?_
  have hvalue : u' = u.mapHandle P₁.handle :=
    hsame.trans (Value.mapHandle_congr fun k hk => (ho.handle k (hknown k hk)).symm)
  obtain ⟨P₂, D₂, ha₂, ho₂, hx, -⟩ := hb.abreast.decode hact.realm (hknown.mono ho.handles)
  have hdecode : Parallel n c (fun P _ _ x y => y = P.value x) P₁ D E u₁.world
      ((Run.alter (·.decode act.realm u) : Run (House σ) _) u₁)
      ((Run.alter (·.decode (P₁.ref act.realm) (u.mapHandle P₁.handle)) : Run (House σ) _) u₁') :=
    .alter hb (ho.home hi) ha₂ ho₂ hx
  rw [hvalue]
  refine hdecode.bind fun hb₃ _ hr => .pure hb₃ ?_
  subst hr
  exact truthy_value _ _

/-- A callback is registered. -/
theorem parallel_serve_register (h : Beside n P D E t t') (hi : (t.world.instance? 0).isSome)
    (callback : Callback) :
    Parallel n c Carried.value P D E t.world
      (serve invoke (.register 0 (callback.mapOwner fun _ => 0)) t)
      (serve invoke' (.register P.home (callback.mapOwner fun _ => P.home)) t') := by
  refine parallel_inContext h hi (fun hr => hr) fun {act u u' P₁} hb ho halive₁ hact => ?_
  have hfirst : (callback.mapOwner fun _ => 0).isOwn = true := by cases callback <;> rfl
  have hsame : (callback.mapOwner fun _ => P.home) =
      (callback.mapOwner fun _ => 0).mapOwner (P₁.home + ·) := by
    rw [ho.agrees.home]
    cases callback <;> rfl
  obtain ⟨P₂, D₂, ha₂, ho₂, hvalue, hknown⟩ := hb.abreast.register halive₁ hact.realm hfirst
  rw [hsame, ← ho.agrees.home]
  exact .alter hb (ho.home hi) ha₂ ho₂ ⟨hknown, hvalue⟩

/-- Another handle to the same value. -/
theorem parallel_serve_clone (h : Beside n P D E t t') (hi : (t.world.instance? 0).isSome)
    {k k' : Handle} (hk : k.id < t.world.handles.size ∧ k' = P.handle k) :
    Parallel n c Carried.handle P D E t.world (serve invoke (.clone k) t)
      (serve invoke' (.clone k') t') := by
  obtain ⟨hlt, rfl⟩ := hk
  obtain ⟨P₁, ha, ho, hhandle, hnew⟩ := h.abreast.cloneHandle hlt
  simp only [serve]
  exact .alter h hi ha ho ⟨hnew, hhandle⟩

/-- Whether two handles refer to the same value. -/
theorem parallel_serve_sameValue (h : Beside n P D E t t') {k k' l l' : Handle}
    (hk : k.id < t.world.handles.size ∧ k' = P.handle k)
    (hl : l.id < t.world.handles.size ∧ l' = P.handle l) :
    Parallel n c Carried.same P D E t.world (serve invoke (.sameValue k l) t)
      (serve invoke' (.sameValue k' l') t') := by
  have ht := h.abreast.together
  obtain ⟨hk, rfl⟩ := hk
  obtain ⟨hl, rfl⟩ := hl
  simp only [serve]
  refine .view h ?_
  rw [Carried.same, ht.referent hk, ht.referent hl]
  exact ht.sameValue (ht.fits_referent _) (ht.fits_referent _)

/-- The name of the type of a value. -/
theorem parallel_serve_typeName (h : Beside n P D E t t') {k k' : Handle}
    (hk : k.id < t.world.handles.size ∧ k' = P.handle k) :
    Parallel n c Carried.same P D E t.world (serve invoke (.typeName k) t)
      (serve invoke' (.typeName k') t') := by
  have ht := h.abreast.together
  obtain ⟨hk, rfl⟩ := hk
  simp only [serve]
  refine .view h ?_
  rw [Carried.same, ht.referent hk]
  exact ht.typeName (ht.fits_referent _)

/-! ### Requests that run one -/

/-- The text of a value. -/
theorem parallel_serve_toUtf8 (hinv : ParallelInvoke n c invoke invoke') (h : Beside n P D E t t')
    (hi : (t.world.instance? 0).isSome)
    (hm : Comp.Confined fun vs => Operation.toText (vs.getD 0 .undefined)) {k k' : Handle}
    (hk : k.id < t.world.handles.size ∧ k' = P.handle k) :
    Parallel n c Carried.same P D E t.world (serve invoke (.toUtf8 0 k) t)
      (serve invoke' (.toUtf8 P.home k') t') := by
  obtain ⟨hlt, rfl⟩ := hk
  have ht := h.abreast.together
  have hfits := ht.fits_referent k
  have hconvert : ∀ x : Script.Value, x.Fits (t.world.heap.zone D) →
      Parallel n c Carried.same P D E t.world
        (inContext 0 (fun act => do
          return textOf (← runIn invoke act (Operation.toText x))) t)
        (inContext P.home (fun act => do
          return textOf (← runIn invoke' act (Operation.toText (P.value x)))) t') := by
    intro x hx
    refine parallel_inContext h hi (fun hr => hr) fun {act u u' P₁} hb ho _ hact => ?_
    have hrun := parallel_runIn hinv hb (ho.home hi) hm hact [x]
      (fun y hy => List.mem_singleton.mp hy ▸ hx.mono ho.zone_le) (c := c)
    rw [List.map_singleton, Embedding.value_congr ho.agrees hx] at hrun
    refine hrun.bind fun hb₂ _ hr => .pure hb₂ ?_
    obtain ⟨-, rfl⟩ := hr
    exact textOf_completion _ _
  simp only [serve]
  rw [Run.bind_apply, Run.bind_apply, Run.view_apply, Run.view_apply]
  dsimp only
  rw [ht.referent hlt]
  cases hx : t.world.referent k with
  | text x => exact .pure h rfl
  | _ =>
    rw [hx] at hfits
    exact hconvert _ hfits

/-- An error is made a value. -/
theorem parallel_serve_errorValue (hinv : ParallelInvoke n c invoke invoke')
    (h : Beside n P D E t t') (hi : (t.world.instance? 0).isSome) (e : BoundaryError) :
    Parallel n c Carried.value P D E t.world (serve invoke (.errorValue 0 e) t)
      (serve invoke' (.errorValue P.home e) t') := by
  refine parallel_inContext h hi (fun hr => hr) fun {act u u' P₁} hb ho _ hact => ?_
  have hrun := parallel_runIn hinv hb (ho.home hi) (Comp.confined_newError
    (if e.isConversion then .typeError else .error) e.message) hact [] (List.forall_mem_nil _)
    (c := c)
  refine hrun.bind fun {r r' _ _ _ _ _} hb₂ ho₂ hr => ?_
  have hconclude := parallel_conclude hinv hb₂ ((ho.trans ho₂).home hi)
    (hact.mono ho₂.zone_le) hr (c := c)
  rw [Embedding.activation_congr ho₂.agrees hact, (ho.trans ho₂).agrees.home] at hconclude
  refine hconclude.bind fun hb₃ _ hr => .pure hb₃ ?_
  obtain ⟨hknown, rfl⟩ := hr
  exact ⟨hknown, rfl⟩

/-- A conversion of a value by a script. -/
private theorem parallel_convert (hinv : ParallelInvoke n c invoke invoke')
    (h : Beside n P D E t t') (hi : (t.world.instance? 0).isSome)
    {m : List Script.Value → Comp Script.Value} (hm : Comp.Confined m) {args args' : List Value}
    (hargs : (∀ u ∈ args, u.Known t.world.handles.size)
      ∧ args' = args.map (·.mapHandle P.handle)) :
    Parallel n c Carried.outcome P D E t.world (operate invoke 0 args m t)
      (operate invoke' P.home args' m t') := by
  obtain ⟨hknown, rfl⟩ := hargs
  exact parallel_operate hinv h hi hm [] (List.forall_mem_nil _) args hknown

/-! ### All requests -/

theorem parallel_serve (hinv : ParallelInvoke n c invoke invoke') (h : Beside n P D E t t')
    (hi : (t.world.instance? 0).isSome) {r : Request} (hown : r.isOwn = true)
    (hconfined : r.IsConfined) (hcollects : r.collects = true → c) {g g' : Handle → Handle}
    (hg : HandlesMatch P t.world.handles.size r.handles g g')
    (halive : r.addressee?.isSome → t.world.isAlive 0 = true) :
    Parallel n c (r.Answered 0 P.home g g') P D E t.world (serve invoke (r.map (fun _ => 0) g) t)
      (serve invoke' (r.map (fun _ => P.home) g') t') := by
  have hswept : r.collects = true → Narrows c E n.world.reach := fun hr =>
    ⟨fun _ hq => h.abreast.together.mem_of_reachable hq, .inl (hcollects hr)⟩
  cases r with
  | newInstance limits => cases hown
  | destroy i =>
    exact (parallel_serve_destroy h hi (halive rfl) (hswept rfl)).imp fun hr =>
      Request.Tells.unnamed rfl rfl fun _ _ => hr
  | inspect i =>
    exact (parallel_serve_inspect h hi).imp fun hr => Request.Tells.unnamed rfl rfl fun _ _ => hr
  | eval i source =>
    exact (parallel_convert hinv h hi (hconfined _ rfl) (hg.values [] (List.forall_mem_nil _))).imp
      fun hr => hr.tells
  | global i => exact (parallel_serve_global h hi (halive rfl)).imp fun hr => hr.tells
  | createObject i => exact (parallel_serve_createObject h hi).imp fun hr => hr.tells
  | createArray i => exact (parallel_serve_createArray h hi).imp fun hr => hr.tells
  | createString i bytes =>
    obtain ⟨ha, ho, hhandle, hlt⟩ := h.abreast.newHandle hi
      (x := Script.Value.ofString (Utf8.decodeString bytes)) trivial
    have hnew : Parallel n c Carried.handle P D E t.world
        ((Run.alter (·.newHandle 0 (Script.Value.ofString (Utf8.decodeString bytes))) :
          Run (House σ) Handle) t)
        ((Run.alter (·.newHandle P.home (Script.Value.ofString (Utf8.decodeString bytes))) :
          Run (House σ) Handle) t') := .alter h hi ha ho ⟨hlt, hhandle⟩
    exact hnew.imp fun hr => hr.tells
  | get i object key =>
    exact (parallel_operateOn hinv h hi (hconfined _ rfl) (hg object (by simp [Request.handles]))
      (hg.values [key] (by simp +contextual [Request.handles]))
      (fun v vs => Operation.get v (vs.getD 0 .undefined)) fun _ _ => rfl).imp fun hr => hr.tells
  | set i object key value =>
    exact (parallel_operateOn hinv h hi (hconfined _ rfl) (hg object (by simp [Request.handles]))
      (hg.values [key, value] (by simp +contextual [Request.handles]))
      (fun v vs => Operation.set v (vs.getD 0 .undefined) (vs.getD 1 .undefined))
      fun _ _ => rfl).imp fun hr => hr.tells
  | remove i object key =>
    exact (parallel_operateOn hinv h hi (hconfined _ rfl) (hg object (by simp [Request.handles]))
      (hg.values [key] (by simp +contextual [Request.handles]))
      (fun v vs => Operation.remove v (vs.getD 0 .undefined)) fun _ _ => rfl).imp
      fun hr => hr.tells
  | has i object key =>
    exact (parallel_operateOn hinv h hi (hconfined _ rfl) (hg object (by simp [Request.handles]))
      (hg.values [key] (by simp +contextual [Request.handles]))
      (fun v vs => Operation.has v (vs.getD 0 .undefined)) fun _ _ => rfl).imp fun hr => hr.tells
  | getIndex i object index =>
    exact (parallel_operateOn hinv h hi (hconfined _ rfl) (hg object (by simp [Request.handles]))
      (hg.values [] (List.forall_mem_nil _)) (fun v _ => Operation.getIndex v index)
      fun _ _ => rfl).imp fun hr => hr.tells
  | setIndex i object index value =>
    exact (parallel_operateOn hinv h hi (hconfined _ rfl) (hg object (by simp [Request.handles]))
      (hg.values [value] (by simp +contextual [Request.handles]))
      (fun v vs => Operation.setIndex v index (vs.getD 0 .undefined)) fun _ _ => rfl).imp
      fun hr => hr.tells
  | keys i object inherited =>
    have hobject := hg object (List.mem_singleton_self _)
    have hlist := parallel_listNames hinv h hi (hconfined _ rfl) hobject.1 (c := c)
    rw [← hobject.2] at hlist
    exact hlist.imp fun hr => hr.tells
  | arrayLength i array =>
    exact (parallel_serve_arrayLength h hi (hg array (List.mem_singleton_self _))).imp fun hr =>
      Request.Tells.unnamed rfl rfl fun _ _ => hr
  | toUtf8 i text =>
    exact (parallel_serve_toUtf8 hinv h hi (hconfined _ rfl)
      (hg text (List.mem_singleton_self _))).imp fun hr =>
      Request.Tells.unnamed rfl rfl fun _ _ => hr
  | call i function this args =>
    have hmem : ∀ u ∈ this :: args, ∀ k ∈ u.handle?,
        k ∈ (Request.call i function this args).handles := by
      intro u hu k hk
      refine List.mem_append.mpr ?_
      rcases List.mem_cons.mp hu with rfl | hu
      · exact .inl (List.mem_cons_of_mem _ (Option.mem_toList.mpr hk))
      · exact .inr (List.mem_flatMap.mpr ⟨u, hu, Option.mem_toList.mpr hk⟩)
    exact (parallel_operateOn hinv h hi (hconfined _ rfl) (hg function (by simp [Request.handles]))
      (hg.values (this :: args) hmem)
      (fun v vs => Operation.call v (vs.headD .undefined) vs.tail) fun _ _ => rfl).imp
      fun hr => hr.tells
  | register i callback => exact (parallel_serve_register h hi callback).imp fun hr => hr.tells
  | toBoolean i v =>
    exact (parallel_serve_toBoolean h hi
      (hg.value (u := v) (by simp +contextual [Request.handles]))).imp fun hr =>
      Request.Tells.unnamed rfl rfl fun _ _ => hr
  | toNumber i v =>
    exact (parallel_convert hinv h hi (hconfined _ rfl)
      (hg.values [v] (by simp +contextual [Request.handles]))).imp fun hr => hr.tells
  | toText i v =>
    exact (parallel_convert hinv h hi (hconfined _ rfl)
      (hg.values [v] (by simp +contextual [Request.handles]))).imp fun hr => hr.tells
  | errorValue i e => exact (parallel_serve_errorValue hinv h hi e).imp fun hr => hr.tells
  | setSlot i slot data =>
    obtain ⟨ha, ho⟩ := h.abreast.setSlot hi slot data
    have hset : Parallel n c Carried.same P D E t.world
        ((Run.update (·.setSlot 0 slot data) : Run (House σ) Unit) t)
        ((Run.update (·.setSlot P.home slot data) : Run (House σ) Unit) t') :=
      .update h hi ha ho (.refl ..) rfl
    exact hset.imp fun hr => Request.Tells.unnamed rfl rfl fun _ _ => hr
  | getSlot i slot =>
    have hget : Parallel n c Carried.same P D E t.world
        ((Run.view (·.slot 0 slot) : Run (House σ) _) t)
        ((Run.view (·.slot P.home slot) : Run (House σ) _) t') :=
      .view h (h.abreast.together.slot hi slot)
    exact hget.imp fun hr => Request.Tells.unnamed rfl rfl fun _ _ => hr
  | collect i =>
    obtain ⟨ha, ho⟩ := h.abreast.collectFor hi
    have hcollect : Parallel n c Carried.same P D E t.world
        ((Run.update (·.collectFor 0) : Run (House σ) Unit) t)
        ((Run.update (·.collectFor P.home) : Run (House σ) Unit) t') :=
      .update h hi ha ho (hswept rfl) rfl
    exact hcollect.imp fun hr => Request.Tells.unnamed rfl rfl fun _ _ => hr
  | clone k =>
    exact (parallel_serve_clone h hi (hg k (List.mem_singleton_self _))).imp fun hr => hr.tells
  | release k =>
    obtain ⟨hlt, hsame⟩ := hg k (List.mem_singleton_self _)
    obtain ⟨ha, ho⟩ := h.abreast.releaseHandle hlt
    have hrelease : Parallel n c Carried.same P D E t.world
        ((Run.update (·.releaseHandle (g k)) : Run (House σ) Unit) t)
        ((Run.update (·.releaseHandle (P.handle (g k))) : Run (House σ) Unit) t') :=
      .update h hi ha ho (.refl ..) rfl
    rw [← hsame] at hrelease
    exact hrelease.imp fun hr => Request.Tells.unnamed rfl rfl fun _ _ => hr
  | sameValue k l =>
    exact (parallel_serve_sameValue h (hg k (by simp [Request.handles]))
      (hg l (by simp [Request.handles]))).imp fun hr =>
      Request.Tells.unnamed rfl rfl fun _ _ => hr
  | typeName k =>
    exact (parallel_serve_typeName h (hg k (List.mem_singleton_self _))).imp fun hr =>
      Request.Tells.unnamed rfl rfl fun _ _ => hr
  | install pair => cases hown
  | lifecycle =>
    have hview : Parallel n c Carried.same P D E t.world
        ((Run.view (·.lifecycle) : Run (House σ) _) t)
        ((Run.view (·.lifecycle) : Run (House σ) _) t') :=
      .view h h.abreast.together.left.lifecycle
    exact hview.imp fun hr => Request.Tells.unnamed rfl rfl fun _ _ => hr
  | note e =>
    have hnote : Parallel n c Carried.same P D E t.world
        ((Run.update (·.note e) : Run (House σ) Unit) t)
        ((Run.update (·.note e) : Run (House σ) Unit) t') :=
      .update h hi (h.abreast.note e e) (.of_same rfl rfl id) (.refl ..) rfl
    exact hnote.imp fun hr => Request.Tells.unnamed rfl rfl fun _ _ => hr
  | dropped => cases hown
  | log => cases hown

/-- **Requests are answered side by side.** -/
theorem parallel_answer (hinv : ParallelInvoke n c invoke invoke') (h : Beside n P D E t t')
    (hi : (t.world.instance? 0).isSome) {r : Request} (hown : r.isOwn = true)
    (hconfined : r.IsConfined) (hcollects : r.collects = true → c) {f g : Handle → Handle}
    (hg : HandlesMatch P t.world.handles.size r.handles f g) :
    Parallel n c (r.Answered 0 P.home f g) P D E t.world (answer invoke (r.map (fun _ => 0) f) t)
      (answer invoke' (r.map (fun _ => P.home) g) t') := by
  have haddressee : ∀ (i : InstanceId) (g : Handle → Handle),
      (r.map (fun _ => i) g).addressee? = r.addressee?.map fun _ => i := by
    intro i g
    cases r <;> rfl
  have hserve := parallel_serve hinv h hi hown hconfined hcollects hg
  rw [answer_apply, answer_apply, haddressee, haddressee]
  cases ha : r.addressee? with
  | none => exact hserve fun hsome => by rw [ha] at hsome; cases hsome
  | some i =>
    dsimp only [Option.map_some]
    obtain ⟨hgone, hgone'⟩ | ⟨x, x', hx, hx', -⟩ := h.abreast.together.live hi
    · rw [hgone, hgone']
      exact .error (.noInstance 0)
    · rw [hx, hx']
      exact hserve fun _ => World.isAlive_of_live? hx

end Serve

end ScriptBoundary.Boundary
