import ScriptBoundary.Proofs.Equations
import ScriptBoundary.Proofs.Sweep

/-!
# Two runs side by side

A tenant acts in a process of its own, and it acts in one that it shares with a tenant that is at
rest meanwhile (`Sleeper`). `Beside` relates the two states: what the tenant has in the one stands
in the other, in the world and in what is kept for it, and what the sleeper has is there as well.
`Parallel` relates the two ends of a run: either both succeed, in states of which the same is so,
with results that correspond; or both fail in the same way.

A script is run side by side with itself if it keeps to what it was given (`Comp.Confined`), and the
calls that it makes are answered side by side. The same goes for an operation, whatever context it
finds.

## Main results

* `Parallel.bind`: what runs side by side one after the other
* `parallel_runProgram`, `parallel_inContext`, `parallel_operate`: scripts, contexts and operations
-/

namespace ScriptBoundary.Boundary

open Script (Activation Comp Completion Embedding Heap HostCall Program Ref)

variable {σ α β γ δ : Type}

/-- The same fault, about another instance. -/
def Fault.mapOwner (f : InstanceId → InstanceId) : Fault → Fault
  | .contextInUse i => .contextInUse (f i)
  | .instanceInUse i => .instanceInUse (f i)
  | .noInstance i => .noInstance (f i)
  | .exhausted => .exhausted

/-- Whether what is kept for a tenant in a shared house is what is kept for it in its own. -/
structure Lodging.Stands (l : Lodging σ) (P : Passage) (w : World) (l' : Lodging σ) : Prop where
  place : ∀ i ∈ l.home, i = 0 ∧ (w.instance? 0).isSome
  moved : (w.instance? 0).isSome → l.home = some 0
  home : l'.home = l.home.map (P.home + ·)
  names : l'.names = l.names.map P.handle
  known : ∀ h ∈ l.names, h.id < w.handles.size
  diary : l'.diary = l.diary
  own : l'.own = l.own

/-- A tenant that is at rest: its side of the house, its own world and where that is in the shared
one, and what is kept for it there. -/
structure Sleeper (σ : Type) where
  side : Side
  passage : Passage
  world : World
  lodging : Lodging σ

/-- A state in which a tenant is alone, and one that it shares with a sleeper. -/
structure Beside (n : Sleeper σ) (P : Passage) (D E : Set Ref) (t t' : State (House σ)) : Prop where
  abreast : Abreast n.passage n.world P D E t.world t'.world
  lodging : (t.host n.side.other).Stands P t.world (t'.host n.side.other)
  vacant : (t.host n.side).home = none
  sleeper : t'.host n.side = n.lodging
  asleep : ∀ i ∈ n.lodging.home, i = n.passage.home ∧ (n.world.instance? 0).isSome

/-- How the results of two runs can correspond, depending on what the tenant has by then. -/
abbrev Correspondence (α β : Type) := Passage → Set Ref → World → α → β → Prop

/-- Whether two runs end alike, one of a tenant alone that started from a certain world, and one in
a process that it shares. -/
inductive Parallel (n : Sleeper σ) (c : Prop) (R : Correspondence α β) (P : Passage) (D E : Set Ref)
    (w : World) :
    Except Fault (α × State (House σ)) → Except Fault (β × State (House σ)) → Prop where
  | ok {a b t t' P₁ D₁ E₁} (beside : Beside n P₁ D₁ E₁ t t')
    (onward : Onward P D w P₁ D₁ t.world) (narrows : Narrows c E E₁)
    (result : R P₁ D₁ t.world a b) : Parallel n c R P D E w (.ok (a, t)) (.ok (b, t'))
  | error (e : Fault) : Parallel n c R P D E w (.error e) (.error (e.mapOwner (P.home + ·)))

variable {n : Sleeper σ} {c : Prop} {R : Correspondence α β} {S : Correspondence γ δ}
  {P P₁ : Passage} {D D₁ E E₁ : Set Ref} {t t' : State (House σ)} {w w₁ w₁' : World}

theorem Lodging.Stands.onward {l l' : Lodging σ} (h : l.Stands P w l')
    (hi : (w.instance? 0).isSome) (ho : Onward P D w P₁ D₁ w₁) : l.Stands P₁ w₁ l' where
  place i hl := (h.place i hl).imp_right fun _ => ho.home hi
  moved _ := h.moved hi
  home := by rw [ho.agrees.home, h.home]
  names := by
    rw [h.names]
    exact List.map_congr_left fun k hk => (ho.handle k (h.known k hk)).symm
  known k hk := Nat.lt_of_lt_of_le (h.known k hk) ho.handles
  diary := h.diary
  own := h.own

theorem Beside.onward (h : Beside n P D E t t') (hi : (t.world.instance? 0).isSome)
    (ha : Abreast n.passage n.world P₁ D₁ E₁ w₁ w₁') (ho : Onward P D t.world P₁ D₁ w₁) :
    Beside n P₁ D₁ E₁ { t with world := w₁ } { t' with world := w₁' } :=
  ⟨ha, h.lodging.onward hi ho, h.vacant, h.sleeper, h.asleep⟩

/-! ## Runs -/

namespace Parallel

/-- What comes later does so too if it is looked at from an earlier time. -/
theorem later {x : Except Fault (α × State (House σ))} {x' : Except Fault (β × State (House σ))}
    (h : Parallel n c R P₁ D₁ E₁ w₁ x x') (ho : Onward P D w P₁ D₁ w₁) (hn : Narrows c E E₁) :
    Parallel n c R P D E w x x' := by
  cases h with
  | ok beside onward narrows result =>
    exact .ok beside (ho.trans onward) (hn.trans narrows) result
  | error e =>
    rw [ho.agrees.home]
    exact .error e

/-- **One thing after the other.** -/
theorem bind {m : Run (House σ) α} {m' : Run (House σ) β} {f : α → Run (House σ) γ}
    {f' : β → Run (House σ) δ} (hm : Parallel n c R P D E w (m t) (m' t'))
    (hf : ∀ {a b u u' P₁ D₁ E₁}, Beside n P₁ D₁ E₁ u u' → Onward P D w P₁ D₁ u.world →
      R P₁ D₁ u.world a b → Parallel n c S P₁ D₁ E₁ u.world (f a u) (f' b u')) :
    Parallel n c S P D E w ((m >>= f) t) ((m' >>= f') t') := by
  rw [Run.bind_apply, Run.bind_apply]
  generalize m t = x at hm
  generalize m' t' = x' at hm
  cases hm with
  | ok beside onward narrows result =>
    exact (hf beside onward result).later onward narrows
  | error e => exact .error e

variable (h : Beside n P D E t t')
include h

theorem pure {a : α} {b : β} (hr : R P D t.world a b) :
    Parallel n c R P D E t.world ((Pure.pure a : Run (House σ) α) t)
      ((Pure.pure b : Run (House σ) β) t') :=
  .ok h (.refl ..) (.refl ..) hr

theorem view {f : World → α} {f' : World → β} (hr : R P D t.world (f t.world) (f' t'.world)) :
    Parallel n c R P D E t.world ((Run.view f : Run (House σ) α) t)
      ((Run.view f' : Run (House σ) β) t') :=
  .ok h (.refl ..) (.refl ..) hr

variable (hi : (t.world.instance? 0).isSome)
include hi

theorem alter {f : World → α × World} {f' : World → β × World}
    (ha : Abreast n.passage n.world P₁ D₁ E (f t.world).2 (f' t'.world).2)
    (ho : Onward P D t.world P₁ D₁ (f t.world).2)
    (hr : R P₁ D₁ (f t.world).2 (f t.world).1 (f' t'.world).1) :
    Parallel n c R P D E t.world ((Run.alter f : Run (House σ) α) t)
      ((Run.alter f' : Run (House σ) β) t') :=
  .ok (h.onward hi ha ho) ho (.refl ..) hr

theorem update {R : Correspondence Unit Unit} {f f' : World → World}
    (ha : Abreast n.passage n.world P₁ D₁ E₁ (f t.world) (f' t'.world))
    (ho : Onward P D t.world P₁ D₁ (f t.world)) (hn : Narrows c E E₁)
    (hr : R P₁ D₁ (f t.world) () ()) :
    Parallel n c R P D E t.world ((Run.update f : Run (House σ) Unit) t)
      ((Run.update f' : Run (House σ) Unit) t') :=
  .ok (h.onward hi ha ho) ho hn hr

end Parallel

/-! ## Results -/

namespace Carried

/-- The same result. -/
def same : Correspondence α α := fun _ _ _ a b => b = a

/-- A completion, carried along. -/
def completion : Correspondence (Completion Script.Value) (Completion Script.Value) :=
  fun P D w r r' => r.Fits (w.heap.zone D) ∧ r' = P.completion r

/-- Script values, carried along. -/
def values : Correspondence (List Script.Value) (List Script.Value) :=
  fun P D w xs ys => (∀ x ∈ xs, x.Fits (w.heap.zone D)) ∧ ys = xs.map P.value

/-- A handle that has become another one. -/
def handle : Correspondence Handle Handle :=
  fun P _ w k k' => k.id < w.handles.size ∧ k' = P.handle k

/-- A value whose handle has become another one. -/
def value : Correspondence Value Value :=
  fun P _ w u u' => u.Known w.handles.size ∧ u' = u.mapHandle P.handle

/-- An outcome whose handle has become another one. -/
def outcome : Correspondence Outcome Outcome :=
  fun P _ w o o' => o.value.Known w.handles.size ∧ o' = o.mapHandle P.handle

end Carried

/-! ## Scripts -/

/-- Whether the host calls of scripts are answered side by side. -/
def ParallelInvoke (n : Sleeper σ) (c : Prop) (invoke invoke' : Invoke (House σ)) : Prop :=
  ∀ {P D E t t' k}, Beside n P D E t t' → (t.world.instance? 0).isSome →
    k.Fits (t.world.heap.zone D) → (∃ r ∈ D, (t.world.heap.object r).anchor = some k.anchor) →
    Parallel n c Carried.completion P D E t.world (invoke k t) (invoke' (P.hostCall k) t')

section Runs

variable {invoke invoke' : Invoke (House σ)} {act : Activation}

/-- **A script** runs side by side with one that echoes it. -/
theorem parallel_runProgram (hinv : ParallelInvoke n c invoke invoke') {h h' : Heap} {f : Embedding}
    {p p' : Program} (hp : p.Echoes h f D h' p') :
    ∀ {P E t t'}, P.toEmbedding = f → t.world.heap = h → t'.world.heap = h' →
      Beside n P D E t t' → (t.world.instance? 0).isSome →
      Parallel n c Carried.completion P D E t.world (runProgram invoke p t)
        (runProgram invoke' p' t') := by
  induction hp with
  | done hc =>
    rintro P E t t' rfl rfl rfl hb -
    exact .ok hb (.refl ..) (.refl ..) ⟨hc, rfl⟩
  | exhausted =>
    intros
    exact .error .exhausted
  | look _ ih =>
    rintro P E t t' rfl rfl rfl hb hi
    exact ih rfl rfl rfl hb hi
  | look' _ ih =>
    rintro P E t t' rfl rfl rfl hb hi
    exact ih rfl rfl rfl hb hi
  | edit he _ ih =>
    rintro P E t t' rfl rfl rfl hb hi
    obtain ⟨ha, ho⟩ := hb.abreast.edit he
    rw [runProgram_edit, runProgram_edit]
    exact (ih rfl rfl rfl (hb.onward hi ha ho) (ho.home hi)).later ho (.refl ..)
  | call hc ha _ ih =>
    rintro P E t t' rfl rfl rfl hb hi
    have hcall := hinv hb hi hc ha
    rw [runProgram_call, runProgram_call]
    generalize invoke _ t = x at hcall
    generalize invoke' _ t' = x' at hcall
    cases hcall with
    | ok beside onward narrows result =>
      obtain ⟨hfits, rfl⟩ := result
      exact (ih onward.grows beside.abreast.together.left.heap hfits rfl rfl rfl beside
        (onward.home hi)).later onward narrows
    | error e => exact .error e

/-- A confined computation, given the same values. -/
theorem parallel_runIn (hinv : ParallelInvoke n c invoke invoke') (h : Beside n P D E t t')
    (hi : (t.world.instance? 0).isSome) {m : List Script.Value → Comp Script.Value}
    (hm : Comp.Confined m) (hact : act.Fits (t.world.heap.zone D)) (vs : List Script.Value)
    (hvs : ∀ v ∈ vs, v.Fits (t.world.heap.zone D)) :
    Parallel n c Carried.completion P D E t.world (runIn invoke act (m vs) t)
      (runIn invoke' (P.activation act) (m (vs.map P.value)) t') :=
  parallel_runProgram hinv (hm h.abreast.together.left.heap hact hvs) rfl rfl rfl h hi

/-! ## Contexts -/

/-- **An operation finds the same context.** -/
theorem parallel_inContext (h : Beside n P D E t t') (hi : (t.world.instance? 0).isSome)
    {body : Activation → Run (House σ) α} {body' : Activation → Run (House σ) β}
    (hR : ∀ {P D w a b}, R P D w a b → R P D (w.giveBack 0) a b)
    (hbody : ∀ {act u u' P₁}, Beside n P₁ D E u u' → Onward P D t.world P₁ D u.world →
      u.world.isAlive 0 = true → act.Fits (u.world.heap.zone D) →
      Parallel n c R P₁ D E u.world (body act u) (body' (P₁.activation act) u')) :
    Parallel n c R P D E t.world (inContext 0 body t) (inContext P.home body' t') := by
  obtain ⟨hgone, hgone'⟩ | ⟨x, x', hx, hx', hmatch⟩ := h.abreast.together.live hi
  · rw [inContext_gone hgone, inContext_gone hgone']
    exact .error (.noInstance 0)
  · have hlent := hmatch.lent
    cases hl : x.lent with
    | some act =>
      rw [hl] at hlent
      obtain ⟨hcurrent, hfits⟩ := h.abreast.together.current (hmatch.fits_lent act hl)
      rw [inContext_lent hx hl, inContext_lent hx' hlent, hcurrent]
      exact hbody h (.refl ..) (World.isAlive_of_live? hx) hfits
    | none =>
      rw [hl] at hlent
      cases hb : x.borrowed with
      | true =>
        rw [inContext_borrowed hx hl hb,
          inContext_borrowed hx' hlent (hmatch.borrowed.trans hb)]
        exact .error (.contextInUse 0)
      | false =>
        obtain ⟨ha, ho⟩ := h.abreast.borrow hx hx' hmatch hl hb
        have halive : (t.world.borrow 0).isAlive 0 = true := by
          simpa [World.isAlive, World.borrow, World.desk, World.instance?_updateInstance,
            Instance.desk, Function.comp_def] using World.isAlive_of_live? hx
        obtain ⟨hrealm, hthere⟩ := hmatch.realm (World.live?_eq_some_iff.mp hx).2
        have hroot : P.activation (x.root 0 t.world.converting) =
            x'.root P.home t'.world.converting := by
          rw [Instance.root, Instance.root, hmatch.limits, hrealm, h.abreast.together.converting]
          rfl
        have hfits : (x.root 0 t.world.converting).Fits ((t.world.borrow 0).heap.zone D) :=
          ⟨hthere, List.forall_mem_nil _, h.abreast.together.fits_converting⟩
        have hrun := hbody (h.onward hi ha ho) ho halive hfits
        rw [hroot] at hrun
        rw [inContext_own hx hl hb, inContext_own hx' hlent (hmatch.borrowed.trans hb)]
        revert hrun
        generalize body _ _ = y
        generalize body' _ _ = y'
        rintro (⟨hbeside, honward, hnarrows, hresult⟩ | e)
        · have hi₁ := honward.home (ho.home hi)
          obtain ⟨ha₁, ho₁⟩ := hbeside.abreast.giveBack hi₁
          rw [honward.agrees.home] at ha₁
          exact .ok (hbeside.onward hi₁ ha₁ ho₁) ((ho.trans honward).trans ho₁) hnarrows
            (hR hresult)
        · exact .error e

/-! ## Operations -/

/-- A script value is handed out as the value of an outcome. -/
theorem parallel_outcome (h : Beside n P D E t t') (hi : (t.world.instance? 0).isSome)
    {x : Script.Value} (hx : x.Fits (t.world.heap.zone D)) (f : Value → Outcome)
    (hf : ∀ u, (f u).value = u) (hmap : ∀ u g, f (u.mapHandle g) = (f u).mapHandle g) :
    Parallel n c Carried.outcome P D E t.world
      ((do return f (← Run.alter (·.encode 0 x)) : Run (House σ) Outcome) t)
      ((do return f (← Run.alter (·.encode P.home (P.value x))) : Run (House σ) Outcome) t') := by
  obtain ⟨P₁, ha, ho, hvalue, hknown⟩ := h.abreast.encode hi hx
  have hencode : Parallel n c Carried.value P D E t.world
      ((Run.alter (·.encode 0 x) : Run (House σ) Value) t)
      ((Run.alter (·.encode P.home (P.value x)) : Run (House σ) Value) t') :=
    .alter h hi ha ho ⟨hknown, hvalue⟩
  refine hencode.bind fun hb _ hr => ?_
  obtain ⟨hu, rfl⟩ := hr
  exact .pure hb ⟨(hf _).symm ▸ hu, hmap _ _⟩

theorem parallel_conclude (hinv : ParallelInvoke n c invoke invoke') (h : Beside n P D E t t')
    (hi : (t.world.instance? 0).isSome) (hact : act.Fits (t.world.heap.zone D))
    {r r' : Completion Script.Value} (hr : Carried.completion P D t.world r r') :
    Parallel n c Carried.outcome P D E t.world (conclude invoke 0 act r t)
      (conclude invoke' P.home (P.activation act) r' t') := by
  obtain ⟨hfits, rfl⟩ := hr
  cases r with
  | value x => exact parallel_outcome h hi hfits .ok (fun _ => rfl) fun _ _ => rfl
  | thrown x => exact parallel_outcome h hi hfits .exception (fun _ => rfl) fun _ _ => rfl
  | limit fault =>
    have hrun := parallel_runIn hinv h hi (Comp.confined_newError .rangeError fault.message) hact []
      (List.forall_mem_nil _)
    refine hrun.bind fun {r r' u u' P₁ D₁ E₁} hb ho hr => ?_
    obtain ⟨hfits, rfl⟩ := hr
    rw [← ho.agrees.home]
    cases r with
    | value x =>
      exact parallel_outcome hb (ho.home hi) hfits .exception (fun _ => rfl) fun _ _ => rfl
    | thrown x =>
      exact parallel_outcome hb (ho.home hi) hfits .exception (fun _ => rfl) fun _ _ => rfl
    | limit fault => exact .pure hb ⟨.of_none rfl, rfl⟩

/-- **An operation on scripts**, if it keeps to what it is given. -/
theorem parallel_operate (hinv : ParallelInvoke n c invoke invoke') (h : Beside n P D E t t')
    (hi : (t.world.instance? 0).isSome) {m : List Script.Value → Comp Script.Value}
    (hm : Comp.Confined m) (xs : List Script.Value) (hxs : ∀ x ∈ xs, x.Fits (t.world.heap.zone D))
    (args : List Value) (hargs : ∀ u ∈ args, u.Known t.world.handles.size) :
    Parallel n c Carried.outcome P D E t.world
      (operate invoke 0 args (fun vs => m (xs ++ vs)) t)
      (operate invoke' P.home (args.map (·.mapHandle P.handle))
        (fun vs => m (xs.map P.value ++ vs)) t') := by
  refine parallel_inContext h hi (fun hr => hr) fun {act u u' P₁} hb ho halive hact => ?_
  have hknown : ∀ v ∈ args, v.Known u.world.handles.size := fun v hv =>
    (hargs v hv).mono ho.handles
  have hsame : args.map (·.mapHandle P.handle) = args.map (·.mapHandle P₁.handle) :=
    List.map_congr_left fun v hv => Value.mapHandle_congr fun k hk =>
      (ho.handle k (hargs v hv k hk)).symm
  have hsame' : xs.map P.value = xs.map P₁.value := List.map_congr_left fun x hx =>
    (Embedding.value_congr ho.agrees (hxs x hx)).symm
  have hi₁ := ho.home hi
  obtain ⟨P₂, D₂, ha₂, ho₂, hvalues, hfits⟩ := hb.abreast.decodeAll hact.realm hknown
  have hdecode : Parallel n c Carried.values P₁ D E u.world
      ((Run.alter (·.decodeAll act.realm args) : Run (House σ) _) u)
      ((Run.alter (·.decodeAll (P₁.ref act.realm) (args.map (·.mapHandle P₁.handle))) :
        Run (House σ) _) u') := .alter hb hi₁ ha₂ ho₂ ⟨hfits, hvalues⟩
  rw [hsame, hsame', ← ho.agrees.home]
  refine hdecode.bind fun {vs vs' u₂ u₂' P₂ D₂ E₂} hb₂ ho₂ hr => ?_
  obtain ⟨hfits₂, rfl⟩ := hr
  have hact₂ := hact.mono ho₂.zone_le
  have hall : ∀ x ∈ xs ++ vs, x.Fits (u₂.world.heap.zone D₂) := fun x hx => by
    rcases List.mem_append.mp hx with hx | hx
    · exact (hxs x hx).mono ((ho.trans ho₂).zone_le)
    · exact hfits₂ x hx
  have hrun := parallel_runIn hinv hb₂ (ho₂.home hi₁) hm hact₂ _ hall (c := c)
  have hcarried : (xs ++ vs).map P₂.value = xs.map P₁.value ++ vs.map P₂.value := by
    rw [List.map_append]
    exact congrArg (· ++ vs.map P₂.value) (List.map_congr_left fun x hx =>
      Embedding.value_congr ho₂.agrees ((hxs x hx).mono ho.zone_le))
  rw [hcarried, Embedding.activation_congr ho₂.agrees hact] at hrun
  refine hrun.bind fun {r r' u₃ u₃' P₃ D₃ E₃} hb₃ ho₃ hr => ?_
  have hconclude := parallel_conclude hinv hb₃ ((ho₂.trans ho₃).home hi₁)
    (hact₂.mono ho₃.zone_le) hr (c := c)
  rwa [Embedding.activation_congr (ho₂.trans ho₃).agrees hact, (ho₂.trans ho₃).agrees.home]
    at hconclude

end Runs

end ScriptBoundary.Boundary
