import ScriptBoundary.Proofs.Answering
import ScriptBoundary.Proofs.Canonical

/-!
# Programs side by side

A program of a tenant runs in a process of its own and in one that it shares. It names the handles
it is given by itself, in the order in which it is given them, so it makes the same requests here
and there as long as it is told the same; and it is told the same, as requests are answered side by
side. So nothing it does or writes down differs (`parallel_lodged`).

Behind a function that scripts can call is the same code here and there. It is told the same and
gives the same back, also if it is behind a wrapper and talks in raw values (`parallel_hostCall`).

## Main results

* `parallel_lodged`: a program of a tenant
* `parallel_hostCall`: the code behind a callback
-/

namespace ScriptBoundary.Boundary

open Script (Activation Anchor Completion Embedding Ref)

variable {σ α β γ δ : Type}

/-- Whether a request runs no script but a confined one, and has the collector run only if that is
so of some request. -/
def Request.Behaves (c : Prop) (r : Request) : Prop := r.IsConfined ∧ (r.collects = true → c)

/-- No request that runs no script and does not have the collector run can be felt next door. -/
theorem Request.Behaves.of_plain {c : Prop} {r : Request} (hscript : r.script? = none)
    (hcollects : r.collects = false) : r.Behaves c := by
  refine ⟨fun m hm => ?_, fun h => ?_⟩
  · rw [hscript] at hm
    cases hm
  · rw [hcollects] at h
    cases h

/-- Whether all code of a tenant that scripts can call only ever makes requests of some kind. -/
structure Tenant.Only (tenant : Tenant σ) (p : Request → Prop) : Prop where
  native : ∀ name this args, (tenant.native name this args).Only p
  wrapper : ∀ pair context this args, (tenant.wrapper pair context this args).Only p

/-! ## Handles in values -/

namespace Value

theorem mapHandle_id (u : Value) : u.mapHandle id = u := by cases u <;> rfl

theorem mapHandle_mapHandle (u : Value) (g g' : Handle → Handle) :
    (u.mapHandle g).mapHandle g' = u.mapHandle (g' ∘ g) := by cases u <;> rfl

theorem handle?_mapHandle (u : Value) (g : Handle → Handle) :
    (u.mapHandle g).handle? = u.handle?.map g := by cases u <;> rfl

end Value

/-- The handles that are handed over with a call. -/
def handedOver (this : Value) (args : List Value) : List Handle :=
  (this :: args).flatMap (·.handle?.toList)

theorem mem_handedOver {this : Value} {args : List Value} {k : Handle} :
    k ∈ handedOver this args ↔ ∃ u ∈ this :: args, k ∈ u.handle? := by
  simp only [handedOver, List.mem_flatMap, Option.mem_toList, Option.mem_def]

theorem handedOver_map (this : Value) (args : List Value) (g : Handle → Handle) :
    handedOver (this.mapHandle g) (args.map (·.mapHandle g)) = (handedOver this args).map g := by
  have hhandle : ∀ u : Value, (u.mapHandle g).handle?.toList = u.handle?.toList.map g := fun u => by
    rw [Value.handle?_mapHandle]
    cases u.handle? <;> rfl
  simp only [handedOver, List.flatMap_cons, List.flatMap_map, hhandle, List.map_append,
    List.map_flatMap]

/-! ## What is kept for a tenant -/

namespace Lodging.Stands

variable {P : Passage} {D : Set Ref} {w : World} {l l' : Lodging σ}

theorem knows (h : l.Stands P w l') (k : Handle) : l'.knows k = l.knows k := by
  rw [Lodging.knows, Lodging.knows, h.names, List.length_map]

/-- What the names of a tenant stand for. -/
theorem find (h : l.Stands P w l') {k : Handle} (hk : l.knows k = true) :
    (l.find k).id < w.handles.size ∧ l'.find k = P.handle (l.find k) := by
  have hlt : k.id < l.names.length := of_decide_eq_true hk
  rw [Lodging.find, Lodging.find, h.names, List.getD_eq_getElem?_getD, List.getD_eq_getElem?_getD,
    List.getElem?_map, List.getElem?_eq_getElem hlt]
  exact ⟨h.known _ (List.getElem_mem hlt), rfl⟩

/-- The values a tenant means. -/
theorem meant (h : l.Stands P w l') (u : Value) : Carried.value P D w (l.meant u) (l'.meant u) := by
  have hknows : l'.knows = l.knows := funext h.knows
  rw [Lodging.meant, Lodging.meant, hknows]
  cases u with
  | composite kind k =>
    split
    · next hall =>
      obtain ⟨hlt, hsame⟩ := h.find (k := k) hall
      exact ⟨fun k' hk' => Option.some.inj hk' ▸ hlt, congrArg (Value.composite kind) hsame⟩
    · exact ⟨.of_none rfl, rfl⟩
  | _ => exact ⟨.of_none rfl, rfl⟩

/-- Handles are named, and something is written down. -/
theorem receive (h : l.Stands P w l') {given given' : List Handle}
    (hgiven : ∀ k ∈ given, k.id < w.handles.size) (hgiven' : given' = given.map P.handle)
    (e : DiaryEntry) :
    ((l.receive given).write e).Stands P w ((l'.receive given').write e) where
  place := h.place
  moved := h.moved
  home := h.home
  names := by
    show l'.names ++ given' = (l.names ++ given).map P.handle
    rw [h.names, hgiven', List.map_append]
  known k hk := (List.mem_append.mp hk).elim (h.known k) (hgiven k)
  diary := congrArg (e :: ·) h.diary
  own := h.own

/-- **Handles are given the same names.** -/
theorem naming (h : l.Stands P w l') (hinj : ∀ k m : Handle, k.id < w.handles.size →
      m.id < w.handles.size → P.handle k = P.handle m → k = m) {given : List Handle}
    (hgiven : ∀ k ∈ given, k.id < w.handles.size) {k : Handle} (hk : k ∈ given) :
    l'.naming (given.map P.handle) (P.handle k) = l.naming given k := by
  have hidx : (given.map P.handle).idxOf (P.handle k) = given.idxOf k := by
    have hlt := hgiven k hk
    clear hk
    induction given with
    | nil => rfl
    | cons m given ih =>
      rw [List.forall_mem_cons] at hgiven
      have hbeq : (P.handle m == P.handle k) = (m == k) := by
        rw [Bool.eq_iff_iff, beq_iff_eq, beq_iff_eq]
        exact ⟨hinj m k hgiven.1 hlt, congrArg P.handle⟩
      rw [List.map_cons, List.idxOf_cons, List.idxOf_cons, hbeq, ih hgiven.2]
  rw [Lodging.naming, Lodging.naming, hidx, h.names, List.length_map]

/-- **The tenant hears the same.** -/
theorem told (h : l.Stands P w l') {r : Request} {a a' : r.Answer}
    (ha : r.Tells P.handle w.handles.size a a') : l'.told r a' = l.told r a := by
  obtain ⟨-, hhanded, hsame⟩ := ha
  refine hsame _ _ fun k hk => ?_
  rw [hhanded, hk]
  simp [Lodging.naming, h.names]

theorem hear (h : l.Stands P w l') {r : Request} {a a' : r.Answer}
    (ha : r.Tells P.handle w.handles.size a a') : (l.hear r a).Stands P w (l'.hear r a') := by
  rw [Lodging.hear, Lodging.hear, h.told ha]
  refine h.receive (fun k hk => ha.1 k (Option.mem_toList.mp hk)) ?_ _
  rw [ha.2.1]
  cases r.handed? a <;> rfl

end Lodging.Stands

theorem Side.other_ne (s : Side) : s.other ≠ s := by cases s <;> nofun

namespace Beside

variable {n : Sleeper σ} {P : Passage} {D E : Set Ref} {t t' : State (House σ)}

/-- What is kept for the tenant that acts changes, here and there. -/
theorem keep (h : Beside n P D E t t') {l l' : Lodging σ} (hl : l.Stands P t.world l') :
    Beside n P D E { t with host := Function.update t.host n.side.other l }
      { t' with host := Function.update t'.host n.side.other l' } where
  abreast := h.abreast
  lodging := by
    dsimp only
    rwa [Function.update_self, Function.update_self]
  vacant := (congrArg Lodging.home (Function.update_of_ne n.side.other_ne.symm _ _)).trans h.vacant
  sleeper := (Function.update_of_ne n.side.other_ne.symm _ _).trans h.sleeper
  asleep := h.asleep

end Beside

/-! ## Programs -/

section Programs

variable {n : Sleeper σ} {c : Prop} {P : Passage} {D E : Set Ref} {w : World}
  {t t' : State (House σ)} {invoke invoke' : Invoke (House σ)}

/-- One program after the other. -/
theorem Parallel.bindAct {R : Correspondence α β} {S : Correspondence γ δ}
    {m : Act (House σ) α} {m' : Act (House σ) β} {f : α → Act (House σ) γ}
    {f' : β → Act (House σ) δ}
    (hm : Parallel n c R P D E w (m.run (answer invoke) t) (m'.run (answer invoke') t'))
    (hf : ∀ {a b u u' P₁ D₁ E₁}, Beside n P₁ D₁ E₁ u u' → Onward P D w P₁ D₁ u.world →
      R P₁ D₁ u.world a b → Parallel n c S P₁ D₁ E₁ u.world ((f a).run (answer invoke) u)
        ((f' b).run (answer invoke') u')) :
    Parallel n c S P D E w ((m >>= f).run (answer invoke) t)
      ((m' >>= f').run (answer invoke') t') := by
  rw [Act.run_bind, Act.run_bind, ← Run.bind_apply, ← Run.bind_apply]
  exact hm.bind hf

namespace Act

variable (respond : (r : Request) → Run (House σ) r.Answer) (s : Side) (t : State (House σ))

/-- What a request of a tenant comes to. -/
theorem run_lodged_ask (r : Request) (next : r.Answer → Act σ α) :
    ((Act.ask r next).lodged s).run respond t = match (t.host s).home with
      | none => ((next r.noAnswer).lodged s).run respond t
      | some i =>
        if r.isOwn && r.handles.all (t.host s).knows then
          match respond (r.map (fun _ => i) (t.host s).find) t with
          | .error e => .error e
          | .ok (a, u) =>
            let a := cast (r.answer_map (fun _ => i) (t.host s).find) a
            ((next ((u.host s).told r a)).lodged s).run respond
              { u with host := Function.update u.host s ((u.host s).hear r a) }
        else ((next r.noAnswer).lodged s).run respond t := by
  rw [lodged, run]
  cases (t.host s).home with
  | none => rfl
  | some i =>
    dsimp only
    split
    · rw [askFor, run_ask]
      cases respond (r.map (fun _ => i) (t.host s).find) t <;> rfl
    · rfl

end Act

/-- **A program of a tenant** runs side by side with itself. -/
theorem parallel_lodged (hinv : ParallelInvoke n c invoke invoke') {m : Act σ α}
    (hm : m.Only (Request.Behaves c)) (h : Beside n P D E t t') :
    Parallel n c Carried.same P D E t.world ((m.lodged n.side.other).run (answer invoke) t)
      ((m.lodged n.side.other).run (answer invoke') t') := by
  induction m generalizing P D E t t' with
  | done a => exact .ok h (.refl ..) (.refl ..) rfl
  | ask r next ih =>
    have hl := h.lodging
    rw [Act.run_lodged_ask, Act.run_lodged_ask, hl.home]
    cases hhome : (t.host n.side.other).home with
    | none => exact ih _ (hm.2 _) h
    | some i =>
      obtain ⟨rfl, hi⟩ := hl.place i hhome
      have hknows : (t'.host n.side.other).knows = (t.host n.side.other).knows :=
        funext hl.knows
      dsimp only [Option.map_some]
      rw [hknows]
      split
      · next hown =>
        obtain ⟨hown, hall⟩ := Bool.and_eq_true_iff.mp hown
        have hanswer := parallel_answer hinv h hi hown hm.1.1 hm.1.2
          (f := (t.host n.side.other).find) (g := (t'.host n.side.other).find)
          fun k hk => hl.find (List.all_eq_true.mp hall k hk)
        revert hanswer
        show Parallel n c _ P D E _ _ (answer invoke' (r.map (fun _ => P.home) _) t') → _
        generalize answer invoke _ t = x
        generalize answer invoke' _ t' = x'
        rintro (⟨hbeside, honward, hnarrows, htells⟩ | e)
        · have hl₁ := hbeside.lodging
          dsimp only
          -- Once the handle has a name, both are told the same, and what is left is one program.
          rw [hl₁.told htells]
          exact (ih _ (hm.2 _) (hbeside.keep (hl₁.hear htells))).later honward hnarrows
        · exact .error e
      · exact ih _ (hm.2 _) h
  | read next ih =>
    show Parallel n c _ P D E _ (((next (t.host _).own).lodged _).run _ t)
      (((next (t'.host _).own).lodged _).run _ t')
    rw [h.lodging.own]
    exact ih _ (hm _) h
  | write own next ih =>
    have hl : Lodging.Stands { t.host n.side.other with own } P t.world
        { t'.host n.side.other with own } := { h.lodging with own := rfl }
    exact ih hm (h.keep hl)

/-! ## The code behind a function -/

/-- A request that runs no script. -/
theorem parallel_plain (hinv : ParallelInvoke n c invoke invoke') (h : Beside n P D E t t')
    (hi : (t.world.instance? 0).isSome) {r : Request} (hown : r.isOwn = true)
    (hscript : r.script? = none) (hcollects : r.collects = false) {f g : Handle → Handle}
    (hg : HandlesMatch P t.world.handles.size r.handles f g) :
    Parallel n c (r.Answered 0 P.home f g) P D E t.world (answer invoke (r.map (fun _ => 0) f) t)
      (answer invoke' (r.map (fun _ => P.home) g) t') :=
  have hbehaves : r.Behaves c := .of_plain hscript hcollects
  parallel_answer hinv h hi hown hbehaves.1 hbehaves.2 hg

/-- An error is given a value. -/
theorem parallel_errorValue (hinv : ParallelInvoke n c invoke invoke') (h : Beside n P D E t t')
    (hi : (t.world.instance? 0).isSome) (e : BoundaryError) :
    Parallel n c Carried.value P D E t.world
      ((Act.request (.errorValue 0 e) : Act (House σ) Value).run (answer invoke) t)
      ((Act.request (.errorValue P.home e) : Act (House σ) Value).run (answer invoke') t') := by
  rw [Act.run_request, Act.run_request]
  refine (parallel_plain hinv h hi (r := .errorValue 0 e) (f := id) (g := id) rfl rfl rfl
    (List.forall_mem_nil _)).imp fun {P _ _ a a'} ha => ?_
  obtain ⟨hknown, -, hsame⟩ := ha
  have hvalue : Value.mapHandle id a' = Value.mapHandle P.handle a :=
    hsame P.handle id fun _ _ => rfl
  exact ⟨hknown, (Value.mapHandle_id a').symm.trans hvalue⟩

/-- What a value has is given back. -/
theorem parallel_releaseValue (hinv : ParallelInvoke n c invoke invoke') (h : Beside n P D E t t')
    (hi : (t.world.instance? 0).isSome) {u u' : Value} (hu : Carried.value P D t.world u u') :
    Parallel n c Carried.same P D E t.world
      ((Act.releaseValue u : Act (House σ) Unit).run (answer invoke) t)
      ((Act.releaseValue u' : Act (House σ) Unit).run (answer invoke') t') := by
  obtain ⟨hknown, rfl⟩ := hu
  cases u with
  | composite kind k =>
    show Parallel n c _ P D E _ ((Act.request (.release k)).run _ t)
      ((Act.request (.release (P.handle k))).run _ t')
    rw [Act.run_request, Act.run_request]
    refine (parallel_plain hinv h hi (r := .release k) (f := id) (g := P.handle) rfl rfl rfl
      fun l hl => ?_).imp fun _ => rfl
    obtain rfl := List.mem_singleton.mp hl
    exact ⟨hknown l rfl, rfl⟩
  | _ => exact .ok h (.refl ..) (.refl ..) rfl

/-- What is carried over stays so when more comes. -/
theorem Carried.value.onward {u u' : Value} {P₁ : Passage} {D₁ : Set Ref} {w₁ : World}
    (hu : Carried.value P D w u u') (ho : Onward P D w P₁ D₁ w₁) : Carried.value P₁ D₁ w₁ u u' := by
  obtain ⟨hknown, rfl⟩ := hu
  exact ⟨hknown.mono ho.handles, Value.mapHandle_congr fun k hk => (ho.handle k (hknown k hk)).symm⟩

/-- All that was handed over is given back. -/
theorem parallel_releaseValues (hinv : ParallelInvoke n c invoke invoke')
    (h : Beside n P D E t t') (hi : (t.world.instance? 0).isSome) {us us' : List Value}
    (hus : List.Forall₂ (Carried.value P D t.world) us us') :
    Parallel n c Carried.same P D E t.world
      ((Act.forEach Act.releaseValue us : Act (House σ) Unit).run (answer invoke) t)
      ((Act.forEach Act.releaseValue us' : Act (House σ) Unit).run (answer invoke') t') := by
  induction us generalizing us' P D E t t' with
  | nil =>
    cases hus
    exact .ok h (.refl ..) (.refl ..) rfl
  | cons u us ih =>
    obtain ⟨u', us', hu, hrest, rfl⟩ := List.forall₂_cons_left_iff.mp hus
    refine (parallel_releaseValue hinv h hi hu).bindAct fun hb ho _ => ?_
    exact ih hb (ho.home hi) (hrest.imp fun _ _ hu => hu.onward ho)

/-- A call that cannot be made. -/
theorem parallel_refuse (hinv : ParallelInvoke n c invoke invoke') (h : Beside n P D E t t')
    (hi : (t.world.instance? 0).isSome) (message : String) {this this' : Value}
    (hthis : Carried.value P D t.world this this') {args args' : List Value}
    (hargs : List.Forall₂ (Carried.value P D t.world) args args') :
    Parallel n c Carried.outcome P D E t.world
      ((Host.refuse 0 message this args : Act (House σ) Outcome).run (answer invoke) t)
      ((Host.refuse P.home message this' args' : Act (House σ) Outcome).run
        (answer invoke') t') := by
  refine (parallel_errorValue hinv h hi _).bindAct fun hb ho he => ?_
  refine (parallel_releaseValues hinv hb (ho.home hi)
    (hargs.imp fun _ _ hu => hu.onward ho)).bindAct fun hb₁ ho₁ _ => ?_
  have hlater := ho.trans ho₁
  refine (parallel_releaseValue hinv hb₁ (hlater.home hi) (hthis.onward hlater)).bindAct
    fun hb₂ ho₂ _ => ?_
  obtain ⟨hknown, rfl⟩ := he.onward (ho₁.trans ho₂)
  exact .ok hb₂ (.refl ..) (.refl ..) ⟨hknown, rfl⟩

/-- **Whose function it is** that a script calls. -/
theorem House.sideAt_eq {house : House σ} {s : Side} {i : InstanceId}
    (hs : (house s).home = some i) (hother : (house s.other).home ≠ some i) :
    house.sideAt i = some s := by
  cases s with
  | left => exact if_pos hs
  | right => exact (if_neg hother).trans (if_pos hs)

theorem Beside.sideAt (h : Beside n P D E t t') (hi : (t.world.instance? 0).isSome) :
    House.sideAt t.host 0 = some n.side.other
      ∧ House.sideAt t'.host P.home = some n.side.other := by
  have hother : n.side.other.other = n.side := by cases n.side <;> rfl
  have hhome := h.lodging.moved hi
  refine ⟨House.sideAt_eq hhome ?_, House.sideAt_eq ?_ ?_⟩
  · rw [hother, h.vacant]
    nofun
  · rw [h.lodging.home, hhome]
    rfl
  · rw [hother, h.sleeper]
    intro hsleeper
    obtain ⟨heq, hthere⟩ := h.asleep _ hsleeper
    exact h.abreast.together.homes hi hthere heq

/-- The handles that are handed over are known, if those of all values are. -/
theorem known_handedOver {this : Value} {args : List Value} {size : Nat}
    (hknown : ∀ u ∈ this :: args, u.Known size) : ∀ k ∈ handedOver this args, k.id < size := by
  intro k hk
  obtain ⟨u, hu, hku⟩ := mem_handedOver.mp hk
  exact hknown u hu k hku

/-- What is handed over is given the same names. -/
theorem Beside.mapHandle_naming (h : Beside n P D E t t') {this : Value} {args : List Value}
    (hknown : ∀ u ∈ this :: args, u.Known t.world.handles.size) :
    ∀ u ∈ this :: args, (u.mapHandle P.handle).mapHandle
        ((t'.host n.side.other).naming ((handedOver this args).map P.handle)) =
      u.mapHandle ((t.host n.side.other).naming (handedOver this args)) := by
  intro u hu
  rw [Value.mapHandle_mapHandle]
  exact Value.mapHandle_congr fun k hk => h.lodging.naming h.abreast.together.left.inj
    (known_handedOver hknown) (mem_handedOver.mpr ⟨u, hu, hk⟩)

theorem Beside.map_mapHandle_naming (h : Beside n P D E t t') {this : Value} {args : List Value}
    (hknown : ∀ u ∈ this :: args, u.Known t.world.handles.size) :
    (args.map (·.mapHandle P.handle)).map (·.mapHandle
        ((t'.host n.side.other).naming ((handedOver this args).map P.handle))) =
      args.map (·.mapHandle ((t.host n.side.other).naming (handedOver this args))) := by
  rw [List.map_map]
  exact List.map_congr_left fun u hu => h.mapHandle_naming hknown u (List.mem_cons_of_mem _ hu)

variable {tenant : Tenant σ}

/-- What a native callback of a tenant does once its arguments have names. -/
theorem Tenant.run_serveNative (tenant : Tenant σ) (s : Side)
    (respond : (r : Request) → Run (House σ) r.Answer) (name : Nat) (this : Value)
    (args : List Value) (t : State (House σ)) :
    (tenant.serveNative s name this args).run respond t =
      let naming := (t.host s).naming (handedOver this args)
      let this' := this.mapHandle naming
      let args' := args.map (·.mapHandle naming)
      (((tenant.native name this' args').lodged s >>= fun o => .read fun house =>
        .done ⟨(house s).meant o.value, o.isException⟩) : Act (House σ) Outcome).run respond
        ⟨t.world, Function.update t.host s
          (((t.host s).receive (handedOver this args)).write (.called name this' args'))⟩ :=
  rfl

/-- **A native callback** of the tenant is told the same, and gives the same back. -/
theorem parallel_serveNative (hinv : ParallelInvoke n c invoke invoke')
    (hp : tenant.Only (Request.Behaves c)) (h : Beside n P D E t t') (name : Nat) {this : Value}
    {args : List Value} (hknown : ∀ u ∈ this :: args, u.Known t.world.handles.size) :
    Parallel n c Carried.outcome P D E t.world
      ((tenant.serveNative n.side.other name this args).run (answer invoke) t)
      ((tenant.serveNative n.side.other name (this.mapHandle P.handle)
        (args.map (·.mapHandle P.handle))).run (answer invoke') t') := by
  have hgiven := known_handedOver hknown
  have hnamed := h.mapHandle_naming hknown
  rw [Tenant.run_serveNative, Tenant.run_serveNative, handedOver_map]
  dsimp only
  rw [hnamed this List.mem_cons_self, h.map_mapHandle_naming hknown]
  refine (parallel_lodged hinv (hp.native name _ _)
    (h.keep (h.lodging.receive hgiven rfl _))).bindAct fun hb _ hr => ?_
  subst hr
  obtain ⟨hmeant, hsame⟩ := hb.lodging.meant (D := D) _
  exact .ok hb (.refl ..) (.refl ..) ⟨hmeant, congrArg (Outcome.mk · _) hsame⟩

/-! ### Raw values -/

namespace Descriptor

theorem ofValue_mapHandle (u : Value) (g : Handle → Handle) :
    ofValue (u.mapHandle g) = (ofValue u).mapHandle g := by
  cases u <;> rfl

theorem handle?_ofValue (u : Value) : (ofValue u).handle? = u.handle? := by
  cases u <;> rfl

theorem toValue?_ofValue (u : Value) : (ofValue u).toValue? = .ok u := by
  have htag : ¬8 < (ofValue u).tag.toNat := by
    cases u with
    | composite kind k => cases kind <;> exact of_decide_eq_true rfl
    | _ => exact of_decide_eq_true rfl
  rw [toValue?_eq, if_neg htag, toValue_ofValue]

end Descriptor

/-- What the wrapper of a tenant does once its arguments have names. -/
theorem Tenant.run_serveWrapper (tenant : Tenant σ) (s : Side)
    (respond : (r : Request) → Run (House σ) r.Answer) (pair : LifecyclePair) (context : UInt64)
    (this : Value) (args : List Value) (t : State (House σ)) :
    (tenant.serveWrapper s pair context (.ofValue this) (args.map .ofValue)).run respond t =
      let naming := (t.host s).naming (handedOver this args)
      let this' := Descriptor.ofValue (this.mapHandle naming)
      let args' := (args.map (·.mapHandle naming)).map Descriptor.ofValue
      (((tenant.wrapper pair context this' args').lodged s >>= fun o => .read fun house =>
        .done ⟨(house s).meantRaw o.value, o.isException⟩) :
          Act (House σ) OutcomeDescriptor).run respond
        ⟨t.world, Function.update t.host s (((t.host s).receive (handedOver this args)).write
          (.wrapped pair context this' args'))⟩ := by
  have hgiven : (Descriptor.ofValue this :: args.map Descriptor.ofValue).flatMap
      (·.handle?.toList) = handedOver this args := by
    simp only [handedOver, List.flatMap_cons, List.flatMap_map, Descriptor.handle?_ofValue]
  have hargs : ∀ g : Handle → Handle, (args.map Descriptor.ofValue).map (·.mapHandle g) =
      (args.map (·.mapHandle g)).map Descriptor.ofValue := fun g => by
    simp only [List.map_map, Function.comp_def, Descriptor.ofValue_mapHandle]
  rw [Tenant.serveWrapper, hgiven]
  simp only [hargs, ← Descriptor.ofValue_mapHandle]
  rfl

/-- Raw values that are those of values, one of which is the other one carried along; or the same
raw value, of which nothing can be made. -/
def Carried.descriptor : Correspondence Descriptor Descriptor := fun P D w d d' =>
  (∃ u u', Carried.value P D w u u' ∧ d = .ofValue u ∧ d' = .ofValue u')
    ∨ d' = d ∧ ∃ e, d.toValue? = .error e

/-- Raw outcomes, carried along. -/
def Carried.rawOutcome : Correspondence OutcomeDescriptor OutcomeDescriptor := fun P D w o o' =>
  Carried.descriptor P D w o.value o'.value ∧ o'.isException = o.isException

/-- The raw values a tenant means. -/
theorem Lodging.Stands.meantRaw {l l' : Lodging σ} (h : l.Stands P w l') (d : Descriptor) :
    Carried.descriptor P D w (l.meantRaw d) (l'.meantRaw d) := by
  rw [Lodging.meantRaw, Lodging.meantRaw]
  cases hd : d.toValue? with
  | ok u => exact .inl ⟨_, _, h.meant u, rfl, rfl⟩
  | error e =>
    refine .inr ⟨rfl, .unknownTag d.tag, ?_⟩
    rw [Descriptor.toValue?_eq] at hd ⊢
    split at hd
    · next htag => exact if_pos htag
    · cases hd

/-- **The wrapper** of the tenant is told the same, and gives the same back. -/
theorem parallel_serveWrapper (hinv : ParallelInvoke n c invoke invoke')
    (hp : tenant.Only (Request.Behaves c)) (h : Beside n P D E t t') (pair : LifecyclePair)
    (context : UInt64) {this : Value} {args : List Value}
    (hknown : ∀ u ∈ this :: args, u.Known t.world.handles.size) :
    Parallel n c Carried.rawOutcome P D E t.world
      ((tenant.serveWrapper n.side.other pair context (.ofValue this)
        (args.map .ofValue)).run (answer invoke) t)
      ((tenant.serveWrapper n.side.other pair context (.ofValue (this.mapHandle P.handle))
        ((args.map (·.mapHandle P.handle)).map .ofValue)).run (answer invoke') t') := by
  have hgiven := known_handedOver hknown
  have hnamed := h.mapHandle_naming hknown
  rw [Tenant.run_serveWrapper, Tenant.run_serveWrapper, handedOver_map]
  dsimp only
  rw [hnamed this List.mem_cons_self, h.map_mapHandle_naming hknown]
  refine (parallel_lodged hinv (hp.wrapper pair context _ _)
    (h.keep (h.lodging.receive hgiven rfl _))).bindAct fun hb _ hr => ?_
  subst hr
  exact .ok hb (.refl ..) (.refl ..) ⟨hb.lodging.meantRaw _, rfl⟩

/-- A raw value is taken over. -/
theorem parallel_consume (hinv : ParallelInvoke n c invoke invoke') (h : Beside n P D E t t')
    (hi : (t.world.instance? 0).isSome) {d d' : Descriptor}
    (hd : Carried.descriptor P D t.world d d') :
    Parallel n c Carried.value P D E t.world
      ((Act.consume d : Act (House σ) Value).run (answer invoke) t)
      ((Act.consume d' : Act (House σ) Value).run (answer invoke') t') := by
  rw [Act.consume, Act.consume]
  obtain ⟨u, u', hu, rfl, rfl⟩ | ⟨rfl, e, he⟩ := hd
  · rw [Descriptor.toValue?_ofValue, Descriptor.toValue?_ofValue]
    exact .ok h (.refl ..) (.refl ..) hu
  · rw [he]
    have hnote := parallel_plain hinv h hi (r := .note (.malformed e)) (f := id) (g := id) rfl rfl
      rfl (List.forall_mem_nil _)
    refine Parallel.bindAct (R := Carried.same) ?_ fun hb _ _ =>
      .ok hb (.refl ..) (.refl ..) ⟨.of_none rfl, rfl⟩
    rw [Act.run_request, Act.run_request]
    exact hnote.imp fun _ => rfl

/-! ### Callbacks -/

/-- What lifecycle functions there are. -/
theorem parallel_lifecycle (hinv : ParallelInvoke n c invoke invoke') (h : Beside n P D E t t')
    (hi : (t.world.instance? 0).isSome) :
    Parallel n c Carried.same P D E t.world
      ((Act.request .lifecycle : Act (House σ) _).run (answer invoke) t)
      ((Act.request .lifecycle : Act (House σ) _).run (answer invoke') t') := by
  rw [Act.run_request, Act.run_request]
  refine (parallel_plain hinv h hi (r := .lifecycle) (f := id) (g := id) rfl rfl rfl
    (List.forall_mem_nil _)).imp fun {P _ _ a a'} ha => ?_
  exact ha.2.2 P.handle id fun _ _ => rfl

/-- What the host of two tenants does when a foreign callback is called, if there is a pair and the
arguments can be told. -/
theorem Host.run_wrapper (tenants : Side → Tenant σ)
    (respond : (r : Request) → Run (House σ) r.Answer) (pair : LifecyclePair) (i : InstanceId)
    (context : UInt64) (this : Descriptor) (args : List Descriptor) {t : State (House σ)} {s : Side}
    (hs : House.sideAt t.host i = some s) :
    ((house tenants).wrapper pair i context this args).run respond t =
      ((tenants s).serveWrapper s pair context this args).run respond t := by
  rw [house, Act.run, hs]

theorem Host.run_native (tenants : Side → Tenant σ)
    (respond : (r : Request) → Run (House σ) r.Answer) (name : Nat) (i : InstanceId)
    (this : Value) (args : List Value) {t : State (House σ)} {s : Side}
    (hs : House.sideAt t.host i = some s) :
    ((house tenants).native name i this args).run respond t =
      ((tenants s).serveNative s name this args).run respond t := by
  rw [house, Act.run, hs]

variable {tenants : Side → Tenant σ}

/-- **The code behind a callback** of the tenant. -/
theorem parallel_hostCall (hinv : ParallelInvoke n c invoke invoke')
    (hp : (tenants n.side.other).Only (Request.Behaves c)) (h : Beside n P D E t t')
    (hi : (t.world.instance? 0).isSome) {callback : Callback} (hown : callback.isOwn = true)
    {this : Value} {args : List Value}
    (hknown : ∀ u ∈ this :: args, u.Known t.world.handles.size) :
    Parallel n c Carried.outcome P D E t.world
      (((house tenants).call 0 callback this args).run (answer invoke) t)
      (((house tenants).call P.home (callback.mapOwner (P.home + ·)) (this.mapHandle P.handle)
        (args.map (·.mapHandle P.handle))).run (answer invoke') t') := by
  obtain ⟨hside, hside'⟩ := h.sideAt hi
  cases callback with
  | native name =>
    show Parallel n c _ P D E _ (((house tenants).native name 0 this args).run _ t)
      (((house tenants).native name P.home _ _).run _ t')
    rw [Host.run_native tenants _ _ _ _ _ hside, Host.run_native tenants _ _ _ _ _ hside']
    exact parallel_serveNative hinv hp h name hknown
  | foreign target context =>
    obtain rfl : target = 0 := beq_iff_eq.mp hown
    refine (parallel_lifecycle hinv h hi).bindAct fun {_ pair u u' P₁ D₁ E₁} hb ho hsame => ?_
    subst hsame
    have hi₁ := ho.home hi
    have hlater : ∀ v ∈ this :: args, Carried.value P₁ D₁ u.world v (v.mapHandle P.handle) :=
      fun v hv => Carried.value.onward ⟨hknown v hv, rfl⟩ ho
    have hthis := hlater this List.mem_cons_self
    have hargs : List.Forall₂ (Carried.value P₁ D₁ u.world) args
        (args.map (·.mapHandle P.handle)) := List.forall₂_map_right_iff.mpr
      (List.forall₂_same.mpr fun v hv => hlater v (List.mem_cons_of_mem _ hv))
    rw [← ho.agrees.home]
    cases pair with
    | none => exact parallel_refuse hinv hb hi₁ _ hthis hargs
    | some pair =>
      dsimp only
      rw [List.length_map]
      split
      · exact parallel_refuse hinv hb hi₁ _ hthis hargs
      · obtain ⟨hside, hside'⟩ := hb.sideAt hi₁
        have hknown₁ : ∀ v ∈ this :: args, v.Known u.world.handles.size := fun v hv =>
          (hlater v hv).1
        have hsame : args.map (·.mapHandle P₁.handle) = args.map (·.mapHandle P.handle) :=
          List.map_congr_left fun v hv => (hlater v (List.mem_cons_of_mem _ hv)).2.symm
        have hwrapper := parallel_serveWrapper hinv hp hb pair context hknown₁
        rw [← Host.run_wrapper tenants _ _ _ _ _ _ hside,
          ← Host.run_wrapper tenants _ _ _ _ _ _ hside', ← hthis.2, hsame] at hwrapper
        refine Parallel.bindAct hwrapper fun {o o' u₂ u₂' P₂ D₂ E₂} hb₂ ho₂ hr => ?_
        obtain ⟨hvalue, hexception⟩ := hr
        rw [Act.consumeOutcome, Act.consumeOutcome, hexception]
        refine (parallel_consume hinv hb₂ (ho₂.home hi₁) hvalue).bindAct fun hb₃ _ hr => ?_
        obtain ⟨hknown₃, rfl⟩ := hr
        exact .ok hb₃ (.refl ..) (.refl ..) ⟨hknown₃, rfl⟩

end Programs

end ScriptBoundary.Boundary
