import ScriptBoundary.Proofs.Context
import ScriptBoundary.Proofs.Enclosure.Ties
import ScriptBoundary.Proofs.Handover

/-!
# What handles hold

A handle is made where a value that cannot be copied is handed to the host, and in a few places
where the host asks for an object of its own. What it holds is then a text or an object, and the
object is no date, as dates are copied. That this goes on to be so is not a matter of handles alone.
A handle to an address at which there is no object yet would look like one to an ordinary object,
until a date is made at that address. So nothing may ever lead to an address where there is no
object, neither a handle nor anything that a script can find.

`World.Orderly` has both, and that no two elements of arguments objects share a variable. It speaks
of the heap, of the cells behind handles and of the realms of instances, so most functions on worlds
keep it because they touch none of these (`Orderly.of_same`). The others make an object, an instance
or a handle.

What a handle holds is described without the codec (`Kind.Describes`), and the codec is shown to
agree with the description.

## Main results

* `Kind.Describes.of_form`, `Kind.Describes.form`: the codec classifies as described
* `Kind.Describes.evolves`: nothing changes its kind
* `Orderly.encode`, `Orderly.decode` and their like: functions on worlds keep them orderly
-/

namespace ScriptBoundary.Script

/-- **What a handle may hold**: a text, or an object that is there and is no date. -/
inductive Value.Holdable (h : Heap) : Value → Prop where
  | text (t : Text) : Holdable h (.text t)
  | object {r : Ref} {o : Object} (ho : h.cells[r]? = some (.object o))
      (hdate : ∀ t, o.nature ≠ .date t) : Holdable h (.object r)

theorem Value.Holdable.within {h : Heap} {v : Value} (hv : v.Holdable h) : v.Within h.IsObject := by
  cases hv with
  | text t => trivial
  | object ho hdate => exact ⟨_, ho⟩

theorem Value.Holdable.isNullish {h : Heap} {v : Value} (hv : v.Holdable h) :
    v.isNullish = false := by
  cases hv <;> rfl

/-- It goes on to be something that a handle may hold. -/
theorem Value.Holdable.evolves {h h' : Heap} {v : Value} (hv : v.Holdable h) (hh : h.Evolves h') :
    v.Holdable h' := by
  cases hv with
  | text t => exact .text t
  | object ho hdate =>
    obtain ⟨c, hc, he⟩ := hh.cell _ _ ho
    cases he with
    | object hn ha =>
      refine .object hc fun t ht => ?_
      obtain ⟨t', ht'⟩ := hn.isDate.mp ⟨t, ht⟩
      exact hdate t' ht'

theorem Value.Within.isIn {h : Heap} {v : Value} (hv : v.Within h.IsObject) : v.IsIn h := by
  rintro r rfl
  exact Heap.IsObject.lt hv

end ScriptBoundary.Script

namespace ScriptBoundary.Boundary

open Script (Heap HostCall Nature Object Ref ValuesWithin)

/-! ## Kinds -/

/-- **What a kind says of a value**, in terms of what the value refers to. -/
inductive Kind.Describes (h : Heap) : Kind → Script.Value → Prop where
  | string (t : Text) : Describes h .string (.text t)
  | array {r : Ref} {o : Object} (ho : h.cells[r]? = some (.object o)) (hn : o.nature = .array) :
    Describes h .array (.object r)
  | function {r : Ref} {o : Object} (ho : h.cells[r]? = some (.object o))
      (hn : o.nature.isCallable = true) : Describes h .function (.object r)
  | object {r : Ref} {o : Object} (ho : h.cells[r]? = some (.object o)) (harray : o.nature ≠ .array)
      (hcallable : o.nature.isCallable = false) (hdate : ∀ t, o.nature ≠ .date t) :
    Describes h .object (.object r)

/-- What is no array is called by whether it can be called. -/
theorem Kind.ofNature_of_ne_array {n : Nature} (hn : n ≠ .array) :
    Kind.ofNature n = if n.isCallable then .function else .object := by
  cases n with
  | array => exact absurd rfl hn
  | _ => rfl

namespace Kind.Describes

variable {h h' : Heap} {v : Script.Value} {kind : Kind}

theorem holdable (hk : kind.Describes h v) : v.Holdable h := by
  cases hk with
  | string t => exact .text t
  | array ho hn => exact .object ho fun t ht => by cases hn.symm.trans ht
  | function ho hn =>
    refine .object ho fun t ht => ?_
    rw [ht] at hn
    cases hn
  | object ho _ _ hdate => exact .object ho hdate

/-- A kind that describes a value is the one that it gets, -/
theorem form (hk : kind.Describes h v) : Form.of h v = .composite kind := by
  have hobject : ∀ {r : Ref} {o : Object}, h.cells[r]? = some (.object o) →
      (∀ t, o.nature ≠ .date t) →
      Form.of h (.object r) = .composite (Kind.ofNature o.nature) := by
    intro r o ho hdate
    have hat : h.object r = o := by rw [Heap.object, ho]
    rw [Form.of_object (not_exists.mpr fun t ht => hdate t (hat ▸ ht)), hat]
  cases hk with
  | string t => rfl
  | @array r o ho hn =>
    rw [hobject ho fun t ht => (by cases hn.symm.trans ht), hn]
    rfl
  | @function r o ho hn =>
    have hdate : ∀ t, o.nature ≠ .date t := fun t ht => by
      rw [ht] at hn
      cases hn
    have harray : o.nature ≠ .array := fun ha => by
      rw [ha] at hn
      cases hn
    rw [hobject ho hdate, Kind.ofNature_of_ne_array harray, if_pos hn]
  | @object r o ho harray hcallable hdate =>
    rw [hobject ho hdate, Kind.ofNature_of_ne_array harray, hcallable, if_neg Bool.false_ne_true]

/-- and the kind that a value gets describes it, if it refers to an object that is there. -/
theorem of_form (hv : v.Within h.IsObject) (hf : Form.of h v = .composite kind) :
    kind.Describes h v := by
  cases v with
  | text t =>
    cases hf
    exact .string t
  | object r =>
    obtain ⟨o, ho⟩ := hv
    have hat : h.object r = o := by rw [Heap.object, ho]
    by_cases hdate : ∃ t, o.nature = .date t
    · obtain ⟨t, ht⟩ := hdate
      rw [Form.of_date (hat ▸ ht)] at hf
      cases hf
    · rw [Form.of_object (hat ▸ hdate), hat] at hf
      by_cases ha : o.nature = .array
      · rw [ha] at hf
        cases hf
        exact .array ho ha
      · rw [Kind.ofNature_of_ne_array ha] at hf
        split at hf
        · next hc =>
          cases hf
          exact .function ho hc
        · next hc =>
          cases hf
          exact .object ho ha (Bool.eq_false_iff.mpr hc) fun t ht => hdate ⟨t, ht⟩
  | _ => cases hf

/-- **What has a kind keeps it**, whatever scripts do. -/
theorem evolves (hk : kind.Describes h v) (hh : h.Evolves h') : kind.Describes h' v := by
  have hv := hk.holdable.within
  exact .of_form (hv.mono hh.isObject) (Form.of_evolves hv.isIn hh hk.form)

/-- A value has one kind. -/
theorem unique {kind' : Kind} (hk : kind.Describes h v) (hk' : kind'.Describes h v) :
    kind = kind' :=
  Form.composite.inj (hk.form.symm.trans hk'.form)

end Kind.Describes

/-- What a handle may hold has a kind. -/
theorem exists_describes {h : Heap} {v : Script.Value} (hv : v.Holdable h) :
    ∃ kind : Kind, kind.Describes h v := by
  have hform : ∃ kind, Form.of h v = .composite kind := by
    cases hv with
    | text t => exact ⟨.string, rfl⟩
    | @object r o ho hdate =>
      have hat : h.object r = o := by rw [Heap.object, ho]
      exact ⟨_, Form.of_object (not_exists.mpr fun t ht => hdate t (hat ▸ ht))⟩
  obtain ⟨kind, hkind⟩ := hform
  exact ⟨kind, .of_form hv.within hkind⟩

/-! ## Handles -/

/-- Whether every handle holds a value with a property. -/
def Purse.Holds (p : Purse) (P : Script.Value → Prop) : Prop :=
  ∀ (h : Handle) (c : HandleCell), p.cell? h = some c → P c.value

namespace Purse.Holds

variable {p : Purse} {P : Script.Value → Prop}

theorem make (hp : p.Holds P) (i : InstanceId) {v : Script.Value} (hv : P v) :
    (p.make i v).Holds P := by
  intro h c hc
  by_cases hh : h = ⟨p.cells.size⟩
  · rw [hh, Purse.cell?_make] at hc
    exact Option.some.inj hc ▸ hv
  · rw [Purse.cell?_make_of_ne i v hh] at hc
    exact hp h c hc

theorem copy (hp : p.Holds P) (h : Handle) : (p.copy h).Holds P := by
  rw [Purse.copy]
  split
  · exact hp
  · next c hc => exact make hp c.owner (hp h c hc)

theorem take (hp : p.Holds P) (h : Handle) : (p.take h).Holds P := by
  intro x c hc
  by_cases hx : x = h
  · rw [hx, Purse.cell?_take] at hc
    cases hc
  · rw [Purse.cell?_take_of_ne hx] at hc
    exact hp x c hc

end Purse.Holds

/-! ## Worlds -/

/-- **Whether nothing in a world leads to where there is no object**, and every handle holds what a
handle may hold. -/
structure World.Orderly (w : World) : Prop where
  /-- From the first realm on, whatever is found in the heap is an object that is there. -/
  closed : 0 < w.heap.cells.size → w.heap.Closed
  holds : w.purse.Holds (Script.Value.Holdable w.heap)
  /-- No two elements of arguments objects share a variable. -/
  apart : w.heap.Apart
  /-- The realm of an instance is complete, with its global object. -/
  houses : ∀ i x, w.instance? i = some x → w.heap.HasGlobal x.realm

namespace World

variable {w w' : World} {i : InstanceId} {v : Script.Value}

theorem orderly_start (p : Platform) : (Scene.start p).world.Orderly where
  closed h := absurd h (Nat.lt_irrefl 0)
  holds h c hc := by simp [World.purse, Purse.cell?, Scene.start, World.blank] at hc
  apart := Heap.apart_empty
  houses i x hx := by simp [Scene.start, World.blank, World.instance?] at hx

namespace Orderly

variable (h : w.Orderly)

include h

/-- Where there is an instance, the heap is closed. -/
theorem closed_of_instance (hi : (w.instance? i).isSome) : w.heap.Closed := by
  obtain ⟨x, hx⟩ := Option.isSome_iff_exists.mp hi
  exact h.closed (Nat.zero_lt_of_lt (h.houses i x hx).globalAt_lt)

theorem referent_within (hd : Handle) : (w.referent hd).Within w.heap.IsObject := by
  rw [referent]
  cases hc : w.cell? hd with
  | none => trivial
  | some c => exact (h.holds hd c hc).within

/-! What touches neither the heap nor realms -/

theorem of_setting (hs : w'.setting = w.setting)
    (hp : w'.purse.Holds (Script.Value.Holdable w.heap)) : w'.Orderly := by
  have hheap := heap_congr hs
  refine ⟨hheap ▸ h.closed, hheap ▸ hp, hheap ▸ h.apart, fun i x hx => ?_⟩
  obtain ⟨y, hy, hrealm⟩ := exists_realm (realm_congr hs i) hx
  rw [hheap, ← hrealm]
  exact h.houses i y hy

/-- nor handles, -/
theorem of_same (hs : w'.setting = w.setting) (hp : w'.purse = w.purse) : w'.Orderly :=
  h.of_setting hs (hp ▸ h.holds)

theorem of_sameStore (hs : w.SameStore w') : w'.Orderly := h.of_same hs.setting hs.purse

theorem note (e : Event) : (w.note e).Orderly := h.of_same rfl rfl

theorem enter (v : Invocation) : (w.enter v).Orderly :=
  h.of_same (setting_enter w v) (purse_enter w v)

theorem leave (a : Script.Anchor) (before : Option Script.Activation) :
    (w.leave a before).Orderly :=
  h.of_same (setting_leave w a before) (purse_leave w a before)

theorem setSlot (i : InstanceId) (slot : UInt32) (data : UInt64) :
    (w.setSlot i slot data).Orderly :=
  h.of_same (setting_setSlot w i slot data) (purse_setSlot w i slot data)

theorem shut (i : InstanceId) : (w.shut i).Orderly :=
  h.of_same (setting_shut w i) (purse_shut w i)

theorem collect : w.collect.Orderly :=
  List.foldlRecOn _ _ h fun w hw a _ => hw.of_same (setting_finalize w a) (purse_finalize w a)

theorem collectFor (i : InstanceId) : (w.collectFor i).Orderly := by
  rw [World.collectFor]
  split
  · exact h
  · exact h.collect.note _

theorem destroy (i : InstanceId) : (w.destroy i).Orderly := by
  rw [World.destroy]
  split
  · exact h
  · dsimp only
    split
    · exact ((h.shut i).collect).note _
    · exact (((h.shut i).note _).collect).note _

/-! or only handles -/

theorem newHandle (i : InstanceId) (hv : v.Holdable w.heap) : (w.newHandle i v).2.Orderly := by
  refine h.of_setting (setting_newHandle w i v) ?_
  rw [purse_newHandle]
  exact Purse.Holds.make h.holds i hv

theorem cloneHandle (hd : Handle) : (w.cloneHandle hd).2.Orderly := by
  refine h.of_setting (setting_cloneHandle w hd) ?_
  rw [purse_cloneHandle]
  exact Purse.Holds.copy h.holds hd

theorem releaseHandle (hd : Handle) : (w.releaseHandle hd).Orderly := by
  refine h.of_setting (setting_releaseHandle w hd) ?_
  rw [purse_releaseHandle]
  exact Purse.Holds.take h.holds hd

theorem encode (i : InstanceId) (hv : v.Within w.heap.IsObject) : (w.encode i v).2.Orderly := by
  cases hf : Form.of w.heap v with
  | inline u =>
    rw [encode_inline hf]
    exact h
  | composite kind =>
    rw [encode_composite hf]
    exact h.newHandle i (Kind.Describes.of_form hv hf).holdable

omit h in
theorem encodeAll (h : w.Orderly) (i : InstanceId) {vs : List Script.Value}
    (hvs : ValuesWithin w.heap.IsObject vs) : (w.encodeAll i vs).2.Orderly := by
  induction vs generalizing w with
  | nil => exact h
  | cons v vs ih =>
    have hrest : ValuesWithin (w.encode i v).2.heap.IsObject vs := by
      rw [heap_congr (setting_encode w i v)]
      exact hvs.rest
    exact ih (h.encode i hvs.head) hrest

/-- The arguments of a call are handed over, and a callback is entered. -/
theorem atEntry {k : HostCall} (hk : k.Within w.heap.IsObject) : (w.atEntry k).Orderly := by
  have hpassed : ValuesWithin w.heap.IsObject (k.this :: k.args) := .cons hk.this hk.args
  exact (h.encodeAll k.anchor.owner hpassed).enter _

/-! ## What makes objects and instances -/

/-- A larger heap. -/
theorem withHeap {heap : Heap} (hc : heap.Closed) (ha : heap.Apart) (he : w.heap.Evolves heap)
    (hk : w.heap.KeepsRealms heap) : ({ w with heap } : World).Orderly where
  closed _ := hc
  holds hd c hcell := (h.holds hd c hcell).evolves he
  apart := ha
  houses i x hx := (hk x.realm (h.houses i x hx)).1

/-- A script changes the heap. -/
theorem edit (hc : w.heap.Closed) {e : Script.Edit} (he : e.Within w.heap.IsObject)
    (ha : (w.heap.apply e).1.Apart) : ({ w with heap := (w.heap.apply e).1 } : World).Orderly :=
  h.withHeap (hc.apply he) ha (w.heap.evolves_apply e) (w.heap.keepsRealms_apply e)

/-- A date is made of a boundary value, or a handle is given back. -/
theorem decode (hc : w.heap.Closed) (realm : Ref) (u : Value) : (w.decode realm u).2.Orderly
    ∧ (w.decode realm u).1.Within (w.decode realm u).2.heap.IsObject := by
  cases u with
  | date ms =>
    have he : (Script.Edit.newObject (.date (.clip ms)) (some ((w.heap.realm realm).base
        + Script.Intrinsic.datePrototype.ctorIdx)) ∅).Within w.heap.IsObject :=
      ⟨trivial, fun _ hp => Option.some.inj hp ▸ hc.realm realm .datePrototype, .empty⟩
    exact ⟨h.edit hc he (h.apart.apply rfl), Heap.isObject_add _ _⟩
  | composite kind hd =>
    refine ⟨h.releaseHandle hd, ?_⟩
    show (w.referent hd).Within (w.releaseHandle hd).heap.IsObject
    rw [heap_congr (setting_releaseHandle w hd)]
    exact h.referent_within hd
  | _ => exact ⟨h, trivial⟩

omit h in
theorem decodeAll (h : w.Orderly) (hc : w.heap.Closed) (realm : Ref) (us : List Value) :
    (w.decodeAll realm us).2.Orderly
      ∧ ValuesWithin (w.decodeAll realm us).2.heap.IsObject (w.decodeAll realm us).1 := by
  induction us generalizing w with
  | nil => exact ⟨h, .nil⟩
  | cons u us ih =>
    obtain ⟨hu, hv⟩ := h.decode hc realm u
    have hgrown := evolvesHeap_decode w realm u
    obtain ⟨hus, hvs⟩ := ih hu (hu.closed (Nat.lt_of_lt_of_le hc.size_pos hgrown.size))
    exact ⟨hus, .cons (hv.mono (evolvesHeap_decodeAll _ realm us).isObject) hvs⟩

/-- The host asks for a new object that is no date. -/
theorem newHandle_newObject (hc : w.heap.Closed) (i : InstanceId) {nature : Nature}
    {proto : Option Ref} {props : Script.Props}
    (he : (Script.Edit.newObject nature proto props).Within w.heap.IsObject)
    (ht : nature.tied = []) (hdate : ∀ t, nature ≠ .date t) :
    (({ w with heap := (w.heap.apply (.newObject nature proto props)).1 } : World).newHandle i
      (.object w.heap.cells.size)).2.Orderly :=
  (h.edit hc he (h.apart.apply ht)).newHandle i (.object Array.getElem?_push_size hdate)

theorem newObject (hc : w.heap.Closed) (i : InstanceId) (realm : Ref) :
    (w.newObject i realm).2.Orderly :=
  h.newHandle_newObject hc i
    ⟨trivial, fun _ hp => Option.some.inj hp ▸ hc.realm realm .objectPrototype, .empty⟩ rfl nofun

theorem newArray (hc : w.heap.Closed) (i : InstanceId) (realm : Ref) :
    (w.newArray i realm).2.Orderly := by
  have hnone : ValuesWithin w.heap.IsObject [] := .nil
  refine h.newHandle_newObject hc i
    ⟨trivial, fun _ hp => Option.some.inj hp ▸ hc.realm realm .arrayPrototype,
      .listing ?_ hnone⟩ rfl nofun
  trivial

/-- The host registers a callback, and gets its function object. -/
theorem register (hc : w.heap.Closed) (i : InstanceId) (realm : Ref) (cb : Callback) :
    (w.register i realm cb).2.Orderly := by
  cases hx : w.instance? i with
  | none =>
    rw [World.register, hx]
    exact h
  | some x =>
    let o : Object := ⟨.hostFunction realm,
      some ((w.heap.realm realm).base + Script.Intrinsic.functionPrototype.ctorIdx), true,
      hostFunctionProps, some ⟨i, x.table.nextId⟩⟩
    have ho : o.Within w.heap.IsObject := by
      refine ⟨trivial, fun _ hp => Option.some.inj hp ▸ hc.realm realm .functionPrototype,
        .ofList fun p hp => ?_⟩
      simp only [List.mem_cons, List.not_mem_nil, or_false] at hp
      rcases hp with rfl | rfl <;> trivial
    have hgrown : ({ w with heap := (w.heap.add (.object o)).1 } : World).Orderly :=
      h.withHeap (hc.add ho) (h.apart.add fun _ h => Script.Cell.object.inj h ▸ rfl)
        (w.heap.evolves_add _) (w.heap.extends_add _).keepsRealms
    have hentered : ∀ f, (({ w with heap := (w.heap.add (.object o)).1 } : World).updateTable i
        f).Orderly := fun f =>
      hgrown.of_same (setting_updateTable _ i f)
        (purse_updateInstance_of_eq (f := fun x => { x with table := f x.table }) fun _ => rfl)
    rw [World.register, hx]
    refine Orderly.newHandle ((hentered _).note _) i (.object (o := o) ?_ fun t ht => ?_)
    · exact Array.getElem?_push_size
    · cases ht

/-- A new instance has a realm of its own. -/
theorem newInstance (limits : Script.Limits) : (w.newInstance limits).2.Orderly := by
  have hheap := heap_newInstance w limits
  have hgrown := evolves_addRealm w.heap
  refine ⟨fun _ => ?_, fun hd c hc => ?_, ?_, fun j x hx => ?_⟩
  · rw [hheap]
    exact Heap.closed_addRealm h.closed
  · rw [hheap]
    rw [purse_newInstance] at hc
    exact (h.holds hd c hc).evolves hgrown
  · rw [hheap]
    exact h.apart.addRealm
  · have hset : ((w.newInstance limits).2.instance? j).map (·.realm) = if j = w.instances.size
        then some w.heap.addRealm.2 else (w.instance? j).map (·.realm) :=
      congrFun (congrArg Setting.realm (setting_newInstance w limits)) j
    rw [hx] at hset
    rw [hheap]
    split at hset
    · obtain ⟨s, o, ho, -⟩ := w.heap.houses_addRealm
      rw [show x.realm = w.heap.addRealm.2 from Option.some.inj hset]
      exact ⟨s, o, ho⟩
    · obtain ⟨y, hy, hrealm⟩ := Option.map_eq_some_iff.mp hset.symm
      rw [← show y.realm = x.realm from hrealm]
      exact (w.heap.extends_addRealm.keepsRealms _ (h.houses j y hy)).1

/-- The global object of an instance can be handed out. -/
theorem globalObject_holdable {x : Instance} (hx : w.instance? i = some x) :
    Kind.object.Describes w.heap (.object (w.heap.globalAt x.realm)) := by
  obtain ⟨s, o, ho⟩ := h.houses i x hx
  have hplain := ho.plain
  exact .object ho.global (by rw [hplain]; nofun) (by rw [hplain]; rfl) (by rw [hplain]; nofun)

end Orderly

end World

end ScriptBoundary.Boundary
