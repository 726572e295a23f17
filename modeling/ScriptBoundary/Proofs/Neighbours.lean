import ScriptBoundary.Proofs.AsNative
import ScriptBoundary.Proofs.Sharing

/-!
# What one tenant does, with another next door

Each of the things that a request does to the world is done in two worlds at once: in one where the
tenant is alone, and in one that it shares. The shared world gets the same values, carried along,
and afterwards the part of the tenant stands in it as before (`Abreast`). What the tenant has may
have grown (`Onward`). What the other tenant has stands there too; only when the collector runs, the
part of it that is looked at becomes smaller (`Narrows`).

## Main results

* `Abreast.edit`, `Abreast.encode`, `Abreast.decode`, `Abreast.register` and so on
-/

namespace ScriptBoundary.Boundary

open Script (Activation Anchor Embedding Grows Heap Ref Zone)

/-- A shared world, and the world of one tenant alone in the middle of what it does. -/
structure Abreast (Q : Passage) (v : World) (P : Passage) (D E : Set Ref) (w w' : World) :
    Prop where
  together : Together P D w Q E v w'
  sane : w.Sane
  sane' : w'.Sane

/-- How what a tenant has can change: it grows, and all that was there stays where it is. -/
structure Onward (P : Passage) (D : Set Ref) (w : World) (P₁ : Passage) (D₁ : Set Ref)
    (w₁ : World) : Prop where
  grows : Grows w.heap P.toEmbedding D w₁.heap P₁.toEmbedding D₁
  handles : w.handles.size ≤ w₁.handles.size
  handle : ∀ h, h.id < w.handles.size → P₁.handle h = P.handle h
  home : (w.instance? 0).isSome → (w₁.instance? 0).isSome
  /-- What was all there is is so still. -/
  whole : D = w.heap.range → D₁ = w₁.heap.range

/-- How the part that is looked at can change while the other tenant acts: it becomes smaller, if
the other one may have the collector run. -/
structure Narrows (collects : Prop) (E E₁ : Set Ref) : Prop where
  subset : E₁ ⊆ E
  same : collects ∨ E₁ = E

namespace Onward

variable {P P₁ P₂ : Passage} {D D₁ D₂ : Set Ref} {w w₁ w₂ : World}

theorem refl (P : Passage) (D : Set Ref) (w : World) : Onward P D w P D w :=
  ⟨.refl _ _ _, Nat.le_refl _, fun _ _ => rfl, id, id⟩

theorem trans (h : Onward P D w P₁ D₁ w₁) (h' : Onward P₁ D₁ w₁ P₂ D₂ w₂) :
    Onward P D w P₂ D₂ w₂ where
  grows := h.grows.trans h'.grows
  handles := Nat.le_trans h.handles h'.handles
  handle k hk := (h'.handle k (Nat.lt_of_lt_of_le hk h.handles)).trans (h.handle k hk)
  home hw := h'.home (h.home hw)
  whole hD := h'.whole (h.whole hD)

theorem zone_le (h : Onward P D w P₁ D₁ w₁) : (w.heap.zone D).Le (w₁.heap.zone D₁) :=
  h.grows.zone_le

theorem agrees (h : Onward P D w P₁ D₁ w₁) :
    P.toEmbedding.AgreesOn P₁.toEmbedding (w.heap.zone D) :=
  h.grows.agrees

/-- What is not about the heap or the handles. -/
theorem of_same (hheap : w₁.heap = w.heap) (hhandles : w₁.handles.size = w.handles.size)
    (hhome : (w.instance? 0).isSome → (w₁.instance? 0).isSome) : Onward P D w P D w₁ :=
  ⟨hheap ▸ .refl _ _ _, hhandles.ge, fun _ _ => rfl, hhome, hheap ▸ id⟩

end Onward

namespace Narrows

variable {c : Prop} {E E₁ E₂ : Set Ref}

theorem refl (c : Prop) (E : Set Ref) : Narrows c E E := ⟨subset_rfl, .inr rfl⟩

theorem trans (h : Narrows c E E₁) (h' : Narrows c E₁ E₂) : Narrows c E E₂ := by
  refine ⟨h'.subset.trans h.subset, ?_⟩
  rcases h.same with hc | h
  · exact .inl hc
  · exact h'.same.imp_right fun h' => h'.trans h

end Narrows

/-! ## Values -/

namespace Value

/-- Whether the handle of a value was made in a world. -/
def Known (n : Nat) (u : Value) : Prop := ∀ h ∈ u.handle?, h.id < n

theorem Known.of_none {n : Nat} {u : Value} (h : u.handle? = none) : u.Known n := by
  intro k hk
  rw [h] at hk
  cases hk

theorem Known.mono {n m : Nat} {u : Value} (h : u.Known n) (hle : n ≤ m) : u.Known m :=
  fun k hk => Nat.lt_of_lt_of_le (h k hk) hle

theorem mapHandle_congr {u : Value} {g g' : Handle → Handle} (h : ∀ k ∈ u.handle?, g' k = g k) :
    u.mapHandle g' = u.mapHandle g := by
  cases u with
  | composite kind k => exact congrArg (Value.composite kind) (h k rfl)
  | _ => rfl

end Value

/-! ## New handles -/

theorem World.lt_newHandle (w : World) (i : InstanceId) (x : Script.Value) :
    (w.newHandle i x).1.id < (w.newHandle i x).2.handles.size :=
  (Nat.lt_succ_self _).trans_eq (Array.size_push (some (⟨x, i⟩ : HandleCell))).symm

/-- Where the new handle is. -/
theorem Passage.handle_push (P : Passage) (w w' : World) (i j : InstanceId) (x y : Script.Value) :
    (w'.newHandle j y).1 = (P.push w w').handle (w.newHandle i x).1 :=
  (Function.update_self (⟨w.handles.size⟩ : Handle) ⟨w'.handles.size⟩ P.handle).symm

theorem Onward.push (P : Passage) (D : Set Ref) {w w₁ : World} (w' : World)
    (hheap : w₁.heap = w.heap) (hsize : w₁.handles.size = w.handles.size + 1)
    (hhome : (w.instance? 0).isSome → (w₁.instance? 0).isSome) :
    Onward P D w (P.push w w') D w₁ :=
  ⟨hheap ▸ .refl _ _ _, hsize ▸ Nat.le_succ _, fun _ hk =>
    Function.update_of_ne (fun heq => Nat.ne_of_lt hk (congrArg Handle.id heq)) _ _, hhome,
    hheap ▸ id⟩

section Operations

variable {P Q : Passage} {D E : Set Ref} {w v w' : World}

namespace Together

/-- A line is written in the log. -/
theorem note (h : Together P D w Q E v w') (e e' : Event) :
    Together P D (w.note e) Q E v (w'.note e') :=
  h.congr rfl rfl rfl rfl rfl rfl rfl rfl rfl rfl

/-- An edit is made. -/
theorem edit (h : Together P D w Q E v w') (hw : w.Placed) {e : Script.Edit}
    (he : e.Fits (w.heap.zone D)) :
    Together ⟨P.after e w.heap w'.heap, P.handle⟩ (e.region w.heap D)
      { w with heap := (w.heap.apply e).1 } Q E v
      { w' with heap := (w'.heap.apply (P.edit e)).1 } := by
  refine h.grow hw (h.left.heap.apply he) (.apply h.left.heap e) (fun r hr => ?_)
    (fun r hr a ha => ?_) (fun q hq hne => Heap.getElem?_apply_of_ne he hq hne)
    (Heap.nextSymbol_apply _ _)
  · exact Heap.mem_region P.toEmbedding w'.heap hr
  · rw [Heap.anchor_apply] at ha
    rcases Heap.mem_region P.toEmbedding w'.heap hr with hr | ⟨rfl, -⟩
    · exact h.left.anchored r hr a ha
    · rw [Heap.object_of_le (Nat.le_refl _)] at ha
      cases ha

/-- A handle is made, at the expense of the instance. -/
theorem newHandle (h : Together P D w Q E v w') (hi : (w.instance? 0).isSome) {x : Script.Value}
    (hx : x.Fits (w.heap.zone D)) :
    Together (P.push w w') D (w.newHandle 0 x).2 Q E v (w'.newHandle P.home (P.value x)).2 :=
  (h.push hi hx).update hi fun _ _ _ hmatch =>
    { hmatch with ledger := congrArg Ledger.create hmatch.ledger }

/-- What a handle refers to. -/
theorem referent (h : Together P D w Q E v w') {k : Handle} (hk : k.id < w.handles.size) :
    w'.referent (P.handle k) = P.value (w.referent k) := by
  rw [World.referent, World.referent, (h.left.handle k hk).2]
  cases w.cell? k <;> rfl

theorem fits_referent (h : Together P D w Q E v w') (k : Handle) :
    (w.referent k).Fits (w.heap.zone D) := by
  rw [World.referent]
  cases hc : w.cell? k with
  | none => trivial
  | some c => exact (h.left.held k c hc).1

/-- The function object of a new callback is made. -/
theorem addHostFunction (h : Together P D w Q E v w') (hw : w.Placed) {realm proto proto' : Ref}
    (hrealm : (w.heap.zone D).HasRealm realm) (hproto : proto ∈ D) (hproto' : proto' = P.ref proto)
    (id : Nat) :
    Together ⟨P.grow w.heap w'.heap, P.handle⟩ (insert w.heap.cells.size D)
        { w with heap := (w.heap.addHostFunction realm proto hostFunctionProps ⟨0, id⟩).1 } Q E v
        { w' with
          heap := (w'.heap.addHostFunction (P.ref realm) proto' hostFunctionProps
            ⟨P.home, id⟩).1 }
      ∧ Grows w.heap P.toEmbedding D
        (w.heap.addHostFunction realm proto hostFunctionProps ⟨0, id⟩).1
        (P.grow w.heap w'.heap) (insert w.heap.cells.size D) := by
  let o : Script.Object := ⟨.hostFunction realm, some proto, true, hostFunctionProps, some ⟨0, id⟩⟩
  have hprops : hostFunctionProps.Fits (w.heap.zone D) := .ofList fun p hp => by
    simp only [List.mem_cons, List.not_mem_nil, or_false] at hp
    obtain rfl | rfl := hp
    · exact ⟨Script.Key.fits_ofString "length", trivial⟩
    · exact ⟨Script.Key.fits_ofString "name", trivial⟩
  have ho : o.Fits (w.heap.zone D) := ⟨hrealm, fun r hr => Option.some.inj hr ▸ hproto, hprops⟩
  have hsame : P.object o = ⟨.hostFunction (P.ref realm), some proto', true, hostFunctionProps,
      some ⟨P.home, id⟩⟩ := by
    simp [o, Embedding.object, Embedding.nature, Script.Props.ofList_embed, hostFunctionProps,
      Embedding.key_ofString, Embedding.key_length, Embedding.slot, Script.Slot.readOnly,
      Embedding.value,
      Script.Value.ofNat, Script.Value.ofString, hproto', Embedding.anchor]
  have hE := h.left.heap.add (c := .object o) ho fun _ hm => by cases hm
  have hagree := Embedding.agreesOn_grow h.left.heap
  have hgrows : Grows w.heap P.toEmbedding D (w.heap.add (.object o)).1 (P.grow w.heap w'.heap)
      (insert w.heap.cells.size D) :=
    ⟨Heap.evolves_add _ _, Nat.le_refl _, Set.subset_insert _ _, hagree⟩
  have hgrow := h.grow hw hE hgrows ?_ (fun r hr a ha => ?_) (fun q hq _ => ?_) (Nat.le_refl _)
  · rw [Embedding.cell, hsame] at hgrow
    exact ⟨hgrow, hgrows⟩
  · rintro r (rfl | hr)
    · exact .inr ⟨rfl, Function.update_self ..⟩
    · exact .inl hr
  · rw [Heap.object_add] at ha
    split at ha
    · exact Option.some.inj ha ▸ rfl
    · next hne => exact h.left.anchored r (hr.resolve_left hne) a ha
  · exact (Array.getElem?_push_lt hq).trans (Array.getElem?_eq_getElem hq).symm

/-- A callback is entered, under the same number in both worlds. -/
theorem entering (h : Together P D w Q E v w') (hw : w.Placed) {x : Instance}
    (hi : (w.instance? 0).isSome) {realm : Ref} (hrealm : (w.heap.zone D).HasRealm realm)
    {c : Callback} (hc : c.isOwn = true) :
    Together ⟨P.grow w.heap w'.heap, P.handle⟩ (insert w.heap.cells.size D)
        (w.entering 0 x realm c) Q E v
        (w'.entering P.home x (P.ref realm) (c.mapOwner (P.home + ·)))
      ∧ Onward P D w ⟨P.grow w.heap w'.heap, P.handle⟩ (insert w.heap.cells.size D)
        (w.entering 0 x realm c) := by
  obtain ⟨hproto, hproto'⟩ := h.left.heap.intrinsic hrealm .functionPrototype
  obtain ⟨hgrown, hgrows⟩ := h.addHostFunction hw hrealm hproto hproto' x.table.nextId
  have hnew : (P.grow w.heap w'.heap).ref w.heap.cells.size = w'.heap.cells.size :=
    Function.update_self ..
  have hentered := hgrown.update hi fun _ _ _ hmatch =>
    hmatch.register hc (Set.mem_insert _ _) hnew
  refine ⟨hentered.note _ _, hgrows, Nat.le_refl _, fun _ _ => rfl,
    fun hi => (World.isSome_updateInstance ..).trans hi, ?_⟩
  rintro rfl
  exact Heap.insert_range w.heap _

/-- A handle is given back, to the instance that made it. -/
theorem releaseHandle (h : Together P D w Q E v w') {k : Handle} (hk : k.id < w.handles.size) :
    Together P D (w.releaseHandle k) Q E v (w'.releaseHandle (P.handle k)) := by
  rw [World.releaseHandle, World.releaseHandle, (h.left.handle k hk).2]
  cases hc : w.cell? k with
  | none => exact h
  | some c =>
    obtain ⟨x, owner⟩ := c
    have hi := (h.left.held k _ hc).2
    obtain rfl := h.left.single owner hi
    exact (h.clear hk).update hi fun _ _ _ hmatch =>
      { hmatch with ledger := congrArg Ledger.release hmatch.ledger }

/-- The instance in the shared world. -/
theorem isSome_home (h : Together P D w Q E v w') (hi : (w.instance? 0).isSome) :
    (w'.instance? P.home).isSome := by
  obtain ⟨x, hx⟩ := Option.isSome_iff_exists.mp hi
  obtain ⟨x', hx', -⟩ := h.left.home x hx
  rw [hx']
  rfl

/-- What a script value becomes depends on the cell it refers to, which is there. -/
theorem form (h : Together P D w Q E v w') {x : Script.Value} (hx : x.Fits (w.heap.zone D)) :
    Form.of w'.heap (P.value x) = Form.of w.heap x := by
  cases x with
  | object r =>
    have hobject := h.left.heap.object hx
    simp only [Embedding.value, Form.of, hobject, Embedding.object]
    cases (w.heap.object r).nature <;> rfl
  | _ => rfl

end Together

namespace Abreast

/-- A line is written in the log. -/
theorem note (h : Abreast Q v P D E w w') (e e' : Event) :
    Abreast Q v P D E (w.note e) (w'.note e') :=
  ⟨h.together.note e e',
    h.sane.path fun _ => Path.note e,
    h.sane'.path fun _ => Path.note e'⟩

/-- **An edit.** -/
theorem edit (h : Abreast Q v P D E w w') {e : Script.Edit} (he : e.Fits (w.heap.zone D)) :
    Abreast Q v ⟨P.after e w.heap w'.heap, P.handle⟩ (e.region w.heap D) E
        { w with heap := (w.heap.apply e).1 } { w' with heap := (w'.heap.apply (P.edit e)).1 }
      ∧ Onward P D w ⟨P.after e w.heap w'.heap, P.handle⟩ (e.region w.heap D)
        { w with heap := (w.heap.apply e).1 } := by
  refine ⟨⟨h.together.edit h.sane.placed he, h.sane.change (x := .edit e) rfl,
    h.sane'.change (x := .edit (P.edit e)) rfl⟩, .apply h.together.left.heap e, Nat.le_refl _,
    fun _ _ => rfl, id, ?_⟩
  rintro rfl
  exact Heap.region_range _ _

/-- **A new object.** -/
theorem newObject (h : Abreast Q v P D E w w') (nature : Script.Nature) {nature' : Script.Nature}
    {proto proto' : Ref} {props props' : Script.Props} (hnature : nature.Fits (w.heap.zone D))
    (hnature' : nature' = P.nature nature) (hproto : proto ∈ D) (hproto' : proto' = P.ref proto)
    (hprops : props.Fits (w.heap.zone D)) (hprops' : props' = P.props props) :
    ∃ P₁ D₁, Abreast Q v P₁ D₁ E
        { w with heap := (w.heap.apply (.newObject nature (some proto) props)).1 }
        { w' with heap := (w'.heap.apply (.newObject nature' (some proto') props')).1 }
      ∧ Onward P D w P₁ D₁
        { w with heap := (w.heap.apply (.newObject nature (some proto) props)).1 }
      ∧ w.heap.cells.size ∈ D₁ ∧ P₁.ref w.heap.cells.size = w'.heap.cells.size := by
  subst hnature' hproto' hprops'
  have he : (Script.Edit.newObject nature (some proto) props).Fits (w.heap.zone D) :=
    ⟨hnature, fun r hr => Option.some.inj hr ▸ hproto, hprops⟩
  obtain ⟨habreast, honward⟩ := h.edit he
  exact ⟨_, _, habreast, honward, Set.mem_insert _ _, Function.update_self ..⟩

/-- **A new handle.** -/
theorem newHandle (h : Abreast Q v P D E w w') (hi : (w.instance? 0).isSome) {x : Script.Value}
    (hx : x.Fits (w.heap.zone D)) :
    Abreast Q v (P.push w w') D E (w.newHandle 0 x).2 (w'.newHandle P.home (P.value x)).2
      ∧ Onward P D w (P.push w w') D (w.newHandle 0 x).2
      ∧ (w'.newHandle P.home (P.value x)).1 = (P.push w w').handle (w.newHandle 0 x).1
      ∧ (w.newHandle 0 x).1.id < (w.newHandle 0 x).2.handles.size := by
  have hpath : ∀ st, Path True ⟨w, st⟩ ⟨(w.newHandle 0 x).2, st⟩ := fun _ => .newHandle hi x
  exact ⟨⟨h.together.newHandle hi hx, h.sane.path hpath,
    h.sane'.path fun _ => Path.newHandle (h.together.isSome_home hi) _⟩,
    .push P D w' rfl (Array.size_push _) (hpath []).hasInstance, P.handle_push w w' 0 P.home _ _,
    w.lt_newHandle 0 x⟩

/-- **A script value is handed to the host.** -/
theorem encode (h : Abreast Q v P D E w w') (hi : (w.instance? 0).isSome) {x : Script.Value}
    (hx : x.Fits (w.heap.zone D)) :
    ∃ P₁, Abreast Q v P₁ D E (w.encode 0 x).2 (w'.encode P.home (P.value x)).2
      ∧ Onward P D w P₁ D (w.encode 0 x).2
      ∧ (w'.encode P.home (P.value x)).1 = (w.encode 0 x).1.mapHandle P₁.handle
      ∧ (w.encode 0 x).1.Known (w.encode 0 x).2.handles.size := by
  rw [World.encode, World.encode, h.together.form hx]
  cases hform : Form.of w.heap x with
  | inline u =>
    have hnone := Form.handle?_of_inline hform
    refine ⟨P, h, .refl _ _ _, ?_, fun k hk => ?_⟩
    · cases u with
      | composite kind k => cases hnone
      | _ => rfl
    · dsimp only at hk
      rw [hnone] at hk
      cases hk
  | composite kind =>
    obtain ⟨habreast, honward, hhandle, hlt⟩ := h.newHandle hi hx
    refine ⟨_, habreast, honward, congrArg (Value.composite kind) hhandle, fun k hk => ?_⟩
    exact Option.some.inj hk ▸ hlt

/-- **Script values are handed to the host**, in their order. -/
theorem encodeAll (h : Abreast Q v P D E w w') (hi : (w.instance? 0).isSome)
    {xs : List Script.Value} (hxs : ∀ x ∈ xs, x.Fits (w.heap.zone D)) :
    ∃ P₁, Abreast Q v P₁ D E (w.encodeAll 0 xs).2 (w'.encodeAll P.home (xs.map P.value)).2
      ∧ Onward P D w P₁ D (w.encodeAll 0 xs).2
      ∧ (w'.encodeAll P.home (xs.map P.value)).1 =
        (w.encodeAll 0 xs).1.map (·.mapHandle P₁.handle)
      ∧ ∀ u ∈ (w.encodeAll 0 xs).1, u.Known (w.encodeAll 0 xs).2.handles.size := by
  induction xs generalizing P w w' with
  | nil => exact ⟨P, h, .refl _ _ _, rfl, List.forall_mem_nil _⟩
  | cons x xs ih =>
    obtain ⟨P₁, h₁, honward₁, hvalue, hknown⟩ := h.encode hi (hxs x List.mem_cons_self)
    have hfits : ∀ y ∈ xs, y.Fits ((w.encode 0 x).2.heap.zone D) := fun y hy =>
      (hxs y (List.mem_cons_of_mem _ hy)).mono honward₁.zone_le
    obtain ⟨P₂, h₂, honward₂, hvalues, hknowns⟩ := ih h₁ (honward₁.home hi) hfits
    have hsame : xs.map P₁.value = xs.map P.value := List.map_congr_left fun y hy =>
      Embedding.value_congr honward₁.agrees (hxs y (List.mem_cons_of_mem _ hy))
    rw [hsame, honward₁.agrees.home] at h₂ hvalues
    have hfirst : (w.encode 0 x).1.mapHandle P₁.handle = (w.encode 0 x).1.mapHandle P₂.handle :=
      Value.mapHandle_congr fun k hk => (honward₂.handle k (hknown k hk)).symm
    refine ⟨P₂, h₂, honward₁.trans honward₂, ?_, ?_⟩
    · exact congrArg₂ List.cons (hvalue.trans hfirst) hvalues
    · exact List.forall_mem_cons.mpr ⟨hknown.mono honward₂.handles, hknowns⟩

/-- A handle is given back. -/
theorem releaseHandle (h : Abreast Q v P D E w w') {k : Handle} (hk : k.id < w.handles.size) :
    Abreast Q v P D E (w.releaseHandle k) (w'.releaseHandle (P.handle k))
      ∧ Onward P D w P D (w.releaseHandle k) := by
  have hpath : ∀ st, Path True ⟨w, st⟩ ⟨w.releaseHandle k, st⟩ := fun _ =>
    Path.change (x := .releaseHandle k) trivial rfl
  have hsame : (w.releaseHandle k).heap = w.heap
      ∧ (w.releaseHandle k).handles.size = w.handles.size := by
    rw [World.releaseHandle]
    cases w.cell? k with
    | none => exact ⟨rfl, rfl⟩
    | some c => exact ⟨rfl, Array.size_setIfInBounds⟩
  exact ⟨⟨h.together.releaseHandle hk, h.sane.path hpath,
    h.sane'.change (x := .releaseHandle _) rfl⟩,
    .of_same hsame.1 hsame.2 fun hi => (hpath []).hasInstance hi⟩

/-- **A value is taken back from the host.** -/
theorem decode (h : Abreast Q v P D E w w') {realm : Ref} (hrealm : (w.heap.zone D).HasRealm realm)
    {u : Value} (hu : u.Known w.handles.size) :
    ∃ P₁ D₁, Abreast Q v P₁ D₁ E (w.decode realm u).2
        (w'.decode (P.ref realm) (u.mapHandle P.handle)).2
      ∧ Onward P D w P₁ D₁ (w.decode realm u).2
      ∧ (w'.decode (P.ref realm) (u.mapHandle P.handle)).1 = P₁.value (w.decode realm u).1
      ∧ (w.decode realm u).1.Fits ((w.decode realm u).2.heap.zone D₁) := by
  cases u with
  | date ms =>
    obtain ⟨hproto, hproto'⟩ := h.together.left.heap.intrinsic hrealm .datePrototype
    obtain ⟨P₁, D₁, h₁, honward, hmem, href⟩ := h.newObject (.date (.clip ms))
      trivial rfl hproto hproto' .empty (Embedding.props_empty _).symm
    exact ⟨P₁, D₁, h₁, honward, congrArg Script.Value.object href.symm, hmem⟩
  | composite kind k =>
    have hk : k.id < w.handles.size := hu k rfl
    obtain ⟨h₁, honward⟩ := h.releaseHandle hk
    exact ⟨P, D, h₁, honward, h.together.referent hk,
      (h.together.fits_referent k).mono honward.zone_le⟩
  | null | undefined | number x | boolean b =>
    exact ⟨P, D, h, .refl _ _ _, rfl, trivial⟩

/-- **Values are taken back from the host**, in their order. -/
theorem decodeAll (h : Abreast Q v P D E w w') {realm : Ref}
    (hrealm : (w.heap.zone D).HasRealm realm) {us : List Value}
    (hus : ∀ u ∈ us, u.Known w.handles.size) :
    ∃ P₁ D₁, Abreast Q v P₁ D₁ E (w.decodeAll realm us).2
        (w'.decodeAll (P.ref realm) (us.map (·.mapHandle P.handle))).2
      ∧ Onward P D w P₁ D₁ (w.decodeAll realm us).2
      ∧ (w'.decodeAll (P.ref realm) (us.map (·.mapHandle P.handle))).1 =
        (w.decodeAll realm us).1.map P₁.value
      ∧ ∀ x ∈ (w.decodeAll realm us).1, x.Fits ((w.decodeAll realm us).2.heap.zone D₁) := by
  induction us generalizing P D w w' with
  | nil => exact ⟨P, D, h, .refl _ _ _, rfl, List.forall_mem_nil _⟩
  | cons u us ih =>
    have hu := hus u List.mem_cons_self
    obtain ⟨P₁, D₁, h₁, honward₁, hvalue, hfits⟩ := h.decode hrealm hu
    have hknown : ∀ u' ∈ us, u'.Known w.handles.size := fun u' hu' =>
      hus u' (List.mem_cons_of_mem _ hu')
    obtain ⟨P₂, D₂, h₂, honward₂, hvalues, hall⟩ := ih h₁ (hrealm.mono honward₁.zone_le)
      fun u' hu' => (hknown u' hu').mono honward₁.handles
    have hsame : us.map (·.mapHandle P₁.handle) = us.map (·.mapHandle P.handle) :=
      List.map_congr_left fun u' hu' => Value.mapHandle_congr fun k hk =>
        honward₁.handle k (hknown u' hu' k hk)
    rw [hsame, honward₁.agrees.ref realm hrealm.1] at h₂ hvalues
    refine ⟨P₂, D₂, h₂, honward₁.trans honward₂, ?_, ?_⟩
    · refine congrArg₂ List.cons (hvalue.trans ?_) hvalues
      exact (Embedding.value_congr honward₂.agrees hfits).symm
    · exact List.forall_mem_cons.mpr ⟨hfits.mono honward₂.zone_le, hall⟩

/-- **A handle is copied.** -/
theorem cloneHandle (h : Abreast Q v P D E w w') {k : Handle} (hk : k.id < w.handles.size) :
    ∃ P₁, Abreast Q v P₁ D E (w.cloneHandle k).2 (w'.cloneHandle (P.handle k)).2
      ∧ Onward P D w P₁ D (w.cloneHandle k).2
      ∧ (w'.cloneHandle (P.handle k)).1 = P₁.handle (w.cloneHandle k).1
      ∧ (w.cloneHandle k).1.id < (w.cloneHandle k).2.handles.size := by
  have hpath : ∀ st, Path True ⟨w, st⟩ ⟨(w.cloneHandle k).2, st⟩ := fun _ =>
    Path.change (x := .cloneHandle k) trivial rfl
  have hsane := h.sane.path hpath
  have hsane' := h.sane'.change (x := .cloneHandle (P.handle k)) rfl
  revert hpath hsane hsane'
  rw [World.cloneHandle, World.cloneHandle, (h.together.left.handle k hk).2]
  cases hc : w.cell? k with
  | none => exact fun _ _ _ => ⟨P, h, .refl _ _ _, rfl, hk⟩
  | some c =>
    intro hpath hsane hsane'
    obtain ⟨x, owner⟩ := c
    obtain ⟨hfits, hi⟩ := h.together.left.held k _ hc
    obtain rfl := h.together.left.single owner hi
    exact ⟨P.push w w', ⟨(h.together.push hi hfits).update hi fun _ _ _ hmatch =>
      { hmatch with ledger := congrArg Ledger.clone hmatch.ledger }, hsane, hsane'⟩,
      .push P D w' rfl (Array.size_push _) (hpath []).hasInstance,
      P.handle_push w w' 0 P.home x (P.value x), w.lt_newHandle 0 x⟩

/-- What is made of an object and then a handle to it. -/
private theorem handleTo (hi : (w.instance? 0).isSome) {P₁ : Passage} {D₁ : Set Ref}
    {w₁ w₁' : World} (h₁ : Abreast Q v P₁ D₁ E w₁ w₁')
    (honward : Onward P D w P₁ D₁ w₁) {r r' : Ref} (hr : r ∈ D₁) (hr' : P₁.ref r = r') :
    ∃ P₂ D₂, Abreast Q v P₂ D₂ E (w₁.newHandle 0 (.object r)).2
        (w₁'.newHandle P.home (.object r')).2
      ∧ Onward P D w P₂ D₂ (w₁.newHandle 0 (.object r)).2
      ∧ (w₁'.newHandle P.home (.object r')).1 = P₂.handle (w₁.newHandle 0 (.object r)).1
      ∧ (w₁.newHandle 0 (.object r)).1.id < (w₁.newHandle 0 (.object r)).2.handles.size := by
  obtain ⟨h₂, honward₂, hhandle, hlt⟩ := h₁.newHandle (honward.home hi) (x := .object r) hr
  rw [honward.agrees.home, Embedding.value, hr'] at h₂ hhandle
  exact ⟨_, _, h₂, honward.trans honward₂, hhandle, hlt⟩

/-- **An empty object**, with a handle to it. -/
theorem newPlain (h : Abreast Q v P D E w w') (hi : (w.instance? 0).isSome) {realm : Ref}
    (hrealm : (w.heap.zone D).HasRealm realm) :
    ∃ P₁ D₁, Abreast Q v P₁ D₁ E (w.newObject 0 realm).2 (w'.newObject P.home (P.ref realm)).2
      ∧ Onward P D w P₁ D₁ (w.newObject 0 realm).2
      ∧ (w'.newObject P.home (P.ref realm)).1 = P₁.handle (w.newObject 0 realm).1
      ∧ (w.newObject 0 realm).1.id < (w.newObject 0 realm).2.handles.size := by
  obtain ⟨hproto, hproto'⟩ := h.together.left.heap.intrinsic hrealm .objectPrototype
  obtain ⟨P₁, D₁, h₁, honward, hmem, href⟩ := h.newObject .plain
    trivial rfl hproto hproto' .empty (Embedding.props_empty _).symm
  exact handleTo hi h₁ honward hmem href

/-- **An empty array**, with a handle to it. -/
theorem newArray (h : Abreast Q v P D E w w') (hi : (w.instance? 0).isSome) {realm : Ref}
    (hrealm : (w.heap.zone D).HasRealm realm) :
    ∃ P₁ D₁, Abreast Q v P₁ D₁ E (w.newArray 0 realm).2 (w'.newArray P.home (P.ref realm)).2
      ∧ Onward P D w P₁ D₁ (w.newArray 0 realm).2
      ∧ (w'.newArray P.home (P.ref realm)).1 = P₁.handle (w.newArray 0 realm).1
      ∧ (w.newArray 0 realm).1.id < (w.newArray 0 realm).2.handles.size := by
  obtain ⟨hproto, hproto'⟩ := h.together.left.heap.intrinsic hrealm .arrayPrototype
  let props : Script.Props :=
    .listing ⟨.data (Script.Value.ofNat 0) true, false, false⟩ []
  have hfits : props.Fits (w.heap.zone D) := .listing trivial (List.forall_mem_nil _)
  have hsame : props = P.props props :=
    (Script.Props.listing_embed P.toEmbedding ⟨.data (Script.Value.ofNat 0) true, false, false⟩
      []).symm
  obtain ⟨P₁, D₁, h₁, honward, hmem, href⟩ := h.newObject .array
    trivial rfl hproto hproto' hfits hsame
  exact handleTo hi h₁ honward hmem href

/-- **A callback is registered.** -/
theorem register (h : Abreast Q v P D E w w') (halive : w.isAlive 0 = true) {realm : Ref}
    (hrealm : (w.heap.zone D).HasRealm realm) {c : Callback} (hc : c.isOwn = true) :
    ∃ P₁ D₁, Abreast Q v P₁ D₁ E (w.register 0 realm c).2
        (w'.register P.home (P.ref realm) (c.mapOwner (P.home + ·))).2
      ∧ Onward P D w P₁ D₁ (w.register 0 realm c).2
      ∧ (w'.register P.home (P.ref realm) (c.mapOwner (P.home + ·))).1 =
        (w.register 0 realm c).1.mapHandle P₁.handle
      ∧ (w.register 0 realm c).1.Known (w.register 0 realm c).2.handles.size := by
  obtain ⟨x, hx⟩ := Option.isSome_iff_exists.mp (World.isAlive_eq_isSome_live? ▸ halive)
  obtain ⟨hthere, hlive⟩ := World.live?_eq_some_iff.mp hx
  obtain ⟨x', hx', hmatch⟩ := h.together.left.home x hthere
  have halive' : w'.isAlive P.home = true := World.isAlive_of_live?
    (World.live?_eq_some_iff.mpr ⟨hx', hmatch.isLive.trans hlive⟩)
  have hpath : ∀ st, Path True ⟨w, st⟩ ⟨(w.register 0 realm c).2, st⟩ := fun _ =>
    Path.register halive realm c
  have hsane := h.sane.path hpath
  have hsane' := h.sane'.path fun _ => Path.register halive' (P.ref realm)
    (c.mapOwner (P.home + ·))
  have hi : (w.instance? 0).isSome := hthere ▸ rfl
  obtain ⟨hentered, honward⟩ := h.together.entering (x := x) h.sane.placed hi hrealm hc
  have hhandle := hentered.newHandle (honward.home hi) (x := .object w.heap.cells.size)
    (Set.mem_insert _ _)
  have hnew : (P.grow w.heap w'.heap).ref w.heap.cells.size = w'.heap.cells.size :=
    Function.update_self ..
  have hsame : w'.nextFunction P.home x' = w'.nextFunction P.home x := by
    funext r
    rw [World.nextFunction, World.nextFunction, hmatch.nextId]
  have hsame' : w'.entering P.home x' = w'.entering P.home x := by
    funext r c
    rw [World.entering, World.entering, hsame, hmatch.nextId]
  rw [Embedding.value, hnew] at hhandle
  rw [World.register_eq_entering hthere] at hpath hsane ⊢
  rw [World.register_eq_entering hx', hsame, hsame'] at hsane' ⊢
  refine ⟨_, _, ⟨hhandle, hsane, hsane'⟩, honward.trans (.push _ _ _ rfl (Array.size_push _) ?_),
    congrArg (Value.composite .function) (Passage.handle_push ..), fun k hk => ?_⟩
  · exact fun _ => (hpath []).hasInstance hi
  · exact Option.some.inj hk ▸ World.lt_newHandle ..

end Abreast

/-! ## The instance -/

namespace Together

/-- The instance, in both worlds. -/
theorem instances (h : Together P D w Q E v w') (hi : (w.instance? 0).isSome) :
    ∃ x x', w.instance? 0 = some x ∧ w'.instance? P.home = some x'
      ∧ P.Matches (w.heap.zone D) x x' := by
  obtain ⟨x, hx⟩ := Option.isSome_iff_exists.mp hi
  obtain ⟨x', hx', hmatch⟩ := h.left.home x hx
  exact ⟨x, x', hx, hx', hmatch⟩

/-- The instance lives in both worlds or in neither. -/
theorem live (h : Together P D w Q E v w') (hi : (w.instance? 0).isSome) :
    (w.live? 0 = none ∧ w'.live? P.home = none)
      ∨ ∃ x x', w.live? 0 = some x ∧ w'.live? P.home = some x'
        ∧ P.Matches (w.heap.zone D) x x' := by
  obtain ⟨x, x', hx, hx', hmatch⟩ := h.instances hi
  rw [World.live?, World.live?, hx, hx', Option.filter_some, Option.filter_some, hmatch.isLive]
  cases x.isLive with
  | false => exact .inl ⟨rfl, rfl⟩
  | true => exact .inr ⟨x, x', rfl, rfl, hmatch⟩

theorem slot (h : Together P D w Q E v w') (hi : (w.instance? 0).isSome) (slot : UInt32) :
    w'.slot P.home slot = w.slot 0 slot := by
  obtain ⟨x, x', hx, hx', hmatch⟩ := h.instances hi
  rw [World.slot, World.slot, hx, hx', Option.bind_some, Option.bind_some, hmatch.slots]

/-- The calls in progress are those of the tenant. -/
theorem isBusy (h : Together P D w Q E v w') (hi : (w.instance? 0).isSome) :
    w'.isBusy P.home = w.isBusy 0 := by
  obtain ⟨x, x', hx, hx', hmatch⟩ := h.instances hi
  have hflight : (w.inFlight.map P.invocation).any (fun u => u.anchor.owner == P.home) =
      w.inFlight.any fun u => u.anchor.owner == 0 := by
    rw [List.any_map]
    congr 1
    funext u
    show (P.home + u.anchor.owner == P.home) = _
    rw [Bool.eq_iff_iff, beq_iff_eq, beq_iff_eq]
    exact Nat.add_eq_left
  rw [World.isBusy, World.isBusy, hx, hx', h.inFlight, hflight, Option.any_some, Option.any_some,
    hmatch.borrowed, hmatch.lent, Option.isSome_map]

theorem converting (h : Together P D w Q E v w') :
    w'.converting = w.converting.map P.ref := by
  rw [World.converting, World.converting, h.inFlight, List.head?_map]
  cases w.inFlight.head? <;> rfl

theorem fits_converting (h : Together P D w Q E v w') : ∀ r ∈ w.converting, r ∈ D := by
  intro r hr
  rw [World.converting] at hr
  cases hu : w.inFlight.head? with
  | none =>
    rw [hu] at hr
    cases hr
  | some u =>
    rw [hu] at hr
    exact (h.left.calls u (List.mem_of_head? hu)).2.converting r hr

/-- The present state of a context that was lent. -/
theorem current (h : Together P D w Q E v w') {act : Activation}
    (hact : act.Fits (w.heap.zone D)) :
    w'.current (P.activation act) = P.activation (w.current act)
      ∧ (w.current act).Fits (w.heap.zone D) := by
  have hfind : (w.inFlight.map P.invocation).find?
        (·.activation.context == (P.activation act).context) =
      (w.inFlight.find? (·.activation.context == act.context)).map P.invocation := by
    rw [List.find?_map]
    congr 2
    funext u
    show (P.home + u.activation.context == P.home + act.context) = _
    rw [Bool.eq_iff_iff, beq_iff_eq, beq_iff_eq]
    exact Nat.add_left_cancel_iff
  rw [World.current, World.current, h.inFlight, hfind, h.converting]
  cases hu : w.inFlight.find? (·.activation.context == act.context) with
  | none => exact ⟨rfl, hact⟩
  | some u =>
    have hfits := (h.left.calls u (List.mem_of_find?_eq_some hu)).2
    exact ⟨rfl, hfits.realm, hfits.held, h.fits_converting⟩

/-- **The callback behind an anchor** is the same, if the function object is in the part. -/
theorem callbackOf (h : Together P D w Q E v w') (hw : w.Placed) (hi : (w.instance? 0).isSome)
    {a : Anchor} (ha : ∃ r ∈ D, (w.heap.object r).anchor = some a) :
    w'.callbackOf (P.anchor a) = (w.callbackOf a).map (·.mapOwner (P.home + ·))
      ∧ ∀ c ∈ w.callbackOf a, c.isOwn = true := by
  obtain ⟨r, hr, hra⟩ := ha
  obtain ⟨owner, id⟩ := a
  obtain rfl : owner = 0 := h.left.anchored r hr _ hra
  have hhome : (P.anchor ⟨0, id⟩).owner = P.home := rfl
  rw [World.callbackOf, World.callbackOf, hhome]
  obtain ⟨hnone, hnone'⟩ | ⟨x, x', hx, hx', hmatch⟩ := h.live hi
  · rw [hnone, hnone']
    exact ⟨rfl, fun c hc => absurd hc (Option.not_mem_none c)⟩
  · have hfunction : ∀ e ∈ x.table.entries, (e.1 == id) = true → e.2.function ∈ D := by
      intro e he hid
      have he' : e ∈ (w.table 0).entries :=
        World.table_of_instance? (World.live?_eq_some_iff.mp hx).1 ▸ he
      rw [← (hw.anchor_iff he' r).mp (beq_iff_eq.mp hid ▸ hra)]
      exact hr
    have hlookup : x'.table.lookup id = (x.table.lookup id).map P.registration := by
      rw [CallbackTable.lookup, CallbackTable.lookup, hmatch.entries, List.find?_map,
        Option.map_map, Option.map_map]
      exact congrArg (Option.map (P.registration ∘ (·.2))) (CallbackTable.find?_within hfunction)
    rw [hx, hx', Option.bind_some, Option.bind_some]
    show (x'.table.lookup id).map _ = _ ∧ _
    rw [hlookup, Option.map_map, Option.map_map]
    refine ⟨rfl, fun c hc => ?_⟩
    obtain ⟨r, hr, rfl⟩ := Option.map_eq_some_iff.mp hc
    obtain ⟨e, he, rfl⟩ := Option.map_eq_some_iff.mp hr
    exact hmatch.own e (List.mem_of_find?_eq_some he)

/-! ## What values are -/

theorem typeName (h : Together P D w Q E v w') {x : Script.Value} (hx : x.Fits (w.heap.zone D)) :
    w'.heap.typeName (P.value x) = w.heap.typeName x := by
  cases x with
  | object r =>
    show (if (w'.heap.object (P.ref r)).nature.isCallable then _ else _) = _
    rw [h.left.heap.object hx, Embedding.object, Embedding.isCallable_nature]
    rfl
  | _ => rfl

theorem sameValue (h : Together P D w Q E v w') {x y : Script.Value}
    (hx : x.Fits (w.heap.zone D)) (hy : y.Fits (w.heap.zone D)) :
    Script.Value.sameValue (P.value x) (P.value y) = Script.Value.sameValue x y := by
  cases x with
  | symbol s =>
    cases y with
    | symbol t =>
      show (P.symbol s.id == P.symbol t.id) = (s.id == t.id)
      rw [Bool.eq_iff_iff, beq_iff_eq, beq_iff_eq]
      exact P.symbol.injective.eq_iff
    | _ => rfl
  | object r =>
    cases y with
    | object q =>
      show (P.ref r == P.ref q) = (r == q)
      rw [Bool.eq_iff_iff, beq_iff_eq, beq_iff_eq]
      exact h.left.heap.inj.eq_iff hx hy
    | _ => rfl
  | _ => cases y <;> rfl

theorem isArray (h : Together P D w Q E v w') {k : Handle} (hk : k.id < w.handles.size) :
    w'.isArray (P.handle k) = w.isArray k := by
  have hfits := h.fits_referent k
  rw [World.isArray, World.isArray, h.referent hk]
  cases hx : w.referent k with
  | object r =>
    rw [hx] at hfits
    dsimp only [Embedding.value]
    rw [h.left.heap.object hfits]
    dsimp only [Embedding.object]
    cases (w.heap.object r).nature <;> rfl
  | _ => rfl

theorem arrayLength (h : Together P D w Q E v w') {k : Handle} (hk : k.id < w.handles.size) :
    w'.arrayLength (P.handle k) = w.arrayLength k := by
  have hfits := h.fits_referent k
  rw [World.arrayLength, World.arrayLength, h.referent hk]
  cases hx : w.referent k with
  | object r =>
    rw [hx] at hfits
    have hlength : (P.object (w.heap.object r)).arrayLength = (w.heap.object r).arrayLength := by
      have hfind : (P.object (w.heap.object r)).props.find? Script.Key.length =
          ((w.heap.object r).props.find? Script.Key.length).map P.slot := by
        rw [← Script.Props.find?_embed, Embedding.key_length]
        rfl
      rw [Script.Object.arrayLength, Script.Object.arrayLength, hfind]
      cases (w.heap.object r).props.find? Script.Key.length with
      | none => rfl
      | some s =>
        obtain ⟨u | ⟨g, t⟩, e, c⟩ := s
        · cases u <;> rfl
        · rfl
    simp only [Embedding.value, h.left.heap.object hfits, hlength]
    cases hn : (w.heap.object r).nature <;> simp [Embedding.object, Embedding.nature, hn]
  | _ => rfl

end Together

/-! ## Contexts and calls -/

theorem World.dropCallback_keeps (w : World) (a : Anchor) (c : Callback) :
    (w.dropCallback a c).heap = w.heap ∧ (w.dropCallback a c).handles = w.handles
      ∧ (w.dropCallback a c).instances = w.instances
      ∧ (w.dropCallback a c).inFlight = w.inFlight
      ∧ (w.dropCallback a c).lifecycle = w.lifecycle := by
  cases c with
  | native name => exact ⟨rfl, rfl, rfl, rfl, rfl⟩
  | foreign owner context =>
    rw [dropCallback]
    dsimp only
    split <;> exact ⟨rfl, rfl, rfl, rfl, rfl⟩

theorem World.dropOrphan_keeps (w : World) (a : Anchor) :
    (w.dropOrphan a).heap = w.heap ∧ (w.dropOrphan a).handles = w.handles
      ∧ (w.dropOrphan a).instances = w.instances ∧ (w.dropOrphan a).inFlight = w.inFlight
      ∧ (w.dropOrphan a).lifecycle = w.lifecycle := by
  rw [dropOrphan]
  split
  · exact ⟨rfl, rfl, rfl, rfl, rfl⟩
  · split
    · exact ⟨rfl, rfl, rfl, rfl, rfl⟩
    · exact dropCallback_keeps _ a _

namespace Abreast

theorem borrow (h : Abreast Q v P D E w w') {x x' : Instance} (hx : w.live? 0 = some x)
    (hx' : w'.live? P.home = some x') (hmatch : P.Matches (w.heap.zone D) x x')
    (hl : x.lent = none) (hb : x.borrowed = false) :
    Abreast Q v P D E (w.borrow 0) (w'.borrow P.home) ∧ Onward P D w P D (w.borrow 0) := by
  have hi : (w.instance? 0).isSome := (World.live?_eq_some_iff.mp hx).1 ▸ rfl
  refine ⟨⟨h.together.update hi fun _ _ _ hm => { hm with borrowed := rfl },
    h.sane.borrow hx hl hb, h.sane'.borrow hx' ?_ (hmatch.borrowed.trans hb)⟩, ?_⟩
  · rw [hmatch.lent, hl]
    rfl
  · exact .of_same rfl rfl fun hi => (World.isSome_updateInstance ..).trans hi

theorem giveBack (h : Abreast Q v P D E w w') (hi : (w.instance? 0).isSome) :
    Abreast Q v P D E (w.giveBack 0) (w'.giveBack P.home) ∧ Onward P D w P D (w.giveBack 0) :=
  ⟨⟨h.together.update hi fun _ _ _ hm => { hm with borrowed := rfl },
    h.sane.giveBack 0, h.sane'.giveBack P.home⟩,
    .of_same rfl rfl fun hi => (World.isSome_updateInstance ..).trans hi⟩

theorem setSlot (h : Abreast Q v P D E w w') (hi : (w.instance? 0).isSome) (slot : UInt32)
    (data : UInt64) :
    Abreast Q v P D E (w.setSlot 0 slot data) (w'.setSlot P.home slot data)
      ∧ Onward P D w P D (w.setSlot 0 slot data) :=
  ⟨⟨h.together.update hi fun _ _ _ hm => { hm with slots := by rw [hm.slots] },
    h.sane.change (x := .setSlot 0 slot data) rfl,
    h.sane'.change (x := .setSlot P.home slot data) rfl⟩,
    .of_same rfl rfl fun hi => (World.isSome_updateInstance ..).trans hi⟩

/-- **A callback begins.** -/
theorem enter (h : Abreast Q v P D E w w') (hi : (w.instance? 0).isSome) {u : Invocation}
    (howner : u.anchor.owner = 0) (hfits : u.activation.Fits (w.heap.zone D))
    (hc : (w.callbackOf u.anchor).isSome) (hc' : (w'.callbackOf (P.anchor u.anchor)).isSome) :
    Abreast Q v P D E (w.enter u) (w'.enter (P.invocation u))
      ∧ Onward P D w P D (w.enter u) := by
  have howner' : (P.invocation u).anchor.owner = P.home := by
    show P.home + u.anchor.owner = P.home
    rw [howner]
    rfl
  have hentered := (h.together.begin howner hfits).update (f := fun x =>
    { x with lent := some u.activation }) (g := fun x =>
    { x with lent := some (P.invocation u).activation }) hi fun _ _ _ hm =>
      { hm with lent := rfl, fits_lent := fun act hact => Option.some.inj hact ▸ hfits }
  refine ⟨⟨?_, h.sane.enter hc, h.sane'.enter hc'⟩,
    .of_same rfl rfl fun hi => (World.isSome_updateInstance ..).trans hi⟩
  rw [World.enter, World.enter, howner, howner']
  exact hentered

/-- **A callback returns.** -/
theorem leave (h : Abreast Q v P D E w w') (hi : (w.instance? 0).isSome) {u : Invocation}
    {rest : List Invocation} (hu : w.inFlight = u :: rest) {before : Option Activation}
    (hbefore : ∀ act ∈ before, act.Fits (w.heap.zone D)) :
    Abreast Q v P D E (w.leave u.anchor before)
        (w'.leave (P.anchor u.anchor) (before.map P.activation))
      ∧ Onward P D w P D (w.leave u.anchor before) := by
  have howner : u.anchor.owner = 0 := (h.together.left.calls u (hu ▸ List.mem_cons_self)).1
  have howner' : (P.anchor u.anchor).owner = P.home := by
    show P.home + u.anchor.owner = P.home
    rw [howner]
    rfl
  have hu' : w'.inFlight = P.invocation u :: rest.map P.invocation := by
    rw [h.together.inFlight, hu]
    rfl
  have hleft := h.together.finish.update (f := fun x => { x with lent := before }) (g := fun x =>
    { x with lent := before.map P.activation }) hi fun _ _ _ hm =>
      { hm with lent := rfl, fits_lent := hbefore }
  have hsane := h.sane.leave hu before
  have hsane' := h.sane'.leave hu' (before.map P.activation)
  rw [World.leave, howner] at hsane ⊢
  rw [World.leave, show (P.invocation u).anchor = P.anchor u.anchor from rfl, howner'] at hsane'
  rw [World.leave, howner']
  obtain ⟨hheap, hhandles, hinstances, hflight, hlifecycle⟩ := World.dropOrphan_keeps
    ({ w with inFlight := w.inFlight.tail }.updateInstance 0 fun x => { x with lent := before })
    u.anchor
  obtain ⟨hheap', hhandles', hinstances', hflight', hlifecycle'⟩ := World.dropOrphan_keeps
    ({ w' with inFlight := w'.inFlight.tail }.updateInstance P.home fun x =>
      { x with lent := before.map P.activation }) (P.anchor u.anchor)
  refine ⟨⟨hleft.congr hheap hhandles hinstances hflight hlifecycle hheap' hhandles' hinstances'
    hflight' hlifecycle', hsane, hsane'⟩,
    .of_same hheap (congrArg Array.size hhandles) fun hi => ?_⟩
  rw [World.instance?, hinstances]
  exact (World.isSome_updateInstance ..).trans hi

end Abreast

end Operations

end ScriptBoundary.Boundary
