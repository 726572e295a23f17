import ScriptBoundary.Proofs.Enumeration
import ScriptBoundary.Proofs.Lookup

/-!
# Property operations on plain objects

What the four operations on properties do to an object of which the laws of a store can be expected
(`Heap.IsStore`). Reading and asking walk up the prototypes to what is found there. Assigning walks
up as well, to learn whether what is found can be written, and then turns to the object that it was
asked of. Deleting looks at that object only.

All of them come to an end by themselves, as long as no accessor has to be called: so they are said
to give something, with the heap they leave (`Comp.Gives`). A step up the chain takes a level of the
machine. That there are enough of them is a condition on the length of the chain.

## Main results

* `gives_get`, `gives_has`: what is found along a chain
* `gives_set`: an assignment writes if the object admits it, and changes nothing if not
* `gives_delete`: a deletion
-/

namespace ScriptBoundary.Script

open Script.Comp

/-- What reading a property that was found gives, unless a getter is to be called. Where nothing was
found, or an accessor without a getter, it is `undefined`. -/
def Slot.reading : Option Slot → Option Value
  | none => some .undefined
  | some s => match s.content with
    | .data v _ => some v
    | .accessor g _ => if g.isUndefined then some .undefined else none

theorem Slot.reading_of_value? {s : Slot} {v : Value} (h : s.value? = some v) :
    Slot.reading (some s) = some v := by
  rw [value?] at h
  rw [reading]
  cases hs : s.content with
  | data u w => rwa [hs] at h
  | accessor g t =>
    rw [hs] at h
    cases h

/-- The key that a primitive names. -/
def Value.primitiveKey? : Value → Option Key
  | .undefined => some (Key.ofText "undefined")
  | .null => some (Key.ofText "null")
  | .boolean b => some (Key.ofText (if b then "true" else "false"))
  | .number x => some (Key.ofNumber x)
  | .text t => some (Key.ofText t)
  | .symbol s => some (.symbol s)
  | .bigint n => some (Key.ofText (toString n))
  | .object _ => none

/-- A primitive becomes a key without further ado. -/
theorem toKey_of_primitiveKey? (m : Machine) {v : Value} {k : Key} (hk : v.primitiveKey? = some k) :
    m.toKey v = pure k := by
  cases v with
  | boolean b =>
    obtain rfl := Option.some.inj hk
    cases b <;> rfl
  | object r => cases hk
  | _ =>
    obtain rfl := Option.some.inj hk
    rfl

section Finding

variable {act : Activation} {h : Heap} {r : Ref} {k : Key} {levels : List Ref} {library : Builtins}
  {depth : Nat}

/-- There is a level of the machine for each level of a chain. -/
theorem exists_depth {n : Nat} (h : (r :: levels).length + n ≤ depth) :
    ∃ d, depth = d + 1 ∧ levels.length + n ≤ d := by
  rw [List.length_cons] at h
  exact ⟨depth - 1, by omega, by omega⟩

/-- **Reading** gives what is found. -/
theorem gives_get (hc : h.ProtoChain r levels) (ho : ∀ q ∈ levels, (h.object q).isOrdinary = true)
    {x : Value} (hx : Slot.reading (h.found levels k) = some x) (receiver : Value)
    (hd : levels.length + 0 ≤ depth) :
    (Machine.ofDepth library depth (.get r k receiver)).Gives act h x h := by
  induction hc generalizing depth with
  | @last r hr =>
    obtain ⟨d, rfl, -⟩ := exists_depth hd
    have hordinary := ho r List.mem_cons_self
    refine gives_onProxy hordinary ((gives_inspect _).bind ?_)
    rw [Heap.found_cons] at hx
    cases hown : h.ownSlot? r k with
    | none =>
      rw [hown] at hx
      obtain rfl := Option.some.inj hx
      refine (gives_inspect _).bind ?_
      rw [Boundary.Operation.proto_eq_parent? hordinary, hr]
      exact gives_pure _
    | some s =>
      rw [hown] at hx
      exact gives_readSlot hx receiver
  | @next r p levels hr hp ih =>
    obtain ⟨d, rfl, hlen⟩ := exists_depth hd
    have hordinary := ho r List.mem_cons_self
    refine gives_onProxy hordinary ((gives_inspect _).bind ?_)
    rw [Heap.found_cons] at hx
    cases hown : h.ownSlot? r k with
    | none =>
      rw [hown] at hx
      refine (gives_inspect _).bind ?_
      rw [Boundary.Operation.proto_eq_parent? hordinary, hr]
      exact ih (fun q hq => ho q (List.mem_cons_of_mem _ hq)) hx hlen
    | some s =>
      rw [hown] at hx
      exact gives_readSlot hx receiver
where
  gives_readSlot {m : Machine} {s : Slot} {x : Value} {rest : Option Slot}
      (hx : Slot.reading ((some s).or rest) = some x) (receiver : Value) :
      (m.readSlot s receiver).Gives act h x h := by
    have hreading : Slot.reading (some s) = some x := hx
    rw [Slot.reading] at hreading
    rw [Machine.readSlot]
    cases hs : s.content with
    | data v w =>
      rw [hs] at hreading
      obtain rfl := Option.some.inj hreading
      exact gives_pure _
    | accessor g t =>
      rw [hs] at hreading
      dsimp only at hreading ⊢
      split at hreading
      · next hg =>
        obtain rfl := Option.some.inj hreading
        rw [if_pos hg]
        exact gives_pure _
      · cases hreading

/-- **Asking** says whether anything is found. -/
theorem gives_has (hc : h.ProtoChain r levels) (ho : ∀ q ∈ levels, (h.object q).isOrdinary = true)
    (hd : levels.length + 0 ≤ depth) :
    (Machine.ofDepth library depth (.has r k)).Gives act h (h.found levels k).isSome h := by
  induction hc generalizing depth with
  | @last r hr =>
    obtain ⟨d, rfl, -⟩ := exists_depth hd
    have hordinary := ho r List.mem_cons_self
    refine gives_onProxy hordinary ((gives_inspect _).bind ?_)
    rw [Heap.found_cons]
    cases hown : h.ownSlot? r k with
    | none =>
      refine (gives_inspect _).bind ?_
      rw [Boundary.Operation.proto_eq_parent? hordinary, hr]
      exact gives_pure _
    | some s => exact gives_pure _
  | @next r p levels hr hp ih =>
    obtain ⟨d, rfl, hlen⟩ := exists_depth hd
    have hordinary := ho r List.mem_cons_self
    refine gives_onProxy hordinary ((gives_inspect _).bind ?_)
    rw [Heap.found_cons]
    cases hown : h.ownSlot? r k with
    | none =>
      refine (gives_inspect _).bind ?_
      rw [Boundary.Operation.proto_eq_parent? hordinary, hr]
      exact ih (fun q hq => ho q (List.mem_cons_of_mem _ hq)) hlen
    | some s => exact gives_pure _

end Finding

section Defining

variable {act : Activation} {m : Machine} {h : Heap} {r : Ref} {k : Key} {d : Descriptor}
  {v : Value} {levels : List Ref}

/-- Whether a descriptor gives a value to a data property and says nothing against writing it. -/
structure Descriptor.Assigns (d : Descriptor) (v : Value) : Prop where
  value : d.value = some v
  data : d.isAccessor = false
  writable : (d.writable == some false) = false

theorem assigns_value (v : Value) : ({ value := some v } : Descriptor).Assigns v := ⟨rfl, rfl, rfl⟩

theorem assigns_plain (v : Value) : (Descriptor.ofSlot (Slot.plain v)).Assigns v := ⟨rfl, rfl, rfl⟩

/-- A property that can be written takes a value. -/
theorem Slot.isAllowedOver_of_isWritable {s : Slot} (hs : s.isWritable = true) (v : Value) :
    ({ value := some v } : Descriptor).isAllowedOver s = true := by
  obtain ⟨content, enumerable, configurable⟩ := s
  cases content with
  | data u w =>
    obtain rfl : w = true := hs
    cases configurable <;> rfl
  | accessor g t => cases hs

/-- A definition of an element of an arguments object reaches the variable that it is tied to. -/
theorem gives_defineInArguments (hd : d.Assigns v)
    (hput : (defineOrdinary r k d).Gives act h true
      (h.apply (.putSlot r k (h.written r k v))).1) :
    (defineInArguments r k d).Gives act h true (h.write r k v) := by
  refine (gives_inspect _).bind ?_
  unfold Heap.write
  cases hp : (h.object r).tiedTo? k with
  | none => exact hput
  | some p =>
    obtain ⟨scope, name⟩ := p
    refine (gives_inspect _).bind ?_
    dsimp only
    rw [hd.value, Option.isNone_some, Bool.and_false, Bool.false_and, if_neg Bool.false_ne_true]
    refine hput.bind ?_
    dsimp only
    rw [Bool.not_true, if_neg Bool.false_ne_true, hd.data, if_neg Bool.false_ne_true, hd.writable]
    exact (gives_performOnly _).bind (gives_pure _)

theorem gives_defineInArguments_false (hd : d.Assigns v)
    (hput : (defineOrdinary r k d).Gives act h false h) :
    (defineInArguments r k d).Gives act h false h := by
  refine (gives_inspect _).bind ?_
  cases hp : (h.object r).tiedTo? k with
  | none => exact hput
  | some p =>
    obtain ⟨scope, name⟩ := p
    refine (gives_inspect _).bind ?_
    dsimp only
    rw [hd.value, Option.isNone_some, Bool.and_false, Bool.false_and, if_neg Bool.false_ne_true]
    refine hput.bind ?_
    exact gives_pure _

/-- Without a proxy, an array or a unit in the way, a definition is an ordinary one, or one of an
arguments object. -/
theorem gives_defineOwn {b : Bool} {h' : Heap} (hs : h.IsStore r levels)
    (hunit : (h.object r).isUnit k = false)
    (hplain : (∀ tied, (h.object r).nature ≠ .arguments tied) →
      (defineOrdinary r k d).Gives act h b h')
    (htied : (defineInArguments r k d).Gives act h b h') :
    (m.defineOwn r k d).Gives act h b h' := by
  refine (gives_inspect _).bind ?_
  split
  · next harray => exact absurd harray hs.notArray
  · exact htied
  · next t ht =>
    have hput := hplain fun tied => by rw [ht]; nofun
    split
    · next i =>
      have hnone : t.unitAt? i.val = none := by
        rw [Object.isUnit_index ht, decide_eq_false_iff_not] at hunit
        exact Option.map_eq_none_iff.mpr (Array.getElem?_eq_none (Nat.le_of_not_lt hunit))
      rw [hnone]
      exact hput
    · exact hput
  · next harguments _ => exact hplain harguments

/-- A definition that gives a property a value writes it where the object admits that. -/
theorem gives_defineOwn_true (hs : h.IsStore r levels) {inherited : Option Slot}
    (ha : h.admits r inherited k = true) (hd : d.Assigns v)
    (hover : h.ownSlot? r k ≠ none → d = { value := some v })
    (hnew : h.ownSlot? r k = none → d = Descriptor.ofSlot (Slot.plain v)) :
    (m.defineOwn r k d).Gives act h true (h.write r k v) := by
  have hput : (defineOrdinary r k d).Gives act h true
      (h.apply (.putSlot r k (h.written r k v))).1 := by
    refine (gives_inspect _).bind ?_
    rw [Heap.admits] at ha
    rw [Heap.written]
    cases hown : h.ownSlot? r k with
    | none =>
      rw [hown] at ha
      obtain rfl := hnew hown
      refine (gives_inspect _).bind ?_
      rw [(Bool.and_eq_true_iff.mp ha).1, if_pos rfl]
      exact (gives_performOnly _).bind (gives_pure _)
    | some s =>
      rw [hown] at ha
      obtain rfl := hover (hown ▸ Option.some_ne_none s)
      dsimp only
      rw [Slot.isAllowedOver_of_isWritable ha, if_pos rfl]
      exact (gives_performOnly _).bind (gives_pure _)
  refine gives_defineOwn hs (Heap.isUnit_of_admits ha) (fun hplain => ?_)
    (gives_defineInArguments hd hput)
  have hfree : (h.object r).tiedTo? k = none := by
    unfold Object.tiedTo?
    split
    · next hn => exact absurd hn (hplain _)
    · rfl
  rw [Heap.write, hfree]
  exact hput

/-- An object that takes no further property refuses one. -/
theorem gives_defineOwn_false (hs : h.IsStore r levels) (hown : h.ownSlot? r k = none)
    (hclosed : (h.object r).extensible = false) (hd : d.Assigns v) :
    (m.defineOwn r k d).Gives act h false h := by
  have hput : (defineOrdinary r k d).Gives act h false h := by
    refine (gives_inspect _).bind ?_
    rw [hown]
    refine (gives_inspect _).bind ?_
    rw [hclosed, if_neg Bool.false_ne_true]
    exact gives_pure _
  exact gives_defineOwn hs (Heap.isUnit_of_ownSlot? fun s hs' => by rw [hown] at hs'; cases hs')
    (fun _ => hput) (gives_defineInArguments_false hd hput)

end Defining

section Assigning

variable {act : Activation} {h : Heap} {r : Ref} {k : Key} {v : Value} {levels : List Ref}
  {library : Builtins} {depth : Nat}

/-- What an assignment leaves. -/
def Heap.assigned (h : Heap) (r : Ref) (levels : List Ref) (k : Key) (v : Value) : Heap :=
  if h.admits r (h.found levels k) k then h.write r k v else h

theorem Heap.object_assigned_of_ne {q : Ref} (hq : q ≠ r) :
    (h.assigned r levels k v).object q = h.object q := by
  rw [Heap.assigned]
  split
  · exact Heap.object_write_of_ne hq
  · rfl

theorem Heap.size_assigned (h : Heap) (r : Ref) (levels : List Ref) (k : Key) (v : Value) :
    (h.assigned r levels k v).cells.size = h.cells.size := by
  rw [Heap.assigned]
  split
  · exact Heap.size_write h r k v
  · rfl

/-- An assignment leaves a store, -/
theorem Heap.IsStore.assigned (hs : h.IsStore r levels) (k : Key) (v : Value) :
    (h.assigned r levels k v).IsStore r levels := by
  rw [Heap.assigned]
  split
  · exact hs.write k v
  · exact hs

/-- in which nothing else is found under other keys, -/
theorem Heap.IsStore.found_assigned_of_ne (hs : h.IsStore r levels) {k' : Key} (hne : k' ≠ k)
    (v : Value) : (h.assigned r levels k v).found (r :: levels) k' = h.found (r :: levels) k' := by
  rw [Heap.assigned]
  split
  · exact hs.found_write_of_ne hne v
  · rfl

/-- and the value under this one, if the object admits it. -/
theorem Heap.IsStore.found_assigned (hs : h.IsStore r levels)
    (ha : h.admits r (h.found levels k) k = true) (v : Value) :
    ∃ s, (h.assigned r levels k v).found (r :: levels) k = some s ∧ s.value? = some v := by
  obtain ⟨o, ho⟩ := hs.exists_object
  obtain ⟨s, hs, hv⟩ := Heap.exists_ownSlot?_write (v := v) ho fun s hown => by
    rw [Heap.admits, hown] at ha
    exact ha
  refine ⟨s, ?_, hv⟩
  rw [Heap.assigned, if_pos ha, Heap.found_cons, hs]
  rfl

/-- Once it is known what is found along the chain, the object itself is turned to. -/
theorem gives_assignTo (hs : h.IsStore r levels) {s : Slot} (hdata : s.isAccessor = false)
    (hfound : (h.found (r :: levels) k).getD (Slot.plain .undefined) = s) :
    (Machine.assignTo (.ofDepth library (depth + 1)) s k v (.object r)).Gives act h
      (h.admits r (h.found levels k) k) (h.assigned r levels k v) := by
  have hgetOwn : (Machine.getOwn (.ofDepth library (depth + 1)) r k).Gives act h
      (h.ownSlot? r k) h := gives_onProxy (hs.ordinary r List.mem_cons_self) (gives_inspect _)
  have hdefine : ∀ (d : Descriptor) b h', (∀ m : Machine, (m.defineOwn r k d).Gives act h b h') →
      (Machine.define (.ofDepth library (depth + 1)) r k d).Gives act h b h' := fun d b h' hd =>
    gives_onProxy (hs.ordinary r List.mem_cons_self) (hd _)
  obtain ⟨content, enumerable, configurable⟩ := s
  cases content with
  | accessor g t => cases hdata
  | data u writable =>
    rw [Heap.found_cons] at hfound
    rw [Machine.assignTo, Heap.assigned]
    dsimp only
    cases hown : h.ownSlot? r k with
    | some t =>
      rw [hown] at hfound
      obtain rfl : t = _ := hfound
      have hadmits : h.admits r (h.found levels k) k = writable := by
        rw [Heap.admits, hown]
        rfl
      rw [hadmits]
      cases writable with
      | false => exact gives_pure _
      | true =>
        refine hgetOwn.bind ?_
        rw [hown]
        exact hdefine _ _ _ fun m =>
          gives_defineOwn_true hs hadmits (assigns_value v) (fun _ => rfl)
            fun hnone => absurd (hown.symm.trans hnone) (Option.some_ne_none _)
    | none =>
      rw [hown] at hfound
      have hadmits : h.admits r (h.found levels k) k =
          ((h.object r).extensible && writable) := by
        rw [Heap.admits, hown]
        dsimp only
        cases hinherited : h.found levels k with
        | none =>
          rw [hinherited] at hfound
          obtain rfl : true = writable := congrArg Slot.isWritable hfound
          rfl
        | some t =>
          rw [hinherited] at hfound
          obtain rfl : t.isWritable = writable := congrArg Slot.isWritable hfound
          rfl
      cases writable with
      | false =>
        rw [hadmits, Bool.and_false]
        exact gives_pure _
      | true =>
        rw [hadmits, Bool.and_true]
        refine hgetOwn.bind ?_
        rw [hown]
        cases hextensible : (h.object r).extensible with
        | false => exact hdefine _ _ _ fun m =>
            gives_defineOwn_false hs hown hextensible (assigns_plain v)
        | true =>
          rw [hextensible, Bool.and_true] at hadmits
          exact hdefine _ _ _ fun m =>
            gives_defineOwn_true hs hadmits (assigns_plain v)
              (fun hsome => absurd hown hsome) fun _ => rfl

/-- The walk up the chain is over where the property is found, or at the end. -/
theorem gives_setAlong {q : Ref} {levels : List Ref} {receiver : Value} {b : Bool} {h' : Heap}
    (hc : h.ProtoChain q levels) (ho : ∀ q ∈ levels, (h.object q).isOrdinary = true)
    (hassign : ∀ depth, (Machine.assignTo (.ofDepth library (depth + 1))
      ((h.found levels k).getD (Slot.plain .undefined)) k v receiver).Gives act h b h')
    (hd : levels.length + 1 ≤ depth) :
    (Machine.ofDepth library depth (.set q k v receiver)).Gives act h b h' := by
  induction hc generalizing depth with
  | @last r hr =>
    obtain ⟨d, rfl, hlen⟩ := exists_depth hd
    have hordinary := ho r List.mem_cons_self
    obtain ⟨d, rfl⟩ := Nat.exists_eq_add_of_lt hlen
    rw [Heap.found_cons] at hassign
    refine gives_onProxy hordinary ((gives_inspect _).bind ?_)
    cases hown : h.ownSlot? r k with
    | none =>
      rw [hown] at hassign
      refine (gives_inspect _).bind ?_
      rw [Boundary.Operation.proto_eq_parent? hordinary, hr]
      exact hassign _
    | some s =>
      rw [hown] at hassign
      exact hassign _
  | @next r p levels hr hp ih =>
    obtain ⟨d, rfl, hlen⟩ := exists_depth hd
    have hordinary := ho r List.mem_cons_self
    rw [Heap.found_cons] at hassign
    refine gives_onProxy hordinary ((gives_inspect _).bind ?_)
    cases hown : h.ownSlot? r k with
    | none =>
      rw [hown] at hassign
      refine (gives_inspect _).bind ?_
      rw [Boundary.Operation.proto_eq_parent? hordinary, hr]
      exact ih (fun q hq => ho q (List.mem_cons_of_mem _ hq)) hassign hlen
    | some s =>
      rw [hown] at hassign
      obtain ⟨d, rfl⟩ := Nat.exists_eq_add_of_lt (Nat.lt_of_lt_of_le (Nat.succ_pos _) hlen)
      rw [Nat.zero_add]
      exact hassign _

/-- **Assigning** writes what the object admits, and nothing else. -/
theorem gives_set (hs : h.IsStore r levels)
    (hdata : ∀ s, h.found (r :: levels) k = some s → s.isAccessor = false)
    (hd : (r :: levels).length + 1 ≤ depth) :
    (Machine.ofDepth library depth (.set r k v (.object r))).Gives act h
      (h.admits r (h.found levels k) k) (h.assigned r levels k v) := by
  refine gives_setAlong hs.chain hs.ordinary (fun d => ?_) hd
  refine gives_assignTo hs ?_ rfl
  cases hfound : h.found (r :: levels) k with
  | none => rfl
  | some s => exact hdata s hfound

end Assigning

section Failing

variable {act : Activation} {h h' : Heap} {v : Value}

/-- Whether a value is a new error of a class, and nothing else in the heap has changed. -/
structure Heap.Raises (h : Heap) (realm : Ref) (c : ErrorClass) (v : Value) (h' : Heap) : Prop where
  grows : h.Grows h'
  error : ∃ e, v = .object e ∧ h.cells.size ≤ e ∧ (h'.object e).nature = .error
    ∧ (h'.object e).proto = some ((h.realm realm).base + c.proto.ctorIdx)

theorem exists_gives_newError (act : Activation) (h : Heap) (c : ErrorClass) (message : String) :
    ∃ v h', (newError c message).Gives act h v h' ∧ h.Raises act.realm c v h' := by
  refine ⟨_, _, (gives_intrinsic _).bind ((gives_newObject _ _ _).bind (gives_pure _)),
    .add h _, h.cells.size, rfl, Nat.le_refl _, ?_, ?_⟩
  all_goals rw [Heap.object_add, if_pos rfl]

end Failing

section Deleting

variable {act : Activation} {h : Heap} {r : Ref} {k : Key} {levels : List Ref}
  {library : Builtins} {depth : Nat}

theorem Heap.updateObject_congr {f g : Object → Object} {o : Object}
    (ho : h.cells[r]? = some (.object o)) (hfg : f o = g o) :
    h.updateObject r f = h.updateObject r g := by
  have hcells : (h.updateObject r f).cells = (h.updateObject r g).cells := by
    refine Array.ext_getElem? fun q => ?_
    rw [Heap.updateObject, Heap.updateObject]
    dsimp only
    rw [Array.getElem?_modify, Array.getElem?_modify]
    split
    · next hq =>
      rw [← hq, ho]
      exact congrArg (some ∘ Cell.object) hfg
    · rfl
  exact congrArg (Heap.mk · h.nextSymbol) hcells

theorem Heap.updateObject_updateObject (f g : Object → Object) :
    (h.updateObject r f).updateObject r g = h.updateObject r (g ∘ f) := by
  have hcells : ((h.updateObject r f).updateObject r g).cells =
      (h.updateObject r (g ∘ f)).cells := by
    refine Array.ext_getElem? fun q => ?_
    rw [Heap.updateObject, Heap.updateObject, Heap.updateObject]
    dsimp only
    simp only [Array.getElem?_modify]
    split
    · rcases h.cells[q]? with _ | _ | _ | _ | _ <;> rfl
    · rfl
  exact congrArg (Heap.mk · h.nextSymbol) hcells

/-- Deleting from an object that is not a proxy. -/
theorem gives_deleteFrom {o : Object} (ho : h.cells[r]? = some (.object o)) {s : Slot}
    (hown : h.ownSlot? r k = some s) (hs : s.configurable = true) :
    (deleteFrom r k).Gives act h true (h.erase r k) := by
  refine (gives_inspect _).bind ?_
  rw [hown]
  dsimp only
  rw [if_pos hs]
  refine (gives_performOnly _).bind (Gives.bind (a := ()) ?_ (gives_pure _))
  refine (gives_inspect _).bind ?_
  have hdropped : (h.apply (.dropSlot r k)).1.object r = { o with props := o.props.erase k } :=
    Heap.object_updateObject ho _
  -- Only an element of an arguments object is untied as well.
  have hkept : o.nature.untied k = o.nature → h.erase r k = (h.apply (.dropSlot r k)).1 :=
    fun hn => Heap.updateObject_congr ho (by rw [Object.without, hn])
  have huntied : ∀ tied i, o.nature = .arguments tied → k = .index i → h.erase r k =
      ((h.apply (.dropSlot r k)).1.apply
        (.setNature r (.arguments (tied.filter fun t => t.1 != i)))).1 := by
    rintro tied i hn rfl
    refine (Heap.updateObject_congr ho ?_).trans (Heap.updateObject_updateObject _ _).symm
    rw [Function.comp_apply, Object.without, hn]
    rfl
  rw [hdropped]
  dsimp only
  split
  · next tied i hn =>
    rw [huntied tied i hn rfl]
    exact gives_performOnly _
  · next k _ _ hother =>
    have hsame : o.nature.untied k = o.nature := by
      unfold Nature.untied
      split
      · exact (hother _ _ ‹_› rfl).elim
      · rfl
    rw [hkept hsame]
    exact gives_pure _

/-- What a deletion leaves. -/
def Heap.removed (h : Heap) (r : Ref) (k : Key) : Heap :=
  if (h.ownSlot? r k).any Slot.configurable then h.erase r k else h

/-- **Deleting**: what is not there need not be deleted, and what is fixed cannot be. -/
theorem gives_delete (hs : h.IsStore r levels) (hd : 1 ≤ depth) :
    (Machine.ofDepth library depth (.delete r k)).Gives act h
      ((h.ownSlot? r k).all Slot.configurable) (h.removed r k) := by
  rw [Heap.removed]
  obtain ⟨d, rfl⟩ := Nat.exists_eq_add_of_le' hd
  refine gives_onProxy (hs.ordinary r List.mem_cons_self) ?_
  cases hown : h.ownSlot? r k with
  | none =>
    refine (gives_inspect _).bind ?_
    rw [hown]
    exact gives_pure _
  | some s =>
    obtain ⟨o, ho⟩ := hs.exists_object
    rw [Option.all_some, Option.any_some]
    cases hc : s.configurable with
    | true => exact gives_deleteFrom ho hown hc
    | false =>
      refine (gives_inspect _).bind ?_
      rw [hown]
      dsimp only
      rw [hc, if_neg Bool.false_ne_true]
      exact gives_pure _

/-- A deletion leaves a store, -/
theorem Heap.IsStore.removed (hs : h.IsStore r levels) (k : Key) :
    (h.removed r k).IsStore r levels := by
  rw [Heap.removed]
  split
  · exact hs.erase k
  · exact hs

/-- in which nothing else is found under other keys, -/
theorem Heap.IsStore.found_removed_of_ne (hs : h.IsStore r levels) {k' : Key} (hne : k' ≠ k) :
    (h.removed r k).found (r :: levels) k' = h.found (r :: levels) k' := by
  rw [Heap.removed]
  split
  · exact hs.found_erase_of_ne hne
  · rfl

/-- and which has no property of its own under this one, if that may go. -/
theorem Heap.IsStore.ownSlot?_removed (hs : h.IsStore r levels)
    (hfree : (h.ownSlot? r k).all Slot.configurable = true) :
    (h.removed r k).ownSlot? r k = none := by
  rw [Heap.removed]
  cases hown : h.ownSlot? r k with
  | none => exact hown
  | some s =>
    rw [hown] at hfree
    obtain ⟨o, ho⟩ := hs.exists_object
    rw [Option.all_some] at hfree
    rw [Option.any_some, if_pos hfree]
    refine Heap.ownSlot?_erase_self ho ?_
    have hunit := Heap.isUnit_of_ownSlot? fun s' hs' => by
      rw [hown] at hs'
      exact .inr (Option.some.inj hs' ▸ hfree)
    rwa [Heap.object_eq_of_getElem? ho] at hunit

end Deleting

end ScriptBoundary.Script
