import Mathlib
import ScriptBoundary.Proofs.Outcome
import ScriptBoundary.Proofs.Realms

/-!
# Global names

A script runs in a realm, and two things about it depend on which one that is. What it declares with
`var` or as a function becomes a property of the global object of the realm, and a name that no
scope knows is looked up there, `globalThis` among them.

Neither calls the host on the way, so what both come to is said with `Comp.Gives` and `Comp.Ends`.

## Main results

* `ends_declareGlobals`: what a script declares is on the global object of its realm before its
  first statement runs, and no object but that one has changed
* `gives_evalName`: a script that is a name gives what the realm shows under it
-/

namespace ScriptBoundary.Script

open Script.Comp

variable {α : Type} {act : Activation} {h h₁ h₂ : Heap} {realm : Ref} {code : ScriptCode}
  {names : List String} {o : Object}

/-! ## What a script declares -/

theorem gives_globalObjectOf : (globalObjectOf realm).Gives act h (h.globalAt realm) h :=
  (gives_inspect _).bind (gives_pure _)

namespace Heap

/-- What putting a property on an object does: to that object, -/
theorem getElem?_putSlot {r : Ref} (ho : h.cells[r]? = some (.object o)) (k : Key) (s : Slot) :
    (h.apply (.putSlot r k s)).1.cells[r]? = some (.object (o.put k s)) := by
  rw [apply, updateObject]
  dsimp only
  rw [Array.getElem?_modify, if_pos rfl, ho]
  rfl

/-- and to any other cell. -/
theorem getElem?_putSlot_of_ne {r q : Ref} (hq : q ≠ r) (k : Key) (s : Slot) :
    (h.apply (.putSlot r k s)).1.cells[q]? = h.cells[q]? := by
  rw [apply, updateObject]
  dsimp only
  rw [Array.getElem?_modify, if_neg hq.symm]

end Heap

/-- Making a function adds objects and changes none. -/
theorem ends_newNamedClosure (act : Activation) (h : Heap) (scope : Ref) (code : Code) :
    (newNamedClosure scope code).Ends act h fun _ h' => h.Extends h' := by
  rw [newNamedClosure]
  unfold newClosure
  split
  · next info params functions body =>
    refine gives_activation.andThen ((gives_intrinsic _).andThen ?_)
    dsimp only
    split
    · -- The prototype that comes with it is linked to it afterwards.
      refine gives_newPlain.andThen ((gives_newObject _ _ _).andThen
        ((gives_performOnly _).andThen ((gives_pure _).ends ?_)))
      intro r c hc
      have hne : r ≠ h.cells.size := Nat.ne_of_lt (Array.getElem?_eq_some_iff.mp hc).1
      rw [Heap.getElem?_putSlot_of_ne hne]
      exact (h.extends_add _).trans (Heap.extends_add _ _) r c hc
    · exact (gives_newObject _ _ _).ends (h.extends_add _)
  · exact gives_newPlain.ends (h.extends_add _)

/-- Whether a function can be declared where a property stands already. -/
def Slot.isRenewable (s : Slot) : Bool :=
  s.configurable || (!s.isAccessor && s.isWritable && s.enumerable)

/-- Such a property takes another value, and stays such a property. -/
theorem Slot.isRenewable_redefined {s : Slot} (hs : s.isRenewable = true) (v : Value) :
    ({ value := some v : Descriptor }).isAllowedOver s = true
      ∧ (({ value := some v : Descriptor }).layOver s).isRenewable = true := by
  obtain ⟨content, enumerable, configurable⟩ := s
  cases content <;> cases configurable <;>
    simp_all [isRenewable, Descriptor.isAllowedOver, Descriptor.layOver, isAccessor, isWritable,
      Descriptor.isAccessor, Descriptor.isData]

/-- The names of a script that become properties of the global object. -/
def ScriptCode.properties (code : ScriptCode) : List String :=
  code.functions.map Code.functionName ++ code.varNames

/-- Whether a realm takes what a script declares: none of the names is one of its global `let`,
`const` and `class` names, and what stands on the global object makes way. -/
structure ScriptCode.Fits (code : ScriptCode) (s : Scope) (o : Object) : Prop where
  free : ∀ name ∈ code.lexicals.map (·.1) ++ code.properties, s.find? name = none
  lexical : ∀ l ∈ code.lexicals, ∀ t, o.slot? (Key.ofString l.1) = some t → t.configurable = true
  renewable : ∀ fn ∈ code.functions, ∀ t,
    o.slot? (Key.ofString fn.functionName) = some t → t.isRenewable = true
  extensible : o.extensible = true

/-- Whether a heap comes of another one by declaring names of a script in a realm: they are
properties of the global object, and what belongs to no script of the realm is as it was. -/
structure Heap.Declares (h : Heap) (realm : Ref) (code : ScriptCode) (names : List String)
    (h' : Heap) (o : Object) : Prop where
  other : ∀ r c, h.cells[r]? = some c → r ≠ h.globalAt realm → r ≠ (h.realm realm).scope →
    h'.cells[r]? = some c
  global : h'.cells[h.globalAt realm]? = some (.object o)
  plain : o.nature = .plain
  extensible : o.extensible = true
  renewable : ∀ fn ∈ code.functions, ∀ t,
    o.slot? (Key.ofString fn.functionName) = some t → t.isRenewable = true
  shown : ∀ name ∈ names, (o.slot? (Key.ofString name)).isSome

namespace Heap.Declares

theorem start {s : Scope} (hr : h.Houses realm s o) (hfits : code.Fits s o) :
    h.Declares realm code [] h o :=
  ⟨fun _ _ hc _ _ => hc, hr.global, hr.plain, hfits.extensible, hfits.renewable, nofun⟩

theorem ownSlot? (hd : h.Declares realm code names h₁ o) (k : Key) :
    h₁.ownSlot? (h.globalAt realm) k = o.slot? k :=
  ownSlot?_of_plain hd.global hd.plain k

theorem object_eq (hd : h.Declares realm code names h₁ o) :
    h₁.object (h.globalAt realm) = o := by
  rw [object, hd.global]

/-- New cells do no harm. -/
theorem mono (hd : h.Declares realm code names h₁ o) (hh : h₁.Extends h₂) :
    h.Declares realm code names h₂ o :=
  { hd with
    other := fun r c hc hg hs => hh r c (hd.other r c hc hg hs)
    global := hh _ _ hd.global }

/-- Nor do names that the scope of the realm gets. -/
theorem bind (hd : h.Declares realm code names h₁ o) (b : Binding) :
    h.Declares realm code names (h₁.apply (.bind (h.realm realm).scope b)).1 o := by
  have hkeeps : ∀ r c, h₁.cells[r]? = some c → (r = (h.realm realm).scope → ∃ o, c = .object o) →
      (h₁.apply (.bind (h.realm realm).scope b)).1.cells[r]? = some c := by
    intro r c hc hobject
    rw [apply, updateScope]
    dsimp only
    rw [Array.getElem?_modify, hc]
    split
    · next hr =>
      obtain ⟨o, rfl⟩ := hobject hr.symm
      rfl
    · rfl
  exact { hd with
    other := fun r c hc hg hs => hkeeps r c (hd.other r c hc hg hs) fun hr => absurd hr hs
    global := hkeeps _ _ hd.global fun _ => ⟨o, rfl⟩ }

/-- A name that is a property already is declared. -/
theorem there (hd : h.Declares realm code names h₁ o) {name : String}
    (hslot : (o.slot? (Key.ofString name)).isSome) :
    h.Declares realm code (names ++ [name]) h₁ o := by
  refine { hd with shown := fun name' hname' => ?_ }
  rcases List.mem_append.mp hname' with hname' | hname'
  · exact hd.shown name' hname'
  · rwa [List.mem_singleton.mp hname']

/-- **A name is declared** by putting a property. -/
theorem put (hd : h.Declares realm code names h₁ o) (name : String) {t : Slot}
    (ht : t.isRenewable = true) : h.Declares realm code (names ++ [name])
      (h₁.apply (.putSlot (h.globalAt realm) (Key.ofString name) t)).1
      (o.put (Key.ofString name) t) := by
  refine ⟨fun r c hc hg hs => ?_, getElem?_putSlot hd.global _ _, hd.plain, hd.extensible,
    fun fn hfn t' ht' => ?_, fun name' hname' => ?_⟩
  · rw [getElem?_putSlot_of_ne hg]
    exact hd.other r c hc hg hs
  · rw [Object.slot?_put (Object.isUnit_of_plain hd.plain _)] at ht'
    split at ht'
    · exact Option.some.inj ht' ▸ ht
    · exact hd.renewable fn hfn t' ht'
  · rw [Object.slot?_put (Object.isUnit_of_plain hd.plain _)]
    split
    · rfl
    · next hne =>
      rcases List.mem_append.mp hname' with hname' | hname'
      · exact hd.shown name' hname'
      · exact absurd (congrArg Key.ofString (List.mem_singleton.mp hname')) hne

/-- Declaring a variable. -/
theorem ends_var (hd : h.Declares realm code names h₁ o) (name : String) :
    (do
      if (← Script.ownSlot (h.globalAt realm) (Key.ofString name)).isNone
          && (← readObject (h.globalAt realm)).extensible then
        performOnly (.putSlot (h.globalAt realm) (Key.ofString name)
          ⟨.data .undefined true, true, false⟩)
      : Comp Unit).Ends act h₁ fun _ h₂ => ∃ o₂, h.Declares realm code (names ++ [name]) h₂ o₂ := by
  refine (gives_inspect _).andThen ((gives_inspect _).andThen ?_)
  rw [hd.ownSlot?, hd.object_eq, hd.extensible]
  cases hslot : o.slot? (Key.ofString name) with
  | some t => exact (gives_pure ()).ends ⟨o, hd.there (hslot ▸ rfl)⟩
  | none => exact (gives_performOnly _).ends ⟨_, hd.put name rfl⟩

/-- Defining the value of a property that makes way. -/
theorem ends_redefine (hd : h.Declares realm code names h₁ o) (name : String) {t : Slot}
    (hslot : o.slot? (Key.ofString name) = some t) (ht : t.isRenewable = true) (v : Value) :
    (defineOrdinary (h.globalAt realm) (Key.ofString name) { value := some v }).Ends act h₁
      fun _ h₂ => ∃ o₂, h.Declares realm code (names ++ [name]) h₂ o₂ := by
  obtain ⟨hallowed, hrenewed⟩ := Slot.isRenewable_redefined ht v
  rw [defineOrdinary]
  refine (gives_inspect _).andThen ?_
  rw [hd.ownSlot?, hslot]
  dsimp only
  rw [if_pos hallowed]
  exact (gives_performOnly _).andThen ((gives_pure true).ends ⟨_, hd.put name hrenewed⟩)

/-- Declaring a function. -/
theorem ends_function (hd : h.Declares realm code names h₁ o) (scope : Ref) {fn : Code}
    (hfn : fn ∈ code.functions) :
    (do
      let k := Key.ofString fn.functionName
      let r ← newNamedClosure scope fn
      let fresh ← (do
        match ← Script.ownSlot (h.globalAt realm) k with
        | none => return true
        | some s => return s.configurable : Comp Bool)
      if fresh then
        performOnly (.putSlot (h.globalAt realm) k ⟨.data (.object r) true, true, false⟩)
      else
        let _ ← defineOrdinary (h.globalAt realm) k { value := some (.object r) }
      : Comp Unit).Ends act h₁ fun _ h₂ =>
        ∃ o₂, h.Declares realm code (names ++ [fn.functionName]) h₂ o₂ := by
  refine (ends_newNamedClosure act h₁ scope fn).bind fun r h₂ hext => ?_
  have hd₂ := hd.mono hext
  have hfresh : (do
      match ← Script.ownSlot (h.globalAt realm) (Key.ofString fn.functionName) with
      | none => return true
      | some s => return s.configurable : Comp Bool).Gives act h₂
        ((o.slot? (Key.ofString fn.functionName)).elim true Slot.configurable) h₂ := by
    refine (gives_inspect _).bind ?_
    rw [hd₂.ownSlot?]
    cases o.slot? (Key.ofString fn.functionName) <;> exact gives_pure _
  refine hfresh.andThen ?_
  split
  · exact (gives_performOnly _).ends ⟨_, hd₂.put _ rfl⟩
  · next hnot =>
    -- A property that is not configurable is there, and its value can be written.
    cases hslot : o.slot? (Key.ofString fn.functionName) with
    | none =>
      rw [hslot] at hnot
      exact absurd rfl hnot
    | some t =>
      refine (hd₂.ends_redefine _ hslot (hd.renewable fn hfn t hslot) _).bind fun _ h₃ hd₃ => ?_
      exact (gives_pure ()).ends hd₃

end Heap.Declares

/-- **What a script declares** is on the global object of its realm once it is declared, and no
object but that one has changed. -/
theorem ends_declareGlobals {s : Scope} (hr : h.Houses realm s o) (hfits : code.Fits s o) :
    (declareGlobals code realm).Ends act h fun _ h' =>
      ∃ o', h.Declares realm code code.properties h' o' := by
  have hfree : ∀ name ∈ code.lexicals.map (·.1) ++ code.properties,
      (do return ((← readScope (h.realm realm).scope).find? name).isSome : Comp Bool).Gives act h
        false h := by
    intro name hname
    refine (gives_inspect _).bind ?_
    rw [hr.scope_eq, hfits.free name hname]
    exact gives_pure false
  have hslot : ∀ k, (Script.ownSlot (h.globalAt realm) k).Gives act h (o.slot? k) h := by
    intro k
    rw [← Heap.ownSlot?_of_plain hr.global hr.plain]
    exact gives_inspect _
  rw [declareGlobals]
  refine (gives_inspect _).andThen (gives_globalObjectOf.andThen ?_)
  -- None of the names is taken.
  refine (gives_forList ?_).andThen ((gives_forList ?_).andThen ((gives_forList ?_).andThen ?_))
  · rintro ⟨name, immutable⟩ hl
    have hmem : name ∈ code.lexicals.map (·.1) := List.mem_map_of_mem hl
    refine (hfree name (List.mem_append_left _ hmem)).bind ?_
    refine (hslot _).bind ?_
    cases ht : o.slot? (Key.ofString name) with
    | none => exact gives_pure ()
    | some t =>
      dsimp only
      rw [if_pos (hfits.lexical _ hl t ht)]
      exact gives_pure ()
  · intro name hname
    exact (hfree name (List.mem_append_right _ hname)).bind (gives_pure ())
  · intro name hname
    obtain ⟨fn, hfn, rfl⟩ := List.mem_map.mp hname
    refine (hslot _).bind ?_
    cases ht : o.slot? (Key.ofString fn.functionName) with
    | none =>
      refine (gives_inspect _).bind ?_
      rw [hr.object_eq, hfits.extensible]
      exact gives_pure ()
    | some t =>
      have hway : (t.configurable || (!t.isAccessor && t.isWritable && t.enumerable)) = true :=
        hfits.renewable fn hfn t ht
      dsimp only
      rw [if_pos hway]
      exact gives_pure ()
  · -- The names without a property go to the scope of the realm,
    refine (ends_forList (P := fun _ h₁ => ∃ o₁, h.Declares realm code [] h₁ o₁) ?_ []
      ⟨o, .start hr hfits⟩).bind fun _ h₁ hbound => ?_
    · rintro - b h₁ ⟨o₁, hd⟩ -
      exact (gives_performOnly _).ends ⟨o₁, hd.bind b⟩
    -- then come the functions,
    refine (ends_forList (P := fun fns h₂ => ∃ o₂,
        h.Declares realm code (fns.map Code.functionName) h₂ o₂) ?_ [] hbound).bind
      fun _ h₂ hmade => ?_
    · rintro fns fn h₂ ⟨o₂, hd⟩ hfn
      rw [List.map_append]
      exact hd.ends_function _ hfn
    -- and then the variables.
    refine ends_forList (P := fun names h₃ => ∃ o₃,
      h.Declares realm code (code.functions.map Code.functionName ++ names) h₃ o₃) ?_ [] ?_
    · rintro names name h₃ ⟨o₃, hd⟩ -
      rw [← List.append_assoc]
      exact hd.ends_var name
    · rwa [List.append_nil]

/-- What a script does once its names are declared. -/
def ScriptCode.body (code : ScriptCode) (scope : Ref) : Comp Value :=
  Comp.within (fun act => { act with frames := act.frames + 1, slots := act.slots + 2 }) do
    let f : Frame := ⟨scope, ← perform .newTally, code.strict⟩
    return ((← machine.execList f none code.stmts).value?).getD .undefined

theorem evalScript_eq (code : ScriptCode) : evalScript code = (do
    let realm := (← activation).realm
    let scope := (← inspect (·.realm realm)).scope
    declareGlobals code realm
    code.body scope) := rfl

/-- A script comes to the point where its names are declared and its first statement begins. -/
theorem steps_evalScript {s : Scope} (hr : h.Houses act.realm s o) (hfits : code.Fits s o) :
    ∃ h' o', h.Declares act.realm code code.properties h' o' ∧
      ∀ {σ : Type} (host : Boundary.Host σ) (n : Nat) (t : Boundary.State σ)
        (next : Completion Value → Program), t.world.heap = h →
        Boundary.Steps host n (evalScript code act next) t []
          (code.body (h.realm act.realm).scope act next) (t.withHeap h') := by
  obtain ⟨⟨⟩, h', hdeclared, o', ho'⟩ : (declareGlobals code act.realm).Ends act h fun _ h' =>
    ∃ o', h.Declares act.realm code code.properties h' o' := ends_declareGlobals hr hfits
  refine ⟨h', o', ho', ?_⟩
  rintro σ host n t next rfl
  exact .look (hdeclared.steps host n t _ rfl)

/-! ## What a script finds under a name -/

section Names

variable {name : String} {v : Value}

theorem gives_onProxy {r : Ref} {proxy : Option (Ref × Ref) → Comp α} {ordinary : Comp α} {a : α}
    (hr : (h.object r).isOrdinary = true) (ho : ordinary.Gives act h a h₁) :
    (Machine.onProxy r proxy ordinary).Gives act h a h₁ := by
  refine (gives_inspect _).bind ?_
  split
  · next hnature =>
    rw [Object.isOrdinary, hnature] at hr
    cases hr
  · exact ho

/-- A name that no scope knows is looked up on the global object of the realm. -/
theorem gives_readName (library : Builtins) (depth : Nat) {f : Frame}
    (hscope : f.scope = (h.realm realm).scope) (hs : h.Shows realm name v) :
    (Machine.readName (.ofDepth library (depth + 1)) f name).Gives act h v h := by
  obtain ⟨s, o, t, w, hr, hfree, hslot, hcontent⟩ := hs
  have hordinary : (h.object (h.globalAt realm)).isOrdinary = true := by
    rw [hr.object_eq, Object.isOrdinary, hr.plain]
  have hown : h.ownSlot? (h.globalAt realm) (Key.ofString name) = some t :=
    (Heap.ownSlot?_of_plain hr.global hr.plain _).trans hslot
  have hplace : (placeOf f name).Gives act h (.global realm) h := by
    have hat : h.placeOf name (h.cells.size + 1) f.scope = .global realm := by
      rw [hscope, Heap.placeOf, hr.scope_eq]
      simp only [hfree, hr.leads]
    rw [← hat]
    exact gives_inspect _
  have hhas : (Machine.has (.ofDepth library (depth + 1)) (h.globalAt realm)
      (Key.ofString name)).Gives act h true h := by
    refine gives_onProxy hordinary ((gives_inspect _).bind ?_)
    rw [hown]
    exact gives_pure true
  have hget : (Machine.get (.ofDepth library (depth + 1)) (h.globalAt realm)
      (Key.ofString name)).Gives act h v h := by
    refine gives_onProxy hordinary ((gives_inspect _).bind ?_)
    rw [hown]
    dsimp only
    rw [Machine.readSlot, hcontent]
    exact gives_pure v
  have hread : (Machine.readName? (.ofDepth library (depth + 1)) f name).Gives act h (some v) h :=
    hplace.bind (gives_globalObjectOf.bind (hhas.bind (hget.bind (gives_pure _))))
  exact hread.bind (gives_pure v)

/-- **A script that is a name** gives what its realm shows under that name. -/
theorem gives_evalName (hs : h.Shows act.realm name v) :
    (evalScript ⟨false, [], [], [], [.expr (.ident name)]⟩).Gives act h v (h.add (.tally 0)).1 := by
  obtain ⟨depth, hdepth⟩ : ∃ depth, machineDepth = depth + 3 := ⟨999999997, rfl⟩
  have hdeclared : (declareGlobals ⟨false, [], [], [], [.expr (.ident name)]⟩ act.realm).Gives
      act h () h := by
    refine (gives_inspect _).bind (gives_globalObjectOf.bind ?_)
    exact (gives_pure ()).bind ((gives_pure ()).bind ((gives_pure ()).bind ((gives_pure ()).bind
      ((gives_pure ()).bind (gives_pure ())))))
  let f : Frame := ⟨(h.realm act.realm).scope, h.cells.size, false⟩
  let inside : Activation := { act with frames := act.frames + 1, slots := act.slots + 2 }
  have hext : h.Extends (h.add (.tally 0)).1 := h.extends_add _
  have hscope : f.scope = ((h.add (.tally 0)).1.realm act.realm).scope := by
    obtain ⟨s, o, t, w, hr, -⟩ := hs
    rw [hr.realm_mono hext]
  have hexec : (machine.exec f (.expr (.ident name))).Gives inside (h.add (.tally 0)).1
      (.normal (some v)) (h.add (.tally 0)).1 := by
    rw [Machine.exec, machine, hdepth]
    exact (gives_readName Builtin.find? depth hscope (hs.mono hext)).bind (gives_pure _)
  have hlist : (machine.execList f none [.expr (.ident name)]).Gives inside (h.add (.tally 0)).1
      (.normal (some v)) (h.add (.tally 0)).1 :=
    hexec.bind (gives_pure _)
  rw [evalScript_eq]
  refine gives_activation.bind ((gives_inspect _).bind (hdeclared.bind ?_))
  refine Gives.within ((gives_perform .newTally).bind ?_)
  exact hlist.bind (gives_pure _)

theorem parse?_globalThis : ScriptCode.parse? "globalThis" =
    some ⟨false, [], [], [], [.expr (.ident "globalThis")]⟩ := by
  cbv

theorem gives_globalThis (hs : h.NamesItself act.realm) : (evalSource "globalThis").Gives act h
    (.object (h.globalAt act.realm)) (h.add (.tally 0)).1 := by
  rw [evalSource, parse?_globalThis]
  exact gives_evalName hs

end Names

end ScriptBoundary.Script
