import ScriptBoundary.Proofs.Realms
import ScriptBoundary.Proofs.Transplant

/-!
# The same realm elsewhere

A realm is laid out as a block of cells that differs from one realm to the next only in where it
stands. So the first realm of a heap of its own stands in any other heap to which a realm was added,
along the embedding that shifts all addresses (`Embedding.shift`).

A realm is built by putting properties into tables one after the other. `Props.Laid` goes with each
of these steps: it says of two tables that the second one is the first one carried along, and that
the first one has only addresses of the block.

## Main results

* `Heap.embeds_addRealm`: the first realm of an empty heap in any other heap
-/

namespace ScriptBoundary.Script

/-- Shifting all addresses, and the numbers of all instances. -/
def Embedding.shift (base home : Nat) : Embedding := ⟨fun r => base + r, .refl Nat, home⟩

namespace Embedding

variable (base home : Nat)

@[simp] theorem shift_ref (r : Ref) : (shift base home).ref r = base + r := rfl

@[simp] theorem key_shift (k : Key) : (shift base home).key k = k := by cases k <;> rfl

end Embedding

/-! ## The keys of built-in functions -/

section Keys

open Builtin

variable {Z : Zone} (owner : Intrinsic) (path : String) (length : Nat)
  (run : Machine → BuiltinCall → Comp Value)

theorem fits_method : (method owner path length run).key.Fits Z := by
  simp only [method, Key.fits_ofString]

theorem fits_constructor (proto : Option Intrinsic) :
    (constructor owner proto path length run).key.Fits Z := by
  simp only [constructor, Key.fits_ofString]

theorem fits_symbolMethod {s : Symbol} :
    (symbolMethod owner path s length run).key.Fits Z ↔ s.Fits Z := by
  rw [symbolMethod]
  rfl

theorem fits_getter {k : Key} : (getter owner path k run).key.Fits Z ↔ k.Fits Z := by
  rw [getter]

theorem fits_setter {k : Key} : (setter owner path k run).key.Fits Z ↔ k.Fits Z := by
  rw [setter]

/-- The keys of built-in functions are names, or symbols that every realm shares. The strings they
are made from are never looked at. -/
theorem Builtin.fits_key (hZ : Symbol.firstFresh ≤ Z.symbols) :
    ∀ b ∈ Builtin.all, b.key.Fits Z := by
  have hshared : ∀ s : Symbol, s.id < Symbol.firstFresh → s.Fits Z :=
    fun s hs => Nat.lt_of_lt_of_le hs hZ
  have hspecies : (Key.symbol Symbol.species).Fits Z := hshared _ (by decide)
  simp only [Builtin.all, objects, functions, errors, symbols, arrays, iterators, texts, numbers,
    mathematics, dates, dateParts, collections, reflection, List.forall_mem_append,
    List.forall_mem_flatMap, List.forall_mem_cons, List.not_mem_nil, false_imp_iff, implies_true,
    ↓errorConstructor, ↓ofNumber, ↓dateText, ↓datePart, ↓collection, ↓fits_method,
    ↓fits_constructor, ↓fits_symbolMethod, ↓fits_getter, ↓fits_setter, Key.fits_ofString, hspecies,
    hshared Symbol.hasInstance (by decide), hshared Symbol.iterator (by decide),
    hshared Symbol.toPrimitive (by decide), and_self]

end Keys

/-! ## Laying out a realm -/

/-- Two tables, the second of which is the first one carried along, and the first in a zone. -/
structure Props.Laid (Z : Zone) (f : Embedding) (ps ps' : Props) : Prop where
  fits : ps.Fits Z
  eq : ps' = f.props ps

namespace Realm

open Script.Embedding (shift)

/-- The cells of a realm that begins at the first address. -/
def zone : Zone :=
  ⟨{r | r < Intrinsic.count + Builtin.unnamed.length + 2}, Symbol.firstFresh,
    {Intrinsic.count + Builtin.unnamed.length + 1}⟩

variable (base home : Nat)

theorem at_mem (i : Intrinsic) : i.at' 0 ∈ zone.refs := by
  have hlt : i.ctorIdx < Intrinsic.count := by cases i <;> decide
  show 0 + i.ctorIdx < Intrinsic.count + Builtin.unnamed.length + 2
  omega

theorem at_shift (i : Intrinsic) : i.at' base = (shift base home).ref (i.at' 0) := by
  simp [Intrinsic.at']

section Laid

variable {base home : Nat} {ps ps' : Props} {k : Key} {s s' : Slot}

theorem laid_insert (h : Props.Laid zone (shift base home) ps ps') (hk : k.Fits zone)
    (hs : s.Fits zone) (hs' : s' = (shift base home).slot s) :
    Props.Laid zone (shift base home) (ps.insert k s) (ps'.insert k s') := by
  refine ⟨h.fits.insert hk hs, ?_⟩
  rw [h.eq, hs', ← Props.insert_embed, Embedding.key_shift]

/-- Laying properties one after the other, each of which may depend on what is there already. -/
theorem laid_foldl {α β : Type} {key : α → Key} {slot : Props → α → Slot}
    {key' : β → Key} {slot' : Props → β → Slot} {g : α → β} {as : List α}
    (hkey : ∀ a ∈ as, key' (g a) = key a ∧ (key a).Fits zone)
    (hslot : ∀ a ∈ as, ∀ ps ps', Props.Laid zone (shift base home) ps ps' →
      (slot ps a).Fits zone ∧ slot' ps' (g a) = (shift base home).slot (slot ps a))
    (h : Props.Laid zone (shift base home) ps ps') :
    Props.Laid zone (shift base home) (as.foldl (fun ps a => ps.insert (key a) (slot ps a)) ps)
      ((as.map g).foldl (fun ps b => ps.insert (key' b) (slot' ps b)) ps') := by
  induction as generalizing ps ps' with
  | nil => exact h
  | cons a as ih =>
    obtain ⟨hk, hfits⟩ := hkey a List.mem_cons_self
    obtain ⟨hs, hs'⟩ := hslot a List.mem_cons_self ps ps' h
    rw [List.map_cons, List.foldl_cons, List.foldl_cons, hk]
    exact ih (fun a ha => hkey a (List.mem_cons_of_mem _ ha))
      (fun a ha => hslot a (List.mem_cons_of_mem _ ha)) (laid_insert h hfits hs hs')

end Laid

/-! ## Parts of a realm -/

theorem fields_shift (i : Intrinsic) :
    i.fields base = (i.fields 0).map fun p => (p.1, (shift base home).slot p.2) := by
  cases i <;> rfl

/-- The symbols that every realm shares are in all zones. -/
private theorem fits_wellKnown : ∀ p ∈ Symbol.wellKnowns, p.2.Fits zone := by
  show ∀ p ∈ Symbol.wellKnowns, p.2.id < Symbol.firstFresh
  decide

theorem fits_fields (i : Intrinsic) : ∀ p ∈ i.fields 0, p.1.Fits zone ∧ p.2.Fits zone := by
  have hkey : ∀ s, (Key.ofString s).Fits zone := Key.fits_ofString
  have htag : (Key.symbol .toStringTag).Fits zone := show 1 < 16 by decide
  have hiterator : (Key.symbol .iterator).Fits zone := show 2 < 16 by decide
  cases i with
  | symbolConstructor =>
    intro p hp
    obtain ⟨⟨name, s⟩, hs, rfl⟩ := List.mem_map.mp hp
    exact ⟨hkey name, fits_wellKnown _ hs⟩
  | _ =>
    simp [Intrinsic.fields, Intrinsic.errorFields, Intrinsic.tag, Intrinsic.constant, hkey, htag,
      hiterator, at_mem, Key.length, Slot.Fits, Slot.hidden, Slot.fixed, Slot.readOnly, Value.Fits,
      Value.ofString]

/-- Where the built-in functions are. -/
theorem placed_shift : placed base = (placed 0).map fun p => (p.1, (shift base home).ref p.2) := by
  have hcell : ∀ i b, cellOf base i b = (shift base home).ref (cellOf 0 i b) := by
    intro i b
    rw [cellOf, cellOf]
    split
    · exact at_shift base home _
    · show base + Intrinsic.count + i = base + (0 + Intrinsic.count + i)
      omega
  simp only [placed, List.map_append, List.map_map, hcell]
  rfl

theorem placed_mem : ∀ p ∈ placed 0, p.2 ∈ zone.refs := by
  intro p hp
  simp only [placed, List.mem_append, List.mem_map] at hp
  obtain ⟨b, hb, rfl⟩ | ⟨⟨b, i⟩, hb, rfl⟩ := hp
  · obtain ⟨i, hi⟩ := Option.isSome_iff_exists.mp (List.mem_filter.mp hb).2
    rw [cellOf, hi]
    exact at_mem i
  · have hi : i < Builtin.unnamed.length := List.snd_lt_of_mem_zipIdx hb
    rw [cellOf]
    split
    · exact at_mem _
    · show 0 + Intrinsic.count + i < Intrinsic.count + Builtin.unnamed.length + 2
      omega

/-- The property of its owner that a built-in function is. -/
theorem laid_ownerSlot {present : Option Slot} (hp : ∀ s ∈ present, s.Fits zone) (b : Builtin)
    {r : Ref} (hr : r ∈ zone.refs) : (ownerSlot present b r).Fits zone
      ∧ ownerSlot (present.map (shift base home).slot) b ((shift base home).ref r) =
        (shift base home).slot (ownerSlot present b r) := by
  have hobject : (Value.object r).Fits zone := hr
  have hundefined : Value.undefined.Fits zone := trivial
  cases present with
  | none =>
    simp only [ownerSlot, Option.map_none]
    cases b.role with
    | getter => exact ⟨⟨hobject, hundefined⟩, rfl⟩
    | setter => exact ⟨⟨hundefined, hobject⟩, rfl⟩
    | _ => exact ⟨hobject, rfl⟩
  | some s =>
    have hs := hp s rfl
    obtain ⟨⟨v, w⟩ | ⟨g, t⟩, e, c⟩ := s <;> simp only [ownerSlot, Option.map_some, Embedding.slot]
    · cases b.role with
      | getter => exact ⟨⟨hobject, hundefined⟩, rfl⟩
      | setter => exact ⟨⟨hundefined, hobject⟩, rfl⟩
      | _ => exact ⟨hobject, rfl⟩
    · cases b.role with
      | getter => exact ⟨⟨hobject, hs.2⟩, rfl⟩
      | setter => exact ⟨⟨hs.1, hobject⟩, rfl⟩
      | _ => exact ⟨hobject, rfl⟩

theorem links_shift (i : Intrinsic) : links (placed base) base i =
    (links (placed 0) 0 i).map fun p => (p.1, (shift base home).slot p.2) := by
  rw [placed_shift base home, links, links, List.filterMap_map, List.map_filterMap]
  refine List.filterMap_congr fun p _ => ?_
  obtain ⟨b, r⟩ := p
  simp only [Function.comp_apply]
  cases b.role with
  | constructor self proto =>
    cases proto with
    | none => rfl
    | some proto =>
      dsimp only
      split
      · simp [at_shift base home proto, Slot.fixed, Embedding.slot, Embedding.value]
      · split <;> rfl
  | _ => rfl

theorem fits_links (i : Intrinsic) :
    ∀ p ∈ links (placed 0) 0 i, p.1.Fits zone ∧ p.2.Fits zone := by
  intro p hp
  obtain ⟨⟨b, r⟩, hb, hbp⟩ := List.mem_filterMap.mp hp
  dsimp only at hbp
  split at hbp
  · split at hbp
    · exact Option.some.inj hbp ▸ ⟨Key.fits_ofString "prototype", at_mem _⟩
    · split at hbp
      · exact Option.some.inj hbp ▸ ⟨Key.fits_ofString "constructor", placed_mem _ hb⟩
      · cases hbp
  · cases hbp

/-! ## The cells of a realm -/

/-- Where a realm has itself. -/
def self (base : Ref) : Ref := base + Intrinsic.count + Builtin.unnamed.length + 1

theorem mem_zone {r : Ref} :
    r ∈ zone.refs ↔ r < Intrinsic.count + Builtin.unnamed.length + 2 := Iff.rfl

theorem self_zero : self 0 = Intrinsic.count + Builtin.unnamed.length + 1 := by
  rw [self, Nat.zero_add]

theorem hasRealm_self : zone.HasRealm (self 0) := by
  rw [self_zero]
  exact ⟨mem_zone.mpr (Nat.add_lt_add_left (by decide : 1 < 2) _), Set.mem_singleton _⟩

theorem self_shift : self base = (shift base home).ref (self 0) := by
  simp only [self, Embedding.shift_ref, Nat.zero_add, Nat.add_assoc]

theorem functionObject_shift (b : Builtin) (parent : Intrinsic) :
    functionObject base (self base) b parent =
      (shift base home).object (functionObject 0 (self 0) b parent) := by
  rw [functionObject, functionObject, self_shift base home, at_shift base home]
  simp [Embedding.object, Embedding.nature, Props.ofList_embed, functionProps, Embedding.slot,
    Slot.readOnly, Embedding.value, Value.ofNat]

theorem fits_functionObject (b : Builtin) (parent : Intrinsic) :
    (functionObject 0 (self 0) b parent).Fits zone := by
  refine ⟨hasRealm_self, fun r hr => Option.some.inj hr ▸ at_mem parent, .ofList fun p hp => ?_⟩
  simp only [functionProps, List.mem_cons, List.not_mem_nil, or_false] at hp
  obtain rfl | rfl := hp
  · exact ⟨Key.fits_ofString "length", trivial⟩
  · exact ⟨Key.fits_ofString "name", trivial⟩

/-- **An object with a name of its own** in a realm elsewhere. -/
theorem intrinsicObject_shift (i : Intrinsic) :
    intrinsicObject base (self base) (placed base) i =
      (shift base home).object (intrinsicObject 0 (self 0) (placed 0) i)
    ∧ (intrinsicObject 0 (self 0) (placed 0) i).Fits zone := by
  have hfind : (placed base).find? (fun p => p.1.cell? == some i) =
      ((placed 0).find? fun p => p.1.cell? == some i).map
        fun p => (p.1, (shift base home).ref p.2) := by
    rw [placed_shift base home, List.find?_map]
    rfl
  have hparent : i.parent?.map (·.at' base) =
      (i.parent?.map (·.at' 0)).map (shift base home).ref := by
    rw [Option.map_map]
    exact congrArg (Option.map · i.parent?) (funext (at_shift base home))
  have hfields : ∀ p ∈ i.fields 0 ++ links (placed 0) 0 i, p.1.Fits zone ∧ p.2.Fits zone := by
    intro p hp
    rcases List.mem_append.mp hp with hp | hp
    · exact fits_fields i p hp
    · exact fits_links i p hp
  have hmethods : methodsOf i (placed base) =
      (methodsOf i (placed 0)).map fun p => (p.1, (shift base home).ref p.2) := by
    rw [placed_shift base home, methodsOf, methodsOf, List.filter_map]
    rfl
  have hprops : ∀ own own' : Props, Props.Laid zone (shift base home) own own' →
      Props.Laid zone (shift base home)
        ((methodsOf i (placed 0)).foldl
          (fun (ps : Props) p => ps.insert p.1.key (ownerSlot (ps.find? p.1.key) p.1 p.2))
          ((i.fields 0 ++ links (placed 0) 0 i).foldl (fun ps p => ps.insert p.1 p.2) own))
        ((methodsOf i (placed base)).foldl
          (fun (ps : Props) p => ps.insert p.1.key (ownerSlot (ps.find? p.1.key) p.1 p.2))
          ((i.fields base ++ links (placed base) base i).foldl
            (fun ps p => ps.insert p.1 p.2) own')) := by
    intro own own' hown
    rw [hmethods, fields_shift base home, links_shift base home, ← List.map_append]
    refine laid_foldl (fun p hp => ⟨rfl, ?_⟩) (fun p hp ps ps' hps => ?_)
      (laid_foldl (fun p hp => ⟨rfl, (hfields p hp).1⟩)
        (fun p hp _ _ _ => ⟨(hfields p hp).2, rfl⟩) hown)
    · exact Builtin.fits_key le_rfl _ (mem_all_of_placed (List.mem_filter.mp hp).1)
    · have hpresent : ps'.find? p.1.key = (ps.find? p.1.key).map (shift base home).slot := by
        rw [hps.eq, ← Props.find?_embed, Embedding.key_shift]
      rw [hpresent]
      exact laid_ownerSlot base home hps.fits.find? p.1
        (placed_mem p (List.mem_filter.mp hp).1)
  have hproto : ∀ r ∈ i.parent?.map (·.at' 0), r ∈ zone.refs := by
    intro r hr
    obtain ⟨j, -, rfl⟩ := Option.map_eq_some_iff.mp hr
    exact at_mem j
  rw [intrinsicObject, intrinsicObject, hfind, hparent]
  cases (placed 0).find? fun p => p.1.cell? == some i with
  | none =>
    obtain ⟨hfits, heq⟩ := hprops ∅ ∅ ⟨.empty, (Embedding.props_empty _).symm⟩
    have hnature : (shift base home).nature i.nature = i.nature := by cases i <;> rfl
    refine ⟨?_, ?_, hproto, hfits⟩
    · show Object.mk _ _ true _ none = Object.mk _ _ true _ none
      rw [hnature]
      exact congrArg (Object.mk i.nature _ true · none) heq
    · cases i <;> trivial
  | some p =>
    have hfunction := functionObject_shift base home p.1 .functionPrototype
    obtain ⟨hfits, heq⟩ := hprops (functionObject 0 (self 0) p.1 .functionPrototype).props
      (functionObject base (self base) p.1 .functionPrototype).props
      ⟨(fits_functionObject p.1 .functionPrototype).props, congrArg Object.props hfunction⟩
    refine ⟨?_, hasRealm_self, hproto, hfits⟩
    have hmk : ∀ {n n' : Nature} {r : Option Ref} {ps ps' : Props}, n = n' → ps = ps' →
        Object.mk n r true ps none = Object.mk n' r true ps' none := by
      rintro _ _ _ _ _ rfl rfl
      rfl
    exact hmk (congrArg Object.nature hfunction) heq

/-- The cells of a realm, one after the other. -/
theorem cells_eq : cells base = (Intrinsic.all.map (fun i =>
      Cell.object (intrinsicObject base (self base) (placed base) i))
    ++ Builtin.unnamed.map (fun b =>
      Cell.object (functionObject base (self base) b .functionPrototype))
    ++ [Cell.scope ⟨#[], none, none, some (self base)⟩,
      Cell.realm ⟨base, base + Intrinsic.count + Builtin.unnamed.length,
        Intrinsic.count + Builtin.unnamed.length⟩]).toArray := by
  simp only [cells, self, List.append_toArray]

/-- **The cells of a realm** elsewhere. -/
theorem cells_shift : cells base = (cells 0).map (shift base home).cell := by
  have hscope : base + Intrinsic.count + Builtin.unnamed.length =
      base + (0 + Intrinsic.count + Builtin.unnamed.length) := by
    simp only [Nat.zero_add, Nat.add_assoc]
  rw [cells_eq, cells_eq 0, List.map_toArray, List.map_append, List.map_append, List.map_map,
    List.map_map]
  refine congrArg List.toArray (congr (congrArg HAppend.hAppend (congr (congrArg HAppend.hAppend
    (List.map_congr_left fun i _ => ?_)) (List.map_congr_left fun b _ => ?_))) ?_)
  · exact congrArg Cell.object (intrinsicObject_shift base home i).1
  · exact congrArg Cell.object (functionObject_shift base home b .functionPrototype)
  · rw [self_shift base home, hscope]
    simp [Embedding.cell, Embedding.scope, Embedding.realm]

theorem fits_cells : ∀ c ∈ cells 0, c.Fits zone := by
  intro c hc
  rw [cells_eq, List.mem_toArray, List.mem_append, List.mem_append, List.mem_map,
    List.mem_map] at hc
  obtain (⟨i, -, rfl⟩ | ⟨b, -, rfl⟩) | hc := hc
  · exact (intrinsicObject_shift 0 0 i).2
  · exact fits_functionObject b .functionPrototype
  · rw [List.mem_cons, List.mem_singleton] at hc
    obtain rfl | rfl := hc
    · exact ⟨nofun, nofun, nofun, fun r hr => Option.some.inj hr ▸ hasRealm_self⟩
    · refine ⟨?_, fun k hk => ?_, Nat.le_add_right _ _⟩
      · rw [mem_zone, Nat.zero_add]
        exact Nat.lt_add_of_pos_right Nat.two_pos
      · rw [mem_zone, Nat.zero_add]
        exact Nat.lt_add_right 2 hk

end Realm

namespace Heap

open Script.Embedding (shift)

theorem size_addRealm (h : Heap) : h.addRealm.1.cells.size =
    h.cells.size + (Intrinsic.count + Builtin.unnamed.length + 2) := by
  rw [addRealm]
  dsimp only
  rw [Array.size_append, Realm.size_cells]

private theorem last_of_block (a n : Nat) : a + (n + 2) - 1 = a + (n + 2 - 1) := by omega

/-- The realm that was added to a heap. -/
theorem ref_addRealm (h : Heap) (home : Nat) :
    h.addRealm.2 = (shift h.cells.size home).ref empty.addRealm.2 := by
  have hempty : empty.cells.size = 0 := rfl
  have hlast : ∀ h : Heap, h.addRealm.2 = h.addRealm.1.cells.size - 1 := fun _ => rfl
  rw [Embedding.shift_ref, hlast, hlast, size_addRealm, size_addRealm empty, hempty, Nat.zero_add,
    last_of_block]

theorem nextSymbol_addRealm (h : Heap) : h.addRealm.1.nextSymbol = h.nextSymbol := by
  rw [addRealm]

/-- The cells of the first realm of an empty heap. -/
theorem cell_addRealm (r : Ref) : empty.addRealm.1.cells[r]? = (Realm.cells 0)[r]? := by
  rw [addRealm]
  dsimp only
  rw [Array.getElem?_append_right (Nat.zero_le _)]
  rfl

theorem zone_addRealm : Realm.zone.Le (empty.addRealm.1.zone empty.addRealm.1.range) := by
  have hsize := size_addRealm empty
  have hempty : empty.cells.size = 0 := rfl
  rw [hempty, Nat.zero_add] at hsize
  refine ⟨fun r hr => ?_, Nat.le_refl _, ?_⟩
  · show r < empty.addRealm.1.cells.size
    rw [hsize]
    exact Realm.mem_zone.mp hr
  · intro r hr
    have hr : r = Intrinsic.count + Builtin.unnamed.length + 1 := hr
    rw [hr]
    exact ⟨_, (cell_addRealm _).trans (Realm.getElem?_cells 0)⟩

/-- **The first realm of an empty heap in any other heap.** -/
theorem embeds_addRealm {h : Heap} (hs : Symbol.firstFresh ≤ h.nextSymbol) (home : Nat) :
    empty.addRealm.1.Embeds (shift h.cells.size home) empty.addRealm.1.range h.addRealm.1 := by
  have hnext : empty.addRealm.1.nextSymbol = Symbol.firstFresh := nextSymbol_addRealm empty
  refine ⟨fun r hr => ?_, fun r _ q _ heq => Nat.add_left_cancel heq,
    fun r _ m _ k _ => (Nat.add_assoc _ _ _).symm, fun s hlt => ?_, fun s _ => rfl, hnext.ge⟩
  swap
  · rw [nextSymbol_addRealm]
    exact Nat.lt_of_lt_of_le (hnext ▸ hlt) hs
  obtain ⟨c, hc⟩ := (⟨_, Array.getElem?_eq_getElem hr⟩ :
    ∃ c, empty.addRealm.1.cells[r]? = some c)
  have hc0 := (cell_addRealm r).symm.trans hc
  refine ⟨c, hc, (Realm.fits_cells c (Array.mem_of_getElem? hc0)).mono zone_addRealm, ?_⟩
  rw [addRealm]
  dsimp only [Embedding.shift_ref]
  rw [Array.getElem?_append_right (Nat.le_add_right _ _), Nat.add_sub_cancel_left,
    Realm.cells_shift h.cells.size home, Array.getElem?_map, hc0, Option.map_some]

end Heap

end ScriptBoundary.Script
