import Mathlib.Data.List.Find
import ScriptBoundary.Proofs.Embedding
import ScriptBoundary.Proofs.Growth

/-!
# A heap inside a heap

`Heap.Embeds` says that a part of one heap stands in another along an embedding: each cell of the
part is there, carried along, and leads only to cells of the part. What a look at such a cell shows
is carried along too, so a script cannot tell the two heaps apart as long as it stays in the part.

An edit that stays in the part can be carried along, and when both are carried out the part is
embedded as before (`Heap.Embeds.apply`). A new cell or symbol joins the part, and the embedding is
extended by where it has come to be in each of the heaps.

## Main results

* `Heap.Embeds.object`, `Heap.Embeds.realm`: what a look shows
* `Heap.Embeds.apply`: an edit and the edit that is carried along
-/

namespace ScriptBoundary.Script

/-- The part of a heap at some addresses, with all the symbols there are. -/
def Heap.zone (h : Heap) (D : Set Ref) : Zone :=
  ⟨D, h.nextSymbol, {r | ∃ m, h.cells[r]? = some (.realm m)}⟩

/-- All addresses at which there is a cell. -/
def Heap.range (h : Heap) : Set Ref := {r | r < h.cells.size}

/-- Whether the part of a heap at some addresses stands in another heap along an embedding. -/
structure Heap.Embeds (h : Heap) (f : Embedding) (D : Set Ref) (h' : Heap) : Prop where
  cell : ∀ r ∈ D, ∃ c, h.cells[r]? = some c ∧ c.Fits (h.zone D) ∧
    h'.cells[f.ref r]? = some (f.cell c)
  inj : Set.InjOn f.ref D
  block : ∀ r ∈ D, ∀ m, h.cells[r]? = some (.realm m) → f.KeepsBlock m
  symbol : ∀ s < h.nextSymbol, f.symbol s < h'.nextSymbol
  /-- The symbols that every realm shares are the same in all heaps. -/
  wellKnown : ∀ s < Symbol.firstFresh, f.symbol s = s
  fresh : Symbol.firstFresh ≤ h.nextSymbol

namespace Heap

variable {h h' h₁ : Heap} {f : Embedding} {D D₁ : Set Ref} {r : Ref}

theorem zone_le (hh : h.Evolves h₁) (hs : h.nextSymbol ≤ h₁.nextSymbol) (hD : D ⊆ D₁) :
    (h.zone D).Le (h₁.zone D₁) :=
  ⟨fun _ hr => hD hr, hs, fun _ ⟨m, hm⟩ => ⟨m, hh.realm hm⟩⟩

namespace Embeds

variable (hE : h.Embeds f D h')
include hE

theorem lt_size (hr : r ∈ D) : r < h.cells.size := by
  obtain ⟨c, hc, -⟩ := hE.cell r hr
  exact (Array.getElem?_eq_some_iff.mp hc).1

theorem ref_lt_size (hr : r ∈ D) : f.ref r < h'.cells.size := by
  obtain ⟨c, -, -, hc⟩ := hE.cell r hr
  exact (Array.getElem?_eq_some_iff.mp hc).1

/-- Fewer cells are embedded as well, if no link leads out of them. -/
theorem restrict (hD : D₁ ⊆ D) (hclosed : ∀ r ∈ D₁, ∀ q ∈ h.links r, q ∈ D₁) :
    h.Embeds f D₁ h' where
  cell r hr := by
    obtain ⟨c, hc, hfits, hc'⟩ := hE.cell r (hD hr)
    refine ⟨c, hc, hfits.within_iff.mpr fun q hq => hclosed r hr q ?_, hc'⟩
    rwa [links, hc]
  inj := hE.inj.mono hD
  block r hr := hE.block r (hD hr)
  symbol := hE.symbol
  wellKnown := hE.wellKnown
  fresh := hE.fresh

/-- The links of a cell that is carried along. -/
theorem links (hr : r ∈ D) : h'.links (f.ref r) = (h.links r).map f.ref := by
  obtain ⟨c, hc, -, hc'⟩ := hE.cell r hr
  rw [Heap.links, Heap.links, hc, hc']
  exact f.links_cell fun m hm => hE.block r hr m (hm ▸ hc)

/-- No link leads out of what is embedded. -/
theorem closed (hr : r ∈ D) : ∀ q ∈ h.links r, q ∈ D := by
  obtain ⟨c, hc, hfits, -⟩ := hE.cell r hr
  rw [Heap.links, hc]
  exact hfits.links

/-! ### Looks -/

theorem object (hr : r ∈ D) : h'.object (f.ref r) = f.object (h.object r) := by
  obtain ⟨c, hc, -, hc'⟩ := hE.cell r hr
  rw [Heap.object, Heap.object, hc, hc']
  cases c with
  | object o => rfl
  | _ => exact f.object_noObject.symm

theorem realm {m : Realm} (hr : r ∈ D) (hm : h.cells[r]? = some (.realm m)) :
    h.realm r = m ∧ h'.realm (f.ref r) = f.realm m ∧ m.Fits (h.zone D) := by
  obtain ⟨c, hc, hfits, hc'⟩ := hE.cell r hr
  obtain rfl : c = .realm m := Option.some.inj (hc.symm.trans hm)
  rw [Heap.realm, Heap.realm, hc, hc']
  exact ⟨rfl, rfl, hfits⟩

/-- Where the built-in objects of a realm are. -/
theorem intrinsic (hr : (h.zone D).HasRealm r) (i : Intrinsic) :
    (h.realm r).base + i.ctorIdx ∈ D
      ∧ (h'.realm (f.ref r)).base + i.ctorIdx = f.ref ((h.realm r).base + i.ctorIdx) := by
  obtain ⟨hD, m, hm⟩ := hr
  obtain ⟨hreal, hreal', hfits⟩ := hE.realm hD hm
  have hlt : i.ctorIdx < m.count := Nat.lt_of_lt_of_le (by cases i <;> decide) hfits.full
  rw [hreal, hreal']
  exact ⟨hfits.block _ hlt, (hE.block r hD m hm _ hlt).symm⟩

end Embeds

end Heap

/-! ## Property tables -/

namespace Props

variable {Z : Zone} {ps : Props} {k : Key} {s : Slot} (f : Embedding)

theorem findIdx?_embed (ps : Props) (k : Key) :
    (f.props ps).slots.findIdx? (fun p => p.1 == f.key k) =
      ps.slots.findIdx? fun p => p.1 == k := by
  rw [Embedding.slots_props, Array.findIdx?_map]
  congr 1
  funext p
  exact f.beq_key p.1 k

theorem slots_insert (ps : Props) (k : Key) (s : Slot) : (ps.insert k s).slots =
    match ps.slots.findIdx? fun p => p.1 == k with
    | some i => ps.slots.setIfInBounds i (k, s)
    | none => ps.slots.push (k, s) := by
  unfold insert
  split
  · next i h => simp only [h]
  · next h => simp only [h]

theorem insert_embed (ps : Props) (k : Key) (s : Slot) :
    (f.props ps).insert (f.key k) (f.slot s) = f.props (ps.insert k s) := by
  refine ext_slots ?_
  rw [Embedding.slots_props, slots_insert, slots_insert, findIdx?_embed]
  cases ps.slots.findIdx? fun p => p.1 == k with
  | none =>
    dsimp only
    rw [Embedding.slots_props, Array.map_push]
  | some i =>
    dsimp only
    rw [Embedding.slots_props, Array.map_setIfInBounds]

theorem ofList_embed (ps : List (Key × Slot)) :
    f.props (ofList ps) = ofList (ps.map fun p => (f.key p.1, f.slot p.2)) := by
  have hfold : ∀ qs, f.props (ps.foldl (fun qs p => qs.insert p.1 p.2) qs) =
      (ps.map fun p => (f.key p.1, f.slot p.2)).foldl (fun qs p => qs.insert p.1 p.2)
        (f.props qs) := by
    induction ps with
    | nil => exact fun _ => rfl
    | cons p ps ih =>
      intro qs
      rw [List.foldl_cons, ih, List.map_cons, List.foldl_cons, insert_embed]
  rw [ofList, ofList, hfold, Embedding.props_empty]

theorem listing_embed (length : Slot) (elements : List Slot) :
    f.props (listing length elements) = listing (f.slot length) (elements.map f.slot) := by
  refine ext_slots ?_
  have helements : (elements.map f.slot).zipIdx.map (fun p => (Key.ofNat p.2, p.1)) =
      elements.zipIdx.map fun p => (f.key (Key.ofNat p.2), f.slot p.1) := by
    simp [List.zipIdx_map, Embedding.key_ofNat]
  rw [Embedding.slots_props, listing, List.map_toArray, List.map_cons, List.map_map]
  exact congrArg List.toArray (congrArg₂ List.cons (Prod.ext f.key_length rfl) helements.symm)

theorem erase_embed (ps : Props) (k : Key) :
    (f.props ps).erase (f.key k) = f.props (ps.erase k) := by
  refine ext_slots ?_
  show Array.filter _ (Array.map _ ps.slots) = Array.map _ (Array.filter _ ps.slots)
  rw [Array.filter_map]
  congr 2
  funext p
  exact congrArg not (f.beq_key p.1 k)

theorem find?_embed (ps : Props) (k : Key) :
    (f.props ps).find? (f.key k) = (ps.find? k).map f.slot := by
  have hkey : (fun p : Key × Slot => p.1 == f.key k) ∘
      (fun p : Key × Slot => (f.key p.1, f.slot p.2)) = fun p => p.1 == k :=
    funext fun p => f.beq_key p.1 k
  rw [find?, find?, Embedding.slots_props, Array.find?_map, hkey, Option.map_map, Option.map_map]
  rfl

variable {f}

theorem Fits.insert (hps : ps.Fits Z) (hk : k.Fits Z) (hs : s.Fits Z) :
    (ps.insert k s).Fits Z := by
  intro p hp
  rw [slots_insert] at hp
  split at hp
  · rcases Array.mem_or_eq_of_mem_setIfInBounds hp with hp | rfl
    · exact hps p hp
    · exact ⟨hk, hs⟩
  · rcases Array.mem_push.mp hp with hp | rfl
    · exact hps p hp
    · exact ⟨hk, hs⟩

theorem Fits.empty : Fits Z ∅ := fun p hp => absurd hp (Array.not_mem_empty p)

theorem Fits.ofList {ps : List (Key × Slot)} (h : ∀ p ∈ ps, p.1.Fits Z ∧ p.2.Fits Z) :
    (ofList ps).Fits Z := by
  rw [Props.ofList]
  generalize hqs : (∅ : Props) = qs
  have hfits : qs.Fits Z := hqs ▸ .empty
  clear hqs
  induction ps generalizing qs with
  | nil => exact hfits
  | cons p ps ih =>
    obtain ⟨hk, hs⟩ := h p List.mem_cons_self
    exact ih (fun q hq => h q (List.mem_cons_of_mem _ hq)) _ (hfits.insert hk hs)

theorem Fits.listing {length : Slot} {elements : List Slot} (hlength : length.Fits Z)
    (helements : ∀ s ∈ elements, s.Fits Z) : (listing length elements).Fits Z := by
  intro p hp
  rcases List.mem_cons.mp (List.mem_toArray.mp hp) with rfl | hp
  · exact ⟨Key.fits_ofString "length", hlength⟩
  · obtain ⟨q, hq, rfl⟩ := List.mem_map.mp hp
    exact ⟨Key.fits_ofNat q.2, helements q.1 (List.fst_mem_of_mem_zipIdx hq)⟩

theorem Fits.find? (hps : ps.Fits Z) : ∀ s ∈ ps.find? k, s.Fits Z := by
  intro s hs
  obtain ⟨p, hp, rfl⟩ := Option.map_eq_some_iff.mp hs
  exact (hps p (Array.mem_of_find?_eq_some hp)).2

theorem Fits.erase (hps : ps.Fits Z) : (ps.erase k).Fits Z := fun p hp =>
  hps p (Array.mem_filter.mp hp).1

end Props

/-! ## New cells -/

namespace Embedding

variable {f g : Embedding} {Z : Zone} {h h' : Heap} {D : Set Ref}

/-- The embedding after a cell was added to each of two heaps. -/
def grow (f : Embedding) (h h' : Heap) : Embedding :=
  { f with ref := Function.update f.ref h.cells.size h'.cells.size }

theorem agreesOn_grow (hE : h.Embeds f D h') : f.AgreesOn (f.grow h h') (h.zone D) :=
  ⟨fun _ hr => Function.update_of_ne (Nat.ne_of_lt (hE.lt_size hr)) _ _, fun _ _ => rfl, rfl⟩

/-- What is done to a realm that fits a zone depends on the zone only. -/
theorem AgreesOn.keepsBlock {m : Realm} (h : f.AgreesOn g Z) (hm : m.Fits Z)
    (hblock : f.KeepsBlock m) : g.KeepsBlock m := fun k hk => by
  have hbase : m.base ∈ Z.refs := hm.block 0 (Nat.lt_of_lt_of_le (by decide) hm.full)
  rw [h.ref _ (hm.block k hk), h.ref _ hbase, hblock k hk]

end Embedding

namespace Heap.Embeds

variable {h h' h₁ h₁' : Heap} {f : Embedding} {D : Set Ref} {r : Ref}

/-- **A new cell** joins what is embedded. -/
theorem add (hE : h.Embeds f D h') {c : Cell} (hc : c.Fits (h.zone D)) (hno : ∀ m, c ≠ .realm m) :
    (h.add c).1.Embeds (f.grow h h') (insert h.cells.size D) (h'.add (f.cell c)).1 := by
  have hle : (h.zone D).Le ((h.add c).1.zone (insert h.cells.size D)) :=
    zone_le (evolves_add h c) (Nat.le_refl _) (Set.subset_insert _ _)
  have hagree := Embedding.agreesOn_grow hE
  have hnew : (f.grow h h').ref h.cells.size = h'.cells.size := Function.update_self ..
  have hold : ∀ r ∈ D, (h.add c).1.cells[r]? = h.cells[r]? := fun r hr =>
    Array.getElem?_push_lt (hE.lt_size hr) |>.trans (Array.getElem?_eq_getElem (hE.lt_size hr)).symm
  refine ⟨?_, ?_, ?_, hE.symbol, hE.wellKnown, hE.fresh⟩
  · rintro r (rfl | hr)
    · refine ⟨c, Array.getElem?_push_size, hc.mono hle, ?_⟩
      rw [hnew, Embedding.cell_congr hagree hc]
      exact Array.getElem?_push_size
    · obtain ⟨d, hd, hfits, hd'⟩ := hE.cell r hr
      refine ⟨d, (hold r hr).trans hd, hfits.mono hle, ?_⟩
      rw [hagree.ref r hr, Embedding.cell_congr hagree hfits, ← hd']
      exact (Array.getElem?_push_lt (hE.ref_lt_size hr)).trans
        (Array.getElem?_eq_getElem (hE.ref_lt_size hr)).symm
  · rintro r (rfl | hr) q (rfl | hq) heq
    · rfl
    · rw [hnew, hagree.ref q hq] at heq
      exact absurd heq.symm (Nat.ne_of_lt (hE.ref_lt_size hq))
    · rw [hnew, hagree.ref r hr] at heq
      exact absurd heq (Nat.ne_of_lt (hE.ref_lt_size hr))
    · rw [hagree.ref r hr, hagree.ref q hq] at heq
      exact hE.inj hr hq heq
  · rintro r (rfl | hr) m hm
    · have hcm : some c = some (.realm m) := Array.getElem?_push_size.symm.trans hm
      exact absurd (Option.some.inj hcm) (hno m)
    · rw [hold r hr] at hm
      obtain ⟨-, -, hfits⟩ := hE.realm hr hm
      exact hagree.keepsBlock hfits (hE.block r hr m hm)

/-- **A cell in the place of another**, carried along. What is a realm and what is not stays so. -/
theorem replace (hE : h.Embeds f D h') (hr : r ∈ D) {c d : Cell} (hc : h.cells[r]? = some c)
    (hd : d.Fits (h.zone D)) (hrealm : ∀ m, d = .realm m ↔ c = .realm m)
    {cells cells' : Array Cell}
    (hcells : ∀ q, cells[q]? = if r = q then some d else h.cells[q]?)
    (hcells' : ∀ q, cells'[q]? = if f.ref r = q then some (f.cell d) else h'.cells[q]?) :
    Embeds { h with cells } f D { h' with cells := cells' } := by
  have hzone : Heap.zone { h with cells } D = h.zone D := by
    refine congrArg (Zone.mk D h.nextSymbol) (Set.ext fun q => exists_congr fun m => ?_)
    dsimp only
    rw [hcells]
    split
    · next hq => rw [← hq, hc, Option.some.injEq, Option.some.injEq, hrealm]
    · rfl
  refine ⟨fun q hq => ?_, hE.inj, fun q hq m hm => ?_, hE.symbol, hE.wellKnown, hE.fresh⟩
  · rw [hzone]
    dsimp only
    rw [hcells, hcells']
    by_cases hrq : r = q
    · subst hrq
      rw [if_pos rfl, if_pos rfl]
      exact ⟨d, rfl, hd, rfl⟩
    · rw [if_neg hrq, if_neg fun heq => hrq (hE.inj hr hq heq)]
      exact hE.cell q hq
  · dsimp only at hm
    rw [hcells] at hm
    split at hm
    · next hrq => exact hE.block q hq m (by rw [← hrq, hc, (hrealm m).mp (Option.some.inj hm)])
    · exact hE.block q hq m hm

/-- A cell that is changed by a function. -/
private theorem getElem?_modify_of {cells : Array Cell} {c : Cell} (hc : cells[r]? = some c)
    (g : Cell → Cell) (q : Ref) :
    (cells.modify r g)[q]? = if r = q then some (g c) else cells[q]? := by
  rw [Array.getElem?_modify]
  split
  · next hq => rw [← hq, hc, Option.map_some]
  · rfl

/-- A cell that is changed by one function here and by another one there. -/
theorem modify (hE : h.Embeds f D h') (hr : r ∈ D) {g g' : Cell → Cell}
    (hg : ∀ c, c.Fits (h.zone D) → (g c).Fits (h.zone D) ∧ g' (f.cell c) = f.cell (g c)
      ∧ ∀ m, g c = .realm m ↔ c = .realm m) :
    Embeds { h with cells := h.cells.modify r g } f D
      { h' with cells := h'.cells.modify (f.ref r) g' } := by
  obtain ⟨c, hc, hfits, hc'⟩ := hE.cell r hr
  obtain ⟨hd, hsame, hrealm⟩ := hg c hfits
  refine hE.replace hr hc hd hrealm (getElem?_modify_of hc g) fun q => ?_
  rw [← hsame]
  exact getElem?_modify_of hc' g' q

theorem updateObject (hE : h.Embeds f D h') (hr : r ∈ D) {g g' : Object → Object}
    (hg : ∀ o, o.Fits (h.zone D) → (g o).Fits (h.zone D) ∧ g' (f.object o) = f.object (g o)) :
    (h.updateObject r g).Embeds f D (h'.updateObject (f.ref r) g') := by
  refine hE.modify hr fun c hc => ?_
  cases c with
  | object o =>
    obtain ⟨hfits, hsame⟩ := hg o hc
    exact ⟨hfits, congrArg Cell.object hsame, by simp⟩
  | _ => exact ⟨hc, rfl, fun _ => Iff.rfl⟩

theorem updateScope (hE : h.Embeds f D h') (hr : r ∈ D) {g g' : Scope → Scope}
    (hg : ∀ s, s.Fits (h.zone D) → (g s).Fits (h.zone D) ∧ g' (f.scope s) = f.scope (g s)) :
    (h.updateScope r g).Embeds f D (h'.updateScope (f.ref r) g') := by
  refine hE.modify hr fun c hc => ?_
  cases c with
  | scope s =>
    obtain ⟨hfits, hsame⟩ := hg s hc
    exact ⟨hfits, congrArg Cell.scope hsame, by simp⟩
  | _ => exact ⟨hc, rfl, fun _ => Iff.rfl⟩

end Heap.Embeds

/-! ## Scopes -/

namespace Scope

variable {Z : Zone} {s : Scope} {b : Binding} {v : Value} (f : Embedding)

theorem bind_embed : (f.scope s).bind (f.binding b) = f.scope (s.bind b) := by
  have hfind : (f.scope s).bindings.findIdx? (fun c => c.name == b.name) =
      s.bindings.findIdx? fun c => c.name == b.name :=
    Array.findIdx?_map
  rw [bind, bind]
  simp only [Embedding.binding] at *
  rw [hfind]
  cases s.bindings.findIdx? fun c => c.name == b.name with
  | none => simp only [Embedding.scope, Array.map_push, Embedding.binding]
  | some i => simp only [Embedding.scope, Array.map_setIfInBounds, Embedding.binding]

theorem store_embed (name : String) :
    (f.scope s).store name (f.value v) = f.scope (s.store name v) := by
  simp only [Embedding.scope, store, Array.map_map]
  congr 1
  refine Array.map_congr_left fun b _ => ?_
  simp only [Function.comp_apply, Embedding.binding]
  by_cases h : (b.name == name) = true
  · simp only [h, if_true, Option.map_some]
  · simp only [h, if_false, Bool.false_eq_true]

variable {f}

theorem Fits.bind (hs : s.Fits Z) (hb : b.Fits Z) : (s.bind b).Fits Z := by
  rw [Scope.bind]
  split
  · refine ⟨fun c hc => ?_, hs.outer, hs.call, hs.global⟩
    rcases Array.mem_or_eq_of_mem_setIfInBounds hc with hc | rfl
    · exact hs.bindings c hc
    · exact hb
  · refine ⟨fun c hc => ?_, hs.outer, hs.call, hs.global⟩
    rcases Array.mem_push.mp hc with hc | rfl
    · exact hs.bindings c hc
    · exact hb

theorem Fits.store (hs : s.Fits Z) (hv : v.Fits Z) (name : String) : (s.store name v).Fits Z := by
  refine ⟨fun c hc => ?_, hs.outer, hs.call, hs.global⟩
  obtain ⟨b, hb, rfl⟩ := Array.mem_map.mp hc
  split
  · exact fun u hu => Option.some.inj hu ▸ hv
  · exact hs.bindings b hb

end Scope

/-! ## Edits -/

/-- Whether an edit stays in a zone: what it changes is there, and so is all that it puts there. -/
def Edit.Fits (Z : Zone) : Edit → Prop
  | .newObject nature proto props => Object.Fits Z ⟨nature, proto, true, props, none⟩
  | .newScope s => s.Fits Z
  | .newTally | .newSymbol => True
  | .putSlot r k s => r ∈ Z.refs ∧ k.Fits Z ∧ s.Fits Z
  | .dropSlot r k => r ∈ Z.refs ∧ k.Fits Z
  | .setProto r p => r ∈ Z.refs ∧ ∀ q ∈ p, q ∈ Z.refs
  | .closeObject r | .tick r => r ∈ Z.refs
  | .setNature r n => r ∈ Z.refs ∧ n.Fits Z
  | .bind r b => r ∈ Z.refs ∧ b.Fits Z
  | .store r _ v | .setThis r v => r ∈ Z.refs ∧ v.Fits Z

/-- The cells of a part of a heap after an edit that stays there. -/
def Edit.region (e : Edit) (h : Heap) (D : Set Ref) : Set Ref :=
  match e with
  | .newObject .. | .newScope _ | .newTally => insert h.cells.size D
  | _ => D

namespace Embedding

variable (f : Embedding)

def edit : Edit → Edit
  | .newObject nature proto props =>
    .newObject (f.nature nature) (proto.map f.ref) (f.props props)
  | .newScope s => .newScope (f.scope s)
  | .newTally => .newTally
  | .newSymbol => .newSymbol
  | .putSlot r k s => .putSlot (f.ref r) (f.key k) (f.slot s)
  | .dropSlot r k => .dropSlot (f.ref r) (f.key k)
  | .setProto r p => .setProto (f.ref r) (p.map f.ref)
  | .closeObject r => .closeObject (f.ref r)
  | .setNature r n => .setNature (f.ref r) (f.nature n)
  | .bind r b => .bind (f.ref r) (f.binding b)
  | .store r name v => .store (f.ref r) name (f.value v)
  | .setThis r v => .setThis (f.ref r) (f.value v)
  | .tick r => .tick (f.ref r)

/-- The embedding after an edit and the edit that is carried along. -/
def after (e : Edit) (h h' : Heap) : Embedding :=
  match e with
  | .newObject .. | .newScope _ | .newTally => f.grow h h'
  | .newSymbol =>
    { f with
      symbol := f.symbol.trans (Equiv.swap (f.symbol h.nextSymbol) h'.nextSymbol).toEmbedding }
  | _ => f

end Embedding

namespace Heap

variable {h h' : Heap} {f : Embedding} {D : Set Ref}

theorem nextSymbol_apply (h : Heap) (e : Edit) : h.nextSymbol ≤ (h.apply e).1.nextSymbol := by
  cases e with
  | newSymbol => exact Nat.le_succ _
  | tick r =>
    rw [apply]
    split <;> exact Nat.le_refl _
  | _ => exact Nat.le_refl _

theorem insert_range (h : Heap) (c : Cell) : insert h.cells.size h.range = (h.add c).1.range := by
  ext r
  rw [Set.mem_insert_iff, or_comm]
  refine Nat.lt_succ_iff_lt_or_eq.symm.trans ?_
  show r < h.cells.size + 1 ↔ r < (h.cells.push c).size
  rw [Array.size_push]

theorem region_range (h : Heap) (e : Edit) : e.region h h.range = (h.apply e).1.range := by
  cases e with
  | newObject nature proto props => exact h.insert_range _
  | newScope s => exact h.insert_range _
  | newTally => exact h.insert_range _
  | tick r =>
    simp only [Edit.region, apply, range]
    split
    · simp only [Array.size_setIfInBounds]
    · rfl
  | _ => simp only [Edit.region, apply, range, updateObject, updateScope, Array.size_modify]

theorem subset_region (e : Edit) (h : Heap) (D : Set Ref) : D ⊆ e.region h D := by
  cases e <;> first | exact Set.subset_insert _ _ | exact subset_rfl

theorem zone_apply (h : Heap) (e : Edit) (D : Set Ref) :
    (h.zone D).Le ((h.apply e).1.zone (e.region h D)) :=
  zone_le (evolves_apply h e) (nextSymbol_apply h e) (subset_region e h D)

namespace Embeds

variable (hE : h.Embeds f D h')
include hE

theorem agreesOn_after (e : Edit) : f.AgreesOn (f.after e h h') (h.zone D) := by
  cases e with
  | newObject nature proto props => exact Embedding.agreesOn_grow hE
  | newScope s => exact Embedding.agreesOn_grow hE
  | newTally => exact Embedding.agreesOn_grow hE
  | newSymbol =>
    refine ⟨fun _ _ => rfl, fun s hs => Equiv.swap_apply_of_ne_of_ne ?_ ?_, rfl⟩
    · exact f.symbol.injective.ne (Nat.ne_of_lt hs)
    · exact Nat.ne_of_lt (hE.symbol s hs)
  | _ => exact .refl f _

/-- A new symbol in each heap. -/
private theorem newSymbol : (h.apply .newSymbol).1.Embeds (f.after .newSymbol h h') D
    (h'.apply .newSymbol).1 := by
  have hagree := hE.agreesOn_after .newSymbol
  have hle := zone_apply h .newSymbol D
  have hnew : (f.after .newSymbol h h').symbol h.nextSymbol = h'.nextSymbol :=
    Equiv.swap_apply_left ..
  have hcases : ∀ s < h.nextSymbol + 1, s = h.nextSymbol ∨ s < h.nextSymbol := fun s hs =>
    (Nat.lt_succ_iff_lt_or_eq.mp hs).symm
  refine ⟨fun r hr => ?_, hE.inj, fun r hr m hm => ?_, fun s hs => ?_, fun s hs => ?_,
    Nat.le_succ_of_le hE.fresh⟩
  · obtain ⟨c, hc, hfits, hc'⟩ := hE.cell r hr
    exact ⟨c, hc, hfits.mono hle,
      hc'.trans (congrArg some (Embedding.cell_congr hagree hfits).symm)⟩
  · exact hE.block r hr m hm
  · rcases hcases s hs with rfl | hs
    · rw [hnew]
      exact Nat.lt_succ_self _
    · rw [hagree.symbol s hs]
      exact Nat.lt_succ_of_lt (hE.symbol s hs)
  · rw [hagree.symbol s (Nat.lt_of_lt_of_le hs hE.fresh)]
    exact hE.wellKnown s hs

private theorem tick {r : Ref} (hr : r ∈ D) :
    (h.apply (.tick r)).1.Embeds f D (h'.apply (.tick (f.ref r))).1
      ∧ (h'.apply (.tick (f.ref r))).2 = (h.apply (.tick r)).2 := by
  obtain ⟨c, hc, hfits, hc'⟩ := hE.cell r hr
  rw [Heap.apply, Heap.apply, hc, hc']
  cases c with
  | tally n =>
    have hset : ∀ (cells : Array Cell) (r : Ref), cells[r]? = some (.tally n) → ∀ q,
        (cells.setIfInBounds r (.tally (n + 1)))[q]? =
          if r = q then some (.tally (n + 1)) else cells[q]? := by
      intro cells r hr q
      rw [Array.getElem?_setIfInBounds, if_pos (Array.getElem?_eq_some_iff.mp hr).1]
    exact ⟨hE.replace hr hc (d := .tally (n + 1)) trivial (by simp) (hset _ _ hc) (hset _ _ hc'),
      rfl⟩
  | _ => exact ⟨hE, rfl⟩

/-- **An edit and the edit that is carried along.** -/
theorem apply {e : Edit} (he : e.Fits (h.zone D)) :
    (h.apply e).1.Embeds (f.after e h h') (e.region h D) (h'.apply (f.edit e)).1 := by
  cases e with
  | newObject nature proto props => exact hE.add (c := .object _) he fun _ hm => by cases hm
  | newScope s => exact hE.add (c := .scope s) he fun _ hm => by cases hm
  | newTally => exact hE.add (c := .tally 0) trivial fun _ hm => by cases hm
  | newSymbol => exact hE.newSymbol
  | putSlot r k s =>
    refine hE.updateObject he.1 fun o ho =>
      ⟨⟨ho.nature, ho.proto, ho.props.insert he.2.1 he.2.2⟩, ?_⟩
    simp only [Embedding.object, Props.insert_embed]
  | dropSlot r k =>
    refine hE.updateObject he.1 fun o ho => ⟨⟨ho.nature, ho.proto, ho.props.erase⟩, ?_⟩
    simp only [Embedding.object, Props.erase_embed]
  | setProto r p => exact hE.updateObject he.1 fun o ho => ⟨⟨ho.nature, he.2, ho.props⟩, rfl⟩
  | closeObject r => exact hE.updateObject he fun o ho => ⟨⟨ho.nature, ho.proto, ho.props⟩, rfl⟩
  | setNature r n =>
    refine hE.updateObject he.1 fun o ho => ?_
    simp only [Embedding.object, Embedding.canBecome_nature]
    split
    · exact ⟨⟨he.2, ho.proto, ho.props⟩, rfl⟩
    · exact ⟨ho, rfl⟩
  | bind r b => exact hE.updateScope he.1 fun s hs => ⟨hs.bind he.2, Scope.bind_embed f⟩
  | store r name v =>
    exact hE.updateScope he.1 fun s hs => ⟨hs.store he.2 name, Scope.store_embed f name⟩
  | setThis r v =>
    refine hE.updateScope he.1 fun s hs => ⟨⟨hs.bindings, hs.outer, fun c hc => ?_, hs.global⟩, ?_⟩
    · obtain ⟨d, hd, rfl⟩ := Option.map_eq_some_iff.mp hc
      have hfits := hs.call d hd
      exact ⟨fun u hu => Option.some.inj hu ▸ he.2, hfits.callee, hfits.newTarget⟩
    · obtain ⟨bindings, outer, call, global⟩ := s
      cases call <;> rfl
  | tick r => exact (hE.tick he).1

end Embeds

/-! ## Next door -/

/-- What happens elsewhere in the heap a part stands in does not matter to it. -/
theorem Embeds.elsewhere {h₁' : Heap} (hE : h.Embeds f D h')
    (hcells : ∀ r ∈ D, h₁'.cells[f.ref r]? = h'.cells[f.ref r]?)
    (hsymbols : h'.nextSymbol ≤ h₁'.nextSymbol) : h.Embeds f D h₁' where
  cell r hr := by
    obtain ⟨c, hc, hfits, hc'⟩ := hE.cell r hr
    exact ⟨c, hc, hfits, (hcells r hr).trans hc'⟩
  inj := hE.inj
  block := hE.block
  symbol s hs := Nat.lt_of_lt_of_le (hE.symbol s hs) hsymbols
  wellKnown := hE.wellKnown
  fresh := hE.fresh

/-- **An edit that is carried along** touches no cell outside the part. -/
theorem getElem?_apply_of_ne {e : Edit} {Z : Zone} (he : e.Fits Z) {q : Ref}
    (hq : q < h'.cells.size) (hne : ∀ r ∈ Z.refs, f.ref r ≠ q) :
    (h'.apply (f.edit e)).1.cells[q]? = h'.cells[q]? := by
  have hpush : ∀ c, (h'.add c).1.cells[q]? = h'.cells[q]? := fun c =>
    (Array.getElem?_push_lt hq).trans (Array.getElem?_eq_getElem hq).symm
  have hmodify : ∀ r ∈ Z.refs, ∀ g : Cell → Cell,
      (h'.cells.modify (f.ref r) g)[q]? = h'.cells[q]? := fun r hr g => by
    rw [Array.getElem?_modify, if_neg (hne r hr)]
  cases e with
  | newObject nature proto props => exact hpush _
  | newScope s => exact hpush _
  | newTally => exact hpush _
  | newSymbol => rfl
  | putSlot r k s => exact hmodify r he.1 _
  | dropSlot r k => exact hmodify r he.1 _
  | setProto r p => exact hmodify r he.1 _
  | closeObject r => exact hmodify r he _
  | setNature r n => exact hmodify r he.1 _
  | bind r b => exact hmodify r he.1 _
  | store r name v => exact hmodify r he.1 _
  | setThis r v => exact hmodify r he.1 _
  | tick r =>
    rw [Embedding.edit, apply]
    split
    · dsimp only
      rw [Array.getElem?_setIfInBounds, if_neg (hne r he)]
    · rfl

/-- A cell that an edit adds stands where there was none. -/
theorem mem_region (f : Embedding) (h' : Heap) {e : Edit} {r : Ref} (hr : r ∈ e.region h D) :
    r ∈ D ∨ r = h.cells.size ∧ (f.after e h h').ref r = h'.cells.size := by
  have hnew : r ∈ insert h.cells.size D →
      r ∈ D ∨ r = h.cells.size ∧ (f.grow h h').ref r = h'.cells.size := by
    rintro (rfl | hr)
    · exact .inr ⟨rfl, Function.update_self ..⟩
    · exact .inl hr
  cases e with
  | newObject nature proto props => exact hnew hr
  | newScope s => exact hnew hr
  | newTally => exact hnew hr
  | _ => exact .inl hr

/-! ## What leads there -/

/-- **What is reached** in a part is reached where it stands, if what else there is to start from
leads to other cells only. -/
theorem Embeds.reachable_iff (hE : h.Embeds f D h') {roots roots' : List Ref} {N : Set Ref}
    (hroots : ∀ q ∈ roots, q ∈ D ∧ f.ref q ∈ roots')
    (hroots' : ∀ q ∈ roots', (∃ p ∈ roots, q = f.ref p) ∨ q ∈ N)
    (hclosed : ∀ q ∈ N, ∀ p ∈ h'.links q, p ∈ N) (hdisjoint : ∀ r ∈ D, f.ref r ∉ N) {r : Ref}
    (hr : r ∈ D) : Reachable h' roots' (f.ref r) ↔ Reachable h roots r := by
  have hlt : ∀ {q}, q ∈ D → f.ref q < h'.cells.size := fun hq => hE.ref_lt_size hq
  constructor
  · intro hreach
    have hcases : ∀ q, Reachable h' roots' q →
        (∃ p ∈ D, q = f.ref p ∧ Reachable h roots p) ∨ q ∈ N := by
      intro q hq
      induction hq with
      | @root q hmem hsize =>
        rcases hroots' q hmem with ⟨p, hp, rfl⟩ | hN
        · exact .inl ⟨p, (hroots p hp).1, rfl, .root hp (hE.lt_size (hroots p hp).1)⟩
        · exact .inr hN
      | @link q p hq hlink hsize ih =>
        rcases ih with ⟨q, hqD, rfl, hreach⟩ | hN
        · rw [hE.links hqD] at hlink
          obtain ⟨p, hp, rfl⟩ := List.mem_map.mp hlink
          have hpD := hE.closed hqD p hp
          exact .inl ⟨p, hpD, rfl, hreach.link hp (hE.lt_size hpD)⟩
        · exact .inr (hclosed q hN p hlink)
    rcases hcases _ hreach with ⟨p, hp, heq, hreach⟩ | hN
    · rwa [hE.inj hr hp heq]
    · exact absurd hN (hdisjoint r hr)
  · intro hreach
    have hboth : ∀ q, Reachable h roots q → q ∈ D ∧ Reachable h' roots' (f.ref q) := by
      intro q hq
      induction hq with
      | root hmem hsize =>
        obtain ⟨hD, hmem'⟩ := hroots _ hmem
        exact ⟨hD, .root hmem' (hlt hD)⟩
      | @link q p hq hlink hsize ih =>
        have hp := hE.closed ih.1 p hlink
        refine ⟨hp, ih.2.link ?_ (hlt hp)⟩
        rw [hE.links ih.1]
        exact List.mem_map_of_mem hlink
    exact (hboth r hreach).2

end Heap

end ScriptBoundary.Script
