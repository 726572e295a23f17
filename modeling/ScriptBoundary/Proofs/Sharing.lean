import ScriptBoundary.Proofs.Confinement
import ScriptBoundary.Proofs.Sane
import ScriptBoundary.Proofs.Teardown
import ScriptBoundary.Proofs.Tenant

/-!
# A world inside a world

What there is in a process with one tenant stands in a process with two of them, at other addresses
and under other numbers. A `Passage` says where: it is an embedding of the heap that also says which
handle has become which. `World.Stands` says that a part of one world stands in another along a
passage: the handles refer to the same values, the instance has the same account, slots and limits,
and of its registrations those are there whose function is in the part.

A shared world holds two such parts, one for each tenant, that have no cell, no handle and no
instance in common (`Together`). What one tenant does to its part leaves the other part alone. That
is shown here for the few things that everything else is made of: a change of the heap, a handle
that is made or given back, a change of the instance, and a call that begins or ends.

## Main results

* `Together.symm`: neither tenant is special while both are at rest
* `Together.grow`, `Together.push`, `Together.clear`, `Together.update`, `Together.begin`,
  `Together.finish`: what one tenant does, with the other one next door
-/

namespace ScriptBoundary

namespace Boundary

open Script (Ref)

open Classical in
/-- The registrations whose function is in some part of the heap. -/
noncomputable def CallbackTable.within (t : CallbackTable) (D : Set Ref) :
    List (Nat × Registration) :=
  t.entries.filter fun e => e.2.function ∈ D

namespace CallbackTable

variable {t : CallbackTable} {D D₁ : Set Ref} {e : Nat × Registration}

theorem mem_within : e ∈ t.within D ↔ e ∈ t.entries ∧ e.2.function ∈ D := by
  classical rw [within, List.mem_filter, decide_eq_true_iff]

theorem within_congr (h : ∀ e ∈ t.entries, e.2.function ∈ D₁ ↔ e.2.function ∈ D) :
    t.within D₁ = t.within D := by
  classical exact List.filter_congr fun e he => decide_eq_decide.mpr (h e he)

/-- What is looked for is found in the part as well, if it is there wherever it is. -/
theorem find?_within {p : Nat × Registration → Bool}
    (h : ∀ e ∈ t.entries, p e = true → e.2.function ∈ D) :
    (t.within D).find? p = t.entries.find? p := by
  classical
  rw [within, List.find?_filter]
  refine List.find?_congr fun e he => ?_
  rw [Bool.eq_iff_iff, decide_eq_true_iff, decide_eq_true_iff]
  exact and_iff_right_of_imp (h e he)

theorem within_register (r : Registration) (h : r.function ∈ D) :
    (t.register r).within D = t.within D ++ [(t.nextId, r)] := by
  classical
  have hlast : [(t.nextId, r)].filter (fun e => e.2.function ∈ D) = [(t.nextId, r)] :=
    List.filter_eq_self.mpr fun e he => decide_eq_true (List.mem_singleton.mp he ▸ h)
  exact (List.filter_append ..).trans (congrArg (t.within D ++ ·) hlast)

theorem census_register (r : Registration) :
    (t.register r).live + (t.register r).finalized = t.live + t.finalized + 1 := by
  simp only [register, live, List.length_append, List.length_singleton]
  omega

end CallbackTable

end Boundary

namespace Script.Embedding

open Boundary

variable (f : Embedding)

def handleCell (c : HandleCell) : HandleCell := ⟨f.value c.value, f.home + c.owner⟩

def registration (r : Registration) : Registration :=
  ⟨r.callback.mapOwner (f.home + ·), f.ref r.function⟩

def invocation (v : Invocation) : Invocation := ⟨f.anchor v.anchor, f.activation v.activation⟩

/-- Whether an instance is another one carried along. Of its registrations those are there whose
function is in the zone. -/
structure Matches (Z : Zone) (x x' : Instance) : Prop where
  limits : x'.limits = x.limits
  realm : x.isLive = true → x'.realm = f.ref x.realm ∧ Z.HasRealm x.realm
  ledger : x'.ledger = x.ledger
  slots : x'.slots = x.slots
  isLive : x'.isLive = x.isLive
  borrowed : x'.borrowed = x.borrowed
  lent : x'.lent = x.lent.map f.activation
  fits_lent : ∀ act ∈ x.lent, act.Fits Z
  nextId : x'.table.nextId = x.table.nextId
  census : x'.table.live + x'.table.finalized = x.table.live + x.table.finalized
  entries : x'.table.entries = (x.table.within Z.refs).map fun e => (e.1, f.registration e.2)
  own : ∀ e ∈ x.table.entries, e.2.callback.isOwn = true

variable {f} {Z : Zone} {x x' : Instance}

/-- A callback is registered in both places. -/
theorem Matches.register (h : f.Matches Z x x') {c : Callback} (hc : c.isOwn = true) {r r' : Ref}
    (hr : r ∈ Z.refs) (hr' : f.ref r = r') :
    f.Matches Z { x with table := x.table.register ⟨c, r⟩ }
      { x' with table := x'.table.register ⟨c.mapOwner (f.home + ·), r'⟩ } := by
  subst hr'
  refine { h with
    nextId := congrArg (· + 1) h.nextId
    census := ?_
    entries := ?_
    own := fun e he => ?_ }
  · rw [CallbackTable.census_register, CallbackTable.census_register, h.census]
  · rw [CallbackTable.within_register _ hr, List.map_append, ← h.entries]
    exact congrArg (fun n => x'.table.entries ++ [(n, f.registration ⟨c, r⟩)]) h.nextId
  · rcases List.mem_append.mp he with he | he
    · exact h.own e he
    · rw [List.mem_singleton.mp he]
      exact hc

end Script.Embedding

namespace Boundary

open Script (Activation Anchor Embedding Grows Heap Ref Zone)

/-- Where the cells, the symbols and the handles of one world are in another. -/
structure Passage extends Embedding where
  handle : Handle → Handle

namespace World

/-- Whether no call is in progress. -/
structure AtRest (w : World) : Prop where
  inFlight : w.inFlight = []
  lent : ∀ x, w.instance? 0 = some x → x.lent = none

/-- Whether a part of a world that has one instance stands in another world. -/
structure Stands (w : World) (P : Passage) (D : Set Ref) (w' : World) : Prop where
  heap : w.heap.Embeds P.toEmbedding D w'.heap
  handle : ∀ h, h.id < w.handles.size →
    (P.handle h).id < w'.handles.size ∧ w'.cell? (P.handle h) = (w.cell? h).map P.handleCell
  inj : ∀ h k, h.id < w.handles.size → k.id < w.handles.size → P.handle h = P.handle k → h = k
  held : ∀ h c, w.cell? h = some c → c.value.Fits (w.heap.zone D) ∧ (w.instance? c.owner).isSome
  single : ∀ i, (w.instance? i).isSome → i = 0
  home : ∀ x, w.instance? 0 = some x →
    ∃ x', w'.instance? P.home = some x' ∧ P.Matches (w.heap.zone D) x x'
  calls : ∀ v ∈ w.inFlight, v.anchor.owner = 0 ∧ v.activation.Fits (w.heap.zone D)
  anchored : ∀ r ∈ D, ∀ a, (w.heap.object r).anchor = some a → a.owner = 0
  lifecycle : w'.lifecycle = w.lifecycle

end World

/-- Two worlds, each with one instance at most, that share a third. The first one may be in the
middle of something. -/
structure Together (P : Passage) (D : Set Ref) (w : World) (Q : Passage) (E : Set Ref) (v : World)
    (w' : World) : Prop where
  left : w.Stands P D w'
  right : v.Stands Q E w'
  refs : ∀ r ∈ D, ∀ q ∈ E, P.ref r ≠ Q.ref q
  handles : ∀ h k, h.id < w.handles.size → k.id < v.handles.size → P.handle h ≠ Q.handle k
  homes : (w.instance? 0).isSome → (v.instance? 0).isSome → P.home ≠ Q.home
  handle_cases : ∀ h, (w'.cell? h).isSome → (∃ k, k.id < w.handles.size ∧ h = P.handle k)
    ∨ ∃ k, k.id < v.handles.size ∧ h = Q.handle k
  instance_cases : ∀ i, (w'.instance? i).isSome → (i = P.home ∧ (w.instance? 0).isSome)
    ∨ i = Q.home ∧ (v.instance? 0).isSome
  inFlight : w'.inFlight = w.inFlight.map P.invocation
  rest : v.AtRest

namespace Together

variable {P Q : Passage} {D E : Set Ref} {w v w' : World}

/-- **Neither tenant is special** while both are at rest. -/
theorem symm (h : Together P D w Q E v w') (hw : w.AtRest) : Together Q E v P D w w' where
  left := h.right
  right := h.left
  refs r hr q hq := (h.refs q hq r hr).symm
  handles k l hk hl := (h.handles l k hl hk).symm
  homes hv hw := (h.homes hw hv).symm
  handle_cases k hk := (h.handle_cases k hk).symm
  instance_cases i hi := (h.instance_cases i hi).symm
  inFlight := by rw [h.inFlight, hw.inFlight, h.rest.inFlight]; rfl
  rest := hw

end Together

/-! ## The other tenant -/

namespace World.Stands

variable {P P₁ : Passage} {D D₁ : Set Ref} {w w₁ w' w₁' : World}

/-- **What happens elsewhere** in the shared world does not matter. -/
theorem elsewhere (h : w.Stands P D w')
    (hcells : ∀ r ∈ D, w₁'.heap.cells[P.ref r]? = w'.heap.cells[P.ref r]?)
    (hsymbols : w'.heap.nextSymbol ≤ w₁'.heap.nextSymbol)
    (hsize : w'.handles.size ≤ w₁'.handles.size)
    (hhandles : ∀ k, k.id < w.handles.size → w₁'.cell? (P.handle k) = w'.cell? (P.handle k))
    (hhome : (w.instance? 0).isSome → w₁'.instance? P.home = w'.instance? P.home)
    (hlifecycle : w₁'.lifecycle = w'.lifecycle) : w.Stands P D w₁' where
  heap := h.heap.elsewhere hcells hsymbols
  handle k hk := by
    obtain ⟨hlt, hcell⟩ := h.handle k hk
    exact ⟨Nat.lt_of_lt_of_le hlt hsize, (hhandles k hk).trans hcell⟩
  inj := h.inj
  held := h.held
  single := h.single
  home x hx := by
    obtain ⟨x', hx', hmatch⟩ := h.home x hx
    exact ⟨x', (hhome (hx ▸ rfl)).trans hx', hmatch⟩
  calls := h.calls
  anchored := h.anchored
  lifecycle := hlifecycle.trans h.lifecycle

end World.Stands

/-! ## The heap changes -/

end Boundary

namespace Script.Embedding

open Boundary

variable {f g : Embedding} {Z Z₁ : Zone}

theorem handleCell_congr (h : f.AgreesOn g Z) {c : HandleCell}
    (hc : c.value.Fits Z) : g.handleCell c = f.handleCell c := by
  rw [handleCell, handleCell, Embedding.value_congr h hc, h.home]

theorem invocation_congr (h : f.AgreesOn g Z) {v : Invocation}
    (hv : v.activation.Fits Z) : g.invocation v = f.invocation v := by
  rw [invocation, invocation, Embedding.anchor_congr h, Embedding.activation_congr h hv]

/-- An instance in a larger zone, if no registration has its function in what was added. -/
theorem Matches.onward {x x' : Instance} (hx : f.Matches Z x x')
    (h : f.AgreesOn g Z) (hZ : Z.Le Z₁)
    (hnew : ∀ e ∈ x.table.entries, e.2.function ∈ Z₁.refs → e.2.function ∈ Z.refs) :
    g.Matches Z₁ x x' := by
  have hwithin : x.table.within Z₁.refs = x.table.within Z.refs :=
    CallbackTable.within_congr fun e he => ⟨hnew e he, hZ.refs _⟩
  refine { hx with
    realm := fun hlive => ?_
    lent := ?_
    fits_lent := fun act hact => (hx.fits_lent act hact).mono hZ
    entries := ?_ }
  · obtain ⟨hrealm, hfits⟩ := hx.realm hlive
    exact ⟨hrealm.trans (h.ref _ hfits.1).symm, hfits.mono hZ⟩
  · rw [hx.lent]
    exact Option.map_congr fun act hact =>
      (Embedding.activation_congr h (hx.fits_lent act hact)).symm
  · rw [hx.entries, hwithin]
    refine List.map_congr_left fun e he => ?_
    rw [registration, registration, h.home, h.ref _ (CallbackTable.mem_within.mp he).2]

end Script.Embedding

namespace Boundary

open Script (Activation Anchor Embedding Grows Heap Ref Zone)

namespace Together

variable {P Q : Passage} {D E D₁ : Set Ref} {w v w' : World} {h₁ h₁' : Heap} {f : Embedding}

/-- **The heap changes**: one tenant changes its part of it, or adds to it. -/
theorem grow (h : Together P D w Q E v w') (hw : w.Placed) (hE : h₁.Embeds f D₁ h₁')
    (hgrows : Grows w.heap P.toEmbedding D h₁ f D₁)
    (hnew : ∀ r ∈ D₁, r ∈ D ∨ r = w.heap.cells.size ∧ f.ref r = w'.heap.cells.size)
    (hanchored : ∀ r ∈ D₁, ∀ a, (h₁.object r).anchor = some a → a.owner = 0)
    (hcells : ∀ q < w'.heap.cells.size, (∀ r ∈ D, P.ref r ≠ q) →
      h₁'.cells[q]? = w'.heap.cells[q]?)
    (hsymbols : w'.heap.nextSymbol ≤ h₁'.nextSymbol) :
    Together ⟨f, P.handle⟩ D₁ { w with heap := h₁ } Q E v { w' with heap := h₁' } where
  left :=
    { heap := hE
      handle := fun k hk => by
        obtain ⟨hlt, hcell⟩ := h.left.handle k hk
        refine ⟨hlt, hcell.trans (Option.map_congr fun c hc => ?_)⟩
        exact (Embedding.handleCell_congr hgrows.agrees (h.left.held k c hc).1).symm
      inj := h.left.inj
      held := fun k c hc => (h.left.held k c hc).imp_left fun hfits => hfits.mono hgrows.zone_le
      single := h.left.single
      home := fun x hx => by
        obtain ⟨x', hx', hmatch⟩ := h.left.home x hx
        rw [hgrows.agrees.home.symm] at hx'
        refine ⟨x', hx', hmatch.onward hgrows.agrees hgrows.zone_le fun e he hmem => ?_⟩
        refine (hnew _ hmem).resolve_right fun hsize => ?_
        -- A function is there before it is registered, so the new cell is none of them.
        have hlt := (hw.function 0 e (World.table_of_instance? hx ▸ he)).1
        exact absurd hsize.1 (Nat.ne_of_lt hlt)
      calls := fun u hu => (h.left.calls u hu).imp_right fun hfits => hfits.mono hgrows.zone_le
      anchored := hanchored
      lifecycle := h.left.lifecycle }
  right := by
    have hrefs : ∀ r ∈ E, h₁'.cells[Q.ref r]? = w'.heap.cells[Q.ref r]? := fun r hr =>
      hcells _ (h.right.heap.ref_lt_size hr) fun q hq => h.refs q hq r hr
    exact h.right.elsewhere hrefs hsymbols (Nat.le_refl _) (fun _ _ => rfl) (fun _ => rfl) rfl
  refs r hr q hq heq := by
    rcases hnew r hr with hr | ⟨-, hsize⟩
    · exact h.refs r hr q hq ((hgrows.agrees.ref r hr).symm.trans heq)
    · exact absurd (hsize.symm.trans heq) (Nat.ne_of_gt (h.right.heap.ref_lt_size hq))
  handles := h.handles
  homes hx hy heq := h.homes hx hy (hgrows.agrees.home.symm.trans heq)
  handle_cases := h.handle_cases
  instance_cases i hi := (h.instance_cases i hi).imp_left fun hi =>
    ⟨hi.1.trans hgrows.agrees.home.symm, hi.2⟩
  inFlight := by
    refine h.inFlight.trans (List.map_congr_left fun u hu => ?_)
    exact (Embedding.invocation_congr hgrows.agrees (h.left.calls u hu).2).symm
  rest := h.rest

/-! ## Handles come and go -/

end Together

namespace World

theorem lt_size_of_cell? {w : World} {h : Handle} (hc : (w.cell? h).isSome) :
    h.id < w.handles.size := by
  obtain ⟨c, hc⟩ := Option.isSome_iff_exists.mp hc
  exact (Array.getElem?_eq_some_iff.mp (Option.join_eq_some_iff.mp hc)).1

theorem isSome_updateInstance (w : World) (i j : InstanceId) (f : Instance → Instance) :
    ((w.updateInstance i f).instance? j).isSome = (w.instance? j).isSome := by
  rw [instance?_updateInstance]
  split
  · rw [Option.isSome_map]
  · rfl

/-- What handles refer to after one was made. -/
theorem cell?_push (w : World) (c : HandleCell) (h : Handle) :
    { w with handles := w.handles.push (some c) }.cell? h =
      if h.id = w.handles.size then some c else w.cell? h := by
  rw [cell?, cell?]
  dsimp only
  rw [Array.getElem?_push]
  split <;> rfl

/-- What handles refer to after one was given back. -/
theorem cell?_clear (w : World) (h k : Handle) :
    { w with handles := w.handles.setIfInBounds h.id none }.cell? k =
      if h = k then none else w.cell? k := by
  obtain ⟨h⟩ := h
  obtain ⟨k⟩ := k
  rw [cell?, cell?]
  dsimp only
  rw [Array.getElem?_setIfInBounds]
  simp only [Handle.mk.injEq]
  split
  · split <;> rfl
  · rfl

end World

/-- The passage after a handle was made in each of two worlds. -/
def Passage.push (P : Passage) (w w' : World) : Passage :=
  { P with handle := Function.update P.handle ⟨w.handles.size⟩ ⟨w'.handles.size⟩ }

namespace Together

variable {P Q : Passage} {D E : Set Ref} {w v w' : World}

/-- **A handle is made.** -/
theorem push (h : Together P D w Q E v w') (hi : (w.instance? 0).isSome) {x : Script.Value}
    (hx : x.Fits (w.heap.zone D)) :
    Together (P.push w w') D { w with handles := w.handles.push (some ⟨x, 0⟩) } Q E v
      { w' with handles := w'.handles.push (some (P.handleCell ⟨x, 0⟩)) } := by
  have hnew : (P.push w w').handle ⟨w.handles.size⟩ = ⟨w'.handles.size⟩ :=
    Function.update_self ..
  have hold : ∀ k : Handle, k.id < w.handles.size → (P.push w w').handle k = P.handle k :=
    fun k hk => Function.update_of_ne (fun heq => Nat.ne_of_lt hk (congrArg Handle.id heq)) _ _
  have hcases : ∀ k : Handle, k.id < (w.handles.push (some (⟨x, 0⟩ : HandleCell))).size →
      k = ⟨w.handles.size⟩ ∨ k.id < w.handles.size := by
    rintro ⟨k⟩ hk
    rw [Array.size_push] at hk
    rcases Nat.lt_succ_iff_lt_or_eq.mp hk with hk | rfl
    · exact .inr hk
    · exact .inl rfl
  have hold' : ∀ k : Handle, k.id < w'.handles.size → w'.cell? k =
      { w' with handles := w'.handles.push (some (P.handleCell ⟨x, 0⟩)) }.cell? k := fun k hk => by
    rw [World.cell?_push, if_neg (Nat.ne_of_lt hk)]
  refine ⟨⟨h.left.heap, fun k hk => ?_, fun k l hk hl heq => ?_, fun k c hc => ?_, h.left.single,
    h.left.home, h.left.calls, h.left.anchored, h.left.lifecycle⟩, ?_, h.refs,
    fun k l hk hl => ?_, h.homes, fun k hk => ?_, h.instance_cases, h.inFlight, h.rest⟩
  · have hsize' : w'.handles.size < (w'.handles.push (some (P.handleCell ⟨x, 0⟩))).size := by
      rw [Array.size_push]
      exact Nat.lt_succ_self _
    rcases hcases k hk with rfl | hk
    · rw [hnew, World.cell?_push, World.cell?_push, if_pos rfl, if_pos rfl]
      exact ⟨hsize', rfl⟩
    · obtain ⟨hlt, hcell⟩ := h.left.handle k hk
      rw [hold k hk, ← hold' _ hlt, World.cell?_push, if_neg (Nat.ne_of_lt hk)]
      exact ⟨Nat.lt_trans hlt hsize', hcell⟩
  · rcases hcases k hk with rfl | hk <;> rcases hcases l hl with rfl | hl
    · rfl
    · rw [hnew, hold l hl] at heq
      exact absurd (congrArg Handle.id heq).symm (Nat.ne_of_lt (h.left.handle l hl).1)
    · rw [hnew, hold k hk] at heq
      exact absurd (congrArg Handle.id heq) (Nat.ne_of_lt (h.left.handle k hk).1)
    · rw [hold k hk, hold l hl] at heq
      exact h.left.inj k l hk hl heq
  · rw [World.cell?_push] at hc
    split at hc
    · exact Option.some.inj hc ▸ ⟨hx, hi⟩
    · exact h.left.held k c hc
  · refine h.right.elsewhere (fun _ _ => rfl) (Nat.le_refl _) ?_ (fun k hk => ?_) (fun _ => rfl) rfl
    · rw [Array.size_push]
      exact Nat.le_succ _
    · exact (hold' _ (h.right.handle k hk).1).symm
  · rcases hcases k hk with rfl | hk
    · rw [hnew]
      exact fun heq => Nat.ne_of_gt (h.right.handle l hl).1 (congrArg Handle.id heq)
    · rw [hold k hk]
      exact h.handles k l hk hl
  · by_cases hsize : k.id = w'.handles.size
    · refine .inl ⟨⟨w.handles.size⟩, ?_, ?_⟩
      · rw [Array.size_push]
        exact Nat.lt_succ_self _
      · rw [hnew, ← hsize]
    · rw [World.cell?_push, if_neg hsize] at hk
      refine (h.handle_cases k hk).imp_left fun ⟨l, hl, heq⟩ => ⟨l, ?_, heq.trans (hold l hl).symm⟩
      rw [Array.size_push]
      exact Nat.lt_succ_of_lt hl

/-- **A handle is given back.** -/
theorem clear (h : Together P D w Q E v w') {k : Handle} (hk : k.id < w.handles.size) :
    Together P D { w with handles := w.handles.setIfInBounds k.id none } Q E v
      { w' with handles := w'.handles.setIfInBounds (P.handle k).id none } := by
  have hsize : (w.handles.setIfInBounds k.id none).size = w.handles.size :=
    Array.size_setIfInBounds
  have hsize' : (w'.handles.setIfInBounds (P.handle k).id none).size = w'.handles.size :=
    Array.size_setIfInBounds
  refine ⟨⟨h.left.heap, fun l hl => ?_, fun l m hl hm heq => ?_, fun l c hc => ?_, h.left.single,
    h.left.home, h.left.calls, h.left.anchored, h.left.lifecycle⟩, ?_, h.refs,
    fun l m hl hm => ?_, h.homes, fun l hl => ?_, h.instance_cases, h.inFlight, h.rest⟩
  · rw [hsize] at hl
    obtain ⟨hlt, hcell⟩ := h.left.handle l hl
    refine ⟨hsize'.symm ▸ hlt, ?_⟩
    rw [World.cell?_clear, World.cell?_clear]
    by_cases heq : k = l
    · rw [if_pos heq, if_pos (congrArg P.handle heq)]
      rfl
    · rw [if_neg heq, if_neg fun h' => heq (h.left.inj k l hk hl h')]
      exact hcell
  · exact h.left.inj l m (hsize ▸ hl) (hsize ▸ hm) heq
  · rw [World.cell?_clear] at hc
    split at hc
    · cases hc
    · exact h.left.held l c hc
  · refine h.right.elsewhere (fun _ _ => rfl) (Nat.le_refl _) hsize'.ge (fun l hl => ?_)
      (fun _ => rfl) rfl
    rw [World.cell?_clear, if_neg (h.handles k l hk hl)]
  · exact h.handles l m (hsize ▸ hl) hm
  · rw [World.cell?_clear] at hl
    split at hl
    · cases hl
    · refine (h.handle_cases l hl).imp_left fun ⟨m, hm, heq⟩ => ⟨m, hsize.symm ▸ hm, heq⟩

/-! ## The instance changes -/

/-- **The instance changes.** -/
theorem update (h : Together P D w Q E v w') (hi : (w.instance? 0).isSome)
    {f g : Instance → Instance} (hf : ∀ x x', w.instance? 0 = some x →
      P.Matches (w.heap.zone D) x x' → P.Matches (w.heap.zone D) (f x) (g x')) :
    Together P D (w.updateInstance 0 f) Q E v (w'.updateInstance P.home g) := by
  have hsome := World.isSome_updateInstance w 0 (f := f)
  refine ⟨⟨h.left.heap, h.left.handle, h.left.inj, fun k c hc => ?_, fun i hi => ?_,
    fun x hx => ?_, h.left.calls, h.left.anchored, h.left.lifecycle⟩, ?_, h.refs, h.handles,
    fun hw => ?_, h.handle_cases, fun i hi => ?_, h.inFlight, h.rest⟩
  · rw [hsome]
    exact h.left.held k c hc
  · rw [hsome] at hi
    exact h.left.single i hi
  · rw [World.instance?_updateInstance, if_pos rfl] at hx
    obtain ⟨y, hy, rfl⟩ := Option.map_eq_some_iff.mp hx
    obtain ⟨y', hy', hmatch⟩ := h.left.home y hy
    refine ⟨g y', ?_, hf y y' hy hmatch⟩
    rw [World.instance?_updateInstance, if_pos rfl, hy', Option.map_some]
  · refine h.right.elsewhere (fun _ _ => rfl) (Nat.le_refl _) (Nat.le_refl _) (fun _ _ => rfl)
      (fun hv => ?_) rfl
    rw [World.instance?_updateInstance, if_neg (h.homes hi hv)]
  · rw [hsome] at hw
    exact h.homes hw
  · rw [World.isSome_updateInstance] at hi
    rw [hsome]
    exact h.instance_cases i hi

/-! ## Calls begin and end -/

/-- **A call begins.** -/
theorem begin (h : Together P D w Q E v w') {u : Invocation} (howner : u.anchor.owner = 0)
    (hfits : u.activation.Fits (w.heap.zone D)) :
    Together P D { w with inFlight := u :: w.inFlight } Q E v
      { w' with inFlight := P.invocation u :: w'.inFlight } where
  left := { h.left with
    calls := List.forall_mem_cons.mpr ⟨⟨howner, hfits⟩, h.left.calls⟩ }
  right := { h.right with }
  refs := h.refs
  handles := h.handles
  homes := h.homes
  handle_cases := h.handle_cases
  instance_cases := h.instance_cases
  inFlight := congrArg (P.invocation u :: ·) h.inFlight
  rest := h.rest

/-- **A call ends.** -/
theorem finish (h : Together P D w Q E v w') :
    Together P D { w with inFlight := w.inFlight.tail } Q E v
      { w' with inFlight := w'.inFlight.tail } where
  left := { h.left with
    calls := fun u hu => h.left.calls u (List.mem_of_mem_tail hu) }
  right := { h.right with }
  refs := h.refs
  handles := h.handles
  homes := h.homes
  handle_cases := h.handle_cases
  instance_cases := h.instance_cases
  inFlight := (congrArg List.tail h.inFlight).trans List.map_tail.symm
  rest := h.rest

/-- Only the heap, the handles, the instances, the calls in progress and the lifecycle functions
matter. -/
theorem congr (h : Together P D w Q E v w') {w₁ w₁' : World} (hheap : w₁.heap = w.heap)
    (hhandles : w₁.handles = w.handles) (hinstances : w₁.instances = w.instances)
    (hflight : w₁.inFlight = w.inFlight) (hlifecycle : w₁.lifecycle = w.lifecycle)
    (hheap' : w₁'.heap = w'.heap) (hhandles' : w₁'.handles = w'.handles)
    (hinstances' : w₁'.instances = w'.instances) (hflight' : w₁'.inFlight = w'.inFlight)
    (hlifecycle' : w₁'.lifecycle = w'.lifecycle) : Together P D w₁ Q E v w₁' := by
  obtain ⟨heap, platform, instances, handles, inFlight, orphans, lifecycle, dropped, log⟩ := w₁
  obtain ⟨heap', platform', instances', handles', inFlight', orphans', lifecycle', dropped',
    log'⟩ := w₁'
  dsimp only at *
  subst hheap hhandles hinstances hflight hlifecycle hheap' hhandles' hinstances' hflight'
    hlifecycle'
  exact ⟨{ h.left with }, { h.right with }, h.refs, h.handles, h.homes, h.handle_cases,
    h.instance_cases, h.inFlight, h.rest⟩

end Together

end Boundary

end ScriptBoundary
