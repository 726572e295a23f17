import Mathlib.Data.List.Forall2
import ScriptBoundary.Proofs.Path
import ScriptBoundary.Proofs.RoundTrip

/-!
# Handing values over

Where a call crosses the boundary, several values cross it together. Handing them to the host, each
is presented, and none of the handles that this makes is lost on the way. Taking them back, each
becomes what it meant when all of them were still there, since a handle that is passed twice is not
possible and a new date disturbs no other object.

`World.Means` is to `decode` what `World.Presents` is to `encode`. A value that is taken and handed
out again passes through both, and `World.Normal` says what becomes of it: an inline value is what
it was, with the time of a date clipped, and a handle is another one for the same referent.

## Main results

* `World.presentsAll_encodeAll`, `World.meansAll_decodeAll`: many values at a time
* `World.normal_of_means`: taken and handed out again
-/

namespace ScriptBoundary.Boundary

open Script (Activation Anchor Heap HostCall Ref Time)

namespace World

variable {w w' w'' : World} {i j : InstanceId} {x : Script.Value} {u u' : Value}
  {xs : List Script.Value} {us : List Value} {h h' : Heap} {realm : Ref}

/-! ## Handing out -/

/-- A value goes on being presented where the heap is the same and the handles are still out. -/
theorem Presents.congr (hu : w.Presents i x u) (hheap : w'.heap = w.heap)
    (hcell : ∀ (h : Handle) (c : HandleCell), w.cell? h = some c → w'.cell? h = some c) :
    w'.Presents i x u := by
  rw [Presents] at hu ⊢
  rw [hheap]
  cases hx : Form.of w.heap x with
  | inline v =>
    rw [hx] at hu
    exact hu
  | composite kind =>
    rw [hx] at hu
    obtain ⟨h, hu, hc⟩ := hu
    exact ⟨h, hu, hcell h _ hc⟩

theorem heap_encodeAll (w : World) (i : InstanceId) (xs : List Script.Value) :
    (w.encodeAll i xs).2.heap = w.heap :=
  heap_congr (setting_encodeAll w i xs)

/-- What is handed out takes no handle back. -/
theorem cell?_encodeAll {h : Handle} {c : HandleCell} (hc : w.cell? h = some c) (i : InstanceId)
    (xs : List Script.Value) : (w.encodeAll i xs).2.cell? h = some c := by
  have hlt : h.id < w.purse.cells.size :=
    Purse.lt_of_cell? (p := w.purse) (by rw [cell?_purse, hc]; nofun)
  rw [← cell?_purse, (yields_encodeAll w i xs).cell? hlt]
  exact hc

/-- **All of them are presented**, one for one and in their order. -/
theorem presentsAll_encodeAll (w : World) (i : InstanceId) (xs : List Script.Value) :
    List.Forall₂ ((w.encodeAll i xs).2.Presents i) xs (w.encodeAll i xs).1 := by
  induction xs generalizing w with
  | nil => exact .nil
  | cons x xs ih =>
    refine .cons ?_ (ih _)
    exact (presents_encode w i x).congr (heap_encodeAll _ i xs) fun h c hc =>
      cell?_encodeAll hc i xs

/-- Handing arguments over and entering a callback touches no cell of the heap, -/
theorem heap_atEntry (w : World) (k : HostCall) : (w.atEntry k).heap = w.heap :=
  (heap_congr (setting_enter _ _)).trans (heap_encodeAll w k.anchor.owner (k.this :: k.args))

/-- and no registration. -/
theorem callbackOf_atEntry (w : World) (k : HostCall) (a : Anchor) :
    (w.atEntry k).callbackOf a = w.callbackOf a := by
  rw [← callbackOf_congr (calls_handOver w k) a, callbackOf_eq, callbackOf_eq, atEntry, table_enter,
    isAlive_enter]

/-- What the host's code is given when a script calls it: `this` and the arguments. -/
def handed (w : World) (k : HostCall) : List Value :=
  (w.encodeAll k.anchor.owner (k.this :: k.args)).1

/-- **What a callback is given** presents what the script passed. -/
theorem presentsAll_handed (w : World) (k : HostCall) :
    List.Forall₂ ((w.atEntry k).Presents k.anchor.owner) (k.this :: k.args) (w.handed k) := by
  refine (presentsAll_encodeAll w k.anchor.owner (k.this :: k.args)).imp fun x u hu => ?_
  refine hu.congr (heap_congr (setting_enter _ _)) fun h c hc => ?_
  rw [← cell?_purse, atEntry, purse_enter]
  exact hc

/-! ## Taking back -/

/-- Whether a script value is what a boundary value is decoded to: the referent of its handle, a
new date object, or the inline value itself. -/
def Means (w : World) (u : Value) (h : Heap) (x : Script.Value) : Prop :=
  match u with
  | .null => x = .null
  | .undefined => x = .undefined
  | .boolean b => x = .boolean b
  | .number y => x = .number y
  | .date ms => ∃ r, x = .object r ∧ w.heap.cells.size ≤ r ∧ r < h.cells.size
      ∧ (h.object r).nature = .date (.clip ms)
  | .composite _ hd => x = w.referent hd

theorem size_newDate (h : Heap) (realm : Ref) (ms : Float) :
    (newDate h realm ms).1.cells.size = h.cells.size + 1 :=
  Array.size_push _

/-- Decoding adds objects and changes none. -/
theorem object_decode (w : World) (realm : Ref) (u : Value) {r : Ref}
    (hr : r < w.heap.cells.size) : (w.decode realm u).2.heap.object r = w.heap.object r := by
  cases u with
  | date ms =>
    show (newDate w.heap realm ms).1.object r = _
    rw [newDate, Heap.apply, Heap.object_add, if_neg (Nat.ne_of_lt hr)]
  | composite kind hd =>
    show (w.releaseHandle hd).heap.object r = _
    rw [heap_congr (setting_releaseHandle w hd)]
  | _ => rfl

theorem evolvesHeap_decode (w : World) (realm : Ref) (u : Value) :
    w.heap.Evolves (w.decode realm u).2.heap := by
  cases u with
  | date ms =>
    show w.heap.Evolves (newDate w.heap realm ms).1
    exact Heap.evolves_apply _ _
  | composite kind hd =>
    show w.heap.Evolves (w.releaseHandle hd).heap
    rw [heap_congr (setting_releaseHandle w hd)]
    exact .refl _
  | _ => exact .refl _

theorem evolvesHeap_decodeAll (w : World) (realm : Ref) (us : List Value) :
    w.heap.Evolves (w.decodeAll realm us).2.heap := by
  induction us generalizing w with
  | nil => exact .refl _
  | cons u us ih => exact (evolvesHeap_decode w realm u).trans (ih _)

theorem object_decodeAll (w : World) (realm : Ref) (us : List Value) {r : Ref}
    (hr : r < w.heap.cells.size) : (w.decodeAll realm us).2.heap.object r = w.heap.object r := by
  induction us generalizing w with
  | nil => rfl
  | cons u us ih =>
    exact (ih (w.decode realm u).2
      (Nat.lt_of_lt_of_le hr (evolvesHeap_decode w realm u).size)).trans
        (object_decode w realm u hr)

/-- Taking values back has nothing to do with callbacks. -/
theorem calls_decode (w : World) (realm : Ref) (u : Value) :
    (w.decode realm u).2.calls = w.calls := by
  cases u with
  | composite kind hd => exact calls_releaseHandle w hd
  | _ => rfl

theorem calls_decodeAll (w : World) (realm : Ref) (us : List Value) :
    (w.decodeAll realm us).2.calls = w.calls := by
  induction us generalizing w with
  | nil => rfl
  | cons u us ih => exact (ih _).trans (calls_decode w realm u)

/-- **What is decoded is what was meant.** -/
theorem means_decode (w : World) (realm : Ref) (u : Value) :
    w.Means u (w.decode realm u).2.heap (w.decode realm u).1 := by
  cases u with
  | date ms =>
    refine ⟨_, rfl, Nat.le_refl _, ?_, nature_newDate w.heap realm ms⟩
    exact Nat.lt_of_lt_of_eq (Nat.lt_succ_self _) (size_newDate w.heap realm ms).symm
  | _ => exact rfl

theorem Means.decodeAll (hx : w.Means u w'.heap x) (realm : Ref) (us : List Value) :
    w.Means u (w'.decodeAll realm us).2.heap x := by
  cases u with
  | date ms =>
    obtain ⟨r, hr, hnew, hlt, hnature⟩ := hx
    refine ⟨r, hr, hnew, Nat.lt_of_lt_of_le hlt (evolvesHeap_decodeAll w' realm us).size, ?_⟩
    rw [object_decodeAll w' realm us hlt]
    exact hnature
  | _ => exact hx

/-- What a value means does not change when another one is taken. -/
theorem Means.of_decode (hx : (w.decode realm u').2.Means u h x)
    (hne : ∀ hd, u.handle? = some hd → u'.handle? ≠ some hd) : w.Means u h x := by
  cases u with
  | date ms =>
    obtain ⟨r, hr, hnew, hlt, hnature⟩ := hx
    exact ⟨r, hr, Nat.le_trans (evolvesHeap_decode w realm u').size hnew, hlt, hnature⟩
  | composite kind hd =>
    have hsame : (w.decode realm u').2.cell? hd = w.cell? hd := by
      rw [← cell?_purse, purse_decode, Purse.takeValue]
      split
      · next hd' hu' =>
        exact Purse.cell?_take_of_ne (p := w.purse) fun heq => hne hd rfl (heq ▸ hu')
      · rfl
    rw [Means, referent, hsame] at hx
    exact hx
  | _ => exact hx

/-- **All of them are what they meant**, if no handle is passed twice. -/
theorem meansAll_decodeAll (w : World) (realm : Ref) (hn : (Purse.handlesOf us).Nodup) :
    List.Forall₂ (fun u x => w.Means u (w.decodeAll realm us).2.heap x) us
      (w.decodeAll realm us).1 := by
  induction us generalizing w with
  | nil => exact .nil
  | cons u us ih =>
    obtain ⟨hn, hne⟩ : (Purse.handlesOf us).Nodup
        ∧ ∀ v ∈ us, ∀ hd, v.handle? = some hd → u.handle? ≠ some hd := by
      rw [Purse.handlesOf, List.filterMap_cons] at hn
      cases hu : u.handle? with
      | none =>
        rw [hu] at hn
        exact ⟨hn, fun _ _ _ _ => (Option.some_ne_none _).symm⟩
      | some hd =>
        rw [hu] at hn
        obtain ⟨hnot, hn⟩ := List.nodup_cons.mp hn
        refine ⟨hn, fun v hv hd' hv' heq => hnot ?_⟩
        rw [Option.some.inj heq]
        exact List.mem_filterMap.mpr ⟨v, hv, hv'⟩
    refine .cons ((means_decode w realm u).decodeAll realm us) ?_
    have htail := ih (w.decode realm u).2 hn
    exact ((List.forall₂_and_left us _).mpr ⟨hne, htail⟩).imp fun v x hv => hv.2.of_decode hv.1

/-! ## Taking and handing out again -/

/-- Whether a value is one that has been taken, by a script or by an operation, and handed out
again. -/
def Normal (w : World) (u : Value) (w' : World) (i : InstanceId) (u' : Value) : Prop :=
  match u with
  | .composite _ h => w'.Presents i (w.referent h) u'
  | u => u' = u.clipped

/-- What is normal depends on what handles referred to, and on nothing else that was there. -/
theorem Normal.of_referent (hu : w.Normal u w' i u') (h : ∀ hd, w.referent hd = w''.referent hd) :
    w''.Normal u w' i u' := by
  cases u with
  | composite kind hd =>
    rw [Normal, ← h hd]
    exact hu
  | _ => exact hu

/-- **Taken and handed out again.** -/
theorem normal_of_means (hx : w.Means u w'.heap x) (hu : w'.Presents i x u') :
    w.Normal u w' i u' := by
  cases u with
  | date ms =>
    obtain ⟨r, rfl, -, -, hnature⟩ := hx
    rw [Presents, Form.of_date hnature] at hu
    exact hu
  | composite kind hd =>
    obtain rfl : x = w.referent hd := hx
    exact hu
  | _ =>
    cases hx
    exact hu

theorem normalAll_of_meansAll {us' : List Value}
    (hx : List.Forall₂ (fun u x => w.Means u w'.heap x) us xs)
    (hu : List.Forall₂ (w'.Presents i) xs us') :
    List.Forall₂ (fun u u' => w.Normal u w' i u') us us' := by
  induction hx generalizing us' with
  | nil =>
    cases hu
    exact .nil
  | cons hx _ ih =>
    cases hu with
    | cons hu hrest => exact .cons (normal_of_means hx hu) (ih hrest)

end World

end ScriptBoundary.Boundary
