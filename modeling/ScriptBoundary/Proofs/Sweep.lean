import ScriptBoundary.Proofs.Neighbours

/-!
# The collector in a shared world

There is one collector, and it looks at the whole heap. What it starts from is what the two tenants
hold, and from what one of them holds no link leads to what the other one has. So it finds of each
part what a collector would find that had that part to itself.

A pass therefore does to the tenant that asked for it what it would do if the tenant were alone. To
the other one it does what a pass of its own would do, though it has not asked: those of its
registrations are finalized whose function is unreachable already. The part of the other one that is
looked at is what it can reach from then on.

## Main results

* `Together.reachable_left`, `Together.reachable_right`: what is reachable for whom
* `Abreast.collectFor`, `Abreast.destroy`: a pass, and the end of an instance
-/

namespace ScriptBoundary

namespace Script.Embedding

open Boundary

variable {f : Embedding} {Z : Zone} {S : Set Ref} {x x' : Instance}

/-- What is left of an instance in a smaller zone when some registrations are finalized in both
places. -/
theorem Matches.keep (h : f.Matches Z x x') (hS : S ⊆ Z.refs) {p q : Nat × Registration → Bool}
    (hp : ∀ e ∈ x.table.entries, e.2.function ∈ Z.refs →
      (q (e.1, f.registration e.2) = true ↔ p e = true ∧ e.2.function ∈ S))
    (hrealm : x.isLive = true → x.realm ∈ S) (hlent : ∀ act ∈ x.lent, act.Fits (Z.within S)) :
    f.Matches (Z.within S) { x with table := x.table.keep p }
      { x' with table := x'.table.keep q } := by
  have hcensus : ∀ (t : CallbackTable) (p : Nat × Registration → Bool),
      (t.keep p).live + (t.keep p).finalized = t.live + t.finalized := by
    intro t p
    have hcount := t.entries.length_eq_countP_add_countP p
    simp only [CallbackTable.keep, CallbackTable.live, ← List.countP_eq_length_filter]
    simp only [Bool.not_eq_true, Bool.decide_eq_false] at hcount
    omega
  refine { h with
    realm := fun hlive => ⟨(h.realm hlive).1, hrealm hlive, (h.realm hlive).2.2⟩
    fits_lent := hlent
    census := ?_
    entries := ?_
    own := fun e he => h.own e (List.mem_filter.mp he).1 }
  · rw [hcensus, hcensus, h.census]
  · show x'.table.entries.filter q = ((x.table.keep p).within S).map _
    rw [h.entries, List.filter_map]
    refine congrArg (List.map _) ?_
    classical
    show (x.table.entries.filter _).filter _ = (x.table.entries.filter p).filter _
    rw [List.filter_filter, List.filter_filter]
    refine List.filter_congr fun e he => ?_
    rw [Bool.eq_iff_iff, Bool.and_eq_true, Bool.and_eq_true, decide_eq_true_iff,
      decide_eq_true_iff]
    constructor
    · rintro ⟨hp', hmem⟩
      exact ((hp e he hmem).mp hp').symm
    · rintro ⟨hmem, hpe⟩
      exact ⟨(hp e he (hS hmem)).mpr ⟨hpe, hmem⟩, hS hmem⟩

end Script.Embedding

namespace Boundary

open Script (Activation Anchor Embedding Grows Heap Reachable Ref Zone)

variable {P Q : Passage} {D E : Set Ref} {w v w' : World}

/-! ## What the collector starts from -/

/-- What one tenant holds is held in the shared world. -/
theorem World.Stands.roots (h : w.Stands P D w')
    (hflight : ∀ u ∈ w.inFlight, P.invocation u ∈ w'.inFlight) {q : Ref} (hq : q ∈ w.roots) :
    q ∈ D ∧ P.ref q ∈ w'.roots := by
  rcases World.mem_roots_iff.mp hq with ⟨k, c, hc, hv⟩ | ⟨i, x, hx, rfl⟩ | ⟨u, hu, hq⟩
  · have hfits := (h.held k c hc).1
    have hcell := (h.handle k (World.lt_size_of_cell? (hc ▸ rfl))).2
    rw [hc, Option.map_some] at hcell
    rw [hv] at hfits
    refine ⟨hfits, World.mem_roots_iff.mpr (.inl ⟨_, _, hcell, ?_⟩)⟩
    show P.value c.value = _
    rw [hv]
    rfl
  · obtain ⟨hthere, hlive⟩ := World.live?_eq_some_iff.mp hx
    obtain rfl := h.single i (hthere ▸ rfl)
    obtain ⟨x', hx', hmatch⟩ := h.home x hthere
    obtain ⟨hrealm, hfits⟩ := hmatch.realm hlive
    refine ⟨hfits.1, World.mem_roots_iff.mpr (.inr (.inl ⟨P.home, x', ?_, hrealm⟩))⟩
    exact World.live?_eq_some_iff.mpr ⟨hx', hmatch.isLive.trans hlive⟩
  · refine ⟨(h.calls u hu).2.held q hq, World.mem_roots_iff.mpr (.inr (.inr ⟨_, hflight u hu, ?_⟩))⟩
    exact List.mem_map_of_mem hq

namespace Together

/-- Whatever is held in the shared world, one of the tenants holds it. -/
theorem roots_cases (h : Together P D w Q E v w') {q : Ref} (hq : q ∈ w'.roots) :
    (∃ p ∈ w.roots, q = P.ref p) ∨ ∃ p ∈ v.roots, q = Q.ref p := by
  -- Handles and instances may be either tenant's, so these are treated once for both of them.
  have hhandle : ∀ {P : Passage} {D : Set Ref} {w : World}, w.Stands P D w' → ∀ {k c},
      k.id < w.handles.size → w'.cell? (P.handle k) = some c → c.value = .object q →
      ∃ p ∈ w.roots, q = P.ref p := by
    intro P D w hS k c hk hc hv
    rw [(hS.handle k hk).2] at hc
    obtain ⟨d, hd, rfl⟩ := Option.map_eq_some_iff.mp hc
    have hv : P.value d.value = .object q := hv
    cases hx : d.value with
    | object p =>
      rw [hx] at hv
      exact ⟨p, World.mem_roots_iff.mpr (.inl ⟨k, d, hd, hx⟩), (Script.Value.object.inj hv).symm⟩
    | _ =>
      rw [hx] at hv
      cases hv
  have hinstance : ∀ {P : Passage} {D : Set Ref} {w : World}, w.Stands P D w' → ∀ {x'},
      (w.instance? 0).isSome → w'.live? P.home = some x' → ∃ p ∈ w.roots, x'.realm = P.ref p := by
    intro P D w hS x' hi hx'
    obtain ⟨x, hx⟩ := Option.isSome_iff_exists.mp hi
    obtain ⟨y', hy', hmatch⟩ := hS.home x hx
    obtain ⟨hthere', hlive'⟩ := World.live?_eq_some_iff.mp hx'
    obtain rfl := Option.some.inj (hy'.symm.trans hthere')
    have hlive := hmatch.isLive.symm.trans hlive'
    exact ⟨x.realm, World.mem_roots_iff.mpr
      (.inr (.inl ⟨0, x, World.live?_eq_some_iff.mpr ⟨hx, hlive⟩, rfl⟩)), (hmatch.realm hlive).1⟩
  rcases World.mem_roots_iff.mp hq with ⟨k, c, hc, hv⟩ | ⟨i, x', hx', rfl⟩ | ⟨u, hu, hq⟩
  · rcases h.handle_cases k (hc ▸ rfl) with ⟨l, hl, rfl⟩ | ⟨l, hl, rfl⟩
    · exact .inl (hhandle h.left hl hc hv)
    · exact .inr (hhandle h.right hl hc hv)
  · rcases h.instance_cases i ((World.live?_eq_some_iff.mp hx').1 ▸ rfl) with
      ⟨rfl, hi⟩ | ⟨rfl, hi⟩
    · exact .inl (hinstance h.left hi hx')
    · exact .inr (hinstance h.right hi hx')
  · rw [h.inFlight] at hu
    obtain ⟨u₀, hu₀, heq⟩ := List.mem_map.mp hu
    subst heq
    obtain ⟨p, hp, rfl⟩ := List.mem_map.mp hq
    exact .inl ⟨p, World.mem_roots_iff.mpr (.inr (.inr ⟨u₀, hu₀, hp⟩)), rfl⟩

theorem roots_left (h : Together P D w Q E v w') {q : Ref} (hq : q ∈ w.roots) :
    q ∈ D ∧ P.ref q ∈ w'.roots :=
  h.left.roots (fun _ hu => h.inFlight ▸ List.mem_map_of_mem hu) hq

theorem roots_right (h : Together P D w Q E v w') {q : Ref} (hq : q ∈ v.roots) :
    q ∈ E ∧ Q.ref q ∈ w'.roots := by
  refine h.right.roots (fun u hu => ?_) hq
  rw [h.rest.inFlight] at hu
  cases hu

/-! ## What it finds -/

/-- No link leads out of what one tenant has. -/
private theorem closed_image {P : Passage} {D : Set Ref} {w : World} (h : w.Stands P D w') :
    ∀ q ∈ P.ref '' D, ∀ p ∈ w'.heap.links q, p ∈ P.ref '' D := by
  rintro _ ⟨q, hq, rfl⟩ p hp
  rw [h.heap.links hq] at hp
  obtain ⟨p₀, hp₀, rfl⟩ := List.mem_map.mp hp
  exact ⟨p₀, h.heap.closed hq p₀ hp₀, rfl⟩

/-- **What the collector finds** of the part of the tenant that acts. -/
theorem reachable_left (h : Together P D w Q E v w') {r : Ref} (hr : r ∈ D) :
    Reachable w'.heap w'.roots (P.ref r) ↔ Reachable w.heap w.roots r := by
  refine h.left.heap.reachable_iff (fun q hq => h.roots_left hq) (fun q hq => ?_)
    (closed_image h.right) ?_ hr
  · refine (h.roots_cases hq).imp_right ?_
    rintro ⟨p, hp, rfl⟩
    exact ⟨p, (h.roots_right hp).1, rfl⟩
  · rintro r hr ⟨q, hq, heq⟩
    exact h.refs r hr q hq heq.symm

/-- **What it finds** of the part of the other one. -/
theorem reachable_right (h : Together P D w Q E v w') {r : Ref} (hr : r ∈ E) :
    Reachable w'.heap w'.roots (Q.ref r) ↔ Reachable v.heap v.roots r := by
  refine h.right.heap.reachable_iff (fun q hq => h.roots_right hq) (fun q hq => ?_)
    (closed_image h.left) ?_ hr
  · rcases h.roots_cases hq with ⟨p, hp, rfl⟩ | hq
    · exact .inr ⟨p, (h.roots_left hp).1, rfl⟩
    · exact .inl hq
  · rintro r hr ⟨q, hq, heq⟩
    exact h.refs q hq r hr heq

/-- What can be reached of the part of the other one is a part of its own. -/
theorem mem_of_reachable (h : Together P D w Q E v w') {r : Ref}
    (hr : Reachable v.heap v.roots r) : r ∈ E := by
  induction hr with
  | root hq _ => exact (h.roots_right hq).1
  | link _ hlink _ ih => exact h.right.heap.closed ih _ hlink

end Together

/-! ## What a pass does -/

/-- All that can be reached of a world. -/
def World.reach (w : World) : Set Ref := {r | Reachable w.heap w.roots r}

theorem World.Sane.reaches_iff (h : w.Sane) (r : Ref) : w.Reaches r ↔ Reachable w.heap w.roots r :=
  (h.placed.marked_iff r).symm.trans (Script.mark_iff ..)

/-- What stands in a shared world of a tenant that is at rest does so as far as it can be reached,
also after the instance has lost some registrations. -/
theorem World.Stands.sweep {w₁' : World} (h : v.Stands Q E w') (hv : v.AtRest)
    (hreach : v.reach ⊆ E) (hs : w'.Spares w₁')
    (hhome : ∀ x x', v.instance? 0 = some x → w'.instance? Q.home = some x' →
      Q.Matches (v.heap.zone E) x x' →
      ∃ x₁', w₁'.instance? Q.home = some x₁' ∧ Q.Matches (v.heap.zone v.reach) x x₁') :
    v.Stands Q v.reach w₁' where
  heap := by
    rw [hs.heap]
    exact h.heap.restrict hreach fun r hr q hq =>
      .link hr hq (h.heap.lt_size (h.heap.closed (hreach hr) q hq))
  handle k hk := by
    rw [World.cell?, hs.handles]
    exact h.handle k hk
  inj := h.inj
  held k c hc := by
    refine (h.held k c hc).imp_left fun hfits => ?_
    refine hfits.within_iff.mpr fun q hq => ?_
    have hvalue : c.value = .object q := by
      cases hx : c.value with
      | object p =>
        rw [hx] at hq
        rw [List.mem_singleton.mp hq]
      | _ =>
        rw [hx] at hq
        cases hq
    exact .root (World.mem_roots_iff.mpr (.inl ⟨k, c, hc, hvalue⟩))
      (h.heap.lt_size (hfits.links q hq))
  single := h.single
  home x hx := by
    obtain ⟨x', hx', hmatch⟩ := h.home x hx
    exact hhome x x' hx hx' hmatch
  calls u hu := by
    rw [hv.inFlight] at hu
    cases hu
  anchored r hr := h.anchored r (hreach hr)
  lifecycle := hs.lifecycle.trans h.lifecycle

namespace Together

/-- **Two worlds after a pass**: what the other tenant has is looked at as far as it can reach
it. -/
theorem sweep {w₁ w₁' : World} (h : Together P D w Q E v w') (hs : w.Spares w₁)
    (hs' : w'.Spares w₁') (hi : ∀ i, (w₁.instance? i).isSome = (w.instance? i).isSome)
    (hi' : ∀ i, (w₁'.instance? i).isSome = (w'.instance? i).isSome)
    (hleft : ∀ x x', w.instance? 0 = some x → w'.instance? P.home = some x' →
      P.Matches (w.heap.zone D) x x' → ∃ x₁ x₁', w₁.instance? 0 = some x₁
        ∧ w₁'.instance? P.home = some x₁' ∧ P.Matches (w.heap.zone D) x₁ x₁')
    (hright : ∀ x x', v.instance? 0 = some x → w'.instance? Q.home = some x' →
      Q.Matches (v.heap.zone E) x x' →
      ∃ x₁', w₁'.instance? Q.home = some x₁' ∧ Q.Matches (v.heap.zone v.reach) x x₁') :
    Together P D w₁ Q v.reach v w₁' := by
  have hreach : v.reach ⊆ E := fun r hr => h.mem_of_reachable hr
  obtain ⟨heap, platform, instances, handles, inFlight, orphans, lifecycle, dropped, log⟩ := w₁
  obtain ⟨heap', platform', instances', handles', inFlight', orphans', lifecycle', dropped',
    log'⟩ := w₁'
  obtain ⟨hheap, -, hhandles, hflight, hlifecycle⟩ := hs
  obtain ⟨hheap', hplatform', hhandles', hflight', hlifecycle'⟩ := id hs'
  dsimp only at *
  subst hheap hhandles hflight hlifecycle
  have hstill : (World.instance? ⟨w.heap, platform, instances, w.handles, w.inFlight, orphans,
      w.lifecycle, dropped, log⟩ 0).isSome = (w.instance? 0).isSome := hi 0
  refine ⟨?_, h.right.sweep h.rest hreach hs' hright, fun r hr q hq => h.refs r hr q (hreach hq),
    h.handles, fun hw => h.homes (hstill ▸ hw), ?_, fun i hi'' => ?_, hflight'.trans h.inFlight,
    h.rest⟩
  · refine ⟨hheap' ▸ h.left.heap, ?_, h.left.inj, fun k c hc => ?_, fun i hi'' => ?_,
      fun x₁ hx₁ => ?_, h.left.calls, h.left.anchored, hlifecycle'.trans h.left.lifecycle⟩
    · subst hhandles'
      exact h.left.handle
    · exact (h.left.held k c hc).imp_right fun hi'' => (hi _).trans hi''
    · exact h.left.single i ((hi i).symm.trans hi'')
    · obtain ⟨x, x', hx, hx', hmatch⟩ : ∃ x x', w.instance? 0 = some x
          ∧ w'.instance? P.home = some x' ∧ P.Matches (w.heap.zone D) x x' := by
        obtain ⟨x, hx⟩ := Option.isSome_iff_exists.mp ((hi 0).symm.trans (hx₁ ▸ rfl))
        obtain ⟨x', hx', hmatch⟩ := h.left.home x hx
        exact ⟨x, x', hx, hx', hmatch⟩
      obtain ⟨y, y', hy, hy', hfinal⟩ := hleft x x' hx hx' hmatch
      obtain rfl := Option.some.inj (hy.symm.trans hx₁)
      exact ⟨y', hy', hfinal⟩
  · subst hhandles'
    exact h.handle_cases
  · rw [hstill]
    exact h.instance_cases i ((hi' i).symm.trans hi'')

end Together

/-- What a pass finalizes of a tenant that is at rest was unreachable. -/
private theorem matches_swept (h : Together P D w Q E v w') (hw' : w'.Sane) {x x' : Instance}
    (hx : v.instance? 0 = some x) (hmatch : Q.Matches (v.heap.zone E) x x') :
    Q.Matches (v.heap.zone v.reach) x
      { x' with table := x'.table.keep fun e => decide (w'.Reaches e.2.function) } := by
  have hkept := hmatch.keep (S := v.reach) (p := fun _ => true)
    (q := fun e => decide (w'.Reaches e.2.function)) (fun r hr => h.mem_of_reachable hr)
    (fun e _ he => ?_) (fun hlive => ?_) (fun act hact => ?_)
  · rwa [CallbackTable.keep_all] at hkept
  · rw [decide_eq_true_iff, hw'.reaches_iff, and_iff_right rfl]
    exact h.reachable_right he
  · have hroot : x.realm ∈ v.roots := World.mem_roots_iff.mpr
      (.inr (.inl ⟨0, x, World.live?_eq_some_iff.mpr ⟨hx, hlive⟩, rfl⟩))
    exact .root hroot (h.right.heap.lt_size (h.roots_right hroot).1)
  · rw [h.rest.lent x hx] at hact
    cases hact

namespace Abreast

/-- **A pass of the collector.** -/
theorem collect (h : Abreast Q v P D E w w') :
    Abreast Q v P D v.reach w.collect w'.collect ∧ Onward P D w P D w.collect := by
  have hspares : ∀ {u : World}, u.Spares u.collect := World.spares_finalizes _ _
  have hcollected : ∀ {u : World}, u.Sane → ∀ i, u.collect.instance? i = (u.instance? i).map
      fun x => { x with table := x.table.keep fun e => decide (u.Reaches e.2.function) } := by
    intro u hu i
    obtain ⟨ms, hms⟩ := hu.account
    exact hms.instance?_collect hu.placed i
  have hsome : ∀ {u : World}, u.Sane → ∀ i,
      (u.collect.instance? i).isSome = (u.instance? i).isSome := fun hu i => by
    rw [hcollected hu, Option.isSome_map]
  refine ⟨⟨h.together.sweep hspares hspares (hsome h.sane) (hsome h.sane')
      (fun x x' hx hx' hmatch => ?_) (fun x x' hx hx' hmatch => ?_),
    h.sane.path fun _ => Path.finalizeAll _,
    h.sane'.path fun _ => Path.finalizeAll _⟩, .of_same hspares.heap
      (congrArg Array.size hspares.handles) fun hi => (hsome h.sane 0).trans hi⟩
  · refine ⟨_, _, (hcollected h.sane 0).trans (congrArg _ hx),
      (hcollected h.sane' P.home).trans (congrArg _ hx'), ?_⟩
    refine hmatch.keep (S := D) subset_rfl (fun e _ he => ?_) (fun hlive => ?_) hmatch.fits_lent
    · rw [decide_eq_true_iff, decide_eq_true_iff, and_iff_left (show e.2.function ∈ D from he),
        h.sane.reaches_iff, h.sane'.reaches_iff]
      exact h.together.reachable_left he
    · exact (hmatch.realm hlive).2.1
  · exact ⟨_, (hcollected h.sane' Q.home).trans (congrArg _ hx'),
      matches_swept h.together h.sane' hx hmatch⟩

/-- **A pass on behalf of the instance.** -/
theorem collectFor (h : Abreast Q v P D E w w') (hi : (w.instance? 0).isSome) :
    Abreast Q v P D v.reach (w.collectFor 0) (w'.collectFor P.home)
      ∧ Onward P D w P D (w.collectFor 0) := by
  obtain ⟨x, x', hx, hx', -⟩ := h.together.instances hi
  obtain ⟨hcollect, honward⟩ := h.collect
  rw [World.collectFor, World.collectFor, hx, hx']
  exact ⟨hcollect.note _ _, honward.trans (.of_same rfl rfl id)⟩

end Abreast

/-! ## The end of an instance -/

/-- What is left of a table when some of its registrations are retired, one after the other. -/
theorem CallbackTable.retire_each (t : CallbackTable) (es : List (Nat × Registration)) :
    (es.foldl (fun t e => t.retire e.1) t).entries = t.entries.filter (·.1 ∉ es.map (·.1))
      ∧ (es.foldl (fun t e => t.retire e.1) t).finalized = t.finalized + es.length
      ∧ (es.foldl (fun t e => t.retire e.1) t).nextId = t.nextId := by
  induction es generalizing t with
  | nil => exact ⟨(List.filter_eq_self.mpr fun _ _ => rfl).symm, rfl, rfl⟩
  | cons e es ih =>
    obtain ⟨hentries, hfinalized, hnextId⟩ := ih (t.retire e.1)
    refine ⟨hentries.trans ?_, hfinalized.trans ?_, hnextId⟩
    · rw [retire, List.filter_filter]
      refine List.filter_congr fun p _ => ?_
      rw [Bool.eq_iff_iff, Bool.and_eq_true, decide_eq_true_iff, decide_eq_true_iff, bne_iff_ne,
        List.map_cons, List.mem_cons, not_or]
      exact and_comm
    · show t.finalized + 1 + es.length = t.finalized + (es.length + 1)
      omega

theorem World.instance?_retireEach (w : World) (i : InstanceId) (es : List (Nat × Registration)) :
    (w.retireEach i es).instance? i = (w.instance? i).map fun x =>
      { x with table := es.foldl (fun t e => t.retire e.1) x.table } := by
  induction es generalizing w with
  | nil => exact Option.map_id'.symm
  | cons e es ih =>
    refine (ih _).trans ?_
    rw [instance?_retire, if_pos rfl, Option.map_map]
    rfl

/-- **What is left of an instance that was shut**: no registration, all of them finalized. -/
theorem World.instance?_shut {w : World} {i : InstanceId} {x : Instance}
    (hx : w.instance? i = some x) : ∃ t : CallbackTable,
      (w.shut i).instance? i = some { x with table := t, isLive := false }
        ∧ t.entries = [] ∧ t.nextId = x.table.nextId
        ∧ t.live + t.finalized = x.table.live + x.table.finalized := by
  obtain ⟨hentries, hfinalized, hnextId⟩ :=
    CallbackTable.retire_each x.table x.table.entries
  have hnone : (x.table.entries.filter (·.1 ∉ x.table.entries.map (·.1))) = [] := by
    rw [List.filter_eq_nil_iff]
    intro e he hnot
    exact of_decide_eq_true hnot (List.mem_map_of_mem he)
  refine ⟨{ x.table.entries.foldl (fun t e => t.retire e.1) x.table with externalBytes := 0 },
    ?_, hentries.trans hnone, hnextId, ?_⟩
  · rw [shut, close, instance?_updateInstance, if_pos rfl, finalizeAll_eq_retireEach,
      instance?_retireEach, table_of_instance? hx, hx]
    rfl
  · show (x.table.entries.foldl (fun t e => t.retire e.1) x.table).entries.length
      + (x.table.entries.foldl (fun t e => t.retire e.1) x.table).finalized = _
    rw [hentries, hnone, hfinalized, CallbackTable.live, List.length_nil]
    omega

/-- Nothing else is done to an instance that is shut, and nothing to the others. -/
theorem World.instances_shut {w : World} {i : InstanceId} {x y : Instance}
    (hx : w.instance? i = some x) (hy : (w.shut i).instance? i = some y) :
    (w.shut i).instances = (w.updateInstance i fun _ => y).instances := by
  refine Array.ext_getElem? fun j => ?_
  show (w.shut i).instance? j = (w.updateInstance i fun _ => y).instance? j
  rw [instance?_updateInstance]
  split
  · next h =>
    subst h
    rw [hy, hx]
    rfl
  · next h => exact instance?_shut_of_ne h w

namespace Abreast

/-- **The instance is shut**, in both worlds. -/
theorem shut (h : Abreast Q v P D E w w') (halive : w.isAlive 0 = true) :
    Abreast Q v P D E (w.shut 0) (w'.shut P.home) ∧ Onward P D w P D (w.shut 0) := by
  obtain ⟨x, hlive⟩ := Option.isSome_iff_exists.mp (World.isAlive_eq_isSome_live? ▸ halive)
  have hthere := (World.live?_eq_some_iff.mp hlive).1
  obtain ⟨y, y', hy, hy', hmatch⟩ := h.together.instances (hthere ▸ rfl)
  obtain rfl := Option.some.inj (hthere.symm.trans hy)
  have halive' : w'.isAlive P.home = true := World.isAlive_of_live? (World.live?_eq_some_iff.mpr
    ⟨hy', hmatch.isLive.trans (World.live?_eq_some_iff.mp hlive).2⟩)
  obtain ⟨t, ht, hentries, hnextId, hcensus⟩ := World.instance?_shut hy
  obtain ⟨t', ht', hentries', hnextId', hcensus'⟩ := World.instance?_shut hy'
  have hfinal : P.Matches (w.heap.zone D) { x with table := t, isLive := false }
      { y' with table := t', isLive := false } :=
    { hmatch with
      realm := nofun
      isLive := rfl
      nextId := hnextId'.trans (hmatch.nextId.trans hnextId.symm)
      census := hcensus'.trans (hmatch.census.trans hcensus.symm)
      entries := by
        have hnone : t.within (w.heap.zone D).refs = [] := by
          rw [CallbackTable.within, hentries]
          rfl
        rw [hnone]
        exact hentries'
      own := fun e he => by
        rw [show t.entries = [] from hentries] at he
        cases he }
  have hupdate := h.together.update (hthere ▸ rfl)
    (f := fun _ => { x with table := t, isLive := false })
    (g := fun _ => { y' with table := t', isLive := false }) fun _ _ _ _ => hfinal
  have hspares := World.spares_shut w 0
  have hspares' := World.spares_shut w' P.home
  have hshut : Change.apply w (.shut 0) = some (w.shut 0) := by simp [Change.apply, halive]
  have hshut' : Change.apply w' (.shut P.home) = some (w'.shut P.home) := by
    simp [Change.apply, halive']
  refine ⟨⟨hupdate.congr hspares.heap hspares.handles (World.instances_shut hy ht)
    hspares.inFlight hspares.lifecycle hspares'.heap hspares'.handles
    (World.instances_shut hy' ht') hspares'.inFlight hspares'.lifecycle,
    h.sane.change hshut, h.sane'.change hshut'⟩,
    .of_same hspares.heap (congrArg Array.size hspares.handles) fun _ => ht ▸ rfl⟩

/-- A line is written in either log or not. -/
private theorem note_unless (h : Abreast Q v P D E w w') (p p' : Prop) [Decidable p]
    [Decidable p'] (e e' : Event) :
    Abreast Q v P D E (if p then w else w.note e) (if p' then w' else w'.note e')
      ∧ Onward P D w P D (if p then w else w.note e) := by
  have hleft : Abreast Q v P D E (w.note e) w' :=
    ⟨h.together.congr rfl rfl rfl rfl rfl rfl rfl rfl rfl rfl,
      h.sane.path fun _ => Path.note e, h.sane'⟩
  have hright : Abreast Q v P D E w (w'.note e') :=
    ⟨h.together.congr rfl rfl rfl rfl rfl rfl rfl rfl rfl rfl, h.sane,
      h.sane'.path fun _ => Path.note e'⟩
  split <;> split
  · exact ⟨h, .refl P D w⟩
  · exact ⟨hright, .refl P D w⟩
  · exact ⟨hleft, .of_same rfl rfl id⟩
  · exact ⟨h.note e e', .of_same rfl rfl id⟩

/-- **The instance is destroyed.** -/
theorem destroy (h : Abreast Q v P D E w w') (halive : w.isAlive 0 = true) :
    Abreast Q v P D v.reach (w.destroy 0) (w'.destroy P.home)
      ∧ Onward P D w P D (w.destroy 0) := by
  obtain ⟨x, hx⟩ := Option.isSome_iff_exists.mp (World.isAlive_eq_isSome_live? ▸ halive)
  obtain ⟨hthere, hlive⟩ := World.live?_eq_some_iff.mp hx
  obtain ⟨x', hthere', hmatch⟩ := h.together.left.home x hthere
  have hx' : w'.live? P.home = some x' :=
    World.live?_eq_some_iff.mpr ⟨hthere', hmatch.isLive.trans hlive⟩
  obtain ⟨hshut, honward⟩ := h.shut halive
  rw [World.destroy, World.destroy, hx, hx']
  obtain ⟨hlisted, honward₁⟩ := hshut.note_unless (_ = 0) (_ = 0) _ _
  obtain ⟨hcollect, honward₂⟩ := hlisted.collect
  exact ⟨hcollect.note _ _, (honward.trans honward₁).trans (honward₂.trans (.of_same rfl rfl id))⟩

end Abreast

end Boundary

end ScriptBoundary
