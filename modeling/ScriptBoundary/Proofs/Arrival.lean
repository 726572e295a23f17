import ScriptBoundary.Proofs.Replica
import ScriptBoundary.Proofs.Sharing

/-!
# Moving in

A tenant that has no instance has nothing: its own process is bare, and nothing of the shared one is
its own. When its instance is made, a realm is added to either heap, and what is in the new realm of
the shared process is what is in the first one of its own, at other addresses (`Together.arrive`).

## Main results

* `Together.bare`: two tenants that have nothing
* `Together.arrive`: one of them gets an instance
-/

namespace ScriptBoundary

namespace Boundary

open Script (Embedding Heap Limits Ref Symbol)

variable {P Q : Passage} {D E : Set Ref} {w v w' : World}

/-- A process in which nothing was made yet. -/
structure World.Bare (w : World) : Prop where
  heap : w.heap = .empty
  instances : w.instances = #[]
  handles : w.handles = #[]
  inFlight : w.inFlight = []

namespace World.Bare

theorem instance?_eq (h : w.Bare) (i : InstanceId) : w.instance? i = none := by
  rw [instance?, h.instances]
  rfl

theorem not_lt_size (h : w.Bare) {k : Handle} (hk : k.id < w.handles.size) : False := by
  rw [h.handles] at hk
  exact Nat.not_lt_zero _ hk

theorem cell?_eq (h : w.Bare) (k : Handle) : w.cell? k = none := by
  rw [cell?, h.handles]
  rfl

theorem atRest (h : w.Bare) : w.AtRest :=
  ⟨h.inFlight, fun x hx => by rw [h.instance?_eq] at hx; cases hx⟩

theorem range_eq (h : w.Bare) : w.heap.range = ∅ := by
  rw [h.heap]
  exact Set.eq_empty_iff_forall_notMem.mpr fun r hr => Nat.not_lt_zero r hr

/-- Nothing stands anywhere. -/
theorem stands (h : w.Bare) (hs : Symbol.firstFresh ≤ w'.heap.nextSymbol)
    (hl : w'.lifecycle = w.lifecycle) (P : Passage) (hP : P.symbol = .refl Nat) :
    w.Stands P ∅ w' where
  heap :=
    { cell := nofun
      inj := nofun
      block := nofun
      symbol := fun s hlt => by
        rw [hP]
        rw [h.heap] at hlt
        exact Nat.lt_of_lt_of_le hlt hs
      wellKnown := fun s _ => by rw [hP]; rfl
      fresh := by rw [h.heap]; exact Nat.le_refl _ }
  handle k hk := (h.not_lt_size hk).elim
  inj k _ hk := (h.not_lt_size hk).elim
  held k c hc := by
    rw [h.cell?_eq] at hc
    cases hc
  single i hi := by
    rw [h.instance?_eq] at hi
    cases hi
  home x hx := by
    rw [h.instance?_eq] at hx
    cases hx
  calls u hu := by
    rw [h.inFlight] at hu
    cases hu
  anchored := nofun
  lifecycle := hl

end World.Bare

/-- Two tenants that have nothing. -/
theorem Together.bare (hw : w.Bare) (hv : v.Bare) (hw' : w'.Bare) (hlw : w'.lifecycle = w.lifecycle)
    (hlv : w'.lifecycle = v.lifecycle) (hP : P.symbol = .refl Nat) (hQ : Q.symbol = .refl Nat) :
    Together P ∅ w Q ∅ v w' where
  left := hw.stands (by rw [hw'.heap]; exact Nat.le_refl _) hlw P hP
  right := hv.stands (by rw [hw'.heap]; exact Nat.le_refl _) hlv Q hQ
  refs := nofun
  handles k _ hk := (hw.not_lt_size hk).elim
  homes hi := by
    rw [hw.instance?_eq] at hi
    cases hi
  handle_cases k hk := by
    rw [hw'.cell?_eq] at hk
    cases hk
  instance_cases i hi := by
    rw [hw'.instance?_eq] at hi
    cases hi
  inFlight := by
    rw [hw'.inFlight, hw.inFlight]
    rfl
  rest := hv.atRest

/-! ## A new instance -/

/-- What a new instance is, but for its number. -/
def Instance.fresh (number : Nat) (limits : Limits) (realm : Ref) : Instance :=
  ⟨number, limits, realm, .empty, .empty, [], true, none, false⟩

theorem World.newInstance_eq (w : World) (limits : Limits) : ∃ platform number log,
    w.newInstance limits = (w.instances.size,
      { w with
        heap := w.heap.addRealm.1
        platform
        instances := w.instances.push (.fresh number limits w.heap.addRealm.2)
        log }) := by
  rw [newInstance]
  dsimp only
  split <;> exact ⟨_, _, _, rfl⟩

/-- Where a tenant is that has just moved in. -/
def Passage.arrive (P : Passage) (w' : World) : Passage :=
  ⟨.shift w'.heap.cells.size w'.instances.size, P.handle⟩

end Boundary

open Boundary in
/-- A new instance has nothing that could differ. -/
theorem Script.Embedding.matches_fresh (f : Embedding) {Z : Zone} (number number' : Nat)
    (limits : Limits) {realm : Ref} (hrealm : Z.HasRealm realm) :
    f.Matches Z (.fresh number limits realm) (.fresh number' limits (f.ref realm)) where
  limits := rfl
  realm _ := ⟨rfl, hrealm⟩
  ledger := rfl
  slots := rfl
  isLive := rfl
  borrowed := rfl
  lent := rfl
  fits_lent := nofun
  nextId := rfl
  census := rfl
  entries := rfl
  own := nofun

namespace Boundary

open Script (Embedding Heap Limits Ref Symbol)

variable {P Q : Passage} {D E : Set Ref} {w v w' : World}

/-- There are at least the symbols that all realms share. -/
theorem World.Stands.firstFresh_le (h : w.Stands P D w') :
    Symbol.firstFresh ≤ w'.heap.nextSymbol := by
  have hlt : Symbol.firstFresh - 1 < Symbol.firstFresh := by decide
  have hlast := h.heap.symbol _ (Nat.lt_of_lt_of_le hlt h.heap.fresh)
  rw [h.heap.wellKnown _ hlt] at hlast
  exact Nat.le_of_pred_lt hlast

/-- The first realm of an empty heap is there. -/
theorem hasRealm_addRealm :
    (Heap.empty.addRealm.1.zone Heap.empty.addRealm.1.range).HasRealm Heap.empty.addRealm.2 := by
  have hself : Heap.empty.addRealm.2 = Script.Realm.self 0 := by
    have hempty : Heap.empty.cells.size = 0 := rfl
    rw [Heap.addRealm_snd, Script.Realm.self_zero, hempty, Nat.zero_add]
  rw [hself]
  exact Script.Realm.hasRealm_self.mono Heap.zone_addRealm

/-- **A tenant moves in.** -/
theorem Together.arrive (h : Together P D w Q E v w') (hw : w.Bare) (limits : Limits) :
    Together (P.arrive w') (w.newInstance limits).2.heap.range (w.newInstance limits).2 Q E v
      (w'.newInstance limits).2 := by
  obtain ⟨platform, number, log, heq⟩ := w.newInstance_eq limits
  obtain ⟨platform', number', log', heq'⟩ := w'.newInstance_eq limits
  have hembeds := Heap.embeds_addRealm h.left.firstFresh_le w'.instances.size
  have hsecond := w'.heap.ref_addRealm w'.instances.size
  have hrealm := hasRealm_addRealm
  have hanchor : ∀ r, (Heap.empty.addRealm.1.object r).anchor = none := Heap.empty.anchor_addRealm
  have hextends := w'.heap.extends_addRealm
  have hsymbols := w'.heap.nextSymbol_addRealm
  have hthere : (v.instance? 0).isSome → Q.home < w'.instances.size := fun hi => by
    obtain ⟨x, hx⟩ := Option.isSome_iff_exists.mp hi
    obtain ⟨x', hx', -⟩ := h.right.home x hx
    exact (Array.getElem?_eq_some_iff.mp hx').1
  have hlt : ∀ (xs : Array Instance) {x : Instance} {i : Nat}, ((xs.push x)[i]?).isSome →
      i < xs.size + 1 := fun xs x i hi => by
    obtain ⟨y, hy⟩ := Option.isSome_iff_exists.mp hi
    exact Array.size_push x ▸ (Array.getElem?_eq_some_iff.mp hy).1
  obtain ⟨heap, _, instances, handles, inFlight, orphans, lifecycle, dropped, _⟩ := w
  obtain ⟨rfl, rfl, rfl, rfl⟩ : heap = .empty ∧ instances = #[] ∧ handles = #[] ∧ inFlight = [] :=
    ⟨hw.heap, hw.instances, hw.handles, hw.inFlight⟩
  rw [heq, heq']
  generalize Heap.empty.addRealm = added at *
  generalize w'.heap.addRealm = added' at *
  obtain ⟨heap, realm⟩ := added
  obtain ⟨heap', realm'⟩ := added'
  obtain rfl : realm' = _ := hsecond
  exact
    { left :=
        { heap := hembeds
          handle := nofun
          inj := nofun
          held := fun k c hc => by cases hc
          single := fun i hi => Nat.le_zero.mp (Nat.le_of_lt_succ (hlt #[] hi))
          home := fun x hx => by
            obtain rfl : Instance.fresh number limits realm = x := Option.some.inj hx
            exact ⟨_, Array.getElem?_push_size,
              Embedding.matches_fresh _ number number' limits hrealm⟩
          calls := nofun
          anchored := fun r _ a ha => by
            rw [hanchor] at ha
            cases ha
          lifecycle := h.left.lifecycle }
      right := by
        refine h.right.elsewhere (fun r hr => ?_) ?_ (Nat.le_refl _)
          (fun _ _ => rfl) (fun hi => ?_) rfl
        · obtain ⟨c, -, -, hc⟩ := h.right.heap.cell r hr
          exact (hextends _ _ hc).trans hc.symm
        · exact hsymbols.ge
        · exact (Array.getElem?_push_lt (hthere hi)).trans
            (Array.getElem?_eq_getElem (hthere hi)).symm
      refs := fun r _ q hq heq => by
        refine Nat.ne_of_gt (Nat.lt_of_lt_of_le (h.right.heap.ref_lt_size hq) ?_) heq
        exact Nat.le_add_right _ r
      handles := nofun
      homes := fun _ hi heq => Nat.ne_of_gt (hthere hi) heq
      handle_cases := fun k hk => by
        obtain ⟨l, hl, -⟩ | hother := h.handle_cases k hk
        · cases hl
        · exact .inr hother
      instance_cases := fun i hi => by
        rcases Nat.lt_succ_iff_lt_or_eq.mp (hlt w'.instances hi) with hi' | rfl
        · have hold : (w'.instance? i).isSome := by
            rw [World.instance?, Array.getElem?_eq_getElem hi']
            rfl
          rcases h.instance_cases i hold with ⟨-, hi⟩ | hother
          · cases hi
          · exact .inr hother
        · exact .inl ⟨rfl, rfl⟩
      inFlight := h.inFlight
      rest := h.rest }

end Boundary

end ScriptBoundary
