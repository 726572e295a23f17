import ScriptBoundary.Proofs.Registry

/-!
# The account of callbacks

`Account` ties the callbacks registered so far to the world. Its first field is a conservation law:
the callback of a registration is found in exactly one of three places, and nothing else is found
there. A callback that runs has not been dropped (`running`), one that waits for its last invocation
to return does run (`waiting`), and an instance that was shut has an empty table (`closed`). So the
place a callback is in can be read off what is known of it: finalized and running, it waits;
finalized and not running, it was dropped.

Retiring an entry, which is all that the two ways of finalizing a registration do, moves a callback
from the table to one of the other places and changes nothing in the sum. Hence the proofs do not
care which of the two it is, nor what the collector reports how often.

## Main results

* `Account.retire`, `Account.register`, `Account.enter`, `Account.leave`: what each of the functions
  does to the account that have to do with callbacks
* `Scene.Sound.step`: what one move preserves
* `Scene.sound_run`: what every sequence of moves preserves
-/

namespace ScriptBoundary.Boundary

open Script (Activation Anchor Limits Ref)

/-! ## What was registered -/

/-- The callbacks registered on an instance in the course of some moves, in their order. -/
def registrations (ms : List Move) (i : InstanceId) : List Callback :=
  ms.filterMap fun
    | .change (.register j _ c) => if j = i then some c else none
    | _ => none

/-- Whether a callback is the one registered under an anchor. Registrations of an instance are
numbered from one. -/
def Registered (made : InstanceId → List Callback) (a : Anchor) (c : Callback) : Prop :=
  1 ≤ a.id ∧ (made a.owner)[a.id - 1]? = some c

instance (made : InstanceId → List Callback) (a : Anchor) (c : Callback) :
    Decidable (Registered made a c) :=
  inferInstanceAs (Decidable (_ ∧ _))

/-- One more callback is registered on an instance. -/
def enlist (made : InstanceId → List Callback) (i : InstanceId) (c : Callback) :
    InstanceId → List Callback :=
  fun j => if i = j then made j ++ [c] else made j

theorem registrations_append (ms ns : List Move) (i : InstanceId) :
    registrations (ms ++ ns) i = registrations ms i ++ registrations ns i := by
  rw [registrations, List.filterMap_append]
  rfl

theorem registrations_register (ms : List Move) (i : InstanceId) (realm : Ref) (c : Callback) :
    registrations (ms ++ [.change (.register i realm c)]) = enlist (registrations ms) i c := by
  funext j
  rw [registrations_append, enlist]
  by_cases h : i = j
  · simp [registrations, h]
  · simp [registrations, h]

theorem registrations_of_ne {m : Move} (h : ∀ i realm c, m ≠ .change (.register i realm c))
    (ms : List Move) : registrations (ms ++ [m]) = registrations ms := by
  funext i
  rw [registrations_append]
  have hm : registrations [m] i = [] := by
    rw [registrations, List.filterMap_cons]
    split
    · rfl
    · next hsome =>
      split at hsome
      · next j realm c => exact absurd rfl (h j realm c)
      · cases hsome
  rw [hm, List.append_nil]

section Registered

variable {made : InstanceId → List Callback} {a : Anchor} {c c' : Callback}

theorem Registered.unique (h : Registered made a c) (h' : Registered made a c') : c = c' :=
  Option.some.inj (h.2.symm.trans h'.2)

/-- What is registered after one more registration: what was, and the new callback. -/
theorem registered_enlist (i : InstanceId) (d : Callback) :
    Registered (enlist made i d) a c ↔
      Registered made a c ∨ (a = ⟨i, (made i).length + 1⟩ ∧ c = d) := by
  obtain ⟨owner, id⟩ := a
  simp only [Registered, enlist, Anchor.mk.injEq]
  by_cases hi : i = owner
  · subst hi
    simp only [if_true, true_and]
    rw [List.getElem?_append]
    split
    · have : id ≠ (made i).length + 1 := by omega
      simp [this]
    · next hlt =>
      have hnone : (made i)[id - 1]? = none := List.getElem?_eq_none (by omega)
      rw [hnone, List.getElem?_singleton]
      constructor
      · rintro ⟨hid, h⟩
        split at h
        · exact .inr ⟨by omega, (Option.some.inj h).symm⟩
        · cases h
      · rintro (⟨-, h⟩ | ⟨rfl, rfl⟩)
        · cases h
        · simp
  · rw [if_neg hi]
    have : ¬owner = i := fun h => hi h.symm
    simp [this]

theorem not_registered_next (i : InstanceId) (d : Callback) :
    ¬Registered made ⟨i, (made i).length + 1⟩ d := by
  rintro ⟨-, h⟩
  simp at h

theorem Registered.le_length (h : Registered made a c) : a.id ≤ (made a.owner).length := by
  have := (List.getElem?_eq_some_iff.mp h.2).1
  omega

end Registered

/-- The invocations among the calls in progress. -/
def invocations (st : List CallFrame) : List Invocation :=
  st.filterMap fun
    | .callback v _ => some v
    | .operation .. => none

/-! ## The invariant -/

/-- Where the callbacks are that were registered so far. -/
structure Account (made : InstanceId → List Callback) (w : World) : Prop where
  /-- Each is in exactly one place, and nothing else is anywhere. -/
  place : ∀ p, w.sightings p = if Registered made p.1 p.2 then 1 else 0
  /-- What waits for an invocation to return is running. -/
  waiting : ∀ p ∈ w.orphans, w.isRunning p.1 = true
  /-- What is running was registered and has not been dropped. -/
  running : ∀ v ∈ w.inFlight, ∃ c, Registered made v.anchor c ∧ (v.anchor, c) ∉ w.drops
  census : ∀ i, (w.table i).live + (w.table i).finalized = (made i).length
  next : ∀ i, (w.table i).nextId = (made i).length + 1
  /-- An instance that was shut, or never was, has no entry left. -/
  closed : ∀ i, w.isAlive i = false → (w.table i).entries = []

namespace Account

variable {made : InstanceId → List Callback} {w w' : World} {i : InstanceId} {a : Anchor}
  {c : Callback}

/-- The account of a world is a matter of its tables, its invocations, its orphans and its
drops. -/
theorem congr (h : Account made w) (ht : ∀ j, w'.table j = w.table j)
    (ha : ∀ j, w.isAlive j = true → w'.isAlive j = true) (hf : w'.inFlight = w.inFlight)
    (ho : w'.orphans = w.orphans) (hd : w'.dropped = w.dropped) : Account made w' := by
  have hdrops : w'.drops = w.drops := by rw [World.drops, World.drops, hd]
  have hrun : ∀ a, w'.isRunning a = w.isRunning a := fun a => by
    rw [World.isRunning, World.isRunning, hf]
  refine ⟨fun p => ?_, fun p hp => ?_, fun v hv => ?_, fun i => ?_, fun i => ?_, fun i hi => ?_⟩
  · rw [← h.place p, World.sightings, World.sightings, World.entered, World.entered, ht, ho, hdrops]
  · rw [ho] at hp
    rw [hrun]
    exact h.waiting p hp
  · rw [hf] at hv
    rw [hdrops]
    exact h.running v hv
  · rw [ht]
    exact h.census i
  · rw [ht]
    exact h.next i
  · rw [ht]
    refine h.closed i ?_
    cases hw : w.isAlive i with
    | false => rfl
    | true => rw [ha i hw] at hi; cases hi

theorem registered_of_sighted (h : Account made w) {p : Anchor × Callback}
    (hp : 0 < w.sightings p) : Registered made p.1 p.2 := by
  by_cases hr : Registered made p.1 p.2
  · exact hr
  · rw [h.place, if_neg hr] at hp
    cases hp

theorem registered_of_entered (h : Account made w) (hp : (a, c) ∈ w.entered i) :
    Registered made a c := by
  obtain ⟨hi, -⟩ := World.mem_entered.mp hp
  subst hi
  have := List.count_pos_iff.mpr hp
  exact h.registered_of_sighted (p := (a, c)) (by simp only [World.sightings]; omega)

theorem registered_of_dropped (h : Account made w) (hp : (a, c) ∈ w.drops) :
    Registered made a c := by
  have := List.count_pos_iff.mpr hp
  exact h.registered_of_sighted (p := (a, c)) (by simp only [World.sightings]; omega)

theorem registered_of_orphan (h : Account made w) (hp : (a, c) ∈ w.orphans) :
    Registered made a c := by
  have := List.count_pos_iff.mpr hp
  exact h.registered_of_sighted (p := (a, c)) (by simp only [World.sightings]; omega)

/-- No number is in the table twice. -/
theorem ids_nodup (h : Account made w) (i : InstanceId) : (w.table i).ids.Nodup := by
  have hn : (w.entered i).Nodup := List.nodup_iff_count.mpr fun p => by
    by_cases hp : p ∈ w.entered i
    · obtain ⟨hi, -⟩ := World.mem_entered.mp hp
      have hplace := h.place p
      simp only [World.sightings, hi] at hplace
      split at hplace <;> omega
    · rw [List.count_eq_zero.mpr hp]
      omega
  have hids : (w.table i).ids = (w.entered i).map fun p => p.1.id := by
    simp [World.entered, CallbackTable.ids, Function.comp_def]
  rw [hids, List.nodup_iff_pairwise_ne, List.pairwise_map]
  refine (List.nodup_iff_pairwise_ne.mp hn).imp_of_mem fun {p q} hp hq hne hid => hne ?_
  obtain ⟨a, c⟩ := p
  obtain ⟨b, d⟩ := q
  have hab : a = b := by
    obtain ⟨ha, -⟩ := World.mem_entered.mp hp
    obtain ⟨hb, -⟩ := World.mem_entered.mp hq
    obtain ⟨owner, id⟩ := a
    obtain ⟨owner', id'⟩ := b
    simp_all
  subst hab
  rw [(h.registered_of_entered hp).unique (h.registered_of_entered hq)]

/-- A callback is found under its anchor as long as it is registered. -/
theorem callbackOf_of_mem (h : Account made w) {r : Registration}
    (he : (a.id, r) ∈ (w.table a.owner).entries) : w.callbackOf a = some r.callback := by
  have halive : w.isAlive a.owner = true := by
    cases hdead : w.isAlive a.owner with
    | true => rfl
    | false =>
      rw [h.closed _ hdead] at he
      cases he
  rw [World.callbackOf_eq, if_pos halive, CallbackTable.lookup_of_mem (h.ids_nodup _) he]
  rfl

theorem sightings_of_registered (h : Account made w) (hr : Registered made a c) :
    w.sightings (a, c) = 1 := by
  rw [h.place, if_pos hr]

/-! ## What one retirement preserves -/

theorem retire (h : Account made w) (hp : (a, c) ∈ w.entered a.owner) :
    Account made (w.retire a c) := by
  have hreg := h.registered_of_entered hp
  have hrun : ∀ b, (w.retire a c).isRunning b = w.isRunning b := fun b => by
    rw [World.isRunning, World.isRunning, World.inFlight_retire]
  refine ⟨fun p => ?_, fun p hmem => ?_, fun v hv => ?_, fun i => ?_, fun i => ?_, fun i hi => ?_⟩
  · rw [World.sightings_retire hp (h.sightings_of_registered hreg) fun c' hc' =>
      (h.registered_of_entered hc').unique hreg]
    exact h.place p
  · rw [hrun]
    obtain ⟨hrunning, ho, -⟩ | ⟨-, ho, -⟩ := World.orphans_drops_retire w a c
    · rw [ho] at hmem
      rcases List.mem_cons.mp hmem with rfl | hmem
      · exact hrunning
      · exact h.waiting p hmem
    · rw [ho] at hmem
      exact h.waiting p hmem
  · rw [World.inFlight_retire] at hv
    obtain ⟨cb, hcb, hnot⟩ := h.running v hv
    refine ⟨cb, hcb, ?_⟩
    obtain ⟨-, -, hd⟩ | ⟨hidle, -, hd⟩ := World.orphans_drops_retire w a c
    · rw [hd]
      exact hnot
    · rw [hd]
      intro hmem
      rcases List.mem_append.mp hmem with hmem | hmem
      · exact hnot hmem
      · -- A callback that is dropped at once is not running, and this one is.
        have hva : v.anchor = a := congrArg Prod.fst (List.mem_singleton.mp hmem)
        have hrunning : w.isRunning a = true :=
          List.any_eq_true.mpr ⟨v, hv, by simpa using hva⟩
        rw [hidle] at hrunning
        cases hrunning
  · rw [World.census_retire hp (h.ids_nodup _)]
    exact h.census i
  · rw [World.table_retire hp]
    split
    · exact h.next i
    · exact h.next i
  · rw [World.isAlive_retire] at hi
    rw [World.table_retire hp]
    have hempty := h.closed i hi
    split
    · simp [CallbackTable.retire, hempty]
    · exact hempty

/-! ## What changes preserve -/

theorem close (h : Account made w) (hempty : (w.table i).entries = []) :
    Account made (w.close i) := by
  have ht := World.table_close w i
  refine ⟨fun p => ?_, h.waiting, h.running, fun j => ?_, fun j => ?_, fun j hj => ?_⟩
  · rw [← h.place p, World.sightings, World.sightings, World.entered, World.entered, ht]
    split <;> rfl
  · rw [ht, ← h.census j]
    split <;> rfl
  · rw [ht, ← h.next j]
    split <;> rfl
  · rw [ht]
    split
    · next hij =>
      subst hij
      exact hempty
    · next hij =>
      rw [World.isAlive_close_of_ne hij] at hj
      exact h.closed j hj

/-- Worlds with the same callbacks and contexts have the same account. -/
theorem quiet (h : Account made w) (hcalls : w'.calls = w.calls) : Account made w' := by
  refine h.congr (World.table_congr hcalls) (fun j hj => ?_) (congrArg Calls.inFlight hcalls)
    (congrArg Calls.orphans hcalls) (congrArg Calls.dropped hcalls)
  rwa [World.isAlive_congr hcalls]

/-- A change that registers nothing keeps the account as it is, and with it whatever survives each
of the things that such a change is made of. -/
theorem change_keeps {P : World → Prop} (h : Account made w) (hw : P w) {x : Change}
    (hx : x.apply w = some w') (hr : ∀ i realm c, x ≠ .register i realm c)
    (quiet : ∀ w w', w'.calls = w.calls → P w → P w')
    (newInstance : ∀ w limits, x = .newInstance limits → P w → P (w.newInstance limits).2)
    (retire : ∀ w a c, (a, c) ∈ w.entered a.owner → P w → P (w.retire a c))
    (close : ∀ w i, P w → P (w.close i)) : Account made w' ∧ P w' := by
  refine Change.keeps (P := fun u => Account made u ∧ P u) ⟨h, hw⟩ hx hr ?_ ?_ ?_ ?_ ?_
  · exact fun u i hu => hu.1.ids_nodup i
  · rintro u u' hcalls ⟨hu, hp⟩
    exact ⟨hu.quiet hcalls, quiet u u' hcalls hp⟩
  · rintro u limits hlimits ⟨hu, hp⟩
    obtain ⟨hf, ho, hd⟩ := World.newInstance_keeps u limits
    exact ⟨hu.congr (World.table_newInstance u limits)
      (fun j hj => World.isAlive_newInstance hj limits) hf ho hd, newInstance u limits hlimits hp⟩
  · rintro u a c hmem ⟨hu, hp⟩
    exact ⟨hu.retire hmem, retire u a c hmem hp⟩
  · rintro u i hempty ⟨hu, hp⟩
    exact ⟨hu.close hempty, close u i hp⟩

/-- Such a change keeps the invocations too, and no number is given out again. -/
theorem change (h : Account made w) {x : Change} (hx : x.apply w = some w')
    (hr : ∀ i realm c, x ≠ .register i realm c) :
    Account made w' ∧ w'.inFlight = w.inFlight ∧ ∀ i, (w.table i).Ages (w'.table i) := by
  refine h.change_keeps (P := fun u => u.inFlight = w.inFlight ∧
    ∀ i, (w.table i).Ages (u.table i)) ⟨rfl, fun _ => .refl _⟩ hx hr ?_ ?_ ?_ ?_
  · rintro u u' hcalls ⟨hf, hages⟩
    refine ⟨(congrArg Calls.inFlight hcalls).trans hf, fun i => ?_⟩
    rw [World.table_congr hcalls]
    exact hages i
  · rintro u limits - ⟨hf, hages⟩
    refine ⟨(World.newInstance_keeps u limits).1.trans hf, fun i => ?_⟩
    rw [World.table_newInstance]
    exact hages i
  · rintro u a c hmem ⟨hf, hages⟩
    refine ⟨(World.inFlight_retire u a c).trans hf, fun i => ?_⟩
    rw [World.table_retire hmem]
    split
    · exact (hages i).trans (CallbackTable.ages_retire _ _)
    · exact hages i
  · rintro u i ⟨hf, hages⟩
    refine ⟨hf, fun j => ?_⟩
    rw [World.table_close]
    split
    · exact (hages j).trans (CallbackTable.ages_dispose _)
    · exact hages j

/-- A registration goes on the account. -/
theorem register (h : Account made w) (halive : w.isAlive i = true) (realm : Ref) (c : Callback) :
    Account (enlist made i c) (w.register i realm c).2 := by
  obtain ⟨f, hcalls⟩ := World.register_eq halive realm c
  refine quiet ?_ hcalls
  have ht := World.table_enlisted halive ⟨c, f⟩
  refine ⟨fun p => ?_, h.waiting, fun v hv => ?_, fun j => ?_, fun j => ?_, fun j hj => ?_⟩
  · obtain ⟨a, d⟩ := p
    have hplace := h.place (a, d)
    have hnext := h.next i
    simp only [World.sightings] at hplace ⊢
    rw [World.entered_enlisted halive, List.count_append, hnext]
    simp only [registered_enlist]
    show _ + _ + w.orphans.count _ + w.drops.count _ = _
    by_cases hnew : a = ⟨i, (made i).length + 1⟩ ∧ d = c
    · obtain ⟨rfl, rfl⟩ := hnew
      rw [if_neg (not_registered_next i d)] at hplace
      simp only [if_true, List.count_singleton_self, and_self, or_true] at hplace ⊢
      omega
    · have hzero : List.count (a, d)
          (if i = a.owner then [((⟨i, (made i).length + 1⟩ : Anchor), c)] else []) = 0 := by
        rw [List.count_eq_zero]
        intro hmem
        split at hmem
        · cases List.mem_singleton.mp hmem
          exact hnew ⟨rfl, rfl⟩
        · cases hmem
      simp only [hzero, hnew, or_false]
      omega
  · obtain ⟨d, hd, hnot⟩ := h.running v hv
    exact ⟨d, (registered_enlist i c).mpr (.inl hd), hnot⟩
  · rw [ht, enlist]
    have hcensus := h.census j
    split
    · simp only [CallbackTable.register, CallbackTable.live, List.length_append,
        List.length_singleton] at hcensus ⊢
      omega
    · exact hcensus
  · rw [ht, enlist]
    have hnext := h.next j
    split
    · simp only [CallbackTable.register, List.length_append, List.length_singleton]
      omega
    · exact hnext
  · have halive' : w.isAlive j = false := by
      rw [← hj]
      exact (World.isAlive_updateInstance_of_eq
        (f := fun x => { x with table := x.table.register ⟨c, f⟩ }) (fun _ => rfl) j).symm
    rw [ht]
    split
    · next hij =>
      subst hij
      rw [halive] at halive'
      cases halive'
    · exact h.closed j halive'

/-! ## What calls preserve -/

theorem enter (h : Account made w) {v : Invocation} (hv : (w.callbackOf v.anchor).isSome) :
    Account made (w.enter v) := by
  obtain ⟨c, hc⟩ := Option.isSome_iff_exists.mp hv
  have hmem := World.mem_entered_of_callbackOf hc
  have hreg := h.registered_of_entered hmem
  refine ⟨fun p => ?_, fun p hp => ?_, fun u hu => ?_, fun j => ?_, fun j => ?_, fun j hj => ?_⟩
  · rw [← h.place p, World.sightings, World.sightings, World.entered, World.entered,
      World.table_enter]
    rfl
  · have hrun := h.waiting p hp
    rw [World.isRunning] at hrun ⊢
    exact List.any_eq_true.mpr
      ((List.any_eq_true.mp hrun).imp fun u hu => ⟨List.mem_cons_of_mem _ hu.1, hu.2⟩)
  · rcases List.mem_cons.mp hu with rfl | hu
    · -- It is in the table, so it cannot have been dropped.
      refine ⟨c, hreg, fun hdrop => ?_⟩
      have hone := h.sightings_of_registered hreg
      have hentered := List.count_pos_iff.mpr hmem
      have hdropped := List.count_pos_iff.mpr (show _ ∈ w.drops from hdrop)
      simp only [World.sightings] at hone
      omega
    · exact h.running u hu
  · rw [World.table_enter]
    exact h.census j
  · rw [World.table_enter]
    exact h.next j
  · rw [World.isAlive_enter] at hj
    rw [World.table_enter]
    exact h.closed j hj

/-- The callback that a return drops is found among the dropped from then on, and no longer among
the orphans. -/
private theorem sightings_drop (h : Account made w) (hmem : (a, c) ∈ w.orphans)
    (p : Anchor × Callback) :
    (w.orphans.filter fun o => o.1 != a).count p + (w.drops ++ [(a, c)]).count p =
      w.orphans.count p + w.drops.count p := by
  have hreg := h.registered_of_orphan hmem
  rw [List.count_append, List.count_singleton]
  by_cases hp : p.1 = a
  · obtain ⟨a', c'⟩ := p
    obtain rfl : a' = a := hp
    have hgone : (w.orphans.filter fun o => o.1 != a').count (a', c') = 0 := by
      rw [List.count_eq_zero]
      intro hmem
      simp at hmem
    rw [hgone]
    by_cases hc : c' = c
    · subst hc
      have hone := h.sightings_of_registered hreg
      have hpos := List.count_pos_iff.mpr hmem
      simp only [World.sightings] at hone
      simp only [beq_self_eq_true, if_true]
      omega
    · have hnone : w.sightings (a', c') = 0 := by
        rw [h.place, if_neg fun hreg' => hc (hreg'.unique hreg)]
      simp only [World.sightings] at hnone
      have hne : ((a', c) == (a', c')) = false := by simpa using fun h => hc h.symm
      rw [hne]
      simp only [Bool.false_eq_true, if_false]
      omega
  · have hne : ((a, c) == p) = false := by
      rw [beq_eq_false_iff_ne]
      exact fun h => hp (h ▸ rfl)
    rw [hne, List.count_filter (by simpa using hp)]
    rfl

theorem leave (h : Account made w) {v : Invocation} {rest : List Invocation}
    (hv : w.inFlight = v :: rest) (before : Option Activation) :
    Account made (w.leave v.anchor before) := by
  obtain ⟨-, hf, hcases⟩ := World.leave_cases w v.anchor before
  have hrest : (w.leave v.anchor before).inFlight = rest := by rw [hf, hv]; rfl
  have hrun : ∀ b, (w.leave v.anchor before).isRunning b = w.stillRunning b := fun b => by
    rw [World.isRunning, hf]
    rfl
  have hstill : ∀ {u}, u ∈ rest → w.stillRunning u.anchor = true := fun {u} hu => by
    rw [World.stillRunning, hv]
    exact List.any_eq_true.mpr ⟨u, hu, by simp⟩
  refine ⟨fun p => ?_, fun p hp => ?_, fun u hu => ?_, fun j => ?_, fun j => ?_, fun j hj => ?_⟩
  · rw [← h.place p, World.sightings, World.sightings, World.entered, World.entered,
      World.table_leave]
    obtain ⟨-, ho, hd⟩ | ⟨-, -, ho, hd⟩ | ⟨c, -, hmem, ho, hd⟩ := hcases
    · rw [ho, hd]
    · rw [ho, hd]
    · rw [ho, hd, Nat.add_assoc, Nat.add_assoc, h.sightings_drop hmem]
  · rw [hrun]
    -- An orphan runs; if only the innermost invocation were left of it, it would be dropped now.
    have hwas : p ∈ w.orphans → v.anchor = p.1 ∨ w.stillRunning p.1 = true := fun hp =>
      (World.isRunning_iff hv p.1).mp (h.waiting p hp)
    obtain ⟨hs, ho, -⟩ | ⟨-, hnone, ho, -⟩ | ⟨c, -, -, ho, -⟩ := hcases
    · rw [ho] at hp
      rcases hwas hp with hva | hva
      · rw [← hva]
        exact hs
      · exact hva
    · rw [ho] at hp
      rcases hwas hp with hva | hva
      · exact absurd (by rw [hva]; exact hp) (hnone p.2)
      · exact hva
    · rw [ho] at hp
      obtain ⟨hp, hne⟩ := List.mem_filter.mp hp
      rcases hwas hp with hva | hva
      · simp [hva] at hne
      · exact hva
  · rw [hrest] at hu
    obtain ⟨c, hc, hnot⟩ := h.running u (by rw [hv]; exact List.mem_cons_of_mem _ hu)
    refine ⟨c, hc, ?_⟩
    obtain ⟨-, -, hd⟩ | ⟨-, -, -, hd⟩ | ⟨c', hs, -, -, hd⟩ := hcases
    · rw [hd]
      exact hnot
    · rw [hd]
      exact hnot
    · rw [hd]
      intro hmem
      rcases List.mem_append.mp hmem with hmem | hmem
      · exact hnot hmem
      · have hva : u.anchor = v.anchor := congrArg Prod.fst (List.mem_singleton.mp hmem)
        rw [← hva, hstill hu] at hs
        cases hs
  · rw [World.table_leave]
    exact h.census j
  · rw [World.table_leave]
    exact h.next j
  · rw [World.isAlive_leave] at hj
    rw [World.table_leave]
    exact h.closed j hj

end Account

/-! ## What every sequence of moves preserves -/

/-- The account of a scene is that of its world, and its stack knows what is running. -/
structure Scene.Sound (ms : List Move) (c : Scene) : Prop where
  account : Account (registrations ms) c.world
  stack : c.world.inFlight = invocations c.stack

theorem Scene.sound_start (p : Platform) : (Scene.start p).Sound [] := by
  refine ⟨⟨fun q => ?_, nofun, nofun, fun i => ?_, fun i => ?_, fun i _ => ?_⟩, rfl⟩
  · have hnot : ¬Registered (registrations []) q.1 q.2 := by
      rintro ⟨-, h⟩
      simp [registrations] at h
    rw [if_neg hnot]
    rfl
  all_goals rfl

/-- A move that registers nothing adds nothing to the registrations. -/
theorem Scene.Sound.of_ne {ms : List Move} {d : Scene} {m : Move}
    (hm : ∀ i realm cb, m ≠ .change (.register i realm cb))
    (h : Account (registrations ms) d.world) (hst : d.world.inFlight = invocations d.stack) :
    d.Sound (ms ++ [m]) :=
  ⟨by rwa [registrations_of_ne hm], hst⟩

/-- **What one move preserves.** -/
theorem Scene.Sound.step {ms : List Move} {c d : Scene} {m : Move} (h : c.Sound ms)
    (hm : c.step m = some d) :
    d.Sound (ms ++ [m]) ∧ ∀ i, (c.world.table i).Ages (d.world.table i) := by
  obtain ⟨h, hst⟩ := h
  cases Scene.stepped hm with
  | @change w w' st x hx =>
    obtain ⟨i, realm, cb, rfl, halive, rfl⟩ | hr := Change.register_or hx
    · obtain ⟨f, hcalls⟩ := World.register_eq halive realm cb
      refine ⟨⟨?_, (congrArg Calls.inFlight hcalls).trans hst⟩, fun j => ?_⟩
      · rw [registrations_register]
        exact h.register halive realm cb
      · rw [World.table_congr hcalls, World.table_enlisted halive]
        split
        · exact CallbackTable.ages_register _ _
        · exact .refl _
    · obtain ⟨h', hf, hages⟩ := h.change hx hr
      exact ⟨.of_ne (fun i realm cb heq => hr i realm cb (Move.change.inj heq)) h' (hf.trans hst),
        hages⟩
  | beginLent => exact ⟨.of_ne (by simp) h hst, fun _ => .refl _⟩
  | @beginOwn w st i =>
    have hacc := h.congr (World.table_borrow w i) (fun j hj => by rwa [World.isAlive_borrow])
      rfl rfl rfl
    refine ⟨.of_ne (by simp) hacc hst, fun j => ?_⟩
    rw [World.table_borrow]
    exact .refl _
  | finishLent => exact ⟨.of_ne (by simp) h hst, fun _ => .refl _⟩
  | @finishOwn w st i =>
    have hacc := h.congr (World.table_giveBack w i) (fun j hj => by rwa [World.isAlive_giveBack])
      rfl rfl rfl
    refine ⟨.of_ne (by simp) hacc hst, fun j => ?_⟩
    rw [World.table_giveBack]
    exact .refl _
  | @enter w st v _ hcb =>
    refine ⟨.of_ne (by simp) (h.enter hcb) (congrArg (v :: ·) hst), fun j => ?_⟩
    rw [World.table_enter]
    exact .refl _
  | @leave w st v before =>
    refine ⟨.of_ne (by simp) (h.leave hst before) ?_, fun j => ?_⟩
    · rw [(World.leave_cases _ _ _).2.1]
      exact congrArg List.tail hst
    · rw [World.table_leave]
      exact .refl _

/-- **What every sequence of moves preserves.** -/
theorem Scene.sound_run {p : Platform} {ms : List Move} {c : Scene}
    (h : (Scene.start p).run ms = some c) : c.Sound ms :=
  Scene.run_induction (P := fun ms c => c.Sound ms) (Scene.sound_start p)
    (fun hd hm => (hd.step hm).1) h

end ScriptBoundary.Boundary
