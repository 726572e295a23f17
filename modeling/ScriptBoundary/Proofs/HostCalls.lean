import ScriptBoundary.Proofs.Lodgers
import ScriptBoundary.Proofs.Steps

/-!
# Calls of scripts side by side

When a script calls a function, what it passes is handed over, the code behind the function runs,
and what that gives back is taken over. All of this happens side by side, if the code runs so. The
code asks for more, of which scripts are run that call functions again: by induction on the levels
of nesting all calls of scripts are answered side by side (`parallel_invokeAt`). That is what
everything else was said under, so it holds of the turns of a tenant.

## Main results

* `parallel_invokeAt`: the calls of scripts
* `parallel_execute`: a program of a tenant, in full
-/

namespace ScriptBoundary.Boundary

open Script (Activation Anchor Completion Embedding HostCall Ref)

variable {σ α : Type}

/-! ## Before and after -/

section Worlds

variable {P Q : Passage} {D E : Set Ref} {w v w' : World}

/-- The context that was lent to the instance. -/
theorem Together.lentBy (h : Together P D w Q E v w') (hi : (w.instance? 0).isSome) :
    w'.lentBy P.home = (w.lentBy 0).map P.activation
      ∧ ∀ act ∈ w.lentBy 0, act.Fits (w.heap.zone D) := by
  obtain ⟨x, x', hx, hx', hmatch⟩ := h.instances hi
  rw [← World.instance?_bind_lent, ← World.instance?_bind_lent, hx, hx']
  exact ⟨hmatch.lent, hmatch.fits_lent⟩

/-- **The code behind a function begins.** It is handed what the script passed. -/
theorem Abreast.atEntry (h : Abreast Q v P D E w w') (hi : (w.instance? 0).isSome) {k : HostCall}
    (howner : k.anchor.owner = 0) (hk : k.Fits (w.heap.zone D))
    (hc : (w.callbackOf k.anchor).isSome) (hc' : (w'.callbackOf (P.anchor k.anchor)).isSome) :
    ∃ P₁, Abreast Q v P₁ D E (w.atEntry k) (w'.atEntry (P.hostCall k))
      ∧ Onward P D w P₁ D (w.atEntry k)
      ∧ w'.handed (P.hostCall k) = (w.handed k).map (·.mapHandle P₁.handle)
      ∧ ∀ u ∈ w.handed k, u.Known (w.atEntry k).handles.size := by
  obtain ⟨⟨owner, id⟩, this, args, act⟩ := k
  obtain rfl : owner = 0 := howner
  have hpassed : ∀ x ∈ this :: args, x.Fits (w.heap.zone D) :=
    List.forall_mem_cons.mpr ⟨hk.this, hk.args⟩
  obtain ⟨P₁, h₁, ho₁, hhanded, hknown⟩ := h.encodeAll hi hpassed
  have hanchor : P₁.anchor ⟨0, id⟩ = P.anchor ⟨0, id⟩ :=
    Embedding.anchor_congr ho₁.agrees _
  have hact : P₁.activation act = P.activation act :=
    Embedding.activation_congr ho₁.agrees hk.activation
  have hcalls : (w.encodeAll 0 (this :: args)).2.calls = w.calls := World.calls_encodeAll ..
  have hcalls' : (w'.encodeAll P.home ((this :: args).map P.value)).2.calls = w'.calls :=
    World.calls_encodeAll ..
  obtain ⟨h₂, ho₂⟩ := h₁.enter (u := ⟨⟨0, id⟩, act⟩) (ho₁.home hi) rfl
    (hk.activation.mono ho₁.zone_le) ((World.callbackOf_congr hcalls _).symm ▸ hc)
    (by rw [World.callbackOf_congr hcalls', hanchor]; exact hc')
  rw [Embedding.invocation, hanchor, hact] at h₂
  exact ⟨P₁, h₂, ho₁.trans ho₂, hhanded, fun u hu => (hknown u hu).mono ho₂.handles⟩

/-- **The code behind a function has returned.** What it gives back is taken over. -/
theorem Abreast.resume (h : Abreast Q v P D E w w') (hi : (w.instance? 0).isSome) {a : Anchor}
    {act : Activation} (hact : act.Fits (w.heap.zone D)) {rest : List Invocation}
    (hflight : w.inFlight = ⟨a, act⟩ :: rest) {before : Option Activation}
    (hbefore : ∀ act ∈ before, act.Fits (w.heap.zone D)) {u : Value}
    (hu : u.Known w.handles.size) :
    ∃ P₁ D₁, Abreast Q v P₁ D₁ E ((w.decode act.realm u).2.leave a before)
        ((w'.decode (P.ref act.realm) (u.mapHandle P.handle)).2.leave (P.anchor a)
          (before.map P.activation))
      ∧ Onward P D w P₁ D₁ ((w.decode act.realm u).2.leave a before)
      ∧ (w'.decode (P.ref act.realm) (u.mapHandle P.handle)).1 = P₁.value (w.decode act.realm u).1
      ∧ (w.decode act.realm u).1.Fits
          (((w.decode act.realm u).2.leave a before).heap.zone D₁) := by
  obtain ⟨P₁, D₁, h₁, ho₁, hvalue, hfits⟩ := h.decode hact.realm hu
  have hstill : (w.decode act.realm u).2.inFlight = ⟨a, act⟩ :: rest :=
    (congrArg Calls.inFlight (World.calls_decode w act.realm u)).trans hflight
  have hbefore₁ : ∀ act' ∈ before, act'.Fits ((w.decode act.realm u).2.heap.zone D₁) :=
    fun act' hact' => (hbefore act' hact').mono ho₁.zone_le
  obtain ⟨h₂, ho₂⟩ := h₁.leave (ho₁.home hi) hstill hbefore₁
  have hanchor : P₁.anchor a = P.anchor a := Embedding.anchor_congr ho₁.agrees _
  have hlent : before.map P₁.activation = before.map P.activation :=
    Option.map_congr fun act' hact' => Embedding.activation_congr ho₁.agrees (hbefore act' hact')
  dsimp only at h₂ ho₂
  rw [hanchor, hlent] at h₂
  exact ⟨P₁, D₁, h₂, ho₁.trans ho₂, hvalue, hfits.mono ho₂.zone_le⟩

/-- The same, said in terms of where things were when the call began. -/
theorem Together.resume {P₁ : Passage} {D₁ E₁ : Set Ref} {w₁ w₁' : World}
    (h : Together P D w Q E v w') (hi : (w.instance? 0).isSome)
    (h₁ : Abreast Q v P₁ D₁ E₁ w₁ w₁') (ho : Onward P D w P₁ D₁ w₁) {a : Anchor} {act : Activation}
    (hact : act.Fits (w.heap.zone D)) (hflight : w₁.inFlight = ⟨a, act⟩ :: w.inFlight) {u : Value}
    (hu : u.Known w₁.handles.size) :
    ∃ P₂ D₂, Abreast Q v P₂ D₂ E₁ ((w₁.decode act.realm u).2.leave a (w.lentBy 0))
        ((w₁'.decode (P.ref act.realm) (u.mapHandle P₁.handle)).2.leave (P.anchor a)
          (w'.lentBy P.home))
      ∧ Onward P₁ D₁ w₁ P₂ D₂ ((w₁.decode act.realm u).2.leave a (w.lentBy 0))
      ∧ (w₁'.decode (P.ref act.realm) (u.mapHandle P₁.handle)).1 =
        P₂.value (w₁.decode act.realm u).1
      ∧ (w₁.decode act.realm u).1.Fits
          (((w₁.decode act.realm u).2.leave a (w.lentBy 0)).heap.zone D₂) := by
  obtain ⟨hlent, hfits⟩ := h.lentBy hi
  have hrealm : P₁.ref act.realm = P.ref act.realm := ho.agrees.ref _ hact.realm.1
  have hanchor : P₁.anchor a = P.anchor a := Embedding.anchor_congr ho.agrees _
  have hbefore : (w.lentBy 0).map P₁.activation = w'.lentBy P.home :=
    (Option.map_congr fun act' hact' =>
      Embedding.activation_congr ho.agrees (hfits act' hact')).trans hlent.symm
  have hresumed := h₁.resume (ho.home hi) (hact.mono ho.zone_le) hflight
    (fun act' hact' => (hfits act' hact').mono ho.zone_le) hu
  rwa [hrealm, hanchor, hbefore] at hresumed

end Worlds

/-! ## Calls -/

section Calls

variable {n : Sleeper σ} {c : Prop} {P : Passage} {D E : Set Ref} {t t' : State (House σ)}

theorem World.inFlight_atEntry (w : World) (k : HostCall) :
    (w.atEntry k).inFlight = ⟨k.anchor, k.activation⟩ :: w.inFlight := by
  have hsame : (w.handOver k).inFlight = w.inFlight := congrArg Calls.inFlight (calls_handOver w k)
  rw [← hsame]
  rfl

/-- What code that is called leaves in progress is what was in progress when it began. -/
theorem World.Sane.inFlight_run {host : Host σ} {levels : Nat} {m : Act σ α} {s t : State σ} {a : α}
    (h : s.world.Sane) (hr : m.run (answer (invokeAt host levels)) s = .ok (a, t)) :
    t.world.inFlight = s.world.inFlight := by
  have hpath : Path True ⟨s.world, s.world.calling⟩ ⟨t.world, s.world.calling⟩ :=
    (traced_run (s := s) (traced_invokeAt host.only_allowed levels)
      (World.isHostTurn_calling s.world) m.only_allowed).path hr
  have hstack := (World.invocations_map_callback s.world.inFlight).symm
  obtain ⟨ms, hms⟩ := ((h.scene _ hstack).path hpath).sound
  exact hms.stack.trans hstack.symm

variable {tenants : Side → Tenant σ}

/-- **The code behind a function** runs side by side, from where it is handed what was passed. -/
theorem parallel_code (hp : (tenants n.side.other).Only (Request.Behaves c)) {levels : Nat}
    (hinv : ParallelInvoke n c (invokeAt (house tenants) levels) (invokeAt (house tenants) levels))
    (h : Beside n P D E t t') (hi : (t.world.instance? 0).isSome) {k : HostCall}
    (howner : k.anchor.owner = 0) (hk : k.Fits (t.world.heap.zone D)) {callback : Callback}
    (hown : callback.isOwn = true) (hc : t.world.callbackOf k.anchor = some callback)
    (hc' : (t'.world.callbackOf (P.anchor k.anchor)).isSome) :
    Parallel n c Carried.outcome P D E t.world ((house tenants).code levels k callback t)
      ((house tenants).code levels (P.hostCall k) (callback.mapOwner (P.home + ·)) t') := by
  obtain ⟨P₁, h₁, ho₁, hhanded, hknown⟩ := h.abreast.atEntry hi howner hk (by rw [hc]; rfl) hc'
  obtain ⟨this, args, hthis⟩ : ∃ this args, t.world.handed k = this :: args := ⟨_, _, rfl⟩
  have howner' : (P.hostCall k).anchor.owner = P₁.home := by
    show P.home + k.anchor.owner = P₁.home
    rw [howner, ho₁.agrees.home]
    rfl
  rw [hthis] at hknown
  rw [Host.code, Host.code, hhanded, hthis, howner, howner', ← ho₁.agrees.home]
  exact (parallel_hostCall hinv hp (h.onward hi h₁ ho₁) (ho₁.home hi) hown hknown).later ho₁
    (.refl ..)

/-- **Calls of scripts are answered side by side**, however deep they are nested. -/
theorem parallel_invokeAt (hp : (tenants n.side.other).Only (Request.Behaves c)) (levels : Nat) :
    ParallelInvoke n c (invokeAt (house tenants) levels) (invokeAt (house tenants) levels) := by
  induction levels with
  | zero => exact fun _ _ _ _ => .error .exhausted
  | succ levels ih =>
    rintro P D E t t' ⟨⟨owner, id⟩, this, args, act⟩ h hi hk hr
    -- The script was confined to the part, so what it called is a function of this tenant.
    obtain rfl : owner = 0 := hr.elim fun r hr => h.abreast.together.left.anchored r hr.1 _ hr.2
    obtain ⟨hsame, hown⟩ := h.abreast.together.callbackOf h.abreast.sane.placed hi hr
    cases hc : t.world.callbackOf ⟨0, id⟩ with
    | none =>
      rw [hc] at hsame
      rw [invokeAt_gone hc, invokeAt_gone hsame]
      exact .ok h (.refl ..) (.refl ..) ⟨trivial, rfl⟩
    | some callback =>
      rw [hc] at hsame
      rw [invokeAt_succ hc, invokeAt_succ hsame]
      have hcode := parallel_code hp ih h hi rfl hk (hown _ (Option.mem_def.mpr hc)) hc
        (by rw [hsame]; rfl)
      revert hcode
      generalize hx : (house tenants).code levels _ callback t = x
      generalize (house tenants).code levels _ _ t' = x'
      rintro (@⟨o, o', u, u', P₁, D₁, E₁, hb, ho, hn, hknown, rfl⟩ | e)
      · have hi₁ := ho.home hi
        obtain ⟨_, hentry, -⟩ := h.abreast.atEntry hi rfl hk (by rw [hc]; rfl) (by rw [hsame]; rfl)
        have hflight : u.world.inFlight = ⟨⟨0, id⟩, act⟩ :: t.world.inFlight :=
          (hentry.sane.inFlight_run hx).trans (World.inFlight_atEntry t.world _)
        obtain ⟨P₂, D₂, h₂, ho₂, hvalue, hvalueFits⟩ :=
          h.abreast.together.resume hi hb.abreast ho hk.activation hflight hknown
        refine .ok (hb.onward hi₁ h₂ ho₂) (ho.trans ho₂) hn ?_
        have hresult : ∀ e : Bool, Carried.completion P₂ D₂
            ((u.world.decode act.realm o.value).2.leave ⟨0, id⟩ (t.world.lentBy 0))
            (if e then .thrown (u.world.decode act.realm o.value).1
              else .value (u.world.decode act.realm o.value).1)
            (if e then .thrown (P₂.value (u.world.decode act.realm o.value).1)
              else .value (P₂.value (u.world.decode act.realm o.value).1)) := fun e => by
          cases e <;> exact ⟨hvalueFits, rfl⟩
        rw [← hvalue] at hresult
        exact hresult o.isException
      · exact .error e

end Calls

end ScriptBoundary.Boundary
