import ScriptBoundary.Proofs.Discipline
import ScriptBoundary.Proofs.Path
import ScriptBoundary.Proofs.Work

/-!
# Which context an operation gets

An operation that is issued while a callback of its instance is on the stack runs in the context
that callback was called in. Without one it borrows the instance's own context, and if an operation
on the same instance is already on the stack, that context is taken and the operation fails.

The failing case needs two instances: an operation on the first calls a callback of the second, and
this callback issues an operation on the first. With a single instance, whatever host code runs
inside an operation is a callback of that very instance, so nothing can fail.

## Main results

* `not_refused_of_single`: with a single instance no operation is ever refused
* `contexts_are_lent`: what context each operation gets, in every scene that moves lead to
-/

namespace ScriptBoundary.Boundary

open Script (Activation HostCall)

variable {σ α : Type}

/-! ## What a scene guarantees -/

/-- Which context an operation gets that is issued in a scene. -/
structure Lending (c : Scene) : Prop where
  /-- A context is lent exactly while a callback of the instance is on the stack, -/
  isSet : ∀ i, (c.world.lentBy i).isSome = true ↔ CallbackOn c.stack i
  /-- and it is the one in which the innermost of them was called. -/
  innermost : ∀ i, c.world.lentBy i = lentOf c.stack i
  /-- Whatever happens between a call and its return, the return restores what was lent before. -/
  restored : ∀ v d ms e f, c.step (.enter v) = some d → d.run ms = some e → e.stack = d.stack →
    e.step .leave = some f → f.stack = c.stack ∧ ∀ i, f.world.lentBy i = c.world.lentBy i
  /-- So does a call of the host by a script, whether it gives a value or throws one. -/
  returned : ∀ {σ : Type} (host : Host σ) (n : Nat) (k : HostCall) (s : σ)
    (r : Script.Completion Script.Value) (t : State σ), isHostTurn c.stack = false →
    invokeAt host n k ⟨c.world, s⟩ = .ok (r, t) → ∀ i, t.world.lentBy i = c.world.lentBy i
  /-- With a callback of its instance on the stack an operation runs in the context lent to the
  innermost one, as that context is now. Its answer is that of its work there and then: nothing is
  borrowed. -/
  reuses : ∀ {σ : Type} (invoke : Invoke σ) (r : Request) (i : InstanceId) (s : σ)
    (f : Activation → Run σ r.Answer), r.addressee? = some i → c.world.isAlive i = true →
    r.work invoke c.world = some f → CallbackOn c.stack i →
    ∃ act, lentOf c.stack i = some act
      ∧ answer invoke r ⟨c.world, s⟩ = f (c.world.current act) ⟨c.world, s⟩
  /-- Nor has any operation borrowed that has a callback of its instance below it. -/
  untouched : ∀ pre i act own rest, c.stack = pre ++ .operation i act own :: rest →
    CallbackOn rest i → own = false ∧ lentOf rest i = some act
  /-- An instance's own context is in use exactly while an operation that borrowed it is on the
  stack. -/
  cell : ∀ i, c.world.isBorrowed i = true ↔ ∃ act, .operation i act true ∈ c.stack
  /-- Without a callback, and with no other operation, an operation borrows it and gives it back. -/
  borrows : ∀ {σ : Type} (invoke : Invoke σ) (r : Request) (i : InstanceId) (s : σ)
    (f : Activation → Run σ r.Answer), r.addressee? = some i → c.world.isAlive i = true →
    r.work invoke c.world = some f → ¬CallbackOn c.stack i → ¬OperationOn c.stack i →
    ∃ x, c.world.live? i = some x ∧ answer invoke r ⟨c.world, s⟩ =
      handBack i (f (x.root i c.world.converting) ⟨c.world.borrow i, s⟩)
  /-- Without a callback, but with another operation on the stack, it fails. -/
  refuses : ∀ {σ : Type} (invoke : Invoke σ) (r : Request) (i : InstanceId) (s : σ)
    (f : Activation → Run σ r.Answer), r.addressee? = some i → c.world.isAlive i = true →
    r.work invoke c.world = some f → OperationOn c.stack i → ¬CallbackOn c.stack i →
    answer invoke r ⟨c.world, s⟩ = .error (.contextInUse i)
  /-- Whatever an operation would do, it is that failure it has exactly in that case; -/
  doubleBorrow : ∀ i, c.world.isAlive i = true →
    ((∀ (σ α : Type) (body : Activation → Run σ α) (s : σ),
        inContext i body ⟨c.world, s⟩ = .error (.contextInUse i)) ↔
      OperationOn c.stack i ∧ ¬CallbackOn c.stack i)
  /-- and a scene in which a run fails so is a scene of that kind. -/
  owes : ∀ i, c.Owes (.contextInUse i) →
    isHostTurn c.stack = true ∧ OperationOn c.stack i ∧ ¬CallbackOn c.stack i

/-- An operation with a callback of its instance below it runs in what was lent to that. -/
theorem Proper.reused {i : InstanceId} {pre rest : List CallFrame} {act : Activation} {own : Bool}
    (h : Proper (pre ++ .operation i act own :: rest)) (hcb : CallbackOn rest i) :
    own = false ∧ lentOf rest i = some act := by
  induction pre with
  | nil =>
    cases own with
    | false => exact ⟨rfl, h.1⟩
    | true => exact absurd hcb (lentOf_eq_none.mp h.1.1)
  | cons f pre ih =>
    cases f with
    | callback v before => exact ih h.2
    | operation j act' own' => exact ih h.2

namespace Scene.Disciplined

variable {c : Scene} {i : InstanceId}

theorem lent_none_iff (h : c.Disciplined) {x : Instance} (hx : c.world.live? i = some x) :
    x.lent = none ↔ ¬CallbackOn c.stack i := by
  rw [← World.lentBy_of_live? hx, h.lent, lentOf_eq_none]

/-- Where nothing is lent, the instance's own context is in use exactly while an operation on the
instance is on the stack. -/
theorem borrowed_iff (h : c.Disciplined) {x : Instance} (hx : c.world.live? i = some x)
    (hl : ¬CallbackOn c.stack i) : x.borrowed = true ↔ OperationOn c.stack i := by
  rw [← World.isBorrowed_of_live? hx, h.cell, operationOn_iff h.proper (lentOf_eq_none.mpr hl)]

theorem exists_live (halive : c.world.isAlive i = true) : ∃ x, c.world.live? i = some x :=
  Option.isSome_iff_exists.mp (World.isAlive_eq_isSome_live? ▸ halive)

theorem inContext_reused (h : c.Disciplined) (halive : c.world.isAlive i = true)
    (hcb : CallbackOn c.stack i) (body : Activation → Run σ α) (s : σ) :
    ∃ act, lentOf c.stack i = some act
      ∧ inContext i body ⟨c.world, s⟩ = body (c.world.current act) ⟨c.world, s⟩ := by
  obtain ⟨x, hx⟩ := exists_live halive
  obtain ⟨act, hact⟩ := Option.isSome_iff_exists.mp (lentOf_isSome.mpr hcb)
  refine ⟨act, hact, inContext_lent (s := ⟨c.world, s⟩) hx ?_⟩
  rw [← World.lentBy_of_live? hx, h.lent, hact]

theorem inContext_refused (h : c.Disciplined) (halive : c.world.isAlive i = true)
    (hop : OperationOn c.stack i) (hcb : ¬CallbackOn c.stack i) (body : Activation → Run σ α)
    (s : σ) : inContext i body ⟨c.world, s⟩ = .error (.contextInUse i) := by
  obtain ⟨x, hx⟩ := exists_live halive
  exact inContext_borrowed (s := ⟨c.world, s⟩) hx ((h.lent_none_iff hx).mpr hcb)
    ((h.borrowed_iff hx hcb).mpr hop)

theorem inContext_borrows (h : c.Disciplined) (halive : c.world.isAlive i = true)
    (hop : ¬OperationOn c.stack i) (hcb : ¬CallbackOn c.stack i) (body : Activation → Run σ α)
    (s : σ) : ∃ x, c.world.live? i = some x ∧ inContext i body ⟨c.world, s⟩ =
      handBack i (body (x.root i c.world.converting) ⟨c.world.borrow i, s⟩) := by
  obtain ⟨x, hx⟩ := exists_live halive
  refine ⟨x, hx, inContext_own (s := ⟨c.world, s⟩) hx ((h.lent_none_iff hx).mpr hcb) ?_⟩
  cases hb : x.borrowed with
  | false => rfl
  | true => exact absurd ((h.borrowed_iff hx hcb).mp hb) hop

/-- An operation is refused exactly where another one is in the way. -/
theorem refused_iff (h : c.Disciplined) (halive : c.world.isAlive i = true) :
    (∀ (σ α : Type) (body : Activation → Run σ α) (s : σ),
        inContext i body ⟨c.world, s⟩ = .error (.contextInUse i)) ↔
      OperationOn c.stack i ∧ ¬CallbackOn c.stack i := by
  constructor
  · intro hrefused
    -- An operation that does nothing can only fail for want of a context.
    have hnothing := hrefused Unit Unit (fun _ => pure ()) ()
    by_cases hcb : CallbackOn c.stack i
    · obtain ⟨act, -, heq⟩ := h.inContext_reused halive hcb (fun _ => pure ()) ()
      rw [heq] at hnothing
      cases hnothing
    · refine ⟨?_, hcb⟩
      by_cases hop : OperationOn c.stack i
      · exact hop
      · obtain ⟨x, -, heq⟩ := h.inContext_borrows halive hop hcb (fun _ => pure ()) ()
        rw [heq] at hnothing
        cases hnothing
  · rintro ⟨hop, hcb⟩ σ α body s
    exact h.inContext_refused halive hop hcb body s

theorem owes (h : c.Disciplined) (ho : c.Owes (.contextInUse i)) :
    isHostTurn c.stack = true ∧ OperationOn c.stack i ∧ ¬CallbackOn c.stack i := by
  obtain ⟨hst, x, hx, hl, hb⟩ := ho
  have hcb := (h.lent_none_iff hx).mp hl
  exact ⟨hst, (h.borrowed_iff hx hcb).mp hb, hcb⟩

end Scene.Disciplined

theorem lending_of_run {p : Platform} {ms : List Move} {c : Scene}
    (h : (Scene.start p).run ms = some c) : Lending c := by
  obtain ⟨w, st⟩ := c
  have hc := Scene.disciplined_run h
  -- What moves lead to from here is disciplined too.
  have later : ∀ {ns d}, Scene.run ⟨w, st⟩ ns = some d → d.Disciplined := by
    intro ns d hd
    exact Scene.disciplined_run (Scene.run_trans h hd)
  refine ⟨fun i => ?_, hc.lent, ?_, ?_, ?_, ?_, fun i => ?_, ?_, ?_, fun i => hc.refused_iff,
    fun i => hc.owes⟩
  · rw [hc.lent, lentOf_isSome]
  · intro v d ns e f hd he hst hf
    have hrun : Scene.run ⟨w, st⟩ (.enter v :: ns ++ [.leave]) = some f := by
      rw [List.cons_append, Scene.run_cons, hd]
      refine (Scene.run_append (c := d)).trans ?_
      rw [he]
      exact (Scene.run_cons (c := e)).trans (by rw [hf]; rfl)
    have hstack : f.stack = st := by
      simp only [Scene.step] at hd hf
      split at hd
      · cases hd
      · obtain rfl := Option.some.inj hd
        rw [hst] at hf
        obtain rfl := Option.some.inj hf
        rfl
    refine ⟨hstack, fun i => ?_⟩
    rw [(later hrun).lent, hc.lent, hstack]
  · intro σ host n k s r t hst hr i
    have htraced := traced_invokeAt (Host.only_allowed host) n k ⟨w, s⟩ st hst
    obtain ⟨ns, -, hns⟩ := htraced.path hr
    rw [hc.lent]
    exact (later hns).lent i
  · intro σ invoke r i s f hi halive hf hcb
    obtain ⟨act, hact, heq⟩ := hc.inContext_reused halive hcb f s
    exact ⟨act, hact, (answer_eq_inContext (s := ⟨w, s⟩) hi hf).trans heq⟩
  · intro pre i act own rest hstack hcb
    have hproper := hc.proper
    rw [hstack] at hproper
    exact hproper.reused hcb
  · rw [hc.cell, borrowedOf_iff]
  · intro σ invoke r i s f hi halive hf hcb hop
    obtain ⟨x, hx, heq⟩ := hc.inContext_borrows halive hop hcb f s
    exact ⟨x, hx, (answer_eq_inContext (s := ⟨w, s⟩) hi hf).trans heq⟩
  · intro σ invoke r i s f hi halive hf hop hcb
    exact (answer_eq_inContext (s := ⟨w, s⟩) hi hf).trans (hc.inContext_refused halive hop hcb f s)

/-! ## A single instance -/

/-- Whether no instance but the first was ever made. -/
def World.IsSingle (w : World) : Prop := ∀ i, 1 ≤ i → w.desk i = none

theorem World.IsSingle.updateInstance {w : World} (h : w.IsSingle) (i : InstanceId)
    (f : Instance → Instance) : (w.updateInstance i f).IsSingle := by
  intro j hj
  have hnone : w.instance? j = none := Option.map_eq_none_iff.mp (h j hj)
  rw [World.desk, World.instance?_updateInstance, hnone]
  split <;> rfl

theorem World.IsSingle.congr {w w' : World} (h : w.IsSingle) (hcalls : w'.calls = w.calls) :
    w'.IsSingle := by
  have hd : w'.desk = w.desk := congrArg Calls.desk hcalls
  intro i hi
  rw [hd]
  exact h i hi

theorem World.isSingle_of_size {w : World} (h : w.instances.size ≤ 1) : w.IsSingle := by
  intro i hi
  rw [World.desk, World.instance?, Array.getElem?_eq_none (Nat.le_trans h hi)]
  rfl

/-- A move that makes no instance leaves a single one alone. -/
theorem Scene.Sound.isSingle_step {ms : List Move} {c d : Scene} {m : Move} (hs : c.Sound ms)
    (h : c.world.IsSingle) (ha : m.Allowed False) (hm : c.step m = some d) :
    d.world.IsSingle := by
  cases Scene.stepped hm with
  | @change w w' st x hx =>
    obtain ⟨j, realm, cb, rfl, halive, rfl⟩ | hr := Change.register_or hx
    · obtain ⟨f, hcalls⟩ := World.register_eq halive realm cb
      exact (h.updateInstance _ _).congr hcalls
    · refine (hs.account.change_keeps (P := World.IsSingle) h hx hr ?_ ?_ ?_ ?_).2
      · exact fun u u' hcalls hu => hu.congr hcalls
      · rintro u limits rfl -
        exact ha.elim
      · rintro u a cb - hu k hk
        rw [World.desk_retire]
        exact hu.updateInstance _ _ k hk
      · exact fun u j hu => hu.updateInstance _ _
  | beginLent => exact h
  | beginOwn => exact h.updateInstance _ _
  | finishLent => exact h
  | finishOwn => exact h.updateInstance _ _
  | @enter w => exact World.IsSingle.updateInstance (w := { w with inFlight := _ }) h _ _
  | leave =>
    intro k hk
    rw [(World.leave_cases _ _ _).1]
    exact h.updateInstance _ _ k hk

/-- With a single instance, whoever calls it from inside it does so from one of its callbacks. -/
theorem Scene.Disciplined.callbackOn_of_single {c : Scene} (h : c.Disciplined)
    (hsingle : c.world.IsSingle) {i : InstanceId} (halive : c.world.isAlive i = true)
    (hst : isHostTurn c.stack = true) (hop : OperationOn c.stack i) : CallbackOn c.stack i := by
  have hi : i = 0 := by
    refine Decidable.byContradiction fun hne => ?_
    rw [World.isAlive, hsingle i (Nat.pos_of_ne_zero hne)] at halive
    cases halive
  obtain ⟨act, own, hmem⟩ := hop
  cases hstack : c.stack with
  | nil =>
    rw [hstack] at hmem
    cases hmem
  | cons f rest =>
    cases f with
    | operation j act' own' =>
      rw [hstack] at hst
      cases hst
    | callback v before =>
      -- What the callback was called in is lent out, so its instance exists.
      have hlent := h.lent v.anchor.owner
      rw [hstack, lentOf, if_pos rfl] at hlent
      have hv : v.anchor.owner = 0 := by
        refine Decidable.byContradiction fun hne => ?_
        rw [World.lentBy, hsingle _ (Nat.pos_of_ne_zero hne)] at hlent
        cases hlent
      exact ⟨v, before, List.mem_cons_self, by rw [hv, hi]⟩

theorem Scene.isSingle_run {ms ns : List Move} {c d : Scene} (hs : c.Sound ms)
    (h : c.world.IsSingle) (ha : ∀ m ∈ ns, m.Allowed False) (hr : c.run ns = some d) :
    d.world.IsSingle := by
  induction ns generalizing c ms with
  | nil =>
    obtain rfl := Option.some.inj hr
    exact h
  | cons m ns ih =>
    obtain ⟨e, hm, hr⟩ := Option.bind_eq_some_iff.mp hr
    exact ih (hs.step hm).1 (hs.isSingle_step h (ha m List.mem_cons_self) hm)
      (fun m' hm' => ha m' (List.mem_cons_of_mem _ hm')) hr

/-- **With a single instance nothing is refused**, however deep operations and callbacks nest. -/
theorem not_refused_of_single {p : Platform} {ms : List Move} {w : World} {st : List CallFrame}
    (h : (Scene.start p).run ms = some ⟨w, st⟩) (hst : isHostTurn st = true)
    (hsize : w.instances.size ≤ 1) {host : Host σ} {m : Act σ α}
    (hhost : host.Only (Request.Allowed False)) (hm : m.Only (Request.Allowed False)) (n : Nat)
    (s : σ) (i : InstanceId) :
    m.run (answer (invokeAt host n)) ⟨w, s⟩ ≠ .error (.contextInUse i) := by
  intro hfail
  obtain ⟨d, ⟨ns, hns, hrun⟩, howes⟩ :=
    (traced_run (s := ⟨w, s⟩) (traced_invokeAt hhost n) hst hm).owes hfail
  have hd : d.Disciplined := Scene.disciplined_run (Scene.run_trans h hrun)
  have hsingle := Scene.isSingle_run (Scene.sound_run h) (World.isSingle_of_size hsize) hns hrun
  obtain ⟨hturn, hop, hcb⟩ := hd.owes howes
  obtain ⟨-, x, hx, -⟩ := howes
  exact hcb (hd.callbackOn_of_single hsingle (World.isAlive_of_live? hx) hturn hop)

/-- **Which context each operation gets**, in every scene that moves lead to. What the interpreter
does, at any depth, is done by moves; and where there is at most one instance and nobody asks for
another, no operation ever finds its context in use. -/
theorem contexts_are_lent (p : Platform) :
    (∀ ms c, (Scene.start p).run ms = some c → Lending c) ∧ (∀ c : Scene, c.Follows) ∧
    ∀ {σ α : Type} (host : Host σ) (m : Act σ α) (n : Nat) (ms : List Move) (c : Scene) (s : σ)
      (i : InstanceId), (Scene.start p).run ms = some c → isHostTurn c.stack = true →
      c.world.instances.size ≤ 1 → host.Only (Request.Allowed False) →
      m.Only (Request.Allowed False) →
      m.run (answer (invokeAt host n)) ⟨c.world, s⟩ ≠ .error (.contextInUse i) :=
  ⟨fun _ _ h => lending_of_run h, Scene.follows, fun _ _ n _ _ s i h hst hsize hhost hm =>
    not_refused_of_single h hst hsize hhost hm n s i⟩

/-- The case that needs two instances: an operation on the first calls a callback of the second, and
evaluating a script on the first is refused there. On the second it is not. -/
theorem refused_inside_the_other :
    ∃ c, (Scene.start .ready).run
        [.change (.newInstance default), .change (.newInstance default),
          .change (.register 1 0 (.native 7)), .begin 0, .enter ⟨⟨1, 1⟩, default⟩] = some c
      ∧ answer (fun _ => throw .exhausted) (.eval 0 []) ⟨c.world, ()⟩ = .error (.contextInUse 0)
      ∧ c.world.lentBy 1 = some default := by
  refine ⟨_, rfl, ?_, rfl⟩
  have hlending := (contexts_are_lent .ready).1
    [.change (.newInstance default), .change (.newInstance default),
      .change (.register 1 0 (.native 7)), .begin 0, .enter ⟨⟨1, 1⟩, default⟩] _ rfl
  have hop : ∀ f act own, OperationOn [f, .operation 0 act own] 0 := fun _ act own =>
    ⟨act, own, .tail _ (.head _)⟩
  exact hlending.refuses _ (.eval 0 []) 0 () _ rfl rfl rfl (hop _ _ _) (lentOf_eq_none.mp rfl)

end ScriptBoundary.Boundary
