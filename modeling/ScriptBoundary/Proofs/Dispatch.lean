import ScriptBoundary.Proofs.Aftermath
import ScriptBoundary.Proofs.Bridge
import ScriptBoundary.Proofs.Lifecycle
import ScriptBoundary.Proofs.Teardown

/-!
# Which callback a function object calls

Nothing but a number ties a function object to its registration: the object carries an anchor, and
whoever calls it or reports it has the anchor looked up in the table of an instance. So a call might
go astray if a number were given out twice, or if a number of one instance were looked up in the
table of another.

`Issues` says which function object, under which anchor and for which callback, was made by one of
the moves that led to a scene. What it says is about the moment of the registration only. The
theorem relates it to every scene that comes later: the object is still the function object of that
anchor, and what is found under the anchor is that callback or, from its finalization on, nothing.

The limits on nesting are not about callbacks. A call that exceeds one of them does not come as far
as the table (`Dispatches.full`).

## Main results

* `Scene.Issues.stays`: a function object keeps its anchor, and the anchor its callback
* `Scene.Issues.later`: numbers are given out in their order
* `calls_reach_their_callback`: all of it, in every scene that moves lead to
-/

namespace ScriptBoundary.Boundary

open Script (Activation Anchor Builtins Completion HostCall Machine Program Ref)

variable {σ : Type}

/-! ## What a run keeps -/

namespace Scene

variable {ms ns : List Move} {c d : Scene}

/-- **No run gives a number out again.** -/
theorem Sound.run (h : c.Sound ms) (hr : c.run ns = some d) :
    d.Sound (ms ++ ns) ∧ ∀ i, (c.world.table i).Ages (d.world.table i) := by
  refine Scene.run_induction
    (P := fun ns d => d.Sound (ms ++ ns) ∧ ∀ i, (c.world.table i).Ages (d.world.table i))
    ⟨by rwa [List.append_nil], fun _ => .refl _⟩ ?_ hr
  rintro ns d m e ⟨hsound, hages⟩ hm
  obtain ⟨hstep, hage⟩ := hsound.step hm
  exact ⟨List.append_assoc ms ns [m] ▸ hstep, fun i => (hages i).trans (hage i)⟩

end Scene

/-- What was registered stays registered. -/
theorem Registered.append {ms : List Move} {a : Anchor} {cb : Callback}
    (h : Registered (registrations ms) a cb) (ns : List Move) :
    Registered (registrations (ms ++ ns)) a cb := by
  refine ⟨h.1, ?_⟩
  rw [registrations_append, List.getElem?_append_left (List.getElem?_eq_some_iff.mp h.2).1]
  exact h.2

/-! ## What a registration makes -/

/-- Whether the move that came after the first `n` was a registration of a callback, and `f` is the
function object that it made and `a` the anchor that it gave out. -/
structure Scene.Issues (p : Platform) (ms : List Move) (n : Nat) (f : Ref) (a : Anchor)
    (cb : Callback) : Prop where
  move : ∃ realm, ms[n]? = some (.change (.register a.owner realm cb))
  place : ∃ b, (Scene.start p).run (ms.take n) = some b ∧ f = b.world.heap.cells.size
    ∧ a.id = (b.world.table a.owner).nextId

namespace Scene.Issues

variable {p : Platform} {ms : List Move} {n : Nat} {f : Ref} {a : Anchor} {cb : Callback}
  {c : Scene}

/-- The scene in which the registration was made, and what was made of it. -/
theorem split (h : Issues p ms n f a cb) (hrun : (Scene.start p).run ms = some c) :
    ∃ b realm, (Scene.start p).run (ms.take n) = some b ∧ f = b.world.heap.cells.size
      ∧ a.id = (b.world.table a.owner).nextId ∧ b.world.isAlive a.owner = true
      ∧ (Scene.start p).run (ms.take (n + 1)) =
        some ⟨(b.world.register a.owner realm cb).2, b.stack⟩
      ∧ (⟨(b.world.register a.owner realm cb).2, b.stack⟩ : Scene).run (ms.drop (n + 1)) =
        some c := by
  obtain ⟨realm, hmove⟩ := h.move
  obtain ⟨b, hb, hf, ha⟩ := h.place
  have htake : ms.take (n + 1) = ms.take n ++ [.change (.register a.owner realm cb)] := by
    rw [List.take_add_one, hmove]
    rfl
  rw [← List.take_append_drop (n + 1) ms, run_append] at hrun
  obtain ⟨e, he, hrest⟩ := Option.bind_eq_some_iff.mp hrun
  have hfirst := he
  rw [htake, run_append, hb, Option.bind_some, run_cons] at hfirst
  obtain ⟨e', hstep, he'⟩ := Option.bind_eq_some_iff.mp hfirst
  obtain rfl : e' = e := Option.some.inj he'
  cases Scene.stepped hstep with
  | change hx =>
    obtain ⟨halive, hx⟩ := Option.ite_none_right_eq_some.mp hx
    obtain rfl := Option.some.inj hx
    exact ⟨_, realm, hb, hf, ha, halive, he, hrest⟩

/-- **A function object keeps its anchor**, and the anchor the callback that was registered. -/
theorem stays (h : Issues p ms n f a cb) (hrun : (Scene.start p).run ms = some c) :
    IsFunctionOf c.world.heap a f ∧ Registered (registrations ms) a cb := by
  obtain ⟨b, realm, hb, rfl, ha, halive, he, hrest⟩ := h.split hrun
  have hentry := (World.register_spec halive realm cb).2.2
  constructor
  · have hplaced := (Scene.placed_run he).function a.owner _ hentry
    rw [← ha] at hplaced
    exact hplaced.evolves (evolvesHeap_run hrest)
  · have hentered : (a, cb) ∈ (b.world.register a.owner realm cb).2.entered a.owner :=
      World.mem_entered.mpr ⟨rfl, _, ha ▸ hentry, rfl⟩
    have hfirst := (Scene.sound_run he).account.registered_of_entered hentered
    rw [← List.take_append_drop (n + 1) ms]
    exact hfirst.append _

/-- **Numbers are given out in their order**, and function objects are made at new addresses. -/
theorem later {n' : Nat} {f' : Ref} {a' : Anchor} {cb' : Callback} (h : Issues p ms n f a cb)
    (h' : Issues p ms n' f' a' cb') (hrun : (Scene.start p).run ms = some c) (hn : n < n') :
    f < f' ∧ (a.owner = a'.owner → a.id < a'.id) := by
  obtain ⟨b, realm, -, rfl, ha, halive, he, -⟩ := h.split hrun
  obtain ⟨b', -, hb', rfl, ha', -, -, -⟩ := h'.split hrun
  -- Moves lead from the scene after the first registration to the one before the second.
  have hlong := List.take_append_drop (n + 1) (ms.take n')
  rw [List.take_take, Nat.min_eq_left hn] at hlong
  rw [← hlong, run_append, he] at hb'
  have hentry := (World.register_spec halive realm cb).2.2
  constructor
  · have hplaced := (Scene.placed_run he).function a.owner _ hentry
    exact Nat.lt_of_lt_of_le hplaced.1 (evolvesHeap_run hb').size
  · intro howner
    have hgiven := (Scene.sound_run he).account.lt_of_mem_ids (List.mem_map_of_mem hentry)
    have hages := (((Scene.sound_run he).run hb').2 a.owner).next
    rw [ha, ha', ← howner]
    exact Nat.lt_of_lt_of_le hgiven hages

end Scene.Issues

/-! ## What a report does -/

namespace World

variable {w : World} {a : Anchor} {cb : Callback}

/-- A report of an anchor that has no callback does nothing. -/
theorem finalize_of_gone (h : w.callbackOf a = none) : w.finalize a = w := by rw [finalize, h]

/-- After a report of an anchor nothing is found under it. -/
theorem callbackOf_finalize_self (w : World) (a : Anchor) : (w.finalize a).callbackOf a = none := by
  cases hc : w.callbackOf a with
  | none => rw [finalize_of_gone hc, hc]
  | some cb =>
    refine Option.eq_none_iff_forall_ne_some.mpr fun cb' hcb' => ?_
    have hid := mem_ids_of_callbackOf hcb'
    rw [table_finalize hc, if_pos rfl, CallbackTable.ids_retire] at hid
    simp at hid

end World

/-! ## Where there is no room -/

/-- The limit that is hit. -/
theorem checkLimits_of_full {act : Activation} (hfull : ¬act.HasRoom)
    (next : Completion Unit → Program) :
    ∃ fault, Script.checkLimits 0 act next = next (.limit fault) := by
  rw [Script.checkLimits_apply]
  split
  · exact ⟨_, rfl⟩
  · next hframes =>
    split
    · exact ⟨_, rfl⟩
    · next hslots => exact absurd ⟨Nat.lt_of_not_le hframes, Nat.lt_of_not_le hslots⟩ hfull

theorem enterBuiltin_of_full {α : Type} {act : Activation} (hfull : ¬act.HasRoom) (f realm : Ref)
    (this : Script.Value) (args : List Script.Value) (body : Script.Comp α)
    (next : Completion α → Program) :
    ∃ fault, Machine.enterBuiltin f realm this args body act next = next (.limit fault) :=
  checkLimits_of_full hfull _

/-- A script that calls a function object where there is no room ends with a limit. -/
theorem runProgram_callTask_full (invoke : Invoke σ) (library : Builtins) (depth : Nat) {a : Anchor}
    {f : Ref} {act : Activation} {s : State σ} (hf : IsFunctionOf s.world.heap a f)
    (hfull : ¬act.HasRoom) (this : Script.Value) (args : List Script.Value)
    (next : Completion Script.Value → Program) : ∃ fault,
    runProgram invoke (Machine.ofDepth library (depth + 1) (.call (.object f) this args) act next)
      s = runProgram invoke (next (.limit fault)) s := by
  obtain ⟨-, ha, realm, hnature⟩ := hf
  have hlook : ∀ body : Script.Object → Script.Comp Script.Value,
      runProgram invoke ((Script.Comp.readObject f >>= body) act next) s =
        runProgram invoke (body (s.world.heap.object f) act next) s := fun _ => rfl
  have hcall : runProgram invoke
      (Machine.ofDepth library (depth + 1) (.call (.object f) this args) act next) s =
      runProgram invoke (Machine.callTask (Machine.ofDepth library depth) library (.object f) this
        args act next) s := rfl
  obtain ⟨fault, hfault⟩ :=
    enterBuiltin_of_full hfull f realm this args (Script.Comp.callHost a this args) next
  refine ⟨fault, hcall.trans ?_⟩
  rw [Machine.callTask, hlook, hnature, ha]
  dsimp only
  rw [hfault]

/-- What function objects can count on, once some moves have led to a scene. -/
structure Dispatches (p : Platform) (ms : List Move) (c : Scene) : Prop where
  /-- Each registration has given the host a handle of its function object. -/
  product : ∀ n f a cb, Scene.Issues p ms n f a cb → ∃ b realm,
    (Scene.start p).run (ms.take n) = some b
      ∧ ms[n]? = some (.change (.register a.owner realm cb))
      ∧ ∃ h, (b.world.register a.owner realm cb).1 = .composite .function h
        ∧ (b.world.register a.owner realm cb).2.cell? h = some ⟨.object f, a.owner⟩
  /-- The object is still there and has the anchor that it was made with, and the callback is the
  one that counts as registered under that anchor. -/
  stays : ∀ n f a cb, Scene.Issues p ms n f a cb →
    IsFunctionOf c.world.heap a f ∧ Registered (registrations ms) a cb
  /-- What is found under the anchor is that callback until the registration is finalized, and
  nothing from then on. -/
  found : ∀ n f a cb, Scene.Issues p ms n f a cb →
    c.world.callbackOf a = if c.world.IsFinalized a then none else some cb
  /-- A script that calls the object, in whatever context, has the code of that callback run on the
  instance that it was registered on, or gets undefined if the registration was finalized. -/
  script : ∀ {σ : Type} (host : Host σ) (levels : Nat) (g : σ) (library : Builtins) (depth : Nat)
    (n : Nat) (f : Ref) (a : Anchor) (cb : Callback) (this : Script.Value)
    (args : List Script.Value) (act : Activation) (next : Completion Script.Value → Program),
    Scene.Issues p ms n f a cb → act.HasRoom →
    ∃ k : HostCall, k.anchor = a ∧ k.this = this ∧ k.args = args
      ∧ runProgram (invokeAt host (levels + 1))
          (Machine.ofDepth library (depth + 1) (.call (.object f) this args) act next)
          ⟨c.world, g⟩ =
        if c.world.IsFinalized a then
          runProgram (invokeAt host (levels + 1)) (next (.value .undefined)) ⟨c.world, g⟩
        else match host.code levels k cb ⟨c.world, g⟩ with
          | .error e => .error e
          | .ok (o, t) =>
            let v : Visit σ := ⟨k, cb, ⟨c.world, g⟩, o, t⟩
            runProgram (invokeAt host (levels + 1)) (next v.result) v.resume
  /-- The same goes for the host, through whatever handle of the object and on whatever instance:
  the arguments are taken, and the code of that callback runs or the outcome is undefined. -/
  host : ∀ {σ : Type} (host : Host σ) (levels : Nat) (g : σ) (n : Nat) (f : Ref) (a : Anchor)
    (cb : Callback) (h : Handle) (j : InstanceId) (act : Activation) (this : Value)
    (args : List Value),
    Scene.Issues p ms n f a cb → c.world.referent h = .object f →
    c.world.context? j = some act → act.HasRoom →
    ∃ k before, k.anchor = a ∧ before.host = g
      ∧ (c.world.occupy j).decodeAll act.realm (this :: args) = (k.this :: k.args, before.world)
      ∧ answer (invokeAt host (levels + 1)) (.call j h this args) ⟨c.world, g⟩ =
        if c.world.IsFinalized a then
          .ok (⟨.undefined, false⟩, ⟨before.world.relinquish (c.world.usesOwn j) j, g⟩)
        else match host.code levels k cb before with
          | .error e => .error e
          | .ok (o, t) =>
            let v : Visit σ := ⟨k, cb, before, o, t⟩
            let told := v.resume.world.encode j v.value
            .ok (⟨told.1, o.isException⟩, ⟨told.2.relinquish (c.world.usesOwn j) j, t.host⟩)
  /-- Where a limit on nesting has been reached, a call ends with it and nothing is looked up. -/
  full : ∀ {σ : Type} (invoke : Invoke σ) (g : σ) (library : Builtins) (depth : Nat) (n : Nat)
    (f : Ref) (a : Anchor) (cb : Callback) (this : Script.Value) (args : List Script.Value)
    (act : Activation) (next : Completion Script.Value → Program),
    Scene.Issues p ms n f a cb → ¬act.HasRoom → ∃ fault,
      runProgram invoke
          (Machine.ofDepth library (depth + 1) (.call (.object f) this args) act next)
          ⟨c.world, g⟩ = runProgram invoke (next (.limit fault)) ⟨c.world, g⟩
  /-- Whoever brings an anchor, however he came by it: what it leads to is what was registered under
  it. -/
  reaches : ∀ a cb, c.world.callbackOf a = some cb →
    Registered (registrations ms) a cb ∧ ¬c.world.IsFinalized a
  /-- In a table no number is found twice, and all of them are below the next one. -/
  numbers : ∀ i, (c.world.table i).ids.Pairwise (· < ·)
    ∧ ∀ id ∈ (c.world.table i).ids, 1 ≤ id ∧ id < (c.world.table i).nextId
  /-- Of two registrations, the later one has another function object and, on the same instance, the
  greater number. -/
  later : ∀ n n' f f' a a' cb cb', Scene.Issues p ms n f a cb → Scene.Issues p ms n' f' a' cb' →
    n < n' → f < f' ∧ (a.owner = a'.owner → a.id < a'.id)
  /-- A report of an anchor retires the registration that it was given out for, and no other. -/
  report : ∀ a cb, c.world.callbackOf a = some cb →
    (c.world.finalize a).callbackOf a = none
      ∧ (∀ b, b ≠ a → (c.world.finalize a).callbackOf b = c.world.callbackOf b)
      ∧ (∀ i, (c.world.finalize a).table i =
        if a.owner = i then (c.world.table i).retire a.id else c.world.table i)
      ∧ ∀ q, q ∈ (c.world.finalize a).drops ↔
        q ∈ c.world.drops ∨ q = (a, cb) ∧ c.world.isRunning a = false
  /-- A report that comes too late does nothing, however much was registered since, -/
  stale : ∀ a, c.world.IsFinalized a → ∀ ns d, c.run ns = some d →
    d.world.IsFinalized a ∧ d.world.finalize a = d.world
  /-- and neither does a report of an anchor that was never given out. -/
  unknown : ∀ a, (∀ cb, ¬Registered (registrations ms) a cb) → c.world.finalize a = c.world

/-! ## All of it -/

/-- **Calls reach their callback** from every scene that moves lead to. -/
theorem Scene.dispatches_of_run {p : Platform} {ms : List Move} {c : Scene}
    (hrun : (Scene.start p).run ms = some c) : Dispatches p ms c := by
  have hsound := Scene.sound_run hrun
  have hfound : ∀ {n f a cb}, Scene.Issues p ms n f a cb →
      c.world.callbackOf a = if c.world.IsFinalized a then none else some cb := by
    intro n f a cb h
    split
    · next hf => exact hf.callbackOf
    · next hf => exact hsound.account.callbackOf_of_registered (h.stays hrun).2 hf
  constructor
  case product =>
    intro n f a cb h
    obtain ⟨b, realm, hb, rfl, -, halive, -⟩ := h.split hrun
    obtain ⟨realm, hmove⟩ := h.move
    obtain ⟨hvalue, hcell, -⟩ := World.register_spec halive realm cb
    exact ⟨b, realm, hb, hmove, _, hvalue, hcell⟩
  case stays => exact fun n f a cb h => h.stays hrun
  case found => exact fun n f a cb h => hfound h
  case script =>
    intro σ host levels g library depth n f a cb this args act next h hroom
    obtain ⟨k, hk, hthis, hargs, hcall⟩ := runProgram_callTask (s := ⟨c.world, g⟩) host (levels + 1)
      library depth (h.stays hrun).1 hroom this args next
    have hk' := hfound h
    rw [← hk] at hk'
    refine ⟨k, hk, hthis, hargs, hcall.trans ?_⟩
    rw [← hk]
    by_cases hf : c.world.IsFinalized k.anchor
    · rw [if_pos hf] at hk' ⊢
      rw [invokeAt_gone hk']
    · rw [if_neg hf] at hk' ⊢
      rw [invokeAt_succ hk']
      cases host.code levels k cb ⟨c.world, g⟩ <;> rfl
  case host =>
    intro σ host levels g n f a cb h j act this args hi href hact hroom
    have hcb := hfound hi
    have hfunction := (hi.stays hrun).1
    by_cases hf : c.world.IsFinalized a
    · rw [if_pos hf] at hcb
      simp only [if_pos hf]
      exact ⟨⟨a, _, _, act⟩, ⟨_, g⟩, rfl, rfl, rfl,
        answer_call_gone this args hcb hfunction href hact hroom host levels g⟩
    · rw [if_neg hf] at hcb
      simp only [if_neg hf]
      exact answer_call_live host levels g this args hcb hfunction href hact hroom
  case full =>
    intro σ invoke g library depth n f a cb this args act next h hfull
    exact runProgram_callTask_full invoke library depth (h.stays hrun).1 hfull this args next
  case reaches =>
    intro a cb hcb
    have hentered := World.mem_entered_of_callbackOf hcb
    have hreg := hsound.account.registered_of_entered hentered
    exact ⟨hreg, (hsound.account.entered_iff hreg).mp hentered⟩
  case numbers =>
    intro i
    refine ⟨Scene.ordered_run hrun i, fun id hid => ?_⟩
    obtain ⟨⟨id, r⟩, he, rfl⟩ := List.mem_map.mp hid
    have hentered : ((⟨i, id⟩ : Anchor), r.callback) ∈ c.world.entered i :=
      World.mem_entered.mpr ⟨rfl, r, he, rfl⟩
    exact hsound.account.lt_nextId (hsound.account.registered_of_entered hentered)
  case later => exact fun n n' f f' a a' cb cb' h h' hn => h.later h' hrun hn
  case report =>
    exact fun a cb hcb => ⟨World.callbackOf_finalize_self _ a,
      fun b hb => World.callbackOf_finalize hcb hb, World.table_finalize hcb,
      fun q => (World.mem_places_finalize hcb q).2⟩
  case stale =>
    intro a hf ns d hr
    have hlater := hf.ages (hsound.run hr).2
    exact ⟨hlater, World.finalize_of_gone hlater.callbackOf⟩
  case unknown =>
    intro a hnone
    refine World.finalize_of_gone (Option.eq_none_iff_forall_ne_some.mpr fun cb hcb => hnone cb ?_)
    exact hsound.account.registered_of_entered (World.mem_entered_of_callbackOf hcb)

/-- **Calls reach their callback.** In every scene that moves lead to, a function object that a
registration made calls the callback that was registered, on the instance that it was registered
on, until the registration is finalized, and nobody from then on. No call and no report reaches
another registration. What the interpreter does, at any depth, is done by moves. -/
theorem calls_reach_their_callback (p : Platform) :
    (∀ ms c, (Scene.start p).run ms = some c → Dispatches p ms c) ∧ ∀ c : Scene, c.Follows :=
  ⟨fun _ _ h => Scene.dispatches_of_run h, Scene.follows⟩

/-- The first registration is reported, a second one is made, and the report comes again. The number
of the first is not found any more, that of the second leads to the second callback, and the same
number on another instance to the one that was registered there. -/
theorem reported_once_more : ∃ c, (Scene.start .ready).run
      [.change (.newInstance default), .change (.newInstance default),
        .change (.register 0 0 (.native 7)), .change (.register 1 0 (.native 8)),
        .change (.finalize ⟨0, 1⟩), .change (.register 0 0 (.native 9)),
        .change (.finalize ⟨0, 1⟩)] = some c
    ∧ c.world.IsFinalized ⟨0, 1⟩ ∧ c.world.callbackOf ⟨0, 1⟩ = none
    ∧ c.world.callbackOf ⟨0, 2⟩ = some (.native 9) ∧ c.world.callbackOf ⟨1, 1⟩ = some (.native 8)
    ∧ c.world.finalize ⟨0, 1⟩ = c.world := by
  have hrun : ((Scene.start .ready).run
      [.change (.newInstance default), .change (.newInstance default),
        .change (.register 0 0 (.native 7)), .change (.register 1 0 (.native 8)),
        .change (.finalize ⟨0, 1⟩), .change (.register 0 0 (.native 9)),
        .change (.finalize ⟨0, 1⟩)]).any (fun c => decide (c.world.IsFinalized ⟨0, 1⟩)
      && decide (c.world.callbackOf ⟨0, 2⟩ = some (.native 9))
      && decide (c.world.callbackOf ⟨1, 1⟩ = some (.native 8))) = true := by
    decide +kernel
  obtain ⟨c, hc, hobserved⟩ := (Option.any_eq_true _ _).mp hrun
  simp only [Bool.and_eq_true, decide_eq_true_eq] at hobserved
  obtain ⟨⟨hfinalized, hsecond⟩, hother⟩ := hobserved
  have hstale := ((calls_reach_their_callback .ready).1 _ _ hc).stale _ hfinalized [] _ rfl
  exact ⟨c, hc, hfinalized, hfinalized.callbackOf, hsecond, hother, hstale.2⟩

end ScriptBoundary.Boundary
