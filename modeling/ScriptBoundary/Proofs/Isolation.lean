import ScriptBoundary.Proofs.Arrival
import ScriptBoundary.Proofs.Discipline
import ScriptBoundary.Proofs.HostCalls

/-!
# Two tenants do not notice each other

Between turns both tenants are at rest, and what each of them has in its own process stands in the
one that they share (`Shares`). In a turn of either of them the same happens in its own process, and
the other one is left alone but for a pass of the collector, which may finalize registrations of it
that are unreachable (`Shares.turn`). So by induction over the turns each tenant gets the same as if
it were alone (`same_alone`).

## Main results

* `Shares.turn`: a turn of one tenant
* `same_alone`: all turns of both
-/

namespace ScriptBoundary

namespace Boundary

open Script (Embedding Limits Reachable Ref)

variable {σ α : Type}

/-! ## Worlds between turns -/

/-- Whether moves lead to a world in which nothing is in progress. -/
def World.Quiet (w : World) : Prop := ∃ p ms, (Scene.start p).run ms = some ⟨w, []⟩

namespace World.Quiet

variable {w : World}

theorem sane (h : w.Quiet) : w.Sane := by
  obtain ⟨p, ms, hrun⟩ := h
  exact ⟨⟨ms, (Scene.sound_run hrun).account⟩, Scene.placed_run hrun⟩

theorem atRest (h : w.Quiet) : w.AtRest := by
  obtain ⟨p, ms, hrun⟩ := h
  refine ⟨(Scene.sound_run hrun).stack, fun x hx => ?_⟩
  have hlent : w.lentBy 0 = none := (Scene.disciplined_run hrun).lent 0
  rw [← World.instance?_bind_lent, hx] at hlent
  exact hlent

theorem execute (h : w.Quiet) {host : Host σ} {m : Act σ α} {s : σ} {a : α} {t : State σ}
    (hr : Boundary.execute host m w s = .ok (a, t)) : t.world.Quiet := by
  obtain ⟨p, ms, hrun⟩ := h
  obtain ⟨ms', hrun'⟩ := (Scene.follows ⟨w, []⟩).code host levels m s a t rfl hr
  exact ⟨p, ms ++ ms', by rw [Scene.run_append, hrun]; exact hrun'⟩

/-- A process in which nothing was made, whatever lifecycle functions there are. -/
theorem blank (platform : Platform) (lifecycle : Option LifecyclePair) :
    World.Quiet { World.blank with platform, lifecycle } := by
  cases lifecycle with
  | none => exact ⟨platform, [], rfl⟩
  | some pair => exact ⟨platform, [.change (.install pair)], rfl⟩

end World.Quiet

/-! ## A shared process -/

namespace Side

@[simp] theorem other_other (s : Side) : s.other.other = s := by cases s <;> rfl

/-- What is so of one tenant and of the one next door is so of both. -/
theorem forall_of {p : Side → Prop} (s : Side) (h : p s) (h' : p s.other) (r : Side) : p r := by
  cases s <;> cases r <;> assumption

end Side

/-- Whether what two tenants have in processes of their own is what they have in one that they
share. All of what a tenant has is looked at, if the other one does not have the collector run. -/
structure Shares (sweeps : Side → Prop) (own : Side → State (House σ)) (P : Side → Passage)
    (D : Side → Set Ref) (t' : State (House σ)) : Prop where
  together : ∀ s, Together (P s) (D s) (own s).world (P s.other) (D s.other) (own s.other).world
    t'.world
  quiet : ∀ s, (own s).world.Quiet
  quiet' : t'.world.Quiet
  lodging : ∀ s, ((own s).host s).Stands (P s) (own s).world (t'.host s)
  vacant : ∀ s, ((own s).host s.other).home = none
  bare : ∀ s, ((own s).host s).home = none → (own s).world.Bare
  whole : ∀ s, sweeps s.other ∨ D s = (own s).world.heap.range

/-- Whether two tenants can share a process, where there is what they have in processes of their
own. -/
def Shared (sweeps : Side → Prop) (own : Side → State (House σ)) (t' : State (House σ)) : Prop :=
  ∃ P D, Shares sweeps own P D t'

/-- A tenant that is at rest while the other one has a turn. -/
def Sleeper.of (own : Side → State (House σ)) (P : Side → Passage) (t' : State (House σ))
    (s : Side) : Sleeper σ :=
  ⟨s.other, P s.other, (own s.other).world, t'.host s.other⟩

namespace Shares

variable {sweeps : Side → Prop} {own : Side → State (House σ)} {P : Side → Passage}
  {D : Side → Set Ref} {t' : State (House σ)} {s : Side}

theorem beside (h : Shares sweeps own P D t') (s : Side) :
    Beside (.of own P t' s) (P s) (D s) (D s.other) (own s) t' where
  abreast := ⟨h.together s, (h.quiet s).sane, h.quiet'.sane⟩
  lodging := by
    show ((own s).host s.other.other).Stands (P s) (own s).world (t'.host s.other.other)
    rw [s.other_other]
    exact h.lodging s
  vacant := h.vacant s
  sleeper := rfl
  asleep i hi := by
    have hl := h.lodging s.other
    have hi : i ∈ (t'.host s.other).home := hi
    rw [hl.home] at hi
    obtain ⟨j, hj, rfl⟩ := Option.map_eq_some_iff.mp hi
    obtain ⟨rfl, hthere⟩ := hl.place j hj
    exact ⟨rfl, hthere⟩

/-- **What the tenants have after a turn.** -/
theorem after (h : Shares sweeps own P D t') {t u' : State (House σ)} {P₁ : Passage}
    {D₁ E₁ : Set Ref} (hb : Beside (.of own P t' s) P₁ D₁ E₁ t u') (hq : t.world.Quiet)
    (hq' : u'.world.Quiet) (hbare : (t.host s).home = none → t.world.Bare)
    (hwhole : D s = (own s).world.heap.range → D₁ = t.world.heap.range)
    (hnarrows : Narrows (sweeps s) (D s.other) E₁) :
    Shared sweeps (Function.update own s t) u' := by
  have htogether := hb.abreast.together
  have hlodging : (t.host s.other.other).Stands P₁ t.world (u'.host s.other.other) := hb.lodging
  have hvacant := h.vacant s.other
  have hwhole' := h.whole s.other
  rw [s.other_other] at hlodging hvacant hwhole'
  have hsleeper : u'.host s.other = t'.host s.other := hb.sleeper
  have hne := s.other_ne
  refine ⟨Function.update P s P₁, Function.update (Function.update D s D₁) s.other E₁,
    ⟨s.forall_of ?_ ?_, s.forall_of ?_ ?_, hq', s.forall_of ?_ ?_, s.forall_of ?_ ?_,
      s.forall_of ?_ ?_, s.forall_of ?_ ?_⟩⟩
  all_goals
    simp only [Function.update_self, Function.update_of_ne hne, Function.update_of_ne hne.symm,
      Side.other_other]
  · exact htogether
  · exact htogether.symm hq.atRest
  · exact hq
  · exact h.quiet s.other
  · exact hlodging
  · rw [hsleeper]
    exact h.lodging s.other
  · exact hb.vacant
  · exact hvacant
  · exact hbare
  · exact h.bare s.other
  · exact (h.whole s).imp_right hwhole
  · rcases hnarrows.same with hsweeps | hsame
    · exact .inl hsweeps
    · exact hwhole'.imp_right hsame.trans

end Shares

/-! ## Turns -/

/-- Whether a tenant only ever makes requests of some kind in a turn. -/
def Deed.Only (p : Request → Prop) : Deed σ → Prop
  | .moveIn _ => True
  | .act m => m.Only p

/-- Whether a turn of a tenant ends alike in its own process and in one that it shares. -/
inductive Turned (sweeps : Side → Prop) (own : Side → State (House σ)) (s : Side) :
    Except Fault (Unit × State (House σ)) → Except Fault (Unit × State (House σ)) → Prop where
  | ok {t t'} (shared : Shared sweeps (Function.update own s t) t') :
    Turned sweeps own s (.ok ((), t)) (.ok ((), t'))
  | error (e : Fault) (i : InstanceId) :
    Turned sweeps own s (.error e) (.error (e.mapOwner (i + ·)))

section Turns

variable {sweeps : Side → Prop} {own : Side → State (House σ)} {P : Side → Passage}
  {D : Side → Set Ref} {t' : State (House σ)} {s : Side} {tenants : Side → Tenant σ}

/-- A tenant that has no instance can do nothing to the world. -/
theorem Act.run_lodged_homeless {respond : (r : Request) → Run (House σ) r.Answer} {m : Act σ α}
    {t u : State (House σ)} {a : α} (hhome : (t.host s).home = none)
    (hr : (m.lodged s).run respond t = .ok (a, u)) :
    u.world = t.world := by
  induction m generalizing t with
  | done b =>
    obtain ⟨-, rfl⟩ := Prod.mk.inj (Except.ok.inj hr)
    exact rfl
  | ask r next ih =>
    rw [Act.run_lodged_ask, hhome] at hr
    exact ih _ hhome hr
  | read next ih => exact ih _ hhome hr
  | write x next ih =>
    refine ih (t := ⟨t.world, Function.update t.host s { t.host s with own := x }⟩) ?_ hr
    dsimp only
    rw [Function.update_self]
    exact hhome

/-- **A tenant runs a program.** -/
theorem Shares.act (h : Shares sweeps own P D t')
    (hp : (tenants s).Only (Request.Behaves (sweeps s))) {m : Act σ Unit}
    (hm : m.Only (Request.Behaves (sweeps s))) :
    Turned sweeps own s (execute (house tenants) (m.lodged s) (own s).world (own s).host)
      (execute (house tenants) (m.lodged s) t'.world t'.host) := by
  have hside : (Sleeper.of own P t' s).side.other = s := s.other_other
  have hcode : (tenants (Sleeper.of own P t' s).side.other).Only
      (Request.Behaves (sweeps s)) := by
    rw [hside]
    exact hp
  have hrun := parallel_lodged (parallel_invokeAt hcode levels) hm (h.beside s)
  rw [hside] at hrun
  generalize hx : (m.lodged s).run (answer (invokeAt (house tenants) levels)) (own s) = x at hrun
  generalize hx' : (m.lodged s).run (answer (invokeAt (house tenants) levels)) t' = x' at hrun
  have hown : execute (house tenants) (m.lodged s) (own s).world (own s).host = x := hx
  have hshared : execute (house tenants) (m.lodged s) t'.world t'.host = x' := hx'
  rw [hown, hshared]
  cases hrun with
  | @ok a b t u' P₁ D₁ E₁ hb ho hn hr =>
    refine .ok (h.after hb ((h.quiet s).execute hown) (h.quiet'.execute hshared) (fun hhome => ?_)
      ho.whole hn)
    have hlodging := hb.lodging
    rw [hside] at hlodging
    cases hhad : ((own s).host s).home with
    | none =>
      rw [Act.run_lodged_homeless hhad hx]
      exact h.bare s hhad
    | some i =>
      have hmoved := hlodging.moved (ho.home ((h.lodging s).place i hhad).2)
      rw [hhome] at hmoved
      cases hmoved
  | error e => exact .error e _

/-- What there is after a tenant has moved in. -/
def movedIn (s : Side) (limits : Limits) (t : State (House σ)) : State (House σ) :=
  ⟨(t.world.newInstance limits).2, Function.update t.host s
    { t.host s with home := some (t.world.newInstance limits).1 }⟩

theorem host_movedIn (s : Side) (limits : Limits) (t : State (House σ)) :
    (movedIn s limits t).host s = { t.host s with home := some (t.world.newInstance limits).1 } :=
  Function.update_self ..

/-- What moving in comes to. -/
theorem execute_moveIn (host : Host (House σ)) (s : Side) (limits : Limits) (t : State (House σ)) :
    execute host ((Deed.moveIn limits : Deed σ).lodged s) t.world t.host = .ok ((),
      match (t.host s).home with
      | some _ => t
      | none => movedIn s limits t) := by
  show ((match (t.host s).home with
    | some _ => .done ()
    | none => .ask (.newInstance limits) fun i =>
      .keep s (fun l => { l with home := some i }) (.done ()) : Act (House σ) Unit).run _ t) = _
  cases (t.host s).home <;> rfl

/-- What a tenant has that has just moved in. -/
theorem Shares.beside_movedIn (h : Shares sweeps own P D t') (limits : Limits)
    (hhome : ((own s).host s).home = none) (hq : (movedIn s limits (own s)).world.Quiet)
    (hq' : (movedIn s limits t').world.Quiet) :
    Beside (.of own P t' s) ((P s).arrive t'.world) (movedIn s limits (own s)).world.heap.range
      (D s.other) (movedIn s limits (own s)) (movedIn s limits t') := by
  have htogether := (h.together s).arrive (h.bare s hhome) limits
  have hl := h.lodging s
  have hne := s.other_ne
  refine ⟨⟨htogether, hq.sane, hq'.sane⟩, ?_, ?_, ?_, (h.beside s).asleep⟩
  · show ((movedIn s limits (own s)).host s.other.other).Stands _ _
      ((movedIn s limits t').host s.other.other)
    rw [s.other_other, host_movedIn, host_movedIn]
    show Lodging.Stands _ _ ((own s).world.newInstance limits).2 _
    obtain ⟨platform, number, log, heq⟩ := (own s).world.newInstance_eq limits
    obtain ⟨platform', number', log', heq'⟩ := t'.world.newInstance_eq limits
    have hsize : (own s).world.instances.size = 0 := by
      rw [(h.bare s hhome).instances]
      rfl
    have hthere : (((own s).world.newInstance limits).2.instance? 0).isSome := by
      rw [heq, World.instance?]
      dsimp only
      rw [Array.getElem?_push, hsize]
      rfl
    exact
      { place := fun i hi => ⟨(Option.some.inj hi).symm.trans (by rw [heq]; exact hsize), hthere⟩
        moved := fun _ => by rw [heq]; exact congrArg some hsize
        home := by
          rw [heq, heq', hsize]
          rfl
        names := hl.names
        known := fun k hk => by
          rw [heq]
          exact hl.known k hk
        diary := hl.diary
        own := hl.own }
  · show (Function.update (own s).host s _ s.other).home = none
    rw [Function.update_of_ne hne]
    exact h.vacant s
  · exact Function.update_of_ne hne _ _

/-- **A tenant moves in.** -/
theorem Shares.moveIn (h : Shares sweeps own P D t') (limits : Limits) :
    Turned sweeps own s
      (execute (house tenants) ((Deed.moveIn limits : Deed σ).lodged s) (own s).world (own s).host)
      (execute (house tenants) ((Deed.moveIn limits : Deed σ).lodged s) t'.world t'.host) := by
  have hown := execute_moveIn (house tenants) s limits (own s)
  have hshared := execute_moveIn (house tenants) s limits t'
  rw [(h.lodging s).home] at hshared
  cases hhad : ((own s).host s).home with
  | some i =>
    rw [hhad] at hown hshared
    rw [hown, hshared]
    refine .ok ⟨P, D, ?_⟩
    rwa [Function.update_eq_self]
  | none =>
    rw [hhad] at hown hshared
    rw [hown, hshared]
    have hq := (h.quiet s).execute hown
    have hq' := h.quiet'.execute hshared
    refine .ok (h.after (h.beside_movedIn limits hhad hq hq') hq hq' (fun hhome => ?_)
      (fun _ => rfl) (.refl ..))
    have hhome : ((movedIn s limits (own s)).host s).home = none := hhome
    rw [host_movedIn] at hhome
    cases hhome

/-- **A turn of one tenant** ends alike in its own process and in the shared one. -/
theorem Shared.turn (h : Shared sweeps own t')
    (hp : (tenants s).Only (Request.Behaves (sweeps s))) {deed : Deed σ}
    (hd : deed.Only (Request.Behaves (sweeps s))) :
    Turned sweeps own s (execute (house tenants) (deed.lodged s) (own s).world (own s).host)
      (execute (house tenants) (deed.lodged s) t'.world t'.host) := by
  obtain ⟨P, D, h⟩ := h
  cases deed with
  | moveIn limits => exact h.moveIn limits
  | act m => exact h.act hp hd

/-- The turns of one tenant among those of both. -/
def turnsOf (s : Side) (turns : List (Side × Deed σ)) : List (Side × Deed σ) :=
  turns.filter (·.1 = s)

/-- Whether all turns of two tenants end alike for each of them. -/
inductive AllTurned (sweeps : Side → Prop) (tenants : Side → Tenant σ)
    (own : Side → State (House σ)) (turns : List (Side × Deed σ)) :
    Except (Side × Fault) (State (House σ)) → Prop where
  | ok {own₁ t'} (shared : Shared sweeps own₁ t')
    (alone : ∀ s, runTurns tenants (turnsOf s turns) (own s) = .ok (own₁ s)) :
    AllTurned sweeps tenants own turns (.ok t')
  | error (s : Side) (e : Fault) (i : InstanceId)
    (alone : runTurns tenants (turnsOf s turns) (own s) = .error (s, e)) :
    AllTurned sweeps tenants own turns (.error (s, e.mapOwner (i + ·)))

theorem turnsOf_cons_self (s : Side) (deed : Deed σ) (rest : List (Side × Deed σ)) :
    turnsOf s ((s, deed) :: rest) = (s, deed) :: turnsOf s rest :=
  List.filter_cons_of_pos (decide_eq_true rfl)

theorem turnsOf_cons_of_ne {r s : Side} (h : s ≠ r) (deed : Deed σ) (rest : List (Side × Deed σ)) :
    turnsOf r ((s, deed) :: rest) = turnsOf r rest :=
  List.filter_cons_of_neg fun heq => h (of_decide_eq_true heq)

theorem runTurns_cons_ok {s : Side} {deed : Deed σ} {t t₁ : State (House σ)} {a : Unit}
    (hx : execute (house tenants) (deed.lodged s) t.world t.host = .ok (a, t₁))
    (rest : List (Side × Deed σ)) :
    runTurns tenants ((s, deed) :: rest) t = runTurns tenants rest t₁ := by
  simp only [runTurns, hx]

theorem runTurns_cons_error {s : Side} {deed : Deed σ} {t : State (House σ)} {e : Fault}
    (hx : execute (house tenants) (deed.lodged s) t.world t.host = .error e)
    (rest : List (Side × Deed σ)) :
    runTurns tenants ((s, deed) :: rest) t = .error (s, e) := by
  simp only [runTurns, hx]

/-- **All turns of both tenants**, one after the other. -/
theorem Shared.turns (h : Shared sweeps own t')
    (hp : ∀ s, (tenants s).Only (Request.Behaves (sweeps s))) {turns : List (Side × Deed σ)}
    (hturns : ∀ turn ∈ turns, turn.2.Only (Request.Behaves (sweeps turn.1))) :
    AllTurned sweeps tenants own turns (runTurns tenants turns t') := by
  induction turns generalizing own t' with
  | nil => exact .ok h fun _ => rfl
  | cons turn rest ih =>
    obtain ⟨s, deed⟩ := turn
    obtain ⟨hdeed, hrest⟩ := List.forall_mem_cons.mp hturns
    have hturned := h.turn (hp s) hdeed
    generalize hx : execute (house tenants) (deed.lodged s) (own s).world (own s).host = x
      at hturned
    generalize hx' : execute (house tenants) (deed.lodged s) t'.world t'.host = x' at hturned
    cases hturned with
    | error e i =>
      rw [runTurns_cons_error hx']
      exact .error s e i (by rw [turnsOf_cons_self, runTurns_cons_error hx])
    | @ok t₁ t₁' hshared =>
      rw [runTurns_cons_ok hx']
      have hlater := ih hshared hrest
      -- The turn is the first one of its tenant, and none of the other one's.
      have hsame : ∀ r, runTurns tenants (turnsOf r ((s, deed) :: rest)) (own r) =
          runTurns tenants (turnsOf r rest) (Function.update own s t₁ r) := by
        intro r
        by_cases hr : s = r
        · subst hr
          rw [turnsOf_cons_self, runTurns_cons_ok hx, Function.update_self]
        · rw [turnsOf_cons_of_ne hr, Function.update_of_ne (Ne.symm hr)]
      generalize runTurns tenants rest t₁' = y at hlater
      cases hlater with
      | ok hshared alone => exact .ok hshared fun r => (hsame r).trans (alone r)
      | error r e i alone => exact .error r e i ((hsame r).trans alone)

end Turns

/-! ## What a tenant gets -/

/-- Two tenants that have nothing share a process. -/
theorem shared_empty (sweeps : Side → Prop) (platform : Platform) (lifecycle : Option LifecyclePair)
    (own : Side → σ) :
    Shared sweeps (fun _ => emptyHouse platform lifecycle own)
      (emptyHouse platform lifecycle own) := by
  have hbare : World.Bare { World.blank with platform, lifecycle } := ⟨rfl, rfl, rfl, rfl⟩
  refine ⟨fun _ => ⟨.shift 0 0, id⟩, fun _ => ∅, ?_⟩
  exact
    { together := fun _ => .bare hbare hbare hbare rfl rfl rfl rfl
      quiet := fun _ => .blank platform lifecycle
      quiet' := .blank platform lifecycle
      lodging := fun _ =>
        { place := nofun
          moved := fun hi => by cases hi
          home := rfl
          names := rfl
          known := nofun
          diary := rfl
          own := rfl }
      vacant := fun _ => rfl
      bare := fun _ _ => hbare
      whole := fun _ => .inr hbare.range_eq.symm }

/-- The registrations of an instance that are not finalized, without the number it has. -/
def Instance.registered (x : Instance) : List (Nat × Callback) :=
  x.table.entries.map fun e => (e.1, e.2.callback.mapOwner fun _ => 0)

/-- The instance of a tenant. -/
def State.homeOf (t : State (House σ)) (s : Side) : Option Instance :=
  (t.host s).home.bind t.world.instance?

/-- Whether a tenant gets the same in a process of its own and in one that it shares. All that may
differ is that some registrations are finalized early, if the other one has the collector run, and
these are unreachable. -/
structure SameFor (s : Side) (sweeps : Prop) (t t' : State (House σ)) : Prop where
  diary : (t'.host s).diary = (t.host s).diary
  own : (t'.host s).own = (t.host s).own
  shown : (t'.homeOf s).map Instance.shown = (t.homeOf s).map Instance.shown
  registered : ∀ x ∈ t.homeOf s, ∀ x' ∈ t'.homeOf s, x'.registered.Sublist x.registered
  early : ∀ x ∈ t.homeOf s, ∀ x' ∈ t'.homeOf s, ∀ e ∈ x.table.entries,
    e.1 ∉ x'.registered.map (·.1) → sweeps ∧ ¬Reachable t.world.heap t.world.roots e.2.function

section Same

variable {sweeps : Side → Prop} {own : Side → State (House σ)} {P : Side → Passage}
  {D : Side → Set Ref} {t' : State (House σ)}

/-- The instance of a tenant in both processes. -/
theorem Shares.homeOf (h : Shares sweeps own P D t') (s : Side) :
    ((own s).homeOf s = none ∧ t'.homeOf s = none)
      ∨ ∃ x x', (own s).homeOf s = some x ∧ t'.homeOf s = some x'
        ∧ (own s).world.instance? 0 = some x
        ∧ (P s).Matches ((own s).world.heap.zone (D s)) x x' := by
  have hl := h.lodging s
  rw [State.homeOf, State.homeOf, hl.home]
  cases hhome : ((own s).host s).home with
  | none => exact .inl ⟨rfl, rfl⟩
  | some i =>
    obtain ⟨rfl, hi⟩ := hl.place i hhome
    obtain ⟨x, x', hx, hx', hmatch⟩ := (h.together s).instances hi
    exact .inr ⟨x, x', hx, hx', hx, hmatch⟩

/-- The registrations of an instance in both processes. -/
theorem registered_of_matches {f : Embedding} {Z : Script.Zone} {x x' : Instance}
    (h : f.Matches Z x x') : x'.registered =
      (x.table.within Z.refs).map fun e => (e.1, e.2.callback.mapOwner fun _ => 0) := by
  rw [Instance.registered, h.entries, List.map_map]
  refine List.map_congr_left fun e _ => congrArg (Prod.mk e.1) ?_
  show (e.2.callback.mapOwner (f.home + ·)).mapOwner (fun _ => 0) = _
  cases e.2.callback <;> rfl

/-- **What a tenant has in a shared process is the same.** -/
theorem Shares.same (h : Shares sweeps own P D t') (s : Side) :
    SameFor s (sweeps s.other) (own s) t' := by
  have hsleeping := h.together s.other
  rw [s.other_other] at hsleeping
  have hshown : ((own s).homeOf s).map Instance.shown = (t'.homeOf s).map Instance.shown := by
    obtain ⟨hnone, hnone'⟩ | ⟨x, x', hx, hx', -, hmatch⟩ := h.homeOf s
    · rw [hnone, hnone']
    · rw [hx, hx']
      exact congrArg some (shown_eq hmatch).symm
  have hthere : ∀ x ∈ (own s).homeOf s, ∀ x' ∈ t'.homeOf s,
      (own s).world.instance? 0 = some x ∧ x'.registered =
        (x.table.within (D s)).map fun e => (e.1, e.2.callback.mapOwner fun _ => 0) := by
    intro x hx x' hx'
    obtain ⟨hnone, -⟩ | ⟨y, y', hy, hy', hinstance, hmatch⟩ := h.homeOf s
    · rw [hnone] at hx
      cases hx
    · obtain rfl := Option.some.inj (hy.symm.trans hx)
      obtain rfl := Option.some.inj (hy'.symm.trans hx')
      exact ⟨hinstance, registered_of_matches hmatch⟩
  refine ⟨(h.lodging s).diary, (h.lodging s).own, hshown.symm, fun x hx x' hx' => ?_,
    fun x hx x' hx' e he hnot => ?_⟩
  · rw [(hthere x hx x' hx').2]
    exact List.filter_sublist.map _
  · obtain ⟨hinstance, hregistered⟩ := hthere x hx x' hx'
    have hgone : e.2.function ∉ D s := fun hmem => by
      refine hnot ?_
      rw [hregistered, List.map_map]
      exact List.mem_map_of_mem (f := fun e => e.1) (CallbackTable.mem_within.mpr ⟨he, hmem⟩)
    refine ⟨(h.whole s).resolve_right fun hall => hgone ?_, fun hreach =>
      hgone (hsleeping.mem_of_reachable hreach)⟩
    rw [hall]
    exact ((h.quiet s).sane.placed.function 0 e (World.table_of_instance? hinstance ▸ he)).1

end Same

end Boundary

/-- The script `!{}` makes an object and gives a boolean. -/
theorem Script.parse?_negation : ScriptCode.parse? "!{}" =
    some ⟨false, [], [], [], [.expr (.unary .not (.object []))]⟩ := by
  cbv

/-- What it does, step by step. -/
theorem Script.start_negation (act : Script.Activation) : (Script.evalSource "!{}").start act =
    .look fun _ => .look fun _ => .look fun _ => .edit .newTally fun _ => .look fun h =>
      .edit (.newObject .plain
        (some ((h.realm act.realm).base + Script.Intrinsic.objectPrototype.ctorIdx)) ∅) fun _ =>
          .done (.value (.boolean false)) := by
  obtain ⟨depth, hdepth⟩ : ∃ depth, machineDepth = depth + 5 := ⟨999999995, rfl⟩
  rw [evalSource, parse?_negation]
  dsimp only
  rw [evalScript, machine, hdepth]
  rfl

/-- It touches nothing but what can be reached from its realm. -/
theorem Script.confined_negation : Comp.Confined fun _ => evalSource "!{}" := by
  intro h f D h' act vs hE hact _
  rw [start_negation, start_negation]
  have hE₁ := hE.apply (e := .newTally) trivial
  have hact₁ := hact.mono (Grows.apply hE .newTally).zone_le
  have hmade := Comp.echoes_newObject hE₁ hact₁ .plain ⟨trivial, rfl⟩ .objectPrototype ∅
    ⟨.empty, Embedding.props_empty _⟩ (fun _ => .done (.value (.boolean false)))
    (fun _ => .done (.value (.boolean false)))
    fun f₁ _ h₁ h₁' => .done (c := .value (.boolean false)) trivial
  rw [Embedding.activation_congr (hE.agreesOn_after .newTally) hact] at hmade
  exact .look (.look' (.look (.look' (.look (.look' (.edit (e := .newTally) trivial hmade))))))

namespace Boundary

/-- The text `!{}`. -/
def negation : List UInt8 := [33, 123, 125]

theorem decodeString_negation : Utf8.decodeString negation = "!{}" := by decide +kernel

/-- Evaluating that text is no request that could be felt next door. -/
theorem behaves_eval_negation (c : Prop) : Request.Behaves c (.eval 0 negation) := by
  refine ⟨fun m hm => ?_, nofun⟩
  obtain rfl := Option.some.inj hm
  rw [decodeString_negation]
  exact Script.confined_negation

/-- Code that evaluates that text when it is called. -/
def negator : Tenant Unit where
  native _ _ _ := do
    let o ← Act.request (.eval 0 negation)
    return o
  wrapper _ _ _ _ := do
    let _ ← Act.request (.eval 0 negation)
    return ⟨.ofValue .undefined, 0⟩

/-- One tenant evaluates the text and registers a callback, which it lets go at once. Then the other
one has the collector run. -/
def registersAndCollects : List (Side × Deed Unit) :=
  [(.right, .moveIn default), (.left, .moveIn default),
    (.left, .act do
      let _ ← Act.request (.eval 0 negation)
      Act.releaseValue (← Act.request (.register 0 (.native 7)))),
    (.right, .act (Act.request (.collect 0)))]

theorem isOk_registersAndCollects :
    (runTurns (fun _ => negator) registersAndCollects
      (emptyHouse .absent none fun _ => ())).isOk = true := by
  decide +kernel

theorem behaves_negator (c : Prop) : negator.Only (Request.Behaves c) where
  native _ _ _ := (Act.Only.request (behaves_eval_negation c)).bind fun _ => trivial
  wrapper _ _ _ _ := (Act.Only.request (behaves_eval_negation c)).bind fun _ => trivial

theorem behaves_releaseValue (c : Prop) (u : Value) :
    (Act.releaseValue u : Act Unit Unit).Only (Request.Behaves c) := by
  cases u with
  | composite kind k => exact .request (Request.Behaves.of_plain (r := .release k) rfl rfl)
  | _ => trivial

theorem behaves_registersAndCollects : ∀ turn ∈ registersAndCollects,
    turn.2.Only (Request.Behaves (turn.1 = .right)) := by
  rw [registersAndCollects, List.forall_mem_cons, List.forall_mem_cons, List.forall_mem_cons,
    List.forall_mem_singleton]
  refine ⟨trivial, trivial, ?_, ?_⟩
  · refine (Act.Only.request (behaves_eval_negation _)).bind fun _ => ?_
    refine (Act.Only.request (Request.Behaves.of_plain rfl rfl)).bind fun u => ?_
    exact behaves_releaseValue _ u
  · exact Act.Only.request ⟨nofun, fun _ => rfl⟩

end Boundary

end ScriptBoundary
