import ScriptBoundary.Proofs.Handles
import ScriptBoundary.Proofs.Path
import ScriptBoundary.Proofs.Registry
import ScriptBoundary.Proofs.Work

/-!
# What the host does while a script runs

An operation runs scripts, scripts call the host, and the host's code may do anything at all with
its handles. A `Visit` is one such call from beginning to end. What the boundary itself does about
handles is what lies between the visits, and `Chain` says that it is nothing: the purse that one
visit leaves behind is the one that the next visit finds. The state of the host is chained along
with the purse. Nothing but its own code changes it, so a host that counts its calls finds as many
of them in the chain.

A visit begins with handing over the arguments and ends with taking the value that was returned.
Both are the boundary's doing, so they are part of the visit but not of the host's code; the host's
code is what happens in between, and a visit is `Genuine` if that is a run of it.

## Main results

* `visits_runIn`: a script changes the purse by visits only
* `settles_operateIn`: an operation takes its arguments, and hands out its outcome, whatever it is
-/

namespace ScriptBoundary.Boundary

open Script (Activation Comp Completion HostCall Program)

variable {σ α : Type}

/-- A call of the host by a script, from the moment of the call to the moment when the host's code
has ended. -/
structure Visit (σ : Type) where
  call : HostCall
  callback : Callback
  before : State σ
  outcome : Outcome
  after : State σ

/-- What only the host's code changes while a script runs: who owns what, and the host's own
state. -/
structure Holding (σ : Type) where
  purse : Purse
  host : σ

def State.holding (s : State σ) : Holding σ := ⟨s.world.purse, s.host⟩

namespace Visit

/-- The instance whose callback was called. -/
def owner (v : Visit σ) : InstanceId := v.call.anchor.owner

/-- What the host was handed: `this` and the arguments. -/
def handed (v : Visit σ) : List Value :=
  (v.before.world.encode v.owner v.call.this).1 ::
    ((v.before.world.encode v.owner v.call.this).2.encodeAll v.owner v.call.args).1

/-- The purse with which the host's code began. -/
def opening (v : Visit σ) : Purse := (v.before.world.atEntry v.call).purse

/-- What there is once the value that it returned has been taken. -/
def closing (v : Visit σ) : Holding σ :=
  ⟨v.after.world.purse.takeValue v.outcome.value, v.after.host⟩

/-- Whether the host's code really did that, with so many levels of nesting left. -/
structure Genuine (host : Host σ) (levels : Nat) (v : Visit σ) : Prop where
  found : v.before.world.callbackOf v.call.anchor = some v.callback
  ran : ∃ n, levels = n + 1 ∧
    (host.call v.owner v.callback v.handed.head! v.handed.tail).run (answer (invokeAt host n))
      { v.before with world := v.before.world.atEntry v.call } = .ok (v.outcome, v.after)

/-- Handing over the arguments makes one handle for each of them that is composite. -/
theorem yieldsAll_opening (v : Visit σ) :
    v.before.world.purse.YieldsAll v.owner v.handed v.opening := by
  refine ⟨_, World.yields_encode _ _ _, ?_⟩
  rw [opening, World.atEntry, World.purse_enter]
  exact World.yields_encodeAll _ _ _

theorem Genuine.evolves {host : Host σ} {levels : Nat} {v : Visit σ} (h : v.Genuine host levels) :
    v.opening.Evolves v.after.world.purse := by
  obtain ⟨n, -, hr⟩ := h.ran
  obtain ⟨ms, hms⟩ := (Scene.follows ⟨v.before.world.atEntry v.call, []⟩).code host n _ _ _ _ rfl hr
  exact Scene.evolves_run hms

end Visit

/-- Visits one after the other, with nothing in between as far as handles and the host go. -/
def Chain (p : Holding σ) : List (Visit σ) → Holding σ → Prop
  | [], q => q = p
  | v :: vs, q => v.before.holding = p ∧ Chain v.closing vs q

theorem Chain.append {p q r : Holding σ} {vs us : List (Visit σ)} (h : Chain p vs q)
    (h' : Chain q us r) : Chain p (vs ++ us) r := by
  induction vs generalizing p with
  | nil =>
    obtain rfl : q = p := h
    exact h'
  | cons v vs ih => exact ⟨h.1, ih h.2⟩

/-- Whether genuine visits make one holding out of another. -/
def Visits (host : Host σ) (levels : Nat) (p q : Holding σ) : Prop :=
  ∃ vs : List (Visit σ), (∀ v ∈ vs, v.Genuine host levels) ∧ Chain p vs q

namespace Visits

variable {host : Host σ} {n : Nat} {p q r : Holding σ}

theorem refl (p : Holding σ) : Visits host n p p :=
  ⟨[], fun _ hv => absurd hv List.not_mem_nil, by rw [Chain]⟩

theorem trans (h : Visits host n p q) (h' : Visits host n q r) : Visits host n p r := by
  obtain ⟨vs, hvs, hc⟩ := h
  obtain ⟨us, hus, hc'⟩ := h'
  refine ⟨vs ++ us, fun v hv => ?_, hc.append hc'⟩
  rcases List.mem_append.mp hv with hv | hv
  · exact hvs v hv
  · exact hus v hv

end Visits

section Run

variable {host : Host σ} {n : Nat} {s t : State σ}

/-- A call of the host is one visit, or none if the callback is gone. -/
theorem visits_invokeAt {k : HostCall} {c : Completion Script.Value}
    (h : invokeAt host n k s = .ok (c, t)) : Visits host n s.holding t.holding := by
  cases n with
  | zero => cases h
  | succ n =>
    change invoke host (invokeAt host n) k s = _ at h
    rw [invoke_apply] at h
    cases hcb : s.world.callbackOf k.anchor with
    | none =>
      rw [hcb] at h
      cases h
      exact .refl _
    | some callback =>
      rw [hcb] at h
      dsimp only at h
      split at h
      · cases h
      · next outcome u hr =>
        cases h
        let v : Visit σ := ⟨k, callback, s, outcome, u⟩
        refine ⟨[v], fun w hw => ?_, rfl, ?_⟩
        · rw [List.mem_singleton.mp hw]
          exact ⟨hcb, n, rfl, hr⟩
        · show (⟨World.purse _, u.host⟩ : Holding σ) = v.closing
          rw [World.purse_leave, World.purse_decode]
          rfl

/-- **A script changes the purse by visits only.** -/
theorem visits_runProgram {p : Program} {c : Completion Script.Value}
    (h : runProgram (invokeAt host n) p s = .ok (c, t)) :
    Visits host n s.holding t.holding := by
  induction p generalizing s with
  | done result =>
    cases h
    exact .refl _
  | look next ih => exact ih _ h
  | edit e next ih =>
    rw [runProgram_edit] at h
    exact ih (s := { s with world := { s.world with heap := (s.world.heap.apply e).1 } }) _ h
  | call k next ih =>
    rw [runProgram_call] at h
    split at h
    · next result u hr => exact (visits_invokeAt hr).trans (ih _ h)
    · cases h
  | exhausted => cases h

theorem visits_runIn {act : Activation} {m : Comp Script.Value} {c : Completion Script.Value}
    (h : runIn (invokeAt host n) act m s = .ok (c, t)) :
    Visits host n s.holding t.holding :=
  visits_runProgram h

/-- Whether an answer is settled like this: some arguments are taken, then the host does what it
does, and then a handle is handed out at the expense of an instance, or none. -/
def Settles (host : Host σ) (n : Nat) (i : InstanceId) (args : List Value) (o : Option Handle)
    (s t : State σ) : Prop :=
  ∃ q, Visits host n ⟨s.world.purse.takeAll args, s.host⟩ ⟨q, t.host⟩
    ∧ q.Yields i o t.world.purse

/-- Where no arguments are taken, visits may come first. -/
theorem Settles.after {i : InstanceId} {o : Option Handle} {u : State σ} {args : List Value}
    (hv : Visits host n ⟨s.world.purse.takeAll args, s.host⟩ u.holding)
    (h : Settles host n i [] o u t) : Settles host n i args o s t := by
  obtain ⟨q, hq, hy⟩ := h
  exact ⟨q, hv.trans hq, hy⟩

theorem settles_encode (i : InstanceId) (v : Script.Value) :
    Settles host n i [] (s.world.encode i v).1.handle? s
      { s with world := (s.world.encode i v).2 } :=
  ⟨s.world.purse, .refl _, World.yields_encode _ _ _⟩

theorem settles_newHandle (i : InstanceId) (v : Script.Value) :
    Settles host n i [] (some (s.world.newHandle i v).1) s
      { s with world := (s.world.newHandle i v).2 } :=
  ⟨s.world.purse, .refl _, World.yields_newHandle _ _ _⟩

/-- Handing out an outcome hands out one handle if its value has one. A limit may run scripts
first. -/
theorem settles_conclude {i : InstanceId} {act : Activation} {c : Completion Script.Value}
    {o : Outcome} (h : conclude (invokeAt host n) i act c s = .ok (o, t)) :
    Settles host n i [] o.value.handle? s t := by
  cases c with
  | value v =>
    cases h
    exact settles_encode i v
  | thrown v =>
    cases h
    exact settles_encode i v
  | limit fault =>
    simp only [conclude, Run.bind_apply] at h
    split at h
    · next c u hr =>
      refine .after (visits_runIn hr) ?_
      cases c with
      | value v =>
        cases h
        exact settles_encode i v
      | thrown v =>
        cases h
        exact settles_encode i v
      | limit fault =>
        cases h
        exact ⟨t.world.purse, .refl _, rfl⟩
    · cases h

/-- What an operation does to the purse: it takes its arguments, lets the host do what it does, and
hands out its outcome. -/
theorem settles_operateIn {i : InstanceId} {args : List Value}
    {body : List Script.Value → Comp Script.Value} {act : Activation} {o : Outcome}
    (h : operateIn (invokeAt host n) i args body act s = .ok (o, t)) :
    Settles host n i args o.value.handle? s t := by
  simp only [operateIn, Run.bind_apply, Run.alter_apply] at h
  split at h
  · next c u hr =>
    refine .after ?_ (settles_conclude h)
    have hruns := visits_runIn hr
    rwa [State.holding, World.purse_decodeAll] at hruns
  · cases h

/-- Finding a context and giving it back settles nothing. -/
theorem settles_inContext {i : InstanceId} {args : List Value} {o : α → Option Handle}
    {body : Activation → Run σ α} {a : α} (h : inContext i body s = .ok (a, t))
    (hbody : ∀ act s' a t', (s'.world.live? i).isSome → body act s' = .ok (a, t') →
      Settles host n i args (o a) s' t') : Settles host n i args (o a) s t := by
  cases hx : s.world.live? i with
  | none =>
    rw [inContext_gone hx] at h
    cases h
  | some x =>
    cases hl : x.lent with
    | some act =>
      rw [inContext_lent hx hl] at h
      exact hbody _ s a t (by rw [hx]; rfl) h
    | none =>
      cases hb : x.borrowed with
      | true =>
        rw [inContext_borrowed hx hl hb] at h
        cases h
      | false =>
        rw [inContext_own hx hl hb] at h
        have halive : ((s.world.borrow i).live? i).isSome := by
          rw [← World.isAlive_eq_isSome_live?]
          exact (World.isAlive_borrow _ i i).trans (World.isAlive_of_live? hx)
        cases hr : body (x.root i s.world.converting) { s with world := s.world.borrow i } with
        | error e =>
          rw [hr] at h
          cases h
        | ok q =>
          rw [hr] at h
          cases h
          obtain ⟨p, hp, hy⟩ := hbody _ _ _ q.2 halive hr
          rw [World.purse_borrow] at hp
          refine ⟨p, hp, ?_⟩
          rwa [World.purse_giveBack]

end Run

end ScriptBoundary.Boundary
