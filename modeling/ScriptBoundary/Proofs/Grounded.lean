import ScriptBoundary.Proofs.Orderly
import ScriptBoundary.Proofs.Reading

/-!
# What scripts come upon

A script that begins in an orderly world finds objects that are there, and makes up nothing else, so
the world is orderly at each of its points, and whatever it passes to the host or ends with is an
object that is there. That takes two things. The script stays inside every set of cells that has the
objects of the heap (`Program.Grounded`); and the host, which does as it likes in between, leaves an
orderly world behind and returns what can be found there. The second is a hypothesis here
(`Host.KeepsOrder`), as it is about all that the host may ask for, scripts included. That no two
elements come to share a variable depends on the same two (`Program.KeepsApart`).

A computation is a script with a hole for what comes after it, and in general nothing keeps it from
looking at what that is. One that stays inside does not. So when the script is run to its end, there
is a point at which the computation has ended, with an outcome of its own, and it would have come to
that point whatever came next (`Comp.Stays.exists_leads`). This is how it can be told which part of
a script an exception comes from.

## Main results

* `Steps.standing`: the world is orderly at each point of a script
* `Comp.Stays.exists_leads`: the end of the first of two computations
* `World.names_encode`, `World.names_handed`: what is handed out is classified correctly
-/

namespace ScriptBoundary.Script

/-- **A program that makes up no reference.** It stays inside every set of cells in which the
objects of the heap are. -/
def Program.Grounded (h : Heap) (p : Program) : Prop :=
  ∀ K : Ref → Prop, (∀ r, h.IsObject r → K r) → p.Stays K (Completion.Within K (Value.Within K))

end ScriptBoundary.Script

namespace ScriptBoundary.Boundary

open Script (Activation Comp Completion HostCall Program)

variable {σ α : Type} {host : Host σ} {n : Nat} {s t : State σ}

/-! ## Points of a script -/

/-- Whether nothing leads to where there is no object, neither in the world nor in what is left of a
script, and what is left ties no two elements to one variable. -/
structure Standing (p : Program) (s : State σ) : Prop where
  orderly : s.world.Orderly
  closed : s.world.heap.Closed
  grounded : p.Grounded s.world.heap
  keepsApart : p.KeepsApart s.world.heap

/-- Whether an orderly world is left behind by a call of the host, and what it returns is there. -/
structure Visit.Tidy (v : Visit σ) : Prop where
  orderly : v.resume.world.Orderly
  result : v.result.Within v.resume.world.heap.IsObject
    (Script.Value.Within v.resume.world.heap.IsObject)

/-- Whether a host keeps orderly worlds orderly when scripts call it. -/
def Host.KeepsOrder (host : Host σ) (n : Nat) : Prop :=
  ∀ v : Visit σ, v.Genuine host n → v.before.world.Orderly → v.before.world.heap.Closed →
    v.call.Within v.before.world.heap.IsObject → v.Tidy

/-- **The world is orderly at each point of a script**, and so is what is left of the script. -/
theorem Steps.standing {p q : Program} {vs : List (Visit σ)} (h : Steps host n p s vs q t)
    (hhost : host.KeepsOrder n) (hp : Standing p s) : Standing q t := by
  induction h with
  | refl p s => exact hp
  | look _ ih =>
    exact ih ⟨hp.orderly, hp.closed, fun K hK => hp.grounded K hK _ (hp.closed.mono hK),
      hp.keepsApart⟩
  | @edit e next s _ _ _ _ ih =>
    have he := (hp.grounded _ fun _ hr => hr).1
    obtain ⟨hapart, hrest⟩ := hp.keepsApart
    refine ih ⟨hp.orderly.edit hp.closed he hapart, hp.closed.apply he, fun K hK => ?_, hrest⟩
    have hold : ∀ r, s.world.heap.IsObject r → K r := fun r hr =>
      hK r ((s.world.heap.evolves_apply e).isObject r hr)
    exact (hp.grounded K hold).2 _ fun hnew => hK _ (Script.Heap.isObject_apply hnew)
  | @visit v _ _ _ _ hv _ ih =>
    have hgrown := hv.evolvesHeap
    have htidy := hhost v hv hp.orderly hp.closed (hp.grounded _ fun _ hr => hr).1
    refine ih ⟨htidy.orderly,
      htidy.orderly.closed (Nat.lt_of_lt_of_le hp.closed.size_pos hgrown.size), fun K hK => ?_,
      hp.keepsApart _ _ htidy.orderly.apart⟩
    exact (hp.grounded K fun r hr => hK r (hgrown.isObject r hr)).2 _ (htidy.result.mono hK)
  | gone _ _ _ ih =>
    exact ih ⟨hp.orderly, hp.closed, fun K hK => (hp.grounded K hK).2 _ trivial,
      hp.keepsApart _ _ hp.orderly.apart⟩

namespace Standing

/-- What a script ends with is there, -/
theorem result {c : Completion Script.Value} (h : Standing (.done c) s) :
    c.Within s.world.heap.IsObject (Script.Value.Within s.world.heap.IsObject) :=
  h.grounded _ fun _ hr => hr

/-- and so is what it passes to the host. -/
theorem passed {k : HostCall} {next : Completion Script.Value → Program}
    (h : Standing (.call k next) s) : k.Within s.world.heap.IsObject :=
  (h.grounded _ fun _ hr => hr).1

/-- Where a computation that makes up no reference begins. -/
theorem of_computation {m : Comp Script.Value} (ho : s.world.Orderly) (hc : s.world.heap.Closed)
    (hm : ∀ K : Script.Ref → Prop, (∀ r, s.world.heap.IsObject r → K r) →
      m.Stays K (Script.Value.Within K)) (act : Activation) : Standing (m.start act) s :=
  ⟨ho, hc, fun K hK => (hm K hK).start act, (hm _ fun _ _ => trivial).keepsApart act ho.apart⟩

end Standing

end ScriptBoundary.Boundary

namespace ScriptBoundary.Script.Comp

open Boundary (Host State Steps Visit invokeAt runProgram)

variable {σ α β : Type} {host : Host σ} {n : Nat} {act : Activation} {s t : State σ}

/-! ## Parts of a script -/

/-- **The end of a part.** In a script that has come to its end, what the computation `m` begins
with has ended before, and it ends in this way whatever comes next. -/
theorem Stays.exists_leads {m : Comp α} {Q : α → Prop} (hm : m.Stays (fun _ => True) Q)
    {next : Completion α → Program} {vs : List (Visit σ)} {d : Completion Value}
    (h : Steps host n (m act next) s vs (.done d) t) :
    ∃ c u ws, c.Within (fun _ => True) Q ∧ m.Leads host n act s c u
      ∧ Steps host n (next c) u ws (.done d) t := by
  -- What is compared is the program with each continuation there is, all at a time.
  let EndsAlike (p : (Completion α → Program) → Program) : Prop :=
    ∀ s vs, Steps host n (p next) s vs (.done d) t → ∃ c u us ws,
      c.Within (fun _ => True) Q ∧ (∀ k, Steps host n (p k) s us (k c) u)
        ∧ Steps host n (next c) u ws (.done d) t
  have hinherits : Program.Inherits (fun _ => True) EndsAlike := by
    refine .of_steps ?look ?edit ?call ?exhausted
    case look =>
      intro p ih s vs h
      cases h with
      | look h =>
        obtain ⟨c, u, us, ws, hc, hu, hd⟩ := ih _ (Heap.within_everywhere _) s vs h
        exact ⟨c, u, us, ws, hc, fun k => .look (hu k), hd⟩
    case edit =>
      intro e p _ ih s vs h
      cases h with
      | edit h =>
        obtain ⟨c, u, us, ws, hc, hu, hd⟩ := ih _ (fun _ => trivial) _ vs h
        exact ⟨c, u, us, ws, hc, fun k => .edit (hu k), hd⟩
    case call =>
      intro k p _ ih s vs h
      cases h with
      | visit hv h =>
        obtain ⟨c, u, us, ws, hc, hu, hd⟩ := ih _ (Completion.within_everywhere _) _ _ h
        exact ⟨c, u, _ :: us, ws, hc, fun k => .visit hv (hu k), hd⟩
      | gone hk hn h =>
        obtain ⟨c, u, us, ws, hc, hu, hd⟩ := ih _ (Completion.within_everywhere _) _ _ h
        exact ⟨c, u, us, ws, hc, fun k => .gone hk hn (hu k), hd⟩
    case exhausted => exact fun s vs h => nomatch h
  obtain ⟨c, u, us, ws, hc, hu, hd⟩ := hm _ EndsAlike hinherits act (fun k => k)
    (fun c hc s vs h => ⟨c, s, [], vs, hc, fun k => .refl _ _, h⟩) s vs h
  exact ⟨c, u, ws, hc, ⟨us, hu⟩, hd⟩

/-- A computation that is run to its end would have ended like this before anything else. -/
theorem Stays.leads_of_run {m : Comp Value} {Q : Value → Prop} (hm : m.Stays (fun _ => True) Q)
    {d : Completion Value}
    (hrun : runProgram (invokeAt host n) (m.start act) s = .ok (d, t)) :
    m.Leads host n act s d t := by
  obtain ⟨vs, hvs⟩ := Boundary.exists_steps_of_runProgram hrun
  obtain ⟨c, u, ws, -, hc, hd⟩ := hm.exists_leads hvs
  cases hd with
  | refl => exact hc

/-- **One computation after another**, run to their end: the first one fails, or it gives a value
with which the second one runs. -/
theorem Stays.run_bind {m : Comp α} {g : α → Comp Value} {Q : α → Prop}
    (hm : m.Stays (fun _ => True) Q) {d : Completion Value}
    (hrun : runProgram (invokeAt host n) ((m >>= g).start act) s = .ok (d, t)) :
    (∃ f : Failure, d = f.completion ∧ m.Leads host n act s f.completion t) ∨
      ∃ a u, Q a ∧ m.Leads host n act s (.value a) u
        ∧ runProgram (invokeAt host n) ((g a).start act) u = .ok (d, t) := by
  obtain ⟨vs, hvs⟩ := Boundary.exists_steps_of_runProgram hrun
  obtain ⟨c, u, ws, hq, hc, hd⟩ := hm.exists_leads hvs
  cases c with
  | value a => exact .inr ⟨a, u, hq, hc, hd.runProgram_eq⟩
  | thrown v =>
    cases hd with
    | refl => exact .inl ⟨.thrown v, rfl, hc⟩
  | limit fault =>
    cases hd with
    | refl => exact .inl ⟨.limit fault, rfl, hc⟩

/-- A computation that gives a value by itself goes before. -/
theorem Gives.run_bind {m : Comp α} {g : α → Comp Value} {a : α} {h : Heap}
    (hm : m.Gives act s.world.heap a h) : runProgram (invokeAt host n) ((m >>= g).start act) s =
      runProgram (invokeAt host n) ((g a).start act) (s.withHeap h) :=
  (hm.steps host n s _ rfl).runProgram_eq

end ScriptBoundary.Script.Comp

namespace ScriptBoundary.Boundary

open Script (HostCall)

/-! ## What is handed out -/

namespace World

variable {w w' : World} {i : InstanceId} {x : Script.Value} {u : Value}

/-- Whether a handle is out and its referent is of a kind. -/
def Refers (w : World) (kind : Kind) (h : Handle) : Prop :=
  ∃ c, w.cell? h = some c ∧ kind.Describes w.heap c.value

/-- **Whether a value is classified correctly**: if it is composite, then it is of the kind of its
referent. -/
def Names (w : World) (u : Value) : Prop := ∀ kind h, u = .composite kind h → w.Refers kind h

theorem Refers.of_sameStore {kind : Kind} {h : Handle} (hr : w.Refers kind h)
    (hs : w.SameStore w') : w'.Refers kind h := by
  obtain ⟨c, hc, hk⟩ := hr
  exact ⟨c, (hs.cell? h).trans hc, hs.heap.symm ▸ hk⟩

theorem Names.of_sameStore (hu : w.Names u) (hs : w.SameStore w') : w'.Names u :=
  fun kind h heq => (hu kind h heq).of_sameStore hs

theorem refers_newHandle (i : InstanceId) {kind : Kind} (hk : kind.Describes w.heap x) :
    (w.newHandle i x).2.Refers kind (w.newHandle i x).1 :=
  ⟨_, cell?_newHandle w i x, (heap_congr (setting_newHandle w i x)).symm ▸ hk⟩

theorem names_of_presents (hx : x.Within w.heap.IsObject) (hu : w.Presents i x u) : w.Names u := by
  rintro kind h rfl
  rw [Presents] at hu
  cases hf : Form.of w.heap x with
  | inline v =>
    rw [hf] at hu
    have hnone := Form.handle?_of_inline hf
    rw [← show Value.composite kind h = v from hu] at hnone
    cases hnone
  | composite kind' =>
    rw [hf] at hu
    obtain ⟨h', heq, hc⟩ := hu
    obtain ⟨rfl, rfl⟩ := Value.composite.inj heq
    exact ⟨_, hc, .of_form hx hf⟩

/-- **What an operation hands out** is classified correctly, -/
theorem names_encode (hx : x.Within w.heap.IsObject) : (w.encode i x).2.Names (w.encode i x).1 :=
  names_of_presents (heap_congr (setting_encode w i x) ▸ hx) (presents_encode w i x)

/-- **and so is what a callback is given.** -/
theorem names_handed {k : HostCall} (hk : k.Within w.heap.IsObject) :
    ∀ u ∈ w.handed k, (w.atEntry k).Names u := by
  have hall : ∀ x ∈ k.this :: k.args, x.Within (w.atEntry k).heap.IsObject :=
    (heap_atEntry w k).symm ▸ Script.ValuesWithin.cons hk.this hk.args
  have hpresented := ((List.forall₂_and_left _ _).mpr ⟨hall, presentsAll_handed w k⟩).flip
  exact ((List.forall₂_and_left _ _).mp (hpresented.imp fun u x hx =>
    ⟨names_of_presents hx.1 hx.2, hx⟩)).1

end World

end ScriptBoundary.Boundary
