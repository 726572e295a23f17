import ScriptBoundary.Proofs.Canonical
import ScriptBoundary.Proofs.Conservation
import ScriptBoundary.Proofs.Path

/-!
# What the ledgers tell

A ledger is three counters, and a counter that is wrong once is wrong for good. So there are two
things to be said of it: what it shows at any time, and what it takes to change it.

A move posts at most one entry (`Move.entry`). A handle that is made is put on the account of the
instance it is made for; one that is copied or given back is put on the account of the instance that
made it. No move says on which instance an operation is running when it gives a handle back, so that
instance cannot be charged for it. The entries of a run, one after the other, are its journal, and a
counter shows how often it was posted to.

That the three counters together tell how many handles are out is `Purse.Conserved`.

## Main results

* `Scene.tally_step`, `Scene.tally_run`: a move posts its entry, and a run posts its journal
* `ledgers_tell_what_is_out`: what the ledgers show in every scene that moves lead to
-/

namespace ScriptBoundary.Boundary

open Script (Activation Anchor Ref)

/-- A counter of an instance goes up by one. -/
abbrev Entry := Counter × InstanceId

/-- What a change puts on some account. -/
def Change.entry (w : World) : Change → Option Entry
  | .newHandle i _ | .register i .. => some (.created, i)
  | .cloneHandle h => (w.cell? h).map fun c => (.cloned, c.owner)
  | .releaseHandle h => (w.cell? h).map fun c => (.released, c.owner)
  | _ => none

/-- What a move puts on some account. -/
def Move.entry (w : World) : Move → Option Entry
  | .change x => x.entry w
  | _ => none

/-- The entries that a run makes, as far as it goes. -/
def Scene.journal (c : Scene) : List Move → List Entry
  | [] => []
  | m :: ms => (m.entry c.world).toList ++ match c.step m with
    | some d => d.journal ms
    | none => []

/-! ## What an entry does -/

/-- What an entry adds to a counter. -/
def Entry.worth (e : Option Entry) (k : Counter) (j : InstanceId) : Int :=
  if e = some (k, j) then 1 else 0

/-- Whether a function on ledgers raises one counter by one. -/
def Counter.Raises (k : Counter) (f : Ledger → Ledger) : Prop :=
  ∀ l k', (f l).read k' = l.read k' + if k = k' then 1 else 0

theorem raises_create : Counter.created.Raises Ledger.create := fun l k => by
  cases k <;> simp [Ledger.read, Ledger.create]

theorem raises_clone : Counter.cloned.Raises Ledger.clone := fun l k => by
  cases k <;> simp [Ledger.read, Ledger.clone]

theorem raises_release : Counter.released.Raises Ledger.release := fun l k => by
  cases k <;> simp [Ledger.read, Ledger.release]

namespace Purse

variable {p : Purse} {i j : InstanceId} {h : Handle} {k : Counter} {f : Ledger → Ledger}

/-- Posting on an account that there is makes an entry, and shows nowhere else. -/
theorem tally_post_entry (hi : (p.ledger i).isSome) (hf : k.Raises f) (k' : Counter)
    (j : InstanceId) :
    (p.post i f).tally k' j = p.tally k' j + Entry.worth (some (k, i)) k' j := by
  by_cases hij : i = j
  · have hpost := tally_post (i := i) (hij ▸ hi) (fun l => hf l k')
    rw [hpost, Entry.worth]
    simp [hij]
  · rw [tally, tally, post, Entry.worth]
    simp [hij]

theorem tally_make_entry (hi : (p.ledger i).isSome) (v : Script.Value) (k : Counter)
    (j : InstanceId) :
    (p.make i v).tally k j = p.tally k j + Entry.worth (some (.created, i)) k j :=
  tally_post_entry (p := { p with cells := p.cells.push (some ⟨v, i⟩) }) hi raises_create k j

theorem tally_copy_entry (hp : p.Conserved) (h : Handle) (k : Counter) (j : InstanceId) :
    (p.copy h).tally k j =
      p.tally k j + Entry.worth ((p.cell? h).map fun c => (.cloned, c.owner)) k j := by
  rw [copy]
  cases hc : p.cell? h with
  | none => simp [Entry.worth]
  | some c =>
    exact tally_post_entry (p := { p with cells := p.cells.push (some c) }) (hp.owner h c hc)
      raises_clone k j

theorem tally_take_entry (hp : p.Conserved) (h : Handle) (k : Counter) (j : InstanceId) :
    (p.take h).tally k j =
      p.tally k j + Entry.worth ((p.cell? h).map fun c => (.released, c.owner)) k j := by
  rw [take]
  cases hc : p.cell? h with
  | none => simp [Entry.worth]
  | some c =>
    exact tally_post_entry (p := { p with cells := p.cells.setIfInBounds h.id none })
      (hp.owner h c hc) raises_release k j

/-- An instance that has no account has nothing on it. -/
theorem tally_of_none (hj : p.ledger j = none) (k : Counter) : p.tally k j = 0 := by
  rw [tally, hj]
  cases k <;> rfl

/-- A new account is opened at zero, which is what it showed before. -/
theorem tally_enrol {n : InstanceId} (hn : p.ledger n = none) (k : Counter) (j : InstanceId) :
    ({ p with ledger := fun j => if j = n then some .empty else p.ledger j } : Purse).tally k j =
      p.tally k j := by
  rw [tally, tally]
  dsimp only
  split
  · next hj =>
    rw [hj, hn]
    rfl
  · rfl

end Purse

/-- **A change posts its entry** and nothing else. -/
theorem Change.tally_apply {w w' : World} {x : Change} (h : w.purse.Conserved)
    (hx : x.apply w = some w') (k : Counter) (j : InstanceId) :
    w'.purse.tally k j = w.purse.tally k j + Entry.worth (x.entry w) k j := by
  have hnothing : ∀ {u : World}, u.purse = w.purse →
      u.purse.tally k j = w.purse.tally k j + Entry.worth none k j := fun hu => by
    simp [hu, Entry.worth]
  cases x with
  | edit e =>
    cases hx
    exact hnothing rfl
  | note e =>
    cases hx
    exact hnothing rfl
  | install pair =>
    cases hx
    exact hnothing rfl
  | setSlot i slot data =>
    cases hx
    exact hnothing (World.purse_setSlot _ _ _ _)
  | newInstance limits =>
    obtain rfl : (w.newInstance limits).2 = w' := Option.some.inj hx
    rw [World.purse_newInstance, Purse.tally_enrol (by simp [World.purse, World.instance?])]
    exact hnothing rfl
  | newHandle i v =>
    simp only [Change.apply] at hx
    split at hx
    · next hi =>
      cases hx
      rw [World.purse_newHandle]
      exact Purse.tally_make_entry (by rwa [World.purse, Option.isSome_map]) v k j
    · cases hx
  | cloneHandle x =>
    cases hx
    rw [World.purse_cloneHandle]
    exact Purse.tally_copy_entry h x k j
  | releaseHandle x =>
    cases hx
    rw [World.purse_releaseHandle]
    exact Purse.tally_take_entry h x k j
  | register i realm c =>
    simp only [Change.apply] at hx
    split at hx
    · next halive =>
      obtain rfl := Option.some.inj hx
      have hi := World.hasInstance_of_isAlive halive
      obtain ⟨x, hx⟩ := Option.isSome_iff_exists.mp hi
      obtain ⟨-, v, hv⟩ := World.purse_register hx realm c
      rw [hv]
      exact Purse.tally_make_entry (by rwa [World.purse, Option.isSome_map]) v k j
    · cases hx
  | finalize a =>
    cases hx
    exact hnothing (World.purse_finalize _ _)
  | shut i =>
    simp only [Change.apply] at hx
    split at hx
    · cases hx
      exact hnothing (World.purse_shut _ _)
    · cases hx

namespace Scene

variable {c d : Scene} {m : Move} {ms : List Move}

/-- **A move posts its entry** and nothing else. -/
theorem tally_step (h : c.world.purse.Conserved) (hm : c.step m = some d) (k : Counter)
    (j : InstanceId) :
    d.world.purse.tally k j = c.world.purse.tally k j + Entry.worth (m.entry c.world) k j := by
  cases m with
  | change x =>
    obtain ⟨w', hx, rfl⟩ := Option.map_eq_some_iff.mp hm
    exact x.tally_apply h hx k j
  | begin | finish | enter | leave =>
    rcases purse_step hm with ⟨x, hx, -⟩ | hd
    · cases hx
    · simp [hd, Move.entry, Entry.worth]

/-- **A run posts its journal** and nothing else. -/
theorem tally_run (h : c.world.purse.Conserved) (hms : c.run ms = some d) (k : Counter)
    (j : InstanceId) :
    d.world.purse.tally k j = c.world.purse.tally k j + ((c.journal ms).count (k, j) : Nat) := by
  induction ms generalizing c with
  | nil =>
    obtain rfl := Option.some.inj hms
    simp [journal]
  | cons m ms ih =>
    obtain ⟨e, hm, hms⟩ := Option.bind_eq_some_iff.mp hms
    have hone : ((m.entry c.world).toList.count (k, j) : Int) =
        Entry.worth (m.entry c.world) k j := by
      rw [Entry.worth]
      cases m.entry c.world with
      | none => rfl
      | some e => by_cases he : e = (k, j) <;> simp [he]
    have hstep : c.run [m] = some e := by
      rw [run_cons, hm]
      rfl
    have he : e.world.purse.Conserved := conserved_run hstep h
    rw [ih he hms, tally_step h hm k j, ← hone, journal, hm]
    simp only [List.count_append]
    omega

end Scene

/-! ## What a scene guarantees -/

/-- Nothing of an instance is out exactly if no handle that is out was made by it. -/
theorem Purse.outstanding_eq_zero_iff {p : Purse} {i : InstanceId} :
    p.outstanding i = 0 ↔ ∀ h c, p.cell? h = some c → c.owner ≠ i := by
  rw [outstanding_eq_range (Nat.le_refl _), List.countP_eq_zero]
  constructor
  · intro hnone h c hc hown
    refine hnone h.id (List.mem_range.mpr (lt_of_cell? (by rw [hc]; nofun))) ?_
    rw [hc, Option.map_some, hown]
    exact beq_self_eq_true _
  · intro hnone k _ hk
    obtain ⟨c, hc, hown⟩ := Option.map_eq_some_iff.mp (beq_iff_eq.mp hk)
    exact hnone ⟨k⟩ c hc hown

/-- What the ledgers show in a scene, of destroyed instances as of others, and how they go on. -/
structure Bookkeeping (c : Scene) : Prop where
  /-- What was made and copied is what was given back and what is out, -/
  balanced : ∀ i x, c.world.instance? i = some x →
    x.ledger.created + x.ledger.cloned = x.ledger.released + c.world.purse.outstanding i
  /-- so what is shown as live is what is out, and the subtraction does not go below zero. -/
  live : ∀ i x, c.world.instance? i = some x → x.ledger.live = c.world.purse.outstanding i
    ∧ x.ledger.live + x.ledger.released = x.ledger.created + x.ledger.cloned
  /-- Nothing is shown as live exactly if every handle that the instance made was given back. -/
  settled : ∀ i x, c.world.instance? i = some x →
    (x.ledger.live = 0 ↔ ∀ h cell, c.world.cell? h = some cell → cell.owner ≠ i)
  /-- Every handle that is out is on the account of an instance that was made. -/
  account : ∀ h cell, c.world.cell? h = some cell → (c.world.instance? cell.owner).isSome
  /-- A move posts its entry, if it has one, and nothing else. -/
  posted : ∀ m d, c.step m = some d → ∀ k i,
    d.world.purse.tally k i = c.world.purse.tally k i + Entry.worth (m.entry c.world) k i
  /-- Accounts are never closed, and no counter ever goes down. -/
  monotone : ∀ ms d, c.run ms = some d → ∀ i,
    ((c.world.instance? i).isSome → (d.world.instance? i).isSome)
      ∧ ∀ k, c.world.purse.tally k i ≤ d.world.purse.tally k i
  /-- Values that an operation takes over, on whichever instance, are charged as given back to those
  that made their handles. -/
  taken : ∀ realm us, (Purse.handlesOf us).Nodup → ∀ i, (c.world.instance? i).isSome → ∀ k,
    (c.world.decodeAll realm us).2.purse.tally k i = c.world.purse.tally k i
      + if k = .released then (c.world.purse.owned i (Purse.handlesOf us) : Int) else 0
  /-- To read a descriptor, or to hand one over, is no entry. -/
  raw : ∀ {σ : Type} (invoke : Invoke σ) (s : σ) (d : Descriptor), ∃ t,
    (Act.consume d).run (answer invoke) ⟨c.world, s⟩ = .ok (d.toValue, t)
      ∧ t.world.purse = c.world.purse

theorem bookkeeping_of_conserved {c : Scene} (h : c.world.purse.Conserved) : Bookkeeping c := by
  have hledger : ∀ {i x}, c.world.instance? i = some x → c.world.purse.ledger i = some x.ledger :=
    fun hx => congrArg (Option.map Instance.ledger) hx
  have hbalanced : ∀ i x, c.world.instance? i = some x →
      x.ledger.created + x.ledger.cloned = x.ledger.released + c.world.purse.outstanding i := by
    intro i x hx
    have hcount := h.count i (by rw [hledger hx]; rfl)
    rw [Purse.balance, hledger hx, Option.getD_some, Ledger.balance] at hcount
    omega
  have hlive : ∀ i x, c.world.instance? i = some x →
      x.ledger.live = c.world.purse.outstanding i := by
    intro i x hx
    have hsum := hbalanced i x hx
    rw [Ledger.live]
    omega
  constructor
  case balanced => exact hbalanced
  case live =>
    intro i x hx
    have hsum := hbalanced i x hx
    have hout := hlive i x hx
    exact ⟨hout, by omega⟩
  case settled =>
    intro i x hx
    rw [hlive i x hx]
    exact Purse.outstanding_eq_zero_iff
  case account =>
    intro x cell hc
    have howner := h.owner x cell hc
    rwa [World.purse, Option.isSome_map] at howner
  case posted => exact fun m d hm k i => Scene.tally_step h hm k i
  case monotone =>
    intro ms d hms i
    refine ⟨fun hi => ?_, fun k => ?_⟩
    · have hledger := (Scene.evolves_run hms).ledger i
      rw [World.purse, World.purse, Option.isSome_map, Option.isSome_map] at hledger
      exact hledger hi
    · rw [Scene.tally_run h hms k i]
      omega
  case taken =>
    intro realm us hn i hi k
    rw [World.purse_decodeAll]
    exact Purse.tally_takeAll (by rwa [World.purse, Option.isSome_map]) hn k
  case raw =>
    intro σ invoke s d
    exact ⟨_, run_consume_noting invoke ⟨c.world, s⟩ d, State.purse_noting ⟨c.world, s⟩ d⟩

/-- **What the ledgers tell**, in every scene that moves lead to: each counter shows how often it
was posted to, and together they show what is out. What the interpreter does, at any depth and
whether or not it fails, is done by moves. -/
theorem ledgers_tell_what_is_out (p : Platform) :
    (∀ ms c, (Scene.start p).run ms = some c → Bookkeeping c ∧
      ∀ k i, c.world.purse.tally k i = (((Scene.start p).journal ms).count (k, i) : Nat)) ∧
    ∀ c : Scene, c.Follows := by
  refine ⟨fun ms c h => ?_, Scene.follows⟩
  have hstart := Scene.conserved_start p
  refine ⟨bookkeeping_of_conserved (Scene.conserved_run h hstart), fun k i => ?_⟩
  rw [Scene.tally_run hstart h k i, Purse.tally_of_none rfl, Int.zero_add]

/-- Two handles and a copy of the first; then the instance is destroyed, and after that the first
handle is given back. The account of the instance still shows the other two. -/
theorem two_left_after_the_end : ∃ c x, (Scene.start .ready).run
      [.change (.newInstance default), .change (.newHandle 0 .null), .change (.newHandle 0 .null),
        .change (.cloneHandle ⟨0⟩), .change (.shut 0), .change (.releaseHandle ⟨0⟩)] = some c
    ∧ c.world.instance? 0 = some x ∧ x.isLive = false ∧ x.ledger = ⟨2, 1, 1⟩
    ∧ x.ledger.live = c.world.purse.outstanding 0 := by
  refine ⟨_, _, rfl, rfl, rfl, rfl, ?_⟩
  exact ((((ledgers_tell_what_is_out .ready).1 [.change (.newInstance default),
    .change (.newHandle 0 .null), .change (.newHandle 0 .null), .change (.cloneHandle ⟨0⟩),
    .change (.shut 0), .change (.releaseHandle ⟨0⟩)] _ rfl).1).live 0 _ rfl).1

end ScriptBoundary.Boundary
