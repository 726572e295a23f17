import ScriptBoundary.Proofs.Handles

/-!
# No handle is lost count of

A ledger says how many handles were made, copied and given back. The cells say which handles there
are. The two are kept by different lines of the same functions, and `Purse.Conserved` is that they
agree: what is on the account of an instance is the number of handles that it made and that are
still out.

An account is opened when its instance is made and never closed, so that a handle can be given back
long after its instance has been destroyed. The invariant therefore says of every handle that there
is an account for it (`owner`), and of every account that it is right (`count`); the first is what
makes the second hold when a new account is opened at zero.

## Main results

* `Scene.conserved_run`: the ledgers are right in every scene that moves lead to
* `Purse.Conserved.live_eq`: what a ledger shows as live is how many handles are out
-/

namespace ScriptBoundary.Boundary

open Script (Anchor Limits Ref)

namespace Purse

variable {p q : Purse} {i j : InstanceId} {h : Handle} {c : HandleCell} {f : Ledger → Ledger}

/-- How many handles of an instance are out. -/
def outstanding (p : Purse) (j : InstanceId) : Nat :=
  p.cells.countP fun c => c.map (·.owner) == some j

/-- What the ledger of an instance shows as live. -/
def live (p : Purse) (i : InstanceId) : Nat := ((p.ledger i).getD .empty).live

/-- Whether the ledgers agree with the handles that are out. -/
structure Conserved (p : Purse) : Prop where
  owner : ∀ h c, p.cell? h = some c → (p.ledger c.owner).isSome
  count : ∀ j, (p.ledger j).isSome → p.balance j = p.outstanding j

/-- **What a ledger shows as live** is how many handles are out. -/
theorem Conserved.live_eq (hp : p.Conserved) (hj : (p.ledger j).isSome) :
    p.live j = p.outstanding j := by
  have hcount := hp.count j hj
  rw [balance, Ledger.balance] at hcount
  rw [live, Ledger.live]
  omega

/-- With right ledgers the balance is what is live. -/
theorem Conserved.live_eq_balance (hp : p.Conserved) (hj : (p.ledger j).isSome) :
    (p.live j : Int) = p.balance j := by
  rw [hp.live_eq hj, hp.count j hj]

/-! ## Counting by numbers -/

/-- The handles that are out, counted by their numbers. -/
theorem outstanding_eq_range {n : Nat} (hn : p.cells.size ≤ n) (j : InstanceId) :
    p.outstanding j =
      (List.range n).countP fun k => (p.cell? ⟨k⟩).map (·.owner) == some j := by
  have hcells : (List.range n).map (fun k => p.cell? ⟨k⟩) =
      p.cells.toList ++ List.replicate (n - p.cells.size) none := by
    refine List.ext_getElem (by simp; omega) fun k hk hk' => ?_
    rw [List.getElem_map, List.getElem_range, cell?]
    by_cases hlt : k < p.cells.size
    · rw [List.getElem_append_left (by simpa using hlt), Array.getElem?_eq_getElem hlt]
      rfl
    · rw [List.getElem_append_right (by simpa using hlt),
        Array.getElem?_eq_none (Nat.le_of_not_lt hlt)]
      simp
  have hnone : (List.replicate (n - p.cells.size) (none : Option HandleCell)).countP
      (fun c => c.map (·.owner) == some j) = 0 := by
    simp [List.countP_replicate]
  have hmap := List.countP_map (p := fun c : Option HandleCell => c.map (·.owner) == some j)
    (f := fun k => p.cell? ⟨k⟩) (l := List.range n)
  rw [hcells, List.countP_append, hnone] at hmap
  rw [outstanding, ← Array.countP_toList]
  exact hmap

/-- What refers to the same is out as often. -/
theorem outstanding_congr (h : ∀ x, q.cell? x = p.cell? x) (j : InstanceId) :
    q.outstanding j = p.outstanding j := by
  rw [outstanding_eq_range (Nat.le_max_left q.cells.size p.cells.size) j,
    outstanding_eq_range (Nat.le_max_right q.cells.size p.cells.size) j]
  simp only [h]

/-! ## What keeps the ledgers right -/

theorem balance_post (hj : (p.ledger j).isSome) {n : Int}
    (hf : ∀ l, (f l).balance = l.balance + n) :
    (p.post i f).balance j = p.balance j + if i = j then n else 0 := by
  rw [balance, balance, post]
  by_cases hij : i = j
  · obtain ⟨l, hl⟩ := Option.isSome_iff_exists.mp hj
    simp [hij, hl, hf]
  · simp [hij]

theorem isSome_ledger_post : ((p.post i f).ledger j).isSome = (p.ledger j).isSome := by
  rw [post]
  dsimp only
  split
  · rw [Option.isSome_map]
  · rfl

/-- One more handle, and one more on the account of the instance that made it. -/
theorem Conserved.push (hp : p.Conserved) (hc : (p.ledger c.owner).isSome)
    (hf : ∀ l, (f l).balance = l.balance + 1) :
    ({ p with cells := p.cells.push (some c) }.post c.owner f).Conserved := by
  refine ⟨fun h d hd => ?_, fun j hj => ?_⟩
  · rw [isSome_ledger_post]
    rw [cell?_post, cell?, Array.getElem?_push] at hd
    split at hd
    · obtain rfl := Option.some.inj hd
      exact hc
    · exact hp.owner h d hd
  · rw [isSome_ledger_post] at hj
    have hbalance := balance_post (p := { p with cells := p.cells.push (some c) }) (i := c.owner)
      hj hf
    have hcount : p.balance j = p.outstanding j := hp.count j hj
    rw [hbalance, outstanding, cells_post, Array.countP_push]
    show p.balance j + _ = _
    rw [hcount, outstanding]
    by_cases hij : c.owner = j <;> simp [hij]

theorem Conserved.make (hp : p.Conserved) (hi : (p.ledger i).isSome) (v : Script.Value) :
    (p.make i v).Conserved :=
  hp.push (c := ⟨v, i⟩) hi fun l => by
    simp only [Ledger.balance, Ledger.create]
    omega

theorem Conserved.copy (hp : p.Conserved) (h : Handle) : (p.copy h).Conserved := by
  rw [Purse.copy]
  split
  · exact hp
  · next c hc =>
    refine hp.push (hp.owner h c hc) fun l => ?_
    simp only [Ledger.balance, Ledger.clone]
    omega

/-- The handle that is given back is the only one that is not out any more. -/
theorem outstanding_take (hc : p.cell? h = some c) :
    (p.take h).outstanding j + (if c.owner = j then 1 else 0) = p.outstanding j := by
  have hlt : h.id < p.cells.size := lt_of_cell? (by rw [hc]; nofun)
  have hcell : p.cells[h.id] = some c := by
    rw [cell?, Array.getElem?_eq_getElem hlt] at hc
    exact hc
  have hset : (p.take h).cells = p.cells.set h.id none hlt := by
    rw [take, hc]
    exact Array.setIfInBounds_def .. ▸ dif_pos hlt
  rw [outstanding, hset, Array.countP_set, hcell, outstanding]
  by_cases hij : c.owner = j
  · have hpos : 0 < p.cells.countP fun c => c.map (·.owner) == some j := by
      rw [Array.countP_pos_iff]
      exact ⟨some c, hcell ▸ Array.getElem_mem hlt, by simp [hij]⟩
    simp only [hij, Option.map_some, beq_self_eq_true, if_true, Option.map_none]
    rw [if_neg (by simp)]
    omega
  · simp [hij]

/-- If nothing that was out is given back, and nothing that was not is made but one handle, then
what is out is that one more. -/
theorem outstanding_of_new {o : Option Handle} (he : p.Evolves q)
    (hkept : ∀ x, p.cell? x ≠ none → q.cell? x ≠ none)
    (hnew : ∀ x, p.cell? x = none → (q.cell? x ≠ none ↔ o = some x))
    (hone : ∀ x, o = some x → p.cell? x = none ∧ ∃ y, q.cell? x = some ⟨y, i⟩) (j : InstanceId) :
    q.outstanding j = p.outstanding j + if i = j ∧ o.isSome = true then 1 else 0 := by
  have hsame : ∀ x, o ≠ some x → q.cell? x = p.cell? x := by
    intro x hx
    by_cases hp : p.cell? x = none
    · rw [hp]
      exact Classical.byContradiction fun hq => hx ((hnew x hp).mp hq)
    · exact (he.cell x (lt_of_cell? hp)).resolve_right (hkept x hp)
  cases o with
  | none =>
    rw [outstanding_congr (fun x => hsame x nofun) j]
    simp
  | some x =>
    obtain ⟨hp, y, hq⟩ := hone x rfl
    -- Without the new handle everything is as it was.
    have htaken : ∀ z, (q.take x).cell? z = p.cell? z := by
      intro z
      by_cases hz : z = x
      · rw [hz, cell?_take, hp]
      · rw [cell?_take_of_ne hz]
        exact hsame z fun heq => hz (Option.some.inj heq).symm
    have hout := outstanding_take (j := j) hq
    rw [outstanding_congr htaken j] at hout
    simp only [Option.isSome_some, and_true]
    exact hout.symm

theorem Conserved.take (hp : p.Conserved) (h : Handle) : (p.take h).Conserved := by
  cases hc : p.cell? h with
  | none =>
    rw [Purse.take, hc]
    exact hp
  | some c =>
    have hledger : ∀ j, ((p.take h).ledger j).isSome = (p.ledger j).isSome := by
      intro j
      rw [Purse.take, hc]
      exact isSome_ledger_post (p := { p with cells := _ })
    refine ⟨fun x d hd => ?_, fun j hj => ?_⟩
    · rw [hledger]
      by_cases hx : x = h
      · rw [hx, cell?_take] at hd
        cases hd
      · rw [cell?_take_of_ne hx] at hd
        exact hp.owner x d hd
    · rw [hledger] at hj
      have hbalance : (p.take h).balance j = p.balance j + if c.owner = j then -1 else 0 := by
        rw [Purse.take, hc]
        refine balance_post (p := { p with cells := _ }) hj fun l => ?_
        simp only [Ledger.balance, Ledger.release]
        omega
      have hout := outstanding_take (j := j) hc
      rw [hbalance, hp.count j hj]
      split at hout <;> rename_i hij
      · rw [if_pos hij]
        omega
      · rw [if_neg hij]
        omega

theorem Conserved.takeAll (hp : p.Conserved) (us : List Value) : (p.takeAll us).Conserved := by
  induction us generalizing p with
  | nil => exact hp
  | cons u us ih =>
    refine ih ?_
    rw [takeValue]
    split
    · exact hp.take _
    · exact hp

/-- A new account is opened at zero, and there are no handles for it yet. -/
theorem Conserved.enrol (hp : p.Conserved) {n : InstanceId} (hn : p.ledger n = none) :
    { p with ledger := fun j => if j = n then some .empty else p.ledger j : Purse }.Conserved := by
  refine ⟨fun h c hc => ?_, fun j hj => ?_⟩
  · have hc' : p.cell? h = some c := hc
    dsimp only
    split
    · rfl
    · exact hp.owner h c hc'
  · by_cases hjn : j = n
    · have hnone : p.outstanding n = 0 := by
        rw [outstanding, Array.countP_eq_zero]
        intro c hc hown
        obtain ⟨k, hk, rfl⟩ := Array.mem_iff_getElem.mp hc
        obtain ⟨d, hd, hdn⟩ := Option.map_eq_some_iff.mp (beq_iff_eq.mp hown)
        have hsome := hp.owner ⟨k⟩ d (by rw [cell?, Array.getElem?_eq_getElem hk, hd]; rfl)
        rw [hdn, hn] at hsome
        cases hsome
      rw [hjn]
      show _ = (p.outstanding n : Int)
      rw [hnone, balance]
      simp [Ledger.balance, Ledger.empty]
    · simp only [if_neg hjn] at hj
      have hcount : p.balance j = p.outstanding j := hp.count j hj
      rw [balance] at hcount ⊢
      simp only [if_neg hjn]
      exact hcount

end Purse

/-! ## What moves do -/

/-- **Every change keeps the ledgers right.** -/
theorem Change.conserved {w w' : World} {x : Change} (h : w.purse.Conserved)
    (hx : x.apply w = some w') : w'.purse.Conserved := by
  cases x with
  | edit e =>
    cases hx
    exact h
  | note e =>
    cases hx
    exact h
  | install pair =>
    cases hx
    exact h
  | setSlot i slot data =>
    cases hx
    rwa [World.purse_setSlot]
  | newInstance limits =>
    obtain rfl : (w.newInstance limits).2 = w' := Option.some.inj hx
    rw [World.purse_newInstance]
    refine h.enrol ?_
    simp [World.purse, World.instance?]
  | newHandle i v =>
    simp only [Change.apply] at hx
    split at hx
    · next hi =>
      cases hx
      rw [World.purse_newHandle]
      refine h.make ?_ v
      rwa [World.purse, Option.isSome_map]
    · cases hx
  | cloneHandle x =>
    cases hx
    rw [World.purse_cloneHandle]
    exact h.copy x
  | releaseHandle x =>
    cases hx
    rw [World.purse_releaseHandle]
    exact h.take x
  | register i realm c =>
    simp only [Change.apply] at hx
    split at hx
    · next halive =>
      obtain rfl := Option.some.inj hx
      obtain ⟨x, hx⟩ := Option.isSome_iff_exists.mp (World.hasInstance_of_isAlive halive)
      obtain ⟨-, v, hv⟩ := World.purse_register hx realm c
      rw [hv]
      refine h.make ?_ v
      rw [World.purse, Option.isSome_map, hx]
      rfl
    · cases hx
  | finalize a =>
    cases hx
    rwa [World.purse_finalize]
  | shut i =>
    simp only [Change.apply] at hx
    split at hx
    · cases hx
      rwa [World.purse_shut]
    · cases hx

theorem Scene.conserved_start (p : Platform) : (Scene.start p).world.purse.Conserved :=
  ⟨fun _ _ h => by simp [World.cell?, Scene.start, World.blank] at h,
    fun _ h => by simp [World.purse, World.instance?, Scene.start, World.blank] at h⟩

/-- **The ledgers are right** after every sequence of moves that starts where they are. -/
theorem Scene.conserved_run {c d : Scene} {ms : List Move} (h : c.run ms = some d)
    (hc : c.world.purse.Conserved) : d.world.purse.Conserved := by
  refine Scene.run_induction (P := fun _ d => d.world.purse.Conserved) hc (fun he hm => ?_) h
  rcases Scene.purse_step hm with ⟨x, -, hx⟩ | hd
  · exact Change.conserved he hx
  · rwa [hd]

end ScriptBoundary.Boundary
