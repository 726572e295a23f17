import ScriptBoundary.Boundary.World

/-!
# Purses

Who owns which handle is a matter of two things only: the cells behind the handles, and the ledgers
of the instances. A `Purse` is these two. Three functions change it: `make` for a new handle, `copy`
for a copied one and `take` for one that is given back.

An operation takes all its arguments at its beginning (`takeAll`) and hands out at most one handle
at its end (`Yields`); a call of the host hands out one for each composite argument (`YieldsAll`).
Each of these has one lemma about the counters, one about the cells that were there before, and one
about those that are new.

The number of a handle is never used again, so a handle that was given back stays given back. That
is `Evolves`, which is all that is known of a purse after somebody else has had it.
-/

namespace ScriptBoundary.Boundary

/-- The handles that were ever made, and what each instance has on its account. -/
structure Purse where
  cells : Array (Option HandleCell)
  ledger : InstanceId → Option Ledger

/-- The counters of a ledger. -/
inductive Counter where
  | created | cloned | released
deriving DecidableEq

/-- What a counter shows. -/
def Ledger.read (l : Ledger) : Counter → Int
  | .created => l.created
  | .cloned => l.cloned
  | .released => l.released

/-- The handles that are out. Where the ledger is right it is the same number as `live`, and it does
not stop at zero. -/
def Ledger.balance (l : Ledger) : Int := l.created + l.cloned - l.released

namespace Purse

variable {p q r : Purse} {i j : InstanceId} {h : Handle}

/-- What a handle refers to. -/
def cell? (p : Purse) (h : Handle) : Option HandleCell := (p.cells[h.id]?).join

/-- Puts something on the account of an instance. -/
def post (p : Purse) (i : InstanceId) (f : Ledger → Ledger) : Purse :=
  { p with ledger := fun j => if i = j then (p.ledger j).map f else p.ledger j }

/-- A new handle. -/
def make (p : Purse) (i : InstanceId) (v : Script.Value) : Purse :=
  { p with cells := p.cells.push (some ⟨v, i⟩) }.post i Ledger.create

/-- A copy of a handle. -/
def copy (p : Purse) (h : Handle) : Purse :=
  match p.cell? h with
  | none => p
  | some c => { p with cells := p.cells.push (some c) }.post c.owner Ledger.clone

/-- A handle is given back. -/
def take (p : Purse) (h : Handle) : Purse :=
  match p.cell? h with
  | none => p
  | some c => { p with cells := p.cells.setIfInBounds h.id none }.post c.owner Ledger.release

/-- What a counter of an instance shows. -/
def tally (p : Purse) (k : Counter) (i : InstanceId) : Int := ((p.ledger i).getD .empty).read k

/-- The handles of an instance that are out. -/
def balance (p : Purse) (i : InstanceId) : Int := ((p.ledger i).getD .empty).balance

theorem balance_eq (p : Purse) (i : InstanceId) :
    p.balance i = p.tally .created i + p.tally .cloned i - p.tally .released i := rfl

@[simp] theorem cell?_post (p : Purse) (i : InstanceId) (f : Ledger → Ledger) (h : Handle) :
    (p.post i f).cell? h = p.cell? h := rfl

@[simp] theorem cells_post (p : Purse) (i : InstanceId) (f : Ledger → Ledger) :
    (p.post i f).cells = p.cells := rfl

/-! ## What happens to counters -/

theorem tally_post (hj : (p.ledger j).isSome) {f : Ledger → Ledger} {k : Counter} {n : Int}
    (hf : ∀ l, (f l).read k = l.read k + n) :
    (p.post i f).tally k j = p.tally k j + if i = j then n else 0 := by
  rw [tally, tally, post]
  by_cases hij : i = j
  · obtain ⟨l, hl⟩ := Option.isSome_iff_exists.mp hj
    simp [hij, hl, hf]
  · simp [hij]

/-- A new handle shows in one counter of the instance that made it. -/
theorem tally_make (hj : (p.ledger j).isSome) (i : InstanceId) (v : Script.Value) (k : Counter) :
    (p.make i v).tally k j = p.tally k j + if k = .created ∧ i = j then 1 else 0 := by
  have hpost := tally_post (p := { p with cells := p.cells.push (some ⟨v, i⟩) }) (i := i)
    (f := Ledger.create) (k := k) (n := if k = .created then 1 else 0) hj
    (fun l => by cases k <;> simp [Ledger.read, Ledger.create])
  refine hpost.trans ?_
  by_cases hk : k = .created <;> by_cases hij : i = j <;> simp [hk, hij, tally]

/-- A handle that is given back shows in one counter of the instance that made it. -/
theorem tally_take (hj : (p.ledger j).isSome) (h : Handle) (k : Counter) :
    (p.take h).tally k j = p.tally k j +
      if k = .released ∧ (p.cell? h).map (·.owner) = some j then 1 else 0 := by
  rw [take]
  cases hc : p.cell? h with
  | none => simp
  | some c =>
    have hpost := tally_post (p := { p with cells := p.cells.setIfInBounds h.id none })
      (i := c.owner) (f := Ledger.release) (k := k) (n := if k = .released then 1 else 0) hj
      (fun l => by cases k <;> simp [Ledger.read, Ledger.release])
    refine hpost.trans ?_
    by_cases hk : k = .released <;> by_cases hij : c.owner = j <;> simp [hk, hij, tally]

/-! ## What can become of a purse -/

/-- Whether one purse can become another: handles are given back and made, but none comes back. -/
structure Evolves (p q : Purse) : Prop where
  size : p.cells.size ≤ q.cells.size
  cell : ∀ h : Handle, h.id < p.cells.size → q.cell? h = p.cell? h ∨ q.cell? h = none
  ledger : ∀ i, (p.ledger i).isSome → (q.ledger i).isSome

theorem Evolves.refl (p : Purse) : p.Evolves p := ⟨Nat.le_refl _, fun _ _ => .inl rfl, fun _ => id⟩

theorem Evolves.trans (h : p.Evolves q) (h' : q.Evolves r) : p.Evolves r := by
  refine ⟨Nat.le_trans h.size h'.size, fun x hx => ?_, fun i hi => h'.ledger i (h.ledger i hi)⟩
  rcases h'.cell x (Nat.lt_of_lt_of_le hx h.size) with hr | hr
  · rw [hr]
    exact h.cell x hx
  · exact .inr hr

theorem evolves_post (p : Purse) (i : InstanceId) (f : Ledger → Ledger) :
    p.Evolves (p.post i f) := by
  refine ⟨Nat.le_refl _, fun _ _ => .inl rfl, fun j hj => ?_⟩
  rw [post]
  dsimp only
  split
  · rwa [Option.isSome_map]
  · exact hj

private theorem evolves_push (p : Purse) (c : HandleCell) :
    p.Evolves { p with cells := p.cells.push (some c) } := by
  refine ⟨by simp, fun x hx => .inl ?_, fun _ => id⟩
  rw [cell?, cell?, Array.getElem?_push, if_neg (Nat.ne_of_lt hx)]

theorem evolves_make (p : Purse) (i : InstanceId) (v : Script.Value) : p.Evolves (p.make i v) :=
  (evolves_push p ⟨v, i⟩).trans (evolves_post _ _ _)

theorem evolves_copy (p : Purse) (h : Handle) : p.Evolves (p.copy h) := by
  rw [copy]
  split
  · exact .refl p
  · exact (evolves_push p _).trans (evolves_post _ _ _)

theorem evolves_take (p : Purse) (h : Handle) : p.Evolves (p.take h) := by
  rw [take]
  split
  · exact .refl p
  · have hset : p.Evolves { p with cells := p.cells.setIfInBounds h.id none } := by
      refine ⟨by simp, fun x hx => ?_, fun _ => id⟩
      rw [cell?, cell?]
      dsimp only
      rw [Array.getElem?_setIfInBounds]
      split
      · split
        · exact .inr rfl
        · exact .inr rfl
      · exact .inl rfl
    exact hset.trans (evolves_post _ _ _)

/-- A handle that refers to nothing never refers to anything again, once its number is out. -/
theorem Evolves.dead (h : p.Evolves q) {x : Handle} (hx : x.id < p.cells.size)
    (hdead : p.cell? x = none) : q.cell? x = none := by
  rcases h.cell x hx with hq | hq
  · rw [hq, hdead]
  · exact hq

/-- A number that is not out yet refers to nothing. -/
theorem cell?_eq_none_of_le (hle : p.cells.size ≤ h.id) : p.cell? h = none := by
  rw [cell?, Array.getElem?_eq_none hle]
  rfl

theorem lt_of_cell? (hc : p.cell? h ≠ none) : h.id < p.cells.size :=
  Nat.lt_of_not_le fun hle => hc (cell?_eq_none_of_le hle)

theorem cell?_take (p : Purse) (h : Handle) : (p.take h).cell? h = none := by
  rw [take]
  split
  · assumption
  · rw [cell?_post, cell?]
    dsimp only
    rw [Array.getElem?_setIfInBounds_self]
    split <;> rfl

theorem cell?_take_of_ne {x : Handle} (hne : x ≠ h) : (p.take h).cell? x = p.cell? x := by
  rw [take]
  split
  · rfl
  · rw [cell?_post, cell?, cell?]
    dsimp only
    rw [Array.getElem?_setIfInBounds_ne]
    intro hid
    obtain ⟨n⟩ := x
    obtain ⟨m⟩ := h
    exact hne (congrArg Handle.mk hid.symm)

theorem cell?_make (p : Purse) (i : InstanceId) (v : Script.Value) :
    (p.make i v).cell? ⟨p.cells.size⟩ = some ⟨v, i⟩ := by
  rw [make, cell?_post, cell?]
  simp

theorem cell?_make_of_ne (i : InstanceId) (v : Script.Value) (hne : h ≠ ⟨p.cells.size⟩) :
    (p.make i v).cell? h = p.cell? h := by
  rw [make, cell?_post, cell?, cell?, Array.getElem?_push,
    if_neg fun hid => hne (congrArg Handle.mk hid)]

theorem cell?_make_of_lt (i : InstanceId) (v : Script.Value) (hlt : h.id < p.cells.size) :
    (p.make i v).cell? h = p.cell? h :=
  cell?_make_of_ne i v fun hh => absurd hlt (hh ▸ Nat.lt_irrefl _)

/-! ## Taking and giving values -/

/-- The handles of some values, in their order. -/
def handlesOf (us : List Value) : List Handle := us.filterMap Value.handle?

/-- A value is given back, with the handle it may have. -/
def takeValue (p : Purse) (u : Value) : Purse :=
  match u.handle? with
  | some h => p.take h
  | none => p

/-- Values are given back in their order. -/
def takeAll (p : Purse) (us : List Value) : Purse := us.foldl takeValue p

/-- At the expense of an instance a new handle is handed out, or none. -/
def Yields (p : Purse) (i : InstanceId) : Option Handle → Purse → Prop
  | none, q => q = p
  | some h, q => h = ⟨p.cells.size⟩ ∧ ∃ v, q = p.make i v

/-- Values are handed out in their order, each with a new handle if it has one. -/
def YieldsAll (p : Purse) (i : InstanceId) : List Value → Purse → Prop
  | [], q => q = p
  | u :: us, q => ∃ m, p.Yields i u.handle? m ∧ m.YieldsAll i us q

theorem Yields.evolves {o : Option Handle} (h : p.Yields i o q) : p.Evolves q := by
  cases o with
  | none =>
    obtain rfl : q = p := h
    exact .refl q
  | some x =>
    obtain ⟨-, v, rfl⟩ := h
    exact evolves_make _ _ _

theorem Yields.tally {o : Option Handle} (h : p.Yields i o q) (hj : (p.ledger j).isSome)
    (k : Counter) :
    q.tally k j = p.tally k j + if k = .created ∧ i = j ∧ o.isSome = true then 1 else 0 := by
  cases o with
  | none =>
    obtain rfl : q = p := h
    simp
  | some x =>
    obtain ⟨-, v, rfl⟩ := h
    rw [tally_make hj]
    simp

/-- A handle that is handed out is new, and refers to something. -/
theorem Yields.fresh {x : Handle} (h : p.Yields i (some x) q) :
    p.cells.size ≤ x.id ∧ ∃ v, q.cell? x = some ⟨v, i⟩ := by
  obtain ⟨rfl, v, rfl⟩ := h
  exact ⟨Nat.le_refl _, v, cell?_make _ _ _⟩

/-- Nothing but the handle that is handed out is new. -/
theorem Yields.new {o : Option Handle} (hy : p.Yields i o q) (hq : q.cell? h ≠ none)
    (hp : p.cell? h = none) : o = some h := by
  cases o with
  | none =>
    obtain rfl : q = p := hy
    exact absurd hp hq
  | some x =>
    obtain ⟨rfl, v, rfl⟩ := hy
    have hlt : h.id < p.cells.size + 1 := by
      have hsize := lt_of_cell? hq
      rwa [make, cells_post, Array.size_push] at hsize
    by_cases hold : h.id < p.cells.size
    · rw [cell?_make_of_lt i v hold] at hq
      exact absurd hp hq
    · have hid : p.cells.size = h.id := by omega
      rw [hid]

theorem YieldsAll.evolves {us : List Value} (h : p.YieldsAll i us q) : p.Evolves q := by
  induction us generalizing p with
  | nil =>
    obtain rfl : q = p := h
    exact .refl q
  | cons u us ih =>
    obtain ⟨m, hm, hq⟩ := h
    exact hm.evolves.trans (ih hq)

theorem YieldsAll.tally {us : List Value} (h : p.YieldsAll i us q) (hj : (p.ledger j).isSome)
    (k : Counter) : q.tally k j =
      p.tally k j + if k = .created ∧ i = j then ((handlesOf us).length : Int) else 0 := by
  induction us generalizing p with
  | nil =>
    obtain rfl : q = p := h
    simp [handlesOf]
  | cons u us ih =>
    obtain ⟨m, hm, hq⟩ := h
    rw [ih hq (hm.evolves.ledger j hj), hm.tally hj, handlesOf, handlesOf, List.filterMap_cons]
    cases u.handle? with
    | none => simp
    | some x =>
      by_cases hk : k = .created ∧ i = j
      · simp only [hk, and_self, Option.isSome_some, if_true, List.length_cons]
        omega
      · have hk' : ¬(k = .created ∧ i = j ∧ (some x).isSome = true) := fun h => hk ⟨h.1, h.2.1⟩
        rw [if_neg hk, if_neg hk', if_neg hk, Int.add_zero]

theorem Yields.cell? {o : Option Handle} (hy : p.Yields i o q) (hlt : h.id < p.cells.size) :
    q.cell? h = p.cell? h := by
  cases o with
  | none =>
    obtain rfl : q = p := hy
    rfl
  | some x =>
    obtain ⟨-, v, rfl⟩ := hy
    exact cell?_make_of_lt i v hlt

theorem YieldsAll.cell? {us : List Value} (hy : p.YieldsAll i us q) (hlt : h.id < p.cells.size) :
    q.cell? h = p.cell? h := by
  induction us generalizing p with
  | nil =>
    obtain rfl : q = p := hy
    rfl
  | cons u us ih =>
    obtain ⟨m, hm, hq⟩ := hy
    exact (ih hq (Nat.lt_of_lt_of_le hlt hm.evolves.size)).trans (hm.cell? hlt)

/-- Nothing but the handles that are handed out is new. -/
theorem YieldsAll.new {us : List Value} (hy : p.YieldsAll i us q) (hq : q.cell? h ≠ none)
    (hp : p.cell? h = none) : h ∈ handlesOf us := by
  induction us generalizing p with
  | nil =>
    obtain rfl : q = p := hy
    exact absurd hp hq
  | cons u us ih =>
    obtain ⟨m, hm, hy⟩ := hy
    rw [handlesOf, List.filterMap_cons]
    by_cases hold : m.cell? h = none
    · have hmem := ih hy hold
      cases u.handle? with
      | none => exact hmem
      | some x => exact List.mem_cons_of_mem _ hmem
    · rw [hm.new hold hp]
      exact List.mem_cons_self

/-- Each of the handles that are handed out is new, no two are the same, and the instance owns
them. -/
theorem YieldsAll.fresh {us : List Value} (h : p.YieldsAll i us q) :
    (handlesOf us).Nodup
      ∧ ∀ x ∈ handlesOf us, p.cells.size ≤ x.id ∧ ∃ v, q.cell? x = some ⟨v, i⟩ := by
  induction us generalizing p with
  | nil => exact ⟨.nil, nofun⟩
  | cons u us ih =>
    obtain ⟨m, hm, hq⟩ := h
    obtain ⟨hnodup, hfresh⟩ := ih hq
    rw [handlesOf, List.filterMap_cons]
    cases hu : u.handle? with
    | none =>
      rw [hu] at hm
      obtain rfl : m = p := hm
      exact ⟨hnodup, hfresh⟩
    | some x =>
      rw [hu] at hm
      obtain ⟨hx, v, hv⟩ := hm.fresh
      have hlt : x.id < m.cells.size := lt_of_cell? (by rw [hv]; nofun)
      refine ⟨List.nodup_cons.mpr ⟨fun hmem => ?_, hnodup⟩, fun y hy => ?_⟩
      · exact absurd (hfresh x hmem).1 (Nat.not_le_of_lt hlt)
      · rcases List.mem_cons.mp hy with rfl | hy
        · -- What comes after it is new as well, so it is still there.
          exact ⟨hx, v, (hq.cell? hlt).trans hv⟩
        · exact ⟨Nat.le_trans hm.evolves.size (hfresh y hy).1, (hfresh y hy).2⟩

theorem evolves_takeValue (p : Purse) (u : Value) : p.Evolves (p.takeValue u) := by
  rw [takeValue]
  split
  · exact evolves_take _ _
  · exact .refl p

theorem tally_takeValue (hj : (p.ledger j).isSome) (u : Value) (k : Counter) :
    (p.takeValue u).tally k j = p.tally k j + if k = .released ∧
      (u.handle?.bind fun h => (p.cell? h).map (·.owner)) = some j then 1 else 0 := by
  rw [takeValue]
  cases u.handle? with
  | none => simp
  | some h => exact tally_take hj h k

theorem evolves_takeAll (p : Purse) (us : List Value) : p.Evolves (p.takeAll us) := by
  induction us generalizing p with
  | nil => exact .refl p
  | cons u us ih => exact (evolves_takeValue p u).trans (ih _)

theorem cell?_takeValue_of_none (hp : p.cell? h = none) (u : Value) :
    (p.takeValue u).cell? h = none := by
  rw [takeValue]
  split
  · next x hu =>
    by_cases hx : h = x
    · rw [hx]
      exact cell?_take p x
    · rwa [cell?_take_of_ne hx]
  · exact hp

/-- What refers to nothing is not brought back by giving something back. -/
theorem cell?_takeAll_of_none (hp : p.cell? h = none) (us : List Value) :
    (p.takeAll us).cell? h = none := by
  induction us generalizing p with
  | nil => exact hp
  | cons u us ih => exact ih (cell?_takeValue_of_none hp u)

/-- What was given back is gone. -/
theorem cell?_takeAll {us : List Value} (hmem : h ∈ handlesOf us) :
    (p.takeAll us).cell? h = none := by
  induction us generalizing p with
  | nil => cases hmem
  | cons u us ih =>
    rw [handlesOf, List.filterMap_cons] at hmem
    cases hu : u.handle? with
    | none =>
      rw [hu] at hmem
      exact ih hmem
    | some x =>
      rw [hu] at hmem
      rcases List.mem_cons.mp hmem with rfl | hmem
      · refine cell?_takeAll_of_none ?_ us
        rw [takeValue, hu]
        exact cell?_take _ _
      · exact ih hmem

/-- What was not given back is as it was. -/
theorem cell?_takeAll_of_not_mem {us : List Value} (hmem : h ∉ handlesOf us) :
    (p.takeAll us).cell? h = p.cell? h := by
  induction us generalizing p with
  | nil => rfl
  | cons u us ih =>
    rw [handlesOf, List.filterMap_cons] at hmem
    have hstep : (p.takeValue u).cell? h = p.cell? h ∧ h ∉ handlesOf us := by
      rw [takeValue]
      cases hu : u.handle? with
      | none =>
        rw [hu] at hmem
        exact ⟨rfl, hmem⟩
      | some x =>
        rw [hu] at hmem
        exact ⟨cell?_take_of_ne fun hx => hmem (hx ▸ List.mem_cons_self),
          fun hin => hmem (List.mem_cons_of_mem _ hin)⟩
    exact (ih hstep.2).trans hstep.1

/-- How many of some handles an instance has made that are out. -/
def owned (p : Purse) (i : InstanceId) (hs : List Handle) : Nat :=
  hs.countP fun h => (p.cell? h).map (·.owner) == some i

/-- Giving back handles that are all different shows once for each of them. -/
theorem tally_takeAll {us : List Value} (hj : (p.ledger j).isSome) (hn : (handlesOf us).Nodup)
    (k : Counter) : (p.takeAll us).tally k j =
      p.tally k j + if k = .released then (p.owned j (handlesOf us) : Int) else 0 := by
  induction us generalizing p with
  | nil => simp [takeAll, handlesOf, owned]
  | cons u us ih =>
    have hcons : p.takeAll (u :: us) = (p.takeValue u).takeAll us := rfl
    have hj' := (evolves_takeValue p u).ledger j hj
    rw [hcons]
    cases hu : u.handle? with
    | none =>
      have hsame : handlesOf (u :: us) = handlesOf us := by
        rw [handlesOf, List.filterMap_cons, hu]
        rfl
      have hp : p.takeValue u = p := by rw [takeValue, hu]
      rw [hsame] at hn ⊢
      rw [hp]
      exact ih hj hn
    | some x =>
      have hsame : handlesOf (u :: us) = x :: handlesOf us := by
        rw [handlesOf, List.filterMap_cons, hu]
        rfl
      rw [hsame] at hn ⊢
      obtain ⟨hx, hn⟩ := List.nodup_cons.mp hn
      have hp : p.takeValue u = p.take x := by rw [takeValue, hu]
      rw [hp] at hj' ⊢
      have howned : (p.take x).owned j (handlesOf us) = p.owned j (handlesOf us) := by
        refine List.countP_congr fun y hy => ?_
        rw [cell?_take_of_ne fun hyx : y = x => hx (hyx ▸ hy)]
      rw [ih hj' hn, tally_take hj, howned, owned, owned, List.countP_cons]
      by_cases hk : k = .released
      · simp only [hk, true_and, if_true, beq_iff_eq]
        split <;> omega
      · simp [hk]

end Purse

end ScriptBoundary.Boundary
