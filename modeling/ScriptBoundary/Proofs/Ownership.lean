import Mathlib.Algebra.Ring.Int.Defs
import ScriptBoundary.Proofs.Conservation
import ScriptBoundary.Proofs.Visit

/-!
# Who owns what after an operation

An operation takes over the values it is passed and gives their handles back; the handles it is only
shown stay out; and if its answer carries a handle, that is the one handle it leaves behind. This
holds whatever comes of it: a value, an exception, a key that cannot be converted, a callee that
cannot be called, a limit.

The host's code that runs meanwhile may do with handles what it likes. `Visit.contribution` is what
one visit adds to a counter: the handles it is handed, whatever its code does, and the handle of the
value it returns. `Settled` is the account of the whole operation.

## Main results

* `settles_answer`: every operation is settled in the same way
* `Settled.of_settles`: the account that follows from that
* `operations_settle_handles`: both together, with ledgers that are right
-/

namespace ScriptBoundary.Boundary

open Script (Activation)

variable {σ : Type}

namespace Request

/-- The instance that an operation on scripts is for. The other requests have none: they copy and
release handles or ask about the boundary itself. -/
def operatesOn? : Request → Option InstanceId
  | .eval i _ | .global i | .createObject i | .createArray i | .createString i _ | .get i ..
  | .set i .. | .remove i .. | .has i .. | .getIndex i .. | .setIndex i .. | .keys i ..
  | .arrayLength i _ | .toUtf8 i _ | .call i .. | .register i _ | .toBoolean i _ | .toNumber i _
  | .toText i _ | .errorValue i _ => some i
  | _ => none

/-- The values that are passed to a request. Whatever else is passed is only shown to it. -/
def consumed : Request → List Value
  | .get _ _ key | .remove _ _ key | .has _ _ key => [key]
  | .set _ _ key value => [key, value]
  | .setIndex _ _ _ value => [value]
  | .call _ _ this args => this :: args
  | .toBoolean _ v | .toNumber _ v | .toText _ v => [v]
  | _ => []

/-- The handle in an answer. -/
def carried : (r : Request) → r.Answer → Option Handle
  | .eval .., o | .get .., o | .set .., o | .remove .., o | .has .., o | .getIndex .., o
  | .setIndex .., o | .call .., o | .toNumber .., o | .toText .., o => Outcome.value o |>.handle?
  | .register .., v | .errorValue .., v => Value.handle? v
  | .global _, h | .createObject _, h | .createArray _, h | .createString .., h | .keys .., h
  | .clone _, h => some h
  | _, _ => none

end Request

section Settles

variable {host : Host σ} {n : Nat} {s t : State σ} {i : InstanceId}

/-- What an operation does in its context settles it. -/
theorem settles_of_work {r : Request} {a : r.Answer} {f : Activation → Run σ r.Answer}
    (hi : r.addressee? = some i) (hf : r.work (invokeAt host n) s.world = some f)
    (h : answer (invokeAt host n) r s = .ok (a, t))
    (hbody : ∀ act s' a t', (s'.world.live? i).isSome → f act s' = .ok (a, t') →
      Settles host n i r.consumed (r.carried a) s' t') :
    Settles host n i r.consumed (r.carried a) s t := by
  rw [answer_eq_inContext hi hf] at h
  exact settles_inContext h hbody

/-- A request to an instance that is alive is served. -/
theorem serve_of_answer {invoke : Invoke σ} {r : Request} {a : r.Answer}
    (h : answer invoke r s = .ok (a, t)) : serve invoke r s = .ok (a, t) := by
  rw [answer_apply] at h
  split at h
  · split at h
    · cases h
    · exact h
  · exact h

/-- Listing the names of an object makes one array, be it the names or the empty one. -/
theorem settles_keys {j : InstanceId} {object : Handle} {inherited : Bool} {a : Handle}
    (h : answer (invokeAt host n) (.keys j object inherited) s = .ok (a, t)) :
    Settles host n j [] (some a) s t := by
  refine settles_of_work (r := .keys j object inherited) rfl rfl h fun act s' a t' _ h' => ?_
  simp only [Run.bind_apply, Run.view_apply] at h'
  split at h'
  · next c u hr =>
    refine .after (visits_runIn hr) ?_
    cases c with
    | value names =>
      cases h'
      exact settles_newHandle j names
    | thrown v =>
      cases h'
      exact settles_newHandle (s := { u with world := _ }) j _
    | limit fault =>
      cases h'
      exact settles_newHandle (s := { u with world := _ }) j _
  · cases h'

/-- **Every operation is settled in the same way**: its arguments are taken first, then the host
does what it does, and then at most one handle is handed out. -/
theorem settles_answer {r : Request} {a : r.Answer} (hi : r.operatesOn? = some i)
    (h : answer (invokeAt host n) r s = .ok (a, t)) :
    Settles host n i r.consumed (r.carried a) s t := by
  cases r with
  | eval | get | set | remove | has | getIndex | setIndex | call | toNumber | toText =>
    obtain rfl := Option.some.inj hi
    exact settles_of_work rfl rfl h fun _ _ _ _ _ h' => settles_operateIn h'
  | global j =>
    obtain rfl := Option.some.inj hi
    cases serve_of_answer h
    exact settles_newHandle j _
  | createString j bytes =>
    obtain rfl := Option.some.inj hi
    cases serve_of_answer h
    exact settles_newHandle j _
  | createObject j =>
    obtain rfl := Option.some.inj hi
    refine settles_of_work rfl rfl h fun act s' a t' _ h' => ?_
    cases h'
    exact settles_newHandle (s := { s' with world := _ }) j _
  | createArray j =>
    obtain rfl := Option.some.inj hi
    refine settles_of_work rfl rfl h fun act s' a t' _ h' => ?_
    cases h'
    exact settles_newHandle (s := { s' with world := _ }) j _
  | keys j object inherited =>
    obtain rfl := Option.some.inj hi
    exact settles_keys h
  | arrayLength j array =>
    obtain rfl := Option.some.inj hi
    by_cases ha : s.world.isArray array = true
    · refine settles_of_work rfl (if_pos ha) h fun act s' a t' _ h' => ?_
      cases h'
      exact ⟨_, .refl _, rfl⟩
    · have hs := serve_of_answer h
      simp only [serve, Run.bind_apply, Run.view_apply, if_neg ha] at hs
      cases hs
      exact ⟨_, .refl _, rfl⟩
  | toUtf8 j text =>
    obtain rfl := Option.some.inj hi
    cases hf : (Request.toUtf8 j text).work (invokeAt host n) s.world with
    | some f =>
      refine settles_of_work rfl hf h fun act s' a t' _ h' => ?_
      simp only [Request.work] at hf
      split at hf
      · cases hf
      · obtain rfl := Option.some.inj hf
        simp only [Run.bind_apply] at h'
        split at h'
        · next hr =>
          cases h'
          exact .after (visits_runIn hr) ⟨_, .refl _, rfl⟩
        · cases h'
    | none =>
      have hs := serve_of_answer h
      simp only [Request.work] at hf
      split at hf
      · next hv =>
        simp only [serve, Run.bind_apply, Run.view_apply, hv] at hs
        cases hs
        exact ⟨_, .refl _, rfl⟩
      · cases hf
  | register j callback =>
    obtain rfl := Option.some.inj hi
    refine settles_of_work rfl rfl h fun act s' a t' halive h' => ?_
    obtain ⟨rfl, rfl⟩ := Prod.mk.inj (Except.ok.inj h')
    obtain ⟨x, hx⟩ := Option.isSome_iff_exists.mp halive
    exact ⟨_, .refl _,
      World.yields_register (World.live?_eq_some_iff.mp hx).1 act.realm callback⟩
  | toBoolean j v =>
    obtain rfl := Option.some.inj hi
    refine settles_of_work rfl rfl h fun act s' a t' _ h' => ?_
    cases h'
    refine ⟨_, .refl _, ?_⟩
    exact World.purse_decode s'.world act.realm v
  | errorValue j e =>
    obtain rfl := Option.some.inj hi
    refine settles_of_work rfl rfl h fun act s' a t' _ h' => ?_
    simp only [Run.bind_apply] at h'
    split at h'
    · next c u hr =>
      split at h'
      · next o u' hc =>
        cases h'
        exact .after (visits_runIn hr) (settles_conclude hc)
      · cases h'
    · cases h'
  | _ => cases hi

end Settles

/-! ## What a visit adds -/

namespace Visit

variable {host : Host σ} {n : Nat} {v : Visit σ} {k : Counter} {j : InstanceId}

/-- The instance that made the handle of the value the host's code returned, if it has one. -/
def returned (v : Visit σ) : Option InstanceId :=
  v.outcome.value.handle?.bind fun h => (v.after.world.cell? h).map (·.owner)

/-- What handing the arguments over adds to a counter: a new handle for each composite, at the
expense of the instance whose callback it is. -/
def handedTo (v : Visit σ) (k : Counter) (j : InstanceId) : Int :=
  if k = .created ∧ v.owner = j then (Purse.handlesOf v.handed).length else 0

/-- What the host's code itself adds to a counter. -/
def did (v : Visit σ) (k : Counter) (j : InstanceId) : Int :=
  v.after.world.purse.tally k j - v.opening.tally k j

/-- What taking the returned value adds to a counter: a release if it is composite. -/
def takenFrom (v : Visit σ) (k : Counter) (j : InstanceId) : Int :=
  if k = .released ∧ v.returned = some j then 1 else 0

/-- What a visit adds to a counter of an instance. -/
def contribution (v : Visit σ) (k : Counter) (j : InstanceId) : Int :=
  v.handedTo k j + v.did k j + v.takenFrom k j

/-- Whether the host's code gives back as many handles as it was handed and makes as many as it
returns. -/
def IsBalanced (v : Visit σ) : Prop :=
  ∀ j, v.handedTo .created j + v.did .created j + v.did .cloned j =
    v.did .released j + v.takenFrom .released j

/-- Whether a handle that was out before is given back in the course of a visit. -/
def GivesUp (v : Visit σ) (h : Handle) : Prop :=
  v.before.world.cell? h ≠ none ∧ v.closing.purse.cell? h = none

/-- Whether a handle is out after a visit that was not out before. -/
def Leaves (v : Visit σ) (h : Handle) : Prop :=
  v.before.world.cell? h = none ∧ v.closing.purse.cell? h ≠ none

/-- What a visit is handed is new, and its owner's. -/
theorem handed_fresh (v : Visit σ) : (Purse.handlesOf v.handed).Nodup ∧
    ∀ h ∈ Purse.handlesOf v.handed,
      v.before.world.cell? h = none ∧ ∃ x, v.opening.cell? h = some ⟨x, v.owner⟩ := by
  obtain ⟨hnodup, hfresh⟩ := v.yieldsAll_opening.fresh
  refine ⟨hnodup, fun h hh => ⟨?_, (hfresh h hh).2⟩⟩
  rw [← World.cell?_purse]
  exact Purse.cell?_eq_none_of_le (hfresh h hh).1

/-- What a visit returns is given back. -/
theorem returned_taken (v : Visit σ) {h : Handle} (hh : v.outcome.value.handle? = some h) :
    v.closing.purse.cell? h = none := by
  rw [closing, Purse.takeValue, hh]
  exact Purse.cell?_take _ _

theorem Genuine.evolves_closing (h : v.Genuine host n) :
    v.before.world.purse.Evolves v.closing.purse :=
  (v.yieldsAll_opening.evolves.trans h.evolves).trans (Purse.evolves_takeValue _ _)

theorem Genuine.tally_closing (h : v.Genuine host n)
    (hj : (v.before.world.purse.ledger j).isSome) (k : Counter) :
    v.closing.purse.tally k j = v.before.world.purse.tally k j + v.contribution k j := by
  have hopening : v.opening.tally k j = v.before.world.purse.tally k j + v.handedTo k j :=
    v.yieldsAll_opening.tally hj k
  have hclosing : v.closing.purse.tally k j = v.after.world.purse.tally k j + v.takenFrom k j :=
    Purse.tally_takeValue (h.evolves.ledger j (v.yieldsAll_opening.evolves.ledger j hj)) _ k
  rw [contribution, did]
  omega

/-- A balanced visit releases as many handles as it makes. -/
theorem IsBalanced.contribution (h : v.IsBalanced) (j : InstanceId) :
    v.contribution .created j + v.contribution .cloned j = v.contribution .released j := by
  have hj := h j
  have hcloned : v.handedTo .cloned j = 0 := if_neg (fun hk => nomatch hk.1)
  have hreleased : v.handedTo .released j = 0 := if_neg (fun hk => nomatch hk.1)
  have hcreated' : v.takenFrom .created j = 0 := if_neg (fun hk => nomatch hk.1)
  have hcloned' : v.takenFrom .cloned j = 0 := if_neg (fun hk => nomatch hk.1)
  simp only [Visit.contribution]
  omega

end Visit

/-- Balanced visits release as many handles as they make. -/
theorem sum_contribution {vs : List (Visit σ)} (h : ∀ v ∈ vs, v.IsBalanced) (j : InstanceId) :
    (vs.map fun v => v.contribution .created j).sum
        + (vs.map fun v => v.contribution .cloned j).sum =
      (vs.map fun v => v.contribution .released j).sum := by
  induction vs with
  | nil => rfl
  | cons v vs ih =>
    have hv := (h v List.mem_cons_self).contribution j
    have hvs := ih fun u hu => h u (List.mem_cons_of_mem _ hu)
    simp only [List.map_cons, List.sum_cons]
    omega

namespace Chain

variable {host : Host σ} {n : Nat} {vs : List (Visit σ)} {p q : Holding σ} {b : Purse} {x : Handle}

theorem evolves (hvs : ∀ v ∈ vs, v.Genuine host n) (h : Chain p vs q) :
    p.purse.Evolves q.purse := by
  induction vs generalizing p with
  | nil =>
    obtain rfl : q = p := h
    exact .refl _
  | cons v vs ih =>
    obtain ⟨rfl, h⟩ := h
    exact (hvs v List.mem_cons_self).evolves_closing.trans
      (ih (fun u hu => hvs u (List.mem_cons_of_mem _ hu)) h)

/-- Visits one after the other add what each of them adds. -/
theorem tally (hvs : ∀ v ∈ vs, v.Genuine host n) (h : Chain p vs q) {j : InstanceId}
    (hj : (p.purse.ledger j).isSome) (k : Counter) :
    q.purse.tally k j = p.purse.tally k j + (vs.map fun v => v.contribution k j).sum := by
  induction vs generalizing p with
  | nil =>
    obtain rfl : q = p := h
    simp
  | cons v vs ih =>
    obtain ⟨rfl, h⟩ := h
    have hv := hvs v List.mem_cons_self
    have hrest := ih (fun u hu => hvs u (List.mem_cons_of_mem _ hu)) h
      (hv.evolves_closing.ledger j hj)
    rw [hrest, hv.tally_closing hj, List.map_cons, List.sum_cons]
    show _ = v.before.world.purse.tally k j + _
    omega

/-- What is there after a visit can only be given up later. -/
theorem evolves_of_mem (hvs : ∀ v ∈ vs, v.Genuine host n) (h : Chain p vs q) {v : Visit σ}
    (hv : v ∈ vs) : v.closing.purse.Evolves q.purse := by
  induction vs generalizing p with
  | nil => cases hv
  | cons u vs ih =>
    obtain ⟨rfl, h⟩ := h
    have hvs' : ∀ v ∈ vs, v.Genuine host n := fun w hw => hvs w (List.mem_cons_of_mem _ hw)
    rcases List.mem_cons.mp hv with rfl | hv
    · exact h.evolves hvs'
    · exact ih hvs' h hv

/-- What is out before and not afterwards was given up by one of the visits. -/
theorem givesUp (h : Chain p vs q) (hp : p.purse.cell? x ≠ none) (hq : q.purse.cell? x = none) :
    ∃ v ∈ vs, v.GivesUp x := by
  induction vs generalizing p with
  | nil =>
    obtain rfl : q = p := h
    exact absurd hq hp
  | cons v vs ih =>
    obtain ⟨rfl, h⟩ := h
    by_cases hv : v.closing.purse.cell? x = none
    · exact ⟨v, List.mem_cons_self, hp, hv⟩
    · obtain ⟨u, hu, hx⟩ := ih h hv
      exact ⟨u, List.mem_cons_of_mem _ hu, hx⟩

/-- What is out afterwards and not before was left by one of the visits. -/
theorem leaves (h : Chain p vs q) (hp : p.purse.cell? x = none) (hq : q.purse.cell? x ≠ none) :
    ∃ v ∈ vs, v.Leaves x := by
  induction vs generalizing p with
  | nil =>
    obtain rfl : q = p := h
    exact absurd hp hq
  | cons v vs ih =>
    obtain ⟨rfl, h⟩ := h
    by_cases hv : v.closing.purse.cell? x = none
    · obtain ⟨u, hu, hx⟩ := ih h hv
      exact ⟨u, List.mem_cons_of_mem _ hu, hx⟩
    · exact ⟨v, List.mem_cons_self, hp, hv⟩

/-! Of an operation that takes its arguments, lets visits follow one another and hands out at most
one handle in the end. -/

section Course

variable {r : Purse} {args : List Value} {g : σ} {i j : InstanceId} {o : Option Handle}

theorem taken (hvs : ∀ v ∈ vs, v.Genuine host n) (h : Chain ⟨b.takeAll args, g⟩ vs q)
    (hy : q.purse.Yields i o r) (hx : x ∈ Purse.handlesOf args) (hb : b.cell? x ≠ none) :
    r.cell? x = none := by
  have hchain := h.evolves hvs
  have hlt := Nat.lt_of_lt_of_le (Purse.lt_of_cell? hb) (Purse.evolves_takeAll b args).size
  have hq := hchain.dead hlt (Purse.cell?_takeAll hx)
  exact hy.evolves.dead (Nat.lt_of_lt_of_le hlt hchain.size) hq

theorem kept (hvs : ∀ v ∈ vs, v.Genuine host n) (h : Chain ⟨b.takeAll args, g⟩ vs q)
    (hy : q.purse.Yields i o r) (hx : x ∉ Purse.handlesOf args) (hb : b.cell? x ≠ none) :
    r.cell? x = b.cell? x ∨ ∃ v ∈ vs, v.GivesUp x := by
  have hchain := h.evolves hvs
  have hsame : (b.takeAll args).cell? x = b.cell? x := Purse.cell?_takeAll_of_not_mem hx
  have hlt := Nat.lt_of_lt_of_le (Purse.lt_of_cell? hb) (Purse.evolves_takeAll b args).size
  have hr := hy.cell? (Nat.lt_of_lt_of_le hlt hchain.size)
  rcases hchain.cell x hlt with hq | hq
  · exact .inl (hr.trans (hq.trans hsame))
  · exact .inr (h.givesUp (fun hnone => hb (hsame.symm.trans hnone)) hq)

theorem carried (hvs : ∀ v ∈ vs, v.Genuine host n) (h : Chain ⟨b.takeAll args, g⟩ vs q)
    (hy : q.purse.Yields i o r) (ho : o = some x) :
    b.cell? x = none ∧ (∀ v ∈ vs, v.closing.purse.cell? x = none)
      ∧ ∃ y, r.cell? x = some ⟨y, i⟩ := by
  rw [ho] at hy
  obtain ⟨hsize, hcell⟩ := hy.fresh
  have hle := Nat.le_trans (Purse.evolves_takeAll b args).size (h.evolves hvs).size
  refine ⟨Purse.cell?_eq_none_of_le (Nat.le_trans hle hsize), fun v hv => ?_, hcell⟩
  exact Purse.cell?_eq_none_of_le (Nat.le_trans (h.evolves_of_mem hvs hv).size hsize)

theorem new (h : Chain ⟨b.takeAll args, g⟩ vs q) (hy : q.purse.Yields i o r)
    (hb : b.cell? x = none) (hr : r.cell? x ≠ none) : o = some x ∨ ∃ v ∈ vs, v.Leaves x := by
  by_cases hq : q.purse.cell? x = none
  · exact .inl (hy.new hr hq)
  · exact .inr (h.leaves (Purse.cell?_takeAll_of_none hb _) hq)

theorem tally_settled (hvs : ∀ v ∈ vs, v.Genuine host n) (h : Chain ⟨b.takeAll args, g⟩ vs q)
    (hy : q.purse.Yields i o r) (hn : (Purse.handlesOf args).Nodup)
    (hj : (b.ledger j).isSome) (k : Counter) :
    r.tally k j = b.tally k j
      + (if k = .released then (b.owned j (Purse.handlesOf args) : Int) else 0)
      + (vs.map fun v => v.contribution k j).sum
      + if k = .created ∧ i = j ∧ o.isSome = true then 1 else 0 := by
  have htaken := (Purse.evolves_takeAll b args).ledger j hj
  rw [hy.tally ((h.evolves hvs).ledger j htaken), h.tally hvs htaken, Purse.tally_takeAll hj hn]

/-- With balanced visits, what is live has gone down by what was passed and up by what is handed
out. -/
theorem live_settled (hvs : ∀ v ∈ vs, v.Genuine host n) (h : Chain ⟨b.takeAll args, g⟩ vs q)
    (hy : q.purse.Yields i o r) (hn : (Purse.handlesOf args).Nodup)
    (hbalanced : ∀ v ∈ vs, v.IsBalanced) (hb : b.Conserved) (hr : r.Conserved)
    (hj : (b.ledger j).isSome) :
    r.live j + b.owned j (Purse.handlesOf args) =
      b.live j + if i = j ∧ o.isSome = true then 1 else 0 := by
  have htaken := (Purse.evolves_takeAll b args).ledger j hj
  have hbefore := hb.live_eq_balance hj
  have hafter := hr.live_eq_balance (hy.evolves.ledger j ((h.evolves hvs).ledger j htaken))
  have hsum := sum_contribution hbalanced j
  have hcreated := h.tally_settled hvs hy hn hj .created
  have hcloned := h.tally_settled hvs hy hn hj .cloned
  have hreleased := h.tally_settled hvs hy hn hj .released
  rw [Purse.balance_eq] at hbefore hafter
  simp only [reduceCtorEq, eq_self, true_and, false_and, if_true, if_false]
    at hcreated hcloned hreleased
  split at hcreated
  · next hone =>
    rw [if_pos hone]
    omega
  · next hnone =>
    rw [if_neg hnone]
    omega

end Course

end Chain

/-! ## The account of an operation -/

/-- What an operation has done about handles, given the calls of the host that it led to. -/
structure Settled (host : Host σ) (n : Nat) (r : Request) (i : InstanceId) (a : r.Answer)
    (s t : State σ) (vs : List (Visit σ)) : Prop where
  /-- The visits are runs of the host's code. -/
  genuine : ∀ v ∈ vs, v.Genuine host n
  /-- The arguments are taken, the visits follow one another, and the handle in the answer is
  made. Nothing else happens to handles. -/
  course : ∃ q, Chain ⟨s.world.purse.takeAll r.consumed, s.host⟩ vs ⟨q, t.host⟩
    ∧ q.Yields i (r.carried a) t.world.purse
  /-- A visit is handed one handle for each composite argument. All of them are new, no two are the
  same, and the instance of the callback owns them. -/
  handed : ∀ v ∈ vs, (Purse.handlesOf v.handed).Nodup ∧ ∀ h ∈ Purse.handlesOf v.handed,
    v.before.world.cell? h = none ∧ ∃ x, v.opening.cell? h = some ⟨x, v.owner⟩
  /-- What a visit returns is given back. -/
  returned : ∀ v ∈ vs, ∀ h, v.outcome.value.handle? = some h → v.closing.purse.cell? h = none
  /-- What was passed by value was out before and is not any more, -/
  taken : ∀ h ∈ Purse.handlesOf r.consumed, s.world.cell? h ≠ none → t.world.cell? h = none
  /-- and everything else that was out before still is, unless a visit has given it up. -/
  kept : ∀ h, h ∉ Purse.handlesOf r.consumed → s.world.cell? h ≠ none →
    t.world.cell? h = s.world.cell? h ∨ ∃ v ∈ vs, v.GivesUp h
  /-- The handle in the answer is a new one, at the expense of the operation's instance, -/
  carried : ∀ h, r.carried a = some h →
    s.world.cell? h = none ∧ (∀ v ∈ vs, v.closing.purse.cell? h = none)
      ∧ ∃ x, t.world.cell? h = some ⟨x, i⟩
  /-- and no other handle is new, unless a visit has left it. -/
  new : ∀ h, s.world.cell? h = none → t.world.cell? h ≠ none →
    r.carried a = some h ∨ ∃ v ∈ vs, v.Leaves h
  /-- Every counter of every instance shows the releases of what was passed by value, what each
  visit adds, and the handle in the answer. -/
  tally : ∀ k j, (s.world.instance? j).isSome → t.world.purse.tally k j = s.world.purse.tally k j
    + (if k = .released then (s.world.purse.owned j (Purse.handlesOf r.consumed) : Int) else 0)
    + (vs.map fun v => v.contribution k j).sum
    + if k = .created ∧ i = j ∧ (r.carried a).isSome = true then 1 else 0
  /-- If all visits are balanced and the ledgers are right, then what is live afterwards is what was
  live before, less what was passed by value, and one more for the handle in the answer. -/
  live : (∀ v ∈ vs, v.IsBalanced) → s.world.purse.Conserved → t.world.purse.Conserved →
    ∀ j, (s.world.instance? j).isSome →
      t.world.purse.live j + s.world.purse.owned j (Purse.handlesOf r.consumed) =
        s.world.purse.live j + if i = j ∧ (r.carried a).isSome = true then 1 else 0

/-- **The account of an operation** that is settled and is passed no handle twice. -/
theorem Settled.of_settles {host : Host σ} {n : Nat} {r : Request} {i : InstanceId}
    {a : r.Answer} {s t : State σ} (hn : (Purse.handlesOf r.consumed).Nodup)
    (h : Settles host n i r.consumed (r.carried a) s t) :
    ∃ vs, Settled host n r i a s t vs := by
  obtain ⟨q, ⟨vs, hvs, hc⟩, hy⟩ := h
  have hledger : ∀ j, (s.world.instance? j).isSome → (s.world.purse.ledger j).isSome := by
    intro j hj
    rwa [World.purse, Option.isSome_map]
  refine ⟨vs, ?_⟩
  constructor
  case genuine => exact hvs
  case course => exact ⟨q, hc, hy⟩
  case handed => exact fun v _ => v.handed_fresh
  case returned => exact fun v _ h hh => v.returned_taken hh
  case taken => exact fun h hh hs => hc.taken hvs hy hh hs
  case kept => exact fun h hh hs => hc.kept hvs hy hh hs
  case carried => exact fun h hh => hc.carried hvs hy hh
  case new => exact fun h hs ht => hc.new hy hs ht
  case tally => exact fun k j hj => hc.tally_settled hvs hy hn (hledger j hj) k
  case live =>
    exact fun hb hps hpt j hj => hc.live_settled hvs hy hn hb hps hpt (hledger j hj)

/-- **What every operation does about handles**, whatever its outcome and whatever the host's code
does meanwhile. In every scene that moves lead to, the ledgers are right before and afterwards, so
that the account holds of what is live as well. -/
theorem operations_settle_handles {host : Host σ} {n : Nat} {r : Request} {i : InstanceId}
    {a : r.Answer} {s t : State σ} (hi : r.operatesOn? = some i)
    (hn : (Purse.handlesOf r.consumed).Nodup) (h : answer (invokeAt host n) r s = .ok (a, t)) :
    (∃ vs, Settled host n r i a s t vs) ∧ ∀ p ms st, (Scene.start p).run ms = some ⟨s.world, st⟩ →
      isHostTurn st = true → s.world.purse.Conserved ∧ t.world.purse.Conserved := by
  refine ⟨Settled.of_settles hn (settles_answer hi h), fun p ms st hrun hst => ?_⟩
  have hs : s.world.purse.Conserved := Scene.conserved_run hrun (Scene.conserved_start p)
  have hask : (Act.request r).run (answer (invokeAt host n)) ⟨s.world, s.host⟩ = .ok (a, t) := by
    rw [Act.request, Act.run_ask, h]
    rfl
  obtain ⟨ns, hns⟩ := (Scene.follows ⟨s.world, st⟩).code host n _ _ _ _ hst hask
  exact ⟨hs, Scene.conserved_run hns hs⟩

/-- A host whose callbacks give back what they are called on. -/
def Host.mirror : Host Unit where
  native _ _ this _ := pure (.ok this)
  wrapper _ _ _ this _ := pure ⟨this, 0⟩

/-- A callback is called on an object and gives it back. The handle that was passed is given back,
so is the one that the callback was handed, and the answer carries a third. -/
theorem handed_through : ∃ c a t vs, (Scene.start .ready).run
      [.change (.newInstance ⟨9, 9, 9⟩), .change (.register 0 0 (.native 7)),
        .change (.newHandle 0 (.object 0))] = some c
    ∧ (Outcome.value a).handle? = some ⟨3⟩
    ∧ Settled Host.mirror 1 (.call 0 ⟨0⟩ (.composite .object ⟨1⟩) []) 0 a ⟨c.world, ()⟩ t vs
    ∧ t.world.purse.Conserved := by
  have hrun : ((Scene.start .ready).run
      [.change (.newInstance ⟨9, 9, 9⟩), .change (.register 0 0 (.native 7)),
        .change (.newHandle 0 (.object 0))]).map (fun c => (isHostTurn c.stack,
          (answer (invokeAt Host.mirror 1) (.call 0 ⟨0⟩ (.composite .object ⟨1⟩) [])
            ⟨c.world, ()⟩).toOption.map (·.1.value.handle?))) =
      some (true, some (some ⟨3⟩)) := by
    decide +kernel
  obtain ⟨c, hc, hboth⟩ := Option.map_eq_some_iff.mp hrun
  obtain ⟨hturn, hanswer⟩ := Prod.mk.inj hboth
  cases hr : answer (invokeAt Host.mirror 1) (.call 0 ⟨0⟩ (.composite .object ⟨1⟩) [])
      ⟨c.world, ()⟩ with
  | error e =>
    rw [hr] at hanswer
    cases hanswer
  | ok q =>
    rw [hr] at hanswer
    obtain ⟨⟨vs, hvs⟩, hright⟩ := operations_settle_handles rfl (by decide) hr
    exact ⟨c, q.1, q.2, vs, hc, Option.some.inj hanswer, hvs, (hright .ready _ c.stack hc hturn).2⟩

end ScriptBoundary.Boundary
