import ScriptBoundary.Proofs.Growth
import ScriptBoundary.Proofs.Handles
import ScriptBoundary.Proofs.Registry

/-!
# Where an operation runs

`inContext` finds the context of an operation, borrows it if it is the instance's own, and gives it
back. For a proof about what the operation does there, all of that is in the way. Here the three
are taken apart: `World.context?` is what it finds, `World.occupy` what it does before, and
`World.relinquish` what it does afterwards. Neither of the last two touches the heap, a handle or a
registration (`World.SameStore`).

## Main results

* `World.context?_isSome_iff`: when there is a context
* `inContext_of_context`: an operation that gets one does what it does there
-/

namespace ScriptBoundary.Boundary

open Script (Activation Anchor)

variable {σ α : Type}

/-- The context that an operation on an instance gets, if it gets one. -/
def World.context? (w : World) (i : InstanceId) : Option Activation :=
  (w.live? i).bind fun x => match x.lent with
    | some act => some (w.current act)
    | none => if x.borrowed then none else some (x.root i w.converting)

/-- An instance that is alive has a context for an operation, unless another operation uses it. -/
theorem World.context?_isSome_iff {w : World} {i : InstanceId} : (w.context? i).isSome ↔
    w.isAlive i = true ∧ ((w.lentBy i).isSome ∨ w.isBorrowed i = false) := by
  rw [context?, isAlive_eq_isSome_live?]
  cases hx : w.live? i with
  | none => simp
  | some x =>
    rw [lentBy_of_live? hx, isBorrowed_of_live? hx]
    cases hl : x.lent with
    | some act => simp [hl]
    | none => cases hb : x.borrowed <;> simp [hl, hb]

/-- Two worlds that differ in what is lent and borrowed at most. -/
structure World.SameStore (w w' : World) : Prop where
  setting : w'.setting = w.setting
  purse : w'.purse = w.purse
  table : ∀ i, w'.table i = w.table i
  isAlive : ∀ i, w'.isAlive i = w.isAlive i

namespace World.SameStore

variable {w w' : World}

theorem refl (w : World) : w.SameStore w := ⟨rfl, rfl, fun _ => rfl, fun _ => rfl⟩

theorem heap (h : w.SameStore w') : w'.heap = w.heap := heap_congr h.setting

theorem cell? (h : w.SameStore w') (hd : Handle) : w'.cell? hd = w.cell? hd := by
  rw [← cell?_purse, h.purse, cell?_purse]

theorem referent (h : w.SameStore w') (hd : Handle) : w'.referent hd = w.referent hd := by
  rw [World.referent, World.referent, h.cell?]

theorem callbackOf (h : w.SameStore w') (a : Anchor) : w'.callbackOf a = w.callbackOf a := by
  rw [callbackOf_eq, callbackOf_eq, h.table, h.isAlive]

theorem borrow (w : World) (i : InstanceId) : w.SameStore (w.borrow i) :=
  ⟨setting_borrow w i, purse_borrow w i, table_borrow w i, isAlive_borrow w i⟩

theorem giveBack (w : World) (i : InstanceId) : w.SameStore (w.giveBack i) :=
  ⟨setting_giveBack w i, purse_giveBack w i, table_giveBack w i, isAlive_giveBack w i⟩

end World.SameStore

/-- Whether an operation on an instance uses the instance's own context, as none is lent. -/
def World.usesOwn (w : World) (i : InstanceId) : Bool := (w.lentBy i).isNone

/-- An operation on an instance begins, and borrows the instance's own context if it uses that. -/
def World.occupy (w : World) (i : InstanceId) : World := if w.usesOwn i then w.borrow i else w

/-- The operation ends, and gives the context back. -/
def World.relinquish (w : World) (own : Bool) (i : InstanceId) : World :=
  if own then w.giveBack i else w

theorem World.SameStore.occupy (w : World) (i : InstanceId) : w.SameStore (w.occupy i) := by
  rw [World.occupy]
  split
  · exact .borrow w i
  · exact .refl w

theorem World.SameStore.relinquish (w : World) (own : Bool) (i : InstanceId) :
    w.SameStore (w.relinquish own i) := by
  cases own with
  | false => exact .refl w
  | true => exact .giveBack w i

/-- A call that has just begun is the innermost one in its own context. -/
theorem World.current_enter (w : World) (v : Invocation) :
    (w.enter v).current v.activation = v.activation := by
  have hfind : (w.enter v).inFlight.find? (·.activation.context == v.activation.context)
      = some v := List.find?_cons_of_pos (beq_self_eq_true _)
  rw [current, hfind]
  rfl

/-- While a callback of an instance runs, an operation on the instance gets the context that the
callback was called in. -/
theorem World.context?_enter {w : World} {v : Invocation} (h : w.isAlive v.anchor.owner = true) :
    (w.enter v).context? v.anchor.owner = some v.activation := by
  rw [isAlive_eq_isSome_live?] at h
  obtain ⟨x, hx⟩ := Option.isSome_iff_exists.mp h
  obtain ⟨hinstance, halive⟩ := live?_eq_some_iff.mp hx
  have hentered : (w.enter v).live? v.anchor.owner = some { x with lent := some v.activation } := by
    refine live?_eq_some_iff.mpr ⟨?_, halive⟩
    rw [enter, instance?_updateInstance, if_pos rfl]
    exact congrArg (Option.map _) hinstance
  rw [context?, hentered]
  exact congrArg some (current_enter w v)

/-- It uses no context of its own then. -/
theorem World.usesOwn_enter {w : World} {v : Invocation} (h : w.isAlive v.anchor.owner = true) :
    (w.enter v).usesOwn v.anchor.owner = false := by
  have hdesk : { w with inFlight := v :: w.inFlight }.desk v.anchor.owner ≠ none := fun hnone => by
    have hdead : w.isAlive v.anchor.owner = false := by
      rw [isAlive, show w.desk v.anchor.owner = none from hnone]
      rfl
    rw [h] at hdead
    cases hdead
  rw [usesOwn, enter, lentBy_lend hdesk, if_pos rfl]
  rfl

theorem World.lentBy_borrow (w : World) (i j : InstanceId) : (w.borrow i).lentBy j = w.lentBy j :=
  lentBy_updateInstance (f := fun x => { x with borrowed := true }) (fun _ => rfl) j

/-- **An operation that gets a context** does what it does there. -/
theorem inContext_of_context {s : State σ} {i : InstanceId} {act : Activation}
    (h : s.world.context? i = some act) (body : Activation → Run σ α) :
    inContext i body s = match body act { s with world := s.world.occupy i } with
      | .ok (a, t) => .ok (a, { t with world := t.world.relinquish (s.world.usesOwn i) i })
      | .error e => .error e := by
  rw [World.context?] at h
  obtain ⟨x, hx, hact⟩ := Option.bind_eq_some_iff.mp h
  rw [World.occupy, World.usesOwn, World.lentBy_of_live? hx]
  cases hl : x.lent with
  | some lent =>
    rw [hl] at hact
    obtain rfl := Option.some.inj hact
    rw [inContext_lent hx hl, Option.isNone_some, if_neg Bool.false_ne_true]
    cases body (s.world.current lent) s <;> rfl
  | none =>
    rw [hl] at hact
    cases hb : x.borrowed with
    | true =>
      rw [hb] at hact
      cases hact
    | false =>
      rw [hb] at hact
      obtain rfl := Option.some.inj hact
      rw [inContext_own hx hl hb, Option.isNone_none, if_pos rfl]
      cases body (x.root i s.world.converting) { s with world := s.world.borrow i } <;> rfl

/-- An operation that ends leaves its context to the next one, if it has kept the desk of its
instance. -/
theorem World.context?_relinquish {w u : World} {i : InstanceId} (halive : u.isAlive i = true)
    (hlent : u.lentBy i = w.lentBy i) : ((u.relinquish (w.usesOwn i) i).context? i).isSome := by
  refine context?_isSome_iff.mpr ⟨((SameStore.relinquish u _ i).isAlive i).trans halive, ?_⟩
  cases hown : w.usesOwn i with
  | false =>
    refine .inl (hlent ▸ ?_)
    rw [usesOwn] at hown
    rwa [← Option.isNone_eq_false_iff]
  | true =>
    refine .inr ?_
    rw [relinquish, if_pos rfl, isBorrowed_giveBack]
    simp

end ScriptBoundary.Boundary
