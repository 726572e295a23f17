import ScriptBoundary.Proofs.Steps

/-!
# Exceptions that cross frames of the host

A script throws, the operation that runs it gives an exception, the callback that asked for the
operation returns that exception, and the script that called the callback throws again. At each
crossing the value is encoded for the host and decoded for the script, and a date or a symbol does
not come through that unchanged. `Raises` says what such a chain is, of any length, and
`exceptions_cross_frames` that the outermost operation tells the host the same as the innermost one
would have.

## What is carried

The innermost boundary decides. What it makes of the value is its form there: an inline value, or a
handle of some kind. An inline value is decoded to something that has the same form again
(`World.form_decode_inline`), so that from then on nothing changes, which is why a date arrives with
its time although each frame sees another date object. A handle is decoded to the value itself. So
the induction carries a form and, if that is a kind, a value (`StandsFor`).

## What scripts and callbacks are expected to do

A script does not catch the exception if what it is thrown is what it throws in the end. It may run
`finally` blocks, call the host and change the heap; but it has no hold of the value, so it cannot
have set the time of a date (`Uncaught`). A callback relays an operation if it returns the outcome
that it got. Before and afterwards it may do what it likes, as long as it leaves no handle behind
that it was handed or has made itself (`Visit.Relays`).

## Main results

* `Raises.surfaces`: by induction on the chain
* `World.Bounces.raises`: there are chains of every length
* `exceptions_cross_frames`: what the host is told by the outermost operation
-/

namespace ScriptBoundary.Boundary

open Script (Activation Completion Heap LimitFault Program)

variable {σ : Type}

/-! ## What one frame does -/

/-- Whether one value is told the host as another was: it has the same form, and it is the same
value if that form is a handle. -/
structure StandsFor (heap : Heap) (v : Script.Value) (h : Heap) (y : Script.Value) : Prop where
  form : Form.of h y = Form.of heap v
  same : ∀ kind, Form.of heap v = .composite kind → y = v

/-- Whether a boundary value tells the host a value as it was in some heap. -/
def World.Carries (w : World) (i : InstanceId) (heap : Heap) (v : Script.Value) (u : Value) :
    Prop :=
  match Form.of heap v with
  | .inline u' => u = u'
  | .composite kind => ∃ h, u = .composite kind h ∧ w.cell? h = some ⟨v, i⟩

theorem StandsFor.refl (heap : Heap) (v : Script.Value) : StandsFor heap v heap v :=
  ⟨rfl, fun _ _ => rfl⟩

/-- What is presented carries whatever it stands for. -/
theorem World.Presents.carries {w : World} {i : InstanceId} {heap : Heap} {v y : Script.Value}
    {u : Value} (hu : w.Presents i y u) (hy : StandsFor heap v w.heap y) :
    w.Carries i heap v u := by
  rw [World.Presents, hy.form] at hu
  rw [World.Carries]
  cases hform : Form.of heap v with
  | inline u' =>
    rw [hform] at hu
    exact hu
  | composite kind =>
    rw [hform] at hu
    obtain rfl := hy.same kind hform
    exact hu

/-- **What is carried is decoded to what it stands for**, as long as its handle is out. -/
theorem World.Carries.decode {w w' : World} {i : InstanceId} {heap : Heap} {v : Script.Value}
    {u : Value} (hu : w.Carries i heap v u) (hv : v.IsIn heap)
    (hcell : ∀ h c, u.handle? = some h → w.cell? h = some c → w'.cell? h = some c)
    (realm : Script.Ref)
    (hheap : heap.Evolves (w'.decode realm u).2.heap) :
    StandsFor heap v (w'.decode realm u).2.heap (w'.decode realm u).1 := by
  rw [World.Carries] at hu
  cases hform : Form.of heap v with
  | inline u' =>
    rw [hform] at hu
    obtain rfl : u = u' := hu
    refine ⟨?_, fun kind hkind => ?_⟩
    · rw [World.form_decode_inline hform, hform]
    · rw [hform] at hkind
      cases hkind
  | composite kind =>
    rw [hform] at hu
    obtain ⟨h, rfl, hc⟩ := hu
    have hstill : w'.cell? h = some ⟨v, i⟩ := hcell h _ rfl hc
    have hvalue : (w'.decode realm (.composite kind h)).1 = v := by
      rw [World.decode_composite hstill]
    refine ⟨?_, fun _ _ => hvalue⟩
    rw [hvalue, hform]
    exact Form.of_evolves hv hheap hform

/-- Whether a script catches nothing of what a call of the host has thrown: it throws it in the end
itself, and has not touched it. A script can only touch a date, as all else goes on to be of its
kind (`Form.of_evolves`). So what is left out by the second condition are scripts that catch a date,
set it to another time and throw it again. -/
structure Uncaught (host : Host σ) (n : Nat) (next : Completion Script.Value → Program)
    (y : Script.Value) (s : State σ) (vs : List (Visit σ)) (t : State σ) : Prop where
  thrown : Steps host n (next (.thrown y)) s vs (.done (.thrown y)) t
  untouched : Form.of t.world.heap y = Form.of s.world.heap y

namespace Visit

/-- Whether no handle is out after a visit that was not out before. -/
def IsClean (v : Visit σ) : Prop := ∀ h, ¬v.Leaves h

/-- Whether the code of a visit relays an operation: it asks for it, and with the answer at hand it
goes on and returns the outcome. -/
structure Relays (host : Host σ) (n : Nat) (v : Visit σ) (r : Request) (before : State σ)
    (a : r.Answer) (after : State σ) : Prop where
  found : v.before.world.callbackOf v.call.anchor = some v.callback
  /-- It comes to the point where it asks, and when it is answered it comes to its end. -/
  asks : ∃ next : r.Answer → Act σ Outcome,
    (host.call v.owner v.callback v.handed.head! v.handed.tail).Leads (answer (invokeAt host n))
      { v.before with world := v.before.world.atEntry v.call } (.ask r next) before
    ∧ (next a).run (answer (invokeAt host n)) after = .ok (v.outcome, v.after)
  /-- It returns the outcome as it got it, -/
  returns : r.outcome? a = some v.outcome
  /-- with its handle, -/
  keeps : ∀ h, v.outcome.value.handle? = some h → v.after.world.cell? h ≠ none
  /-- and has given back whatever else is new: what it was handed, and what it has made itself. -/
  clears : ∀ h, v.before.world.cell? h = none → v.after.world.cell? h ≠ none →
    before.world.cell? h = none ∧ after.world.cell? h ≠ none

end Visit

/-- A range error for a limit: the heap that has it, and where it is. -/
def limitError (h : Heap) (act : Activation) (fault : LimitFault) : Heap × Script.Ref :=
  let proto := (h.realm act.realm).base + Script.ErrorClass.rangeError.proto.ctorIdx
  h.apply (.newObject .error (some proto)
    (.ofList [(Script.Key.ofString "message",
      Script.Slot.hidden (Script.Value.ofString fault.message))]))

/-! ## Chains -/

/-- Whether a value is raised at the end of a chain of operations and callbacks, and nobody catches
it. The heap is that of the moment when it was raised. -/
inductive Raises (host : Host σ) :
    (depth n : Nat) → Request → State σ → (heap : Heap) → (v : Script.Value) → Prop where
  /-- The script of the operation throws it. -/
  | thrown {n : Nat} {r : Request} {s t : State σ} {e : Errand} {act : Activation}
      {vs : List (Visit σ)} {v : Script.Value} (he : r.errand? s.world = some e)
      (hact : s.world.context? e.owner = some act)
      (hscript : Steps host n (e.program act s.world) (e.opening act s) vs (.done (.thrown v)) t)
      (hclean : ∀ u ∈ vs, u.IsClean) (hv : v.IsIn t.world.heap) :
      Raises host 0 n r s t.world.heap v
  /-- The script of the operation hits a limit, which becomes an error at the boundary. -/
  | limit {n : Nat} {r : Request} {s t : State σ} {e : Errand} {act : Activation}
      {vs : List (Visit σ)} {fault : LimitFault} (he : r.errand? s.world = some e)
      (hact : s.world.context? e.owner = some act)
      (hscript : Steps host n (e.program act s.world) (e.opening act s) vs (.done (.limit fault)) t)
      (hclean : ∀ u ∈ vs, u.IsClean) :
      Raises host 0 n r s (limitError t.world.heap act fault).1
        (.object (limitError t.world.heap act fault).2)
  /-- The script of the operation calls a callback that raises it of its own. -/
  | callback {n : Nat} {r : Request} {s t : State σ} {e : Errand} {act : Activation}
      {vs ws : List (Visit σ)} {u : Visit σ} {next : Completion Script.Value → Program}
      (he : r.errand? s.world = some e) (hact : s.world.context? e.owner = some act)
      (hscript : Steps host n (e.program act s.world) (e.opening act s) vs (.call u.call next)
        u.before)
      (hu : u.Genuine host n) (hraised : u.outcome.isException = true)
      (huncaught : Uncaught host n next u.value u.resume ws t)
      (hclean : ∀ x ∈ vs ++ u :: ws, x.IsClean) (hv : u.value.IsIn u.resume.world.heap) :
      Raises host 0 n r s u.resume.world.heap u.value
  /-- The script of the operation calls a callback that relays an operation in which it is
  raised. -/
  | relay {depth n : Nat} {r r' : Request} {s t before after : State σ} {a : r'.Answer} {e : Errand}
      {act : Activation} {vs ws : List (Visit σ)} {u : Visit σ}
      {next : Completion Script.Value → Program} {heap : Heap} {v : Script.Value}
      (he : r.errand? s.world = some e) (hact : s.world.context? e.owner = some act)
      (hscript : Steps host (n + 1) (e.program act s.world) (e.opening act s) vs
        (.call u.call next) u.before)
      (hrelays : u.Relays host n r' before a after)
      (hanswer : answer (invokeAt host n) r' before = .ok (a, after))
      (hinner : Raises host depth n r' before heap v)
      (huncaught : Uncaught host (n + 1) next u.value u.resume ws t)
      (hclean : ∀ x ∈ vs ++ ws, x.IsClean) :
      Raises host (depth + 1) (n + 1) r s heap v

/-! ## The induction -/

/-- What comes of an operation in which a value was raised. -/
structure Surfaces (host : Host σ) (n : Nat) (heap : Heap) (v : Script.Value) (r : Request)
    (s : State σ) (i : InstanceId) (a : r.Answer) (o : Outcome) (t : State σ) : Prop where
  operates : r.operatesOn? = some i
  answered : answer (invokeAt host n) r s = .ok (a, t)
  outcome : r.outcome? a = some o
  exception : o.isException = true
  carries : t.world.Carries i heap v o.value
  isIn : v.IsIn heap
  evolvesHeap : heap.Evolves t.world.heap
  /-- What was passed by value is taken, -/
  evolves : (s.world.purse.takeAll r.consumed).Evolves t.world.purse
  /-- and the handle that the outcome has is the only one that is new. -/
  new : ∀ h, s.world.cell? h = none → (t.world.cell? h ≠ none ↔ o.value.handle? = some h)
  fresh : ∀ h, o.value.handle? = some h → s.world.cell? h = none

section Frame

variable {host : Host σ} {n : Nat} {heap : Heap} {v y : Script.Value} {r : Request} {s t : State σ}
  {e : Errand} {act : Activation} {c : Completion Script.Value} {vs ws : List (Visit σ)}
  {u : Visit σ} {next : Completion Script.Value → Program}

/-- An operation whose script ends with something that stands for what was raised tells the host
what was raised. -/
theorem surfaces_of_end {w : World} (he : r.errand? s.world = some e)
    (hact : s.world.context? e.owner = some act)
    (hscript : Steps host n (e.program act s.world) (e.opening act s) vs (.done c) t)
    (hclean : ∀ u ∈ vs, u.IsClean) (hpurse : w.purse = t.world.purse)
    (hconclude : conclude (invokeAt host n) e.owner act c t =
      .ok (⟨(w.encode e.owner y).1, true⟩, { t with world := (w.encode e.owner y).2 }))
    (hy : StandsFor heap v w.heap y) (hheap : heap.Evolves w.heap) (hv : v.IsIn heap) :
    ∃ a o t', Surfaces host n heap v r s e.owner a o t' := by
  have hrun : runProgram (invokeAt host n) (e.program act s.world) (e.opening act s) = .ok (c, t) :=
    hscript.runProgram_eq
  obtain ⟨a, houtcome, hanswer⟩ := answer_errand he hact hrun hconclude
  have hstore := World.SameStore.relinquish (w.encode e.owner y).2 (s.world.usesOwn e.owner) e.owner
  have hchain := hscript.chain
  rw [e.holding_opening, ← Request.consumed_of_errand he] at hchain
  have hyields : t.world.purse.Yields e.owner (w.encode e.owner y).1.handle?
      ((w.encode e.owner y).2.relinquish (s.world.usesOwn e.owner) e.owner).purse := by
    rw [hstore.purse, ← hpurse]
    exact World.yields_encode w e.owner y
  have hencoded : (w.encode e.owner y).2.heap = w.heap :=
    World.heap_congr (World.setting_encode _ _ _)
  have hpresents : ((w.encode e.owner y).2.relinquish (s.world.usesOwn e.owner) e.owner).Presents
      e.owner y (w.encode e.owner y).1 :=
    (World.presents_encode w e.owner y).congr hstore.heap fun h c hc => (hstore.cell? h).trans hc
  let ended : World := (w.encode e.owner y).2.relinquish (s.world.usesOwn e.owner) e.owner
  refine ⟨a, ⟨(w.encode e.owner y).1, true⟩, ⟨ended, t.host⟩, ?_⟩
  constructor
  case operates => exact Request.operatesOn_of_errand he
  case answered => exact hanswer
  case outcome => exact houtcome
  case exception => rfl
  case carries =>
    refine hpresents.carries ?_
    rw [hstore.heap, hencoded]
    exact hy
  case isIn => exact hv
  case evolvesHeap =>
    have hended : ended.heap = w.heap := hstore.heap.trans hencoded
    rw [hended]
    exact hheap
  case evolves => exact (hchain.evolves hscript.genuine).trans hyields.evolves
  case new =>
    intro h hbefore
    constructor
    · intro hafter
      rcases hchain.new hyields hbefore hafter with ho | ⟨u, hu, hleaves⟩
      · exact ho
      · exact absurd hleaves (hclean u hu h)
    · intro ho
      obtain ⟨-, -, x, hx⟩ := hchain.carried hscript.genuine hyields ho
      have hcell : ended.cell? h = some ⟨x, e.owner⟩ := (World.cell?_purse _ _).symm.trans hx
      rw [hcell]
      nofun
  case fresh =>
    intro h ho
    exact (World.cell?_purse _ _).symm.trans (hchain.carried hscript.genuine hyields ho).1

/-- The end of a script that throws. -/
theorem surfaces_of_thrown (he : r.errand? s.world = some e)
    (hact : s.world.context? e.owner = some act)
    (hscript : Steps host n (e.program act s.world) (e.opening act s) vs (.done (.thrown y)) t)
    (hclean : ∀ u ∈ vs, u.IsClean) (hy : StandsFor heap v t.world.heap y)
    (hheap : heap.Evolves t.world.heap) (hv : v.IsIn heap) :
    ∃ a o t', Surfaces host n heap v r s e.owner a o t' :=
  surfaces_of_end (w := t.world) he hact hscript hclean rfl rfl hy hheap hv

/-- What has happened in a script that was thrown something by a call of the host and has not caught
it. -/
theorem surfaces_of_uncaught (he : r.errand? s.world = some e)
    (hact : s.world.context? e.owner = some act)
    (hscript : Steps host n (e.program act s.world) (e.opening act s) vs (.call u.call next)
      u.before)
    (hu : u.Genuine host n) (hraised : u.outcome.isException = true)
    (huncaught : Uncaught host n next u.value u.resume ws t)
    (hclean : ∀ x ∈ vs ++ u :: ws, x.IsClean)
    (hy : StandsFor heap v u.resume.world.heap u.value)
    (hheap : heap.Evolves u.resume.world.heap) (hv : v.IsIn heap) :
    ∃ a o t', Surfaces host n heap v r s e.owner a o t' := by
  have hresult : u.result = .thrown u.value := if_pos hraised
  have hrest : Steps host n (.call u.call next) u.before (u :: ws) (.done (.thrown u.value)) t :=
    .visit hu (hresult ▸ huncaught.thrown)
  refine surfaces_of_thrown he hact (hscript.trans hrest) hclean ⟨?_, hy.same⟩
    (hheap.trans huncaught.thrown.evolvesHeap) hv
  rw [huncaught.untouched, hy.form]

end Frame

/-! ## What a relaying callback does -/

namespace Visit.Relays

variable {host : Host σ} {n : Nat} {heap : Heap} {v : Script.Value} {r : Request}
  {before after : State σ} {a : r.Answer} {u : Visit σ} {i : InstanceId}

theorem genuine (h : u.Relays host n r before a after)
    (hanswer : answer (invokeAt host n) r before = .ok (a, after)) :
    u.Genuine host (n + 1) := by
  obtain ⟨next, hleads, hnext⟩ := h.asks
  refine ⟨h.found, n, rfl, ?_⟩
  rw [hleads.run_eq, Act.run_ask, hanswer]
  exact hnext

/-- It leaves no handle behind: the one that the operation has left is taken from it. -/
theorem isClean (h : u.Relays host n r before a after)
    (hin : Surfaces host n heap v r before i a u.outcome after) : u.IsClean := by
  rintro x ⟨hbefore, hclosing⟩
  have hafter : u.after.world.cell? x ≠ none := fun hnone =>
    hclosing (Purse.cell?_takeValue_of_none (p := u.after.world.purse) hnone _)
  obtain ⟨hasked, hanswered⟩ := h.clears x hbefore hafter
  have hcarried : u.outcome.value.handle? = some x := (hin.new x hasked).mp hanswered
  exact hclosing (u.returned_taken hcarried)

/-- What the script is thrown stands for what was raised, in a heap that has come of the one in
which it was raised. -/
theorem standsFor (h : u.Relays host n r before a after)
    (hin : Surfaces host n heap v r before i a u.outcome after) :
    StandsFor heap v u.resume.world.heap u.value ∧ heap.Evolves u.resume.world.heap := by
  obtain ⟨next, -, hnext⟩ := h.asks
  have hheap : heap.Evolves u.resume.world.heap :=
    (hin.evolvesHeap.trans (evolvesHeap_of_run hnext)).trans u.evolvesHeap_resume
  have hpurse : after.world.purse.Evolves u.after.world.purse := evolves_of_run hnext
  refine ⟨?_, hheap⟩
  rw [Visit.heap_resume] at hheap ⊢
  refine hin.carries.decode hin.isIn (fun x c hx hc => ?_) _ hheap
  have hlt : x.id < after.world.purse.cells.size :=
    Purse.lt_of_cell? (p := after.world.purse) (by rw [World.cell?_purse, hc]; nofun)
  rcases hpurse.cell x hlt with hsame | hgone
  · exact (World.cell?_purse _ _).symm.trans (hsame.trans hc)
  · exact absurd hgone (h.keeps x hx)

end Visit.Relays

theorem conclude_limit (invoke : Invoke σ) (i : InstanceId) (act : Activation) (fault : LimitFault)
    (t : State σ) :
    let w : World := { t.world with heap := (limitError t.world.heap act fault).1 }
    let error : Script.Value := .object (limitError t.world.heap act fault).2
    conclude invoke i act (.limit fault) t =
      .ok (⟨(w.encode i error).1, true⟩, { t with world := (w.encode i error).2 }) :=
  rfl

/-- **By induction on the chain**: what was raised comes to the surface. -/
theorem Raises.surfaces {host : Host σ} {depth n : Nat} {r : Request} {s : State σ} {heap : Heap}
    {v : Script.Value} (h : Raises host depth n r s heap v) :
    ∃ i a o t, Surfaces host n heap v r s i a o t := by
  induction h with
  | thrown he hact hscript hclean hv =>
    exact ⟨_, surfaces_of_thrown he hact hscript hclean (.refl _ _) (.refl _) hv⟩
  | @limit n r s t e act vs fault he hact hscript hclean =>
    let w : World := { t.world with heap := (limitError t.world.heap act fault).1 }
    have hv : (Script.Value.object (limitError t.world.heap act fault).2).IsIn w.heap := by
      rintro q ⟨rfl⟩
      show t.world.heap.cells.size < (t.world.heap.cells.push _).size
      rw [Array.size_push]
      exact Nat.lt_succ_self _
    exact ⟨_, surfaces_of_end (w := w) he hact hscript hclean rfl (conclude_limit ..) (.refl _ _)
      (.refl _) hv⟩
  | callback he hact hscript hu hraised huncaught hclean hv =>
    exact ⟨_, surfaces_of_uncaught he hact hscript hu hraised huncaught hclean (.refl _ _) (.refl _)
      hv⟩
  | @relay depth n r r' s t before after a e act vs ws u next heap v he hact hscript hrelays hanswer
      _ huncaught hclean ih =>
    obtain ⟨i, a', o, t', hin⟩ := ih
    -- The answer that the callback got is the one that the induction speaks of.
    obtain ⟨rfl, rfl⟩ : a = a' ∧ after = t' := by
      have hsame := hanswer.symm.trans hin.answered
      exact Prod.mk.inj (Except.ok.inj hsame)
    obtain rfl : u.outcome = o := Option.some.inj (hrelays.returns.symm.trans hin.outcome)
    obtain ⟨hstands, hheap⟩ := hrelays.standsFor hin
    have hall : ∀ x ∈ vs ++ u :: ws, x.IsClean := by
      intro x hx
      rcases List.mem_append.mp hx with hx | hx
      · exact hclean x (List.mem_append_left _ hx)
      · rcases List.mem_cons.mp hx with rfl | hx
        · exact hrelays.isClean hin
        · exact hclean x (List.mem_append_right _ hx)
    exact ⟨_, surfaces_of_uncaught he hact hscript (hrelays.genuine hanswer) hin.exception huncaught
      hall hstands hheap hin.isIn⟩

/-! ## What the host is told -/

/-- What an operation tells the host, for an instance, when a value was raised in it that nobody has
caught. -/
structure Delivered (heap : Heap) (v : Script.Value) (r : Request) (s : State σ) (i : InstanceId)
    (o : Outcome) (t : State σ) : Prop where
  exception : o.isException = true
  /-- A primitive value is the same, -/
  null : v = .null → o.value = .null
  undefined : v = .undefined → o.value = .undefined
  boolean : ∀ b, v = .boolean b → o.value = .boolean b
  number : ∀ x, v = .number x → o.value = .number x
  /-- but a symbol and a bigint mean nothing to a host. -/
  foreign : v.IsForeign = true → o.value = .undefined
  /-- Of a string it gets a handle. -/
  text : ∀ x, v = .text x →
    ∃ h, o.value = .composite .string h ∧ t.world.cell? h = some ⟨.text x, i⟩
  /-- A date has the time that it had when it was raised. -/
  date : ∀ q time, v = .object q → (heap.object q).nature = .date time → o.value = .date time.ms
  /-- Any other object is the very same. -/
  object : ∀ q, v = .object q → (¬∃ time, (heap.object q).nature = .date time) →
    ∃ h, o.value = .composite (Kind.ofNature (heap.object q).nature) h
      ∧ t.world.cell? h = some ⟨.object q, i⟩ ∧ (t.world.referent h).sameValue v = true
  /-- Among the handles that are out and were not before there is the one of the outcome, if it has
  one, and no other. -/
  new : ∀ h, s.world.cell? h = none ∧ t.world.cell? h ≠ none ↔ o.value.handle? = some h
  /-- So if the host has given nothing back that was out before, but for what it passed, then the
  ledgers show one handle more if the outcome has one. -/
  live : ∀ p ms st, (Scene.start p).run ms = some ⟨s.world, st⟩ → isHostTurn st = true →
    (Purse.handlesOf r.consumed).Nodup →
    (∀ h, s.world.cell? h ≠ none → h ∉ Purse.handlesOf r.consumed → t.world.cell? h ≠ none) →
    ∀ j, (s.world.instance? j).isSome →
      t.world.purse.live j + s.world.purse.owned j (Purse.handlesOf r.consumed) =
        s.world.purse.live j + if i = j ∧ o.value.handle?.isSome = true then 1 else 0

namespace Surfaces

variable {host : Host σ} {n : Nat} {heap : Heap} {v : Script.Value} {r : Request} {s t : State σ}
  {i j : InstanceId} {a : r.Answer} {o : Outcome}

/-- What has a form of its own is told as that. -/
theorem value_eq (h : Surfaces host n heap v r s i a o t) {u : Value}
    (hform : Form.of heap v = .inline u) : o.value = u := by
  have hcarries := h.carries
  rw [World.Carries, hform] at hcarries
  exact hcarries

/-- What has a kind is told by a handle of it. -/
theorem exists_handle (h : Surfaces host n heap v r s i a o t) {kind : Kind}
    (hform : Form.of heap v = .composite kind) :
    ∃ x, o.value = .composite kind x ∧ t.world.cell? x = some ⟨v, i⟩ := by
  have hcarries := h.carries
  rw [World.Carries, hform] at hcarries
  exact hcarries

/-- The handle of the outcome is one of the operation's instance. -/
theorem cell_eq (h : Surfaces host n heap v r s i a o t) {x : Handle}
    (hx : o.value.handle? = some x) : t.world.cell? x = some ⟨v, i⟩ := by
  cases hform : Form.of heap v with
  | inline u =>
    rw [h.value_eq hform, Form.handle?_of_inline hform] at hx
    cases hx
  | composite kind =>
    obtain ⟨x', hvalue, hcell⟩ := h.exists_handle hform
    rw [hvalue] at hx
    obtain rfl := Option.some.inj hx
    exact hcell

/-- How many handles are out when an operation has ended and has given nothing back but what it was
passed. -/
theorem outstanding_eq (h : Surfaces host n heap v r s i a o t)
    (hkept : ∀ x, s.world.cell? x ≠ none → x ∉ Purse.handlesOf r.consumed →
      t.world.cell? x ≠ none) (j : InstanceId) :
    t.world.purse.outstanding j = (s.world.purse.takeAll r.consumed).outstanding j
      + if i = j ∧ o.value.handle?.isSome = true then 1 else 0 := by
  refine Purse.outstanding_of_new h.evolves (fun x hx => ?_) (fun x hx => ?_) (fun x hx => ?_) j
  · have hmem : x ∉ Purse.handlesOf r.consumed := fun hmem => hx (Purse.cell?_takeAll hmem)
    rw [Purse.cell?_takeAll_of_not_mem hmem] at hx
    exact hkept x hx hmem
  · by_cases hs : s.world.cell? x = none
    · exact h.new x hs
    · -- It was out before, so it is one that was passed, and it does not come back.
      have hmem : x ∈ Purse.handlesOf r.consumed := by
        refine Classical.byContradiction fun hmem => hs ?_
        rwa [Purse.cell?_takeAll_of_not_mem hmem] at hx
      have hlt : x.id < (s.world.purse.takeAll r.consumed).cells.size :=
        Nat.lt_of_lt_of_le (Purse.lt_of_cell? (p := s.world.purse) hs)
          (Purse.evolves_takeAll _ _).size
      have hgone : t.world.purse.cell? x = none := h.evolves.dead hlt hx
      exact ⟨fun hne => absurd hgone hne, fun ho => absurd (h.fresh x ho) hs⟩
  · exact ⟨Purse.cell?_takeAll_of_none (p := s.world.purse) (h.fresh x hx) _, v, h.cell_eq hx⟩

/-- The ledgers before and afterwards. -/
theorem live_eq (h : Surfaces host n heap v r s i a o t) (hs : s.world.purse.Conserved)
    (ht : t.world.purse.Conserved) (hn : (Purse.handlesOf r.consumed).Nodup)
    (hkept : ∀ x, s.world.cell? x ≠ none → x ∉ Purse.handlesOf r.consumed →
      t.world.cell? x ≠ none) (hj : (s.world.instance? j).isSome) :
    t.world.purse.live j + s.world.purse.owned j (Purse.handlesOf r.consumed) =
      s.world.purse.live j + if i = j ∧ o.value.handle?.isSome = true then 1 else 0 := by
  let taken := s.world.purse.takeAll r.consumed
  have hjs : (s.world.purse.ledger j).isSome := by rwa [World.purse, Option.isSome_map]
  have hjtaken : (taken.ledger j).isSome := (Purse.evolves_takeAll _ _).ledger j hjs
  have hcount := (hs.takeAll r.consumed).count j hjtaken
  have hbefore := hs.live_eq_balance hjs
  have hafter := ht.live_eq (h.evolves.ledger j hjtaken)
  have hout := h.outstanding_eq hkept j
  rw [Purse.balance_eq, Purse.tally_takeAll hjs hn, Purse.tally_takeAll hjs hn,
    Purse.tally_takeAll hjs hn] at hcount
  rw [Purse.balance_eq] at hbefore
  simp only [reduceCtorEq, if_false, if_true] at hcount
  omega

end Surfaces

/-- The ledgers are right before and after a request, in every scene that moves lead to. -/
theorem conserved_of_answer {host : Host σ} {n : Nat} {r : Request} {s t : State σ} {a : r.Answer}
    {p : Platform} {ms : List Move} {st : List CallFrame}
    (hrun : (Scene.start p).run ms = some ⟨s.world, st⟩) (hst : isHostTurn st = true)
    (h : answer (invokeAt host n) r s = .ok (a, t)) :
    s.world.purse.Conserved ∧ t.world.purse.Conserved := by
  have hs : s.world.purse.Conserved := Scene.conserved_run hrun (Scene.conserved_start p)
  have hask : (Act.request r).run (answer (invokeAt host n)) ⟨s.world, s.host⟩ = .ok (a, t) := by
    rw [Act.request, Act.run_ask, h]
    rfl
  obtain ⟨ns, hns⟩ := (Scene.follows ⟨s.world, st⟩).code host n _ _ _ _ hst hask
  exact ⟨hs, Scene.conserved_run hns hs⟩

/-- What has come to the surface is told the host. -/
theorem Surfaces.delivered {host : Host σ} {n : Nat} {heap : Heap} {v : Script.Value} {r : Request}
    {s t : State σ} {i : InstanceId} {a : r.Answer} {o : Outcome}
    (h : Surfaces host n heap v r s i a o t) : Delivered heap v r s i o t := by
  constructor
  case exception => exact h.exception
  case null =>
    rintro rfl
    exact h.value_eq rfl
  case undefined =>
    rintro rfl
    exact h.value_eq rfl
  case boolean =>
    rintro b rfl
    exact h.value_eq rfl
  case number =>
    rintro x rfl
    exact h.value_eq rfl
  case foreign => exact fun hforeign => h.value_eq (Form.of_foreign hforeign)
  case text =>
    rintro x rfl
    exact h.exists_handle rfl
  case date =>
    rintro q time rfl htime
    exact h.value_eq (Form.of_date htime)
  case object =>
    rintro q rfl hdate
    obtain ⟨x, hvalue, hcell⟩ := h.exists_handle (Form.of_object hdate)
    have hreferent : t.world.referent x = .object q := by
      rw [World.referent, hcell]
      rfl
    refine ⟨x, hvalue, hcell, ?_⟩
    rw [hreferent]
    exact Script.Value.sameValue_self _
  case new =>
    refine fun x => ⟨fun hx => (h.new x hx.1).mp hx.2, fun ho => ?_⟩
    exact ⟨h.fresh x ho, (h.new x (h.fresh x ho)).mpr ho⟩
  case live =>
    intro p ms st hrun hst hn hkept j hj
    obtain ⟨hs, ht⟩ := conserved_of_answer hrun hst h.answered
    exact h.live_eq hs ht hn hkept hj

/-! ## Chains of any length -/

/-- A host whose callback throws what it is called on, but first has itself called as often as the
state of the host says. -/
def Host.bouncer : Host Nat where
  native _ i this _ := .read fun
    | 0 => pure (.exception this)
    | d + 1 => .write d (Act.request (.call i ⟨0⟩ this []))
  wrapper _ _ _ this _ := pure ⟨this, 1⟩

/-- Whether the callback can be called through the first handle. -/
structure World.Bounces (w : World) (f : Script.Ref) : Prop where
  referent : w.referent ⟨0⟩ = .object f
  function : IsFunctionOf w.heap ⟨0, 1⟩ f
  callback : w.callbackOf ⟨0, 1⟩ = some (.native 7)
  context : ∃ act, w.context? 0 = some act ∧ act.HasRoom

/-- Calling it on a number changes nothing that matters, so that it can be called again. -/
theorem World.Bounces.steps {w : World} {f : Script.Ref} (h : w.Bounces f) (n d : Nat) :
    ∃ e act k s, (Request.call 0 ⟨0⟩ (.number 3) []).errand? w = some e
      ∧ w.context? e.owner = some act
      ∧ Steps Host.bouncer n (e.program act w) (e.opening act ⟨w, d⟩) [] (.call k .done) s
      ∧ k.anchor = ⟨0, 1⟩ ∧ k.this = .number 3 ∧ k.args = []
      ∧ s.host = d ∧ s.world.callbackOf ⟨0, 1⟩ = some (.native 7)
      ∧ (s.world.atEntry k).purse = s.world.purse ∧ (s.world.atEntry k).Bounces f := by
  obtain ⟨act, hact, hroom⟩ := h.context
  obtain ⟨e, ⟨a, x, xs, act'⟩, he, howner, hargs, rfl, ⟨realm, held, -, hact'⟩, hpassed, hsteps⟩ :=
    steps_call Host.bouncer n (s := ⟨w, d⟩) 0 (.number 3) [] h.referent h.function hroom
  obtain ⟨rfl, rfl⟩ : x = .number 3 ∧ xs = [] := List.cons.inj hpassed
  have hroom' : act'.HasRoom := by
    obtain rfl : act' = { act with realm, held } := hact'
    exact hroom
  let s := e.opening act ⟨w, d⟩
  let k : Script.HostCall := ⟨⟨0, 1⟩, .number 3, [], act'⟩
  have hopening : s.world.purse = w.purse := by
    have htaken : s.holding = ⟨w.purse.takeAll e.args, d⟩ := e.holding_opening act ⟨w, d⟩
    rw [hargs] at htaken
    exact congrArg Holding.purse htaken
  have hentry : (s.world.atEntry k).purse = s.world.purse := World.purse_enter _ _
  have hcallback : s.world.callbackOf ⟨0, 1⟩ = some (.native 7) :=
    (e.callbackOf_opening act ⟨w, d⟩ _).trans h.callback
  refine ⟨e, act, k, s, he, howner ▸ hact, hsteps, rfl, rfl, rfl, rfl, hcallback, hentry, ?_⟩
  constructor
  case referent =>
    rw [World.referent, ← World.cell?_purse, hentry, hopening, World.cell?_purse]
    exact h.referent
  case function =>
    rw [World.heap_atEntry]
    exact h.function.evolves (e.evolvesHeap_opening act ⟨w, d⟩)
  case callback => exact (World.callbackOf_atEntry _ _ _).trans hcallback
  case context =>
    have halive : (s.world.handOver k).isAlive 0 = true := by
      rw [World.callbackOf_eq] at hcallback
      exact (Option.ite_none_right_eq_some.mp hcallback).1
    exact ⟨act', World.context?_enter (v := ⟨⟨0, 1⟩, act'⟩) halive, hroom'⟩

/-- The number that it is called on is raised at the end of a chain of any length. -/
theorem World.Bounces.raises {w : World} {f : Script.Ref} (h : w.Bounces f) (d : Nat) : ∃ heap,
    Raises Host.bouncer d (d + 1) (.call 0 ⟨0⟩ (.number 3) []) ⟨w, d⟩ heap (.number 3) := by
  induction d generalizing w with
  | zero =>
    obtain ⟨e, act, ⟨a, x, xs, act'⟩, ⟨entering, g⟩, he, hact, hscript, rfl, rfl, rfl, rfl, hcb,
      hpurse, -⟩ := h.steps 1 0
    let k : Script.HostCall := ⟨⟨0, 1⟩, .number 3, [], act'⟩
    let u : Visit Nat := ⟨k, .native 7, ⟨entering, 0⟩, .exception (.number 3),
      ⟨entering.atEntry k, 0⟩⟩
    have hu : u.Genuine Host.bouncer 1 := ⟨hcb, 0, rfl, rfl⟩
    have hclean : u.IsClean := by
      rintro x ⟨hbefore, hclosing⟩
      refine hclosing ?_
      show (entering.atEntry k).purse.cell? x = none
      rw [hpurse]
      exact (World.cell?_purse _ _).trans hbefore
    refine ⟨_, .callback (u := u) he hact hscript hu rfl ⟨.refl _ _, rfl⟩ ?_ nofun⟩
    exact fun x hx => (List.mem_singleton.mp hx) ▸ hclean
  | succ d ih =>
    obtain ⟨e, act, ⟨a, x, xs, act'⟩, ⟨entering, g⟩, he, hact, hscript, rfl, rfl, rfl, rfl, hcb,
      hpurse, hagain⟩ := h.steps (d + 2) (d + 1)
    let k : Script.HostCall := ⟨⟨0, 1⟩, .number 3, [], act'⟩
    obtain ⟨heap, hinner⟩ := ih hagain
    obtain ⟨i, a, o, t, hin⟩ := hinner.surfaces
    obtain rfl : a = o := Option.some.inj hin.outcome
    have hvalue : Outcome.value a = .number 3 := hin.value_eq rfl
    let u : Visit Nat := ⟨k, .native 7, ⟨entering, d + 1⟩, a, t⟩
    have hrelays : u.Relays Host.bouncer (d + 1) _ ⟨entering.atEntry k, d⟩ a t := by
      constructor
      case found => exact hcb
      case asks => exact ⟨.done, .read (.write (.refl _ _)), rfl⟩
      case returns => exact hin.outcome
      case keeps =>
        intro x hx
        rw [show u.outcome.value = .number 3 from hvalue] at hx
        cases hx
      case clears =>
        refine fun x hbefore hafter => ⟨?_, hafter⟩
        show (entering.atEntry k).cell? x = none
        rw [← World.cell?_purse, hpurse, World.cell?_purse]
        exact hbefore
    refine ⟨heap, .relay (u := u) he hact hscript hrelays hin.answered hinner ⟨.refl _ _, rfl⟩ ?_⟩
    exact fun x hx => absurd hx List.not_mem_nil

/-- **Exceptions cross frames of the host.** Whatever is raised at the end of a chain of operations
and callbacks, the outermost operation tells the host, however long the chain is. -/
theorem exceptions_cross_frames {host : Host σ} {depth n : Nat} {r : Request} {s : State σ}
    {heap : Heap} {v : Script.Value} (h : Raises host depth n r s heap v) :
    ∃ i a o t, r.operatesOn? = some i ∧ answer (invokeAt host n) r s = .ok (a, t)
      ∧ r.outcome? a = some o ∧ Delivered heap v r s i o t := by
  obtain ⟨i, a, o, t, hsurfaces⟩ := h.surfaces
  exact ⟨i, a, o, t, hsurfaces.operates, hsurfaces.answered, hsurfaces.outcome,
    hsurfaces.delivered⟩

/-- A callback that is called on a number has itself called three times before it throws the number,
and the operation that has called it first tells the host the number. -/
theorem crossed_three_frames : ∃ c heap i a o t, (Scene.start .ready).run
      [.change (.newInstance ⟨9, 9, 9⟩), .change (.register 0 0 (.native 7))] = some c
    ∧ answer (invokeAt Host.bouncer 4) (.call 0 ⟨0⟩ (.number 3) []) ⟨c.world, 3⟩ = .ok (a, t)
    ∧ Request.outcome? (.call 0 ⟨0⟩ (.number 3) []) a = some o
    ∧ Delivered heap (.number 3) (.call 0 ⟨0⟩ (.number 3) []) ⟨c.world, 3⟩ i o t := by
  have hrun : ((Scene.start .ready).run
      [.change (.newInstance ⟨9, 9, 9⟩), .change (.register 0 0 (.native 7))]).any (fun c =>
      (c.world.context? 0).any (fun act => decide act.HasRoom)
        && c.world.holdsFirst (.native 7)) = true := by
    decide +kernel
  obtain ⟨c, hc, hobserved⟩ := (Option.any_eq_true _ _).mp hrun
  obtain ⟨hcontext, hholds⟩ := Bool.and_eq_true_iff.mp hobserved
  obtain ⟨act, hact, hroom⟩ := (Option.any_eq_true _ _).mp hcontext
  obtain ⟨r, owner, hr, hcb, hx⟩ := World.exists_of_holdsFirst hholds
  have haccount : Account _ c.world := (Scene.sound_run hc).account
  have hbounces : c.world.Bounces r.function := by
    constructor
    case referent =>
      rw [World.referent, hx]
      rfl
    case function => exact (Scene.placed_run hc).function 0 (1, r) hr
    case callback => exact (haccount.callbackOf_of_mem (a := ⟨0, 1⟩) hr).trans (congrArg some hcb)
    case context => exact ⟨act, hact, of_decide_eq_true hroom⟩
  obtain ⟨heap, hraises⟩ := hbounces.raises 3
  obtain ⟨i, a, o, t, -, hanswer, ho, hdelivered⟩ := exceptions_cross_frames hraises
  exact ⟨c, heap, i, a, o, t, hc, hanswer, ho, hdelivered⟩

end ScriptBoundary.Boundary
