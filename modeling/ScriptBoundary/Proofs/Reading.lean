import ScriptBoundary.Proofs.Distinct
import ScriptBoundary.Proofs.Elements
import ScriptBoundary.Proofs.Enclosure.Machine
import ScriptBoundary.Proofs.Limits
import ScriptBoundary.Proofs.Texts

/-!
# Reading a text, and converting to one

A host has two ways to get the text of a value. It can read it, which borrows the handle, gives a
text and keeps quiet about failures; or it can have the value converted, which takes a handle and
gives a string with a handle, or an exception. In between there is a conversion that may run any
script and call the host back, and it is the same conversion.

That is to be taken literally. Reading through a handle, and converting a clone of it, run one
script from one state, if the clone that is not converted is given back: then there is nothing left
in which the two could differ before the script has ended (`ReadsAsConverted.reads`, `converts`). So
the callbacks that are called are the same ones, with the same handles, whatever they do, and what
is compared is only how the end of the script is told (`Told`).

What a clone costs cannot be argued away. It takes a number, and two counters of its owner move.
A host that looks at them in a callback may act upon them; a script cannot, so a conversion that
does not call the host does the same from the state before there was a clone
(`ReadsAsConverted.quiet`).

## Main results

* `exists_steps_of_runProgram`: a script that runs to its end gets there by steps
* `Steps.of_sameHeap`: without calls of the host, only the heap matters
* `reading_agrees_with_converting`: the two requests
-/

namespace ScriptBoundary.Boundary

open Script (Activation Comp Completion LimitFault Program)

variable {σ α : Type} {host : Host σ} {n : Nat} {i : InstanceId} {h h' : Handle} {act : Activation}

/-! ## Runs and steps -/

/-- **A script that runs to its end** gets there by steps. -/
theorem exists_steps_of_runProgram {p : Program} {s t : State σ} {c : Completion Script.Value}
    (hrun : runProgram (invokeAt host n) p s = .ok (c, t)) :
    ∃ vs, Steps host n p s vs (.done c) t := by
  induction p generalizing s with
  | done result =>
    cases hrun
    exact ⟨[], .refl _ _⟩
  | look next ih =>
    obtain ⟨vs, hvs⟩ := ih _ hrun
    exact ⟨vs, .look hvs⟩
  | edit e next ih =>
    obtain ⟨vs, hvs⟩ := ih _ hrun
    exact ⟨vs, .edit hvs⟩
  | exhausted => cases hrun
  | call k next ih =>
    rw [runProgram_call] at hrun
    cases n with
    | zero => cases hrun
    | succ n =>
      cases hk : s.world.callbackOf k.anchor with
      | none =>
        rw [invokeAt_gone hk] at hrun
        obtain ⟨vs, hvs⟩ := ih _ hrun
        exact ⟨vs, .gone hk (Nat.succ_ne_zero n) hvs⟩
      | some cb =>
        rw [invokeAt_succ hk] at hrun
        cases hcode : host.code n k cb s with
        | error e =>
          rw [hcode] at hrun
          cases hrun
        | ok q =>
          rw [hcode] at hrun
          obtain ⟨vs, hvs⟩ := ih _ hrun
          exact ⟨_, .visit (v := ⟨k, cb, s, q.1, q.2⟩) ⟨hk, n, rfl, hcode⟩ hvs⟩

/-- **A script that does not call the host** does the same in every state that has the same heap and
in which the same callbacks are gone, and changes nothing but the heap. -/
theorem Steps.of_sameHeap {p q : Program} {s t : State σ} {vs : List (Visit σ)}
    (h : Steps host n p s vs q t) (hvs : vs = []) :
    t = s.withHeap t.world.heap ∧ ∀ s' : State σ, s'.world.heap = s.world.heap →
      (∀ a, s.world.callbackOf a = none → s'.world.callbackOf a = none) →
      Steps host n p s' [] q (s'.withHeap t.world.heap) := by
  induction h with
  | refl p s => exact ⟨rfl, fun s' hheap _ => hheap ▸ .refl _ _⟩
  | look _ ih =>
    obtain ⟨hsame, hrun⟩ := ih hvs
    exact ⟨hsame, fun s' hheap hgone => .look (hheap.symm ▸ hrun s' hheap hgone)⟩
  | @edit e next s t vs q _ ih =>
    obtain ⟨hsame, hrun⟩ := ih hvs
    refine ⟨hsame, fun s' hheap hgone => .edit ?_⟩
    rw [hheap]
    exact hrun (s'.withHeap (s.world.heap.apply e).1) rfl hgone
  | visit => cases hvs
  | gone hk hn _ ih =>
    obtain ⟨hsame, hrun⟩ := ih hvs
    exact ⟨hsame, fun s' hheap hgone => .gone (hgone _ hk) hn (hrun s' hheap hgone)⟩

/-! ## Contexts and handles -/

namespace World

variable {w : World}

/-- Where an operation runs does not depend on accounts, -/
theorem context?_updateLedger (w : World) (j : InstanceId) (f : Ledger → Ledger) :
    (w.updateLedger j f).context? i = w.context? i := by
  have hlive : (w.updateLedger j f).live? i =
      (w.live? i).map fun x => if j = i then { x with ledger := f x.ledger } else x := by
    rw [live?, live?, updateLedger, instance?_updateInstance]
    cases w.instance? i with
    | none => split <;> rfl
    | some x => cases hx : x.isLive <;> by_cases hij : j = i <;> simp [Option.filter, hx, hij]
  rw [context?, context?, hlive, Option.bind_map]
  refine Option.bind_congr fun x _ => ?_
  by_cases hij : j = i <;> simp only [Function.comp_apply, hij, if_true, if_false] <;> rfl

/-- and so it does not depend on handles. -/
theorem context?_releaseHandle : (w.releaseHandle h).context? i = w.context? i := by
  rw [releaseHandle]
  split
  · rfl
  · exact context?_updateLedger _ _ _

theorem context?_cloneHandle : (w.cloneHandle h).2.context? i = w.context? i := by
  rw [cloneHandle]
  split
  · rfl
  · exact context?_updateLedger _ _ _

theorem usesOwn_releaseHandle : (w.releaseHandle h).usesOwn i = w.usesOwn i :=
  congrArg Option.isNone (lentBy_congr (calls_releaseHandle w h) i)

theorem occupy_releaseHandle : (w.releaseHandle h).occupy i = (w.occupy i).releaseHandle h := by
  rw [occupy, occupy, usesOwn_releaseHandle]
  split
  · exact borrow_releaseHandle
  · rfl

/-- Whether a context is given back before or after a handle is made makes no difference. -/
theorem relinquish_newHandle (own : Bool) (v : Script.Value) :
    (w.newHandle i v).2.relinquish own i = ((w.relinquish own i).newHandle i v).2 := by
  cases own with
  | false => rfl
  | true => exact updateInstance_comm fun _ => rfl

theorem relinquish_encode (own : Bool) (v : Script.Value) :
    (w.relinquish own i).encode i v =
      ((w.encode i v).1, (w.encode i v).2.relinquish own i) := by
  have hheap : (w.relinquish own i).heap = w.heap := (SameStore.relinquish w own i).heap
  cases hform : Form.of w.heap v with
  | inline u => rw [encode_inline hform, encode_inline (hheap.symm ▸ hform)]
  | composite kind =>
    have hsize : (w.relinquish own i).handles = w.handles := by cases own <;> rfl
    rw [encode_composite hform, encode_composite (hheap.symm ▸ hform), relinquish_newHandle, hsize]

/-- A context that is borrowed and given back is as it was. -/
theorem relinquish_occupy (hact : w.context? i = some act) :
    (w.occupy i).relinquish (w.usesOwn i) i = w := by
  obtain ⟨x, hx, hfree⟩ := Option.bind_eq_some_iff.mp hact
  obtain ⟨hinstance, -⟩ := live?_eq_some_iff.mp hx
  rw [occupy, usesOwn, lentBy_of_live? hx]
  cases hl : x.lent with
  | some lent => rfl
  | none =>
    have hb : x.borrowed = false := by
      cases hb : x.borrowed with
      | false => rfl
      | true =>
        rw [hl, hb] at hfree
        cases hfree
    have hinstances : (w.instances.modify i fun x => { x with borrowed := true }).modify i
        (fun x => { x with borrowed := false }) = w.instances := by
      refine Array.ext_getElem? fun k => ?_
      simp only [Array.getElem?_modify]
      split
      · next hk =>
        have hy : w.instances[k]? = some x := hk ▸ hinstance
        rw [hy]
        simp [← hb]
      · rfl
    show ({ w with
      instances := (w.instances.modify i fun x => { x with borrowed := true }).modify i
        (fun x => { x with borrowed := false }) } : World) = w
    rw [hinstances]

end World

/-! ## A conversion -/

/-- **How a script ends** that stays inside, if there is no outside. -/
theorem Steps.stays {last : Completion Script.Value → Prop} {p q : Program} {s t : State σ}
    {vs : List (Visit σ)} (h : Steps host n p s vs q t) (hp : p.Stays (fun _ => True) last) :
    q.Stays (fun _ => True) last := by
  induction h with
  | refl p s => exact hp
  | look _ ih => exact ih (hp _ (Script.Heap.within_everywhere _))
  | edit _ ih => exact ih (hp.2 _ fun _ => trivial)
  | visit _ _ ih => exact ih (hp.2 _ (Script.Completion.within_everywhere _))
  | gone _ _ _ ih => exact ih (hp.2 _ (Script.Completion.within_everywhere _))

/-- The script that converts what a handle refers to. -/
def World.conversion (w : World) (h : Handle) (act : Activation) : Program :=
  (Operation.toText (w.referent h)).start act

/-- The state in which an operation has given back the context that it used. -/
def State.vacated (t : State σ) (own : Bool) (i : InstanceId) : State σ :=
  { t with world := t.world.relinquish own i }

/-- An operation that changes the heap only leaves everything else as it was. -/
theorem State.vacated_withHeap {s : State σ} (hact : s.world.context? i = some act)
    (heap : Script.Heap) :
    ((s.occupied i).withHeap heap).vacated (s.world.usesOwn i) i = s.withHeap heap := by
  have hswap : ∀ (w : World) own,
      { w with heap }.relinquish own i = { w.relinquish own i with heap } :=
    fun w own => by cases own <;> rfl
  have hworld := (hswap (s.world.occupy i) (s.world.usesOwn i)).trans
    (congrArg (fun w : World => { w with heap }) (World.relinquish_occupy hact))
  exact congrArg (fun w => ({ s with world := w } : State σ)) hworld

/-- A text is converted without a step. -/
theorem World.conversion_of_text {w : World} {x : Text} (hx : w.referent h = .text x) :
    w.conversion h act = .done (.value (.text x)) := by
  rw [conversion, hx]
  rfl

/-- A conversion ends with a text, or fails. -/
theorem World.stays_conversion (w : World) (h : Handle) (act : Activation) :
    (w.conversion h act).Stays (fun _ => True) fun c => ∀ v, c = .value v → ∃ x, v = .text x := by
  refine Comp.Stays.operationToText (Script.Value.within_everywhere _) _ _
    (Program.inherits_stays _) act (fun _ => .done) fun c hc => ?_
  rintro v rfl
  exact hc

theorem World.exists_text_of_steps {w : World} {s t : State σ} {vs : List (Visit σ)}
    {y : Script.Value}
    (hscript : Steps host n (w.conversion h act) s vs (.done (.value y)) t) : ∃ x, y = .text x :=
  hscript.stays (w.stays_conversion h act) y rfl

section Requests

variable {s : State σ}

/-- What is read through a handle to anything but a text is converted in a context. -/
theorem Request.work_toUtf8 {invoke : Invoke σ} {w : World} (hother : ∀ x, w.referent h ≠ .text x) :
    Request.work invoke w (.toUtf8 i h) = some fun act => do
      return textOf (← runIn invoke act (Operation.toText (w.referent h))) := by
  rw [Request.work]
  split
  · next x hx => exact absurd hx (hother x)
  · rfl

/-- **Reading** runs the conversion and gives the text of its end. -/
theorem answer_toUtf8_eq (invoke : Invoke σ) (hact : s.world.context? i = some act) :
    answer invoke (.toUtf8 i h) s =
      (runProgram invoke (s.world.conversion h act) (s.occupied i)).map fun q =>
        (textOf q.1, q.2.vacated (s.world.usesOwn i) i) := by
  by_cases htext : ∃ x, s.world.referent h = .text x
  · obtain ⟨x, hx⟩ := htext
    have halive : s.world.isAlive i = true :=
      (World.context?_isSome_iff.mp (Option.isSome_iff_exists.mpr ⟨act, hact⟩)).1
    have hsame : (s.occupied i).vacated (s.world.usesOwn i) i = s :=
      congrArg (fun w => ({ s with world := w } : State σ)) (World.relinquish_occupy hact)
    rw [answer_toUtf8 invoke halive hx, World.conversion_of_text hx]
    show _ = Except.ok (x.toString, (s.occupied i).vacated (s.world.usesOwn i) i)
    rw [hsame]
  · have hrun : (runIn invoke act (Operation.toText (s.world.referent h)) >>= fun c =>
        (pure (textOf c) : Run σ String)) { s with world := s.world.occupy i } =
        (runProgram invoke (s.world.conversion h act) (s.occupied i)).map fun q =>
          (textOf q.1, q.2) := by
      rw [Run.bind_apply, runIn, World.conversion, State.occupied]
      cases runProgram invoke _ _ <;> rfl
    rw [answer_eq_inContext (r := .toUtf8 i h) rfl (Request.work_toUtf8 (not_exists.mp htext)),
      inContext_of_context hact, hrun]
    cases runProgram invoke (s.world.conversion h act) (s.occupied i) <;> rfl

/-- An operation is a run of its script and then what is made of the end. -/
theorem operateIn_bind (invoke : Invoke σ) (i : InstanceId) (args : List Value)
    (comp : List Script.Value → Comp Script.Value) (act : Activation) (s : State σ) :
    operateIn invoke i args comp act s =
      (runProgram invoke ((comp (s.world.decodeAll act.realm args).1).start act)
        { s with world := (s.world.decodeAll act.realm args).2 }).bind fun q =>
          conclude invoke i act q.1 q.2 := by
  rw [operateIn_apply, runIn]
  cases runProgram invoke _ _ <;> rfl

/-- **Converting** takes the handle over, runs the conversion, and hands out what comes of it. -/
theorem answer_toText_composite (invoke : Invoke σ) (hact : s.world.context? i = some act)
    (kind : Kind) :
    answer invoke (.toText i (.composite kind h)) s =
      (runProgram invoke (s.world.conversion h act) ((s.without h).occupied i)).bind fun q =>
        (conclude invoke i act q.1 q.2).map fun a => (a.1, a.2.vacated (s.world.usesOwn i) i) := by
  have hreferent : (s.occupied i).world.referent h = s.world.referent h :=
    (World.SameStore.occupy s.world i).referent h
  have hstart : (s.occupied i).without h = (s.without h).occupied i :=
    congrArg (fun w => ({ s with world := w } : State σ)) World.occupy_releaseHandle.symm
  have hrun : operateIn invoke i [.composite kind h] (fun vs =>
      Operation.toText (vs.headD .undefined)) act { s with world := s.world.occupy i } =
      (runProgram invoke (s.world.conversion h act) ((s.without h).occupied i)).bind fun q =>
        conclude invoke i act q.1 q.2 := by
    rw [← hstart, World.conversion, ← hreferent]
    exact (operateIn_composite ..).trans (operateIn_bind ..)
  rw [answer_eq_inContext (r := .toText i (.composite kind h)) rfl rfl, inContext_of_context hact,
    hrun]
  cases runProgram invoke (s.world.conversion h act) ((s.without h).occupied i) with
  | error e => rfl
  | ok q =>
    dsimp only [Except.bind]
    cases conclude invoke i act q.1 q.2 <;> rfl

end Requests

/-! ## What is made of the end -/

/-- The state in which a range error has been made for a limit. -/
def State.raising (t : State σ) (act : Activation) (l : LimitFault) : State σ :=
  t.withHeap (limitError t.world.heap act l).1

/-- The state in which a value has been handed to the host. -/
def State.handing (t : State σ) (i : InstanceId) (v : Script.Value) : State σ :=
  { t with world := (t.world.encode i v).2 }

/-- **How the end of a conversion is told**: the text that is read, and the outcome of converting
with the state in which the host gets it. For the reader `t` is that state. -/
inductive Told (i : InstanceId) (act : Activation) (t : State σ) :
    Completion Script.Value → String → Outcome → State σ → Prop where
  /-- The reader gets the text, the other one a string. -/
  | text (x : Text) : Told i act t (.value (.text x)) x.toString
      (.ok (.composite .string ⟨t.world.handles.size⟩)) (t.withHandle i (.text x))
  /-- The reader is not told what was thrown. -/
  | thrown (v : Script.Value) : Told i act t (.thrown v) "" (.exception (t.world.encode i v).1)
      (t.handing i v)
  /-- Nor is it told of a limit, and the error is not made for it. -/
  | limit (l : LimitFault) : Told i act t (.limit l) ""
      (.exception ((t.raising act l).world.encode i (.object (limitError t.world.heap act l).2)).1)
      ((t.raising act l).handing i (.object (limitError t.world.heap act l).2))

section Told

variable {t u : State σ} {c : Completion Script.Value} {text : String} {o : Outcome} {own : Bool}

theorem State.vacated_handing (t : State σ) (own : Bool) (i : InstanceId) (v : Script.Value) :
    (t.handing i v).vacated own i = (t.vacated own i).handing i v :=
  congrArg (fun w => ({ t with world := w } : State σ))
    (congrArg Prod.snd (World.relinquish_encode own v)).symm

theorem State.fst_encode_vacated (t : State σ) (own : Bool) (i : InstanceId) (v : Script.Value) :
    ((t.vacated own i).world.encode i v).1 = (t.world.encode i v).1 := by
  have hencode := congrArg Prod.fst (World.relinquish_encode (w := t.world) (i := i) own v)
  exact hencode

/-- The context is given back after the outcome is handed out, and it may as well be before. -/
theorem told_conclude (invoke : Invoke σ) (i : InstanceId) (act : Activation) (own : Bool)
    (t : State σ) (hc : ∀ v, c = .value v → ∃ x, v = .text x) :
    ∃ o u, conclude invoke i act c t = .ok (o, u) ∧
      Told i act (t.vacated own i) c (textOf c) o (u.vacated own i) := by
  cases c with
  | value v =>
    obtain ⟨x, rfl⟩ := hc v rfl
    refine ⟨_, _, rfl, ?_⟩
    have hsize : (t.vacated own i).world.handles.size = t.world.handles.size := by cases own <;> rfl
    have htold : Told i act (t.vacated own i) _ _ _ _ := .text x
    have hturn :
        (t.vacated own i).withHandle i (.text x) = (t.withHandle i (.text x)).vacated own i :=
      (t.vacated_handing own i (.text x)).symm
    rw [hsize, hturn] at htold
    exact htold
  | thrown v =>
    refine ⟨_, _, rfl, ?_⟩
    have htold : Told i act (t.vacated own i) _ _ _ _ := .thrown v
    rw [State.fst_encode_vacated, ← State.vacated_handing] at htold
    exact htold
  | limit l =>
    refine ⟨_, _, conclude_limit .., ?_⟩
    have hraising : (t.vacated own i).raising act l = (t.raising act l).vacated own i := by
      cases own <;> rfl
    have herror :
        limitError (t.vacated own i).world.heap act l = limitError t.world.heap act l := by
      cases own <;> rfl
    have htold : Told i act (t.vacated own i) _ _ _ _ := .limit l
    rw [hraising, herror, State.fst_encode_vacated, ← State.vacated_handing] at htold
    exact htold

/-- A string that is handed out is the text that the reader gets, -/
theorem Told.string (h : Told i act t c text o u) (ho : o.isException = false) :
    ∃ k x, o.value = .composite .string k ∧ u.world.referent k = .text x ∧ text = x.toString := by
  cases h with
  | text x => exact ⟨_, x, rfl, World.referent_newHandle_new _ _ _, rfl⟩
  | _ => cases ho

/-- and where there is an exception, the reader gets none. -/
theorem Told.empty (h : Told i act t c text o u) (ho : o.isException = true) : text = "" := by
  cases h with
  | text x => cases ho
  | _ => rfl

theorem Told.keepsHost (h : Told i act t c text o u) : u.host = t.host := by cases h <;> rfl

/-- Handing out the outcome adds the error for a limit to the heap, and nothing else. -/
theorem Told.heap (h : Told i act t c text o u) : u.world.heap = t.world.heap ∨
    ∃ l, c = .limit l ∧ u.world.heap = (limitError t.world.heap act l).1 := by
  cases h with
  | text x => exact .inl rfl
  | thrown v => exact .inl (World.heap_congr (World.setting_encode _ _ _))
  | limit l => exact .inr ⟨l, rfl, World.heap_congr (World.setting_encode _ _ _)⟩

/-- It leaves the tables of callbacks alone, -/
theorem Told.table (h : Told i act t c text o u) (j : InstanceId) :
    u.world.table j = t.world.table j := by
  cases h with
  | text x => exact World.table_congr (World.calls_newHandle _ _ _) j
  | thrown v => exact World.table_congr (World.calls_encode _ _ _) j
  | limit l => exact World.table_congr (World.calls_encode _ _ _) j

/-- and the handles that are out. -/
theorem Told.cell? (h : Told i act t c text o u) {k : Handle} {d : HandleCell}
    (hk : t.world.cell? k = some d) : u.world.cell? k = some d := by
  have hencode : ∀ (w : World) v, w.cell? k = some d → (w.encode i v).2.cell? k = some d := by
    intro w v hw
    have hlt : k.id < w.purse.cells.size :=
      Purse.lt_of_cell? (by rw [World.cell?_purse, hw]; exact Option.some_ne_none d)
    rw [← World.cell?_purse, (World.yields_encode w i v).cell? hlt, World.cell?_purse, hw]
  cases h with
  | text x => exact hencode t.world (.text x) hk
  | thrown v => exact hencode _ v hk
  | limit l => exact hencode _ _ hk

end Told

/-! ## With and without a clone -/

/-- The state in which a handle has been cloned. -/
def State.withClone (s : State σ) (h : Handle) : State σ :=
  { s with world := (s.world.cloneHandle h).2 }

/-- Two states that differ in accounts only, and in the number that the next handle gets. -/
structure State.Agrees (s t : State σ) : Prop where
  setting : t.world.setting = s.world.setting
  calls : t.world.calls = s.world.calls
  cell : ∀ k, t.world.cell? k = s.world.cell? k
  context : ∀ i, t.world.context? i = s.world.context? i
  host : t.host = s.host

/-- **A clone that is given back** leaves its number behind, and what it cost. -/
theorem State.agrees_withClone {s : State σ} {c : HandleCell} (hc : s.world.cell? h = some c) :
    s.Agrees ((s.withClone h).without ⟨s.world.handles.size⟩) where
  setting := (World.setting_releaseHandle _ _).trans (World.setting_cloneHandle _ _)
  calls := (World.calls_releaseHandle _ _).trans (World.calls_cloneHandle _ _)
  context i := World.context?_releaseHandle.trans World.context?_cloneHandle
  host := rfl
  cell k := by
    let p := s.world.purse
    have hp : p.cell? h = some c := hc
    have hpurse : ((s.withClone h).without ⟨s.world.handles.size⟩).world.purse =
        (p.copy h).take ⟨p.cells.size⟩ :=
      (World.purse_releaseHandle _ _).trans
        (congrArg (fun q : Purse => q.take ⟨p.cells.size⟩) (World.purse_cloneHandle s.world h))
    rw [← World.cell?_purse, hpurse, ← World.cell?_purse]
    by_cases hk : k = ⟨p.cells.size⟩
    · rw [hk, Purse.cell?_take]
      exact (Purse.cell?_eq_none_of_le (Nat.le_refl _)).symm
    · rw [Purse.cell?_take_of_ne hk, Purse.copy, hp]
      exact Purse.cell?_make_of_ne c.owner c.value hk

/-! ## The two requests -/

/-- **How reading through a handle and converting a clone of it compare.** `s` is the state in which
there is the clone `h'`, and `s₁` the one in which it has been given back. Callbacks are what
`invokeAt` makes of the host. -/
structure ReadsAsConverted (host : Host σ) (n : Nat) (s₀ : State σ) (i : InstanceId) (h : Handle)
    (kind : Kind) (act : Activation) (s : State σ) (h' : Handle) (s₁ : State σ) (p : Program) :
    Prop where
  clone : answer (invokeAt host n) (.clone h) s₀ = .ok (h', s)
  release : answer (invokeAt host n) (.release h') s = .ok ((), s₁)
  /-- What is left of the clone shows in accounts only. -/
  agrees : s₀.Agrees s₁
  /-- Reading runs a script, and gives the text of its end. -/
  reads : ∀ invoke : Invoke σ, answer invoke (.toUtf8 i h) s₁ =
    (runProgram invoke p (s₁.occupied i)).map fun q =>
      (textOf q.1, q.2.vacated (s₁.world.usesOwn i) i)
  /-- Converting the clone runs the same script from the same state, whatever answers its calls, and
  hands out its end. -/
  converts : ∀ invoke : Invoke σ, answer invoke (.toText i (.composite kind h')) s =
    (runProgram invoke p (s₁.occupied i)).bind fun q =>
      (conclude invoke i act q.1 q.2).map fun a => (a.1, a.2.vacated (s₁.world.usesOwn i) i)
  /-- Both tell the end of the script, and that tells what each of them does. -/
  told : ∀ vs c t, Steps host n p (s₁.occupied i) vs (.done c) t → ∃ o u,
    Told i act (t.vacated (s₁.world.usesOwn i) i) c (textOf c) o u
    ∧ answer (invokeAt host n) (.toUtf8 i h) s₁ =
      .ok (textOf c, t.vacated (s₁.world.usesOwn i) i)
    ∧ answer (invokeAt host n) (.toText i (.composite kind h')) s = .ok (o, u)
  /-- One fails if and only if the other one does, in the same way. -/
  fails : ∀ e, answer (invokeAt host n) (.toUtf8 i h) s₁ = .error e ↔
    answer (invokeAt host n) (.toText i (.composite kind h')) s = .error e
  /-- When the conversion gives a string, its text is the one that is read, and it is read back
  so; -/
  same : ∀ text t o u, answer (invokeAt host n) (.toUtf8 i h) s₁ = .ok (text, t) →
    answer (invokeAt host n) (.toText i (.composite kind h')) s = .ok (o, u) →
    o.isException = false → ∃ k, o.value = .composite .string k
      ∧ ∀ j, u.world.isAlive j = true → answer (invokeAt host n) (.toUtf8 j k) u = .ok (text, u)
  /-- and when it gives an exception, the text is empty. -/
  empty : ∀ text t o u, answer (invokeAt host n) (.toUtf8 i h) s₁ = .ok (text, t) →
    answer (invokeAt host n) (.toText i (.composite kind h')) s = .ok (o, u) →
    o.isException = true → text = ""
  /-- They leave the same store, but for the handle of the outcome and for the error that is made
  for a limit. -/
  store : ∀ text t o u, answer (invokeAt host n) (.toUtf8 i h) s₁ = .ok (text, t) →
    answer (invokeAt host n) (.toText i (.composite kind h')) s = .ok (o, u) →
    (u.world.heap = t.world.heap ∨ ∃ l, u.world.heap = (limitError t.world.heap act l).1)
    ∧ (∀ j, u.world.table j = t.world.table j) ∧ u.host = t.host
    ∧ ∀ k c, t.world.cell? k = some c → u.world.cell? k = some c
  /-- All that happens to handles while a text is read, the calls of the host do. So the handle
  stays what it is, unless one of them gives it up. -/
  handles : ∀ text t, answer (invokeAt host n) (.toUtf8 i h) s₁ = .ok (text, t) → ∃ vs c t',
    Steps host n p (s₁.occupied i) vs (.done c) t' ∧ t = t'.vacated (s₁.world.usesOwn i) i
    ∧ Chain s₁.holding vs t.holding
    ∧ ∀ d, s₁.world.cell? h = some d →
      (∀ v ∈ vs, v.before.world.cell? h = some d → v.resume.world.cell? h = some d) →
      t.world.cell? h = some d
  /-- Without calls of the host it makes no difference whether there was a clone, and reading
  changes nothing but the heap. -/
  quiet : ∀ c t, Steps host n p (s₁.occupied i) [] (.done c) t →
    answer (invokeAt host n) (.toUtf8 i h) s₀ = .ok (textOf c, s₀.withHeap t.world.heap)

section Compare

variable {s s₁ : State σ} {p : Program} {kind : Kind} {own : Bool}

/-- A handle that is out stays out along a chain if it does in every call. -/
theorem Chain.cell? {a b : State σ} {vs : List (Visit σ)} (hchain : Chain a.holding vs b.holding)
    {d : HandleCell} (ha : a.world.cell? h = some d)
    (hvs : ∀ v ∈ vs, v.before.world.cell? h = some d → v.resume.world.cell? h = some d) :
    b.world.cell? h = some d := by
  have hcell : ∀ x : State σ, x.holding.purse.cell? h = x.world.cell? h :=
    fun x => World.cell?_purse _ _
  rw [← hcell] at ha ⊢
  generalize a.holding = q at hchain ha
  induction vs generalizing q with
  | nil =>
    obtain rfl : b.holding = q := hchain
    exact ha
  | cons v vs ih =>
    obtain ⟨hbefore, hrest⟩ := hchain
    obtain ⟨hv, hvs⟩ := List.forall_mem_cons.mp hvs
    refine ih hvs v.closing hrest ?_
    rw [← v.holding_resume, hcell]
    refine hv ?_
    rw [← hcell, hbefore, ha]

/-- What two requests give that run one conversion, and tell its end in two ways. -/
structure Compared (host : Host σ) (n : Nat) (i : InstanceId) (act : Activation) (own : Bool)
    (p : Program) (s : State σ) (vs : List (Visit σ)) (read : Except Fault (String × State σ))
    (converted : Except Fault (Outcome × State σ)) (c : Completion Script.Value) (t : State σ)
    (o : Outcome) (u : State σ) : Prop where
  steps : Steps host n p s vs (.done c) t
  told : Told i act (t.vacated own i) c (textOf c) o u
  read : read = .ok (textOf c, t.vacated own i)
  converted : converted = .ok (o, u)

variable {w : World} {s : State σ} {read : Except Fault (String × State σ)}
  {converted : Except Fault (Outcome × State σ)}

/-- From the end of the script. -/
theorem compared_of_steps {vs : List (Visit σ)} {c : Completion Script.Value} {t : State σ}
    (hread : read = (runProgram (invokeAt host n) (w.conversion h act) s).map fun q =>
      (textOf q.1, q.2.vacated own i))
    (hconverted : converted = (runProgram (invokeAt host n) (w.conversion h act) s).bind fun q =>
      (conclude (invokeAt host n) i act q.1 q.2).map fun a => (a.1, a.2.vacated own i))
    (hsteps : Steps host n (w.conversion h act) s vs (.done c) t) : ∃ o u,
    Compared host n i act own (w.conversion h act) s vs read converted c t o u := by
  have hrun : runProgram (invokeAt host n) (w.conversion h act) s = .ok (c, t) :=
    hsteps.runProgram_eq
  have hc : ∀ v, c = .value v → ∃ x, v = .text x := fun v hv =>
    World.exists_text_of_steps (hv ▸ hsteps)
  obtain ⟨o, u, hconclude, htold⟩ := told_conclude (invokeAt host n) i act own t hc
  refine ⟨o, u.vacated own i, hsteps, htold, by rw [hread, hrun]; rfl, ?_⟩
  rw [hconverted, hrun]
  dsimp only [Except.bind]
  rw [hconclude]
  rfl

/-- **Both fail, or both tell the end of the script.** -/
theorem compared
    (hread : read = (runProgram (invokeAt host n) (w.conversion h act) s).map fun q =>
      (textOf q.1, q.2.vacated own i))
    (hconverted : converted = (runProgram (invokeAt host n) (w.conversion h act) s).bind fun q =>
      (conclude (invokeAt host n) i act q.1 q.2).map fun a => (a.1, a.2.vacated own i)) :
    (∃ e, read = .error e ∧ converted = .error e) ∨ ∃ vs c t o u,
      Compared host n i act own (w.conversion h act) s vs read converted c t o u := by
  cases hrun : runProgram (invokeAt host n) (w.conversion h act) s with
  | error e =>
    rw [hrun] at hread hconverted
    exact .inl ⟨e, hread, hconverted⟩
  | ok q =>
    obtain ⟨vs, hsteps⟩ := exists_steps_of_runProgram hrun
    obtain ⟨o, u, hcompared⟩ := compared_of_steps hread hconverted hsteps
    exact .inr ⟨vs, _, _, o, u, hcompared⟩

end Compare

/-- **Reading a text and converting to one** are the same conversion. -/
theorem reading_agrees_with_converting (host : Host σ) (n : Nat) (s₀ : State σ) (i : InstanceId)
    (h : Handle) (kind : Kind) (hlive : s₀.world.cell? h ≠ none)
    (hcontext : (s₀.world.context? i).isSome) : ∃ act s h' s₁ p,
    ReadsAsConverted host n s₀ i h kind act s h' s₁ p := by
  obtain ⟨act, hact⟩ := Option.isSome_iff_exists.mp hcontext
  obtain ⟨cell, hcell⟩ := Option.ne_none_iff_exists'.mp hlive
  let s := s₀.withClone h
  let h' : Handle := ⟨s₀.world.handles.size⟩
  let s₁ := s.without h'
  let p := s₀.world.conversion h act
  have hagrees : s₀.Agrees s₁ := State.agrees_withClone hcell
  have hact₁ : s₁.world.context? i = some act := (hagrees.context i).trans hact
  have hact' : s.world.context? i = some act := World.context?_cloneHandle.trans hact
  have hp₁ : s₁.world.conversion h act = p := by
    rw [World.conversion, World.referent, hagrees.cell]
    rfl
  have hown : s.world.usesOwn i = s₁.world.usesOwn i := World.usesOwn_releaseHandle.symm
  have hclone : s₀.world.cloneHandle h = (h', s.world) := by
    show _ = (h', (s₀.world.cloneHandle h).2)
    rw [World.cloneHandle, hcell]
  have hp' : s.world.conversion h' act = p := by
    have hcell' : s.world.cell? h' = some cell := by
      rw [← World.cell?_purse, show s.world.purse = s₀.world.purse.copy h from
        World.purse_cloneHandle _ _, Purse.copy, show s₀.world.purse.cell? h = some cell from hcell]
      exact Purse.cell?_make _ _ _
    rw [World.conversion, World.referent, hcell', ← hcell]
    rfl
  have hreads : ∀ invoke : Invoke σ, answer invoke (.toUtf8 i h) s₁ =
      (runProgram invoke p (s₁.occupied i)).map fun q =>
        (textOf q.1, q.2.vacated (s₁.world.usesOwn i) i) :=
    fun invoke => hp₁ ▸ answer_toUtf8_eq invoke hact₁
  have hconverts : ∀ invoke : Invoke σ, answer invoke (.toText i (.composite kind h')) s =
      (runProgram invoke p (s₁.occupied i)).bind fun q =>
        (conclude invoke i act q.1 q.2).map fun a => (a.1, a.2.vacated (s₁.world.usesOwn i) i) :=
    fun invoke => hp' ▸ hown ▸ answer_toText_composite invoke hact' kind
  have hboth := compared (hreads (invokeAt host n)) (hconverts (invokeAt host n))
  -- What is read is what is told of the end of the script.
  have hends : ∀ text t, answer (invokeAt host n) (.toUtf8 i h) s₁ = .ok (text, t) →
      ∃ vs c t' o u, Compared host n i act (s₁.world.usesOwn i) p (s₁.occupied i) vs
        (answer (invokeAt host n) (.toUtf8 i h) s₁)
        (answer (invokeAt host n) (.toText i (.composite kind h')) s) c t' o u
        ∧ text = textOf c ∧ t = t'.vacated (s₁.world.usesOwn i) i := by
    intro text t hread
    rcases hboth with ⟨e, herror, -⟩ | ⟨vs, c, t', o, u, hcompared⟩
    · cases hread.symm.trans herror
    · have hsame := Except.ok.inj (hread.symm.trans hcompared.read)
      exact ⟨vs, c, t', o, u, hcompared, congrArg Prod.fst hsame, congrArg Prod.snd hsame⟩
  refine ⟨act, s, h', s₁, p, ?_⟩
  constructor
  case clone => exact congrArg (fun q => Except.ok (q.1, (⟨q.2, s₀.host⟩ : State σ))) hclone
  case release => rfl
  case agrees => exact hagrees
  case reads => exact hreads
  case converts => exact hconverts
  case told =>
    intro vs c t hsteps
    obtain ⟨o, u, hcompared⟩ :=
      compared_of_steps (hreads (invokeAt host n)) (hconverts (invokeAt host n)) hsteps
    exact ⟨o, u, hcompared.told, hcompared.read, hcompared.converted⟩
  case fails =>
    intro e
    rcases hboth with ⟨e', hread, hconverted⟩ | ⟨vs, c, t, o, u, hcompared⟩
    · rw [hread, hconverted]
      exact ⟨fun he => congrArg _ (Except.error.inj he), fun he => congrArg _ (Except.error.inj he)⟩
    · rw [hcompared.read, hcompared.converted]
      constructor <;> intro he <;> cases he
  case same =>
    intro text t o u hread hconverted ho
    obtain ⟨vs, c, t', o', u', hcompared, rfl, -⟩ := hends text t hread
    obtain ⟨rfl, rfl⟩ := Prod.mk.inj (Except.ok.inj (hconverted.symm.trans hcompared.converted))
    obtain ⟨k, x, hvalue, hreferent, htext⟩ := hcompared.told.string ho
    exact ⟨k, hvalue, fun j halive => htext ▸ answer_toUtf8 _ halive hreferent⟩
  case empty =>
    intro text t o u hread hconverted ho
    obtain ⟨vs, c, t', o', u', hcompared, rfl, -⟩ := hends text t hread
    obtain ⟨rfl, rfl⟩ := Prod.mk.inj (Except.ok.inj (hconverted.symm.trans hcompared.converted))
    exact hcompared.told.empty ho
  case store =>
    intro text t o u hread hconverted
    obtain ⟨vs, c, t', o', u', hcompared, -, rfl⟩ := hends text t hread
    obtain ⟨rfl, rfl⟩ := Prod.mk.inj (Except.ok.inj (hconverted.symm.trans hcompared.converted))
    refine ⟨hcompared.told.heap.imp_right ?_, hcompared.told.table, hcompared.told.keepsHost,
      fun k d => hcompared.told.cell?⟩
    rintro ⟨l, -, hl⟩
    exact ⟨l, hl⟩
  case handles =>
    intro text t hread
    obtain ⟨vs, c, t', o', u', hcompared, -, rfl⟩ := hends text t hread
    have hchain := hcompared.steps.chain
    have hstart : (s₁.occupied i).holding = s₁.holding :=
      congrArg (fun q => (⟨q, s₁.host⟩ : Holding σ)) (World.SameStore.occupy s₁.world i).purse
    have hend : (t'.vacated (s₁.world.usesOwn i) i).holding = t'.holding :=
      congrArg (fun q => (⟨q, t'.host⟩ : Holding σ)) (World.SameStore.relinquish t'.world _ i).purse
    rw [hstart, ← hend] at hchain
    exact ⟨vs, c, t', hcompared.steps, rfl, hchain, fun d hd hvs => hchain.cell? hd hvs⟩
  case quiet =>
    intro c t hsteps
    have hheap : (s₀.occupied i).world.heap = (s₁.occupied i).world.heap := by
      rw [s₀.heap_occupied, s₁.heap_occupied, World.heap_congr hagrees.setting]
    have hgone : ∀ a, (s₁.occupied i).world.callbackOf a = none →
        (s₀.occupied i).world.callbackOf a = none := fun a ha => by
      rw [State.occupied, (World.SameStore.occupy _ _).callbackOf] at ha ⊢
      rwa [← World.callbackOf_congr hagrees.calls]
    have hquiet := (hsteps.of_sameHeap rfl).2 (s₀.occupied i) hheap hgone
    rw [answer_toUtf8_eq _ hact, hquiet.runProgram_eq]
    have hstate := State.vacated_withHeap hact t.world.heap
    exact congrArg (fun u => Except.ok (textOf c, u)) hstate

/-- A host that counts its calls. -/
def Host.counter : Host Nat where
  native _ _ _ _ := do
    Act.modify (· + 1)
    return .ok (.boolean true)
  wrapper _ _ _ this _ := pure ⟨this, 0⟩

/-- An instance, a function object of the host, and an object that has it as its `toString`. -/
def selfTelling : List Move :=
  [.change (.newInstance ⟨9, 9, 99⟩), .change (.register 0 257 (.native 7)),
    .change (.edit (.newObject .plain none
      (.ofList [(.ofString "toString", .plain (.object 258))]))),
    .change (.newHandle 0 (.object 259))]

/-- The object is converted by the host, which is called once when it is read. -/
theorem read_by_the_host : ∃ c, (Scene.start .ready).run selfTelling = some c
    ∧ c.world.cell? ⟨1⟩ ≠ none ∧ (c.world.context? 0).isSome
    ∧ ((answer (invokeAt Host.counter 2) (.toUtf8 0 ⟨1⟩) ⟨c.world, 0⟩).toOption.map
      fun q => (q.1, q.2.host)) = some ("true", 1)
    ∧ ∃ act s h' s₁ p,
      ReadsAsConverted Host.counter 2 ⟨c.world, 0⟩ 0 ⟨1⟩ .object act s h' s₁ p := by
  have hrun : ((Scene.start .ready).run selfTelling).any (fun c =>
      (c.world.cell? ⟨1⟩).isSome && (c.world.context? 0).isSome
        && ((answer (invokeAt Host.counter 2) (.toUtf8 0 ⟨1⟩) ⟨c.world, 0⟩).toOption.map
          fun q => (q.1, q.2.host)) == some ("true", 1)) = true := by
    decide +kernel
  obtain ⟨c, hc, hobserved⟩ := (Option.any_eq_true _ _).mp hrun
  simp only [Bool.and_eq_true, beq_iff_eq] at hobserved
  obtain ⟨⟨hcell, hcontext⟩, hread⟩ := hobserved
  have hlive : c.world.cell? ⟨1⟩ ≠ none := Option.isSome_iff_ne_none.mp hcell
  exact ⟨c, hc, hlive, hcontext, hread,
    reading_agrees_with_converting Host.counter 2 ⟨c.world, 0⟩ 0 ⟨1⟩ .object hlive hcontext⟩

end ScriptBoundary.Boundary
