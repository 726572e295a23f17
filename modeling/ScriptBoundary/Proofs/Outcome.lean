import ScriptBoundary.Proofs.Steps

/-!
# How computations end

A computation is a script with a hole for what comes after it. Where it begins and what comes after
does not matter for how it ends, so that can be said of the computation alone, and it composes: two
computations one after the other end as the second one does where the first one left off.

`Comp.Gives` says that a computation comes to an end by itself, with which value, and what heap it
leaves; `Comp.Ends` says the same where only a property of the two is known. A computation that may
call the host leads from one state to another, and may fail: that is `Comp.Leads`.

## Main results

* `Comp.Gives.bind`, `Comp.Leads.bind`: one computation after another
* `Comp.Leads.fail`: what comes after a failure is not done
* `Comp.Leads.unique`: a computation ends in one way only
-/

namespace ScriptBoundary.Boundary

/-- A state with another heap. -/
def State.withHeap {σ : Type} (s : State σ) (h : Script.Heap) : State σ :=
  { s with world := { s.world with heap := h } }

end ScriptBoundary.Boundary

namespace ScriptBoundary.Script

/-- The end of a computation that ends without a value. -/
inductive Failure where
  | thrown (v : Value)
  | limit (fault : LimitFault)

def Failure.completion {α : Type} : Failure → Completion α
  | .thrown v => .thrown v
  | .limit fault => .limit fault

namespace Comp

open Boundary (Host State Steps runIn invokeAt)

/-! ## By themselves -/

section Gives

variable {α β : Type} {m : Comp α} {f : α → Comp β} {act : Activation} {h h' h'' : Heap} {a : α}
  {b : β} {Q : α → Heap → Prop} {R : β → Heap → Prop}

/-- Whether a computation comes to an end by itself, with a value, and which heap it leaves. -/
structure Gives (m : Comp α) (act : Activation) (h : Heap) (a : α) (h' : Heap) : Prop where
  steps : ∀ {σ : Type} (host : Host σ) (n : Nat) (s : State σ) (next : Completion α → Program),
    s.world.heap = h → Steps host n (m act next) s [] (next (.value a)) (s.withHeap h')

theorem gives_pure (a : α) : (pure a : Comp α).Gives act h a h := by
  constructor
  rintro σ host n s next rfl
  exact .refl _ _

theorem Gives.bind (hm : m.Gives act h a h') (hf : (f a).Gives act h' b h'') :
    (m >>= f).Gives act h b h'' := by
  constructor
  rintro σ host n s next rfl
  exact (hm.steps host n s _ rfl).trans (hf.steps host n (s.withHeap h') next rfl)

theorem gives_inspect (f : Heap → α) : (inspect f).Gives act h (f h) h := by
  constructor
  rintro σ host n s next rfl
  exact .look (.refl _ _)

theorem gives_perform (e : Edit) : (perform e).Gives act h (h.apply e).2 (h.apply e).1 := by
  constructor
  rintro σ host n s next rfl
  exact .edit (.refl _ _)

theorem gives_performOnly (e : Edit) : (performOnly e).Gives act h () (h.apply e).1 := by
  constructor
  rintro σ host n s next rfl
  exact .edit (.refl _ _)

theorem gives_activation : activation.Gives act h act h := by
  constructor
  rintro σ host n s next rfl
  exact .refl _ _

theorem Gives.within {g : Activation → Activation} (hm : m.Gives (g act) h a h') :
    (Comp.within g m).Gives act h a h' := ⟨hm.steps⟩

/-- Whether a computation comes to an end by itself, with a value and a heap of which something is
known. -/
def Ends (m : Comp α) (act : Activation) (h : Heap) (Q : α → Heap → Prop) : Prop :=
  ∃ a h', m.Gives act h a h' ∧ Q a h'

theorem Gives.ends (hm : m.Gives act h a h') (hq : Q a h') : m.Ends act h Q := ⟨a, h', hm, hq⟩

/-- A computation that goes on from what another one gives. -/
theorem Gives.andThen (hm : m.Gives act h a h') (hf : (f a).Ends act h' R) :
    (m >>= f).Ends act h R := by
  obtain ⟨b, h'', hb, hr⟩ := hf
  exact ⟨b, h'', hm.bind hb, hr⟩

theorem Ends.bind (hm : m.Ends act h Q) (hf : ∀ a h', Q a h' → (f a).Ends act h' R) :
    (m >>= f).Ends act h R := by
  obtain ⟨a, h', ha, hq⟩ := hm
  exact ha.andThen (hf a h' hq)

/-- Doing something for each element of a list, when it keeps what is known of the heap. -/
theorem ends_forList {P : List α → Heap → Prop} {f : α → Comp Unit} {as : List α}
    (hstep : ∀ done a h, P done h → a ∈ as → (f a).Ends act h fun _ h' => P (done ++ [a]) h')
    (done : List α) (hp : P done h) : (forList f as).Ends act h fun _ h' => P (done ++ as) h' := by
  induction as generalizing done h with
  | nil => exact (gives_pure ()).ends (by rwa [List.append_nil])
  | cons a as ih =>
    refine (hstep done a h hp List.mem_cons_self).bind fun _ h₁ hp₁ => ?_
    have hrest := ih (fun done a h hp ha => hstep done a h hp (List.mem_cons_of_mem _ ha))
      (done ++ [a]) hp₁
    rwa [List.append_assoc] at hrest

/-- Checking each element of a list changes nothing. -/
theorem gives_forList {f : α → Comp Unit} {as : List α}
    (hstep : ∀ a ∈ as, (f a).Gives act h () h) : (forList f as).Gives act h () h := by
  induction as with
  | nil => exact gives_pure ()
  | cons a as ih =>
    exact (hstep a List.mem_cons_self).bind
      (ih fun a' ha' => hstep a' (List.mem_cons_of_mem _ ha'))

/-- Gathering those elements of a list that pass a check, where the check changes nothing. -/
theorem gives_foldList_filter {f : List α → α → Comp (List α)} {p : α → Bool} {as : List α}
    (hf : ∀ a ∈ as, ∀ out, (f out a).Gives act h (if p a then out ++ [a] else out) h)
    (out : List α) : (foldList f out as).Gives act h (out ++ as.filter p) h := by
  induction as generalizing out with
  | nil => exact (List.append_nil out).symm ▸ gives_pure out
  | cons a as ih =>
    have hnext : out ++ (a :: as).filter p = (if p a then out ++ [a] else out) ++ as.filter p := by
      rw [List.filter_cons]
      split
      · exact (List.append_assoc out [a] _).symm
      · rfl
    rw [hnext]
    exact (hf a List.mem_cons_self out).bind
      (ih (fun a' ha' => hf a' (List.mem_cons_of_mem _ ha')) _)

theorem gives_intrinsic (i : Intrinsic) :
    (intrinsic i).Gives act h ((h.realm act.realm).base + i.ctorIdx) h :=
  gives_activation.bind ((gives_inspect _).bind (gives_pure _))

theorem gives_newObject (nature : Nature) (proto : Option Ref) (props : Props) :
    (newObject nature proto props).Gives act h h.cells.size
      (h.add (.object ⟨nature, proto, true, props, none⟩)).1 :=
  gives_perform (.newObject nature proto props)

theorem gives_newPlain : newPlain.Gives act h h.cells.size (h.add (.object ⟨.plain,
    some ((h.realm act.realm).base + Intrinsic.objectPrototype.ctorIdx), true, ∅, none⟩)).1 :=
  (gives_intrinsic _).bind (gives_newObject _ _ _)

end Gives

/-! ## With calls of the host -/

section Leads

variable {α β σ : Type} {host : Host σ} {n : Nat} {m : Comp α} {g : α → Comp β} {act : Activation}
  {h h' : Heap} {s t u : State σ} {a : α} {b : β} {f : Failure} {c d : Completion α}

/-- Whether a computation ends in a certain way when it starts in a state, and in which state. It
may call the host on the way. -/
def Leads (host : Host σ) (n : Nat) (m : Comp α) (act : Activation) (s : State σ) (c : Completion α)
    (t : State σ) : Prop :=
  ∃ vs, ∀ next : Completion α → Program, Steps host n (m act next) s vs (next c) t

theorem Gives.leads (hm : m.Gives act h a h') (hs : s.world.heap = h) :
    m.Leads host n act s (.value a) (s.withHeap h') :=
  ⟨[], fun next => hm.steps host n s next hs⟩

/-- A computation that finds its value without a change. -/
theorem Gives.leads_same (hm : m.Gives act s.world.heap a s.world.heap) :
    m.Leads host n act s (.value a) s := hm.leads rfl

theorem Leads.bind {e : Completion β} (hm : m.Leads host n act s (.value a) t)
    (hg : (g a).Leads host n act t e u) : (m >>= g).Leads host n act s e u := by
  obtain ⟨vs, hvs⟩ := hm
  obtain ⟨ws, hws⟩ := hg
  exact ⟨vs ++ ws, fun next => (hvs _).trans (hws next)⟩

/-- What comes after a failure is not done. -/
theorem Leads.fail (hm : m.Leads host n act s f.completion t) (g : α → Comp β) :
    (m >>= g).Leads host n act s f.completion t := by
  obtain ⟨vs, hvs⟩ := hm
  refine ⟨vs, fun next => ?_⟩
  cases f <;> exact hvs _

/-- A computation ends in one way only. -/
theorem Leads.unique (hm : m.Leads host n act s c t) (hm' : m.Leads host n act s d u) :
    c = d ∧ t = u := by
  classical
  obtain ⟨vs, hvs⟩ := hm
  obtain ⟨ws, hws⟩ := hm'
  let mark : Completion α → Program := fun x => .done (.value (.boolean (decide (x = c))))
  have hsame := (hvs mark).runProgram_eq.symm.trans (hws mark).runProgram_eq
  injection hsame with hsame
  injection hsame with hvalue hstate
  injection hvalue with hvalue
  injection hvalue with hvalue
  rw [decide_eq_true rfl] at hvalue
  exact ⟨(of_decide_eq_true hvalue.symm).symm, hstate⟩

theorem Leads.evolves (hm : m.Leads host n act s c t) : s.world.heap.Evolves t.world.heap := by
  obtain ⟨vs, hvs⟩ := hm
  exact (hvs fun _ => .exhausted).evolvesHeap

theorem leads_throwType (message : String) :
    ∃ v t, (throwType message : Comp α).Leads host n act s (.thrown v) t := by
  have herror : ∃ v h', (newError .typeError message).Gives act s.world.heap v h' :=
    ⟨_, _, (gives_intrinsic _).bind ((gives_newObject _ _ _).bind (gives_pure _))⟩
  obtain ⟨v, h', hv⟩ := herror
  exact ⟨v, _, (hv.leads rfl).bind ⟨[], fun _ => .refl _ _⟩⟩

theorem Leads.runIn_eq {m : Comp Value} {c : Completion Value}
    (hm : m.Leads host n act s c t) : runIn (invokeAt host n) act m s = .ok (c, t) := by
  obtain ⟨vs, hvs⟩ := hm
  exact (hvs .done).runProgram_eq

end Leads

end Comp

end ScriptBoundary.Script
