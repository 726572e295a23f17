import ScriptBoundary.Proofs.Enumeration

/-!
# No object lists a key of its own twice

For an ordinary object this is a fact about its table. A proxy answers with what its trap gives, or
with the keys of its target, which may be a proxy again, and between its questions any script may
run. What is known of such an answer is only that it has been checked.

So the property has to be read off the code and not off the heap. A computation does not look into
what comes after it, it goes on with it; if it goes on only with values that have a property, then
it does not matter what would come after the others. `Comp.Yields` says that. It composes like the
computations do, and nothing need be known of a part whose value is only looked at.

## Main results

* `Comp.Yields.of_leads`: the value with which a computation ends has the property
* `yields_ownKeys`: whatever the object, its own keys are distinct
* `Builtin.yields_ownNames`: and so are its own names
-/

namespace List

variable {α : Type*} [BEq α]

theorem length_eraseDups_le : (l : List α) → l.eraseDups.length ≤ l.length
  | [] => Nat.le_refl _
  | a :: l => by
    have hrest : (l.filter fun b => !b == a).length ≤ l.length := length_filter_le _ _
    rw [eraseDups_cons]
    exact Nat.succ_le_succ ((length_eraseDups_le _).trans hrest)
termination_by l => l.length

variable [LawfulBEq α]

/-- **A list that loses nothing** when repetitions are dropped has none. -/
theorem nodup_of_length_eraseDups {l : List α} (h : l.eraseDups.length = l.length) : l.Nodup := by
  induction l with
  | nil => exact .nil
  | cons a l ih =>
    rw [eraseDups_cons, length_cons, length_cons, Nat.succ_inj] at h
    have hle := length_eraseDups_le (l.filter fun b => !b == a)
    have hall : l.filter (fun b => !b == a) = l :=
      filter_sublist.eq_of_length (le_antisymm (length_filter_le _ _) (h ▸ hle))
    rw [hall] at h
    refine nodup_cons.mpr ⟨fun ha => ?_, ih h⟩
    have hne := filter_eq_self.mp hall a ha
    rw [beq_self_eq_true] at hne
    cases hne

/-- A list without repetitions loses nothing. -/
theorem Nodup.eraseDups_eq {l : List α} (h : l.Nodup) : l.eraseDups = l := by
  induction l with
  | nil => rfl
  | cons a l ih =>
    obtain ⟨ha, hl⟩ := nodup_cons.mp h
    have hall : l.filter (fun b => !b == a) = l := filter_eq_self.mpr fun b hb => by
      have hne : b ≠ a := fun hba => ha (hba ▸ hb)
      rw [beq_false_of_ne hne]
      rfl
    rw [eraseDups_cons, hall, ih hl]

end List

namespace ScriptBoundary.Script

namespace Comp

open Boundary (Host State runProgram invokeAt)

/-! ## What a computation goes on with -/

section Yields

variable {α β σ : Type} {m : Comp α} {f : α → Comp β} {P Q : α → Prop} {R : β → Prop}

/-- Whether a computation goes on only with values that have a property, unless it fails: what
would come after other values makes no difference. -/
def Yields (m : Comp α) (P : α → Prop) : Prop :=
  ∀ (act : Activation) (next next' : Completion α → Program),
    (∀ a, P a → next (.value a) = next' (.value a)) →
    (∀ f : Failure, next f.completion = next' f.completion) → m act next = m act next'

/-- Nothing is known of the value. -/
theorem yields_any (m : Comp α) : m.Yields fun _ => True := fun act _ _ hvalue hfail =>
  congrArg (m act) <| funext fun c => match c with
    | .value a => hvalue a trivial
    | .thrown v => hfail (.thrown v)
    | .limit fault => hfail (.limit fault)

theorem yields_pure {a : α} (ha : P a) : (pure a : Comp α).Yields P :=
  fun _ _ _ hvalue _ => hvalue a ha

theorem yields_inspect {g : Heap → α} (hg : ∀ h, P (g h)) : (inspect g).Yields P :=
  fun _ _ _ hvalue _ => congrArg Program.look (funext fun h => hvalue _ (hg h))

theorem yields_throwType (message : String) : (throwType message : Comp α).Yields P :=
  fun act _ _ _ hfail => congrArg (newError .typeError message act) <| funext fun c => match c with
    | .value v => hfail (.thrown v)
    | .thrown v => hfail (.thrown v)
    | .limit fault => hfail (.limit fault)

theorem yields_exhausted : (exhausted : Comp α).Yields P := fun _ _ _ _ _ => rfl

theorem Yields.bind (hm : m.Yields Q) (hf : ∀ a, Q a → (f a).Yields R) : (m >>= f).Yields R :=
  fun act next next' hvalue hfail =>
    hm act _ _ (fun a ha => hf a ha act next next' hvalue hfail) fun e => match e with
      | .thrown v => hfail (.thrown v)
      | .limit fault => hfail (.limit fault)

/-- What comes after a part of which nothing is known. -/
theorem Yields.after (hf : ∀ a, (f a).Yields R) : (m >>= f).Yields R :=
  (yields_any m).bind fun a _ => hf a

theorem Yields.mono (hm : m.Yields Q) (h : ∀ a, Q a → P a) : m.Yields P :=
  fun act next next' hvalue hfail => hm act next next' (fun a ha => hvalue a (h a ha)) hfail

/-- **The value** that a computation ends with has the property. Otherwise it could be told from
the others by what comes after it. -/
theorem Yields.of_leads {host : Host σ} {n : Nat} {act : Activation} {s t : State σ} {a : α}
    (hm : m.Yields P) (hl : m.Leads host n act s (.value a) t) : P a := by
  classical
  by_contra ha
  obtain ⟨vs, hvs⟩ := hl
  let tell : Completion α → Program := fun c =>
    if ∃ b, c = .value b ∧ ¬P b then .done (.value .undefined) else .exhausted
  have hsame : m act tell = m act fun _ => .exhausted := by
    refine hm act _ _ (fun b hb => if_neg ?_) fun f => if_neg ?_
    · rintro ⟨b', heq, hb'⟩
      exact hb' (Completion.value.inj heq ▸ hb)
    · rintro ⟨b', heq, -⟩
      cases f <;> cases heq
  have htold : runProgram (invokeAt host n) (m act tell) s = .ok (.value .undefined, t) :=
    (hvs tell).runProgram_eq.trans (by rw [show tell (.value a) = _ from if_pos ⟨a, rfl, ha⟩]; rfl)
  have hnot := (hvs fun _ => .exhausted).runProgram_eq
  rw [← hsame, htold] at hnot
  cases hnot

/-- A fold that keeps some of the elements of a list. -/
theorem yields_foldList {g : List α → α → Comp (List α)} {as : List α}
    (hg : ∀ out a, (g out a).Yields fun res => res = out ∨ res = out ++ [a]) (out : List α) :
    (foldList g out as).Yields fun res => ∃ kept, kept.Sublist as ∧ res = out ++ kept := by
  induction as generalizing out with
  | nil => exact yields_pure ⟨[], .slnil, (List.append_nil out).symm⟩
  | cons a as ih =>
    refine (hg out a).bind fun out' hout => (ih out').mono ?_
    rintro res ⟨kept, hkept, rfl⟩
    rcases hout with rfl | rfl
    · exact ⟨kept, hkept.cons a, rfl⟩
    · exact ⟨a :: kept, hkept.cons_cons a, List.append_assoc _ _ _⟩

end Yields

end Comp

/-! ## Own keys -/

open Script.Comp

namespace Machine

/-- A trap's answer has been checked. -/
theorem yields_proxyOwnKeys {m : Machine} (hm : ∀ r, (m.ownKeys r).Yields List.Nodup)
    (parts : Option (Ref × Ref)) : (m.proxyOwnKeys parts).Yields List.Nodup := by
  refine Yields.after fun found => ?_
  obtain ⟨target, handler, trap⟩ := found
  cases trap with
  | none => exact hm target
  | some f =>
    refine Yields.after fun answer => Yields.after fun ks => ?_
    by_cases hks : ks.eraseDups.length = ks.length
    · have hchecked : (pure ks : Comp (List Key)).Yields List.Nodup :=
        yields_pure (List.nodup_of_length_eraseDups hks)
      rw [if_neg (by simp [hks])]
      refine Yields.after fun extensible => Yields.after fun own => Yields.after fun fixed => ?_
      -- Whatever is found out about the target, the keys are the ones that were checked.
      repeat' split
      all_goals first | exact hchecked | exact yields_throwType _
    · rw [if_pos (by simpa using hks)]
      exact yields_throwType _

theorem yields_ownKeys_ofDepth (library : Builtins) (depth : Nat) (r : Ref) :
    (Machine.ownKeys (Machine.ofDepth library depth) r).Yields List.Nodup := by
  induction depth generalizing r with
  | zero => exact yields_exhausted
  | succ depth ih =>
    refine Yields.after fun o => ?_
    split
    · exact yields_proxyOwnKeys ih _
    · refine (yields_inspect (P := fun o : Object => o.keys.Nodup) fun h => ?_).bind fun o ho => ?_
      · exact (h.object r).nodup_keys
      · exact yields_pure ho

end Machine

/-- **The own keys of an object** are distinct, whatever it is and whatever it answers. -/
theorem yields_ownKeys (r : Ref) : (machine.ownKeys r).Yields List.Nodup :=
  Machine.yields_ownKeys_ofDepth _ _ r

namespace Builtin

theorem nodup_named (r : Ref) {ks : List Key} (h : ks.Nodup) :
    ((named r ks).map (·.2.2)).Nodup := by
  rw [map_named]
  exact Key.nodup_filterMap_text? h

/-- **The own names of an object** are distinct, be it asked for all of them or for those that are
enumerable. -/
theorem yields_ownNames (r : Ref) (enumerable : Bool) :
    (ownNames machine (.object r) enumerable).Yields fun ns => (ns.map (·.2.2)).Nodup := by
  refine Yields.after fun q => (yields_ownKeys q).bind fun ks hks => ?_
  have hnames := nodup_named q hks
  cases enumerable with
  | false => exact yields_pure hnames
  | true =>
    refine (yields_foldList (fun out name => Yields.after fun slot => ?_) []).mono ?_
    · cases slot with
      | none => exact yields_pure (.inl rfl)
      | some s => exact yields_pure (by split <;> simp)
    · rintro res ⟨kept, hkept, rfl⟩
      exact hnames.sublist (hkept.map _)

end Builtin

end ScriptBoundary.Script
