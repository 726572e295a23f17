import ScriptBoundary.Proofs.Enclosure.Statement
import ScriptBoundary.Script.Call

/-!
# Calls stay inside, if the built-in functions do
-/

namespace ScriptBoundary.Script

variable {K : Ref → Prop} {m : Machine} {r : Ref} {c : Closure} {this v : Value}
  {args : List Value} {library : Builtins}

/-- What a built-in function is called with is inside. -/
structure BuiltinCall.Within (K : Ref → Prop) (c : BuiltinCall) : Prop where
  callee : K c.callee
  this : c.this.Within K
  args : ValuesWithin K c.args
  newTarget : ∀ t ∈ c.newTarget, K t

theorem BuiltinCall.Within.arg {c : BuiltinCall} (hc : c.Within K) (i : Nat) :
    (c.arg i).Within K := hc.args.getD i

/-- **Built-in functions that stay inside.** -/
def Builtins.Stay (K : Ref → Prop) (library : Builtins) : Prop :=
  ∀ name run, library name = some run → ∀ (m : Machine) (c : BuiltinCall), m.Stays K →
    c.Within K → (run m c).Stays K (Value.Within K)

/-- The parameters of a call. -/
theorem within_bindParams : ∀ (names : List String) (vs : List Value) (out : Array Binding),
    ValuesWithin K vs → (∀ b ∈ out, b.Within K) → ∀ b ∈ bindParams names vs out, b.Within K
  | [], _, _, _, hout => hout
  | n :: ns, vs, out, hvs, hout => by
    unfold bindParams
    refine within_bindParams ns _ _ hvs.tail ?_
    have hnew : (⟨n, some (vs.headD .undefined), true, true⟩ : Binding).Within K :=
      .present hvs.headD
    split
    · exact forall_mem_setIfInBounds hout hnew
    · exact Array.forall_mem_push.mpr ⟨hnew, hout⟩

namespace Comp

variable {α : Type} {Q : α → Prop}

theorem Stays.checkLimits {slots : Nat} : (Script.checkLimits slots).Stays K fun _ => True :=
  .bind .activation fun _ _ => .ite (.exceed _) (.when (.exceed _))

/-- A call makes its scope, and an arguments object first if a condition holds. -/
theorem Stays.shareIf {cond : Prop} [Decidable cond] {s : Scope} {g : Ref → Ref → Comp Unit}
    {rest : Ref → Unit → Comp α} (hs : s.Within K) (hr : K r) (ha : ValuesWithin K args)
    (hg : ∀ scope a, K a → (g scope a).Stays K fun _ => True)
    (hrest : ∀ scope u, (rest scope u).Stays K Q) :
    (Comp.perform (.newScope s) >>= fun scope => Comp.holdingRefs [scope]
      (if cond then newArguments c r scope args >>= fun a => g scope a >>= rest scope
        else rest scope ())).Stays K Q := by
  by_cases h : cond
  · simp only [if_pos h]
    exact .share hs hr ha fun scope a hk => (hg scope a hk).bind fun u _ => hrest scope u
  · simp only [if_neg h]
    exact .bind (.perform rfl hs) fun scope _ => .holdingRefs (hrest scope ())

end Comp

namespace Machine

open ScriptBoundary.Script.Comp

theorem Stays.enterScript {α : Type} {Q : α → Prop} {body : Comp α} (hb : body.Stays K Q) :
    (Machine.enterScript r c this args body).Stays K Q := .bind .checkLimits fun _ _ => .within hb

theorem Stays.enterBuiltin {α : Type} {Q : α → Prop} {realm : Ref} {body : Comp α}
    (hb : body.Stays K Q) : (Machine.enterBuiltin r realm this args body).Stays K Q :=
  .bind .checkLimits fun _ _ => .within hb

theorem Stays.seenThis (hthis : this.Within K) :
    (Machine.seenThis c this).Stays K (Value.Within K) :=
  .ite (.pure hthis) <| .ite (.bind (.globalObjectOf _) fun _ hg => .pure hg) <|
    .bind (.toObject hthis) fun _ hr => .pure hr

namespace Stays

theorem bindPatterns {f : Frame} (hm : m.Stays K) :
    ∀ patterns vs, ValuesWithin K vs → (m.bindPatterns f patterns vs).Stays K fun _ => True
  | [], _, _ => .pure trivial
  | p :: ps, vs, hvs => by
    unfold Machine.bindPatterns
    split
    · exact .pure trivial
    · next heq =>
      cases heq
      exact .bind (.newArray hvs) fun _ hr => hm.bindTo (v := .object _) hr
    · next heq =>
      cases heq
      exact .bind (hm.bindTo hvs.headD) fun _ _ => bindPatterns hm ps _ hvs.tail

/-- What the body of a function gives: a value that may be missing. -/
theorem runBody {this : Option Value} {newTarget : Value} (hm : m.Stays K) (hr : K r)
    (hthis : ValueWithin? K this) (hn : newTarget.Within K) (ha : ValuesWithin K args) :
    (m.runBody r c this newTarget args).Stays K fun p => ValueWithin? K p.1 := by
  have hparams : ∀ b ∈ (if c.info.simpleParams
      then bindParams (c.params.flatMap (Code.boundNames 64)) args #[]
      else ((c.params.flatMap (Code.boundNames 64)).map
        fun n => (⟨n, none, true, true⟩ : Binding)).toArray), b.Within K := by
    split
    · exact within_bindParams _ _ _ ha fun _ hb => nomatch Array.not_mem_empty _ hb
    · intro b hb
      obtain ⟨n, -, rfl⟩ := List.mem_map.mp (List.mem_toArray.mp hb)
      exact .absent
  have hcall : ∀ i ∈ (if c.info.sort.isArrow then none else
      some ⟨this, r, newTarget⟩ : Option CallInfo), i.Within K := by
    intro i hi
    split at hi
    · cases hi
    · exact Option.some.inj hi ▸ ⟨hthis, hn⟩
  refine .shareIf ⟨hparams, hcall⟩ hr ha
    (fun scope a ha' => .performOnly rfl (ValueWithin?.present (v := .object a) ha'))
    fun scope _ => ?_
  refine .bind (.forList (A := Binding.Within K) (fun b hb => ?binding) ?vars) fun _ _ =>
    .bind (.forList (A := fun _ => True) (fun l _ => ?lexical) fun _ _ => trivial) fun _ _ =>
    .bind (.perform rfl trivial) fun _ _ => .firstUnless (hm.bindPatterns _ _ ha) fun _ =>
    .bind (.declareFunctions _) fun _ _ => .bind (hm.execList _ .absent) fun flow hf => ?ends
  case binding => exact .performOnly rfl hb
  case lexical => exact .performOnly rfl (within_lexicalBinding l)
  case vars =>
    have hvars : ∀ ns : List String,
        ∀ b ∈ ns.map (fun n => (⟨n, some .undefined, true, true⟩ : Binding)), b.Within K := by
      intro ns b hb
      obtain ⟨n, -, rfl⟩ := List.mem_map.mp hb
      exact .present trivial
    split
    · exact fun b hb => hvars _ b (List.mem_filter.mp hb).1
    · exact hvars _
  case ends =>
    cases flow with
    | returned v => exact .pure (.present hf)
    | _ => exact .pure .absent

/-- **Calling a value.** -/
theorem callTask {callee : Value} (hl : library.Stay K) (hm : m.Stays K) (hc : callee.Within K)
    (hthis : this.Within K) (ha : ValuesWithin K args) :
    (m.callTask library callee this args).Stays K (Value.Within K) := by
  cases callee with
  | object r =>
    refine .bind (.readObject r) fun o ho => ?_
    have hnature := ho.nature
    cases hn : o.nature with
    | closure c =>
      refine Stays.enterScript (.ite (.throwType _) ?_)
      refine .bind (P := Value.Within K) (.ite (.pure trivial) (Stays.seenThis hthis))
        fun _ hseen => .bind (hm.runBody hc (.present hseen) trivial ha)
        fun _ hv => .pure (hv.getD trivial)
    | builtin name realm constructs =>
      refine Stays.enterBuiltin ?_
      cases hrun : library name with
      | some run => exact hl name run hrun m _ hm ⟨hc, hthis, ha, fun _ ht => nomatch ht⟩
      | none => exact .throwType _
    | hostFunction realm =>
      refine Stays.enterBuiltin ?_
      split
      · exact .callHost hthis ha
      · exact .pure trivial
    | bound target this' args' constructs =>
      rw [hn] at hnature
      obtain ⟨htarget, hthis', ha'⟩ := hnature
      exact hm.call (v := .object target) htarget hthis' (ha'.append ha)
    | proxy parts callable constructs =>
      rw [hn] at hnature
      cases callable with
      | false => exact .throwType _
      | true =>
        refine hm.trapped hnature (fun target _ htarget => hm.call (v := .object target) htarget
          hthis ha) fun target handler f htarget hhandler hf => ?_
        exact .bind (.newArray ha) fun list hlist => hm.callTrap hf hhandler
          (.cons (v := .object target) htarget (.cons hthis (.one (v := .object list) hlist)))
    | _ => exact .throwType _
  | _ => exact .throwType _

theorem constructClosure {newTarget : Ref} (hm : m.Stays K) (hr : K r) (ha : ValuesWithin K args)
    (hn : K newTarget) : (m.constructClosure r c args newTarget).Stays K (Value.Within K) := by
  have hnew : (Value.object newTarget).Within K := hn
  refine Stays.enterScript (.ite ?_ ?_)
  case refine_1 =>
    -- A derived constructor leaves it to its parent to make the object.
    have hfinish : ∀ scope, (Machine.constructClosure.finishDerived scope).Stays K
        (Value.Within K) := fun scope => by
      refine .bind (.readScope scope) fun sc hsc => ?_
      split
      · next v hv =>
        obtain ⟨i, hi, hthis⟩ := Option.bind_eq_some_iff.mp hv
        exact .pure ((hsc.call i hi).this v hthis)
      · exact .raise _ _
    refine .bind (hm.runBody hr .absent hnew ha) fun p hp => ?_
    split
    · exact .pure hp.get
    · exact .ite (.throwType _) (hfinish _)
    · exact hfinish _
  case refine_2 =>
    refine .bind (.protoFor hm hn) fun _ hproto => .bind (.newObjectOf rfl trivial hproto .empty)
      fun q hq => .bind (hm.initialiseFields (v := .object q) hq) fun _ _ => .bind (.holding
        (hm.runBody hr (.present (v := .object q) hq) hnew ha))
      fun p hp => ?_
    split
    · exact .pure hp.get
    · exact .pure hq

/-- **Constructing with a function.** -/
theorem constructTask {newTarget : Ref} (hl : library.Stay K) (hm : m.Stays K) (hr : K r)
    (ha : ValuesWithin K args) (hn : K newTarget) :
    (m.constructTask library r args newTarget).Stays K (Value.Within K) := by
  refine .bind (.readObject r) fun o ho => ?_
  have hnature := ho.nature
  split
  · exact hm.constructClosure hr ha hn
  · refine Stays.enterBuiltin ?_
    split
    · next run hrun =>
      exact hl _ run hrun m _ hm ⟨hr, trivial, ha, fun _ ht => Option.some.inj ht ▸ hn⟩
    · exact .throwType _
  · next target this boundArgs heq =>
    rw [heq] at hnature
    obtain ⟨htarget, -, ha'⟩ := hnature
    refine hm.construct htarget (ha'.append ha) ?_
    split
    · exact htarget
    · exact hn
  · next parts callable heq =>
    rw [heq] at hnature
    refine hm.trapped hnature (fun target _ htarget => hm.construct htarget ha hn)
      fun target handler f htarget hhandler hf => ?_
    refine .bind (.newArray ha) fun list hlist => .bind (hm.callTrap hf hhandler (.cons
      (v := .object target) htarget (.cons (v := .object list) hlist (.one (v := .object newTarget)
        hn)))) fun answer hanswer => ?_
    cases answer with
    | object q => exact .pure hanswer
    | _ => exact .throwType _
  · exact .throwType _

end Stays

end Machine

end ScriptBoundary.Script
