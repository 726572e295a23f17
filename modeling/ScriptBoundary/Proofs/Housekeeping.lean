import ScriptBoundary.Proofs.Grounded
import ScriptBoundary.Proofs.Relay

/-!
# What requests do to an orderly world

A request finds an orderly world and leaves one, and what is in its answer is classified correctly.
Most requests run a script. For them this comes down to three points: where the script begins, once
the arguments have been taken (`standing_opening`); where it ends, by what is known of scripts; and
where its end has been made into an answer (`Request.Makes`). The others make an object or a handle
at most.

The host's code is a sequence of requests, so it keeps the world orderly as well, and so does a call
of the host by a script. The calls that happen inside have fewer levels of nesting, and that is what
the induction is on (`Host.keepsOrder`).

## Main results

* `exists_of_inContext`, `exists_of_script`: what there must have been if a request is answered
* `orderly_answer`: requests keep the world orderly and classify correctly
* `Host.keepsOrder`: so does everything that happens while the host is called
-/

namespace ScriptBoundary.Boundary

open Script (Activation Comp Completion HostCall Program)

variable {σ α : Type} {host : Host σ} {n : Nat} {s t : State σ} {i : InstanceId} {w : World}

/-- **If something was done in a context**, there was one, and it has been given back. -/
theorem exists_of_inContext {f : Activation → Run σ α} {a : α}
    (h : inContext i f s = .ok (a, t)) : ∃ act u, s.world.context? i = some act
      ∧ f act (s.occupied i) = .ok (a, u) ∧ t = u.vacated (s.world.usesOwn i) i := by
  cases hact : s.world.context? i with
  | none =>
    rw [World.context?] at hact
    cases hx : s.world.live? i with
    | none =>
      rw [inContext_gone hx] at h
      cases h
    | some x =>
      rw [hx, Option.bind_some] at hact
      split at hact
      · cases hact
      · next hl =>
        cases hb : x.borrowed with
        | true =>
          rw [inContext_borrowed hx hl hb] at h
          cases h
        | false =>
          rw [hb] at hact
          cases hact
  | some act =>
    rw [inContext_of_context hact] at h
    split at h
    · next a u hu =>
      cases h
      exact ⟨act, u, rfl, hu, rfl⟩
    · cases h

theorem World.exists_instance_of_context {act : Activation} (h : w.context? i = some act) :
    (w.instance? i).isSome := by
  obtain ⟨x, hx, -⟩ := Option.bind_eq_some_iff.mp h
  rw [(live?_eq_some_iff.mp hx).1]
  rfl

/-- A request to an instance is answered only if that is there. -/
theorem exists_instance_of_answer {invoke : Invoke σ} {r : Request} {a : r.Answer}
    (hi : r.addressee? = some i) (h : answer invoke r s = .ok (a, t)) :
    ∃ x, s.world.instance? i = some x := by
  rw [answer_apply, hi] at h
  dsimp only at h
  cases hx : s.world.live? i with
  | none =>
    rw [hx] at h
    cases h
  | some x => exact ⟨x, (World.live?_eq_some_iff.mp hx).1⟩

/-! ## Scripts of requests -/

namespace Request

/-- The script that a request runs, if it runs one. Handles passed by reference are looked up
first. -/
def runs? (w : World) : Request → Option Errand
  | .keys i object inherited =>
    some ⟨i, [], fun _ => Operation.keys (w.referent object) inherited⟩
  | .toUtf8 i text => match w.referent text with
    | .text _ => none
    | v => some ⟨i, [], fun _ => Operation.toText v⟩
  | .errorValue i e =>
    some ⟨i, [], fun _ => Comp.newError (if e.isConversion then .typeError else .error) e.message⟩
  | r => r.errand? w

/-- Whether an answer is what a request makes of the end of its script. -/
inductive Makes (invoke : Invoke σ) (i : InstanceId) (act : Activation)
    (c : Completion Script.Value) (u : State σ) : (r : Request) → r.Answer → State σ → Prop where
  | outcome {r : Request} {a : r.Answer} {o : Outcome} {t : State σ} (ho : r.outcome? a = some o)
      (hc : conclude invoke i act c u = .ok (o, t)) : Makes invoke i act c u r a t
  | listed {j : InstanceId} {object : Handle} {inherited : Bool} {v : Script.Value}
      (hc : c = .value v) : Makes invoke i act c u (.keys j object inherited)
        (u.world.newHandle i v).1 { u with world := (u.world.newHandle i v).2 }
  | lost {j : InstanceId} {object : Handle} {inherited : Bool} {e : Event}
      (hc : ∀ v, c ≠ .value v) : Makes invoke i act c u (.keys j object inherited)
        ((u.world.note e).newArray i act.realm).1
        { u with world := ((u.world.note e).newArray i act.realm).2 }
  | read {j : InstanceId} {text : Handle} : Makes invoke i act c u (.toUtf8 j text) (textOf c) u
  | error {j : InstanceId} {e : BoundaryError} {o : Outcome} {t : State σ}
      (hc : conclude invoke i act c u = .ok (o, t)) :
      Makes invoke i act c u (.errorValue j e) o.value t

end Request

/-- An operation with an outcome has run its script and has made something of the end. -/
theorem exists_of_operateIn {invoke : Invoke σ} {args : List Value}
    {body : List Script.Value → Comp Script.Value} {o : Outcome}
    (h : inContext i (operateIn invoke i args body) s = .ok (o, t)) :
    ∃ act c u v, s.world.context? i = some act
      ∧ runProgram invoke ((⟨i, args, body⟩ : Errand).program act s.world)
          ((⟨i, args, body⟩ : Errand).opening act s) = .ok (c, u)
      ∧ conclude invoke i act c u = .ok (o, v) ∧ t = v.vacated (s.world.usesOwn i) i := by
  obtain ⟨act, v, hact, hv, rfl⟩ := exists_of_inContext h
  rw [operateIn_apply] at hv
  split at hv
  · next c u hrun => exact ⟨act, c, u, v, hact, hrun, hv, rfl⟩
  · cases hv

/-- **If a request that runs a script is answered**, the script has come to an end, and the answer
was made of that. -/
theorem exists_of_script {invoke : Invoke σ} {r : Request} {a : r.Answer} {e : Errand}
    (he : r.runs? s.world = some e) (h : answer invoke r s = .ok (a, t)) :
    ∃ act c u v, s.world.context? e.owner = some act
      ∧ runProgram invoke (e.program act s.world) (e.opening act s) = .ok (c, u)
      ∧ r.Makes invoke e.owner act c u a v ∧ t = v.vacated (s.world.usesOwn e.owner) e.owner := by
  cases r with
  | eval | get | set | remove | has | getIndex | setIndex | call | toNumber | toText =>
    obtain rfl := Option.some.inj he
    rw [answer_eq_inContext rfl rfl] at h
    obtain ⟨act, c, u, v, hact, hrun, hc, rfl⟩ := exists_of_operateIn h
    exact ⟨act, c, u, v, hact, hrun, .outcome rfl hc, rfl⟩
  | keys j object inherited =>
    obtain rfl := Option.some.inj he
    rw [answer_eq_inContext (r := .keys j object inherited) rfl rfl] at h
    obtain ⟨act, v, hact, hv, rfl⟩ := exists_of_inContext h
    simp only [Run.bind_apply, Run.view_apply] at hv
    have hreferent : (s.occupied j).world.referent object = s.world.referent object :=
      (World.SameStore.occupy s.world j).referent object
    rw [hreferent] at hv
    split at hv
    · next c u hrun =>
      refine ⟨act, c, u, v, hact, hrun, ?_, rfl⟩
      cases c with
      | value x =>
        cases hv
        exact .listed rfl
      | _ =>
        cases hv
        exact .lost nofun
    · cases hv
  | toUtf8 j text =>
    obtain ⟨hother, rfl⟩ : (∀ x, s.world.referent text ≠ .text x)
        ∧ e = ⟨j, [], fun _ => Operation.toText (s.world.referent text)⟩ := by
      rw [Request.runs?] at he
      split at he
      · cases he
      · next hother => exact ⟨hother, (Option.some.inj he).symm⟩
    rw [answer_eq_inContext (r := .toUtf8 j text) rfl (Request.work_toUtf8 hother)] at h
    obtain ⟨act, v, hact, hv, rfl⟩ := exists_of_inContext h
    simp only [Run.bind_apply] at hv
    split at hv
    · next c u hrun =>
      cases hv
      exact ⟨act, c, _, _, hact, hrun, .read, rfl⟩
    · cases hv
  | errorValue j e =>
    obtain rfl := Option.some.inj he
    rw [answer_eq_inContext (r := .errorValue j e) rfl rfl] at h
    obtain ⟨act, v, hact, hv, rfl⟩ := exists_of_inContext h
    simp only [Run.bind_apply] at hv
    split at hv
    · next c u hrun =>
      split at hv
      · next o u' hc =>
        cases hv
        exact ⟨act, c, u, _, hact, hrun, .error hc, rfl⟩
      · cases hv
    · cases hv
  | _ => cases he

/-- The script of a request makes up no reference. -/
theorem Request.stays_of_script {r : Request} {e : Errand} (he : r.runs? w = some e)
    {K : Script.Ref → Prop} (hw : ∀ h, (w.referent h).Within K) {vs : List Script.Value}
    (hvs : Script.ValuesWithin K vs) : (e.body vs).Stays K (Script.Value.Within K) := by
  cases r with
  | eval => obtain rfl := Option.some.inj he; exact .evalSource _
  | get => obtain rfl := Option.some.inj he; exact .operationGet (hw _) (hvs.getD 0)
  | set => obtain rfl := Option.some.inj he; exact .operationSet (hw _) (hvs.getD 0) (hvs.getD 1)
  | remove => obtain rfl := Option.some.inj he; exact .operationRemove (hw _) (hvs.getD 0)
  | has => obtain rfl := Option.some.inj he; exact .operationHas (hw _) (hvs.getD 0)
  | getIndex => obtain rfl := Option.some.inj he; exact .operationGetIndex (hw _) _
  | setIndex => obtain rfl := Option.some.inj he; exact .operationSetIndex (hw _) (hvs.getD 0) _
  | call => obtain rfl := Option.some.inj he; exact .operationCall (hw _) hvs.headD hvs.tail
  | toNumber => obtain rfl := Option.some.inj he; exact .operationToNumber hvs.headD
  | toText =>
    obtain rfl := Option.some.inj he
    refine (Comp.Stays.operationToText hvs.headD).mono fun x hx => ?_
    obtain ⟨t, rfl⟩ := hx
    trivial
  | keys => obtain rfl := Option.some.inj he; exact .operationKeys (hw _)
  | toUtf8 i text =>
    rw [Request.runs?] at he
    split at he
    · cases he
    · obtain rfl := Option.some.inj he
      refine (Comp.Stays.operationToText (hw text)).mono fun x hx => ?_
      obtain ⟨t, rfl⟩ := hx
      trivial
  | errorValue => obtain rfl := Option.some.inj he; exact .newError _ _
  | _ => cases he

/-- **Where the script of a request begins**, once the arguments have been taken. -/
theorem standing_opening {r : Request} {e : Errand} {act : Activation}
    (he : r.runs? s.world = some e) (hact : s.world.context? e.owner = some act)
    (h : s.world.Orderly) : Standing (e.program act s.world) (e.opening act s) := by
  have hsame := World.SameStore.occupy s.world e.owner
  have hclosed := h.closed_of_instance (World.exists_instance_of_context hact)
  have hgrown := e.evolvesHeap_opening act s
  obtain ⟨ho, hvs⟩ := (h.of_sameStore hsame).decodeAll (hsame.heap.symm ▸ hclosed) act.realm e.args
  refine .of_computation ho (ho.closed (Nat.lt_of_lt_of_le hclosed.size_pos hgrown.size))
    (fun K hK => ?_) act
  exact Request.stays_of_script he (fun hd => (h.referent_within hd).mono fun r hr =>
    hK r (hgrown.isObject r hr)) (hvs.mono hK)

/-! ## Ends of scripts -/

/-- **An outcome is classified correctly**, and so is the error that a limit becomes. -/
theorem orderly_conclude {invoke : Invoke σ} {act : Activation} {c : Completion Script.Value}
    {o : Outcome} (h : Standing (.done c) s) (hc : conclude invoke i act c s = .ok (o, t)) :
    t.world.Orderly ∧ t.world.Names o.value := by
  have hresult := h.result
  cases c with
  | limit fault =>
    rw [conclude_limit] at hc
    cases hc
    let error : Script.Edit := .newObject .error
      (some ((s.world.heap.realm act.realm).base + Script.ErrorClass.rangeError.proto.ctorIdx))
      (.ofList [(Script.Key.ofString "message",
        Script.Slot.hidden (Script.Value.ofString fault.message))])
    have hproto := h.closed.realm act.realm Script.ErrorClass.rangeError.proto
    have hmade : error.Within s.world.heap.IsObject :=
      ⟨trivial, fun _ hp => Option.some.inj hp ▸ hproto,
        .ofList (List.forall_mem_singleton.mpr trivial)⟩
    have hnew : (s.world.heap.apply error).1.IsObject (s.world.heap.apply error).2 :=
      Script.Heap.isObject_apply rfl
    have hthrown := h.orderly.edit h.closed hmade (h.orderly.apart.apply rfl)
    exact ⟨hthrown.encode i hnew, World.names_encode hnew⟩
  | _ =>
    cases hc
    exact ⟨h.orderly.encode i hresult, World.names_encode hresult⟩

theorem World.refers_newArray (w : World) (i : InstanceId) (realm : Script.Ref) :
    (w.newArray i realm).2.Refers .array (w.newArray i realm).1 :=
  refers_newHandle i (.array Array.getElem?_push_size rfl)

theorem World.refers_newObject (w : World) (i : InstanceId) (realm : Script.Ref) :
    (w.newObject i realm).2.Refers .object (w.newObject i realm).1 :=
  refers_newHandle i (.object Array.getElem?_push_size nofun rfl nofun)

/-- The names of an object are listed in an array. -/
theorem describes_of_keys {object v : Script.Value} {inherited : Bool} {act : Activation}
    (hrun : runProgram (invokeAt host n) ((Operation.keys object inherited).start act) s =
      .ok (.value v, t)) : Kind.array.Describes t.world.heap v := by
  have hnames : (Operation.names object inherited).Stays (fun _ => True) fun _ => True :=
    .operationNames object.within_everywhere
  obtain ⟨f, hf, -⟩ | ⟨names, u, -, -, hrest⟩ := hnames.run_bind hrun
  · cases f <;> cases hf
  · cases hrest
    exact .array Array.getElem?_push_size rfl

namespace Request

/-- **Whether an answer is classified correctly**: what it carries is of the kind that it is said to
be, or that the request is for. -/
def Classifies (w w' : World) : (r : Request) → r.Answer → Prop
  | .eval .., o | .get .., o | .set .., o | .remove .., o | .has .., o | .getIndex .., o
  | .setIndex .., o | .call .., o | .toNumber .., o | .toText .., o => w'.Names (Outcome.value o)
  | .register .., v | .errorValue .., v => w'.Names v
  | .global _, h | .createObject _, h => w'.Refers .object h
  | .createArray _, h | .keys .., h => w'.Refers .array h
  | .createString .., h => w'.Refers .string h
  | .clone h, copy => ∀ kind, w.Refers kind h → w'.Refers kind copy
  | _, _ => True

theorem Classifies.of_sameStore {r : Request} {a : r.Answer} {w w' w'' : World}
    (h : r.Classifies w w' a) (hs : w'.SameStore w'') : r.Classifies w w'' a := by
  cases r with
  | eval | get | set | remove | has | getIndex | setIndex | call | toNumber | toText | register
  | errorValue => exact World.Names.of_sameStore h hs
  | global | createObject | createArray | keys | createString =>
    exact World.Refers.of_sameStore h hs
  | clone => exact fun kind hk => (h kind hk).of_sameStore hs
  | _ => trivial

theorem classifies_of_outcome {r : Request} {a : r.Answer} {o : Outcome} {w w' : World}
    (ho : r.outcome? a = some o) (h : w'.Names o.value) : r.Classifies w w' a := by
  cases r with
  | eval | get | set | remove | has | getIndex | setIndex | call | toNumber | toText =>
    obtain rfl := Option.some.inj ho
    exact h
  | _ => cases ho

end Request

/-- The request that runs a script keeps the world orderly. -/
theorem orderly_script {r : Request} {a : r.Answer} {e : Errand} (hhost : host.KeepsOrder n)
    (h : s.world.Orderly) (he : r.runs? s.world = some e)
    (ha : answer (invokeAt host n) r s = .ok (a, t)) :
    t.world.Orderly ∧ r.Classifies s.world t.world a := by
  obtain ⟨act, c, u, v, hact, hrun, hmade, rfl⟩ := exists_of_script he ha
  obtain ⟨vs, hvs⟩ := exists_steps_of_runProgram hrun
  have hend : Standing (.done c) u := hvs.standing hhost (standing_opening he hact h)
  have hsame := World.SameStore.relinquish v.world (s.world.usesOwn e.owner) e.owner
  suffices hkept : v.world.Orderly ∧ r.Classifies s.world v.world a from
    ⟨hkept.1.of_sameStore hsame, hkept.2.of_sameStore hsame⟩
  cases hmade with
  | outcome ho hc =>
    obtain ⟨hv, hnames⟩ := orderly_conclude hend hc
    exact ⟨hv, Request.classifies_of_outcome ho hnames⟩
  | listed hc =>
    obtain rfl := Option.some.inj he
    obtain rfl := hc
    have harray := describes_of_keys hrun
    exact ⟨hend.orderly.newHandle _ harray.holdable, World.refers_newHandle _ harray⟩
  | lost hc =>
    exact ⟨(hend.orderly.note _).newArray hend.closed _ _, World.refers_newArray _ _ _⟩
  | read => exact ⟨hend.orderly, trivial⟩
  | error hc => exact orderly_conclude hend hc

/-! ## Requests -/

theorem World.names_register (w : World) (i : InstanceId) (realm : Script.Ref) (cb : Callback) :
    (w.register i realm cb).2.Names (w.register i realm cb).1 := by
  cases hx : w.instance? i with
  | none =>
    rw [register, hx]
    rintro kind h heq
    cases heq
  | some x =>
    rw [register, hx]
    rintro kind h heq
    obtain ⟨rfl, rfl⟩ := Value.composite.inj heq
    exact refers_newHandle i (.function Array.getElem?_push_size rfl)

/-- A copy of a handle refers to the same value. -/
theorem World.refers_cloneHandle {kind : Kind} {h : Handle} (hk : w.Refers kind h) :
    (w.cloneHandle h).2.Refers kind (w.cloneHandle h).1 := by
  obtain ⟨c, hc, hkind⟩ := hk
  have hcopy : (w.cloneHandle h).1 = ⟨w.handles.size⟩ := by rw [cloneHandle, hc]
  have hcell : w.purse.cell? h = some c := hc
  refine ⟨c, ?_, (heap_congr (setting_cloneHandle w h)).symm ▸ hkind⟩
  rw [hcopy, ← cell?_purse, purse_cloneHandle, Purse.copy, hcell]
  exact Purse.cell?_make _ _ _

/-- What is done in a context without a script. -/
theorem orderly_inContext {r : Request} {a : r.Answer} {f : Activation → World → r.Answer × World}
    (h : s.world.Orderly) (ha : inContext i (fun act => Run.alter (f act)) s = .ok (a, t))
    (hf : ∀ act (w : World), w.Orderly → w.heap.Closed →
      (f act w).2.Orderly ∧ r.Classifies s.world (f act w).2 (f act w).1) :
    t.world.Orderly ∧ r.Classifies s.world t.world a := by
  obtain ⟨act, u, hact, hu, rfl⟩ := exists_of_inContext ha
  cases hu
  have hclosed := h.closed_of_instance (World.exists_instance_of_context hact)
  have hoccupied := World.SameStore.occupy s.world i
  obtain ⟨hdone, hclassified⟩ := hf act (s.world.occupy i) (h.of_sameStore hoccupied)
    (hoccupied.heap.symm ▸ hclosed)
  have hsame := World.SameStore.relinquish (f act (s.world.occupy i)).2 (s.world.usesOwn i) i
  exact ⟨hdone.of_sameStore hsame, hclassified.of_sameStore hsame⟩

/-- **Requests keep the world orderly**, and what is in their answers is classified correctly. -/
theorem orderly_answer {r : Request} {a : r.Answer} (hhost : host.KeepsOrder n)
    (h : s.world.Orderly) (ha : answer (invokeAt host n) r s = .ok (a, t)) :
    t.world.Orderly ∧ r.Classifies s.world t.world a := by
  cases r with
  | eval | get | set | remove | has | getIndex | setIndex | call | toNumber | toText | keys
  | errorValue => exact orderly_script hhost h rfl ha
  | createObject j =>
    rw [answer_eq_inContext (r := .createObject j) rfl rfl] at ha
    exact orderly_inContext h ha fun act w hw hc =>
      ⟨hw.newObject hc j act.realm, w.refers_newObject j act.realm⟩
  | createArray j =>
    rw [answer_eq_inContext (r := .createArray j) rfl rfl] at ha
    exact orderly_inContext h ha fun act w hw hc =>
      ⟨hw.newArray hc j act.realm, w.refers_newArray j act.realm⟩
  | register j cb =>
    rw [answer_eq_inContext (r := .register j cb) rfl rfl] at ha
    exact orderly_inContext h ha fun act w hw hc =>
      ⟨hw.register hc j act.realm cb, w.names_register j act.realm cb⟩
  | toBoolean j v =>
    rw [answer_eq_inContext (r := .toBoolean j v) rfl rfl] at ha
    exact orderly_inContext (f := fun act w => ((w.decode act.realm v).1.truthy,
      (w.decode act.realm v).2)) h ha fun act w hw hc => ⟨(hw.decode hc act.realm v).1, trivial⟩
  | arrayLength j array =>
    by_cases hf : s.world.isArray array = true
    · rw [answer_eq_inContext (r := .arrayLength j array) rfl (if_pos hf)] at ha
      exact orderly_inContext (f := fun _ w => (w.arrayLength array, w)) h ha
        fun act w hw hc => ⟨hw, trivial⟩
    · have hs := serve_of_answer ha
      simp only [serve, Run.bind_apply, Run.view_apply, if_neg hf] at hs
      cases hs
      exact ⟨h, trivial⟩
  | toUtf8 j text =>
    cases he : (Request.toUtf8 j text).runs? s.world with
    | some e => exact orderly_script hhost h he ha
    | none =>
      have hs := serve_of_answer ha
      rw [Request.runs?] at he
      split at he
      · next x hx =>
        simp only [serve, Run.bind_apply, Run.view_apply, hx] at hs
        cases hs
        exact ⟨h, trivial⟩
      · cases he
  | newInstance limits =>
    cases serve_of_answer ha
    exact ⟨h.newInstance limits, trivial⟩
  | destroy j =>
    have hs := serve_of_answer ha
    simp only [serve, Run.bind_apply, Run.view_apply] at hs
    split at hs
    · cases hs
    · cases hs
      exact ⟨h.destroy j, trivial⟩
  | global j =>
    obtain ⟨x, hx⟩ := exists_instance_of_answer rfl ha
    have hglobal := h.globalObject_holdable hx
    have hs := serve_of_answer ha
    simp only [serve, Run.alter_apply, hx] at hs
    cases hs
    exact ⟨h.newHandle j hglobal.holdable, World.refers_newHandle j hglobal⟩
  | createString j bytes =>
    cases serve_of_answer ha
    exact ⟨h.newHandle j (.text _), World.refers_newHandle j (.string _)⟩
  | setSlot j slot data =>
    cases serve_of_answer ha
    exact ⟨h.setSlot j slot data, trivial⟩
  | collect j =>
    cases serve_of_answer ha
    exact ⟨h.collectFor j, trivial⟩
  | clone hd =>
    cases serve_of_answer ha
    exact ⟨h.cloneHandle hd, fun _ hk => World.refers_cloneHandle hk⟩
  | release hd =>
    cases serve_of_answer ha
    exact ⟨h.releaseHandle hd, trivial⟩
  | install pair =>
    cases serve_of_answer ha
    exact ⟨h.of_same rfl rfl, trivial⟩
  | note e =>
    cases serve_of_answer ha
    exact ⟨h.note e, trivial⟩
  | inspect | getSlot | sameValue | typeName | lifecycle | dropped | log =>
    cases serve_of_answer ha
    exact ⟨h, trivial⟩

/-! ## Host programs, and calls of the host -/

/-- What requests keep, and what does not depend on the host's own state, a host program keeps. -/
theorem Act.run_keeps {respond : (r : Request) → Run σ r.Answer} {P : State σ → Prop}
    (hask : ∀ r s a t, P s → respond r s = .ok (a, t) → P t)
    (hwrite : ∀ (s : State σ) g, P s → P { s with host := g }) {m : Act σ α} {a : α} (h : P s)
    (hrun : m.run respond s = .ok (a, t)) : P t := by
  induction m generalizing s with
  | done b =>
    cases hrun
    exact h
  | ask r next ih =>
    rw [Act.run_ask] at hrun
    cases ha : respond r s with
    | error e =>
      rw [ha] at hrun
      cases hrun
    | ok p =>
      rw [ha] at hrun
      exact ih p.1 (hask r s p.1 p.2 h ha) hrun
  | read next ih => exact ih s.host h hrun
  | write g next ih => exact ih (hwrite s g h) hrun

theorem orderly_run (hhost : host.KeepsOrder n) {m : Act σ α} {a : α} (h : s.world.Orderly)
    (hrun : m.run (answer (invokeAt host n)) s = .ok (a, t)) : t.world.Orderly :=
  Act.run_keeps (P := fun s => s.world.Orderly) (fun _ _ _ _ h ha => (orderly_answer hhost h ha).1)
    (fun _ _ h => h) h hrun

/-- **Calls of the host keep the world orderly**, however deep they nest. -/
theorem Host.keepsOrder (host : Host σ) : ∀ n, host.KeepsOrder n
  | 0 => fun v hv => by
    obtain ⟨n, hn, -⟩ := hv.ran
    cases hn
  | n + 1 => fun v hv ho hclosed hk => by
    obtain ⟨m, hm, hran⟩ := hv.ran
    cases hm
    have hafter : v.after.world.Orderly := orderly_run (host.keepsOrder n) (ho.atEntry hk) hran
    have hgrown := World.heap_atEntry v.before.world v.call ▸ evolvesHeap_of_run hran
    obtain ⟨hdecoded, hvalue⟩ := hafter.decode
      (hafter.closed (Nat.lt_of_lt_of_le hclosed.size_pos hgrown.size)) v.call.activation.realm
      v.outcome.value
    refine ⟨hdecoded.leave _ _, ?_⟩
    rw [Visit.heap_resume, Visit.result]
    split
    · exact hvalue
    · exact hvalue

end ScriptBoundary.Boundary
