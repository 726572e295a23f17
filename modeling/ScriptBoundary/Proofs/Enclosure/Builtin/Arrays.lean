import ScriptBoundary.Proofs.Enclosure.Builtin.Objects
import ScriptBoundary.Script.Builtin.Arrays

/-!
# The functions of arrays and of list iterators stay inside
-/

namespace ScriptBoundary.Script

open ScriptBoundary.Script.Comp

variable {K : Ref → Prop} {m : Machine} {c : BuiltinCall} {r : Ref} {n : Nat} {v w : Value}

namespace Comp

theorem Stays.emptyArray : (Builtin.emptyArray n).Stays K K :=
  .ite (.raise _ _) <| .bind (.newArray .nil) fun _ hr =>
    .firstUnless .writeLength fun _ => .pure hr

theorem Stays.findPosition {test : Nat → Comp Bool} (ht : ∀ i, (test i).Stays K fun _ => True) :
    ∀ is, (Builtin.findPosition test is).Stays K fun _ => True
  | [] => .pure trivial
  | i :: is => .bind (ht i) fun _ _ => .ite (.pure trivial) (Stays.findPosition ht is)

theorem Stays.newListIterator {sort : Nat} (hv : v.Within K) :
    (Builtin.newListIterator v sort).Stays K (Value.Within K) :=
  .bind (.intrinsic _) fun _ hp => .bind (.newObjectOf rfl hv hp .empty) fun _ hr => .pure hr

theorem Stays.iteratorAnswer {done : Bool} (hv : v.Within K) :
    (Builtin.iteratorAnswer v done).Stays K (Value.Within K) :=
  .bind (.intrinsic _) fun _ hp => .bind (.newObjectOf rfl trivial hp (.ofList
    (List.forall_mem_cons.mpr ⟨hv, List.forall_mem_singleton.mpr trivial⟩))) fun _ hr => .pure hr

end Comp

namespace Machine.Stays

/-- The constructor of the source is asked for an array to fill. -/
theorem speciesArray (hm : m.Stays K) (hr : K r) : (Builtin.speciesArray m r n).Stays K K := by
  refine .bind (.isArray _) fun _ _ => .ite .emptyArray <| .bind (hm.get hr) fun c hc =>
    .bind (P := Value.Within K) ?_ fun c hc => ?_
  · cases c with
    | object q =>
      refine .bind (hm.get hc) fun s hs => .pure ?_
      split
      · trivial
      · exact hs
    | _ => exact .pure trivial
  · cases c with
    | undefined => exact .emptyArray
    | object q =>
      refine .bind (.isConstructor _) fun _ _ => .ite ?_ (.throwType _)
      refine .bind (hm.construct hc (.one trivial) hc) fun a ha => ?_
      cases a with
      | object a => exact .pure ha
      | _ => exact .emptyArray
    | _ => exact .throwType _

theorem putLength (hm : m.Stays K) (hr : K r) : (Builtin.putLength m r n).Stays K fun _ => True :=
  hm.put hr trivial

theorem arrayLike (hm : m.Stays K) (hc : c.Within K) :
    (Builtin.arrayLike m c).Stays K fun p => K p.1 :=
  .bind (.toObject hc.this) fun _ hr => .bind (hm.lengthOf hr) fun _ _ => .pure hr

theorem position {size absent : Nat} (hm : m.Stays K) (hv : v.Within K) :
    (Builtin.position m v size absent).Stays K fun _ => True :=
  .ite (.pure trivial) (.bind (hm.toExtent hv) fun _ _ => .pure trivial)

theorem eachElement {f : Nat → Value → Comp Unit} (hm : m.Stays K) (hr : K r)
    (hf : ∀ i v, v.Within K → (f i v).Stays K fun _ => True) :
    (Builtin.eachElement m r n f).Stays K fun _ => True :=
  .forRange (fun i => .bind hm.has fun _ _ => .when (.bind (hm.get hr) fun v hv => hf i v hv)) _ _

theorem moveElement {source target : Nat} (hm : m.Stays K) (hr : K r) :
    (Builtin.moveElement m r source target).Stays K fun _ => True :=
  .bind hm.has fun _ _ => .ite (.bind (hm.get hr) fun _ hv => hm.put hr hv)
    (.bind hm.deleteOrThrow fun _ _ => .pure trivial)

theorem joinElements {separator : Text} (hm : m.Stays K) (hr : K r) :
    (Builtin.joinElements m r n separator).Stays K fun _ => True := by
  refine .bind
    (.mapList (A := fun _ => True) (R := fun _ => True) (fun i _ => ?_) fun _ _ => trivial)
    fun _ _ => .pure trivial
  exact .bind (hm.get hr) fun _ hv => .ite (.pure trivial) (hm.toText hv)

theorem callOn {i : Nat} (hm : m.Stays K) (hc : c.Within K) (hr : K r) (hv : v.Within K) :
    (Builtin.callOn m c r v i).Stays K (Value.Within K) :=
  hm.call (hc.arg 0) (hc.arg 1) (.cons hv (.cons trivial (.one (v := .object r) hr)))

theorem reduceOver {positions : List Nat} (hm : m.Stays K) (hc : c.Within K) (hr : K r) :
    (Builtin.reduceOver m c r positions).Stays K (Value.Within K) := by
  have hstep : ∀ (acc : Value) (i : Nat), acc.Within K → Comp.Stays K (do
      m.call (c.arg 0) .undefined [acc, ← m.get r (Key.ofNat i), Value.ofNat i, .object r])
      (Value.Within K) := fun acc i hacc =>
    .bind (hm.get hr) fun _ hv => hm.call (hc.arg 0) trivial
      (.cons hacc (.cons hv (.cons trivial (.one (v := .object r) hr))))
  refine .bind (.requireCallable _) fun _ _ =>
    .bind (.foldList (A := fun _ => True) (R := fun _ => True) (fun _ _ _ _ => ?_) trivial
      fun _ _ => trivial) fun present _ => ?_
  · exact .bind hm.has fun _ _ => .pure trivial
  · have hargs := hc.args
    dsimp only
    split
    · next first rest hfirst =>
      rw [hfirst] at hargs
      exact .foldList (A := fun _ => True) (fun acc i hacc _ => hstep acc i hacc) hargs.rest.head
        fun _ _ => trivial
    · split
      · exact .throwType _
      · exact .bind (hm.get hr) fun _ hv =>
          .foldList (A := fun _ => True) (fun acc i hacc _ => hstep acc i hacc) hv
            fun _ _ => trivial

theorem inOrder {compare : Value} (hm : m.Stays K) (hcompare : compare.Within K) (hv : v.Within K)
    (hw : w.Within K) : (Builtin.inOrder m compare v w).Stays K fun _ => True := by
  unfold Builtin.inOrder
  split
  · exact .pure trivial
  · exact .pure trivial
  · exact .ite (.bind (hm.toText hv) fun _ _ => .bind (hm.toText hw) fun _ _ => .pure trivial) <|
      .bind (hm.call hcompare trivial (.cons hv (.one hw))) fun _ hx => .bind (hm.toNumber hx)
        fun _ _ => .pure trivial

theorem insertSorted {compare : Value} (hm : m.Stays K) (hcompare : compare.Within K)
    (hv : v.Within K) : ∀ vs, ValuesWithin K vs →
      (Builtin.insertSorted m compare v vs).Stays K (ValuesWithin K)
  | [], _ => .pure (.one hv)
  | _ :: ws, hws =>
    .bind (hm.inOrder hcompare hws.head hv) fun _ _ => .ite (.pure (.cons hv hws)) <|
      .bind (insertSorted hm hcompare hv ws hws.rest) fun _ hrest => .pure (.cons hws.head hrest)

theorem flatten (hm : m.Stays K) :
    ∀ depth v, v.Within K → (Builtin.flatten m depth v).Stays K (ValuesWithin K)
  | 0, _, hv => .pure (.one hv)
  | depth + 1, v, hv => by
    cases v with
    | object r =>
      refine .bind (.isArray _) fun _ _ => .ite ?_ (.pure (.one hv))
      refine .bind (hm.lengthOf hv) fun _ _ =>
        .foldList (A := fun _ => True) (fun out i hout _ => ?_) .nil fun _ _ => trivial
      exact .bind hm.has fun _ _ => .ite (.bind (hm.get hv) fun w hw =>
        .bind (flatten hm depth w hw) fun _ hws => .pure (hout.append hws)) (.pure hout)
    | _ => exact .pure (.one trivial)

theorem isSpreadable (hm : m.Stays K) (hv : v.Within K) :
    (Builtin.isSpreadable m v).Stays K fun _ => True := by
  cases v with
  | object r =>
    refine .bind (hm.get hv) fun s _ => ?_
    split
    · exact .isArray _
    · exact .pure trivial
  | _ => exact .pure trivial

theorem appendAll {out : Ref} (hm : m.Stays K) :
    ∀ n vs, ValuesWithin K vs → (Builtin.appendAll m out n vs).Stays K fun _ => True
  | _, [], _ => .pure trivial
  | n, v :: vs, hvs => by
    have hv := hvs.head
    refine .bind (hm.isSpreadable hv) fun spread _ => ?_
    split
    · exact .bind (hm.lengthOf hv) fun _ _ =>
        .bind (hm.eachElement hv fun _ _ hw => hm.createOrThrow hw) fun _ _ =>
        appendAll hm _ vs hvs.rest
    · exact .bind (hm.createOrThrow hv) fun _ _ => appendAll hm _ vs hvs.rest

/-- An entry that is shown as a pair of its key and its value. -/
theorem pairOf {k v : Value} (hk : k.Within K) (hv : v.Within K) :
    (newArray [k, v] >>= fun r => pure (.object r)).Stays K (Value.Within K) :=
  .bind (.newArray (.cons hk (.one hv))) fun _ hr => .pure hr

/-- What a list iterator comes upon. -/
theorem itemAt {next sort : Nat} (hm : m.Stays K) (hv : v.Within K) :
    (Builtin.itemAt m v next sort).Stays K fun o => ∀ p ∈ o, p.1.Within K := by
  have hnothing :
      (pure none : Comp (Option (Value × Nat))).Stays K fun o => ∀ p ∈ o, p.1.Within K :=
    .pure fun _ hp => nomatch hp
  have hshown : ∀ shown : Comp Value, shown.Stays K (Value.Within K) → ∀ i : Nat, Comp.Stays K
      (shown >>= fun w => pure (some (w, i))) fun o => ∀ p ∈ o, p.1.Within K := fun _ hshown _ =>
    .bind hshown fun _ hw => .pure fun _ hp => Option.some.inj hp ▸ hw
  cases v with
  | text t =>
    exact .ite (.pure fun _ hp => Option.some.inj hp ▸ trivial) hnothing
  | object r =>
    refine .bind (.readObject r) fun o ho => ?_
    have hnature := ho.nature
    split
    · next entries heq =>
      rw [heq] at hnature
      split
      · next k v i hfind =>
        have hmem := List.mem_of_mem_drop (List.mem_of_find?_eq_some hfind)
        have hentry := hnature _ (Array.mem_toList_iff.mp (List.fst_mem_of_mem_zipIdx hmem)) _ rfl
        refine hshown _ ?_ _
        split
        · exact .pure hentry.2
        · exact .pure hentry.1
        · exact pairOf hentry.1 hentry.2
      · exact hnothing
    · next entries heq =>
      rw [heq] at hnature
      split
      · next v i hfind =>
        have hmem := List.mem_of_mem_drop (List.mem_of_find?_eq_some hfind)
        have hentry := hnature _ (Array.mem_toList_iff.mp (List.fst_mem_of_mem_zipIdx hmem)) _ rfl
        refine hshown _ ?_ _
        split
        · exact .pure hentry
        · exact .pure hentry
        · exact pairOf hentry hentry
      · exact hnothing
    · refine .bind (hm.lengthOf hv) fun _ _ => .ite (.bind (hm.get hv) fun _ hw =>
        hshown _ ?_ _) hnothing
      split
      · exact .pure hw
      · exact .pure trivial
      · exact pairOf trivial hw
  | _ => exact hnothing

end Machine.Stays

namespace Builtin

/-- **Every function of iterators.** -/
theorem stays_iterators : iterators.Forall (Builtin.Stays K) := by
  refine ⟨?next, ?iterator⟩
  all_goals intro m c hm hc
  case next =>
    refine .bind BuiltinCall.Within.thisNature fun nature hn => ?_
    split
    · next r subject next sort _ =>
      refine .bind (hm.itemAt hn) fun o ho => ?_
      cases o with
      | none => exact .bind (.performOnly rfl trivial) fun _ _ => .iteratorAnswer trivial
      | some p => exact .bind (.performOnly rfl hn) fun _ _ => .iteratorAnswer (ho p rfl)
    · exact .throwType _
  case iterator => exact .pure hc.this

/-- **Every function of arrays.** -/
theorem stays_arrays : arrays.Forall (Builtin.Stays K) := by
  refine ⟨?array, ?isArray, ?of, ?fromList, ?species, ?element, ?concat, ?entries, ?every, ?fill,
    ?filter, ?find, ?findIndex, ?flat, ?flatMap, ?forEach, ?includes, ?indexOf, ?join, ?keys,
    ?lastIndexOf, ?map, ?pop, ?push, ?reduce, ?reduceRight, ?reverse, ?shift, ?slice, ?some,
    ?sort, ?splice, ?toLocaleString, ?toString, ?unshift, ?values⟩
  all_goals intro m c hm hc
  case array =>
    refine .bind (P := K) ?_ fun proto hproto => .bind (P := K) ?_ fun r hr =>
      .bind (.performOnly rfl fun _ hq => Option.some.inj hq ▸ hproto) fun _ _ => .pure hr
    · cases ht : c.newTarget with
      | none => exact .intrinsic _
      | some t => exact .protoFor hm (hc.newTarget t ht)
    · split
      · exact .ite (.raise _ _) .emptyArray
      · exact .newArray hc.args
  case isArray => exact .bind (.isArray _) fun _ _ => .pure trivial
  case of => exact .bind (.newArray hc.args) fun _ hr => .pure hr
  case fromList =>
    refine .firstUnless (.requireCallable _) fun _ => .bind (P := ValuesWithin K) ?_ fun vs hvs =>
      .ite (.bind (.newArray hvs) fun _ hr => .pure hr) <|
      .bind (.mapList (R := Value.Within K) (fun p hp => ?_) hvs.zipIdx) fun _ hws =>
      .bind (.newArray hws) fun _ hr => .pure hr
    · refine .bind (hm.getMethod (hc.arg 0)) fun f _ => ?_
      cases f with
      | some f => exact hm.listOfIterable (hc.arg 0)
      | none => exact .bind (.toObject (hc.arg 0)) fun _ hr => hm.listOf hr
    · exact hm.call (hc.arg 1) (hc.arg 2) (.cons hp (.one trivial))
  case species => exact .pure hc.this
  case element =>
    refine .bind (hm.arrayLike hc) fun p hp => .bind (hm.toExtent (hc.arg 0)) fun e _ => ?_
    split
    · exact .ite (hm.get hp) (.pure trivial)
    · exact .pure trivial
  case concat =>
    exact .bind (.toObject hc.this) fun r hr => .bind (hm.speciesArray hr) fun _ hout =>
      .bind (hm.appendAll _ _ (.cons (v := .object r) hr hc.args)) fun _ _ =>
      .bind (hm.putLength hout) fun _ _ => .pure hout
  case entries => exact .bind (.toObject hc.this) fun r hr => .newListIterator (v := .object r) hr
  case every =>
    exact .bind (hm.arrayLike hc) fun _ hr => .bind (.requireCallable _) fun _ _ =>
      .bind (.findPosition (fun _ => .bind hm.has fun _ _ => .ite (.bind (hm.get hr) fun _ hv =>
        .bind (hm.callOn hc hr hv) fun _ _ => .pure trivial) (.pure trivial)) _) fun _ _ =>
      .pure trivial
  case fill =>
    exact .bind (hm.arrayLike hc) fun _ hr => .bind (hm.position (hc.arg 1)) fun _ _ =>
      .bind (hm.position (hc.arg 2)) fun _ _ =>
      .bind (.forRange (fun _ => hm.put hr (hc.arg 0)) _ _) fun _ _ => .pure hr
  case filter =>
    refine .bind (hm.arrayLike hc) fun _ hr => .bind (.requireCallable _) fun _ _ =>
      .bind (hm.speciesArray hr) fun _ hout => .bind (.foldList (A := fun _ => True)
        (R := fun _ => True) (fun next i _ _ => ?_) trivial fun _ _ => trivial)
        fun _ _ => .pure hout
    exact .bind hm.has fun _ _ => .ite (.bind (hm.get hr) fun _ hv =>
      .bind (.keeping (hm.callOn hc hr hv)) fun _ _ =>
      .ite (.bind (hm.createOrThrow hv) fun _ _ => .pure trivial) (.pure trivial)) (.pure trivial)
  case find =>
    refine .bind (hm.arrayLike hc) fun _ hr => .bind (.requireCallable _) fun _ _ =>
      .bind (.findPosition (fun _ => .bind (hm.get hr) fun _ hv => .bind (hm.callOn hc hr hv)
        fun _ _ => .pure trivial) _) fun i _ => ?_
    cases i with
    | some i => exact hm.get hr
    | none => exact .pure trivial
  case findIndex =>
    refine .bind (hm.arrayLike hc) fun _ hr => .bind (.requireCallable _) fun _ _ =>
      .bind (.findPosition (fun _ => .bind (hm.get hr) fun _ hv => .bind (hm.callOn hc hr hv)
        fun _ _ => .pure trivial) _) fun i _ => ?_
    cases i with
    | some i => exact .pure trivial
    | none => exact .pure trivial
  case flat =>
    exact .bind (.toObject hc.this) fun r hr => .bind (P := fun _ => True)
      (.ite (.pure trivial) (.bind (hm.toExtent (hc.arg 0)) fun _ _ => .pure trivial)) fun _ _ =>
      .bind (hm.flatten _ (.object r) hr) fun _ hvs => .bind (.newArray hvs) fun _ hr => .pure hr
  case flatMap =>
    refine .bind (hm.arrayLike hc) fun _ hr => .bind (.requireCallable _) fun _ _ =>
      .bind (.foldList (A := fun _ => True) (fun out i hout _ => ?_) .nil fun _ _ => trivial)
      fun _ hvs => .bind (.newArray hvs) fun _ hr => .pure hr
    exact .bind hm.has fun _ _ => .ite (.bind (hm.get hr) fun _ hv =>
      .bind (.keeping (hm.callOn hc hr hv)) fun w hw => .bind (hm.flatten _ w hw) fun _ hws =>
      .pure (hout.append hws)) (.pure hout)
  case forEach =>
    exact .bind (hm.arrayLike hc) fun _ hr => .bind (.requireCallable _) fun _ _ =>
      .bind (hm.eachElement hr fun _ _ hv => .bind (hm.callOn hc hr hv) fun _ _ => .pure trivial)
      fun _ _ => .pure trivial
  case includes =>
    exact .bind (hm.arrayLike hc) fun _ hr => .bind (hm.position (hc.arg 1)) fun _ _ =>
      .bind (.findPosition (fun _ => .bind (hm.get hr) fun _ _ => .pure trivial) _) fun _ _ =>
      .pure trivial
  case indexOf =>
    refine .bind (hm.arrayLike hc) fun _ hr => .bind (hm.position (hc.arg 1)) fun _ _ =>
      .bind (.findPosition (fun _ => .bind hm.has fun _ _ =>
        .ite (.bind (hm.get hr) fun _ _ => .pure trivial) (.pure trivial)) _) fun i _ => ?_
    cases i with
    | some i => exact .pure trivial
    | none => exact .pure trivial
  case join =>
    exact .bind (hm.arrayLike hc) fun _ hr => .bind (.ite (.pure trivial) (hm.toText (hc.arg 0)))
      fun _ _ => .bind (hm.joinElements hr) fun _ _ => .pure trivial
  case keys => exact .bind (.toObject hc.this) fun r hr => .newListIterator (v := .object r) hr
  case lastIndexOf =>
    refine .bind (hm.arrayLike hc) fun _ hr => .bind (P := fun _ => True) ?_ fun _ _ =>
      .bind (.findPosition (fun _ => .bind hm.has fun _ _ =>
        .ite (.bind (hm.get hr) fun _ _ => .pure trivial) (.pure trivial)) _) fun i _ => ?_
    · refine .ite (.pure trivial) (.bind (hm.toExtent (hc.arg 1)) fun e _ => ?_)
      cases e with
      | finite i => exact .pure trivial
      | above => exact .pure trivial
      | below => exact .pure trivial
    · cases i with
      | some i => exact .pure trivial
      | none => exact .pure trivial
  case map =>
    exact .bind (hm.arrayLike hc) fun _ hr => .bind (.requireCallable _) fun _ _ =>
      .bind (hm.speciesArray hr) fun _ hout => .bind (hm.eachElement hr fun _ _ hv =>
        .bind (.keeping (hm.callOn hc hr hv)) fun _ hw => hm.createOrThrow hw) fun _ _ => .pure hout
  case pop =>
    exact .bind (hm.arrayLike hc) fun _ hr => .ite
      (.bind (hm.putLength hr) fun _ _ => .pure trivial) <| .bind (hm.get hr) fun _ hv =>
      .bind hm.deleteOrThrow fun _ _ => .bind (hm.putLength hr) fun _ _ => .pure hv
  case push =>
    exact .bind (hm.arrayLike hc) fun _ hr => .ite (.throwType _) <|
      .bind (.forList (fun _ hp => hm.put hr hp) hc.args.zipIdx) fun _ _ =>
      .bind (hm.putLength hr) fun _ _ => .pure trivial
  case reduce => exact .bind (hm.arrayLike hc) fun _ hr => hm.reduceOver hc hr
  case reduceRight => exact .bind (hm.arrayLike hc) fun _ hr => hm.reduceOver hc hr
  case reverse =>
    refine .bind (hm.arrayLike hc) fun _ hr => .bind (.mapList (A := fun _ => True)
      (R := ValueWithin? K) (fun i _ => ?_) fun _ _ => trivial) fun vs hvs =>
      .bind (.forList (A := fun p => ValueWithin? K p.1) (fun p hp => ?_) fun p hp => ?_)
      fun _ _ => .pure hr
    · exact .bind hm.has fun _ _ => .ite (.bind (hm.get hr) fun _ hv => .pure (.present hv))
        (.pure .absent)
    · obtain ⟨v, i⟩ := p
      cases v with
      | some v => exact hm.put hr hp.get
      | none => exact .bind hm.deleteOrThrow fun _ _ => .pure trivial
    · exact hvs _ (List.mem_reverse.mp (List.fst_mem_of_mem_zipIdx hp))
  case shift =>
    exact .bind (hm.arrayLike hc) fun _ hr => .ite
      (.bind (hm.putLength hr) fun _ _ => .pure trivial) <| .bind (hm.get hr) fun _ hv =>
      .bind (.forRange (fun _ => hm.moveElement hr) _ _) fun _ _ =>
      .bind hm.deleteOrThrow fun _ _ => .bind (hm.putLength hr) fun _ _ => .pure hv
  case slice =>
    exact .bind (hm.arrayLike hc) fun _ hr => .bind (hm.position (hc.arg 0)) fun _ _ =>
      .bind (hm.position (hc.arg 1)) fun _ _ => .bind (hm.speciesArray hr) fun _ hout =>
      .bind (.forRange (fun _ => .bind hm.has fun _ _ => .when (.bind (hm.get hr) fun _ hv =>
        hm.createOrThrow hv)) _ _) fun _ _ => .bind (hm.putLength hout) fun _ _ => .pure hout
  case some =>
    exact .bind (hm.arrayLike hc) fun _ hr => .bind (.requireCallable _) fun _ _ =>
      .bind (.findPosition (fun _ => .bind hm.has fun _ _ => .ite (.bind (hm.get hr) fun _ hv =>
        .bind (hm.callOn hc hr hv) fun _ _ => .pure trivial) (.pure trivial)) _) fun _ _ =>
      .pure trivial
  case sort =>
    refine .firstUnless (.requireCallable _) fun _ => .bind (hm.arrayLike hc) fun _ hr =>
      .bind (.foldList (A := fun _ => True) (R := ValuesWithin K) (fun out i hout _ => ?_) .nil
        fun _ _ => trivial) fun vs hvs =>
      .bind (.foldList (A := Value.Within K) (R := ValuesWithin K) (fun out v hout hv =>
        hm.insertSorted (hc.arg 0) hv out hout) .nil hvs.reverse) fun sorted hsorted =>
      .bind (.forList (fun _ hp => hm.put hr hp) hsorted.reverse.zipIdx) fun _ _ =>
      .bind (.forRange (fun _ => .bind hm.deleteOrThrow fun _ _ => .pure trivial) _ _) fun _ _ =>
      .pure hr
    exact .bind hm.has fun _ _ => .ite (.bind (hm.get hr) fun _ hv => .pure (.cons hv hout))
      (.pure hout)
  case splice =>
    refine .bind (hm.arrayLike hc) fun p hr => .bind (hm.position (hc.arg 0)) fun start _ =>
      .bind (P := fun _ => True) ?count fun count _ => .bind (hm.speciesArray hr) fun out hout =>
      .bind (.forRange (fun _ => .bind hm.has fun _ _ => .when (.bind (hm.get hr) fun _ hv =>
        hm.createOrThrow hv)) _ _) fun _ _ => .bind (hm.putLength hout) fun _ _ => ?rest
    case count =>
      split
      · exact .pure trivial
      · exact .pure trivial
      · exact .bind (hm.toExtent (hc.arg 1)) fun _ _ => .pure trivial
    case rest =>
      have hput : ∀ (put : Value × Nat → Comp Unit) (n : Nat),
          (∀ q, q.1.Within K → (put q).Stays K fun _ => True) → Comp.Stays K (do
            forList put (c.args.drop 2).zipIdx
            putLength m p.1 n
            return .object out) (Value.Within K) := fun _ _ hput =>
        .bind (.forList hput (hc.args.drop 2).zipIdx) fun _ _ =>
          .bind (hm.putLength hr) fun _ _ => .pure hout
      refine .ite (.bind (.forRange (fun _ => hm.moveElement hr) _ _) fun _ _ =>
        .bind (.forList (A := fun _ => True) (fun _ _ => ?_) fun _ _ => trivial)
          fun _ _ => hput _ _ fun _ hq => hm.put hr hq)
        (.ite (.bind (.forList (A := fun _ => True) (fun _ _ => hm.moveElement hr) fun _ _ =>
          trivial) fun _ _ => hput _ _ fun _ hq => hm.put hr hq)
          (hput _ _ fun _ hq => hm.put hr hq))
      exact .bind hm.deleteOrThrow fun _ _ => .pure trivial
  case toLocaleString =>
    exact .bind (hm.arrayLike hc) fun _ hr => .bind (hm.joinElements hr) fun _ _ => .pure trivial
  case toString =>
    exact .bind (.toObject hc.this) fun r hr => .bind (hm.get hr) fun _ hf =>
      .bind (.isCallable _) fun _ _ => .ite (hm.call hf (w := .object r) hr .nil)
      (hm.describeObject (v := .object r) hr)
  case unshift =>
    exact .bind (hm.arrayLike hc) fun _ hr => .ite
      (.bind (.forList (A := fun _ => True) (fun _ _ => hm.moveElement hr) fun _ _ => trivial)
        fun _ _ => .bind (.forList (fun _ hp => hm.put hr hp) hc.args.zipIdx) fun _ _ =>
        .bind (hm.putLength hr) fun _ _ => .pure trivial)
      (.bind (hm.putLength hr) fun _ _ => .pure trivial)
  case values => exact .bind (.toObject hc.this) fun r hr => .newListIterator (v := .object r) hr

end Builtin

end ScriptBoundary.Script
