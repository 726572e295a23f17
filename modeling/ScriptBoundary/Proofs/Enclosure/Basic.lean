import ScriptBoundary.Script.Arguments

/-!
# Staying inside a set of cells

A script gets at objects through the values it is given, through what it finds in the heap, and by
making new ones; it cannot make up a reference. So if a set of cells contains what the script starts
with, if nothing in the heap leads out of the set, and if new objects are put into it, then the
script never comes upon an object outside, and never stores one or hands one to the host.

The set is fixed from the start, the cells that are yet to be made included. That is what keeps the
rules simple: nothing has to be carried over from a smaller heap to a larger one. To say that a
script makes no dangling reference is to say that it stays inside every set in which all objects of
the heap are.

A computation does not end; it goes on with what comes after it. So what it does inside is said by
what it leaves of that: a property that programs inherit from what comes after a step inside is one
that the computation inherits from what comes after it. That a program stays inside is such a
property, and that a program comes to a certain point is another. The property may be one of several
programs that take their steps together. So a computation that stays inside also does the same
whatever comes after it, and the point at which it ends can be told.

Scopes, realms and tallies are not in question. A program can hold any address of one of them, but
what it reads there is inside: reading where nothing is gives an empty scope.

## Main definitions

* `Heap.Within`: nothing that is found in the heap leads outside
* `Comp.Stays`: a computation takes steps inside only, and what it goes on with has a property
* `Program.Stays`: a program stays inside as long as the heap and the host do
* `Machine.Stays`: so does whatever does tasks
-/

namespace ScriptBoundary.Script

variable {K : Ref → Prop}

/-! ## What is inside -/

/-- Whether a value is no reference to an object outside. -/
def Value.Within (K : Ref → Prop) : Value → Prop
  | .object r => K r
  | _ => True

/-- Whether all values of a list are inside. -/
def ValuesWithin (K : Ref → Prop) (vs : List Value) : Prop := ∀ v ∈ vs, v.Within K

/-- Whether a value that may be missing is inside. -/
def ValueWithin? (K : Ref → Prop) (v : Option Value) : Prop := ∀ w ∈ v, w.Within K

def Content.Within (K : Ref → Prop) : Content → Prop
  | .data v _ => v.Within K
  | .accessor g t => g.Within K ∧ t.Within K

def Slot.Within (K : Ref → Prop) (s : Slot) : Prop := s.content.Within K

structure Descriptor.Within (K : Ref → Prop) (d : Descriptor) : Prop where
  value : ValueWithin? K d.value
  get : ValueWithin? K d.get
  set : ValueWithin? K d.set

def Props.Within (K : Ref → Prop) (ps : Props) : Prop := ∀ p ∈ ps.slots, p.2.Within K

/-- What the inside of an object leads to. A closure leads to scopes only, and to a home object that
it does not show. -/
def Nature.Within (K : Ref → Prop) : Nature → Prop
  | .bound target this args _ => K target ∧ this.Within K ∧ ValuesWithin K args
  | .proxy parts _ _ => ∀ p ∈ parts, K p.1 ∧ K p.2
  | .map entries => ∀ e ∈ entries, ∀ p ∈ e, p.1.Within K ∧ p.2.Within K
  | .set entries => ∀ e ∈ entries, ∀ v ∈ e, v.Within K
  | .listIterator subject _ _ => subject.Within K
  | _ => True

structure Object.Within (K : Ref → Prop) (o : Object) : Prop where
  nature : o.nature.Within K
  proto : ∀ p ∈ o.proto, K p
  props : o.props.Within K

def Binding.Within (K : Ref → Prop) (b : Binding) : Prop := ValueWithin? K b.value

/-- What a call shows: its callee is only asked for its prototype and its fields. -/
structure CallInfo.Within (K : Ref → Prop) (c : CallInfo) : Prop where
  this : ValueWithin? K c.this
  newTarget : c.newTarget.Within K

structure Scope.Within (K : Ref → Prop) (s : Scope) : Prop where
  bindings : ∀ b ∈ s.bindings, b.Within K
  call : ∀ c ∈ s.call, c.Within K

/-- **Nothing that is found in the heap leads outside.** The built-in objects of a realm are found
by counting from the first. -/
structure Heap.Within (K : Ref → Prop) (h : Heap) : Prop where
  object : ∀ r, (h.object r).Within K
  scope : ∀ r, (h.scope r).Within K
  realm : ∀ r (i : Intrinsic), K ((h.realm r).base + i.ctorIdx)

def Edit.Within (K : Ref → Prop) : Edit → Prop
  | .newObject nature proto props => nature.Within K ∧ (∀ p ∈ proto, K p) ∧ props.Within K
  | .newScope s => s.Within K
  | .putSlot _ _ s => s.Within K
  | .setProto _ p => ∀ q ∈ p, K q
  | .setNature _ n => n.Within K
  | .bind _ b => b.Within K
  | .store _ _ v => v.Within K
  | .setThis _ v => v.Within K
  | _ => True

/-- The elements that an object shares with variables. -/
def Nature.tied : Nature → List (ArrayIndex × Ref × String)
  | .arguments tied => tied
  | _ => []

/-- The elements that an edit ties to variables. -/
def Edit.tied : Edit → List (ArrayIndex × Ref × String)
  | .newObject nature _ _ => nature.tied
  | .setNature _ nature => nature.tied
  | _ => []

/-- Whether an edit makes an object. -/
def Edit.makesObject : Edit → Bool
  | .newObject .. => true
  | _ => false

/-- An outcome whose value has a property and whose exception is inside. -/
def Completion.Within {α : Type} (K : Ref → Prop) (Q : α → Prop) : Completion α → Prop
  | .value a => Q a
  | .thrown v => v.Within K
  | .limit _ => True

structure HostCall.Within (K : Ref → Prop) (c : HostCall) : Prop where
  this : c.this.Within K
  args : ValuesWithin K c.args

/-- **A property that programs inherit** from what comes after a step inside, when all of them take
the same step. Which elements share which variables is changed in two places only, and a property
may depend on that, so what is done in these places counts as one step. -/
structure Program.Inherits {ι : Type} (K : Ref → Prop) (T : (ι → Program) → Prop) : Prop where
  look : ∀ next : ι → Heap → Program, (∀ h : Heap, h.Within K → T fun i => next i h) →
    T fun i => .look (next i)
  edit : ∀ (e : Edit) (next : ι → Nat → Program), e.Within K → e.tied = [] →
    (∀ n, (e.makesObject = true → K n) → T fun i => next i n) → T fun i => .edit e (next i)
  call : ∀ (c : HostCall) (next : ι → Completion Value → Program), c.Within K →
    (∀ a : Completion Value, a.Within K (Value.Within K) → T fun i => next i a) →
    T fun i => .call c (next i)
  exhausted : T fun _ => .exhausted
  /-- An element ceases to share a variable. -/
  untie : ∀ (r : Ref) (k : Key) (act : Activation) (next : ι → Completion Unit → Program),
    (T fun i => next i (.value ())) → T fun i => Script.untie r k act (next i)
  /-- A call makes its scope, and an arguments object that shares the variables of the scope. -/
  share : ∀ (s : Scope) (c : Closure) (callee : Ref) (args : List Value) (act : Ref → Activation)
    (next : ι → Ref → Completion Ref → Program), s.Within K → K callee → ValuesWithin K args →
    (∀ scope a, K a → T fun i => next i scope (.value a)) →
    T fun i => .edit (.newScope s) fun scope =>
      newArguments c callee scope args (act scope) (next i scope)

/-- **A computation that stays inside**, and goes on with values that have a property, whatever it
is that comes after it: it takes steps inside only, and the same ones before all that may come after
it, so what comes after it leaves a property to it. -/
def Comp.Stays {α : Type} (K : Ref → Prop) (m : Comp α) (Q : α → Prop) : Prop :=
  ∀ (ι : Type) (T : (ι → Program) → Prop), Program.Inherits K T → ∀ (act : Activation)
    (next : ι → Completion α → Program), (∀ c : Completion α, c.Within K Q → T fun i => next i c) →
    T fun i => m act (next i)

/-- **A program that stays inside**, as long as the heap it finds and the answers of the host are
inside, and that ends with an outcome of the kind given. -/
def Program.Stays (K : Ref → Prop) (last : Completion Value → Prop) : Program → Prop
  | .done c => last c
  | .look next => ∀ h : Heap, h.Within K → (next h).Stays K last
  | .edit e next => e.Within K ∧ ∀ n, (e.makesObject = true → K n) → (next n).Stays K last
  | .call c next =>
    c.Within K ∧ ∀ a : Completion Value, a.Within K (Value.Within K) → (next a).Stays K last
  | .exhausted => True

/-! ## What is made of what is inside -/

section Parts

variable {v : Value} {vs ws : List Value} {o : Option Value} {s : Slot} {d : Descriptor}
  {ps : Props} {k : Key}

theorem ValuesWithin.nil : ValuesWithin K [] := fun _ hv => nomatch hv

theorem ValuesWithin.cons (hv : v.Within K) (hvs : ValuesWithin K vs) : ValuesWithin K (v :: vs) :=
  List.forall_mem_cons.mpr ⟨hv, hvs⟩

theorem ValuesWithin.one (hv : v.Within K) : ValuesWithin K [v] := .cons hv .nil

theorem ValuesWithin.head (hvs : ValuesWithin K (v :: vs)) : v.Within K := hvs v List.mem_cons_self

theorem ValuesWithin.rest (hvs : ValuesWithin K (v :: vs)) : ValuesWithin K vs := fun w hw =>
  hvs w (List.mem_cons_of_mem v hw)

theorem ValuesWithin.append (hvs : ValuesWithin K vs) (hws : ValuesWithin K ws) :
    ValuesWithin K (vs ++ ws) := List.forall_mem_append.mpr ⟨hvs, hws⟩

theorem ValuesWithin.tail (hvs : ValuesWithin K vs) : ValuesWithin K vs.tail := fun w hw =>
  hvs w (List.mem_of_mem_tail hw)

theorem ValuesWithin.drop (hvs : ValuesWithin K vs) (n : Nat) : ValuesWithin K (vs.drop n) :=
  fun w hw => hvs w (List.mem_of_mem_drop hw)

theorem ValuesWithin.reverse (hvs : ValuesWithin K vs) : ValuesWithin K vs.reverse := fun w hw =>
  hvs w (List.mem_reverse.mp hw)

/-- The values that stand beside their positions. -/
theorem ValuesWithin.zipIdx (hvs : ValuesWithin K vs) : ∀ p ∈ vs.zipIdx, p.1.Within K := fun p hp =>
  hvs p.1 (List.fst_mem_of_mem_zipIdx hp)

theorem ValuesWithin.getD (hvs : ValuesWithin K vs) (i : Nat) :
    (vs.getD i .undefined).Within K := by
  rw [List.getD_eq_getElem?_getD]
  cases hi : vs[i]? with
  | none => trivial
  | some v => exact hvs v (List.mem_of_getElem? hi)

theorem ValuesWithin.headD (hvs : ValuesWithin K vs) : (vs.headD .undefined).Within K := by
  cases vs with
  | nil => trivial
  | cons v vs => exact hvs.head

/-- Values of which none is an object. -/
theorem ValuesWithin.map {α : Type} {f : α → Value} (hf : ∀ a, (f a).Within K) (as : List α) :
    ValuesWithin K (as.map f) := fun w hw => by
  obtain ⟨a, -, rfl⟩ := List.mem_map.mp hw
  exact hf a

theorem ValueWithin?.absent : ValueWithin? K none := fun _ hv => nomatch hv

theorem ValueWithin?.present (hv : v.Within K) : ValueWithin? K (some v) := fun _ hw =>
  Option.some.inj hw ▸ hv

theorem ValueWithin?.get (ho : ValueWithin? K (some v)) : v.Within K := ho v rfl

theorem ValueWithin?.getD (ho : ValueWithin? K o) (hv : v.Within K) : (o.getD v).Within K := by
  cases o with
  | none => exact hv
  | some w => exact ho.get

theorem ValueWithin?.or {o' : Option Value} (ho : ValueWithin? K o) (ho' : ValueWithin? K o') :
    ValueWithin? K (o.or o') := by
  cases o with
  | none => exact ho'
  | some w => exact ho

theorem Slot.Within.toDescriptor (hs : s.Within K) : (Descriptor.ofSlot s).Within K := by
  obtain ⟨content, enumerable, configurable⟩ := s
  cases content with
  | data v w => exact ⟨.present hs, .absent, .absent⟩
  | accessor g t => exact ⟨.absent, .present hs.1, .present hs.2⟩

theorem Descriptor.Within.toSlot (hd : d.Within K) : d.toSlot.Within K := by
  rw [Descriptor.toSlot, Slot.Within]
  dsimp only
  split
  · exact ⟨hd.get.getD trivial, hd.set.getD trivial⟩
  · exact hd.value.getD trivial

theorem Descriptor.Within.layOver (hd : d.Within K) (hs : s.Within K) : (d.layOver s).Within K := by
  obtain ⟨content, enumerable, configurable⟩ := s
  rw [Descriptor.layOver, Slot.Within]
  cases content with
  | data v w =>
    dsimp only
    split
    · exact ⟨hd.get.getD trivial, hd.set.getD trivial⟩
    · exact hd.value.getD hs
  | accessor g t =>
    dsimp only
    split
    · exact hd.value.getD trivial
    · exact ⟨hd.get.getD hs.1, hd.set.getD hs.2⟩

/-- What a slot holds of its own. -/
theorem Slot.Within.value? (hs : s.Within K) : ValueWithin? K s.value? := by
  obtain ⟨content, enumerable, configurable⟩ := s
  cases content with
  | data v w => exact .present hs
  | accessor g t => exact .absent

theorem Props.Within.empty : (∅ : Props).Within K := fun _ hp => nomatch Array.not_mem_empty _ hp

/-- Writing something over an element of an array. -/
theorem forall_mem_setIfInBounds {α : Type} {P : α → Prop} {as : Array α} {i : Nat} {a : α}
    (has : ∀ b ∈ as, P b) (ha : P a) : ∀ b ∈ as.setIfInBounds i a, P b := fun b hb => by
  rcases Array.mem_or_eq_of_mem_setIfInBounds hb with h | rfl
  · exact has b h
  · exact ha

theorem Props.Within.insert (hps : ps.Within K) (hs : s.Within K) : (ps.insert k s).Within K := by
  rw [Props.insert]
  split
  · exact forall_mem_setIfInBounds hps hs
  · exact Array.forall_mem_push.mpr ⟨hs, hps⟩

theorem Props.Within.erase (hps : ps.Within K) : (ps.erase k).Within K := fun p hp =>
  hps p (Array.mem_filter.mp hp).1

theorem Props.Within.find? (hps : ps.Within K) : ∀ s ∈ ps.find? k, s.Within K := fun s hs => by
  obtain ⟨p, hp, rfl⟩ := Option.map_eq_some_iff.mp hs
  exact hps p (Array.mem_of_find?_eq_some hp)

theorem Props.Within.ofList {ss : List (Key × Slot)} (hss : ∀ p ∈ ss, p.2.Within K) :
    (Props.ofList ss).Within K := by
  rw [Props.ofList]
  refine List.foldlRecOn ss _ .empty fun ps hps p hp => hps.insert (hss p hp)

theorem Props.Within.listing {length : Slot} (hl : length.Within K) (hvs : ValuesWithin K vs) :
    (Props.listing length (vs.map Slot.plain)).Within K := fun p hp => by
  rcases List.mem_cons.mp (List.mem_toArray.mp hp) with rfl | h
  · exact hl
  · obtain ⟨q, hq, rfl⟩ := List.mem_map.mp h
    obtain ⟨v, hv, heq⟩ := List.mem_map.mp (List.fst_mem_of_mem_zipIdx hq)
    show q.1.Within K
    rw [← heq]
    exact hvs v hv

theorem Scope.Within.find? {sc : Scope} (hsc : sc.Within K) {name : String} :
    ∀ b ∈ sc.find? name, b.Within K := fun b hb =>
  hsc.bindings b (Array.mem_of_find?_eq_some hb)

end Parts

/-! ## Where there is no outside -/

section Everywhere

theorem Value.within_everywhere (v : Value) : v.Within fun _ => True := by cases v <;> trivial

theorem within?_everywhere (v : Option Value) : ValueWithin? (fun _ => True) v :=
  fun w _ => w.within_everywhere

theorem Nature.within_everywhere (nature : Nature) : nature.Within fun _ => True := by
  cases nature with
  | bound target this args =>
    exact ⟨trivial, this.within_everywhere, fun v _ => v.within_everywhere⟩
  | proxy parts => exact fun _ _ => ⟨trivial, trivial⟩
  | map entries => exact fun _ _ p _ => ⟨p.1.within_everywhere, p.2.within_everywhere⟩
  | set entries => exact fun _ _ v _ => v.within_everywhere
  | listIterator subject => exact subject.within_everywhere
  | _ => trivial

theorem Slot.within_everywhere (s : Slot) : s.Within fun _ => True := by
  obtain ⟨content, -, -⟩ := s
  cases content with
  | data v => exact v.within_everywhere
  | accessor g t => exact ⟨g.within_everywhere, t.within_everywhere⟩

theorem Heap.within_everywhere (h : Heap) : h.Within fun _ => True where
  object _ := ⟨Nature.within_everywhere _, fun _ _ => trivial, fun p _ => p.2.within_everywhere⟩
  scope _ := ⟨fun b _ => within?_everywhere b.value,
    fun c _ => ⟨within?_everywhere c.this, c.newTarget.within_everywhere⟩⟩
  realm _ _ := trivial

theorem Completion.within_everywhere (c : Completion Value) :
    c.Within (fun _ => True) (Value.Within fun _ => True) := by
  cases c with
  | limit l => trivial
  | _ => exact Value.within_everywhere _

end Everywhere

/-! ## Programs -/

/-- The properties of the arguments object of a call. -/
theorem Closure.within_argumentProps (c : Closure) {callee values : Ref} {args : List Value}
    (hcallee : K callee) (hvalues : K values) (hargs : ValuesWithin K args) :
    (c.argumentProps callee values args).Within K := by
  have hlisted : (Props.listing (Slot.hidden (Value.ofNat args.length))
      (args.map Slot.plain)).Within K := .listing trivial hargs
  have hown := hlisted.insert (k := .symbol Symbol.iterator) (s := Slot.hidden (.object values))
    hvalues
  unfold argumentProps
  split
  · exact hown.insert hcallee
  · exact hown

namespace Program

/-- A property that does not depend on what shares variables need be shown for steps only. -/
theorem Inherits.of_steps {ι : Type} {T : (ι → Program) → Prop}
    (look : ∀ next : ι → Heap → Program, (∀ h : Heap, h.Within K → T fun i => next i h) →
      T fun i => .look (next i))
    (edit : ∀ (e : Edit) (next : ι → Nat → Program), e.Within K →
      (∀ n, (e.makesObject = true → K n) → T fun i => next i n) → T fun i => .edit e (next i))
    (call : ∀ (c : HostCall) (next : ι → Completion Value → Program), c.Within K →
      (∀ a : Completion Value, a.Within K (Value.Within K) → T fun i => next i a) →
      T fun i => .call c (next i))
    (exhausted : T fun _ => .exhausted) : Program.Inherits K T where
  look := look
  edit e next he _ := edit e next he
  call := call
  exhausted := exhausted
  untie r k act next hnext := by
    refine look _ fun h _ => ?_
    dsimp only
    generalize (h.object r).nature = nature
    cases nature with
    | arguments tied =>
      cases k with
      | index i => exact edit (.setNature r (.arguments _)) _ trivial fun _ _ => hnext
      | _ => exact hnext
    | _ => exact hnext
  share s c callee args act next hs hcallee hargs hnext := by
    refine edit _ _ hs fun scope _ => look _ fun h hh => look _ fun h' hh' => ?_
    have hproto := hh'.realm (act scope).realm .objectPrototype
    exact edit _ _ ⟨trivial, fun _ hp => Option.some.inj hp ▸ hproto,
      c.within_argumentProps hcallee (hh.realm (act scope).realm .arrayValues) hargs⟩
      fun a ha => hnext scope a (ha rfl)

theorem inherits_stays (last : Completion Value → Prop) :
    Program.Inherits K fun p : Unit → Program => (p ()).Stays K last :=
  .of_steps (fun _ h => h) (fun _ _ he h => ⟨he, h⟩) (fun _ _ hc h => ⟨hc, h⟩) trivial

end Program

/-- The program that a computation inside is, if nothing comes after it. -/
theorem Comp.Stays.start {m : Comp Value} {Q : Value → Prop} (hm : m.Stays K Q) (act : Activation) :
    (m.start act).Stays K (Completion.Within K Q) :=
  hm _ _ (Program.inherits_stays _) act (fun _ => .done) fun _ hc => hc

/-! ## Computations -/

namespace Comp

variable {α β γ : Type} {m : Comp α} {f : α → Comp β} {P Q : α → Prop} {R : β → Prop} {a : α}
  {v : Value}

/-- **Doing one thing after another.** -/
theorem Stays.bind (hm : m.Stays K P) (hf : ∀ a, P a → (f a).Stays K R) : (m >>= f).Stays K R := by
  intro ι T hT act next hnext
  refine hm ι T hT act _ fun c hc => ?_
  cases c with
  | value a => exact hf a hc ι T hT act next hnext
  | thrown v => exact hnext (.thrown v) hc
  | limit l => exact hnext (.limit l) trivial

theorem Stays.mono (hm : m.Stays K P) (h : ∀ a, P a → Q a) : m.Stays K Q := by
  intro ι T hT act next hnext
  refine hm ι T hT act next fun c hc => hnext c ?_
  cases c with
  | value a => exact h a hc
  | thrown v => exact hc
  | limit l => trivial

/-- What is gone on with need not be known. -/
theorem Stays.any (hm : m.Stays K P) : m.Stays K fun _ => True := hm.mono fun _ _ => trivial

theorem Stays.pure (ha : Q a) : (pure a : Comp α).Stays K Q := fun _ _ _ _ _ hnext =>
  hnext (.value a) ha

theorem Stays.throwValue (hv : v.Within K) : (throwValue v : Comp α).Stays K Q :=
  fun _ _ _ _ _ hnext =>
  hnext (.thrown v) hv

theorem Stays.exceed (l : LimitFault) : (exceed l : Comp α).Stays K Q := fun _ _ _ _ _ hnext =>
  hnext (.limit l) trivial

theorem Stays.exhausted : (exhausted : Comp α).Stays K Q := fun _ _ hT _ _ _ => hT.exhausted

/-- Looking at the heap. -/
theorem Stays.inspect {g : Heap → α} (hg : ∀ h : Heap, h.Within K → Q (g h)) :
    (inspect g).Stays K Q := fun _ _ hT _ _ hnext =>
  hT.look _ fun h hh => hnext (.value (g h)) (hg h hh)

theorem Stays.readObject (r : Ref) : (readObject r).Stays K (Object.Within K) :=
  .inspect fun _ hh => hh.object r

theorem Stays.readScope (r : Ref) : (readScope r).Stays K (Scope.Within K) :=
  .inspect fun _ hh => hh.scope r

/-- Changing the heap, without a change to what shares variables. -/
theorem Stays.performOnly {e : Edit} (ht : e.tied = []) (he : e.Within K) :
    (performOnly e).Stays K fun _ => True := fun _ _ hT _ _ hnext =>
  hT.edit e _ he ht fun _ _ => hnext (.value ()) trivial

/-- Making an object that shares no variables. -/
theorem Stays.newObject {nature : Nature} {proto : Option Ref} {props : Props}
    (ht : nature.tied = []) (hn : nature.Within K) (hp : ∀ p ∈ proto, K p)
    (hprops : props.Within K) :
    (newObject nature proto props).Stays K K := fun _ _ hT _ _ hnext =>
  hT.edit _ _ ⟨hn, hp, hprops⟩ ht fun n hk => hnext (.value n) (hk rfl)

/-- Making something that is no object. -/
theorem Stays.perform {e : Edit} (ht : e.tied = []) (he : e.Within K) :
    (perform e).Stays K fun _ => True :=
  fun _ _ hT _ _ hnext => hT.edit e _ he ht fun n _ => hnext (.value n) trivial

/-- An element ceases to share a variable. -/
theorem Stays.untie {r : Ref} {k : Key} : (Script.untie r k).Stays K fun _ => True :=
  fun _ _ hT act _ hnext => hT.untie r k act _ (hnext (.value ()) trivial)

/-- A call makes its scope and its arguments object, and goes on with both of them. -/
theorem Stays.share {s : Scope} {c : Closure} {callee : Ref} {args : List Value}
    {g : Ref → Ref → Comp α} (hs : s.Within K) (hcallee : K callee) (hargs : ValuesWithin K args)
    (hg : ∀ scope a, K a → (g scope a).Stays K Q) :
    (Comp.perform (.newScope s) >>= fun scope => Comp.holdingRefs [scope]
      (newArguments c callee scope args >>= g scope)).Stays K Q := fun ι T hT act next hnext =>
  hT.share s c callee args (fun scope => { act with held := [scope] ++ act.held }) _ hs hcallee
    hargs fun scope a ha => hg scope a ha ι T hT _ next hnext

theorem Stays.callHost {anchor : Anchor} {this : Value} {args : List Value}
    (hthis : this.Within K) (hargs : ValuesWithin K args) :
    (callHost anchor this args).Stays K (Value.Within K) := fun _ _ hT _ _ hnext =>
  hT.call _ _ ⟨hthis, hargs⟩ fun c hc => hnext c hc

theorem Stays.activation : activation.Stays K fun _ => True := fun _ _ _ act _ hnext =>
  hnext (.value act) trivial

/-- Where a computation runs makes no difference. -/
theorem Stays.within {g : Activation → Activation} (hm : m.Stays K Q) : (within g m).Stays K Q :=
  fun ι T hT act next hnext => hm ι T hT (g act) next hnext

theorem Stays.converting {r : Ref} (hm : m.Stays K Q) : (converting r m).Stays K Q := hm.within

theorem Stays.holdingRefs {rs : List Ref} (hm : m.Stays K Q) : (holdingRefs rs m).Stays K Q :=
  hm.within

theorem Stays.keeping {vs : List Value} (hm : m.Stays K Q) : (keeping vs m).Stays K Q := hm.within

theorem Stays.holding {vs : List Value} (hm : m.Stays K Q) : (holding vs m).Stays K Q := hm.within

/-- Looking at an outcome. -/
theorem Stays.attempt (hm : m.Stays K Q) : (attempt m).Stays K (Completion.Within K Q) :=
  fun ι T hT act _ hnext => hm ι T hT act _ fun c hc => hnext (.value c) hc

theorem Stays.catchThrow (hm : m.Stays K Q) {g : Value → Comp α}
    (hg : ∀ v, v.Within K → (g v).Stays K Q) : (catchThrow m g).Stays K Q := by
  intro ι T hT act next hnext
  refine hm ι T hT act _ fun c hc => ?_
  cases c with
  | value a => exact hnext (.value a) hc
  | thrown v => exact hg v hc ι T hT act next hnext
  | limit l => exact hnext (.limit l) trivial

theorem Stays.ite {c : Prop} [Decidable c] {m' : Comp α} (hm : m.Stays K Q) (hm' : m'.Stays K Q) :
    (if c then m else m').Stays K Q := by
  split
  · exact hm
  · exact hm'

/-- Doing something if a condition holds. -/
theorem Stays.when {c : Prop} [Decidable c] {m : Comp Unit} (hm : m.Stays K fun _ => True) :
    (if c then m else Pure.pure ()).Stays K fun _ => True := .ite hm (.pure trivial)

/-- Doing something unless a condition holds. -/
theorem Stays.unless {c : Prop} [Decidable c] {m : Comp Unit} (hm : m.Stays K fun _ => True) :
    (if c then Pure.pure () else m).Stays K fun _ => True := .ite (.pure trivial) hm

/-- Doing something first if a condition holds, and then the rest. -/
theorem Stays.first {c : Prop} [Decidable c] {m : Comp Unit} {g : Unit → Comp β}
    (hm : m.Stays K fun _ => True) (hg : ∀ u, (g u).Stays K R) :
    (if c then m >>= g else g ()).Stays K R := .ite (hm.bind fun u _ => hg u) (hg ())

/-- Doing something first unless a condition holds, and then the rest. -/
theorem Stays.firstUnless {c : Prop} [Decidable c] {m : Comp Unit} {g : Unit → Comp β}
    (hm : m.Stays K fun _ => True) (hg : ∀ u, (g u).Stays K R) :
    (if c then g () else m >>= g).Stays K R := .ite (hg ()) (hm.bind fun u _ => hg u)

/-- Doing two things first if a condition holds, and then the rest. -/
theorem Stays.firstTwo {c : Prop} [Decidable c] {g : α → Comp Unit} {k : Unit → Comp β}
    (hm : m.Stays K P) (hg : ∀ a, P a → (g a).Stays K fun _ => True)
    (hk : ∀ u, (k u).Stays K R) :
    (if c then m >>= fun a => g a >>= k else k ()).Stays K R :=
  .ite (hm.bind fun a ha => (hg a ha).bind fun u _ => hk u) (hk ())

theorem Stays.firstTwoUnless {c : Prop} [Decidable c] {g : α → Comp Unit} {k : Unit → Comp β}
    (hm : m.Stays K P) (hg : ∀ a, P a → (g a).Stays K fun _ => True)
    (hk : ∀ u, (k u).Stays K R) :
    (if c then k () else m >>= fun a => g a >>= k).Stays K R :=
  .ite (hk ()) (hm.bind fun a ha => (hg a ha).bind fun u _ => hk u)

/-! Loops -/

theorem Stays.forRange {g : Nat → Comp Unit} (hg : ∀ n, (g n).Stays K fun _ => True) :
    ∀ count start, (forRange count start g).Stays K fun _ => True
  | 0, _ => .pure trivial
  | count + 1, start => (hg start).bind fun _ _ => Stays.forRange hg count (start + 1)

theorem Stays.mapList {A : γ → Prop} {g : γ → Comp β} (hg : ∀ a, A a → (g a).Stays K R) :
    ∀ {as : List γ}, (∀ a ∈ as, A a) → (mapList g as).Stays K fun bs => ∀ b ∈ bs, R b
  | [], _ => .pure fun _ hb => nomatch hb
  | a :: as, has => by
    obtain ⟨ha, has⟩ := List.forall_mem_cons.mp has
    exact (hg a ha).bind fun b hb => (Stays.mapList hg has).bind fun bs hbs =>
      .pure (List.forall_mem_cons.mpr ⟨hb, hbs⟩)

theorem Stays.forList {A : γ → Prop} {g : γ → Comp Unit}
    (hg : ∀ a, A a → (g a).Stays K fun _ => True) :
    ∀ {as : List γ}, (∀ a ∈ as, A a) → (forList g as).Stays K fun _ => True
  | [], _ => .pure trivial
  | a :: as, has => by
    obtain ⟨ha, has⟩ := List.forall_mem_cons.mp has
    exact (hg a ha).bind fun _ _ => Stays.forList hg has

theorem Stays.foldList {A : γ → Prop} {g : β → γ → Comp β}
    (hg : ∀ b a, R b → A a → (g b a).Stays K R) :
    ∀ {b : β} {as : List γ}, R b → (∀ a ∈ as, A a) → (foldList g b as).Stays K R
  | _, [], hb, _ => .pure hb
  | b, a :: as, hb, has => by
    obtain ⟨ha, has⟩ := List.forall_mem_cons.mp has
    exact (hg b a hb ha).bind fun b hb => Stays.foldList hg hb has

/-! Objects of the current realm -/

theorem Stays.intrinsic (i : Intrinsic) : (intrinsic i).Stays K K :=
  .bind .activation fun act _ =>
    .bind (P := fun r : Realm => ∀ i : Intrinsic, K (r.base + i.ctorIdx))
      (.inspect fun _ hh => hh.realm act.realm) fun _ hr => .pure (hr i)

/-- Making an object with a prototype. -/
theorem Stays.newObjectOf {nature : Nature} {p : Ref} {props : Props} (ht : nature.tied = [])
    (hn : nature.Within K) (hp : K p) (hprops : props.Within K) :
    (Comp.newObject nature (some p) props).Stays K K :=
  .newObject ht hn (fun _ hq => Option.some.inj hq ▸ hp) hprops

theorem Stays.newError (c : ErrorClass) (message : String) :
    (Comp.newError c message).Stays K (Value.Within K) :=
  .bind (.intrinsic c.proto) fun _ hp =>
    .bind (.newObjectOf rfl trivial hp (.ofList (List.forall_mem_singleton.mpr trivial)))
      fun _ hr => .pure hr

theorem Stays.raise (c : ErrorClass) (message : String) :
    (raise c message : Comp α).Stays K Q := .bind (.newError c message) fun _ hv => .throwValue hv

theorem Stays.throwType (message : String) : (throwType message : Comp α).Stays K Q :=
  .raise .typeError message

/-- What would come after a failure does not matter. -/
theorem Stays.throwType_bind {message : String} :
    ((Comp.throwType message : Comp α) >>= f).Stays K R :=
  .bind (P := fun _ => False) (.throwType _) fun _ h => h.elim

theorem Stays.newArray {vs : List Value} (hvs : ValuesWithin K vs) : (Comp.newArray vs).Stays K K :=
  .bind (.intrinsic .arrayPrototype) fun _ hp => .newObjectOf rfl trivial hp (.listing trivial hvs)

theorem Stays.newPlain : Comp.newPlain.Stays K K :=
  .bind (.intrinsic .objectPrototype) fun _ hp => .newObjectOf rfl trivial hp .empty

end Comp

/-! ## Tasks -/

/-- How a statement ends inside. -/
def Flow.Within (K : Ref → Prop) : Flow → Prop
  | .normal v | .breakTo _ v | .continueTo _ v => ValueWithin? K v
  | .returned v => v.Within K

/-- What a task is about is inside. An object that is only asked about itself may be anything: the
answer comes from the heap. -/
def Task.Within (K : Ref → Prop) : Task → Prop
  | .whileStep _ _ _ _ v | .doStep _ _ _ _ v | .forStep _ _ _ _ _ _ _ v | .inStep _ _ _ _ _ v =>
    ValueWithin? K v
  | .ofStep _ _ _ _ iterator next v => iterator.Within K ∧ next.Within K ∧ ValueWithin? K v
  | .bind _ _ _ v => v.Within K
  | .gather iterator next drawn => iterator.Within K ∧ next.Within K ∧ ValuesWithin K drawn
  | .call callee this args => callee.Within K ∧ this.Within K ∧ ValuesWithin K args
  | .construct callee args newTarget => K callee ∧ ValuesWithin K args ∧ K newTarget
  | .define _ _ d => d.Within K
  | .get _ _ receiver => receiver.Within K
  | .set _ _ v receiver => v.Within K ∧ receiver.Within K
  | .setProtoOf _ p => ∀ q ∈ p, K q
  | _ => True

/-- What a task gives is inside. -/
def Task.Gives (K : Ref → Prop) : (t : Task) → t.Result → Prop
  | .eval .., v | .call .., v | .construct .., v | .get .., v => v.Within K
  | .chain .., v => ValueWithin? K v
  | .exec .., w | .whileStep .., w | .doStep .., w | .forStep .., w | .ofStep .., w
  | .inStep .., w => w.Within K
  | .getOwn .., s => ∀ t ∈ s, t.Within K
  | .gather .., vs => ValuesWithin K vs
  | .protoOf .., p => ∀ q ∈ p, K q
  | .define .., _ | .has .., _ | .set .., _ | .delete .., _ | .setProtoOf .., _
  | .isExtensible .., _ | .preventExtensions .., _ | .bind .., _ | .walk .., _ | .ownKeys .., _ =>
    True

/-- **Whatever does tasks stays inside.** -/
def Machine.Stays (K : Ref → Prop) (m : Machine) : Prop :=
  ∀ t : Task, t.Within K → (m t).Stays K (t.Gives K)

namespace Machine

namespace Stays

variable {m : Machine} {f : Frame} {e : Expr} {s : Stmt} {r : Ref} {k : Key} {v w : Value}
  {vs : List Value}

theorem eval (hm : m.Stays K) : (m.eval f e).Stays K (Value.Within K) :=
  hm (.eval f e) trivial

theorem chain (hm : m.Stays K) : (m.chain f e).Stays K (ValueWithin? K) :=
  hm (.chain f e) trivial

theorem exec (hm : m.Stays K) : (m.exec f s).Stays K (Flow.Within K) :=
  hm (.exec f [] s) trivial

theorem walk (hm : m.Stays K) {w : NameWalk} : (m.walk w).Stays K fun _ => True :=
  hm (.walk w) trivial

theorem bindTo (hm : m.Stays K) (hv : v.Within K) {sort : BindingSort}
    {target : Pattern} : (m.bindTo f sort target v).Stays K fun _ => True :=
  hm (.bind f sort target v) hv

theorem gather (hm : m.Stays K) (hv : v.Within K) (hw : w.Within K) (hvs : ValuesWithin K vs) :
    (m.gather v w vs).Stays K (ValuesWithin K) := hm (.gather v w vs) ⟨hv, hw, hvs⟩

theorem call (hm : m.Stays K) (hv : v.Within K) (hw : w.Within K) (hvs : ValuesWithin K vs) :
    (m.call v w vs).Stays K (Value.Within K) := hm (.call v w vs) ⟨hv, hw, hvs⟩

theorem construct (hm : m.Stays K) {newTarget : Ref} (hr : K r) (hvs : ValuesWithin K vs)
    (ht : K newTarget) : (m.construct r vs newTarget).Stays K (Value.Within K) :=
  hm (.construct r vs newTarget) ⟨hr, hvs, ht⟩

theorem getOwn (hm : m.Stays K) :
    (m.getOwn r k).Stays K fun s => ∀ t ∈ s, t.Within K := hm (.getOwn r k) trivial

theorem define (hm : m.Stays K) {d : Descriptor} (hd : d.Within K) :
    (m.define r k d).Stays K fun _ => True := hm (.define r k d) hd

theorem has (hm : m.Stays K) : (m.has r k).Stays K fun _ => True :=
  hm (.has r k) trivial

theorem getFor (hm : m.Stays K) (hv : v.Within K) :
    (m.getFor r k v).Stays K (Value.Within K) := hm (.get r k v) hv

theorem get (hm : m.Stays K) (hr : K r) : (m.get r k).Stays K (Value.Within K) :=
  hm (.get r k (.object r)) hr

theorem setFor (hm : m.Stays K) (hv : v.Within K) (hw : w.Within K) :
    (m.setFor r k v w).Stays K fun _ => True := hm (.set r k v w) ⟨hv, hw⟩

theorem set (hm : m.Stays K) (hr : K r) (hv : v.Within K) :
    (m.set r k v).Stays K fun _ => True := hm (.set r k v (.object r)) ⟨hv, hr⟩

theorem delete (hm : m.Stays K) : (m.delete r k).Stays K fun _ => True :=
  hm (.delete r k) trivial

theorem ownKeys (hm : m.Stays K) : (m.ownKeys r).Stays K fun _ => True :=
  hm (.ownKeys r) trivial

theorem protoOf (hm : m.Stays K) : (m.protoOf r).Stays K fun p => ∀ q ∈ p, K q :=
  hm (.protoOf r) trivial

theorem setProtoOf (hm : m.Stays K) {p : Option Ref} (hp : ∀ q ∈ p, K q) :
    (m.setProtoOf r p).Stays K fun _ => True := hm (.setProtoOf r p) hp

theorem isExtensible (hm : m.Stays K) : (m.isExtensible r).Stays K fun _ => True :=
  hm (.isExtensible r) trivial

theorem preventExtensions (hm : m.Stays K) :
    (m.preventExtensions r).Stays K fun _ => True := hm (.preventExtensions r) trivial

end Stays

end Machine

end ScriptBoundary.Script
