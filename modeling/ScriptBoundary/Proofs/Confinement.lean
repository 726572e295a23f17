import ScriptBoundary.Proofs.Transplant

/-!
# Scripts that keep to themselves

A script is confined if it touches only what can be reached from its realm and its arguments. Said
of two heaps: where a part of one heap that contains the realm and the arguments, and that no link
leads out of, stands in the other heap as well, the script does the same in both. It makes the same
edits, carried along, all of them in that part; it calls the same host functions, each of them one
whose object is in that part; and it ends in the same way.

`Program.Echoes` is this for two programs and `Comp.Confined` for a computation. While a host call
lasts the part may grow and both heaps may change, so what comes after is asked for wherever the
part stands by then.

## Main results

* `Comp.confined_newError`: making an error object is confined
-/

namespace ScriptBoundary.Script

variable {Z Z' : Zone}

/-! ## Completions and activations -/

def Completion.Fits (Z : Zone) : Completion Value → Prop
  | .value v | .thrown v => v.Fits Z
  | .limit _ => True

structure Activation.Fits (Z : Zone) (a : Activation) : Prop where
  realm : Z.HasRealm a.realm
  held : ∀ r ∈ a.held, r ∈ Z.refs
  converting : ∀ r ∈ a.converting, r ∈ Z.refs

structure HostCall.Fits (Z : Zone) (c : HostCall) : Prop where
  this : c.this.Fits Z
  args : ∀ v ∈ c.args, v.Fits Z
  activation : c.activation.Fits Z

theorem Activation.Fits.mono {a : Activation} (h : a.Fits Z) (hZ : Z.Le Z') : a.Fits Z' :=
  ⟨h.realm.mono hZ, fun r hr => hZ.refs r (h.held r hr),
    fun r hr => hZ.refs r (h.converting r hr)⟩

namespace Embedding

variable (f : Embedding)

def completion : Completion Value → Completion Value
  | .value v => .value (f.value v)
  | .thrown v => .thrown (f.value v)
  | .limit fault => .limit fault

def activation (a : Activation) : Activation :=
  { a with
    context := f.home + a.context
    realm := f.ref a.realm
    held := a.held.map f.ref
    converting := a.converting.map f.ref }

def hostCall (c : HostCall) : HostCall :=
  ⟨f.anchor c.anchor, f.value c.this, c.args.map f.value, f.activation c.activation⟩

variable {f} {g : Embedding}

theorem activation_congr (h : f.AgreesOn g Z) {a : Activation} (ha : a.Fits Z) :
    g.activation a = f.activation a := by
  have hheld : a.held.map g.ref = a.held.map f.ref :=
    List.map_congr_left fun r hr => h.ref r (ha.held r hr)
  have hconverting : a.converting.map g.ref = a.converting.map f.ref :=
    List.map_congr_left fun r hr => h.ref r (ha.converting r hr)
  rw [activation, activation, h.home, h.ref _ ha.realm.1, hheld, hconverting]

end Embedding

/-! ## Growth -/

/-- How a part of a heap and where it stands can change in the course of time: the heap evolves, the
part grows, and what was in it stays where it is. -/
structure Grows (h : Heap) (f : Embedding) (D : Set Ref) (h₁ : Heap) (f₁ : Embedding)
    (D₁ : Set Ref) : Prop where
  heap : h.Evolves h₁
  symbols : h.nextSymbol ≤ h₁.nextSymbol
  region : D ⊆ D₁
  agrees : f.AgreesOn f₁ (h.zone D)

namespace Grows

variable {h h₁ h₂ : Heap} {f f₁ f₂ : Embedding} {D D₁ D₂ : Set Ref}

theorem refl (h : Heap) (f : Embedding) (D : Set Ref) : Grows h f D h f D :=
  ⟨.refl h, Nat.le_refl _, subset_rfl, .refl f _⟩

theorem zone_le (hg : Grows h f D h₁ f₁ D₁) : (h.zone D).Le (h₁.zone D₁) :=
  Heap.zone_le hg.heap hg.symbols hg.region

theorem trans (hg : Grows h f D h₁ f₁ D₁) (hg' : Grows h₁ f₁ D₁ h₂ f₂ D₂) :
    Grows h f D h₂ f₂ D₂ :=
  ⟨hg.heap.trans hg'.heap, Nat.le_trans hg.symbols hg'.symbols, hg.region.trans hg'.region,
    hg.agrees.trans hg'.agrees hg.zone_le⟩

theorem apply {h' : Heap} (hE : h.Embeds f D h') (e : Edit) :
    Grows h f D (h.apply e).1 (f.after e h h') (e.region h D) :=
  ⟨Heap.evolves_apply h e, h.nextSymbol_apply e, Heap.subset_region e h D,
    hE.agreesOn_after e⟩

end Grows

/-! ## Programs -/

/-- Whether a program does in one heap what another does in a heap in which a part of the first one
stands, without leaving that part. -/
inductive Program.Echoes : Heap → Embedding → Set Ref → Heap → Program → Program → Prop where
  | done {h f D h' c} (hc : c.Fits (h.zone D)) :
    Echoes h f D h' (.done c) (.done (f.completion c))
  | exhausted {h f D h'} : Echoes h f D h' .exhausted .exhausted
  | look {h f D h' next p'} (hp : Echoes h f D h' (next h) p') : Echoes h f D h' (.look next) p'
  | look' {h f D h' p next'} (hp : Echoes h f D h' p (next' h')) :
    Echoes h f D h' p (.look next')
  | edit {h f D h' e next next'} (he : e.Fits (h.zone D))
    (hp : Echoes (h.apply e).1 (f.after e h h') (e.region h D) (h'.apply (f.edit e)).1
      (next (h.apply e).2) (next' (h'.apply (f.edit e)).2)) :
    Echoes h f D h' (.edit e next) (.edit (f.edit e) next')
  | call {h f D h' c next next'} (hc : c.Fits (h.zone D))
    (ha : ∃ r ∈ D, (h.object r).anchor = some c.anchor)
    (hp : ∀ {h₁ f₁ D₁ h₁' result}, Grows h f D h₁ f₁ D₁ → h₁.Embeds f₁ D₁ h₁' →
      result.Fits (h₁.zone D₁) →
        Echoes h₁ f₁ D₁ h₁' (next result) (next' (f₁.completion result))) :
    Echoes h f D h' (.call c next) (.call (f.hostCall c) next')

/-- **Whether a computation is confined**, given some values: it touches nothing but what can be
reached from its activation and these values. -/
def Comp.Confined (m : List Value → Comp Value) : Prop :=
  ∀ ⦃h f D h' act vs⦄, h.Embeds f D h' → act.Fits (h.zone D) → (∀ v ∈ vs, v.Fits (h.zone D)) →
    Program.Echoes h f D h' ((m vs).start act) ((m (vs.map f.value)).start (f.activation act))

namespace Comp

/-- **Making an object** in the current realm and going on with it. -/
theorem echoes_newObject {h h' : Heap} {f : Embedding} {D : Set Ref} (hE : h.Embeds f D h')
    {act : Activation} (hact : act.Fits (h.zone D)) (nature : Nature)
    (hnature : nature.Fits (h.zone D) ∧ f.nature nature = nature) (i : Intrinsic) (props : Props)
    (hprops : props.Fits (h.zone D) ∧ f.props props = props) (next next' : Nat → Program)
    (hnext : ∀ f₁ : Embedding, f₁.ref h.cells.size = h'.cells.size →
      ∀ h₁ h₁' : Heap, Program.Echoes h₁ f₁ (insert h.cells.size D) h₁' (next h.cells.size)
        (next' h'.cells.size)) :
    Program.Echoes h f D h'
      (.look fun h => .edit (.newObject nature (some ((h.realm act.realm).base + i.ctorIdx)) props)
        next)
      (.look fun h => .edit
        (.newObject nature (some ((h.realm (f.activation act).realm).base + i.ctorIdx)) props)
        next') := by
  obtain ⟨hproto, hproto'⟩ := hE.intrinsic hact.realm i
  let e : Edit := .newObject nature (some ((h.realm act.realm).base + i.ctorIdx)) props
  have he : e.Fits (h.zone D) :=
    ⟨hnature.1, fun r hr => Option.some.inj hr ▸ hproto, hprops.1⟩
  have he' : f.edit e = .newObject nature
      (some ((h'.realm (f.activation act).realm).base + i.ctorIdx)) props := by
    show Edit.newObject (f.nature nature) (some (f.ref _)) (f.props props) = _
    rw [hnature.2, hprops.2, ← hproto']
    rfl
  have hedit : Program.Echoes h f D h' (.edit e next) (.edit (f.edit e) next') :=
    .edit he (hnext (f.after e h h') (Function.update_self ..) _ _)
  rw [he'] at hedit
  exact .look (.look' hedit)

/-- **Making an error object** is confined. -/
theorem confined_newError (c : ErrorClass) (message : String) :
    Confined fun _ => newError c message := by
  intro h f D h' act vs hE hact _
  have hprops : (Props.ofList [(Key.ofString "message",
      Slot.hidden (Value.ofString message))]).Fits (h.zone D) := by
    refine .ofList fun p hp => ?_
    obtain rfl := List.mem_singleton.mp hp
    exact ⟨Key.fits_ofString "message", trivial⟩
  have hprops' : f.props (Props.ofList [(Key.ofString "message",
      Slot.hidden (Value.ofString message))]) = Props.ofList [(Key.ofString "message",
      Slot.hidden (Value.ofString message))] := by
    simp only [Props.ofList_embed, List.map_cons, List.map_nil, Embedding.key_ofString]
    rfl
  refine echoes_newObject hE hact .error ⟨trivial, rfl⟩ c.proto _ ⟨hprops, hprops'⟩ _ _
    fun f₁ hnew h₁ h₁' => ?_
  rw [← hnew]
  exact .done (c := .value (.object h.cells.size)) (Set.mem_insert _ _)

end Comp

end ScriptBoundary.Script
