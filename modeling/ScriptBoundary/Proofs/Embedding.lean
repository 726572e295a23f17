import Mathlib.Data.List.Nodup
import Mathlib.Data.Set.Function
import Mathlib.Logic.Embedding.Basic
import ScriptBoundary.Script.Realm

/-!
# Embeddings

What scripts have made for one host can stand in two heaps at different addresses, as other cells
were added in between. An `Embedding` says where each cell and each symbol of the first heap is in
the second, and by how much the numbers of the instances are shifted. Everything that can be found
in a heap is carried along it: `Embedding.value`, `Embedding.cell` and so on put the new addresses
in the place of the old ones and leave the rest alone.

An embedding is a function on all addresses, but what it does matters on a `Zone` only: a set of
addresses, the symbols made so far, and the addresses at which there are realms. `Fits` says of each
sort of thing that all its addresses are in a zone. A cell fits if its links are in the zone
(`Cell.Fits.iff_links`), and what fits is carried the same way by embeddings that agree on the zone.

## Main results

* `Cell.Fits.links`, `Cell.Fits.within`: a cell fits where its links lead
* `Embedding.links_cell`: the links of a cell that is carried along
* `Embedding.cell_congr`: what is outside a zone does not matter to what fits it
-/

namespace ScriptBoundary.Script

/-! ## Zones -/

/-- A part of a heap: some addresses, the symbols there are, and the addresses of realms. -/
structure Zone where
  refs : Set Ref
  symbols : Nat
  realms : Set Ref

/-- Whether one zone is part of another. -/
structure Zone.Le (Z Z' : Zone) : Prop where
  refs : ∀ r ∈ Z.refs, r ∈ Z'.refs
  symbols : Z.symbols ≤ Z'.symbols
  realms : ∀ r ∈ Z.realms, r ∈ Z'.realms

mutual

/-- The property names that are written in code. -/
def Code.keys : Code → List Key
  | .member e k _ => k :: e.keys
  | .superMember k | .fixedName k => [k]
  | .template _ es | .array es | .object es | .superCall es | .declare _ es => keysOf es
  | .function _ ps fs b => keysOf ps ++ keysOf fs ++ keysOf b
  | .classDef _ p c ms => p.keys ++ c.keys ++ keysOf ms
  | .unary _ e | .delete e | .update _ _ e | .superElement e | .chain e | .grouped e | .spread e
  | .computedName e | .protoField e | .static e | .classDecl _ e | .expr e | .returnValue e
  | .throwValue e | .labeled _ e => e.keys
  | .binary _ a b | .logical _ a b | .assign _ a b | .sequence a b | .element a b _ | .field a b
  | .method a b | .getter a b | .setter a b | .patternField a b | .withDefault a b
  | .declarator a b | .whileLoop a b | .doWhile a b => a.keys ++ b.keys
  | .conditional a b c | .ifElse a b c | .forIn a b c | .forOf a b c =>
    a.keys ++ b.keys ++ c.keys
  | .call e es _ | .construct e es | .case e es => e.keys ++ keysOf es
  | .objectPattern es e | .arrayPattern es e => keysOf es ++ e.keys
  | .block _ fs es => keysOf fs ++ keysOf es
  | .forLoop _ a b c d | .tryCatch a b c d => a.keys ++ b.keys ++ c.keys ++ d.keys
  | .switch e _ fs es => e.keys ++ keysOf fs ++ keysOf es
  | _ => []

/-- The property names that are written in several pieces of code. -/
def Code.keysOf : List Code → List Key
  | [] => []
  | c :: cs => c.keys ++ keysOf cs

end

/-- The property names written in the code of a function. -/
def Closure.keys (c : Closure) : List Key :=
  Code.keysOf (c.params ++ c.functions ++ c.body ++ c.fields.map (·.2))

variable {Z Z' : Zone} {S : Set Ref}

/-- Whether a symbol is among those of a zone. -/
def Symbol.Fits (Z : Zone) (s : Symbol) : Prop := s.id < Z.symbols

def Key.Fits (Z : Zone) : Key → Prop
  | .symbol s => s.Fits Z
  | _ => True

def Value.Fits (Z : Zone) : Value → Prop
  | .symbol s => s.Fits Z
  | .object r => r ∈ Z.refs
  | _ => True

def Slot.Fits (Z : Zone) (s : Slot) : Prop :=
  match s.content with
  | .data v _ => v.Fits Z
  | .accessor g t => g.Fits Z ∧ t.Fits Z

/-- Whether an address in a zone is that of a realm. -/
def Zone.HasRealm (Z : Zone) (r : Ref) : Prop := r ∈ Z.refs ∧ r ∈ Z.realms

/-- Whether a function has only addresses of a zone. No symbol is ever written in code. -/
structure Closure.Fits (Z : Zone) (c : Closure) : Prop where
  scope : c.scope ∈ Z.refs
  realm : Z.HasRealm c.realm
  home : ∀ r ∈ c.home, r ∈ Z.refs
  fields : ∀ p ∈ c.fields, p.1.Fits Z
  code : ∀ k ∈ c.keys, ∀ s, k ≠ .symbol s

def Nature.Fits (Z : Zone) : Nature → Prop
  | .symbolBox s => s.Fits Z
  | .arguments tied => ∀ t ∈ tied, t.2.1 ∈ Z.refs
  | .closure c => c.Fits Z
  | .builtin _ realm _ | .hostFunction realm => Z.HasRealm realm
  | .bound target this args _ => target ∈ Z.refs ∧ this.Fits Z ∧ ∀ v ∈ args, v.Fits Z
  | .proxy parts _ _ => ∀ p ∈ parts, p.1 ∈ Z.refs ∧ p.2 ∈ Z.refs
  | .map entries => ∀ e ∈ entries, ∀ p ∈ e, p.1.Fits Z ∧ p.2.Fits Z
  | .set entries => ∀ e ∈ entries, ∀ v ∈ e, v.Fits Z
  | .listIterator subject _ _ => subject.Fits Z
  | _ => True

def Props.Fits (Z : Zone) (ps : Props) : Prop := ∀ p ∈ ps.slots, p.1.Fits Z ∧ p.2.Fits Z

structure Object.Fits (Z : Zone) (o : Object) : Prop where
  nature : o.nature.Fits Z
  proto : ∀ r ∈ o.proto, r ∈ Z.refs
  props : o.props.Fits Z

def Binding.Fits (Z : Zone) (b : Binding) : Prop := ∀ v ∈ b.value, v.Fits Z

structure CallInfo.Fits (Z : Zone) (c : CallInfo) : Prop where
  this : ∀ v ∈ c.this, v.Fits Z
  callee : c.callee ∈ Z.refs
  newTarget : c.newTarget.Fits Z

structure Scope.Fits (Z : Zone) (s : Scope) : Prop where
  bindings : ∀ b ∈ s.bindings, b.Fits Z
  outer : ∀ r ∈ s.outer, r ∈ Z.refs
  call : ∀ c ∈ s.call, c.Fits Z
  global : ∀ r ∈ s.global, Z.HasRealm r

/-- Whether a realm has all its built-in objects, and has them in a zone. -/
structure Realm.Fits (Z : Zone) (m : Realm) : Prop where
  scope : m.scope ∈ Z.refs
  block : ∀ k < m.count, m.base + k ∈ Z.refs
  full : Intrinsic.count ≤ m.count

def Cell.Fits (Z : Zone) : Cell → Prop
  | .object o => o.Fits Z
  | .scope s => s.Fits Z
  | .realm m => m.Fits Z
  | .tally _ => True

/-- Keys that texts name are no symbols. -/
theorem Key.fits_ofText (t : Text) : (Key.ofText t).Fits Z := by
  unfold Key.ofText
  split <;> trivial

theorem Key.fits_ofString (s : String) : (Key.ofString s).Fits Z := Key.fits_ofText _

theorem Key.fits_ofNat (n : Nat) : (Key.ofNat n).Fits Z :=
  Key.ofNat_eq_ofText n ▸ Key.fits_ofText _

/-! ### Larger zones -/

section Mono

variable (hZ : Z.Le Z')
include hZ

theorem Symbol.Fits.mono {s : Symbol} (h : s.Fits Z) : s.Fits Z' := Nat.lt_of_lt_of_le h hZ.symbols

theorem Key.Fits.mono {k : Key} (h : k.Fits Z) : k.Fits Z' := by
  cases k with
  | symbol s => exact Symbol.Fits.mono hZ h
  | _ => trivial

theorem Value.Fits.mono {v : Value} (h : v.Fits Z) : v.Fits Z' := by
  cases v with
  | symbol s => exact Symbol.Fits.mono hZ h
  | object r => exact hZ.refs r h
  | _ => trivial

theorem Slot.Fits.mono {s : Slot} (h : s.Fits Z) : s.Fits Z' := by
  unfold Slot.Fits at *
  split
  · next v w hs =>
    rw [hs] at h
    exact Value.Fits.mono hZ h
  · next g t hs =>
    rw [hs] at h
    exact ⟨Value.Fits.mono hZ h.1, Value.Fits.mono hZ h.2⟩

theorem Zone.HasRealm.mono {r : Ref} (h : Z.HasRealm r) : Z'.HasRealm r :=
  ⟨hZ.refs r h.1, hZ.realms r h.2⟩

theorem Closure.Fits.mono {c : Closure} (h : c.Fits Z) : c.Fits Z' :=
  ⟨hZ.refs _ h.scope, Zone.HasRealm.mono hZ h.realm, fun r hr => hZ.refs r (h.home r hr),
    fun p hp => Key.Fits.mono hZ (h.fields p hp), h.code⟩

theorem Nature.Fits.mono {n : Nature} (h : n.Fits Z) : n.Fits Z' := by
  cases n with
  | symbolBox s => exact Symbol.Fits.mono hZ h
  | arguments tied => exact fun t ht => hZ.refs _ (h t ht)
  | closure c => exact Closure.Fits.mono hZ h
  | builtin name realm b => exact Zone.HasRealm.mono hZ h
  | hostFunction realm => exact Zone.HasRealm.mono hZ h
  | bound target this args b =>
    exact ⟨hZ.refs _ h.1, Value.Fits.mono hZ h.2.1, fun v hv => Value.Fits.mono hZ (h.2.2 v hv)⟩
  | proxy parts b b' => exact fun p hp => ⟨hZ.refs _ (h p hp).1, hZ.refs _ (h p hp).2⟩
  | map entries =>
    exact fun e he p hp =>
      ⟨Value.Fits.mono hZ (h e he p hp).1, Value.Fits.mono hZ (h e he p hp).2⟩
  | set entries => exact fun e he v hv => Value.Fits.mono hZ (h e he v hv)
  | listIterator subject next sort => exact Value.Fits.mono hZ h
  | _ => trivial

theorem Props.Fits.mono {ps : Props} (h : ps.Fits Z) : ps.Fits Z' := fun p hp =>
  ⟨Key.Fits.mono hZ (h p hp).1, Slot.Fits.mono hZ (h p hp).2⟩

theorem Object.Fits.mono {o : Object} (h : o.Fits Z) : o.Fits Z' :=
  ⟨Nature.Fits.mono hZ h.nature, fun r hr => hZ.refs r (h.proto r hr), Props.Fits.mono hZ h.props⟩

theorem Binding.Fits.mono {b : Binding} (h : b.Fits Z) : b.Fits Z' := fun v hv =>
  Value.Fits.mono hZ (h v hv)

theorem CallInfo.Fits.mono {c : CallInfo} (h : c.Fits Z) : c.Fits Z' :=
  ⟨fun v hv => Value.Fits.mono hZ (h.this v hv), hZ.refs _ h.callee,
    Value.Fits.mono hZ h.newTarget⟩

theorem Scope.Fits.mono {s : Scope} (h : s.Fits Z) : s.Fits Z' :=
  ⟨fun b hb => Binding.Fits.mono hZ (h.bindings b hb), fun r hr => hZ.refs r (h.outer r hr),
    fun c hc => CallInfo.Fits.mono hZ (h.call c hc),
    fun r hr => Zone.HasRealm.mono hZ (h.global r hr)⟩

theorem Realm.Fits.mono {m : Realm} (h : m.Fits Z) : m.Fits Z' :=
  ⟨hZ.refs _ h.scope, fun k hk => hZ.refs _ (h.block k hk), h.full⟩

theorem Cell.Fits.mono {c : Cell} (h : c.Fits Z) : c.Fits Z' := by
  cases c with
  | object o => exact Object.Fits.mono hZ h
  | scope s => exact Scope.Fits.mono hZ h
  | realm m => exact Realm.Fits.mono hZ h
  | tally n => trivial

end Mono

/-! ### Zones and links -/

private theorem forall_mem_some {α : Type} {p : α → Prop} {a : α} :
    (∀ b ∈ some a, p b) ↔ p a :=
  ⟨fun h => h a rfl, fun h _ hb => Option.some.inj hb ▸ h⟩

/-- A zone with other addresses. -/
def Zone.within (Z : Zone) (S : Set Ref) : Zone := { Z with refs := S }

/-- The links of a table some of whose entries are gone. -/
private theorem forall_mem_entries_iff {α : Type} {entries : Array (Option α)} {P : α → Prop}
    {links : Option α → List Ref} (hnone : links none = [])
    (hsome : ∀ a, some a ∈ entries → (P a ↔ ∀ q ∈ links (some a), q ∈ S)) :
    (∀ e ∈ entries, ∀ a ∈ e, P a) ↔ ∀ q ∈ entries.toList.flatMap links, q ∈ S := by
  rw [List.forall_mem_flatMap]
  refine forall_congr' fun e => ?_
  rw [Array.mem_toList_iff]
  refine forall_congr' fun he => ?_
  cases e with
  | none =>
    rw [hnone]
    exact iff_of_true nofun nofun
  | some a => exact forall_mem_some.trans (hsome a he)

theorem Value.Fits.within_iff {v : Value} (h : v.Fits Z) :
    v.Fits (Z.within S) ↔ ∀ q ∈ v.links, q ∈ S := by
  cases v with
  | symbol s => exact iff_of_true h nofun
  | object r => exact (List.forall_mem_singleton (p := (· ∈ S))).symm
  | _ => exact iff_of_true trivial nofun

theorem Slot.Fits.within_iff {s : Slot} (h : s.Fits Z) :
    s.Fits (Z.within S) ↔ ∀ q ∈ s.links, q ∈ S := by
  obtain ⟨v | ⟨g, t⟩, e, c⟩ := s
  · exact Value.Fits.within_iff h
  · exact (and_congr h.1.within_iff h.2.within_iff).trans List.forall_mem_append.symm

@[simp] theorem Key.fits_within {k : Key} : k.Fits (Z.within S) ↔ k.Fits Z := by cases k <;> rfl

theorem Props.Fits.within_iff {ps : Props} (h : ps.Fits Z) :
    ps.Fits (Z.within S) ↔ ∀ p ∈ ps.slots, ∀ q ∈ p.2.links, q ∈ S :=
  forall₂_congr fun p hp => by rw [Key.fits_within, (h p hp).2.within_iff, and_iff_right (h p hp).1]

@[simp] theorem Zone.hasRealm_within {r : Ref} (h : Z.HasRealm r) :
    (Z.within S).HasRealm r ↔ r ∈ S := and_iff_left h.2

theorem Closure.Fits.within_iff {c : Closure} (h : c.Fits Z) :
    c.Fits (Z.within S) ↔ c.scope ∈ S ∧ c.realm ∈ S ∧ ∀ r ∈ c.home, r ∈ S :=
  ⟨fun hc => ⟨hc.scope, hc.realm.1, hc.home⟩, fun hS => ⟨hS.1, ⟨hS.2.1, h.realm.2⟩, hS.2.2,
    fun p hp => Key.fits_within.mpr (h.fields p hp), h.code⟩⟩

theorem Nature.Fits.within_iff {n : Nature} (h : n.Fits Z) :
    n.Fits (Z.within S) ↔ ∀ q ∈ n.links, q ∈ S := by
  cases n with
  | arguments tied => exact List.forall_mem_map.symm
  | closure c =>
    rw [links, List.forall_mem_cons, List.forall_mem_cons]
    refine (Closure.Fits.within_iff h).trans (and_congr_right fun _ => and_congr_right fun _ => ?_)
    exact forall_congr' fun r => imp_congr_left Option.mem_toList.symm
  | builtin name realm b =>
    exact (Zone.hasRealm_within h).trans (List.forall_mem_singleton (p := (· ∈ S))).symm
  | hostFunction realm =>
    exact (Zone.hasRealm_within h).trans (List.forall_mem_singleton (p := (· ∈ S))).symm
  | bound target this args b =>
    rw [links, List.forall_mem_append, List.forall_mem_cons, List.forall_mem_flatMap, and_assoc]
    exact and_congr_right fun _ => and_congr h.2.1.within_iff <|
      forall₂_congr fun v hv => (h.2.2 v hv).within_iff
  | proxy parts b b' =>
    cases parts with
    | none => exact iff_of_true nofun nofun
    | some p => simp [Nature.Fits, links, Zone.within]
  | map entries =>
    refine forall_mem_entries_iff rfl fun p he => ?_
    rw [List.forall_mem_append, ← (h _ he p rfl).1.within_iff, ← (h _ he p rfl).2.within_iff]
  | set entries => exact forall_mem_entries_iff rfl fun v he => (h _ he v rfl).within_iff
  | listIterator subject next sort => exact Value.Fits.within_iff h
  | symbolBox s => exact iff_of_true h nofun
  | _ => exact iff_of_true trivial nofun

theorem Object.Fits.within_iff {o : Object} (h : o.Fits Z) :
    o.Fits (Z.within S) ↔ ∀ q ∈ (Cell.object o).links, q ∈ S := by
  rw [Cell.links, List.forall_mem_append, List.forall_mem_append, List.forall_mem_flatMap,
    ← h.nature.within_iff]
  constructor
  · rintro ⟨hn, hp, hps⟩
    exact ⟨⟨fun q hq => hp q (Option.mem_toList.mp hq), hn⟩, fun p hp =>
      h.props.within_iff.mp hps p (Array.mem_toList_iff.mp hp)⟩
  · rintro ⟨⟨hp, hn⟩, hps⟩
    exact ⟨hn, fun q hq => hp q (Option.mem_toList.mpr hq), h.props.within_iff.mpr fun p hp =>
      hps p (Array.mem_toList_iff.mpr hp)⟩

theorem Scope.Fits.within_iff {s : Scope} (h : s.Fits Z) :
    s.Fits (Z.within S) ↔ ∀ q ∈ (Cell.scope s).links, q ∈ S := by
  obtain ⟨bindings, outer, call, global⟩ := s
  have hshape : Scope.Fits (Z.within S) ⟨bindings, outer, call, global⟩ ↔
      (((∀ r ∈ outer, r ∈ S) ∧ ∀ r ∈ global, r ∈ S) ∧ ∀ b ∈ bindings, b.Fits (Z.within S))
        ∧ ∀ c ∈ call, c.Fits (Z.within S) :=
    ⟨fun hs => ⟨⟨⟨hs.outer, fun r hr => (hs.global r hr).1⟩, hs.bindings⟩, hs.call⟩,
      fun hS => ⟨hS.1.2, hS.1.1.1, hS.2, fun r hr => ⟨hS.1.1.2 r hr, (h.global r hr).2⟩⟩⟩
  rw [hshape, Cell.links, List.forall_mem_append, List.forall_mem_append, List.forall_mem_append,
    List.forall_mem_flatMap]
  simp only [Option.mem_toList, Array.mem_toList_iff]
  refine and_congr (and_congr_right fun _ => forall₂_congr fun b hb => ?_) ?_
  · obtain ⟨name, value, m, strict⟩ := b
    cases value with
    | none => exact iff_of_true nofun nofun
    | some v => exact forall_mem_some.trans (h.bindings _ hb v rfl).within_iff
  · cases call with
    | none => exact iff_of_true nofun nofun
    | some c =>
      have hc := h.call c rfl
      obtain ⟨this, callee, newTarget⟩ := c
      rw [forall_mem_some, List.forall_mem_append, List.forall_mem_cons, ← hc.newTarget.within_iff]
      cases this with
      | none => exact ⟨fun hS => ⟨⟨hS.callee, hS.newTarget⟩, nofun⟩,
          fun hS => ⟨nofun, hS.1.1, hS.1.2⟩⟩
      | some v =>
        rw [← (hc.this v rfl).within_iff]
        exact ⟨fun hS => ⟨⟨hS.callee, hS.newTarget⟩, hS.this v rfl⟩,
          fun hS => ⟨forall_mem_some.mpr hS.2, hS.1.1, hS.1.2⟩⟩

theorem Realm.Fits.within_iff {m : Realm} (h : m.Fits Z) :
    m.Fits (Z.within S) ↔ ∀ q ∈ (Cell.realm m).links, q ∈ S := by
  rw [Cell.links, List.forall_mem_cons, List.forall_mem_map]
  simp only [List.mem_range]
  exact ⟨fun hm => ⟨hm.scope, hm.block⟩, fun hS => ⟨hS.1, hS.2, h.full⟩⟩

/-- **A cell fits where its links lead.** -/
theorem Cell.Fits.within_iff {c : Cell} (h : c.Fits Z) :
    c.Fits (Z.within S) ↔ ∀ q ∈ c.links, q ∈ S := by
  cases c with
  | object o => exact Object.Fits.within_iff h
  | scope s => exact Scope.Fits.within_iff h
  | realm m => exact Realm.Fits.within_iff h
  | tally n => exact iff_of_true trivial nofun

theorem Value.Fits.links {v : Value} (h : v.Fits Z) : ∀ q ∈ v.links, q ∈ Z.refs :=
  h.within_iff.mp h

theorem Cell.Fits.links {c : Cell} (h : c.Fits Z) : ∀ q ∈ c.links, q ∈ Z.refs :=
  h.within_iff.mp h

/-! ## Carrying things along -/

theorem Props.ext_slots {ps qs : Props} (h : ps.slots = qs.slots) : ps = qs := by
  cases ps
  cases qs
  congr

/-- Where the cells and symbols of one heap are in another, and how the numbers of the instances
are shifted. -/
structure Embedding where
  ref : Ref → Ref
  symbol : Nat ↪ Nat
  home : Nat

namespace Embedding

variable (f : Embedding)

def symbolOf (s : Symbol) : Symbol := { s with id := f.symbol s.id }

def key : Key → Key
  | .symbol s => .symbol (f.symbolOf s)
  | k => k

def value : Value → Value
  | .symbol s => .symbol (f.symbolOf s)
  | .object r => .object (f.ref r)
  | v => v

def slot (s : Slot) : Slot :=
  { s with content := match s.content with
      | .data v w => .data (f.value v) w
      | .accessor g t => .accessor (f.value g) (f.value t) }

/-- Keys that differ do so wherever they are carried. -/
theorem key_injective : Function.Injective f.key := by
  intro k k' heq
  cases k with
  | symbol s =>
    cases k' with
    | symbol t =>
      obtain ⟨hid, hd⟩ := Symbol.mk.inj (Key.symbol.inj heq)
      obtain ⟨i, d⟩ := s
      obtain ⟨j, e⟩ := t
      obtain rfl : i = j := f.symbol.injective hid
      obtain rfl : d = e := hd
      rfl
    | _ => cases heq
  | _ =>
    cases k' with
    | symbol t => cases heq
    | _ => exact heq

theorem beq_key (k k' : Key) : (f.key k == f.key k') = (k == k') := by
  rw [Bool.eq_iff_iff, beq_iff_eq, beq_iff_eq]
  exact f.key_injective.eq_iff

def props (ps : Props) : Props where
  slots := ps.slots.map fun p => (f.key p.1, f.slot p.2)
  distinct := by
    rw [Array.toList_map, List.map_map]
    have hkeys := List.Nodup.map f.key_injective ps.distinct
    rwa [List.map_map] at hkeys

def closure (c : Closure) : Closure :=
  { c with
    scope := f.ref c.scope
    realm := f.ref c.realm
    home := c.home.map f.ref
    fields := c.fields.map fun p => (f.key p.1, p.2) }

def nature : Nature → Nature
  | .symbolBox s => .symbolBox (f.symbolOf s)
  | .arguments tied => .arguments (tied.map fun t => (t.1, f.ref t.2.1, t.2.2))
  | .closure c => .closure (f.closure c)
  | .builtin name realm b => .builtin name (f.ref realm) b
  | .hostFunction realm => .hostFunction (f.ref realm)
  | .bound target this args b => .bound (f.ref target) (f.value this) (args.map f.value) b
  | .proxy parts b b' => .proxy (parts.map fun p => (f.ref p.1, f.ref p.2)) b b'
  | .map entries => .map (entries.map (Option.map fun p => (f.value p.1, f.value p.2)))
  | .set entries => .set (entries.map (Option.map f.value))
  | .listIterator subject next sort => .listIterator (f.value subject) next sort
  | n => n

def anchor (a : Anchor) : Anchor := ⟨f.home + a.owner, a.id⟩

def object (o : Object) : Object :=
  ⟨f.nature o.nature, o.proto.map f.ref, o.extensible, f.props o.props, o.anchor.map f.anchor⟩

def binding (b : Binding) : Binding := { b with value := b.value.map f.value }

def callInfo (c : CallInfo) : CallInfo :=
  ⟨c.this.map f.value, f.ref c.callee, f.value c.newTarget⟩

def scope (s : Scope) : Scope :=
  ⟨s.bindings.map f.binding, s.outer.map f.ref, s.call.map f.callInfo, s.global.map f.ref⟩

def realm (m : Realm) : Realm := ⟨f.ref m.base, f.ref m.scope, m.count⟩

def cell : Cell → Cell
  | .object o => .object (f.object o)
  | .scope s => .scope (f.scope s)
  | .realm m => .realm (f.realm m)
  | .tally n => .tally n

/-! ### What is carried along keeps its shape -/

theorem slots_props (ps : Props) :
    (f.props ps).slots = ps.slots.map fun p => (f.key p.1, f.slot p.2) := rfl

@[simp] theorem props_empty : f.props ∅ = ∅ := Props.ext_slots Array.map_empty

@[simp] theorem object_noObject : f.object Heap.noObject = Heap.noObject := by
  simp [object, Heap.noObject, nature]

@[simp] theorem scope_noScope : f.scope Heap.noScope = Heap.noScope := by
  simp [scope, Heap.noScope]

@[simp] theorem isCallable_nature (n : Nature) : (f.nature n).isCallable = n.isCallable := by
  cases n <;> rfl

theorem key_ofText (t : Text) : f.key (Key.ofText t) = Key.ofText t := by
  unfold Key.ofText
  split <;> rfl

theorem key_ofString (s : String) : f.key (Key.ofString s) = Key.ofString s := f.key_ofText _

theorem key_length : f.key Key.length = Key.length := f.key_ofString "length"

theorem key_ofNat (n : Nat) : f.key (Key.ofNat n) = Key.ofNat n := by
  rw [Key.ofNat_eq_ofText, key_ofText]

theorem canBecome_nature (n n' : Nature) :
    (f.nature n).canBecome (f.nature n') = n.canBecome n' := by
  cases n <;> cases n' <;> rfl

theorem links_value (v : Value) : (f.value v).links = v.links.map f.ref := by cases v <;> rfl

theorem links_slot (s : Slot) : (f.slot s).links = s.links.map f.ref := by
  obtain ⟨v | ⟨g, t⟩, e, c⟩ := s
  · exact f.links_value v
  · exact (congrArg₂ (· ++ ·) (f.links_value g) (f.links_value t)).trans List.map_append.symm

theorem links_nature (n : Nature) : (f.nature n).links = n.links.map f.ref := by
  cases n with
  | arguments tied => simp [nature, Nature.links]
  | closure c => cases h : c.home <;> simp [nature, closure, Nature.links, h]
  | builtin name realm b => rfl
  | hostFunction realm => rfl
  | bound target this args b =>
    simp [nature, Nature.links, links_value, List.flatMap_map, List.map_flatMap]
  | proxy parts b b' => cases parts <;> rfl
  | map entries =>
    simp only [nature, Nature.links, Array.toList_map, List.flatMap_map, List.map_flatMap]
    refine List.flatMap_congr fun e _ => ?_
    cases e with
    | none => rfl
    | some p => simp [links_value]
  | set entries =>
    simp only [nature, Nature.links, Array.toList_map, List.flatMap_map, List.map_flatMap]
    refine List.flatMap_congr fun e _ => ?_
    cases e with
    | none => rfl
    | some v => simp [links_value]
  | listIterator subject next sort => exact f.links_value subject
  | _ => rfl

/-- A realm is carried along as a block. -/
def KeepsBlock (m : Realm) : Prop := ∀ k < m.count, f.ref (m.base + k) = f.ref m.base + k

/-- **The links of a cell** that is carried along. -/
theorem links_cell {c : Cell} (hblock : ∀ m, c = .realm m → f.KeepsBlock m) :
    (f.cell c).links = c.links.map f.ref := by
  cases c with
  | object o =>
    have hprops : (f.props o.props).slots.toList.flatMap (fun p => p.2.links) =
        (o.props.slots.toList.flatMap fun p => p.2.links).map f.ref := by
      simp [slots_props, List.flatMap_map, List.map_flatMap, links_slot]
    cases hp : o.proto <;> simp [cell, object, Cell.links, links_nature, hprops, hp]
  | scope s =>
    obtain ⟨bindings, outer, call, global⟩ := s
    have hbindings : ∀ b : Binding, (f.binding b).value = b.value.map f.value := fun _ => rfl
    simp only [cell, scope, Cell.links, Array.toList_map, List.flatMap_map, List.map_append,
      List.map_flatMap, hbindings]
    refine congrArg₂ (· ++ ·) (congrArg₂ (· ++ ·) ?_ (List.flatMap_congr fun b _ => ?_)) ?_
    · cases outer <;> cases global <;> rfl
    · cases b.value with
      | none => rfl
      | some v => exact f.links_value v
    · cases call with
      | none => rfl
      | some c =>
        obtain ⟨this, callee, newTarget⟩ := c
        cases this <;> simp [callInfo, links_value]
  | realm m =>
    have hm := hblock m rfl
    simp only [cell, realm, Cell.links, List.map_cons, List.map_map, List.cons.injEq, true_and]
    exact List.map_congr_left fun k hk => (hm k (List.mem_range.mp hk)).symm
  | tally n => rfl

/-! ### Only the zone matters -/

/-- Whether two embeddings do the same on a zone. -/
structure AgreesOn (f g : Embedding) (Z : Zone) : Prop where
  ref : ∀ r ∈ Z.refs, g.ref r = f.ref r
  symbol : ∀ s < Z.symbols, g.symbol s = f.symbol s
  home : g.home = f.home

section Agree

variable {f} {g : Embedding} {Z : Zone}

theorem AgreesOn.refl (f : Embedding) (Z : Zone) : f.AgreesOn f Z :=
  ⟨fun _ _ => rfl, fun _ _ => rfl, rfl⟩

theorem AgreesOn.trans {g' : Embedding} {Z' : Zone} (h : f.AgreesOn g Z) (h' : g.AgreesOn g' Z')
    (hZ : Z.Le Z') : f.AgreesOn g' Z :=
  ⟨fun r hr => (h'.ref r (hZ.refs r hr)).trans (h.ref r hr),
    fun s hs => (h'.symbol s (Nat.lt_of_lt_of_le hs hZ.symbols)).trans (h.symbol s hs),
    h'.home.trans h.home⟩

variable (h : f.AgreesOn g Z)
include h

theorem symbolOf_congr {s : Symbol} (hs : s.Fits Z) : g.symbolOf s = f.symbolOf s := by
  rw [symbolOf, symbolOf, h.symbol _ hs]

theorem key_congr {k : Key} (hk : k.Fits Z) : g.key k = f.key k := by
  cases k with
  | symbol s => exact congrArg Key.symbol (symbolOf_congr h hk)
  | _ => rfl

theorem value_congr {v : Value} (hv : v.Fits Z) : g.value v = f.value v := by
  cases v with
  | symbol s => exact congrArg Value.symbol (symbolOf_congr h hv)
  | object r => exact congrArg Value.object (h.ref r hv)
  | _ => rfl

theorem slot_congr {s : Slot} (hs : s.Fits Z) : g.slot s = f.slot s := by
  obtain ⟨v | ⟨p, q⟩, e, c⟩ := s
  · simp only [slot, value_congr h (v := v) hs]
  · simp only [slot, value_congr h hs.1, value_congr h hs.2]

theorem props_congr {ps : Props} (hps : ps.Fits Z) : g.props ps = f.props ps :=
  Props.ext_slots <| Array.map_congr_left fun p hp =>
    Prod.ext (key_congr h (hps p hp).1) (slot_congr h (hps p hp).2)

theorem closure_congr {c : Closure} (hc : c.Fits Z) : g.closure c = f.closure c := by
  have hhome : c.home.map g.ref = c.home.map f.ref :=
    Option.map_congr fun r hr => h.ref r (hc.home r hr)
  have hfields : c.fields.map (fun p => (g.key p.1, p.2)) =
      c.fields.map fun p => (f.key p.1, p.2) :=
    List.map_congr_left fun p hp => by rw [key_congr h (hc.fields p hp)]
  rw [closure, closure, h.ref _ hc.scope, h.ref _ hc.realm.1, hhome, hfields]

theorem nature_congr {n : Nature} (hn : n.Fits Z) : g.nature n = f.nature n := by
  cases n with
  | symbolBox s => exact congrArg Nature.symbolBox (symbolOf_congr h hn)
  | arguments tied =>
    exact congrArg Nature.arguments (List.map_congr_left fun t ht => by rw [h.ref _ (hn t ht)])
  | closure c => exact congrArg Nature.closure (closure_congr h hn)
  | builtin name realm b => exact congrArg (Nature.builtin name · b) (h.ref _ hn.1)
  | hostFunction realm => exact congrArg Nature.hostFunction (h.ref _ hn.1)
  | bound target this args b =>
    have hargs : args.map g.value = args.map f.value :=
      List.map_congr_left fun v hv => value_congr h (hn.2.2 v hv)
    rw [nature, nature, h.ref _ hn.1, value_congr h hn.2.1, hargs]
  | proxy parts b b' =>
    exact congrArg (Nature.proxy · b b') (Option.map_congr fun p hp => by
      rw [h.ref _ (hn p hp).1, h.ref _ (hn p hp).2])
  | map entries =>
    exact congrArg Nature.map (Array.map_congr_left fun e he => Option.map_congr fun p hp => by
      rw [value_congr h (hn e he p hp).1, value_congr h (hn e he p hp).2])
  | set entries =>
    exact congrArg Nature.set (Array.map_congr_left fun e he =>
      Option.map_congr fun v hv => value_congr h (hn e he v hv))
  | listIterator subject next sort =>
    exact congrArg (Nature.listIterator · next sort) (value_congr h hn)
  | _ => rfl

theorem anchor_congr (a : Anchor) : g.anchor a = f.anchor a := by rw [anchor, anchor, h.home]

theorem object_congr {o : Object} (ho : o.Fits Z) : g.object o = f.object o := by
  have hproto : o.proto.map g.ref = o.proto.map f.ref :=
    Option.map_congr fun r hr => h.ref r (ho.proto r hr)
  have hanchor : o.anchor.map g.anchor = o.anchor.map f.anchor :=
    Option.map_congr fun a _ => anchor_congr h a
  rw [object, object, nature_congr h ho.nature, hproto, props_congr h ho.props, hanchor]

theorem callInfo_congr {c : CallInfo} (hc : c.Fits Z) : g.callInfo c = f.callInfo c := by
  have hthis : c.this.map g.value = c.this.map f.value :=
    Option.map_congr fun v hv => value_congr h (hc.this v hv)
  rw [callInfo, callInfo, hthis, h.ref _ hc.callee, value_congr h hc.newTarget]

theorem binding_congr {b : Binding} (hb : b.Fits Z) : g.binding b = f.binding b := by
  have hvalue : b.value.map g.value = b.value.map f.value :=
    Option.map_congr fun v hv => value_congr h (hb v hv)
  rw [binding, binding, hvalue]

theorem scope_congr {s : Scope} (hs : s.Fits Z) : g.scope s = f.scope s := by
  have hbindings : s.bindings.map g.binding = s.bindings.map f.binding :=
    Array.map_congr_left fun b hb => binding_congr h (hs.bindings b hb)
  have houter : s.outer.map g.ref = s.outer.map f.ref :=
    Option.map_congr fun r hr => h.ref r (hs.outer r hr)
  have hcall : s.call.map g.callInfo = s.call.map f.callInfo :=
    Option.map_congr fun c hc => callInfo_congr h (hs.call c hc)
  have hglobal : s.global.map g.ref = s.global.map f.ref :=
    Option.map_congr fun r hr => h.ref r (hs.global r hr).1
  rw [scope, scope, hbindings, houter, hcall, hglobal]

theorem realm_congr {m : Realm} (hm : m.Fits Z) : g.realm m = f.realm m := by
  have hbase : m.base ∈ Z.refs := hm.block 0 (Nat.lt_of_lt_of_le (by decide) hm.full)
  rw [realm, realm, h.ref _ hbase, h.ref _ hm.scope]

/-- **What is outside a zone** does not matter to a cell that fits it. -/
theorem cell_congr {c : Cell} (hc : c.Fits Z) : g.cell c = f.cell c := by
  cases c with
  | object o => exact congrArg Cell.object (object_congr h hc)
  | scope s => exact congrArg Cell.scope (scope_congr h hc)
  | realm m => exact congrArg Cell.realm (realm_congr h hc)
  | tally n => rfl

end Agree

end Embedding

end ScriptBoundary.Script
