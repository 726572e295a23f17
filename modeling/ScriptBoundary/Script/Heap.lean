import ScriptBoundary.Script.Object

/-!
# The heap

The heap is an array of cells that only grows. All instances share it, since objects of one can
hold objects of another.

A script changes the heap through `Edit`s, and through nothing else. Each edit touches one cell or
adds one, and none of them can make an object with an anchor, change an anchor, turn an object into
one of another sort, or remove a cell. That is why facts about host callbacks can be proved for
every script at once: it is enough to look at the edits.

`Cell.links` lists the cells a cell refers to, which is what the collector follows.
-/

namespace ScriptBoundary.Script

structure Heap where
  cells : Array Cell
  /-- The identity the next symbol gets. -/
  nextSymbol : Nat
deriving Inhabited

namespace Heap

def empty : Heap := ⟨#[], Symbol.firstFresh⟩

/-- What stands where no object does. -/
def noObject : Object := ⟨.plain, none, false, ∅, none⟩

def noScope : Scope := ⟨#[], none, none, none⟩

def object (h : Heap) (r : Ref) : Object :=
  match h.cells[r]? with
  | some (.object o) => o
  | _ => noObject

def scope (h : Heap) (r : Ref) : Scope :=
  match h.cells[r]? with
  | some (.scope s) => s
  | _ => noScope

def realm (h : Heap) (r : Ref) : Realm :=
  match h.cells[r]? with
  | some (.realm m) => m
  | _ => ⟨0, 0, 0⟩

/-- Adds a cell and gives its address. -/
def add (h : Heap) (c : Cell) : Heap × Ref := ({ h with cells := h.cells.push c }, h.cells.size)

/-- Changes the object at an address, if there is one. -/
def updateObject (h : Heap) (r : Ref) (f : Object → Object) : Heap :=
  { h with cells := h.cells.modify r fun c => match c with
      | .object o => .object (f o)
      | c => c }

/-- Changes the scope at an address, if there is one. -/
def updateScope (h : Heap) (r : Ref) (f : Scope → Scope) : Heap :=
  { h with cells := h.cells.modify r fun c => match c with
      | .scope s => .scope (f s)
      | c => c }

/-- Adds the function object of a host callback. -/
def addHostFunction (h : Heap) (realm : Ref) (proto : Ref) (props : Props) (anchor : Anchor) :
    Heap × Ref :=
  h.add (.object ⟨.hostFunction realm, some proto, true, props, some anchor⟩)

end Heap

namespace Scope

def find? (s : Scope) (name : String) : Option Binding := s.bindings.find? fun b => b.name == name

/-- Adds a binding, or starts an existing one over. -/
def bind (s : Scope) (b : Binding) : Scope :=
  match s.bindings.findIdx? fun c => c.name == b.name with
  | some i => { s with bindings := s.bindings.setIfInBounds i b }
  | none => { s with bindings := s.bindings.push b }

/-- Gives a binding a value. -/
def store (s : Scope) (name : String) (v : Value) : Scope :=
  { s with bindings := s.bindings.map fun b => if b.name == name then { b with value := some v } else b }

end Scope

/-- One change of the heap by a script. -/
inductive Edit where
  | newObject (nature : Nature) (proto : Option Ref) (props : Props)
  | newScope (s : Scope)
  | newTally
  | newSymbol
  | putSlot (r : Ref) (k : Key) (s : Slot)
  | dropSlot (r : Ref) (k : Key)
  | setProto (r : Ref) (p : Option Ref)
  | closeObject (r : Ref)
  | setNature (r : Ref) (n : Nature)
  | bind (scope : Ref) (b : Binding)
  | store (scope : Ref) (name : String) (v : Value)
  | setThis (scope : Ref) (v : Value)
  | tick (tally : Ref)

namespace Heap

/-- Carries out an edit. The number is the address of a new cell, the identity of a new symbol, or
the count before a tick. -/
def apply (h : Heap) : Edit → Heap × Nat
  | .newObject nature proto props => h.add (.object ⟨nature, proto, true, props, none⟩)
  | .newScope s => h.add (.scope s)
  | .newTally => h.add (.tally 0)
  | .newSymbol => ({ h with nextSymbol := h.nextSymbol + 1 }, h.nextSymbol)
  | .putSlot r k s => (h.updateObject r fun o => { o with props := o.props.insert k s }, 0)
  | .dropSlot r k => (h.updateObject r fun o => { o with props := o.props.erase k }, 0)
  | .setProto r p => (h.updateObject r fun o => { o with proto := p }, 0)
  | .closeObject r => (h.updateObject r fun o => { o with extensible := false }, 0)
  | .setNature r n =>
    (h.updateObject r fun o => if o.nature.canBecome n then { o with nature := n } else o, 0)
  | .bind r b => (h.updateScope r fun s => s.bind b, 0)
  | .store r name v => (h.updateScope r fun s => s.store name v, 0)
  | .setThis r v =>
    (h.updateScope r fun s => { s with call := s.call.map fun c => { c with this := some v } }, 0)
  | .tick r =>
    match h.cells[r]? with
    | some (.tally n) => ({ h with cells := h.cells.setIfInBounds r (.tally (n + 1)) }, n)
    | _ => (h, 0)

end Heap

/-! ## Links -/

/-- The cell a value refers to. -/
def Value.links (v : Value) : List Ref := v.ref?.toList

theorem Value.mem_links {v : Value} {r : Ref} : r ∈ v.links ↔ v = .object r := by
  cases v <;> simp [Value.links, Value.ref?, eq_comm]

namespace Slot

def links (s : Slot) : List Ref :=
  match s.content with
  | .data v _ => v.links
  | .accessor g t => g.links ++ t.links

end Slot

namespace Nature

/-- The cells the inside of an object refers to. -/
def links : Nature → List Ref
  | .closure c => c.scope :: c.realm :: c.home.toList
  | .builtin _ realm _ => [realm]
  | .hostFunction realm => [realm]
  | .bound target this args _ => target :: this.links ++ args.flatMap Value.links
  | .proxy (some (target, handler)) _ _ => [target, handler]
  | .arguments tied => tied.map fun t => t.2.1
  | .map entries => entries.toList.flatMap fun e => match e with
    | some (k, v) => k.links ++ v.links
    | none => []
  | .set entries => entries.toList.flatMap fun e => match e with
    | some v => v.links
    | none => []
  | .listIterator subject _ _ => subject.links
  | _ => []

end Nature

/-- The cells a cell refers to. A realm refers to its global scope and all its built-in objects. -/
def Cell.links : Cell → List Ref
  | .object o => o.proto.toList ++ o.nature.links ++ o.props.slots.toList.flatMap fun p => p.2.links
  | .scope s =>
    s.outer.toList ++ s.global.toList ++ (s.bindings.toList.flatMap fun b => match b.value with
      | some v => v.links
      | none => []) ++ match s.call with
      | some c => c.callee :: c.newTarget.links ++ (match c.this with | some v => v.links | none => [])
      | none => []
  | .realm r => r.scope :: (List.range r.count).map (r.base + ·)
  | .tally _ => []

namespace Heap

/-- The cells the cell at an address refers to. -/
def links (h : Heap) (r : Ref) : List Ref :=
  match h.cells[r]? with
  | some c => c.links
  | none => []

end Heap

end ScriptBoundary.Script
