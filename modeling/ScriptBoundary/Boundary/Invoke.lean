import ScriptBoundary.Boundary.Serve

/-!
# Host programs and the calls they get

`Act.run` runs a host program by having its requests answered. `invoke` is what happens when a
script calls a host function: the arguments are encoded, the context is lent to the function's
instance, the host's act runs, and its outcome is decoded.

The act makes requests, these run scripts, and scripts call host functions again. `invokeAt` ties
the knot with a number of levels, one for each nested call.
-/

namespace ScriptBoundary.Boundary

open Script (Completion HostCall)

variable {σ α : Type}

namespace Act

/-- Runs a host program. -/
def run (answer : (r : Request) → Run σ r.Answer) : Act σ α → Run σ α
  | .done a, s => .ok (a, s)
  | .ask r next, s =>
    match answer r s with
    | .ok (a, s) => run answer (next a) s
    | .error e => .error e
  | .read next, s => run answer (next s.host) s
  | .write host next, s => run answer next { s with host }

end Act

/-- Answers a host call of a script. A function whose callback was retired gives undefined, and the
host hears nothing of it. -/
def invoke (host : Host σ) (inner : Invoke σ) : Invoke σ := fun c => do
  match ← Run.view (·.callbackOf c.anchor) with
  | none => return .value .undefined
  | some callback =>
    let owner := c.anchor.owner
    let this ← Run.alter (·.encode owner c.this)
    let args ← Run.alter (·.encodeAll owner c.args)
    let before ← Run.view fun w => (w.instance? owner).bind (·.lent)
    Run.update (·.enter ⟨c.anchor, c.activation⟩)
    let outcome ← (host.call owner callback this args).run (answer inner)
    let v ← Run.alter (·.decode c.activation.realm outcome.value)
    Run.update (·.leave c.anchor before)
    return if outcome.isException then .thrown v else .value v

/-- Answers host calls with so many levels of nesting. -/
def invokeAt (host : Host σ) : Nat → HostCall → Run σ (Completion Script.Value)
  | 0, _ => throw .exhausted
  | levels + 1, c => invoke host (invokeAt host levels) c

/-- The levels of nesting a host program gets. -/
def levels : Nat := 1000000000

/-- Answers a request of the host. -/
def perform (host : Host σ) (r : Request) : Run σ r.Answer := answer (invokeAt host levels) r

/-- Runs a host program from a world and a state of the host. -/
def execute (host : Host σ) (m : Act σ α) (w : World) (s : σ) : Except Fault (α × State σ) :=
  m.run (perform host) ⟨w, s⟩

end ScriptBoundary.Boundary
