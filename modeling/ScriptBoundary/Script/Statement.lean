import ScriptBoundary.Script.Expression

/-!
# Statements

How statements run. Each ends in a `Flow`, which carries the completion value a script has when it
is evaluated. Loops count their iterations in the tally of the running call; every new iteration
is a task of its own, so a loop takes as many levels of the machine as it has iterations.
-/

namespace ScriptBoundary.Script

open Script.Comp

namespace Flow

/-- The completion value. -/
def value? : Flow → Option Value
  | .normal v | .breakTo _ v | .continueTo _ v => v
  | .returned v => some v

/-- Fills in a completion value where there is none. -/
def fill (v : Option Value) : Flow → Flow
  | .normal w => .normal (w.or v)
  | .breakTo l w => .breakTo l (w.or v)
  | .continueTo l w => .continueTo l (w.or v)
  | .returned w => .returned w

/-- Whether control goes on to the next statement. -/
def isNormal : Flow → Bool
  | .normal _ => true
  | _ => false

/-- What a loop makes of the end of its body: another iteration with the completion value so far,
or the end of the loop. -/
def afterBody (labels : List String) (v : Option Value) : Flow → Flow ⊕ Option Value
  | .normal w => .inr (w.or v)
  | .continueTo none w => .inr (w.or v)
  | .continueTo (some l) w => if labels.contains l then .inr (w.or v) else .inl (.continueTo (some l) (w.or v))
  | .breakTo none w => .inl (.normal (w.or v))
  | .breakTo (some l) w => .inl (.breakTo (some l) (w.or v))
  | .returned w => .inl (.returned w)

end Flow

/-- Counts a loop iteration; the first one past the limit is a fault. -/
def tick (f : Frame) : Comp Unit := do
  let limit := (← activation).limits.loopIterations
  let before ← perform (.tick f.tally)
  if before > limit then exceed (.loop limit)

/-- Creates the functions that a scope declares. -/
def declareFunctions (scope : Ref) (functions : List Code) : Comp Unit :=
  forList (fun code => do
    let fn ← newNamedClosure scope code
    performOnly (.bind scope ⟨code.functionName, some (.object fn), true, true⟩)) functions

/-- Runs code in a scope that it declares names in. -/
def inBlockScope {α : Type} (f : Frame) (lexicals : List Lexical) (functions : List Code)
    (body : Frame → Comp α) : Comp α := do
  if lexicals.isEmpty && functions.isEmpty then body f
  else
    let scope ← newScope f.scope (lexicals.map Lexical.binding)
    holdingRefs [scope] do
      declareFunctions scope functions
      body { f with scope := scope }

/-- A copy of the scope of a loop's own names, for the next iteration. -/
def copyScope (scope : Ref) : Comp Ref := do perform (.newScope (← readScope scope))

/-- The names that the head of a `for` loop over values declares. -/
def headNames (head : Code) : List Lexical :=
  match head with
  | .declare .letSort parts => (parts.flatMap (Code.boundNames 64)).map (·, false)
  | .declare .constSort parts => (parts.flatMap (Code.boundNames 64)).map (·, true)
  | _ => []

/-- How a loop head takes a value. -/
def headTarget (head : Code) : BindingSort × Pattern :=
  match head with
  | .declare .var [.declarator target _] => (.assign, target)
  | .declare _ [.declarator target _] => (.initialise, target)
  | target => (.assign, target)

namespace Machine

variable (m : Machine)

/-- Statements one after the other. -/
def execList (f : Frame) (v : Option Value) : List Stmt → Comp Flow
  | [] => pure (.normal v)
  | s :: rest => do
    match ← m.exec f s with
    | .normal w => execList f (w.or v) rest
    | flow => return flow.fill v

/-- Declarators. -/
def execDeclarators (f : Frame) (sort : DeclSort) : List Code → Comp Unit
  | [] => pure ()
  | .declarator target value :: rest => do
    let how : BindingSort := if sort == .var then .assign else .initialise
    match value with
    | .absent => if sort != .var then m.bindTo f how target .undefined
    | e =>
      let v ← m.eval f e
      holding [v] (m.bindTo f how target v)
    execDeclarators f sort rest
  | _ :: rest => execDeclarators f sort rest

/-- One iteration of a `while` loop. -/
def whileTask (f : Frame) (labels : List String) (test : Expr) (body : Stmt) (v : Option Value) :
    Comp Flow := do
  tick f
  if !(← m.eval f test).truthy then return .normal v
  else
    match (← m.exec f body).afterBody labels v with
    | .inl flow => return flow
    | .inr v => m (.whileStep f labels test body v)

/-- One iteration of a `do` loop. -/
def doTask (f : Frame) (labels : List String) (body : Stmt) (test : Expr) (v : Option Value) :
    Comp Flow := do
  match (← m.exec f body).afterBody labels v with
  | .inl flow => return flow
  | .inr v =>
    tick f
    if (← m.eval f test).truthy then m (.doStep f labels body test v) else return .normal v

/-- One iteration of a `for` loop. The update belongs to the iteration it begins. -/
def forTask (f : Frame) (labels : List String) (names : List Lexical) (first : Bool)
    (test update : Expr) (body : Stmt) (v : Option Value) : Comp Flow := do
  let scope ← (if names.isEmpty then pure f.scope else copyScope f.scope : Comp Ref)
  let f := { f with scope := scope }
  let outcome ← (holdingRefs [scope] do
    unless first do
      tick f
      match update with
      | .absent => pure ()
      | e =>
        let _ ← m.eval f e
    let goesOn ← (match test with
      | .absent => pure true
      | e => do return (← m.eval f e).truthy : Comp Bool)
    if goesOn then return (← m.exec f body).afterBody labels v
    else return .inl (.normal v) : Comp (Flow ⊕ Option Value))
  match outcome with
  | .inl flow => return flow
  | .inr v => m (.forStep f labels names false test update body v)

/-- Gives a loop head the next value and runs the body. -/
def execWith (f : Frame) (head : Code) (body : Stmt) (v : Value) : Comp Flow :=
  inBlockScope f (headNames head) [] fun f => do
    let (sort, target) := headTarget head
    m.bindTo f sort target v
    m.exec f body

/-- One iteration of a `for` loop over the values of an iterator. -/
def ofTask (f : Frame) (labels : List String) (head : Code) (body : Stmt) (iterator next : Value)
    (v : Option Value) : Comp Flow := do
  tick f
  match ← m.draw ⟨iterator, next⟩ with
  | none => return .normal v
  | some item =>
    match ← attempt (keeping [iterator, next] (m.execWith f head body item)) with
    | .value flow =>
      match flow.afterBody labels v with
      | .inl flow =>
        m.close ⟨iterator, next⟩
        return flow
      | .inr v => m (.ofStep f labels head body iterator next v)
    | .thrown e => m.closeAndThrow ⟨iterator, next⟩ e
    | .limit l => exceed l

/-- One iteration of a `for` loop over property names. -/
def inTask (f : Frame) (labels : List String) (head : Code) (body : Stmt) (walk : NameWalk)
    (v : Option Value) : Comp Flow := do
  tick f
  match ← m.walk walk with
  | none => return .normal v
  | some (name, walk) =>
    match (← holdingRefs walk.object.toList (m.execWith f head body (.text name))).afterBody labels v with
    | .inl flow => return flow
    | .inr v => m (.inStep f labels head body walk v)

/-- The index of the first case that equals a value. -/
def matchingCase (f : Frame) (v : Value) : Nat → List Code → Comp (Option Nat)
  | _, [] => pure none
  | i, .case .absent _ :: rest => matchingCase f v (i + 1) rest
  | i, .case test _ :: rest => do
    if Value.strictEquals v (← holding [v] (m.eval f test)) then return some i
    else matchingCase f v (i + 1) rest
  | i, _ :: rest => matchingCase f v (i + 1) rest

/-- A `switch`: the bodies from the matching case on, or from the default case. -/
def execSwitch (f : Frame) (e : Expr) (lexicals : List Lexical) (functions cases : List Code) :
    Comp Flow := do
  let v ← m.eval f e
  inBlockScope f lexicals functions fun f => do
    let start ← m.matchingCase f v 0 cases
    let start := start.or (cases.findIdx? fun c => match c with
      | .case .absent _ => true
      | _ => false)
    let bodies := match start with
      | none => []
      | some i => (cases.drop i).flatMap fun c => match c with
        | .case _ body => body
        | _ => []
    match ← m.execList f none bodies with
    | .breakTo none w => return .normal (w.or (some .undefined))
    | flow => return flow.fill (some .undefined)

/-- The handler of a `try`, with the thrown value given to its parameter. -/
def execHandler (f : Frame) (parameter handler : Code) (v : Value) : Comp Flow := do
  match parameter with
  | .absent => m.exec f handler
  | p =>
    inBlockScope f ((Code.boundNames 64 p).map (·, false)) [] fun f => do
      m.bindTo f .initialise p v
      m.exec f handler

/-- A `try`. A limit passes handlers and final blocks by. -/
def execTry (f : Frame) (body parameter handler last : Code) : Comp Flow := do
  let guarded : Comp Flow := match handler with
    | .absent => m.exec f body
    | h => catchThrow (m.exec f body) (m.execHandler f parameter h)
  match last with
  | .absent => return (← guarded).fill (some .undefined)
  | last =>
    match ← attempt guarded with
    | .limit l => exceed l
    | .thrown e =>
      let flow ← keeping [e] (m.exec f last)
      if flow.isNormal then throwValue e else return flow.fill (some .undefined)
    | .value done =>
      let flow ← keeping done.value?.toList (m.exec f last)
      return (if flow.isNormal then done else flow).fill (some .undefined)

/-- Statements. -/
def execTask (f : Frame) (labels : List String) (s : Stmt) : Comp Flow := do
  match s with
  | .empty => return .normal none
  | .expr e => return .normal (some (← m.eval f e))
  | .declare sort parts =>
    m.execDeclarators f sort parts
    return .normal none
  | .classDecl name definition =>
    initialiseName f name (← m.eval f definition)
    return .normal none
  | .block lexicals functions stmts =>
    inBlockScope f lexicals functions fun f => m.execList f none stmts
  | .ifElse c a b =>
    if (← m.eval f c).truthy then return (← m.exec f a).fill (some .undefined)
    else
      match b with
      | .absent => return .normal (some .undefined)
      | b => return (← m.exec f b).fill (some .undefined)
  | .whileLoop test body => m (.whileStep f labels test body (some .undefined))
  | .doWhile body test => m (.doStep f labels body test (some .undefined))
  | .forLoop names init test update body =>
    inBlockScope f names [] fun f => do
      match init with
      | .absent => pure ()
      | s =>
        let _ ← m.exec f s
      m (.forStep f labels (names.filter fun l => !l.2) true test update body (some .undefined))
  | .forOf head e body =>
    let i ← m.iterate (← m.eval f e)
    keeping [i.iterator, i.next]
      (m (.ofStep f labels head body i.iterator i.next (some .undefined)))
  | .forIn head e body =>
    let w ← m.startWalk (← m.eval f e)
    m (.inStep f labels head body w (some .undefined))
  | .returnValue e =>
    match e with
    | .absent => return .returned .undefined
    | e => return .returned (← m.eval f e)
  | .breakTo label => return .breakTo label none
  | .continueTo label => return .continueTo label none
  | .throwValue e => throwValue (← m.eval f e)
  | .tryCatch body parameter handler last => m.execTry f body parameter handler last
  | .switch e lexicals functions cases => m.execSwitch f e lexicals functions cases
  | .labeled label body =>
    match ← m (.exec f (label :: labels) body) with
    | .breakTo (some l) v =>
      if l == label then return .normal (v.or (some .undefined)) else return .breakTo (some l) v
    | flow => return flow
  | e => return .normal (some (← m.eval f e))

end Machine

end ScriptBoundary.Script
