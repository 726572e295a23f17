import ScriptBoundary.Script.Code
import ScriptBoundary.Script.Code.Token

/-!
# The script parser

`ScriptCode.parse?` reads a source text as a script. It answers `none` for a text that is not one,
whether a token is missing or an early error shows: a name declared twice, a `return` outside
functions, a jump to nowhere.

The grammar is a function from rules to parsers. A rule names what is to be read, and
`Rule.parser` reads it, calling for other rules through its first argument. Tying the knot with a
number of levels (`Rule.read`) makes the whole total: a call for a rule comes after a token was
taken, so one level for each token is enough.
-/

namespace ScriptBoundary.Script

/-- Where the parser stands: in strict code, in a function, in a loop and so on. -/
structure Surroundings where
  strict : Bool := false
  inFunction : Bool := false
  inLoop : Bool := false
  inSwitch : Bool := false
  labels : List String := []
  loopLabels : List String := []
  /-- `super.name` and `super(…)` may stand here. -/
  superMember : Bool := false
  superCall : Bool := false
  /-- The operator `in` would end a loop head. -/
  noIn : Bool := false

/-- The unread tokens by position, and the `var` names met in the current function. -/
structure Reader where
  tokens : Array Token
  position : Nat
  varNames : List String

/-- A parser: it reads in some surroundings and may refuse. -/
abbrev Parser := ReaderT Surroundings (StateT Reader Option)

/-- What can be asked for while reading something else. -/
inductive Rule where
  | expression
  | assignment
  | binary (least : Nat)
  | unary
  | statement
  | function (sort : FunctionSort) (name : String) (bindsItself : Bool)
  | arrow
  | pattern
  | blockBody

namespace Parser

def fail {α : Type} : Parser α := fun _ _ => none

def peek? : Parser (Option Token) := fun _ s => some (s.tokens[s.position]?, s)

/-- The token `n` places ahead. -/
def ahead? (n : Nat) : Parser (Option Token) := fun _ s => some (s.tokens[s.position + n]?, s)

def skip : Parser Unit := fun _ s => some ((), { s with position := s.position + 1 })

def surroundings : Parser Surroundings := read

def require (b : Bool) : Parser Unit := if b then pure () else fail

/-- Whether a token is the punctuator `s`. -/
def isPunct (s : String) : Option Token → Bool
  | some ⟨.punct p, _⟩ => p == s
  | _ => false

/-- Whether a token is the word `s`, written plainly. -/
def isWord (s : String) : Option Token → Bool
  | some ⟨.word w false, _⟩ => w == s
  | _ => false

def at? (s : String) : Parser Bool := return isPunct s (← peek?)

def atWord? (s : String) : Parser Bool := return isWord s (← peek?)

/-- Takes a punctuator if it is next. -/
def eat (s : String) : Parser Bool := do
  if ← at? s then skip; return true else return false

def expect (s : String) : Parser Unit := do
  if ← at? s then skip else fail

def eatWord (s : String) : Parser Bool := do
  if ← atWord? s then skip; return true else return false

def expectWord (s : String) : Parser Unit := do
  if ← atWord? s then skip else fail

/-- Whether a line ended before the next token. -/
def lineEnded : Parser Bool := return (← peek?).any (·.afterLineEnd)

/-- The end of a statement: a semicolon, or a place where one may be left out. -/
def endStatement : Parser Unit := do
  if ← eat ";" then return
  match ← peek? with
  | none => return
  | some t => require (t.afterLineEnd || isPunct "\x7d" (some t))

/-- Reads in other surroundings. -/
def within {α : Type} (f : Surroundings → Surroundings) (p : Parser α) : Parser α :=
  fun c s => p (f c) s

/-- Items up to, but not including, the place where `stop` holds. -/
def many {α : Type} (stop : Parser Bool) (item : Parser α) : Parser (List α) := fun c s =>
  go c (s.tokens.size + 1) [] s
where
  go (c : Surroundings) : Nat → List α → Reader → Option (List α × Reader)
    | 0, _, _ => none
    | fuel + 1, out, s =>
      (stop c s).bind fun (stopped, s) =>
        if stopped then some (out.reverse, s)
        else (item c s).bind fun (x, s) => go c fuel (x :: out) s

/-- Items with commas between them, up to the closing punctuator, which is taken. -/
def commaList {α : Type} (close : String) (item : Parser α) : Parser (List α) := do
  let items ← many (at? close) do
    let x ← item
    unless ← at? close do expect ","
    return x
  expect close
  return items

def declareVars (names : List String) : Parser Unit := fun _ s =>
  some ((), { s with varNames := names.reverse ++ s.varNames })

/-- Words that are never names. -/
def reserved : List String :=
  ["break", "case", "catch", "class", "const", "continue", "debugger", "default", "delete", "do",
   "else", "enum", "export", "extends", "false", "finally", "for", "function", "if", "import", "in",
   "instanceof", "new", "null", "return", "super", "switch", "this", "throw", "true", "try",
   "typeof", "var", "void", "while", "with"]

/-- Words that are not names in strict code. -/
def strictReserved : List String :=
  ["implements", "interface", "let", "package", "private", "protected", "public", "static", "yield"]

/-- A word in the place of a name. -/
def identifier : Parser String := do
  match ← peek? with
  | some ⟨.word w _, _⟩ =>
    let c ← surroundings
    require (!(reserved.contains w) && !(c.strict && strictReserved.contains w))
    skip
    return w
  | _ => fail

/-- A name in the place of a binding. -/
def bindingName : Parser String := do
  let n ← identifier
  let c ← surroundings
  require (!(c.strict && (n == "eval" || n == "arguments")))
  return n

/-- Whether the next tokens are a name. -/
def atIdentifier : Parser Bool := fun c s =>
  match identifier c s with
  | some _ => some (true, s)
  | none => some (false, s)

end Parser

open Script.Parser

/-- The name of an anonymous function or class, taken from what it is assigned to. -/
def Code.nameAnonymous (name : String) (c : Code) : Code := match c with
  | .function info .. => if info.name.isEmpty then c.renameFunction name else c
  | .classDef none p k ms => .classDef (some name) p k ms
  | c => c

/-- Distance from an opening bracket at `i` to just after its partner. -/
def matching (tokens : Array Token) : Nat → Nat → Nat → Option Nat
  | 0, _, _ => none
  | fuel + 1, depth, i =>
    match tokens[i]? with
    | none => none
    | some t =>
      match t.lexeme with
      | .punct p =>
        if p == "(" || p == "[" || p == "\x7b" then matching tokens fuel (depth + 1) (i + 1)
        else if p == ")" || p == "]" || p == "\x7d" then
          if depth ≤ 1 then some (i + 1) else matching tokens fuel (depth - 1) (i + 1)
        else matching tokens fuel depth (i + 1)
      | .template _ opens closes =>
        let depth := if opens && !closes then depth + 1 else if closes && !opens then depth - 1 else depth
        matching tokens fuel depth (i + 1)
      | _ => matching tokens fuel depth (i + 1)

/-- Whether the parenthesis that comes next encloses the parameters of an arrow function. -/
def atArrowParams : Parser Bool := fun _ s =>
  let answer := match matching s.tokens (s.tokens.size + 1) 0 s.position with
    | some i => match s.tokens[i]? with
      | some t => isPunct "=>" (some t) && !t.afterLineEnd
      | none => false
    | none => false
  some (answer, s)

/-- Whether a body begins with the directive that makes it strict. -/
def atStrictDirective : Parser Bool := fun _ s =>
  some (go s.tokens (s.tokens.size + 1) s.position, s)
where
  go (tokens : Array Token) : Nat → Nat → Bool
    | 0, _ => false
    | fuel + 1, i =>
      match tokens[i]? with
      | some ⟨.text t raw, _⟩ =>
        let next := tokens[i + 1]?
        let ends := isPunct ";" next || isPunct "\x7d" next || next.isNone || next.any (·.afterLineEnd)
        if ends && raw && t == Text.ofString "use strict" then true
        else if ends then go tokens fuel (if isPunct ";" next then i + 2 else i + 1)
        else false
      | _ => false

/-- An expression read as a pattern or a simple target. -/
def Code.toTarget? : Nat → Code → Option Code
  | 0, _ => none
  | fuel + 1, c =>
    match c with
    | .ident n => some (.ident n)
    | .member o k false => some (.member o k false)
    | .element o k false => some (.element o k false)
    | .superMember k => some (.superMember k)
    | .superElement k => some (.superElement k)
    | .grouped e => match e with
      | .ident .. | .member .. | .element .. | .grouped .. => toTarget? fuel e
      | _ => none
    | .assign .plain target value => some (.withDefault target value)
    | .array items =>
      let (front, rest) := match items.getLast? with
        | some (.spread e) => (items.dropLast, some e)
        | _ => (items, none)
      (front.mapM fun (i : Code) => if i.isAbsent then some Code.absent else toTarget? fuel i).bind fun front =>
        match rest with
        | none => some (.arrayPattern front .absent)
        | some e => (toTarget? fuel e).map fun r => Code.arrayPattern front r
    | .object members =>
      let (front, rest) := match members.getLast? with
        | some (.spread e) => (members.dropLast, some e)
        | _ => (members, none)
      (front.mapM fun (m : Code) => match m with
        | .field name value => (toTarget? fuel value).map (Code.patternField name)
        | .protoField value => (toTarget? fuel value).map (Code.patternField (.fixedName "__proto__"))
        | _ => none).bind fun fields =>
        match rest with
        | none => some (.objectPattern fields .absent)
        | some e => (toTarget? fuel e).map fun r => Code.objectPattern fields r
    | _ => none

/-- Whether a target may be assigned to in strict code. -/
def Code.isStrictTarget : Code → Bool
  | .ident n => n != "eval" && n != "arguments"
  | _ => true

/-- The operator of an assignment token. -/
def assignOp? (s : String) : Option AssignOp :=
  match s with
  | "=" => some .plain
  | "+=" => some (.arithmetic .add)
  | "-=" => some (.arithmetic .sub)
  | "*=" => some (.arithmetic .mul)
  | "/=" => some (.arithmetic .div)
  | "%=" => some (.arithmetic .mod)
  | "**=" => some (.arithmetic .pow)
  | "<<=" => some (.arithmetic .shiftLeft)
  | ">>=" => some (.arithmetic .shiftRight)
  | ">>>=" => some (.arithmetic .shiftRightZero)
  | "&=" => some (.arithmetic .bitAnd)
  | "|=" => some (.arithmetic .bitOr)
  | "^=" => some (.arithmetic .bitXor)
  | "&&=" => some (.logical .and)
  | "||=" => some (.logical .or)
  | "??=" => some (.logical .nullish)
  | _ => none

/-- A binary operator: what it builds and how tightly it binds. -/
inductive Infixed where
  | plain (op : BinaryOp)
  | short (op : LogicalOp)

/-- The binary operators with their precedence, from loosest (1) to tightest. -/
def infixed? (noIn : Bool) : Token → Option (Infixed × Nat)
  | ⟨.punct s, _⟩ =>
    match s with
    | "??" => some (.short .nullish, 1)
    | "||" => some (.short .or, 2)
    | "&&" => some (.short .and, 3)
    | "|" => some (.plain .bitOr, 4)
    | "^" => some (.plain .bitXor, 5)
    | "&" => some (.plain .bitAnd, 6)
    | "==" => some (.plain .eq, 7)
    | "!=" => some (.plain .ne, 7)
    | "===" => some (.plain .strictEq, 7)
    | "!==" => some (.plain .strictNe, 7)
    | "<" => some (.plain .lt, 8)
    | ">" => some (.plain .gt, 8)
    | "<=" => some (.plain .le, 8)
    | ">=" => some (.plain .ge, 8)
    | "<<" => some (.plain .shiftLeft, 9)
    | ">>" => some (.plain .shiftRight, 9)
    | ">>>" => some (.plain .shiftRightZero, 9)
    | "+" => some (.plain .add, 10)
    | "-" => some (.plain .sub, 10)
    | "*" => some (.plain .mul, 11)
    | "/" => some (.plain .div, 11)
    | "%" => some (.plain .mod, 11)
    | "**" => some (.plain .pow, 12)
    | _ => none
  | ⟨.word w false, _⟩ =>
    if w == "instanceof" then some (.plain .instanceOf, 8)
    else if w == "in" && !noIn then some (.plain .has, 8)
    else none
  | _ => none

/-- Whether `??` stands next to `&&` or `||` without parentheses. -/
def Infixed.clashes : Infixed → Code → Code → Bool
  | .short .nullish, a, b => isAndOr a || isAndOr b
  | .short _, a, b => isNullish a || isNullish b
  | .plain _, _, _ => false
where
  isAndOr : Code → Bool
    | .logical .and .. | .logical .or .. => true
    | _ => false
  isNullish : Code → Bool
    | .logical .nullish .. => true
    | _ => false

/-- A unary expression may not be the base of a power. -/
def Code.isBareUnary : Code → Bool
  | .unary .. | .delete .. => true
  | _ => false

namespace Rule

/-- What other rules are read with. -/
abbrev Grammar := Rule → Parser Code

/-- The name of a member: a word, a string, a number or a computed key. -/
def memberName (g : Grammar) : Parser Code := do
  match ← peek? with
  | some ⟨.word w _, _⟩ => skip; return .fixedName (Key.ofString w)
  | some ⟨.text t _, _⟩ => skip; return .fixedName (.ofText t)
  | some ⟨.number x _, _⟩ => skip; return .fixedName (.ofNumber x)
  | some ⟨.bigint n, _⟩ => skip; return .fixedName (Key.ofString (toString n))
  | some ⟨.punct "[", _⟩ =>
    skip
    let e ← within (fun c => { c with noIn := false }) (g .assignment)
    expect "]"
    return .computedName e
  | _ => fail

/-- The elements of an array literal or the arguments of a call, after the opening bracket. -/
def items (g : Grammar) (close : String) (holes : Bool) : Parser (List Code) :=
  within (fun c => { c with noIn := false }) do
    commaList close do
      if holes && (← at? ",") then return .absent
      if ← eat "..." then return .spread (← g .assignment) else g .assignment

/-- Parameters after the opening parenthesis, each with its default or as a rest parameter. -/
def params (g : Grammar) : Parser (List Code) := do
  let ps ← commaList ")" do
    if ← eat "..." then return .spread (← g .pattern)
    let p ← g .pattern
    if ← eat "=" then
      let e ← g .assignment
      return .withDefault p (match p with | .ident n => e.nameAnonymous n | _ => e)
    else return p
  require (ps.dropLast.all fun p => match p with | .spread _ => false | _ => true)
  return ps

/-- Whether a list of names repeats one. -/
def repeats (names : List String) : Bool := names.eraseDups.length != names.length

/-- The lexical names that statements declare. -/
def lexicalsOf (stmts : List Code) : List Lexical :=
  stmts.flatMap fun s => match s with
    | .declare .letSort parts => (parts.flatMap (Code.boundNames 64)).map (·, false)
    | .declare .constSort parts => (parts.flatMap (Code.boundNames 64)).map (·, true)
    | .classDecl n _ => [(n, false)]
    | _ => []

/-- Function declarations apart from the other statements. -/
def splitFunctions (stmts : List Code) : List Code × List Code :=
  stmts.partition fun s => match s with | .function .. => true | _ => false

/-- Reads with an empty list of `var` names and gives the names met. -/
def collectingVars {α : Type} (p : Parser α) : Parser (α × List String) := fun c s =>
  (p c { s with varNames := [] }).map fun (x, s') =>
    ((x, s'.varNames.reverse.eraseDups), { s' with varNames := s.varNames })

/-- Whether a word stands among the tokens from one position to another. -/
def mentions (w : String) (start : Nat) : Parser Bool := fun _ s =>
  some ((s.tokens.extract start s.position).any fun t => isWord w (some t), s)

/-- The position of the next token. -/
def position : Parser Nat := fun _ s => some (s.position, s)

/-- A function from its parameter list on: the parameters, unless given, and the braced body. -/
def functionRest (sort : FunctionSort) (name : String) (bindsItself : Bool)
    (readParams : Parser (List Code)) (readBody : Parser (List Code)) : Parser Code := do
  let outer ← surroundings
  let enter (strict : Bool) (c : Surroundings) : Surroundings :=
    { strict := strict
      inFunction := true
      superMember := if sort.isArrow then c.superMember else sort != .normal
      superCall := if sort.isArrow then c.superCall else sort == .constructor true }
  let start ← position
  let ps ← within (enter outer.strict) readParams
  let bodyStrict ← (do
    if ← at? "\x7b" then
      fun c s => atStrictDirective c { s with position := s.position + 1 } |>.map fun (b, _) => (b, s)
    else return false)
  let strict := outer.strict || bodyStrict
  let (stmts, varNames) ← collectingVars (within (enter strict) readBody)
  let (functions, stmts) := splitFunctions stmts
  let lexicals := lexicalsOf stmts
  let names := ps.flatMap (Code.boundNames 64)
  let simple := ps.all fun p => match p with | .ident _ => true | _ => false
  let lexicalNames := lexicals.map (·.1)
  require (!repeats lexicalNames)
  require (lexicalNames.all fun n => !(varNames.contains n) && !(names.contains n)
    && !(functions.any fun f => f.functionName == n))
  require (!((strict || !simple || sort != .normal) && repeats names))
  require (!(bodyStrict && !simple))
  require (!(strict && names.any fun n => n == "eval" || n == "arguments"))
  let length := (ps.takeWhile fun p => match p with | .ident _ | .objectPattern .. | .arrayPattern .. => true | _ => false).length
  let mentionsArguments ← mentions "arguments" start
  let info : FunctionInfo :=
    { name, sort, strict, simpleParams := simple, length, varNames, lexicals, bindsItself,
      mentionsArguments }
  return .function info ps functions stmts

/-- The braced body of a function. -/
def braced (g : Grammar) : Parser (List Code) := do
  expect "\x7b"
  let stmts ← many (at? "\x7d") (g .statement)
  expect "\x7d"
  return stmts

/-- A function from its opening parenthesis on. -/
def functionFrom (g : Grammar) (sort : FunctionSort) (name : String) (bindsItself : Bool) :
    Parser Code := do
  let f ← functionRest sort name bindsItself (do expect "("; params g) (braced g)
  match f, sort with
  | .function _ ps _ _, .getter => require ps.isEmpty
  | .function _ [p] _ _, .setter => require (match p with | .spread _ => false | _ => true)
  | .function .., .setter => fail
  | _, _ => pure ()
  return f

/-- An arrow function from its parameters on. -/
def arrowFrom (g : Grammar) : Parser Code := do
  let readParams : Parser (List Code) := do
    if ← eat "(" then params g else return [.ident (← bindingName)]
  let readBody : Parser (List Code) := do
    if ← at? "\x7b" then braced g else return [.returnValue (← g .assignment)]
  let outer ← surroundings
  functionRest .arrow "" false
    (do
      let ps ← readParams
      require (!(← lineEnded))
      expect "=>"
      return ps)
    (within (fun c => { c with noIn := outer.noIn }) readBody)

/-- Whether the word before this place is only a modifier: a member name comes next. -/
def modifies : Parser Bool := do
  match ← peek? with
  | some ⟨.word .., _⟩ | some ⟨.text .., _⟩ | some ⟨.number .., _⟩ | some ⟨.bigint _, _⟩ => return true
  | some ⟨.punct p, _⟩ => return p == "["
  | _ => return false

/-- Takes a modifier word if a member name follows it. -/
def modifier (w : String) : Parser Bool := fun c s =>
  match (do expectWord w; require (← modifies) : Parser Unit) c s with
  | some ((), s') => some (true, s')
  | none => some (false, s)

def nameText : Code → String
  | .fixedName k => k.show'
  | _ => ""

/-- A member of an object literal. -/
def objectMember (g : Grammar) : Parser Code := do
  if ← eat "..." then return .spread (← g .assignment)
  if ← modifier "get" then
    let n ← memberName g
    return .getter n (← g (.function .getter (nameText n) false))
  if ← modifier "set" then
    let n ← memberName g
    return .setter n (← g (.function .setter (nameText n) false))
  let shorthand ← atIdentifier
  let first ← peek?
  let n ← memberName g
  if ← at? "(" then return .method n (← g (.function .method (nameText n) false))
  if ← eat ":" then
    let e ← g .assignment
    match n with
    | .fixedName k =>
      if k == Key.ofString "__proto__" then return .protoField e
      return .field n (e.nameAnonymous k.show')
    | _ => return .field n e
  require shorthand
  match first with
  | some ⟨.word w _, _⟩ =>
    if ← eat "=" then
      let e ← g .assignment
      return .field n (.assign .plain (.ident w) (e.nameAnonymous w))
    return .field n (.ident w)
  | _ => fail

/-- A member of a class body. -/
def classMember (g : Grammar) (derived : Bool) : Parser Code := do
  let isStatic ← (do
    if ← modifier "static" then return true else return false)
  let wrap (m : Code) : Code := if isStatic then .static m else m
  if ← modifier "get" then
    let n ← memberName g
    return wrap (.getter n (← g (.function .getter (nameText n) false)))
  if ← modifier "set" then
    let n ← memberName g
    return wrap (.setter n (← g (.function .setter (nameText n) false)))
  let n ← memberName g
  if ← at? "(" then
    let isConstructor := !isStatic && (match n with | .fixedName k => k == Key.ofString "constructor" | _ => false)
    let sort : FunctionSort := if isConstructor then .constructor derived else .method
    return wrap (.method n (← g (.function sort (nameText n) false)))
  let value ← (do
    if ← eat "=" then
      within (fun c => { c with inFunction := true, superMember := true }) (g .assignment)
    else return .absent)
  endStatement
  return wrap (.field n value)

/-- A class from after the word `class`. -/
def classFrom (g : Grammar) (name : Option String) : Parser Code :=
  within (fun c => { c with strict := true }) do
    let parent ← (do
      if ← eatWord "extends" then g .unary else return .absent)
    let derived := !parent.isAbsent
    expect "\x7b"
    let members ← many (at? "\x7d") do
      if ← eat ";" then return .absent else classMember g derived
    expect "\x7d"
    let isConstructor (m : Code) : Bool := match m with
      | .method _ (.function info ..) => info.sort.isClassConstructor
      | _ => false
    let constructors := members.filter isConstructor
    require (constructors.length ≤ 1)
    let constructor := match constructors with
      | .method _ f :: _ => f
      | _ => .absent
    let rest := members.filter fun m => !isConstructor m && !m.isAbsent
    return .classDef name parent constructor rest

/-- The parts of a template after its first text. -/
def templateRest (g : Grammar) (first : Text) (closed : Bool) : Parser Code := do
  if closed then return .template [first] []
  let pairs ← many (do
      match ← peek? with
      | some ⟨.template _ false true, _⟩ => return true
      | _ => return false) do
    let e ← within (fun c => { c with noIn := false }) (g .expression)
    match ← peek? with
    | some ⟨.template t false false, _⟩ => skip; return (e, t)
    | some ⟨.template t false true, _⟩ => return (e, t)
    | _ => fail
  skip
  return .template (first :: pairs.map (·.2)) (pairs.map (·.1))

/-- An expression that needs no operator. -/
def primary (g : Grammar) : Parser Code := do
  match ← peek? with
  | some ⟨.number x legacy, _⟩ =>
    let c ← surroundings
    require (!(legacy && c.strict))
    skip
    return .number x
  | some ⟨.bigint n, _⟩ => skip; return .bigint n
  | some ⟨.text t _, _⟩ => skip; return .text t
  | some ⟨.template t true closed, _⟩ => skip; templateRest g t closed
  | some ⟨.punct "(", _⟩ =>
    if ← atArrowParams then g .arrow
    else
      skip
      let e ← within (fun c => { c with noIn := false }) (g .expression)
      expect ")"
      return .grouped e
  | some ⟨.punct "[", _⟩ => skip; return .array (← items g "]" true)
  | some ⟨.punct "\x7b", _⟩ =>
    skip
    within (fun c => { c with noIn := false }) do
      return .object (← commaList "\x7d" (objectMember g))
  | some ⟨.word "function" false, _⟩ =>
    skip
    if ← at? "(" then g (.function .normal "" false)
    else
      let n ← bindingName
      g (.function .normal n true)
  | some ⟨.word "class" false, _⟩ =>
    skip
    let name ← (do
      if ← at? "\x7b" then return none
      if ← atWord? "extends" then return none
      return some (← within (fun c => { c with strict := true }) bindingName))
    classFrom g name
  | some ⟨.word "this" false, _⟩ => skip; return .this
  | some ⟨.word "null" false, _⟩ => skip; return .null
  | some ⟨.word "true" false, _⟩ => skip; return .boolean true
  | some ⟨.word "false" false, _⟩ => skip; return .boolean false
  | some ⟨.word _ _, _⟩ =>
    let next ← ahead? 1
    if isPunct "=>" next && !(next.any (·.afterLineEnd)) then g .arrow
    else return .ident (← identifier)
  | _ => fail

/-- Links of a member or call chain after its first expression. Calls are left out after `new`. -/
def links (g : Grammar) (calls : Bool) (first : Code) : Parser Code := fun c s =>
  go c (s.tokens.size + 1) first s
where
  one (e : Code) : Parser (Option Code) := do
    match ← peek? with
    | some ⟨.punct ".", _⟩ =>
      skip
      match ← peek? with
      | some ⟨.word w _, _⟩ => skip; return some (.member e (Key.ofString w) false)
      | _ => fail
    | some ⟨.punct "[", _⟩ =>
      skip
      let k ← within (fun c => { c with noIn := false }) (g .expression)
      expect "]"
      return some (.element e k false)
    | some ⟨.punct "(", _⟩ =>
      if !calls then return none
      skip
      return some (.call e (← items g ")" false) false)
    | some ⟨.punct "?.", _⟩ =>
      if !calls then fail
      skip
      match ← peek? with
      | some ⟨.punct "(", _⟩ => skip; return some (.call e (← items g ")" false) true)
      | some ⟨.punct "[", _⟩ =>
        skip
        let k ← within (fun c => { c with noIn := false }) (g .expression)
        expect "]"
        return some (.element e k true)
      | some ⟨.word w _, _⟩ => skip; return some (.member e (Key.ofString w) true)
      | _ => fail
    | _ => return none
  go (c : Surroundings) : Nat → Code → Reader → Option (Code × Reader)
    | 0, _, _ => none
    | fuel + 1, e, s =>
      (one e c s).bind fun (next, s) =>
        match next with
        | none => some (e, s)
        | some e => go c fuel e s

/-- Whether a chain has a link that can be skipped. -/
def hasOptional : Code → Bool
  | .member o _ optional => optional || hasOptional o
  | .element o _ optional => optional || hasOptional o
  | .call f _ optional => optional || hasOptional f
  | _ => false

/-- A `new` expression from after the word: its callee without calls, then its arguments. -/
def newFrom (g : Grammar) : Nat → Parser Code
  | 0 => fail
  | fuel + 1 => do
    if ← eat "." then
      expectWord "target"
      require (← surroundings).inFunction
      return .newTarget
    let callee ← (do
      if ← eatWord "new" then newFrom g fuel else primary g)
    let callee ← links g false callee
    if ← eat "(" then return .construct callee (← items g ")" false)
    return .construct callee []

/-- A member or call chain. -/
def leftHandSide (g : Grammar) : Parser Code := do
  let first ← (do
    if ← eatWord "new" then newFrom g 64
    else if ← eatWord "super" then
      let c ← surroundings
      if ← eat "(" then
        require c.superCall
        return .superCall (← items g ")" false)
      require c.superMember
      if ← eat "[" then
        let k ← g .expression
        expect "]"
        return .superElement k
      expect "."
      match ← peek? with
      | some ⟨.word w _, _⟩ => skip; return .superMember (Key.ofString w)
      | _ => fail
    else primary g)
  match first with
  | .function info .. => if info.sort.isArrow then return first
  | _ => pure ()
  let e ← links g true first
  return if hasOptional e then .chain e else e

/-- Whether an expression can be incremented. -/
def simpleTarget? (strict : Bool) (c : Code) : Option Code :=
  match c.toTarget? 8 with
  | some (.objectPattern ..) | some (.arrayPattern ..) | some (.withDefault ..) | none => none
  | some t => if strict && !t.isStrictTarget then none else some t

/-- A postfix expression. -/
def postfixed (g : Grammar) : Parser Code := do
  let e ← leftHandSide g
  if ← lineEnded then return e
  let up ← at? "++"
  let down ← at? "--"
  if up || down then
    skip
    match simpleTarget? (← surroundings).strict e with
    | some t => return .update up false t
    | none => fail
  return e

/-- A unary expression. -/
def unaryFrom (g : Grammar) : Parser Code := do
  let op (o : UnaryOp) : Parser Code := do skip; return .unary o (← g .unary)
  match ← peek? with
  | some ⟨.punct "!", _⟩ => op .not
  | some ⟨.punct "-", _⟩ => op .negate
  | some ⟨.punct "+", _⟩ => op .plus
  | some ⟨.punct "~", _⟩ => op .bitNot
  | some ⟨.word "typeof" false, _⟩ => op .typeOf
  | some ⟨.word "void" false, _⟩ => op .void
  | some ⟨.word "delete" false, _⟩ =>
    skip
    let e ← g .unary
    let c ← surroundings
    require (!(c.strict && match e with | .ident _ => true | .grouped (.ident _) => true | _ => false))
    return .delete e
  | some ⟨.punct p, _⟩ =>
    if p == "++" || p == "--" then
      skip
      match simpleTarget? (← surroundings).strict (← g .unary) with
      | some t => return .update (p == "++") true t
      | none => fail
    else postfixed g
  | _ => postfixed g

/-- Binary operators that bind at least as tightly as `least`. -/
def binaryFrom (g : Grammar) (least : Nat) (first : Code) : Parser Code := fun c s =>
  go c (s.tokens.size + 1) first s
where
  one (left : Code) : Parser (Option Code) := do
    match ← peek? with
    | none => return none
    | some t =>
      match infixed? (← surroundings).noIn t with
      | none => return none
      | some (op, precedence) =>
        if precedence < least then return none
        skip
        let right ← (if precedence == 12 then g (.binary 12) else g (.binary (precedence + 1)))
        require (!(op.clashes left right))
        match op with
        | .short o => return some (.logical o left right)
        | .plain o =>
          require (!(o == .pow && left.isBareUnary))
          return some (.binary o left right)
  go (c : Surroundings) : Nat → Code → Reader → Option (Code × Reader)
    | 0, _, _ => none
    | fuel + 1, left, s =>
      (one left c s).bind fun (next, s) =>
        match next with
        | none => some (left, s)
        | some e => go c fuel e s

/-- An assignment or anything tighter. -/
def assignmentFrom (g : Grammar) : Parser Code := do
  let left ← binaryFrom g 1 (← unaryFrom g)
  match left with
  | .function info .. => if info.sort.isArrow then return left
  | _ => pure ()
  if ← eat "?" then
    let a ← within (fun c => { c with noIn := false }) (g .assignment)
    expect ":"
    return .conditional left a (← g .assignment)
  match ← peek? with
  | some ⟨.punct p, _⟩ =>
    match assignOp? p with
    | none => return left
    | some op =>
      let strict := (← surroundings).strict
      match left.toTarget? 64 with
      | none => fail
      | some target =>
        let isPattern := match target with
          | .objectPattern .. | .arrayPattern .. => true
          | _ => false
        require (!(isPattern && op != .plain))
        require (!(match target with | .withDefault .. => true | _ => false))
        require (!(strict && !target.isStrictTarget))
        skip
        let value ← g .assignment
        match left with
        | .ident n => return .assign op target (value.nameAnonymous n)
        | _ => return .assign op target value
  | _ => return left

/-- Assignments with commas between them. -/
def expressionFrom (g : Grammar) : Parser Code := do
  let first ← assignmentFrom g
  let rest ← many (return !(← at? ",")) do
    skip
    assignmentFrom g
  return rest.foldl .sequence first

/-- A binding pattern. -/
def patternFrom (g : Grammar) : Parser Code := do
  let withDefault (p : Code) : Parser Code := do
    if ← eat "=" then
      let e ← g .assignment
      return .withDefault p (match p with | .ident n => e.nameAnonymous n | _ => e)
    else return p
  match ← peek? with
  | some ⟨.punct "[", _⟩ =>
    skip
    let ps : List Code ← commaList "]" do
      if ← at? "," then return .absent
      if ← eat "..." then return .spread (← g .pattern)
      withDefault (← g .pattern)
    match ps.getLast? with
    | some (.spread r) => return .arrayPattern ps.dropLast r
    | _ => return .arrayPattern ps .absent
  | some ⟨.punct "\x7b", _⟩ =>
    skip
    let ps : List Code ← commaList "\x7d" do
      if ← eat "..." then return .spread (.ident (← bindingName))
      let shorthand ← atIdentifier
      let first ← peek?
      let n ← memberName g
      if ← eat ":" then return .patternField n (← withDefault (← g .pattern))
      require shorthand
      match first with
      | some ⟨.word w _, _⟩ => return .patternField n (← withDefault (.ident w))
      | _ => fail
    match ps.getLast? with
    | some (.spread r) => return .objectPattern ps.dropLast r
    | _ => return .objectPattern ps .absent
  | _ => return .ident (← bindingName)

/-- Declarators with commas between them. Constants and patterns need a value, except in a loop
head. -/
def declarators (g : Grammar) (sort : DeclSort) : Parser (List Code) := do
  let one : Parser Code := do
    let p ← g .pattern
    if ← eat "=" then
      let e ← g .assignment
      return .declarator p (match p with | .ident n => e.nameAnonymous n | _ => e)
    else return .declarator p .absent
  let first ← one
  let rest ← many (return !(← at? ",")) do
    skip
    one
  let parts := first :: rest
  if sort == .var then declareVars (parts.flatMap (Code.boundNames 64))
  else require ((parts.flatMap (Code.boundNames 64)).all (· != "let"))
  return parts

/-- Constants and patterns without a value. -/
def lacksValue (sort : DeclSort) (parts : List Code) : Bool :=
  parts.any fun p => match p with
    | .declarator (.ident _) .absent => sort == .constSort
    | .declarator _ .absent => true
    | _ => false

/-- Whether `let` begins a declaration here and is not a name. -/
def atLet : Parser Bool := do
  if !(← atWord? "let") then return false
  match ← ahead? 1 with
  | some ⟨.word w _, _⟩ => return w != "in" && w != "instanceof" && w != "of"
  | some ⟨.punct p, _⟩ => return p == "[" || p == "\x7b"
  | _ => return false

/-- The sort of declaration that begins here. -/
def declSort? : Parser (Option DeclSort) := do
  if ← atWord? "var" then return some .var
  if ← atWord? "const" then return some .constSort
  if ← atLet then return some .letSort
  return none

/-- Statements in braces, with the names they declare. -/
def blockFrom (g : Grammar) : Parser Code := fun c s =>
  ((do
    let stmts ← braced g
    return stmts : Parser (List Code)) c { s with varNames := [] }).bind fun (stmts, s') =>
      let inner := s'.varNames
      let (functions, stmts) := splitFunctions stmts
      let lexicals := lexicalsOf stmts
      let names := lexicals.map (·.1) ++ functions.map Code.functionName
      let clash := repeats (lexicals.map (·.1))
        || (lexicals.any fun (n, _) => functions.any fun f => f.functionName == n)
        || names.any inner.contains
        || (c.strict && repeats (functions.map Code.functionName))
      if clash then none
      else some (.block lexicals functions stmts, { s' with varNames := inner ++ s.varNames })

/-- The body of a loop. -/
def loopBody (g : Grammar) : Parser Code := do
  let body ← within (fun c => { c with inLoop := true }) (g .statement)
  require (match body with
    | .function .. | .classDecl .. | .declare .letSort _ | .declare .constSort _ => false
    | _ => true)
  return body

/-- The statement under an `if`, which may not be a lexical declaration. -/
def branch (g : Grammar) : Parser Code := do
  let body ← g .statement
  match body with
  | .classDecl .. | .declare .letSort _ | .declare .constSort _ => fail
  | .function info .. =>
    require (!info.strict)
    return .block [] [body] []
  | _ => return body

/-- A `for` loop from after the word. -/
def forFrom (g : Grammar) : Parser Code := do
  expect "("
  let rest (names : List Lexical) (init : Code) : Parser Code := do
    expect ";"
    let test ← (do if ← at? ";" then return .absent else g .expression)
    expect ";"
    let update ← (do if ← at? ")" then return .absent else g .expression)
    expect ")"
    return .forLoop names init test update (← loopBody g)
  match ← declSort? with
  | some sort =>
    skip
    let parts ← within (fun c => { c with noIn := true }) (declarators g sort)
    let lexicals := lexicalsOf [.declare sort parts]
    require (!repeats (lexicals.map (·.1)))
    match parts with
    | [.declarator p .absent] =>
      if ← eatWord "of" then
        let e ← g .assignment
        expect ")"
        return .forOf (.declare sort [.declarator p .absent]) e (← loopBody g)
      if ← eatWord "in" then
        let e ← g .expression
        expect ")"
        return .forIn (.declare sort [.declarator p .absent]) e (← loopBody g)
    | _ => pure ()
    require (!lacksValue sort parts)
    rest lexicals (.declare sort parts)
  | none =>
    if ← at? ";" then rest [] .absent
    else
      let e ← within (fun c => { c with noIn := true }) (g .expression)
      let isOf ← atWord? "of"
      let isIn ← atWord? "in"
      if isOf || isIn then
        skip
        match e.toTarget? 64 with
        | none => fail
        | some target =>
          let subject ← (if isOf then g .assignment else g .expression)
          expect ")"
          let body ← loopBody g
          return if isOf then .forOf target subject body else .forIn target subject body
      else rest [] (.expr e)

/-- A `switch` from after the word. -/
def switchFrom (g : Grammar) : Parser Code := do
  expect "("
  let e ← g .expression
  expect ")"
  expect "\x7b"
  let cases ← within (fun c => { c with inSwitch := true }) do
    many (at? "\x7d") do
      let test ← (do
        if ← eatWord "default" then return .absent
        expectWord "case"
        g .expression)
      expect ":"
      let body ← many (do
        if ← at? "\x7d" then return true
        if ← atWord? "case" then return true
        atWord? "default") (g .statement)
      return (test, body)
  expect "\x7d"
  require ((cases.filter fun (t, _) => t.isAbsent).length ≤ 1)
  let all := cases.flatMap (·.2)
  let (functions, stmts) := splitFunctions all
  let lexicals := lexicalsOf stmts
  require (!repeats (lexicals.map (·.1) ++ functions.map Code.functionName))
  return .switch e lexicals functions (cases.map fun (t, body) => .case t (splitFunctions body).2)

/-- A `try` from after the word. -/
def tryFrom (g : Grammar) : Parser Code := do
  let body ← blockFrom g
  let mut parameter : Code := .absent
  let mut handler : Code := .absent
  if ← eatWord "catch" then
    if ← eat "(" then
      parameter ← g .pattern
      expect ")"
    handler ← blockFrom g
    match handler with
    | .block lexicals _ _ =>
      require ((Code.boundNames 64 parameter).all fun n => !(lexicals.any (·.1 == n)))
    | _ => pure ()
  let mut last : Code := .absent
  if ← eatWord "finally" then last ← blockFrom g
  require (!(handler.isAbsent && last.isAbsent))
  return .tryCatch body parameter handler last

/-- A `break` or `continue` from after the word. -/
def jumpFrom (isBreak : Bool) : Parser Code := do
  let c ← surroundings
  let label ← (do
    if ← lineEnded then return none
    if ← atIdentifier then return some (← identifier) else return none)
  endStatement
  match label with
  | none => require (c.inLoop || (isBreak && c.inSwitch))
  | some l => require (if isBreak then c.labels.contains l else c.loopLabels.contains l)
  return if isBreak then .breakTo label else .continueTo label

/-- A labelled statement from after its colon. -/
def labeledFrom (g : Grammar) (l : String) : Parser Code := do
  require (!((← surroundings).labels.contains l))
  let isLoop := (← atWord? "for") || (← atWord? "while") || (← atWord? "do")
  let body ← within (fun c => { c with
    labels := l :: c.labels
    loopLabels := if isLoop then l :: c.loopLabels else c.loopLabels }) (g .statement)
  require (match body with
    | .classDecl .. | .declare .letSort _ | .declare .constSort _ | .function .. => false
    | _ => true)
  return .labeled l body

/-- A statement or declaration. -/
def statementFrom (g : Grammar) : Parser Code := do
  match ← declSort? with
  | some sort =>
    skip
    let parts ← declarators g sort
    endStatement
    require (!lacksValue sort parts)
    return .declare sort parts
  | none =>
  match ← peek? with
  | none => fail
  | some ⟨.punct "\x7b", _⟩ => g .blockBody
  | some ⟨.punct ";", _⟩ => skip; return .empty
  | some ⟨.word w false, _⟩ =>
    let next ← ahead? 1
    if isPunct ":" next && !(reserved.contains w) then
      let l ← identifier
      skip
      labeledFrom g l
    else match w with
      | "function" =>
        skip
        let n ← bindingName
        g (.function .normal n false)
      | "class" =>
        skip
        let n ← within (fun c => { c with strict := true }) bindingName
        return .classDecl n (← classFrom g (some n))
      | "if" =>
        skip
        expect "("
        let c ← g .expression
        expect ")"
        let a ← branch g
        if ← eatWord "else" then return .ifElse c a (← branch g) else return .ifElse c a .absent
      | "for" => skip; forFrom g
      | "while" =>
        skip
        expect "("
        let c ← g .expression
        expect ")"
        return .whileLoop c (← loopBody g)
      | "do" =>
        skip
        let body ← loopBody g
        expectWord "while"
        expect "("
        let c ← g .expression
        expect ")"
        let _ ← eat ";"
        return .doWhile body c
      | "return" =>
        skip
        require (← surroundings).inFunction
        let ends := (← peek?).isNone || (← at? ";") || (← at? "\x7d") || (← lineEnded)
        let e ← (if ends then pure .absent else g .expression)
        endStatement
        return .returnValue e
      | "break" => skip; jumpFrom true
      | "continue" => skip; jumpFrom false
      | "throw" =>
        skip
        require (!(← lineEnded))
        let e ← g .expression
        endStatement
        return .throwValue e
      | "try" => skip; tryFrom g
      | "switch" => skip; switchFrom g
      | "debugger" => skip; endStatement; return .empty
      | _ =>
        let e ← g .expression
        endStatement
        return .expr e
  | some _ =>
    let e ← g .expression
    endStatement
    return .expr e

/-- Reads what a rule names. -/
def parser (g : Grammar) : Rule → Parser Code
  | .expression => expressionFrom g
  | .assignment => assignmentFrom g
  | .binary least => do binaryFrom g least (← unaryFrom g)
  | .unary => unaryFrom g
  | .statement => statementFrom g
  | .function sort name bindsItself => functionFrom g sort name bindsItself
  | .arrow => arrowFrom g
  | .pattern => patternFrom g
  | .blockBody => blockFrom g

/-- Reads a rule with so many levels of nesting. -/
def read : Nat → Rule → Parser Code
  | 0, _ => fail
  | depth + 1, r => parser (read depth) r

/-- A whole script. -/
def script (g : Grammar) : Parser ScriptCode := do
  let strict ← atStrictDirective
  let (stmts, varNames) ← collectingVars
    (within (fun c => { c with strict }) (many (return (← peek?).isNone) (g .statement)))
  let (functions, stmts) := splitFunctions stmts
  let lexicals := lexicalsOf stmts
  require (!repeats (lexicals.map (·.1)))
  require (lexicals.all fun (n, _) =>
    !(varNames.contains n) && !(functions.any fun f => f.functionName == n))
  return { strict, varNames, lexicals, functions, stmts }

end Rule

/-- The script a source text spells, if it is one. -/
def ScriptCode.parse? (source : String) : Option ScriptCode :=
  (Token.scan source.toList).bind fun tokens =>
    (Rule.script (Rule.read (2 * tokens.size + 16)) {} ⟨tokens, 0, []⟩).map (·.1)

end ScriptBoundary.Script
