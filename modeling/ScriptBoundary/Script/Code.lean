import ScriptBoundary.Script.Value

/-!
# Script code

The tree the parser builds. Declarations are resolved here and not at run time: a block carries
the names it declares and its function declarations, and a function carries the `var` names of its
whole body, so entering either is a matter of creating bindings.

Expressions, statements, patterns and the parts they are made of are one type, `Code`, and the
names `Expr`, `Stmt` and `Pattern` say which of them a place expects. Where a part may be left out
it is `Code.absent`.
-/

namespace ScriptBoundary.Script

inductive UnaryOp where
  | typeOf | void | not | negate | plus | bitNot
deriving DecidableEq, Repr

inductive BinaryOp where
  | add | sub | mul | div | mod | pow
  | shiftLeft | shiftRight | shiftRightZero | bitAnd | bitOr | bitXor
  | eq | ne | strictEq | strictNe | lt | gt | le | ge
  | instanceOf | has
deriving DecidableEq, Repr

inductive LogicalOp where
  | and | or | nullish
deriving DecidableEq, Repr

/-- What an assignment does besides storing. -/
inductive AssignOp where
  | plain
  | arithmetic (op : BinaryOp)
  | logical (op : LogicalOp)
deriving DecidableEq, Repr

/-- The sort of a function, which fixes how `this` is found and who may construct it. -/
inductive FunctionSort where
  | normal
  | arrow
  | method
  | getter
  | setter
  | constructor (derived : Bool)
deriving DecidableEq, Repr, Inhabited

namespace FunctionSort

def isArrow (s : FunctionSort) : Bool := s == .arrow

def isClassConstructor : FunctionSort → Bool
  | .constructor _ => true
  | _ => false

def isConstructor : FunctionSort → Bool
  | .normal | .constructor _ => true
  | _ => false

end FunctionSort

/-- The data of a function that is not code. -/
structure FunctionInfo where
  name : String
  sort : FunctionSort
  strict : Bool
  /-- Plain parameter names only, so that `arguments` may follow them. -/
  simpleParams : Bool
  /-- How many parameters stand before the first default or rest parameter. -/
  length : Nat
  /-- The `var` names of the body. -/
  varNames : List String
  /-- The body's own lexical names, with whether each is a constant. -/
  lexicals : List (String × Bool)
  /-- A named function expression, which its own body can call by that name. -/
  bindsItself : Bool
  /-- Whether the name `arguments` stands anywhere in the function. -/
  mentionsArguments : Bool
deriving Inhabited

/-- The kinds of variable declaration. -/
inductive DeclSort where
  | var | letSort | constSort
deriving DecidableEq, Repr

/-- A lexical name of a block, with whether it is a constant. -/
abbrev Lexical := String × Bool

inductive Code where
  /-- A part that is not there. -/
  | absent
  -- Expressions.
  | null
  | boolean (b : Bool)
  | number (x : Float)
  | text (t : Text)
  | bigint (n : Int)
  | ident (name : String)
  | this
  | newTarget
  /-- Texts and the expressions between them, one fewer. -/
  | template (texts : List Text) (parts : List Code)
  | array (items : List Code)
  | object (members : List Code)
  | function (info : FunctionInfo) (params functions body : List Code)
  /-- The parent and the constructor may be absent. -/
  | classDef (name : Option String) (parent constructor : Code) (members : List Code)
  | unary (op : UnaryOp) (e : Code)
  | delete (e : Code)
  | update (increment before : Bool) (target : Code)
  | binary (op : BinaryOp) (a b : Code)
  | logical (op : LogicalOp) (a b : Code)
  | conditional (c a b : Code)
  | assign (op : AssignOp) (target value : Code)
  | sequence (a b : Code)
  | member (object : Code) (key : Key) (optional : Bool)
  | element (object key : Code) (optional : Bool)
  | superMember (key : Key)
  | superElement (key : Code)
  | superCall (args : List Code)
  | call (callee : Code) (args : List Code) (optional : Bool)
  | construct (callee : Code) (args : List Code)
  /-- The extent of an optional chain: a link that is skipped skips to here. -/
  | chain (e : Code)
  /-- Parentheses, which keep a name from naming the function to its right. -/
  | grouped (e : Code)
  -- Parts of literals and argument lists.
  | spread (e : Code)
  | fixedName (key : Key)
  | computedName (e : Code)
  | field (name value : Code)
  | method (name function : Code)
  | getter (name function : Code)
  | setter (name function : Code)
  | protoField (e : Code)
  /-- A method, accessor or field of the class itself and not of its instances. -/
  | static (m : Code)
  -- Patterns.
  | objectPattern (fields : List Code) (rest : Code)
  | arrayPattern (items : List Code) (rest : Code)
  | patternField (name target : Code)
  | withDefault (target default : Code)
  -- Statements.
  | empty
  | expr (e : Code)
  | declare (sort : DeclSort) (parts : List Code)
  /-- One declarator; the value may be absent. -/
  | declarator (target value : Code)
  | classDecl (name : String) (definition : Code)
  | block (lexicals : List Lexical) (functions stmts : List Code)
  | ifElse (c a b : Code)
  | whileLoop (c body : Code)
  | doWhile (body c : Code)
  /-- The names are the loop's own `let` bindings, fresh in every iteration. -/
  | forLoop (names : List Lexical) (init test update body : Code)
  | forIn (head e body : Code)
  | forOf (head e body : Code)
  | returnValue (e : Code)
  | breakTo (label : Option String)
  | continueTo (label : Option String)
  | throwValue (e : Code)
  /-- The parameter, the handler and the last block may be absent. -/
  | tryCatch (body parameter handler last : Code)
  | switch (e : Code) (lexicals : List Lexical) (functions cases : List Code)
  /-- One case; the default case has no test. -/
  | case (test : Code) (body : List Code)
  | labeled (label : String) (body : Code)

instance : Inhabited Code := ⟨.absent⟩

abbrev Expr := Code
abbrev Stmt := Code
abbrev Pattern := Code

namespace Code

def isAbsent : Code → Bool
  | .absent => true
  | _ => false

/-- The same function under another name; other code as it is. -/
def renameFunction (name : String) : Code → Code
  | .function info params functions body => .function { info with name } params functions body
  | c => c

/-- The name of a function. -/
def functionName : Code → String
  | .function info .. => info.name
  | _ => ""

/-- The names a pattern binds. Patterns nest no deeper than `fuel`. -/
def boundNames : Nat → Code → List String
  | 0, _ => []
  | fuel + 1, c =>
    match c with
    | .ident n => [n]
    | .withDefault target _ => boundNames fuel target
    | .patternField _ target => boundNames fuel target
    | .spread target => boundNames fuel target
    | .declarator target _ => boundNames fuel target
    | .objectPattern fields rest => fields.flatMap (boundNames fuel) ++ boundNames fuel rest
    | .arrayPattern items rest => items.flatMap (boundNames fuel) ++ boundNames fuel rest
    | _ => []

end Code

/-- A whole script: its strictness, the names it declares and its statements. -/
structure ScriptCode where
  strict : Bool
  varNames : List String
  lexicals : List Lexical
  functions : List Code
  stmts : List Code
deriving Inhabited

end ScriptBoundary.Script
