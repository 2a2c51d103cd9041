import PhpRendering.Scope.Basic

/-!
# Records of scopes

A record keeps every scope that was made, the scopes that are open, innermost
first, and the scopes of the functions that were entered. It hears of entries
only. When a function is entered, every open scope whose function does not hold
the new one has been left before, so it is closed then.

An entry that fails on an impossible shape keeps what it did up to that point.
-/

namespace PhpRendering

inductive ScopeError where
  | alreadyDefined (name : Value)
  | onlyProgramOpen

def ScopeError.message : ScopeError → String
  | alreadyDefined name => "Symbol '" ++ name.shown ++ "' already defined in scope"
  | onlyProgramOpen => "Cannot pop global scope"

/-- The scopes of a run. The current scope is the innermost open one; `outer` are
the other open ones, from the inside out. -/
structure ScopeRecord where
  scopes : List Scope
  current : ScopeId
  outer : List ScopeId
  functions : List ScopeId

namespace ScopeRecord

def programScope : Scope :=
  ⟨none, .text "<program>", none, []⟩

def programId : ScopeId := 0

def initial : ScopeRecord :=
  ⟨[programScope], programId, [], []⟩

def scope (record : ScopeRecord) (id : ScopeId) : Scope :=
  record.scopes.getD id programScope

def currentScope (record : ScopeRecord) : Scope :=
  record.scope record.current

def push (record : ScopeRecord) (name : Value) (function : Option Node) : ScopeRecord :=
  { record with
    scopes := record.scopes ++ [⟨some record.current, name, function, []⟩]
    current := record.scopes.length
    outer := record.current :: record.outer }

/-- The record after the current scope was closed. The scope of the program stays
open. -/
def pop (record : ScopeRecord) : Except ScopeError ScopeRecord :=
  match record.outer with
  | [] => .error .onlyProgramOpen
  | next :: outer => .ok { record with current := next, outer := outer }

def addSymbol (record : ScopeRecord) (id : ScopeId) (symbol : Symbol) : ScopeRecord :=
  { record with
    scopes := record.scopes.modify id fun scope =>
      { scope with symbols := scope.symbols ++ [symbol] } }

def define (record : ScopeRecord) (id : ScopeId) (symbol : Symbol) :
    Except ScopeError ScopeRecord :=
  if (record.scope id).has symbol.name then .error (.alreadyDefined symbol.name)
  else .ok (record.addSymbol id symbol)

/-- The record with a symbol defined in the current scope, unless its name is
defined there. -/
def defineHere (record : ScopeRecord) (symbol : Symbol) : ScopeRecord :=
  if record.currentScope.has symbol.name then record
  else record.addSymbol record.current symbol

def isProgramCurrent (record : ScopeRecord) : Bool :=
  record.currentScope.parent.isNone

/-- The scopes from one scope outwards to that of the program. Each scope was made
after the one around it. -/
def chain (record : ScopeRecord) (id : ScopeId) : List ScopeId :=
  match (record.scope id).parent with
  | none => [id]
  | some parent => if parent < id then id :: record.chain parent else [id]
termination_by id

def depth (record : ScopeRecord) (id : ScopeId) : Nat :=
  (record.chain id).length - 1

def owner? (record : ScopeRecord) (id : ScopeId) (name : Value) : Option ScopeId :=
  (record.chain id).find? fun candidate => (record.scope candidate).has name

def function? (record : ScopeRecord) (name : Value) : Option ScopeId :=
  record.functions.find? fun id => (record.scope id).name.isSameName name

/-! ## Entering a function -/

/-- The open scopes after those that do not hold a function were closed. The scope
of the program is never closed. -/
def leave (record : ScopeRecord) (function : Node) : List ScopeId → ScopeRecord × Except Crash Unit
  | [] => (record, .ok ())
  | next :: outer =>
      match record.currentScope.holdsBodyOf function with
      | .error crash => (record, .error crash)
      | .ok true => (record, .ok ())
      | .ok false => leave { record with current := next, outer := outer } function outer

def bindParameters (record : ScopeRecord) : Nat → List Value → ScopeRecord × Except Crash Unit
  | _, [] => (record, .ok ())
  | index, param :: rest =>
      match param.asNode with
      | .error crash => (record, .error crash)
      | .ok node =>
          match node.boundName.symbolName? with
          | .error crash => (record, .error crash)
          | .ok none => record.bindParameters (index + 1) rest
          | .ok (some name) =>
              (record.defineHere { name := name, parameter := index }).bindParameters
                (index + 1) rest

def openFunction (record : ScopeRecord) (function : Node) (name : Option Value) :
    ScopeRecord × Except Crash Unit :=
  let opened := record.push (name.getD (.text "")) (some function)
  match function.optionalItems "params" with
  | .error crash => (opened, .error crash)
  | .ok params =>
      match opened.bindParameters 0 params with
      | (bound, .error crash) => (bound, .error crash)
      | (bound, .ok ()) =>
          ({ bound with functions := bound.functions ++ [opened.current] }, .ok ())

def nameFunction (record : ScopeRecord) : Option Value → ScopeRecord
  | none => record
  | some name =>
      record.defineHere { name := name, isGlobal := record.isProgramCurrent, isFunction := true }

/-- The entry of a function: scopes that were left are closed, the name of the
function is defined around it, and its own scope is opened. -/
def enter (record : ScopeRecord) (function : Node) : ScopeRecord × Except Crash Unit :=
  match record.leave function record.outer with
  | (left, .error crash) => (left, .error crash)
  | (left, .ok ()) =>
      match function.functionName? with
      | .error crash => (left, .error crash)
      | .ok name => (left.nameFunction name).openFunction function name

end ScopeRecord

end PhpRendering
