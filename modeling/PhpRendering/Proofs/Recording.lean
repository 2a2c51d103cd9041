import PhpRendering.Proofs.Fields
import PhpRendering.Scope.Record

/-!
# Entries of functions

Symbols do not change how scopes are nested. The entry of a function closes some
open scopes from the inside out and then opens one for the function. Entries are
never refused when the bodies of functions are nodes and names are texts.
-/

namespace PhpRendering

/-! ## Names that parameters bring -/

theorem leftBoundName_eq (fields : List (String × Value)) :
    leftBoundName fields =
      match (fields.lookup "left").getD .null with
      | .node left => left.boundName
      | _ => .null := by
  induction fields with
  | nil => rfl
  | cons entry rest ih =>
      obtain ⟨name, value⟩ := entry
      by_cases left : name = "left"
      · subst left
        cases value <;> rfl
      · have differs : ("left" == name) = false := beq_eq_false_iff_ne.mpr (Ne.symm left)
        rw [List.lookup_cons, differs]
        cases value <;> simp [leftBoundName, left, ih]

theorem Node.boundName_eq (node : Node) :
    node.boundName =
      if node.kind = "Identifier" then node.field "name"
      else if node.kind = "AssignmentPattern" then
        match node.field "left" with
        | .node left => left.boundName
        | _ => .null
      else .null := by
  obtain ⟨origin, kind, fields, location⟩ := node
  rw [Node.boundName, leftBoundName_eq]
  rfl

def Value.boundSymbol? (param : Value) : Except Crash (Option Value) :=
  param.asNode.bind fun node => node.boundName.symbolName?

theorem Value.boundSymbol?_eq_ok {param : Value} {name : Option Value}
    (bound : param.boundSymbol? = .ok name) :
    ∃ node, param = .node node ∧ node.boundName.symbolName? = .ok name := by
  unfold Value.boundSymbol? at bound
  cases found : param.asNode with
  | error crash =>
      rw [found] at bound
      cases bound
  | ok node =>
      rw [found] at bound
      exact ⟨node, Value.asNode_eq_ok found, bound⟩

namespace ScopeRecord

/-- The first parameter is defined if it brings a name. -/
theorem bindParameters_cons (record : ScopeRecord) (index : Nat) (param : Value)
    (rest : List Value) :
    record.bindParameters index (param :: rest) =
      match param.boundSymbol? with
      | .error crash => (record, .error crash)
      | .ok none => record.bindParameters (index + 1) rest
      | .ok (some name) =>
          (record.defineHere { name := name, parameter := index }).bindParameters (index + 1)
            rest := by
  rw [bindParameters, Value.boundSymbol?]
  cases param.asNode with
  | error crash => rfl
  | ok node =>
      cases named : node.boundName.symbolName? with
      | error crash => simp only [Except.bind, named]
      | ok name => cases name <;> simp only [Except.bind, named]

/-- What each definition of a parameter keeps, the binding of all of them keeps, whether it
succeeds or not. -/
theorem bindParameters_keeps {P : ScopeRecord → Prop} {params : List Value}
    (keeps : ∀ record (index : Nat) name, (∃ param ∈ params, param.boundSymbol? = .ok (some name)) →
      P record → P (record.defineHere { name := name, parameter := index }))
    {record : ScopeRecord} (start : P record) (index : Nat) :
    P (record.bindParameters index params).1 := by
  induction params generalizing record index with
  | nil => exact start
  | cons param rest ih =>
      have later {record : ScopeRecord} (kept : P record) :
          P (record.bindParameters (index + 1) rest).1 := by
        refine ih (fun record index name brought => keeps record index name ?_) kept (index + 1)
        exact brought.imp fun _ held => held.imp_left (List.mem_cons_of_mem _)
      rw [bindParameters_cons]
      split
      · exact start
      · exact later start
      · next name bound =>
          exact later (keeps record index name ⟨param, List.mem_cons_self .., bound⟩ start)

/-! ## Nesting without symbols -/

def frame (scope : Scope) : Option ScopeId × Option Node :=
  (scope.parent, scope.function)

def frames (record : ScopeRecord) : List (Option ScopeId × Option Node) :=
  record.scopes.map frame

def openScopes (record : ScopeRecord) : List ScopeId :=
  record.current :: record.outer

/-- Whether two records differ in symbols and names only. -/
structure SameNesting (first second : ScopeRecord) : Prop where
  frames : second.frames = first.frames
  current : second.current = first.current
  outer : second.outer = first.outer
  functions : second.functions = first.functions

namespace SameNesting

theorem refl (record : ScopeRecord) : SameNesting record record :=
  ⟨rfl, rfl, rfl, rfl⟩

theorem trans {first second third : ScopeRecord} (start : SameNesting first second)
    (rest : SameNesting second third) : SameNesting first third :=
  ⟨rest.frames.trans start.frames, rest.current.trans start.current, rest.outer.trans start.outer,
    rest.functions.trans start.functions⟩

end SameNesting

theorem addSymbol_sameNesting (record : ScopeRecord) (id : ScopeId) (symbol : Symbol) :
    SameNesting record (record.addSymbol id symbol) := by
  refine ⟨?_, rfl, rfl, rfl⟩
  refine List.ext_getElem? fun place => ?_
  simp only [frames, addSymbol, List.getElem?_map, List.getElem?_modify]
  split
  · cases record.scopes[place]? <;> rfl
  · cases record.scopes[place]? <;> rfl

theorem defineHere_sameNesting (record : ScopeRecord) (symbol : Symbol) :
    SameNesting record (record.defineHere symbol) := by
  unfold defineHere
  split
  · exact .refl record
  · exact addSymbol_sameNesting record _ symbol

theorem nameFunction_sameNesting (record : ScopeRecord) (name : Option Value) :
    SameNesting record (record.nameFunction name) := by
  cases name with
  | none => exact .refl record
  | some name => exact defineHere_sameNesting record _

theorem bindParameters_sameNesting (record : ScopeRecord) (index : Nat) (params : List Value) :
    SameNesting record (record.bindParameters index params).1 :=
  bindParameters_keeps (fun before _ _ _ same => same.trans (defineHere_sameNesting before _))
    (.refl record) index

/-! ## Closing scopes -/

/-- The open scopes after an entry are the outer ones of those before, and those that
were closed do not hold the function. -/
structure Closes (record left : ScopeRecord) (function : Node) (closed : List ScopeId) : Prop where
  scopes : left.scopes = record.scopes
  functions : left.functions = record.functions
  opened : record.openScopes = closed ++ left.openScopes
  outside : ∀ id ∈ closed, (record.scope id).holdsBodyOf function = .ok false

/-- Scopes are closed up to one that holds the function or that of the program. -/
theorem leave_closes (record : ScopeRecord) (function : Node) :
    ∃ closed, Closes record (record.leave function record.outer).1 function closed ∧
      ((record.leave function record.outer).2 = .ok () →
        (record.leave function record.outer).1.outer = [] ∨
        (record.leave function record.outer).1.currentScope.holdsBodyOf function = .ok true) := by
  obtain ⟨scopes, current, outer, functions⟩ := record
  induction outer generalizing current with
  | nil =>
      refine ⟨[], ⟨rfl, rfl, rfl, ?_⟩, fun _ => .inl rfl⟩
      exact List.forall_mem_nil _
  | cons next outer ih =>
      simp only [leave]
      cases held : (currentScope ⟨scopes, current, next :: outer, functions⟩).holdsBodyOf function with
      | error crash =>
          refine ⟨[], ⟨rfl, rfl, rfl, List.forall_mem_nil _⟩, fun fine => ?_⟩
          cases fine
      | ok inside =>
          cases inside with
          | true => exact ⟨[], ⟨rfl, rfl, rfl, List.forall_mem_nil _⟩, fun _ => .inr held⟩
          | false =>
              obtain ⟨closed, closes, stopped⟩ := ih next
              refine ⟨current :: closed, ⟨closes.scopes, closes.functions, ?_, ?_⟩, stopped⟩
              · exact congrArg (current :: ·) closes.opened
              · exact List.forall_mem_cons.mpr ⟨held, closes.outside⟩

/-! ## Opening a scope -/

/-- One more scope is open, that of a function, inside the scope that was current. It
counts as entered unless the entry fails. -/
structure Opens (record : ScopeRecord) (entry : ScopeRecord × Except Crash Unit) (function : Node) :
    Prop where
  frames : entry.1.frames = record.frames ++ [(some record.current, some function)]
  opened : entry.1.openScopes = record.scopes.length :: record.openScopes
  functions : entry.1.functions = record.functions ++ [record.scopes.length] ∨
    entry.1.functions = record.functions ∧ entry.2 ≠ .ok ()

namespace SameNesting

variable {first second : ScopeRecord} (same : SameNesting first second)

include same

theorem openScopes : second.openScopes = first.openScopes := by
  unfold ScopeRecord.openScopes
  rw [same.current, same.outer]

theorem length : second.scopes.length = first.scopes.length := by
  have lengths := congrArg List.length same.frames
  unfold ScopeRecord.frames at lengths
  rwa [List.length_map, List.length_map] at lengths

/-- Symbols do not matter before a scope is opened. -/
theorem opens {entry : ScopeRecord × Except Crash Unit} {function : Node}
    (opens : Opens second entry function) : Opens first entry function := by
  obtain ⟨frames, opened, functions⟩ := opens
  rw [same.frames, same.current] at frames
  rw [same.length, same.openScopes] at opened
  rw [same.length, same.functions] at functions
  exact ⟨frames, opened, functions⟩

end SameNesting

theorem openFunction_opens (record : ScopeRecord) (function : Node) (name : Option Value) :
    Opens record (record.openFunction function name) function := by
  have frames : (record.push (name.getD (.text "")) (some function)).frames =
      record.frames ++ [(some record.current, some function)] := List.map_append
  unfold openFunction
  cases function.optionalItems "params" with
  | error crash => exact ⟨frames, rfl, .inr ⟨rfl, nofun⟩⟩
  | ok params =>
      have bound := bindParameters_sameNesting (record.push (name.getD (.text "")) (some function)) 0
        params
      dsimp only
      split
      · next after crash read =>
          rw [read] at bound
          exact ⟨bound.frames.trans frames, bound.openScopes,
            .inr ⟨bound.functions, nofun⟩⟩
      · next after read =>
          rw [read] at bound
          exact ⟨bound.frames.trans frames, bound.openScopes,
            .inl (congrArg (· ++ [record.scopes.length]) bound.functions)⟩

/-- The entry of a function closes scopes that do not hold it. Unless it is refused then,
the scope of the function is opened inside one that holds it or inside the program. -/
theorem enter_cases (record : ScopeRecord) (function : Node) :
    ∃ left closed, Closes record left function closed ∧
      ((record.enter function).1 = left ∧ (record.enter function).2 ≠ .ok () ∨
        (left.outer = [] ∨ left.currentScope.holdsBodyOf function = .ok true) ∧
          Opens left (record.enter function) function) := by
  obtain ⟨closed, closes, stopped⟩ := leave_closes record function
  refine ⟨_, closed, closes, ?_⟩
  unfold enter
  split
  · next left crash refused =>
      exact .inl ⟨(congrArg Prod.fst refused).symm, nofun⟩
  · next left fine =>
      rw [fine] at closes stopped ⊢
      cases function.functionName? with
      | error crash => exact .inl ⟨rfl, nofun⟩
      | ok name =>
          exact .inr ⟨stopped rfl, (nameFunction_sameNesting left name).opens
            (openFunction_opens _ function name)⟩

end ScopeRecord

/-! ## Entries that succeed -/

def Node.HasPlainBody (function : Node) : Prop :=
  function.field "body" = .null ∨ ∃ body, function.field "body" = .node body

/-- A function whose entry meets no impossible shape. -/
structure Node.IsEnterable (function : Node) : Prop where
  body : function.HasPlainBody
  name : ∃ name, function.functionName? = .ok name
  params : ∃ params, function.optionalItems "params" = .ok params ∧
    ∀ param ∈ params, ∃ node, param = .node node ∧ ∃ name, node.boundName.symbolName? = .ok name

/-- A function whose name and parameters a scope can take, whatever its body is. -/
structure Node.IsBindable (function : Node) : Prop where
  name : ∃ name, function.functionName? = .ok name
  params : ∃ params, function.optionalItems "params" = .ok params ∧
    ∀ param ∈ params, ∃ node, param = .node node ∧ ∃ name, node.boundName.symbolName? = .ok name

theorem Node.IsEnterable.bindable {function : Node} (enterable : function.IsEnterable) :
    function.IsBindable :=
  ⟨enterable.name, enterable.params⟩

theorem Scope.holds_ok {scope : Scope}
    (plain : ∀ function, scope.function = some function → function.HasPlainBody)
    (target : Occurrence) : ∃ inside, scope.holds target = .ok inside := by
  unfold Scope.holds
  split
  · exact ⟨true, rfl⟩
  · next function owner =>
      rcases plain function owner with nothing | ⟨body, held⟩
      · simp [Node.occurrence, nothing, Value.isNull]
      · simp only [Node.occurrence, held, Value.isNull, Bool.false_eq_true, if_false]
        split
        · exact ⟨true, rfl⟩
        · cases target.value <;> exact ⟨_, rfl⟩

namespace ScopeRecord

def IsSearchable (record : ScopeRecord) : Prop :=
  ∀ frame ∈ record.frames, ∀ function, frame.2 = some function → function.HasPlainBody

theorem initial_isSearchable : initial.IsSearchable := by
  refine List.forall_mem_singleton.mpr ?_
  rintro function ⟨⟩

theorem IsSearchable.holds {record : ScopeRecord} (searchable : record.IsSearchable) (id : ScopeId)
    (target : Occurrence) : ∃ inside, (record.scope id).holds target = .ok inside := by
  refine Scope.holds_ok (fun function owner => ?_) target
  unfold scope at owner
  cases place : record.scopes[id]? with
  | none =>
      rw [List.getD_eq_getElem?_getD, place] at owner
      cases owner
  | some found =>
      rw [List.getD_eq_getElem?_getD, place] at owner
      exact searchable _ (List.mem_map_of_mem (List.mem_of_getElem? place)) function owner

theorem IsSearchable.leave_ok {record : ScopeRecord} (searchable : record.IsSearchable)
    (function : Node) : (record.leave function record.outer).2 = .ok () := by
  obtain ⟨scopes, current, outer, functions⟩ := record
  induction outer generalizing current with
  | nil => rfl
  | cons next outer ih =>
      simp only [leave]
      obtain ⟨inside, held⟩ := searchable.holds current (function.occurrence "body")
      unfold Scope.holdsBodyOf currentScope
      rw [held]
      cases inside with
      | true => rfl
      | false => exact ih next searchable

theorem bindParameters_ok (record : ScopeRecord) (index : Nat) {params : List Value}
    (named : ∀ param ∈ params, ∃ node, param = .node node ∧
      ∃ name, node.boundName.symbolName? = .ok name) :
    (record.bindParameters index params).2 = .ok () := by
  induction params generalizing record index with
  | nil => rfl
  | cons param rest ih =>
      obtain ⟨⟨node, rfl, name, bound⟩, later⟩ := List.forall_mem_cons.mp named
      simp only [bindParameters_cons, Value.boundSymbol?, Value.asNode, Except.bind, bound]
      cases name with
      | none => exact ih record (index + 1) later
      | some name => exact ih _ (index + 1) later

theorem openFunction_ok (record : ScopeRecord) {function : Node} (bindable : function.IsBindable)
    (name : Option Value) : (record.openFunction function name).2 = .ok () := by
  obtain ⟨params, listed, named⟩ := bindable.params
  unfold openFunction
  rw [listed]
  have bound := bindParameters_ok (record.push (name.getD (.text "")) (some function)) 0 named
  dsimp only
  split
  · next after crash read =>
      rw [read] at bound
      cases bound
  · rfl

/-- An entry in a record that can be searched succeeds. -/
theorem IsSearchable.enter_ok {record : ScopeRecord} (searchable : record.IsSearchable)
    {function : Node} (bindable : function.IsBindable) : (record.enter function).2 = .ok () := by
  obtain ⟨name, named⟩ := bindable.name
  have fine := searchable.leave_ok function
  unfold ScopeRecord.enter
  split
  · next left crash refused =>
      rw [refused] at fine
      cases fine
  · rw [named]
    exact openFunction_ok _ bindable name

/-- The entry of a function whose body is a node keeps a record searchable, also if the
entry fails. -/
theorem IsSearchable.enter_of_plain {record : ScopeRecord} (searchable : record.IsSearchable)
    {function : Node} (plain : function.HasPlainBody) : (record.enter function).1.IsSearchable := by
  obtain ⟨left, closed, closes, after⟩ := record.enter_cases function
  have same : left.frames = record.frames := congrArg (List.map frame) closes.scopes
  rcases after with ⟨refused, -⟩ | ⟨-, opens⟩
  · unfold IsSearchable
    rw [refused, same]
    exact searchable
  · unfold IsSearchable
    rw [opens.frames, same]
    refine List.forall_mem_append.mpr ⟨searchable, List.forall_mem_singleton.mpr ?_⟩
    rintro _ ⟨⟩
    exact plain

/-- An entry in a record that can be searched keeps it so if the body is a node. -/
theorem IsSearchable.enter {record : ScopeRecord} (searchable : record.IsSearchable)
    {function : Node} (enterable : function.IsEnterable) :
    (record.enter function).2 = .ok () ∧ (record.enter function).1.IsSearchable :=
  ⟨searchable.enter_ok enterable.bindable, searchable.enter_of_plain enterable.body⟩

end ScopeRecord

end PhpRendering
