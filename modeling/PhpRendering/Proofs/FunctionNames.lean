import PhpRendering.Proofs.Accounts
import PhpRendering.Proofs.History
import PhpRendering.Proofs.Listing
import PhpRendering.Proofs.Routes

/-!
# Names of functions

Declarations, function expressions and methods are all entered as declarations, and the
scope around gets their name. So a name is found in a scope exactly when a parameter or a
function of that name is visible there, whatever the function was in the source.
-/

namespace PhpRendering

/-! ## Functions as declarations -/

/-- Whether a node is what a function of a tree is entered as: a declaration is entered as
it is, an expression under its own name, and the function of a method under the name of the
method. -/
inductive Node.Declares (root : Node) (constructorName : String) : Node → Prop where
  | declaration {function : Node} (leads : root.Leads function)
      (own : (Value.node root).isMethodPlace function.origin.steps = false)
      (kind : function.kind = "FunctionDeclaration") : Declares root constructorName function
  | expression {function : Node} (leads : root.Leads function)
      (own : (Value.node root).isMethodPlace function.origin.steps = false)
      (kind : function.kind = "FunctionExpression") :
      Declares root constructorName (Rule.asDeclaration function (function.field "id").name)
  | method {method function : Node} (leads : root.Leads method)
      (kind : method.kind = "MethodDefinition") (held : method.field "value" = .node function) :
      Declares root constructorName (Rule.asDeclaration function
        (Naming.methodName constructorName (method.field "key").name))

/-- Whether a value, if it is a node, is one of a tree and no function of a method. -/
def Value.IsOwn (value : Value) (root : Node) : Prop :=
  ∀ node, value = .node node →
    root.Leads node ∧ (Value.node root).isMethodPlace node.origin.steps = false

namespace Node.Leads

variable {root parent : Node}

theorem field_isOwn (isRoot : root.IsRoot) (leads : root.Leads parent) {name : String}
    (other : name = "value" → parent.kind ≠ "MethodDefinition") :
    (parent.field name).IsOwn root := by
  intro child held
  refine ⟨.field leads held, ?_⟩
  rw [leads.origin_field isRoot held]
  exact leads.isMethodPlace_other isRoot other

theorem item_isOwn (isRoot : root.IsRoot) (leads : root.Leads parent) {name : String}
    {items : List Value} (listed : (parent.field name).items = .ok items) {index : Nat}
    {value : Value} (place : items[index]? = some value) : value.IsOwn root := by
  rintro child rfl
  have held := Value.eq_list_of_items listed (List.mem_of_getElem? place)
  refine ⟨.item leads held place, ?_⟩
  rw [leads.origin_item isRoot held place]
  rfl

end Node.Leads

/-- A node that is rendered for a tree. It stands for a node of the tree, as a declaration
under the name of a function, or it assigns a default to a parameter. -/
inductive Node.Presents (root : Node) (constructorName : String) : Node → Prop where
  | standing {node original : Node} (stands : node.StandsFor root original)
      (declared : node.kind = "FunctionDeclaration" → root.Declares constructorName node)
      (unnamed : node.kind = "FunctionExpression" → (Value.node node).IsOwn root) :
      Presents root constructorName node
  | assignment (function : Node) {target default : Value} (first : target.IsOwn root)
      (second : default.IsOwn root) :
      Presents root constructorName (Rule.defaultAssignment function target default)

def Task.Shows (P : Node → Prop) : Task → Prop
  | .visit _ value _ => ∀ child, value = .node child → P child
  | _ => True

/-- An assignment of a default has its two sides rendered. -/
theorem Rule.defaultAssignment_shows (options : Options) {P : Node → Prop} (function : Node)
    {target default : Value} (first : ∀ child, target = .node child → P child)
    (second : ∀ child, default = .node child → P child) (position : Position) :
    ∀ task ∈ (defaultAssignment function target default).tasks options position, task.Shows P := by
  generalize assigned : defaultAssignment function target default = assignment
  have tasks : assignment.tasks options position =
      Task.needed assignment "left"
          (Task.child "left" (.of assignment (assignment.occurrence "left"))) ++
        (Task.needed assignment "right"
            (Task.child "right" (.of assignment (assignment.occurrence "right"))) ++
          Task.needed assignment "operator" fun _ => []) := by
    rw [← assigned]
    rfl
  rw [tasks]
  refine List.forall_mem_append.mpr ⟨?_, List.forall_mem_append.mpr ⟨?_, ?_⟩⟩
  · refine Task.forall_needed (fun _ => trivial) fun value found => List.forall_mem_singleton.mpr ?_
    rw [← Node.field_of_field? found, ← assigned]
    exact first
  · refine Task.forall_needed (fun _ => trivial) fun value found => List.forall_mem_singleton.mpr ?_
    rw [← Node.field_of_field? found, ← assigned]
    exact second
  · exact Task.forall_needed (fun _ => trivial) fun _ _ => List.forall_mem_nil _

namespace Node.Presents

variable {root node child : Node} {constructorName : String}

/-- A node of a tree that is no function of a method is rendered as it is. -/
theorem of_isOwn (isRoot : root.IsRoot) (own : (Value.node child).IsOwn root) :
    root.Presents constructorName child := by
  obtain ⟨leads, outside⟩ := own child rfl
  exact .standing (leads.standsFor isRoot outside) (.declaration leads outside) fun _ => own

/-- A function is rendered as a declaration of the tree. -/
theorem declared {original : Node} (stands : node.StandsFor root original)
    (declares : root.Declares constructorName node) (kind : node.kind = "FunctionDeclaration") :
    root.Presents constructorName node := by
  refine .standing stands (fun _ => declares) fun other => ?_
  exact absurd (kind.symm.trans other) (by decide)

/-- Whatever a rendered node visits is rendered for the tree. -/
theorem visit (isRoot : root.IsRoot) {options : Options} {position place : Position}
    {source : Source} (presents : root.Presents options.constructorName node)
    (visits : .visit source (.node child) place ∈ node.tasks options position) :
    root.Presents options.constructorName child := by
  cases presents with
  | assignment function first second =>
      have sides := Rule.defaultAssignment_shows options function first second position
      exact of_isOwn isRoot fun node same => Value.node.inj same ▸ sides _ visits child rfl
  | @standing _ original stands declared unnamed =>
      obtain ⟨construct, known, -⟩ := Node.visit_provided visits
      rw [Node.tasks_eq known] at visits
      obtain ⟨part, listed, among⟩ := List.mem_flatMap.mp visits
      have provided : source.Provides node part (.node child) :=
        part.tasks_provided options node position _ among
      have same {field : String} {shape : Shape} {use : Use}
          (read : ⟨field, shape, use⟩ ∈ part.readings) (shaped : shape ≠ .anything) :
          node.field field = original.field field := stands.field_eq known listed read shaped
      generalize rendered : Value.node child = value at provided
      cases provided with
      | call read =>
          subst read
          cases Construct.eq_construction listed
          cases rendered
          have kind : node.kind = "NewExpression" := Construct.kind_eq known (by decide)
          have call : (Rule.asCall node).kind = "CallExpression" := rfl
          refine .standing (stands.asCall kind) (fun other => ?_) fun other => ?_
          · exact absurd (call.symm.trans other) (by decide)
          · exact absurd (call.symm.trans other) (by decide)
      | declaration read name =>
          subst read
          cases Construct.eq_functionExpression listed
          have kind : node.kind = "FunctionExpression" := Construct.kind_eq known (by decide)
          obtain ⟨leads, outside⟩ := unnamed kind node rfl
          have visited := (Task.visit.inj (List.mem_singleton.mp among)).2.1
          rw [Value.node.inj visited]
          exact .declared (stands.asDeclaration kind _) (.expression leads outside kind) rfl
      | @field field shape use _ read single found direct =>
          have shaped : shape ≠ .anything := by
            rcases single with rfl | ⟨rfl, _⟩ <;> decide
          have use : use ≠ .function := by
            rcases direct with rfl | rfl <;> decide
          refine of_isOwn isRoot ?_
          rw [rendered, ← Node.field_of_field? found, same read shaped]
          exact stands.leads.field_isOwn isRoot (stands.ne_method known listed read use)
      | @item field shape use items index _ read several held place _ =>
          have shaped : shape ≠ .anything := by
            rcases several with rfl | ⟨rfl | rfl, _⟩ <;> decide
          rw [same read shaped] at held
          rw [← rendered] at place
          exact of_isOwn isRoot (stands.leads.item_isOwn isRoot held place)
      | @receiver use callee _ read held role found =>
          rw [same read (by decide)] at held
          have toCallee := Node.Leads.field stands.leads held
          refine of_isOwn isRoot ?_
          rw [rendered, ← Node.field_of_field? found]
          exact toCallee.field_isOwn isRoot fun same => absurd same (by decide)
      | @declarator start items index _ read held kind declared place =>
          rw [same read (by decide)] at held
          rw [← rendered] at place
          have toStart := Node.Leads.field stands.leads held
          exact of_isOwn isRoot (toStart.item_isOwn isRoot declared place)
      | @method function read held name =>
          have method := stands.original_of_method known listed read
          obtain rfl := Part.eq_method read
          obtain ⟨-, visited⟩ := Part.visit_of_method _ among rfl
          have named := Value.node.inj (visited.trans (Source.valueAt_method held))
          have key : node.field "key" = original.field "key" :=
            (stands.fields "key").resolve_right fun declared => absurd declared.2 (by decide)
          rw [same read (by decide)] at held
          rw [key] at named
          have toFunction := Node.Leads.field stands.leads held
          have place : (Value.node root).isFunctionAt function.origin.steps = true := by
            refine (toFunction.isFunctionAt_iff isRoot).mpr (.inr ?_)
            rw [stands.leads.origin_field isRoot held]
            exact (stands.leads.isMethodPlace_field isRoot "value").mpr ⟨rfl, method⟩
          rw [named]
          exact .declared (toFunction.asDeclaration_standsFor place _)
            (.method stands.leads method held) rfl
      | @pattern items index param target default read held place kind left right =>
          rw [same read (by decide)] at held
          have list := Value.eq_list_of_items held (List.mem_of_getElem? place)
          have toParam := Node.Leads.item stands.leads list place
          have first : (param.field "left").IsOwn root :=
            toParam.field_isOwn isRoot fun same => absurd same (by decide)
          have second : (param.field "right").IsOwn root :=
            toParam.field_isOwn isRoot fun same => absurd same (by decide)
          rw [Node.field_of_field? left] at first
          rw [Node.field_of_field? right] at second
          cases rendered
          exact .assignment node first second
      | @defaulted items index param default read held place kind readDefaults given something =>
          rw [same read (by decide)] at held
          rw [same readDefaults (by decide)] at given
          obtain ⟨defaults, listedDefaults, placeDefault⟩ := Value.getElem?_of_itemAt given something
          cases rendered
          exact .assignment node (stands.leads.item_isOwn isRoot held place)
            (stands.leads.item_isOwn isRoot listedDefaults placeDefault)

end Node.Presents

/-- Every function that is entered for a tree is declared by it. -/
theorem Node.Presents.declares {root : Node} (isRoot : root.IsRoot) {options : Options}
    {node : Node} (presents : root.Presents options.constructorName node) (position : Position) :
    ∀ function ∈ (render options (.node node) position).functions,
      root.Declares options.constructorName function := by
  intro function entered
  obtain ⟨presented, kind⟩ := entered_of_visits (root.Presents options.constructorName)
    (fun _ _ _ _ _ presents visits => presents.visit isRoot visits) presents position function entered
  cases presented with
  | standing stands declared unnamed => exact declared kind
  | @assignment function target default first second =>
      have other : (Rule.defaultAssignment function target default).kind =
          "AssignmentExpression" := rfl
      exact absurd (other.symm.trans kind) (by decide)

theorem Node.IsRoot.declares {root : Node} (isRoot : root.IsRoot) (options : Options)
    (position : Position) :
    ∀ function ∈ (render options (.node root) position).functions,
      root.Declares options.constructorName function := by
  refine Node.Presents.declares isRoot (.of_isOwn isRoot ?_) position
  rintro node ⟨⟩
  refine ⟨.refl, ?_⟩
  rw [isRoot.top]
  rfl

/-! ## Names that are bound in a scope -/

/-- The symbol of a parameter is no symbol of a function. -/
theorem isFunction_of_mem_parameterSymbols {function : Node} {symbol : Symbol}
    (held : symbol ∈ function.parameterSymbols) : symbol.isFunction = false := by
  unfold Node.parameterSymbols at held
  split at held
  · obtain ⟨entry, -, bound⟩ := List.mem_filterMap.mp held
    split at bound
    · cases bound
      rfl
    · cases bound
  · cases held

namespace ScopeRecord

variable {record : ScopeRecord} {root : Node} {entered : List Node} {id inner : ScopeId}
  {name : Value} {symbol : Symbol}

/-- Whether a name is bound in a scope: it is the name of a parameter of the function of the
scope, or that of an entered function around which this is the innermost scope. -/
inductive Binds (record : ScopeRecord) (root : Node) (entered : List Node) (id : ScopeId)
    (name : Value) : Prop where
  | parameter {function : Node} {symbol : Symbol}
      (owner : (record.scope id).function = some function)
      (held : symbol ∈ function.parameterSymbols) (same : symbol.name.isSameName name = true)
  | function {declaration : Node} {own : Value} (held : declaration ∈ entered)
      (named : declaration.ownName? = some own) (same : own.isSameName name = true)
      (around : record.Encloses id ((Value.node root).placesAround declaration.origin))

/-- A scope gets a symbol from a function when it is the parent of its scope and the function
has a name. -/
theorem nameSymbol?_eq_some_iff :
    record.nameSymbol? id inner = some symbol ↔
      (record.scope inner).parent = some id ∧ ∃ function own,
        (record.scope inner).function = some function ∧ function.ownName? = some own ∧
        symbol = { name := own, isGlobal := id == programId, isFunction := true } := by
  unfold nameSymbol?
  split
  · next around =>
      simp only [around, true_and, Option.map_eq_some_iff, Option.bind_eq_some_iff]
      constructor
      · rintro ⟨own, ⟨function, owner, named⟩, rfl⟩
        exact ⟨function, own, owner, named, rfl⟩
      · rintro ⟨function, own, owner, named, rfl⟩
        exact ⟨own, ⟨function, owner, named⟩, rfl⟩
  · next apart => simp only [apart, false_and, reduceCtorEq]

theorem scope_of_beyond (beyond : record.scopes.length ≤ id) : record.scope id = programScope := by
  unfold scope
  rw [List.getD_eq_getElem?_getD, List.getElem?_eq_none beyond]
  rfl

/-- A scope that was never made has no symbols. -/
theorem lt_of_mem_symbols (held : symbol ∈ (record.scope id).symbols) :
    id < record.scopes.length := by
  by_contra beyond
  rw [scope_of_beyond (Nat.le_of_not_lt beyond)] at held
  cases held

/-- A scope that was never made belongs to no function. -/
theorem lt_of_owner {function : Node} (owner : (record.scope id).function = some function) :
    id < record.scopes.length := by
  by_contra beyond
  rw [scope_of_beyond (Nat.le_of_not_lt beyond)] at owner
  cases owner

/-- What a name stands for in a scope that lies in no other one. -/
theorem lookup?_of_outermost (outermost : (record.scope id).parent = none) :
    record.lookup? id name = (record.scope id).symbol? name := by
  unfold lookup? owner?
  rw [chain, outermost]
  dsimp only
  rw [List.find?_singleton]
  split
  · rfl
  · next absent =>
      refine (List.find?_eq_none.mpr fun symbol held same => absent ?_).symm
      exact List.any_eq_true.mpr ⟨symbol, held, same⟩

namespace IsTabled

variable (tabled : record.IsTabled entered)

include tabled

/-- Every entered function has a scope. -/
theorem exists_scope {declaration : Node} (held : declaration ∈ entered) :
    ∃ inner ∈ record.functions, (record.scope inner).function = some declaration := by
  obtain ⟨index, place⟩ := List.getElem?_of_mem held
  refine ⟨index + 1, ?_, tabled.owners index declaration place⟩
  obtain ⟨bound, -⟩ := List.getElem?_eq_some_iff.mp place
  rw [tabled.functions, List.mem_range'_1]
  omega

/-- The scopes of functions are those of the entered ones. -/
theorem exists_entered (counted : inner ∈ record.functions) :
    ∃ declaration ∈ entered, (record.scope inner).function = some declaration := by
  rw [tabled.functions, List.mem_range'_1] at counted
  obtain ⟨index, rfl⟩ := Nat.exists_eq_add_of_le' counted.1
  have bound : index < entered.length := by omega
  exact ⟨entered[index], List.getElem_mem bound,
    tabled.owners index _ (List.getElem?_eq_getElem bound)⟩

end IsTabled

namespace IsNested

variable {forest : List Value} (nested : record.IsNested forest)

include nested

/-- Only one scope is innermost around some places. -/
theorem encloses_unique {other : ScopeId} {around : List Origin}
    (first : record.Encloses id around) (second : record.Encloses other around) : id = other := by
  cases around with
  | nil => exact first.trans second.symm
  | cons innermost outer => exact nested.distinct _ _ _ first.2 second.2

end IsNested

/-- The record of a run over one tree, in which some functions were entered. -/
structure IsRun (record : ScopeRecord) (root : Node) (entered : List Node) : Prop where
  tabled : record.IsTabled entered
  nested : record.IsNested [.node root]

namespace IsRun

variable (run : record.IsRun root entered)

include run

/-- The parent of the scope of a function is the innermost scope around it. -/
theorem parent {declaration : Node} (counted : inner ∈ record.functions)
    (owner : (record.scope inner).function = some declaration) :
    ∃ outer, (record.scope inner).parent = some outer ∧
      record.Encloses outer ((Value.node root).placesAround declaration.origin) := by
  obtain ⟨outer, function, found, encloses⟩ := run.nested.entered inner counted
  obtain ⟨atParent, known⟩ := scope_of_frame found
  cases owner.symm.trans known
  obtain ⟨-, -, -, other, planted, -⟩ := run.nested.owned_of_frame found
  rw [enclosing_of_root planted] at encloses
  cases List.mem_singleton.mp (List.mem_of_getElem? planted)
  exact ⟨outer, atParent, encloses⟩

/-- The functions that bring symbols to a scope are those around which it is innermost. -/
theorem nameSymbol?_iff :
    (∃ inner ∈ record.functions, record.nameSymbol? id inner = some symbol) ↔
      ∃ declaration ∈ entered, ∃ own, declaration.ownName? = some own ∧
        record.Encloses id ((Value.node root).placesAround declaration.origin) ∧
        symbol = { name := own, isGlobal := id == programId, isFunction := true } := by
  constructor
  · rintro ⟨inner, counted, brings⟩
    obtain ⟨inside, function, own, owner, named, rfl⟩ := nameSymbol?_eq_some_iff.mp brings
    obtain ⟨declaration, held, known⟩ := run.tabled.exists_entered counted
    cases owner.symm.trans known
    obtain ⟨outer, around, encloses⟩ := run.parent counted owner
    cases inside.symm.trans around
    exact ⟨function, held, own, named, encloses, rfl⟩
  · rintro ⟨declaration, held, own, named, encloses, rfl⟩
    obtain ⟨inner, counted, owner⟩ := run.tabled.exists_scope held
    obtain ⟨outer, around, enclosesToo⟩ := run.parent counted owner
    cases run.nested.encloses_unique encloses enclosesToo
    exact ⟨inner, counted, nameSymbol?_eq_some_iff.mpr ⟨around, declaration, own, owner, named, rfl⟩⟩

/-- The symbol of a function in a scope is the name of one around which the scope is
innermost. -/
theorem named_of_isFunction (held : symbol ∈ (record.scope id).symbols)
    (function : symbol.isFunction = true) :
    ∃ declaration ∈ entered, declaration.ownName? = some symbol.name ∧
      record.Encloses id ((Value.node root).placesAround declaration.origin) := by
  rw [run.tabled.symbols id (lt_of_mem_symbols held)] at held
  rcases List.mem_append.mp (mem_of_mem_firstSymbols held) with parameter | brought
  · cases owner : (record.scope id).function with
    | none =>
        rw [owner] at parameter
        cases parameter
    | some outer =>
        rw [owner] at parameter
        cases (isFunction_of_mem_parameterSymbols parameter).symm.trans function
  · obtain ⟨declaration, among, own, named, encloses, rfl⟩ :=
      run.nameSymbol?_iff.mp (List.mem_filterMap.mp brought)
    exact ⟨declaration, among, named, encloses⟩

/-- A scope has the names that are bound in it. -/
theorem has_iff : (record.scope id).has name = true ↔ record.Binds root entered id name := by
  constructor
  · intro has
    obtain ⟨symbol, held, same⟩ := List.any_eq_true.mp has
    rw [run.tabled.symbols id (lt_of_mem_symbols held)] at held
    rcases List.mem_append.mp (mem_of_mem_firstSymbols held) with parameter | named
    · cases owner : (record.scope id).function with
      | none =>
          rw [owner] at parameter
          cases parameter
      | some function =>
          rw [owner] at parameter
          exact .parameter owner parameter same
    · obtain ⟨declaration, among, own, called, around, rfl⟩ :=
        run.nameSymbol?_iff.mp (List.mem_filterMap.mp named)
      exact .function among called same around
  · intro binds
    obtain ⟨known, symbol, brought, same⟩ : id < record.scopes.length ∧
        ∃ symbol ∈ record.brought id, symbol.name.isSameName name = true := by
      cases binds with
      | @parameter function symbol owner held same =>
          refine ⟨lt_of_owner owner, symbol, List.mem_append_left _ ?_, same⟩
          rw [owner]
          exact held
      | @function declaration own held named same around =>
          have brings := run.nameSymbol?_iff.mpr ⟨declaration, held, own, named, around, rfl⟩
          exact ⟨run.nested.lt_of_encloses around, _,
            List.mem_append_right _ (List.mem_filterMap.mpr brings), same⟩
    unfold Scope.has
    rw [run.tabled.symbols id known, any_firstSymbols]
    exact List.any_eq_true.mpr ⟨symbol, brought, same⟩

/-- A name is found from a scope when it is bound there or in a scope around. -/
theorem lookup?_isSome_iff :
    (record.lookup? id name).isSome = true ↔
      ∃ outer ∈ record.chain id, record.Binds root entered outer name := by
  simp only [← run.has_iff]
  unfold lookup?
  cases nearest : record.owner? id name with
  | none =>
      refine iff_of_false (fun found => nomatch found) ?_
      rintro ⟨outer, around, has⟩
      exact List.find?_eq_none.mp nearest outer around has
  | some outer =>
      have has : (record.scope outer).has name = true :=
        List.find?_some (p := fun candidate => (record.scope candidate).has name) nearest
      obtain ⟨symbol, held, same⟩ := List.any_eq_true.mp has
      refine iff_of_true ?_ ⟨outer, List.mem_of_find?_eq_some nearest, has⟩
      exact List.find?_isSome.mpr ⟨symbol, held, same⟩

end IsRun

end ScopeRecord

/-! ## Names in a program -/

namespace Session

/-- The run of a readable program from an empty record. -/
theorem generate_isRun (options : Options) (log : List Diagnostic) {form : TreeForm} {source : Json}
    {root : Node} (converted : Value.ofJson form 0 source = .node root)
    (program : root.kind = "Program") (readable : root.Readable)
    (bodies : (Value.node root).HasBodies) (found : String) :
    ∃ record file,
      (generate ⟨options, log, .scoping .initial⟩ (.node root) found).1.recorder =
        .scoping record ∧
      (generate ⟨options, log, .scoping .initial⟩ (.node root) found).2 = .ok file ∧
      record.IsRun root (PhpRendering.render options (.node root) {}).functions := by
  have usable : Position.IsUsable {} := ⟨rfl, ImportSource.noConfusion⟩
  have safe := render_isSafe options readable usable
  obtain ⟨text, rendered⟩ := safe.outcome
  obtain ⟨file, -, recorder, entered⟩ := generate_of_safe program safe.events rendered log found
  have sound : IsForest [.node root] := by
    refine IsForest.of_ofJson (fun index tree planted => ?_) (List.forall_mem_singleton.mpr bodies)
    cases index with
    | zero =>
        cases planted
        exact ⟨form, source, converted.symm⟩
    | succ index => cases planted
  have start : Records ⟨options, log, .scoping .initial⟩ .initial [.node root] 0 :=
    ⟨rfl, ScopeRecord.initial_isNested _, fun id origin owns =>
      absurd owns (ScopeRecord.initial_unowned id origin)⟩
  obtain ⟨record, ⟨scoping, nested, -⟩, -⟩ := start.generate sound rfl found
  cases scoping.symm.trans recorder
  exact ⟨_, _, scoping, file, ScopeRecord.initial_isTabled.enterAll entered, nested⟩

/-- After the run of a readable program, from an empty record, every entered function is one
that the tree declares, and every function symbol of a scope is the name of an entered
function around which the scope is innermost. In turn that scope has the name of the
function, so it is found from there. From any scope a name is found exactly when it is bound
there or in a scope around, by a parameter or by a function. -/
theorem function_names_bind_outside (options : Options) (log : List Diagnostic) {form : TreeForm}
    {source : Json} {root : Node} (converted : Value.ofJson form 0 source = .node root)
    (program : root.kind = "Program") (readable : root.Readable)
    (bodies : (Value.node root).HasBodies) (found : String) :
    ∃ record file entered,
      (generate ⟨options, log, .scoping .initial⟩ (.node root) found).1.recorder =
        .scoping record ∧
      (generate ⟨options, log, .scoping .initial⟩ (.node root) found).2 = .ok file ∧
      entered = (PhpRendering.render options (.node root) {}).functions ∧
      (∀ declaration ∈ entered, root.Declares options.constructorName declaration) ∧
      (∀ id, ∀ symbol ∈ (record.scope id).symbols, symbol.isFunction = true →
        ∃ declaration ∈ entered, declaration.ownName? = some symbol.name ∧
          record.Encloses id ((Value.node root).placesAround declaration.origin)) ∧
      (∀ declaration ∈ entered, ∃ id,
        record.Encloses id ((Value.node root).placesAround declaration.origin) ∧
        ∀ own name, declaration.ownName? = some own → own.isSameName name = true →
          (record.lookup? id name).isSome = true) ∧
      ∀ id name, (record.lookup? id name).isSome = true ↔
        ∃ outer ∈ record.chain id, record.Binds root entered outer name := by
  obtain ⟨isRoot, -⟩ := Node.isRoot_of_ofJson converted
  obtain ⟨record, file, recorder, fine, run⟩ :=
    generate_isRun options log converted program readable bodies found
  refine ⟨record, file, _, recorder, fine, rfl, isRoot.declares options {},
    fun id symbol held function => run.named_of_isFunction held function,
    fun declaration held => ?_, fun id name => run.lookup?_isSome_iff⟩
  obtain ⟨inner, counted, owner⟩ := run.tabled.exists_scope held
  obtain ⟨outer, -, around⟩ := run.parent counted owner
  refine ⟨outer, around, fun own name named same => ?_⟩
  refine run.lookup?_isSome_iff.mpr ⟨outer, ?_, .function held named same around⟩
  rw [run.tabled.stacked.chain_eq]
  exact List.mem_cons_self ..

end Session

/-- The program `class C { run(a) {} } (function g() {});`. -/
def undeclaredSource : Json :=
  let node (kind : String) (fields : List (String × Json)) : Json :=
    .object (("type", .text kind) :: fields)
  let identifier (name : String) := node "Identifier" [("name", .text name)]
  let function (id : Json) (params : List Json) := node "FunctionExpression"
    [("id", id), ("params", .array params),
      ("body", node "BlockStatement" [("body", .array [])])]
  let method := node "MethodDefinition"
    [("key", identifier "run"), ("value", function .null [identifier "a"])]
  node "Program" [("body", .array
    [node "ClassDeclaration"
      [("id", identifier "C"), ("body", node "ClassBody" [("body", .array [method])])],
      node "ExpressionStatement" [("expression", function (identifier "g") [])]])]

def undeclaredProgram : Node :=
  match Value.ofJson .data 0 undeclaredSource with
  | .node root => root
  | _ => ⟨⟨0, []⟩, "Program", [], none⟩

/-- Both functions are found from the program, and the parameter of the first one is not. -/
theorem undeclaredProgram_names :
    ∃ record entered, (Session.generate {} (.node undeclaredProgram) "Node").1.recorder =
        .scoping record ∧
      entered.map Node.ownName? = [some (.text "run"), some (.text "g")] ∧
      (∀ declaration ∈ entered, undeclaredProgram.Declares "__construct" declaration) ∧
      (∀ id name, (record.lookup? id name).isSome = true ↔
        ∃ outer ∈ record.chain id, record.Binds undeclaredProgram entered outer name) ∧
      (record.lookup? ScopeRecord.programId (.text "run")).isSome = true ∧
      (record.lookup? ScopeRecord.programId (.text "g")).isSome = true ∧
      (record.lookup? ScopeRecord.programId (.text "a")).isSome = false := by
  have converted : Value.ofJson .data 0 undeclaredSource = .node undeclaredProgram := rfl
  have readable : undeclaredProgram.Readable := Node.readable_of_check 8 (by decide)
  have bodies : (Value.node undeclaredProgram).HasBodies :=
    Value.hasBodies_of_checkBodies (by decide)
  obtain ⟨record, file, entered, recorder, -, same, declares, -, -, lookups⟩ :=
    Session.function_names_bind_outside {} [] converted rfl readable bodies "Node"
  have outermost : (record.scope ScopeRecord.programId).parent = none := by
    cases recorder
    rfl
  refine ⟨record, entered, recorder, ?_, declares, lookups, ?_⟩
  · rw [same]
    rfl
  · simp only [ScopeRecord.lookup?_of_outermost outermost]
    cases recorder
    exact ⟨rfl, rfl, rfl⟩

/-- A program without any declaration of a function has two functions as symbols. -/
theorem undeclaredProgram_symbols :
    undeclaredProgram.Readable ∧
      (Value.node undeclaredProgram).Throughout (fun node => node.kind ≠ "FunctionDeclaration") ∧
      ∃ record, (Session.generate {} (.node undeclaredProgram) "Node").1.recorder =
          .scoping record ∧
        (record.scope ScopeRecord.programId).symbols =
          [{ name := .text "run", isGlobal := true, isFunction := true },
            { name := .text "g", isGlobal := true, isFunction := true }] ∧
        record.lookup? ScopeRecord.programId (.text "run") =
          some { name := .text "run", isGlobal := true, isFunction := true } := by
  have sound (node : Node) (other : (node.kind != "FunctionDeclaration") = true) :
      node.kind ≠ "FunctionDeclaration" := bne_iff_ne.mp other
  refine ⟨Node.readable_of_check 8 (by decide), ?_, _, rfl, rfl, ?_⟩
  · exact Value.throughout_of_check sound _ (by decide)
  · exact ScopeRecord.lookup?_of_outermost rfl

end PhpRendering
