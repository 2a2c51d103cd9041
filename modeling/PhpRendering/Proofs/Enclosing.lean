import PhpRendering.Proofs.Place

/-!
# Functions around a place

The functions around a place are those whose bodies the steps from the root to the
place go through. They are read off the tree alone, without rendering it.
-/

namespace PhpRendering

namespace Value

def down : Value → Step → Value
  | .node found, .member name => found.field name
  | .list items, .item index => items.getD index .null
  | _, _ => .null

def descendant (root : Value) : List Step → Value
  | [] => root
  | step :: rest => (root.descendant rest).down step

def isOfKind (kind : String) : Value → Bool
  | .node found => found.kind == kind
  | _ => false

def isMethodPlace (root : Value) : List Step → Bool
  | .member name :: rest => name == "value" && (root.descendant rest).isOfKind "MethodDefinition"
  | _ => false

/-- Whether some steps lead to a function: a declaration, an expression, or whatever node
a method has as its function. -/
def isFunctionAt (root : Value) (steps : List Step) : Bool :=
  match root.descendant steps with
  | .node found =>
      found.kind == "FunctionDeclaration" || found.kind == "FunctionExpression" ||
        root.isMethodPlace steps
  | _ => false

/-- The places of the functions whose bodies some steps go through, innermost first. -/
def functionsAround (root : Value) : List Step → List (List Step)
  | [] => []
  | step :: rest =>
      if step = .member "body" ∧ root.isFunctionAt rest = true then
        rest :: root.functionsAround rest
      else root.functionsAround rest

/-- Whether every function of a tree has a node as its body. -/
def HasBodies (root : Value) : Prop :=
  ∀ steps function, root.isFunctionAt steps = true → root.descendant steps = .node function →
    ∃ body, function.field "body" = .node body

theorem functionsAround_cons (root : Value) (step : Step) (rest : List Step) :
    root.functionsAround (step :: rest) =
      if step = .member "body" ∧ root.isFunctionAt rest = true then
        rest :: root.functionsAround rest
      else root.functionsAround rest := rfl

/-- A step that enters no body changes nothing. -/
theorem functionsAround_of_not {root : Value} {step : Step} {rest : List Step}
    (other : ¬ (step = .member "body" ∧ root.isFunctionAt rest = true)) :
    root.functionsAround (step :: rest) = root.functionsAround rest :=
  if_neg other

@[simp]
theorem functionsAround_item (root : Value) (index : Nat) (rest : List Step) :
    root.functionsAround (.item index :: rest) = root.functionsAround rest :=
  functionsAround_of_not (by simp)

/-- A field that is no body of a function changes nothing. -/
theorem functionsAround_member {root : Value} {name : String} {rest : List Step}
    (outside : name = "body" → root.isFunctionAt rest = false) :
    root.functionsAround (.member name :: rest) = root.functionsAround rest := by
  refine functionsAround_of_not ?_
  rintro ⟨⟨⟩, function⟩
  rw [outside rfl] at function
  cases function

theorem functionsAround_body {root : Value} {rest : List Step}
    (function : root.isFunctionAt rest = true) :
    root.functionsAround (.member "body" :: rest) = rest :: root.functionsAround rest :=
  if_pos ⟨rfl, function⟩

/-- The functions around a place are those at the start of whose body the steps to the
place pass. -/
theorem mem_functionsAround_iff {root : Value} {place steps : List Step} :
    place ∈ root.functionsAround steps ↔
      root.isFunctionAt place = true ∧ (.member "body" :: place) <:+ steps := by
  induction steps with
  | nil => simp [functionsAround]
  | cons step rest ih =>
      rw [functionsAround_cons, List.suffix_cons_iff]
      split
      · next entered =>
          rw [List.mem_cons, ih]
          constructor
          · rintro (rfl | ⟨function, deeper⟩)
            · exact ⟨entered.2, .inl (by rw [entered.1])⟩
            · exact ⟨function, .inr deeper⟩
          · rintro ⟨function, same | deeper⟩
            · exact .inl (List.cons.inj same).2
            · exact .inr ⟨function, deeper⟩
      · next passed =>
          rw [ih]
          constructor
          · rintro ⟨function, deeper⟩
            exact ⟨function, .inr deeper⟩
          · rintro ⟨function, same | deeper⟩
            · obtain ⟨first, rfl⟩ := List.cons.inj same
              exact absurd ⟨first.symm, function⟩ passed
            · exact ⟨function, deeper⟩

/-- Around the innermost function are the other ones. -/
theorem functionsAround_of_eq_cons {root : Value} {steps inner : List Step}
    {outer : List (List Step)} (around : root.functionsAround steps = inner :: outer) :
    root.functionsAround inner = outer := by
  induction steps with
  | nil => cases around
  | cons step rest ih =>
      rw [functionsAround_cons] at around
      split at around
      · cases around
        rfl
      · exact ih around

end Value

/-! ## A check of bodies -/

mutual

/-- Whether all functions in a value have nodes as bodies. The function of a method is
one whatever its kind. -/
def Value.checkBodies (isMethod : Bool) : Value → Bool
  | .node node => node.checkBodies isMethod
  | .list items => itemsCheckBodies items
  | _ => true

def Node.checkBodies (isMethod : Bool) : Node → Bool
  | ⟨_, kind, fields, _⟩ =>
      (!(kind == "FunctionDeclaration" || kind == "FunctionExpression" || isMethod) ||
          ((fields.lookup "body").getD .null).node?.isSome) &&
        membersCheckBodies (kind == "MethodDefinition") fields

def itemsCheckBodies : List Value → Bool
  | [] => true
  | item :: rest => item.checkBodies false && itemsCheckBodies rest

def membersCheckBodies (isMethod : Bool) : List (String × Value) → Bool
  | [] => true
  | (name, value) :: rest =>
      value.checkBodies (name == "value" && isMethod) && membersCheckBodies isMethod rest

end

theorem Node.checkBodies_iff {isMethod : Bool} {node : Node} :
    node.checkBodies isMethod = true ↔
      ((node.kind == "FunctionDeclaration" || node.kind == "FunctionExpression" || isMethod) = true →
        (node.field "body").node?.isSome = true) ∧
      membersCheckBodies (node.kind == "MethodDefinition") node.fields = true := by
  obtain ⟨origin, kind, fields, location⟩ := node
  have implies (first second : Bool) :
      (!first || second) = true ↔ (first = true → second = true) := by
    cases first <;> simp
  rw [Node.checkBodies, Bool.and_eq_true_iff]
  exact and_congr (implies _ _) Iff.rfl

theorem itemsCheckBodies_getD {items : List Value} (checked : itemsCheckBodies items = true)
    (index : Nat) : (items.getD index .null).checkBodies false = true := by
  induction items generalizing index with
  | nil => rfl
  | cons item rest ih =>
      obtain ⟨first, later⟩ := Bool.and_eq_true_iff.mp checked
      cases index with
      | zero => exact first
      | succ index => exact ih later index

theorem membersCheckBodies_lookup {fields : List (String × Value)} {isMethod : Bool}
    (checked : membersCheckBodies isMethod fields = true) (name : String) :
    ((fields.lookup name).getD .null).checkBodies (name == "value" && isMethod) = true := by
  induction fields with
  | nil => rfl
  | cons entry rest ih =>
      obtain ⟨known, value⟩ := entry
      obtain ⟨first, later⟩ := Bool.and_eq_true_iff.mp checked
      rw [List.lookup_cons]
      cases same : name == known with
      | true =>
          cases beq_iff_eq.mp same
          exact first
      | false => exact ih later

namespace Value

/-- Every value of a checked tree is checked, as a function of a method where it is one. -/
theorem checkBodies_descendant {root : Value} (checked : root.checkBodies false = true)
    (steps : List Step) :
    (root.descendant steps).checkBodies (root.isMethodPlace steps) = true := by
  induction steps with
  | nil => exact checked
  | cons step rest ih =>
      cases step with
      | member name =>
          change ((root.descendant rest).down (.member name)).checkBodies
            (name == "value" && (root.descendant rest).isOfKind "MethodDefinition") = true
          cases found : root.descendant rest with
          | node node =>
              rw [found] at ih
              exact membersCheckBodies_lookup (Node.checkBodies_iff.mp ih).2 name
          | _ => rfl
      | item index =>
          change ((root.descendant rest).down (.item index)).checkBodies false = true
          cases found : root.descendant rest with
          | list items =>
              rw [found] at ih
              exact itemsCheckBodies_getD ih index
          | _ => rfl

/-- In a checked tree every function has a node as its body. -/
theorem hasBodies_of_checkBodies {root : Value} (checked : root.checkBodies false = true) :
    root.HasBodies := by
  intro steps function placed found
  have checkedThere := checkBodies_descendant checked steps
  unfold isFunctionAt at placed
  rw [found] at checkedThere placed
  have body := (Node.checkBodies_iff.mp checkedThere).1 placed
  cases held : function.field "body" with
  | node body => exact ⟨body, rfl⟩
  | _ =>
      rw [held] at body
      cases body

end Value

def Value.placesAround (root : Value) (place : Origin) : List Origin :=
  (root.functionsAround place.steps).map fun steps => ⟨place.tree, steps⟩

@[simp]
theorem Value.placesAround_item (root : Value) (place : Origin) (index : Nat) :
    root.placesAround (place.down (.item index)) = root.placesAround place :=
  congrArg (List.map _) (functionsAround_item root index place.steps)

theorem Value.placesAround_member {root : Value} {place : Origin} {name : String}
    (outside : name = "body" → root.isFunctionAt place.steps = false) :
    root.placesAround (place.down (.member name)) = root.placesAround place :=
  congrArg (List.map _) (functionsAround_member outside)

/-- Around the body of a function is the function, and then whatever is around it. -/
theorem Value.placesAround_body {root : Value} {place : Origin}
    (function : root.isFunctionAt place.steps = true) :
    root.placesAround (place.down (.member "body")) = place :: root.placesAround place :=
  congrArg (List.map _) (functionsAround_body function)

/-! ## Nodes below a root -/

structure Node.IsRoot (root : Node) : Prop where
  located : (Value.node root).IsLocated root.origin
  top : root.origin.steps = []

/-- A converted tree is one with its root at the top. -/
theorem Node.isRoot_of_ofJson {form : TreeForm} {tree : Nat} {source : Json} {root : Node}
    (converted : Value.ofJson form tree source = .node root) :
    root.IsRoot ∧ root.origin = ⟨tree, []⟩ := by
  have located := form.convert_isLocated ⟨tree, []⟩ source
  unfold Value.ofJson at converted
  rw [converted] at located
  have origin := located.origin_eq
  refine ⟨⟨?_, ?_⟩, origin⟩
  · rwa [origin]
  · rw [origin]

namespace Node.Leads

variable {root node : Node}

/-- A field of a node that a root leads to stands one step below the node. -/
theorem origin_field (isRoot : root.IsRoot) (leads : root.Leads node) {name : String} {child : Node}
    (held : node.field name = .node child) : child.origin = node.origin.down (.member name) := by
  have located := (leads.isLocated isRoot.located).field name
  rw [held] at located
  exact located.origin_eq

theorem origin_item (isRoot : root.IsRoot) (leads : root.Leads node) {name : String}
    {items : List Value} {index : Nat} {child : Node} (held : node.field name = .list items)
    (place : items[index]? = some (.node child)) :
    child.origin = (node.origin.down (.member name)).down (.item index) := by
  have located := (leads.isLocated isRoot.located).field name
  rw [held] at located
  exact (located.item place).origin_eq

/-- A node that a root leads to is found at its place in the tree. -/
theorem descendant (isRoot : root.IsRoot) (leads : root.Leads node) :
    (Value.node root).descendant node.origin.steps = .node node ∧
      node.origin.tree = root.origin.tree := by
  induction leads with
  | refl =>
      rw [isRoot.top]
      exact ⟨rfl, rfl⟩
  | @field parent child name leads held ih =>
      rw [leads.origin_field isRoot held]
      refine ⟨?_, ih.2⟩
      change ((Value.node root).descendant parent.origin.steps).down (.member name) = .node child
      rw [ih.1]
      exact held
  | @item parent child name items index leads held place ih =>
      rw [leads.origin_item isRoot held place]
      refine ⟨?_, ih.2⟩
      change (((Value.node root).descendant parent.origin.steps).down (.member name)).down
        (.item index) = .node child
      rw [ih.1]
      change (parent.field name).down (.item index) = .node child
      rw [held]
      exact (List.getD_eq_getElem?_getD ..).trans (congrArg (·.getD Value.null) place)

/-- The function at a place around a node is a node that the root leads to, and its body
leads to the node. -/
theorem of_mem_functionsAround (isRoot : root.IsRoot) (bodies : (Value.node root).HasBodies)
    (leads : root.Leads node) {place : List Step}
    (around : place ∈ (Value.node root).functionsAround node.origin.steps) :
    ∃ function body, root.Leads function ∧ function.origin = ⟨root.origin.tree, place⟩ ∧
      function.field "body" = .node body ∧ body.Leads node := by
  induction leads with
  | refl =>
      rw [isRoot.top] at around
      cases around
  | @field parent child name leads held ih =>
      have found := leads.descendant isRoot
      rw [leads.origin_field isRoot held] at around
      change place ∈ (Value.node root).functionsAround (.member name :: parent.origin.steps) at around
      rw [Value.functionsAround_cons] at around
      split at around
      · next entered =>
          rcases List.mem_cons.mp around with rfl | outer
          · obtain ⟨same, function⟩ := entered
            cases same
            refine ⟨parent, child, leads, ?_, held, .refl⟩
            rw [← found.2]
          · obtain ⟨function, body, toFunction, origin, inside, toNode⟩ := ih outer
            exact ⟨function, body, toFunction, origin, inside, .field toNode held⟩
      · obtain ⟨function, body, toFunction, origin, inside, toNode⟩ := ih around
        exact ⟨function, body, toFunction, origin, inside, .field toNode held⟩
  | @item parent child name items index leads held listed ih =>
      have found := leads.descendant isRoot
      rw [leads.origin_item isRoot held listed] at around
      change place ∈ (Value.node root).functionsAround
        (.item index :: .member name :: parent.origin.steps) at around
      rw [Value.functionsAround_item, Value.functionsAround_member] at around
      · obtain ⟨function, body, toFunction, origin, inside, toNode⟩ := ih around
        exact ⟨function, body, toFunction, origin, inside, .item toNode held listed⟩
      · rintro rfl
        rw [Bool.eq_false_iff]
        intro function
        obtain ⟨body, inside⟩ := bodies _ _ function found.1
        rw [held] at inside
        cases inside

end Node.Leads

end PhpRendering
