import PhpRendering.Proofs.RespelledRules

/-!
# The two spellings of a tree

A tree and the respelled tree translate alike: they give the same file, the same
diagnostics, and the same records of the functions that are entered, with their names,
their parameters and their nesting. The rules take the defaults of parameters from either
place, and the recorder takes the names of parameters from either spelling.
-/

namespace PhpRendering

/-! ## Names that functions bring -/

namespace Node.Respelled

variable {form : TreeForm} {root : Spot} {node other : Node}

/-- The name of an identifier is no node. -/
theorem name_of_identifier (respelled : Respelled form root node other)
    (identifier : node.kind = "Identifier") : ∃ name, node.field "name" = .scalar name := by
  obtain @⟨spot, below, shape, sound⟩ := respelled
  have scalar := shape.identifier ((isOf_iff_kind shape.node).mpr identifier)
  rw [spot.oldNode_field (by cases form <;> decide)]
  cases held : (Json.object spot.members).member "name" with
  | scalar name => exact ⟨name, rfl⟩
  | array items =>
      rw [held] at scalar
      cases scalar
  | object members =>
      rw [held] at scalar
      cases scalar

/-- What names a bound variable is no node. -/
theorem boundName_scalar (respelled : Respelled form root node other) :
    ∃ name, node.boundName = .scalar name := by
  induction height : node.height using Nat.strongRecOn generalizing node other with
  | ind bound ih =>
      subst height
      rw [node.boundName_eq]
      split
      · next identifier => exact respelled.name_of_identifier identifier
      · split
        · have left := respelled.field_alike (by decide : "left" ∉ _) fun _ => by decide
          have lower := node.height_field_lt "left"
          generalize node.field "left" = held at left lower
          generalize other.field "left" = heldToo at left
          cases left with
          | node inner => exact ih _ lower inner rfl
          | _ => exact ⟨_, rfl⟩
        · exact ⟨_, rfl⟩

/-- Corresponding parameters bind the same name. -/
theorem boundName_eq (respelled : Respelled form root node other) :
    node.boundName = other.boundName := by
  have alike := (resembles_respelled form root).boundName respelled
  obtain ⟨name, scalar⟩ := respelled.boundName_scalar
  rw [scalar] at alike ⊢
  generalize other.boundName = held at alike
  cases alike
  rfl

/-- The name of the function that a declaration names is the same in both spellings. -/
theorem functionName?_eq (respelled : Respelled form root node other)
    (declared : node.kind = "FunctionDeclaration") : node.functionName? = other.functionName? := by
  have ordinary : node.kind ≠ "ImportSpecifier" := by
    rw [declared]
    decide
  have id := respelled.field_alike (by decide : "id" ∉ _) fun same => absurd same ordinary
  have kept : form.keeps "id" = true ∧ form.keeps "name" = true := by cases form <;> decide
  obtain @⟨spot, below, shape, sound⟩ := respelled
  have member := isMember_of_membersWellFormed sound (Spot.not_metadata_of_keeps kept.1)
  have old := spot.oldNode_field kept.1
  unfold Node.functionName?
  rw [old] at id ⊢
  generalize held : form.convert _ _ = value at id ⊢
  generalize (spot.newNode form).field "id" = valueToo at id
  cases id with
  | @node inner innerToo related =>
      obtain ⟨members, same, inside, rfl⟩ := TreeForm.isNode_of_convert member held
      have notImport := TreeForm.kind_ne_of_convert member shape.id held
      have named := related.field_alike (by decide : "name" ∉ _) fun isImport =>
        absurd isImport notImport
      have scalar := shape.named
      rw [same] at scalar
      dsimp only
      rw [TreeForm.nodeAt_field, if_pos kept.2] at named ⊢
      generalize (Json.object members).member "name" = name at named scalar ⊢
      cases name with
      | scalar name =>
          generalize innerToo.field "name" = nameToo at named
          cases named
          rfl
      | array items => cases scalar
      | object members => cases scalar
  | _ => rfl

end Node.Respelled

/-- The names of the parameters of corresponding functions. -/
theorem Value.ParamsLike.boundSymbols_eq {form : TreeForm} {root : Spot} {node other : Node}
    (params : (node.field "params").ParamsLike (Node.Respelled form root) (node.field "defaults")
      (other.field "params") (other.field "defaults")) :
    (node.optionalItems "params").map boundSymbols =
      (other.optionalItems "params").map boundSymbols := by
  have bound (item target : Value) (alike : item.Alike (Node.Respelled form root) target) :
      item.boundSymbol?.map (Option.map Value.bare) =
        target.boundSymbol?.map (Option.map Value.bare) := by
    cases alike with
    | node respelled =>
        have name := respelled.boundName_eq
        simp only [Value.boundSymbol?, Value.asNode, Except.bind, name]
    | _ => rfl
  cases params with
  | same alike alikeToo =>
      have listed := Node.optionalItems_alike alike
      generalize node.optionalItems "params" = items at listed
      generalize other.optionalItems "params" = others at listed
      cases listed with
      | error crash => rfl
      | ok all => exact congrArg Except.ok (map_eq_of_forall₂ all bound)
  | @moved items others given listed nothing listedToo givenToo length each =>
      rw [Node.optionalItems_of_list listed, Node.optionalItems_of_list listedToo]
      have all : List.Forall₂ (fun item target => ∃ default,
          item.ParamLike (Node.Respelled form root) target default) items others :=
        forall₂_of_getElem? length fun index item target place placeToo =>
          ⟨_, each index item target place placeToo⟩
      refine congrArg Except.ok (map_eq_of_forall₂ all ?_)
      rintro item target ⟨default, param⟩
      cases param with
      | stays alike absent => exact bound item target alike
      | @moves pattern left leftToo right rightToo held kind leftSide rightSide heldToo plain givenNode
          targets defaults =>
          have name : pattern.boundName = leftToo.boundName := by
            rw [pattern.boundName_eq, leftSide, if_neg (by rw [kind]; decide), if_pos kind]
            exact targets.boundName_eq
          simp only [held, heldToo, Value.boundSymbol?, Value.asNode, Except.bind, name]

/-! ## Functions -/

def Node.EnteredAlike (form : TreeForm) (root : Spot) (function other : Node) : Prop :=
  Node.Twin (Node.Respelled form root) function other ∧ function.kind = "FunctionDeclaration"

section Functions

variable {form : TreeForm} {root : Spot} {node other : Node}

/-- A copy stands where the node stands, in both trees. -/
theorem Node.Twin.spot (twin : Node.Twin (Node.Respelled form root) node other) :
    ∃ spot, Spot.Below form root spot ∧ node.origin = spot.old ∧ other.origin = spot.new := by
  induction twin with
  | base respelled =>
      obtain @⟨spot, below, shape, sound⟩ := respelled
      exact ⟨spot, below, rfl, rfl⟩
  | call _ ih => exact ih
  | declaration _ name ih => exact ih
  | identifier _ name ih => exact ih
  | assignment _ _ _ ih => exact ih

theorem Node.EnteredAlike.functionName?_eq (entered : Node.EnteredAlike form root node other) :
    node.functionName? = other.functionName? := by
  obtain ⟨twin, declared⟩ := entered
  cases twin with
  | base respelled => exact respelled.functionName?_eq declared
  | call _ => exact absurd declared (by decide : "CallExpression" ≠ "FunctionDeclaration")
  | declaration _ name =>
      unfold Node.functionName?
      rw [Rule.asDeclaration_id, Rule.asDeclaration_id]
      rfl
  | identifier _ _ => exact absurd declared (by decide : "Identifier" ≠ "FunctionDeclaration")
  | assignment _ _ _ =>
      exact absurd declared (by decide : "AssignmentExpression" ≠ "FunctionDeclaration")

/-- Whether the body of one function holds that of another is the same in both trees. -/
theorem Node.EnteredAlike.holdsBodyOf_eq (isNode : (Json.object root.members).isNode = true)
    {function functionToo inner innerToo : Node}
    (outer : Node.EnteredAlike form root function functionToo)
    (entered : Node.EnteredAlike form root inner innerToo) {scope scopeToo : Scope}
    (owner : scope.function = some function) (ownerToo : scopeToo.function = some functionToo) :
    scope.holdsBodyOf inner = scopeToo.holdsBodyOf innerToo := by
  have alike {node other : Node} (entered : Node.EnteredAlike form root node other) :
      (node.field "body").Alike (Node.Respelled form root) (other.field "body") :=
    entered.1.field (by decide) fun respelled => respelled.field_alike (by decide) fun _ => by decide
  have body := alike outer
  have target := alike entered
  obtain ⟨spot, below, old, new⟩ := outer.1.spot
  obtain ⟨spotToo, belowToo, oldToo, newToo⟩ := entered.1.spot
  have down {first second : Origin} (step : Step) : first.down step = second.down step ↔ first = second := by
    constructor
    · intro same
      cases first
      cases second
      cases same
      rfl
    · rintro rfl
      rfl
  have places : (function.origin.down (.member "body") == inner.origin.down (.member "body")) =
      (functionToo.origin.down (.member "body") == innerToo.origin.down (.member "body")) := by
    rw [Bool.eq_iff_iff, beq_iff_eq, beq_iff_eq, down, down, old, oldToo, new, newToo]
    exact below.origin_eq_iff belowToo
  unfold Scope.holdsBodyOf Scope.holds Node.occurrence
  rw [owner, ownerToo]
  simp only [body.isNull_eq, body.isSame_eq (resembles_respelled form root).places target places]
  split
  · rfl
  · split
    · rfl
    · generalize function.field "body" = held at body
      generalize functionToo.field "body" = heldToo at body
      generalize inner.field "body" = sought at target
      generalize innerToo.field "body" = soughtToo at target
      cases body with
      | node related =>
          cases target with
          | node relatedToo =>
              obtain @⟨upper, belowUpper, -, -⟩ := related
              obtain @⟨lower, belowLower, -, -⟩ := relatedToo
              exact congrArg Except.ok (belowUpper.contains_eq isNode belowLower)
          | _ => rfl
      | _ => cases target <;> rfl

/-- A recorder does not tell the two spellings of a function apart. -/
theorem Node.EnteredAlike.entersLike (isNode : (Json.object root.members).isNode = true)
    (entered : Node.EnteredAlike form root node other) :
    node.EntersLike (Node.EnteredAlike form root) other where
  related := entered
  name := by rw [entered.functionName?_eq]
  params := (entered.1.paramsLike fun respelled => respelled.paramsLike).boundSymbols_eq
  holds _ _ like := like.holdsBodyOf_eq fun _ _ outer owner ownerToo =>
    outer.holdsBodyOf_eq isNode entered owner ownerToo

end Functions

/-! ## What recorders tell -/

/-- A scope with bare names, whatever node owns it. -/
def Scope.outline (scope : Scope) : Scope :=
  { scope with
    name := scope.name.bare
    function := none
    symbols := scope.symbols.map Symbol.bare }

/-- What a recorder tells about the functions that were entered. -/
inductive Account where
  | nothing
  | notices (notices : List Notice)
  | scopes (record : ScopeRecord)

def Recorder.account : Recorder → Account
  | .ignoring => .nothing
  | .listing entered => .notices (entered.map Node.notice)
  | .scoping record => .scopes { record with scopes := record.scopes.map Scope.outline }

/-- The functions that a recorder knows. -/
def Recorder.known : Recorder → List Node
  | .ignoring => []
  | .listing entered => entered
  | .scoping record => record.scopes.filterMap Scope.function

/-- Recorders that are alike tell the same. -/
theorem Recorder.Like.account_eq {E : Node → Node → Prop} {recorder other : Recorder}
    (like : recorder.Like E other)
    (notice : ∀ function other, E function other → function.notice = other.notice) :
    recorder.account = other.account := by
  cases like with
  | ignoring => rfl
  | listing all => exact congrArg Account.notices (map_eq_of_forall₂ all notice)
  | @scoping record recordToo like =>
      have scopes : record.scopes.map Scope.outline = recordToo.scopes.map Scope.outline := by
        refine map_eq_of_forall₂ like.scopes fun scope other same => ?_
        simp only [Scope.outline, same.parent, same.name, same.symbols]
      simp only [Recorder.account, scopes, like.current, like.outer, like.functions]

/-- A recorder that knows no function is like itself, whatever functions correspond. -/
theorem Recorder.like_of_known {recorder : Recorder} (fresh : recorder.known = [])
    (E : Node → Node → Prop) : recorder.Like E recorder := by
  cases recorder with
  | ignoring => exact .ignoring
  | listing entered =>
      cases fresh
      exact .listing .nil
  | scoping record =>
      refine .scoping ⟨List.forall₂_same.mpr fun scope held => ⟨rfl, rfl, ?_, rfl⟩, rfl, rfl, rfl⟩
      have unowned := List.filterMap_eq_nil_iff.mp fresh scope held
      rw [unowned]
      exact .none

/-! ## Trees -/

/-- The two spellings of a program are aliases. In any session whose recorder knows no
function yet, a well-formed program and the respelled program give the same file or fail
in the same way, with the same log, and the recorder tells the same about them. -/
theorem Session.spellings_alike (session : Session) (fresh : session.recorder.known = [])
    (form : TreeForm) (tree other : Nat) {source : Json} (program : source.isOf "Program" = true)
    (sound : source.isWellFormed = true) (found : String) :
    (session.generate (.ofJson form tree source) found).2 =
        (session.generate (.ofJson form other source.respelled) found).2 ∧
      (session.generate (.ofJson form tree source) found).1.log =
        (session.generate (.ofJson form other source.respelled) found).1.log ∧
      (session.generate (.ofJson form tree source) found).1.recorder.account =
        (session.generate (.ofJson form other source.respelled) found).1.recorder.account := by
  have isNode := Json.isNode_of_isOf program
  obtain ⟨members, rfl⟩ := Json.isObject_of_isNode isNode
  obtain ⟨shape, soundBelow⟩ := Json.isWellFormed_node sound isNode
  have self : Node.Respelled form ⟨⟨tree, []⟩, ⟨other, []⟩, members⟩ _ _ :=
    .intro .refl shape soundBelow
  unfold Value.ofJson
  rw [form.convert_object _ isNode, Spot.convert_respelled form _ isNode]
  have kind : (form.nodeAt ⟨tree, []⟩ members).kind =
      (form.nodeAt ⟨other, []⟩ (respelledMembers (respelledBelow members))).kind := by
    rcases self.kind_eq with same | ⟨exported, -⟩
    · exact same
    · have isProgram : (Spot.oldNode form ⟨⟨tree, []⟩, ⟨other, []⟩, members⟩).kind = "Program" :=
        Node.Respelled.kind_of_isOf program
      rw [isProgram] at exported
      exact absurd exported (by decide)
  have alike := (self.render_like session.options {}).mono fun _ _ entered =>
    Node.EnteredAlike.entersLike isNode entered
  have before : session.Like (Node.EnteredAlike form ⟨⟨tree, []⟩, ⟨other, []⟩, members⟩) session :=
    ⟨rfl, rfl, Recorder.like_of_known fresh _⟩
  obtain ⟨after, outcome⟩ := before.generate kind found alike
  refine ⟨outcome, after.log, after.recorder.account_eq fun function functionToo entered => ?_⟩
  have enters := Node.EnteredAlike.entersLike isNode entered
  unfold Node.notice
  rw [enters.name, enters.params]

/-- A program with an import under another name and one under its own, an exported function
with two defaults of parameters, one inside the other, and an exported expression. -/
def modernSource : Json :=
  let node (kind : String) (members : List (String × Json)) : Json :=
    .object (("type", .text kind) :: members)
  let identifier (name : String) : Json := node "Identifier" [("name", .text name)]
  let pattern (left right : Json) : Json := node "AssignmentPattern" [("left", left), ("right", right)]
  let block (statements : List Json) : Json := node "BlockStatement" [("body", .array statements)]
  let specifier (imported bound : String) : Json :=
    node "ImportSpecifier" [("imported", identifier imported), ("local", identifier bound)]
  let inner := node "FunctionExpression" [("id", identifier "g"),
    ("params", .array [pattern (identifier "y") (identifier "z")]), ("body", block [])]
  node "Program" [("body", .array
    [node "ImportDeclaration"
        [("specifiers", .array [specifier "a" "b", specifier "c" "c"]),
          ("source", node "Literal" [("value", .text "m")])],
      node "ExportNamedDeclaration"
        [("declaration", node "FunctionDeclaration" [("id", identifier "f"),
          ("params", .array [identifier "x", pattern (identifier "h") inner]), ("body", block [])])],
      node "ExportDefaultDeclaration" [("declaration", identifier "f")]])]

theorem modernSource_alike :
    modernSource.isOf "Program" = true ∧ modernSource.isWellFormed = true ∧
      (Session.generate {} (.ofJson .data 0 modernSource) "Node").2 =
        (Session.generate {} (.ofJson .data 1 modernSource.respelled) "Node").2 ∧
      (Session.generate {} (.ofJson .data 0 modernSource) "Node").1.recorder.account =
        (Session.generate {} (.ofJson .data 1 modernSource.respelled) "Node").1.recorder.account ∧
      (Session.generate {} (.ofJson .data 1 modernSource.respelled) "Node").2 =
        .ok ("<?php\nuse \\M\\a as b;\nuse \\M\\c;\n" ++
          "function f($x, $h = function g($y = $z) \x7b\n\x7d\n) \x7b\n\x7d\n$f;\n") := by
  have program : modernSource.isOf "Program" = true := by decide
  have sound : modernSource.isWellFormed = true := by decide
  obtain ⟨file, log, account⟩ := Session.spellings_alike {} rfl .data 0 1 program sound "Node"
  exact ⟨program, sound, file, account, rfl⟩

end PhpRendering
