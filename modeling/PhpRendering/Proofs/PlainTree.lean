import PhpRendering.Proofs.Depth
import PhpRendering.Proofs.PlainText
import PhpRendering.Proofs.Readable

/-!
# Plain trees

A tree is plain when the texts that its nodes bring with them belong to a vocabulary, such
as the texts that avoid some special characters: names, spellings of literals, text values
and operators, at any depth. What is rendered below a node of a plain tree is plain again.
-/

namespace PhpRendering

def Value.IsLeaf : Value → Prop
  | .scalar _ => True
  | .foreign _ => True
  | .list items => items = []
  | .record members => members = []
  | .node _ => False

def Construct.written : Construct → List String
  | .literal => ["raw", "value"]
  | .punctuator => ["value"]
  | .binary => ["operator"]
  | _ => []

structure Node.IsPlain (admits : String → Prop) (node : Node) : Prop where
  texts : ∀ field ∈ ["name", "raw", "value", "operator"], ∀ text,
    node.field field = .text text → admits text
  leaves : ∀ construct, Construct.ofKind? node.kind = some construct →
    ∀ field ∈ construct.written, (node.field field).IsLeaf

inductive Node.IsPlainTree (admits : String → Prop) : Node → Prop where
  | intro {node : Node} (plain : node.IsPlain admits)
      (children : ∀ field, ∀ child ∈ Node.nodesOf (node.field field), child.IsPlainTree admits) :
      node.IsPlainTree admits

def Position.HasPlainSource (admits : String → Prop) (position : Position) : Prop :=
  ∀ moduleName, position.importSource = .named moduleName → admits moduleName

variable {admits : String → Prop}

/-! ## Greater vocabularies -/

section

variable {fewer : String → Prop} (more : ∀ {text}, fewer text → admits text)
include more

theorem Node.IsPlain.mono {node : Node} (plain : node.IsPlain fewer) : node.IsPlain admits :=
  ⟨fun field listed text held => more (plain.texts field listed text held), plain.leaves⟩

theorem Node.IsPlainTree.mono {node : Node} (tree : node.IsPlainTree fewer) :
    node.IsPlainTree admits := by
  induction tree with
  | intro plain children ih => exact .intro (plain.mono more) ih

theorem Position.HasPlainSource.mono {position : Position}
    (plain : position.HasPlainSource fewer) : position.HasPlainSource admits :=
  fun moduleName named => more (plain moduleName named)

end

/-! ## Texts of plain nodes -/

namespace Node.IsPlainTree

variable {node : Node}

theorem plain (tree : node.IsPlainTree admits) : node.IsPlain admits := by
  cases tree with
  | intro plain children => exact plain

theorem inner (tree : node.IsPlainTree admits) (field : String) {child : Node}
    (inside : child ∈ Node.nodesOf (node.field field)) : child.IsPlainTree admits := by
  cases tree with
  | intro plain children => exact children field child inside

theorem child (tree : node.IsPlainTree admits) {field : String} {child : Node}
    (held : node.field field = .node child) : child.IsPlainTree admits := by
  refine tree.inner field ?_
  rw [held]
  exact List.mem_singleton_self _

theorem item (tree : node.IsPlainTree admits) {field : String} {items : List Value} {child : Node}
    (listed : (node.field field).items = .ok items) (inside : .node child ∈ items) :
    child.IsPlainTree admits := by
  refine tree.inner field ?_
  rw [Value.eq_list_of_items listed inside]
  exact List.mem_filterMap.mpr ⟨_, inside, rfl⟩

end Node.IsPlainTree

theorem Node.IsPlain.name {node : Node} (vocabulary : Text.Vocabulary admits)
    (plain : node.IsPlain admits) : admits node.name := by
  have read (field : String) (listed : field ∈ ["name", "raw", "value", "operator"]) :
      admits ((node.field field).text?.getD "") := by
    cases held : (node.field field).text? with
    | none => exact vocabulary.empty
    | some text => exact plain.texts field listed text (Value.eq_text held)
  unfold Node.name
  split
  · exact read "value" (by decide)
  · exact read "name" (by decide)

theorem Node.IsPlainTree.name {node : Node} (vocabulary : Text.Vocabulary admits)
    (tree : node.IsPlainTree admits) (field : String) : admits (node.field field).name := by
  cases held : node.field field with
  | node bearer => exact (tree.child held).plain.name vocabulary
  | scalar value => exact vocabulary.empty
  | list items => exact vocabulary.empty
  | record members => exact vocabulary.empty
  | foreign origin => exact vocabulary.empty

/-! ## Shown values -/

/-- A text that is admitted, or what stands for a list or record that is empty. -/
def Text.IsPlain (admits : String → Prop) (text : String) : Prop :=
  admits text ∨ text = "[]" ∨ text = "\x7b\x7d"

section

variable (vocabulary : Text.Vocabulary admits)
include vocabulary

theorem Scalar.shown_admitted {scalar : Scalar}
    (texts : ∀ text, scalar = .text text → admits text) : admits scalar.shown := by
  cases scalar with
  | null => exact vocabulary.basic (by decide)
  | bool flag => cases flag <;> exact vocabulary.basic (by decide)
  | int number => exact vocabulary.basic (Text.avoids_int number)
  | float number => exact vocabulary.basic (Text.avoids_binary64 number)
  | text text => exact texts text rfl

theorem Scalar.literal_admitted {scalar : Scalar}
    (texts : ∀ text, scalar = .text text → admits text) : admits scalar.literal := by
  cases scalar with
  | null => exact vocabulary.basic (by decide)
  | bool flag => cases flag <;> exact vocabulary.basic (by decide)
  | int number => exact vocabulary.basic (Text.avoids_int number)
  | float number =>
      simp only [Scalar.literal]
      split
      · exact vocabulary.basic (Text.avoids_int _)
      · exact vocabulary.basic (Text.avoids_binary64 number)
  | text text => exact vocabulary.singleQuoted (texts text rfl)

/-- A leaf whose text is admitted is shown in a plain text. -/
theorem Value.IsLeaf.shown {value : Value} (leaf : value.IsLeaf)
    (texts : ∀ text, value = .text text → admits text) : Text.IsPlain admits value.shown := by
  cases value with
  | scalar scalar =>
      refine .inl (Scalar.shown_admitted vocabulary ?_)
      rintro text rfl
      exact texts text rfl
  | foreign origin =>
      have object : Text.Avoids Text.delimiters "<object>" := by decide
      exact .inl (vocabulary.basic object)
  | list items =>
      cases leaf
      exact .inr (.inl rfl)
  | record members =>
      cases leaf
      exact .inr (.inr rfl)
  | node node => cases leaf

theorem Value.IsLeaf.literalText {value : Value} (leaf : value.IsLeaf)
    (texts : ∀ text, value = .text text → admits text) :
    Text.IsPlain admits (Rule.literalText value) := by
  cases value with
  | scalar scalar =>
      refine .inl (Scalar.literal_admitted vocabulary ?_)
      rintro text rfl
      exact texts text rfl
  | foreign origin => exact leaf.shown vocabulary texts
  | list items => exact leaf.shown vocabulary texts
  | record members => exact leaf.shown vocabulary texts
  | node node => cases leaf

namespace Node.IsPlain

variable {node : Node} {construct : Construct}

/-- A field that is written as it stands. -/
theorem shown (plain : node.IsPlain admits)
    (known : Construct.ofKind? node.kind = some construct) {field : String}
    (written : field ∈ construct.written)
    (listed : field ∈ ["name", "raw", "value", "operator"]) :
    Text.IsPlain admits (node.field field).shown :=
  (plain.leaves construct known field written).shown vocabulary (plain.texts field listed)

theorem literalText (plain : node.IsPlain admits)
    (known : Construct.ofKind? node.kind = some .literal) :
    Text.IsPlain admits (Rule.literalText (node.field "value")) :=
  have leaf := plain.leaves .literal known "value" (by decide)
  leaf.literalText vocabulary (plain.texts "value" (by decide))

/-- The key of an entry is plain, whether it is an identifier or a literal. -/
theorem keyText (plain : node.IsPlain admits) {name : String}
    (spelled : Rule.keyText node = .ok name) : Text.IsPlain admits name := by
  unfold Rule.keyText at spelled
  split at spelled
  · next kind =>
      have known : Construct.ofKind? node.kind = some .literal := by
        rw [kind]
        rfl
      split at spelled
      · next text held =>
          cases spelled
          exact .inl (plain.texts "value" (by decide) _ (Value.eq_text held))
      · split at spelled
        · unfold Rule.keySpelling at spelled
          split at spelled
          · next text held =>
              cases spelled
              exact .inl (plain.texts "raw" (by decide) _ held)
          · cases spelled
          · cases spelled
        · cases spelled
          exact plain.literalText vocabulary known
  · cases spelled
    exact .inl (plain.name vocabulary)

end Node.IsPlain

end

/-! ## Copies -/

theorem Node.IsPlainTree.asCall {node : Node} (tree : node.IsPlainTree admits) :
    (Rule.asCall node).IsPlainTree admits := by
  refine .intro ⟨tree.plain.texts, ?_⟩ fun field child inside => tree.inner _ inside
  rintro construct known field listed
  cases known
  cases listed

/-- A tree is plain when the fields that it has are. -/
theorem Node.IsPlainTree.of_fields {node : Node}
    (texts : ∀ entry ∈ node.fields, ∀ text, entry.2 = .text text → admits text)
    (leaves : ∀ construct, Construct.ofKind? node.kind = some construct →
      ∀ field ∈ construct.written, (node.field field).IsLeaf)
    (children : ∀ entry ∈ node.fields, ∀ child ∈ Node.nodesOf entry.2, child.IsPlainTree admits) :
    node.IsPlainTree admits := by
  refine .intro ⟨fun field _ text held => ?_, leaves⟩ fun field child inside => ?_
  · rcases node.field_eq_null_or_mem field with nothing | listed
    · cases nothing.symm.trans held
    · exact texts _ listed text held
  · rcases node.field_eq_null_or_mem field with nothing | listed
    · rw [nothing] at inside
      cases inside
    · exact children _ listed child inside

def Value.isLeaf : Value → Bool
  | .scalar _ => true
  | .foreign _ => true
  | .list items => items.isEmpty
  | .record members => members.isEmpty
  | .node _ => false

theorem Value.isLeaf_iff {value : Value} : value.isLeaf = true ↔ value.IsLeaf := by
  cases value with
  | scalar scalar => exact ⟨fun _ => trivial, fun _ => rfl⟩
  | foreign origin => exact ⟨fun _ => trivial, fun _ => rfl⟩
  | list items => exact List.isEmpty_iff
  | record members => exact List.isEmpty_iff
  | node node => exact ⟨fun checked => (Bool.false_ne_true checked).elim, fun leaf => leaf.elim⟩

def Node.checkPlain (admits : String → Prop) [DecidablePred admits] : Nat → Node → Bool
  | 0, _ => false
  | depth + 1, node =>
      (node.fields.all fun entry =>
        ((entry.2.text?.all fun text => decide (admits text)) &&
          (Node.nodesOf entry.2).all fun child => checkPlain admits depth child)) &&
      ((Construct.ofKind? node.kind).all fun construct =>
        construct.written.all fun field => (node.field field).isLeaf)

theorem Node.isPlainTree_of_check [DecidablePred admits] (depth : Nat) {node : Node}
    (checked : node.checkPlain admits depth = true) : node.IsPlainTree admits := by
  induction depth generalizing node with
  | zero => cases checked
  | succ depth ih =>
      obtain ⟨fields, leaves⟩ := Bool.and_eq_true_iff.mp checked
      have each := List.all_eq_true.mp fields
      refine .of_fields (fun entry listed text held => ?_) (fun construct known field listed => ?_)
        fun entry listed child inside => ?_
      · have admitted := (Bool.and_eq_true_iff.mp (each entry listed)).1
        rw [held] at admitted
        exact of_decide_eq_true admitted
      · rw [known] at leaves
        exact Value.isLeaf_iff.mp (List.all_eq_true.mp leaves field listed)
      · have below := (Bool.and_eq_true_iff.mp (each entry listed)).2
        exact ih (List.all_eq_true.mp below child inside)

/-- An identifier with an admitted name and nothing else. -/
theorem Node.isPlainTree_identifier (origin : Origin) {name : String} (admitted : admits name) :
    Node.IsPlainTree admits ⟨origin, "Identifier", [("name", .text name)], none⟩ := by
  refine .of_fields (List.forall_mem_singleton.mpr ?_) ?_
    (List.forall_mem_singleton.mpr (List.forall_mem_nil _))
  · rintro text ⟨⟩
    exact admitted
  · rintro construct known field listed
    cases known
    cases listed

theorem Node.IsPlainTree.asDeclaration {function : Node} (tree : function.IsPlainTree admits)
    {name : String} (admitted : admits name) :
    (Rule.asDeclaration function name).IsPlainTree admits := by
  refine .intro ⟨?_, ?_⟩ ?_
  · intro field listed text held
    have other : field ≠ "id" := by
      rintro rfl
      revert listed
      decide
    rw [Rule.asDeclaration_field other] at held
    exact tree.plain.texts field listed text held
  · rintro construct known field listed
    cases known
    cases listed
  · intro field child inside
    by_cases named : field = "id"
    · subst named
      rw [Rule.asDeclaration_id] at inside
      cases List.mem_singleton.mp inside
      exact Node.isPlainTree_identifier _ admitted
    · rw [Rule.asDeclaration_field named] at inside
      exact tree.inner _ inside

/-- An assignment of plain values. -/
theorem Node.isPlainTree_defaultAssignment (vocabulary : Text.Vocabulary admits) (function : Node)
    {target default : Value} (left : ∀ child ∈ Node.nodesOf target, child.IsPlainTree admits)
    (right : ∀ child ∈ Node.nodesOf default, child.IsPlainTree admits) :
    (Rule.defaultAssignment function target default).IsPlainTree admits := by
  refine .intro ⟨?_, ?_⟩ ?_
  · intro field listed text held
    have others : field ≠ "left" ∧ field ≠ "right" := by
      constructor <;> rintro rfl <;> revert listed <;> decide
    rw [Rule.defaultAssignment_field, if_neg others.1, if_neg others.2] at held
    split at held
    · cases held
      have sign : Text.Avoids Text.delimiters "=" := by decide
      exact vocabulary.basic sign
    · cases held
  · rintro construct known field listed
    cases known
    cases List.mem_singleton.mp listed
    rw [Rule.defaultAssignment_field, if_pos rfl]
    trivial
  · intro field child inside
    rw [Rule.defaultAssignment_field] at inside
    split at inside
    · cases inside
    · split at inside
      · exact left child inside
      · split at inside
        · exact right child inside
        · cases inside

theorem Rule.asDeclaration_inj {function other : Node} {name given : String}
    (same : asDeclaration function name = asDeclaration other given) : name = given := by
  have fields := congrArg (fun declaration => declaration.field "id") same
  simp only [asDeclaration_id] at fields
  exact congrArg Value.name fields

/-! ## Positions -/

theorem Position.IsBelow.hasPlainSource (vocabulary : Text.Vocabulary admits) {parent : Node}
    {place : Position} (below : place.IsBelow parent) (tree : parent.IsPlainTree admits) :
    place.HasPlainSource admits := by
  intro moduleName named
  rw [below.source] at named
  unfold Node.importSource Node.require at named
  cases found : parent.field? "source" with
  | none =>
      rw [found] at named
      cases named
  | some source =>
      rw [found] at named
      cases named
      rw [← Node.field_of_field? found]
      exact tree.name vocabulary "source"

/-! ## What is rendered below plain nodes -/

/-- Whatever a readable plain node visits is plain, in a place that is plain when its own
place is. Only methods bring the name of constructors with them. -/
theorem Node.IsPlainTree.visit {options : Options} (vocabulary : Text.Vocabulary admits)
    {source : Source} (constructor : source = .method → admits options.constructorName)
    {node : Node} {position place : Position} (readable : node.Readable)
    (tree : node.IsPlainTree admits) {child : Node}
    (visits : .visit source (.node child) place ∈ node.tasks options position) :
    child.IsPlainTree admits ∧
      (position.HasPlainSource admits → place.HasPlainSource admits) := by
  have placed := Node.visit_placed visits
  obtain ⟨construct, known, part, listed, provided⟩ := Node.visit_provided visits
  cases source with
  | copy =>
      rcases placed with ⟨called, rfl⟩ | ⟨declared, rfl⟩
      · cases called
        exact ⟨tree.asCall, fun _ => (Position.IsBelow.within node).hasPlainSource vocabulary tree⟩
      · cases declared
        exact ⟨tree.asDeclaration (tree.name vocabulary "id"), id⟩
  | field name =>
      cases provided with
      | field read shape found direct =>
          exact ⟨tree.child (Node.field_of_field? found), fun _ => placed.hasPlainSource vocabulary tree⟩
  | item name index =>
      cases provided with
      | item read shape held place rendered =>
          exact ⟨tree.item held (List.mem_of_getElem? place),
            fun _ => placed.hasPlainSource vocabulary tree⟩
  | receiver =>
      obtain ⟨callee, held, rfl⟩ := placed
      cases provided with
      | receiver read other role found =>
          cases held.symm.trans other
          have inner := tree.child held
          exact ⟨inner.child (Node.field_of_field? found),
            fun _ => (Position.IsBelow.within callee).hasPlainSource vocabulary inner⟩
  | declarator index =>
      obtain ⟨start, held, -, rfl⟩ := placed
      cases provided with
      | declarator read other kind declared place =>
          cases held.symm.trans other
          have inner := tree.child held
          exact ⟨inner.item declared (List.mem_of_getElem? place),
            fun _ => (Position.IsBelow.within start).hasPlainSource vocabulary inner⟩
  | method =>
      obtain ⟨rfl, function, declared⟩ := placed
      generalize same : Value.node child = value at provided
      cases provided with
      | @method other read held name =>
          cases same
          cases Rule.asDeclaration_inj (Value.node.inj declared)
          refine ⟨(tree.child held).asDeclaration ?_,
            fun _ => (Position.IsBelow.within node).hasPlainSource vocabulary tree⟩
          unfold Naming.methodName
          split
          · exact constructor rfl
          · exact tree.name vocabulary "key"
  | pattern index =>
      generalize same : Value.node child = value at provided
      cases provided with
      | @pattern items index param target default read held place kind left right =>
          cases same
          have inner := tree.item held (List.mem_of_getElem? place)
          refine ⟨Node.isPlainTree_defaultAssignment vocabulary node ?_ ?_,
            fun _ => placed.hasPlainSource vocabulary tree⟩
          · rw [← Node.field_of_field? left]
            exact fun child => inner.inner "left"
          · rw [← Node.field_of_field? right]
            exact fun child => inner.inner "right"
  | defaulted index =>
      generalize same : Value.node child = value at provided
      cases provided with
      | @defaulted items index param default read held place kind readDefaults given something =>
          cases same
          refine ⟨Node.isPlainTree_defaultAssignment vocabulary node ?_ ?_,
            fun _ => placed.hasPlainSource vocabulary tree⟩
          · exact List.forall_mem_singleton.mpr (tree.item held (List.mem_of_getElem? place))
          · have parts := (Node.readable_iff_parts known).mp readable part listed
            obtain ⟨inner, rfl, -⟩ := (parts _ readDefaults).default given something
            obtain ⟨defaults, several, there⟩ := Value.getElem?_of_itemAt given something
            exact List.forall_mem_singleton.mpr (tree.item several (List.mem_of_getElem? there))

end PhpRendering
