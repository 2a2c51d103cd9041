import PhpRendering.Proofs.Inversion
import PhpRendering.Proofs.Terminator

/-!
# Constructions

A construction is rendered as the call with its callee and its arguments, after the word
`new`. As a call it asks for the substitute of the method that its callee names, although
what is named there is a class and no method is called. So a construction is its callee with
its arguments under every table if and only if the callee names no member of an object.
-/

namespace PhpRendering

/-- Whether two tables differ in methods only, and in none that is called inside the callee
or the arguments of a construction. A construction inside asks for substitutes itself, so it
counts as a call of its callee. -/
structure SubstituteTable.AgreeInside (first second : SubstituteTable) (construction : Node) :
    Prop where
  properties : first.properties = second.properties
  callee : ∀ name, (construction.field "callee").Calls name →
    first.method? name = second.method? name
  operands : ∀ name, (construction.field "arguments").Calls name →
    first.method? name = second.method? name

/-- Whether a text is the word `new` before the callee of a construction and its arguments in
parentheses. All of these have to yield texts. -/
def Node.IsConstructedAs (options : Options) (construction callee : Node) (text : String) : Prop :=
  ∃ function operands, callee.form = .text ∧
    (render options (.node callee)
      { Position.within (Rule.asCall construction) with isCallee := true }).outcome =
        .ok function ∧
    (Rule.asCall construction).HasOperands options operands ∧
    text = "new " ++ Rule.functionCall function operands

/-- Whether the texts of a construction are those of its callee with its arguments. -/
def Node.IsPlainConstruction (options : Options) (construction callee : Node)
    (position : Position) : Prop :=
  ∀ text, (render options (.node construction) position).outcome = .ok text ↔
    construction.IsConstructedAs options callee text

section Construction

variable {options : Options} {construction callee : Node} {position : Position}

/-! ## The text of a construction -/

theorem Node.known_construction (kind : construction.kind = "NewExpression") :
    Construct.ofKind? construction.kind = some .construction := by
  rw [kind]
  rfl

/-- The texts of a construction are the word `new` with those of its call, when that yields a
text. -/
theorem render_construction_iff (kind : construction.kind = "NewExpression") {text : String} :
    (render options (.node construction) position).outcome = .ok text ↔
      ∃ call, ((Rule.asCall construction).form.isText = true ∧
        (render options (.node (Rule.asCall construction))
          (.within construction)).outcome = .ok call) ∧ text = "new " ++ call := by
  rw [render_construction (Node.known_construction kind), Emission.andThen_outcome_ok_iff]
  cases yields : (Rule.asCall construction).form.isText with
  | true =>
      constructor
      · rintro ⟨call, rendered, ⟨⟩⟩
        exact ⟨call, ⟨rfl, rendered⟩, rfl⟩
      · rintro ⟨call, ⟨-, rendered⟩, rfl⟩
        exact ⟨call, rendered, rfl⟩
  | false =>
      constructor
      · rintro ⟨call, -, ⟨⟩⟩
      · rintro ⟨call, ⟨⟨⟩, -⟩, -⟩

/-- A construction is no statement, so neither is its call. -/
theorem Position.calm_within_construction (kind : construction.kind = "NewExpression") :
    (Position.within construction).inStatement = false :=
  beq_eq_false_iff_ne.mpr (by rw [kind]; decide)

/-- A construction for which nothing is asked is its callee with its arguments. -/
theorem Node.isPlainConstruction (kind : construction.kind = "NewExpression")
    (held : construction.field "callee" = .node callee)
    (nothing : Rule.methodSubstitute? options callee = .ok none) :
    construction.IsPlainConstruction options callee position := by
  intro text
  have called : (Rule.asCall construction).field "callee" = .node callee := held
  have calm := Position.calm_within_construction kind
  rw [render_construction_iff kind]
  constructor
  · rintro ⟨call, rendered, rfl⟩
    obtain ⟨function, operands, form, found, given, rfl⟩ :=
      (render_unaskedCall_iff rfl called nothing rfl calm).mp rendered
    exact ⟨function, operands, form, found, given, rfl⟩
  · rintro ⟨function, operands, form, found, given, rfl⟩
    exact ⟨_, (render_unaskedCall_iff rfl called nothing rfl calm).mpr
      ⟨function, operands, form, found, given, rfl⟩, rfl⟩

/-- A text that begins a construction only is none. -/
theorem Node.not_isConstructedAs_keyword : ¬ construction.IsConstructedAs options callee "new " := by
  rintro ⟨function, operands, -, -, -, same⟩
  have letters := congrArg String.length same
  simp only [Rule.functionCall, String.length_append] at letters
  have bracket : "(".length = 1 := rfl
  omega

/-- What takes the place of a construction whose callee names a method with a substitute is
what takes the place of the call of that method. -/
theorem Node.substitutedConstruction_text (kind : construction.kind = "NewExpression")
    (held : construction.field "callee" = .node callee) {name : String}
    (accesses : callee.Accesses name) {substitute : Substitute}
    (found : options.substitutes.method? name = some substitute) {text : String}
    (writes : (Layout.substituted (Rule.asCall construction) substitute).Writes (render options)
      text) :
    (render options (.node construction) position).outcome = .ok ("new " ++ text) := by
  have called : (Rule.asCall construction).field "callee" = .node callee := held
  have asked : Rule.methodSubstitute? options callee = .ok (some substitute) := by
    rw [accesses.methodSubstitute?_eq, found]
  have known : Construct.ofKind? (Rule.asCall construction).kind = some .call := rfl
  have layout : (Construct.call.layout options (Rule.asCall construction)
      (.within construction)).Writes (render options) text := by
    simp only [Construct.layout, Layout.call, Layout.writes_needed_iff, Layout.writes_shaped_iff]
    exact ⟨_, Node.field?_node called, callee, rfl, some substitute, asked, writes⟩
  rw [render_construction_iff kind]
  have access := Rule.kind_of_methodSubstitute? asked
  have yields : (Rule.asCall construction).form = .text := by
    rw [Node.call_form rfl called, Node.form_of_kind access (by decide)]
    rfl
  refine ⟨_, ⟨Form.isText_iff.mpr yields, render_of_construct_writes known layout⟩, ?_⟩
  simp [Construct.owesTerminator, called, Value.node?, asked, Fragment.terminated]

/-! ## Two tables -/

/-- Nodes that are laid out alike are rendered alike when their children are. -/
theorem render_congr {first second : Options} {node : Node} {position : Position}
    (layout : node.layout first position = node.layout second position)
    (owes : node.owesTerminator first position = node.owesTerminator second position)
    (children : ∀ source value place, .visit source value place ∈ node.tasks first position →
      render first value place = render second value place) :
    render first (.node node) position = render second (.node node) position := by
  rw [render_eq, render_eq, renderNode, renderNode, ← layout, ← owes]
  unfold Layout.closed
  rw [Layout.write_congr fun source value place visits => ?_]
  rw [Node.layout_tasks] at visits
  exact children source value place visits

namespace SubstituteTable.AgreeInside

variable {first second : SubstituteTable} (agree : first.AgreeInside second construction)
include agree

/-- The callee and the arguments are rendered alike. -/
theorem children_eq (spot : Position) : ∀ task ∈
    Task.child "callee" spot (construction.field "callee") ++
      Task.arguments (Rule.asCall construction),
    ∀ source value place, task = .visit source value place →
      render { options with substitutes := first } value place =
        render { options with substitutes := second } value place := by
  have reads : ∀ name, first.property? name = second.property? name := by
    unfold SubstituteTable.property?
    rw [agree.properties]
    exact fun _ => rfl
  refine List.forall_mem_append.mpr ⟨List.forall_mem_singleton.mpr ?_, ?_⟩
  · rintro _ _ _ ⟨⟩
    exact render_substitutes_congr options agree.callee fun name _ => reads name
  · refine Task.forall_shaped (fun _ _ source value place same =>
      absurd same (Task.stop_ne_visit _ source value place)) fun items listed =>
        Task.forall_items ?_
    rintro index item found - _ _ _ ⟨⟩
    refine render_substitutes_congr options (fun name called => agree.operands name ?_)
      fun name _ => reads name
    rcases Node.optionalItems_eq_ok listed with rfl | given
    · cases found
    · exact Value.Finds.of_items (Node.callsMethod_inOriginals name) given
        (List.mem_of_getElem? found) called false

/-- Tables with which nothing is asked for the callee render a construction alike. -/
theorem render_eq (kind : construction.kind = "NewExpression")
    (held : construction.field "callee" = .node callee)
    (one : Rule.methodSubstitute? { options with substitutes := first } callee = .ok none)
    (other : Rule.methodSubstitute? { options with substitutes := second } callee = .ok none) :
    render { options with substitutes := first } (.node construction) position =
      render { options with substitutes := second } (.node construction) position := by
  have called : (Rule.asCall construction).field "callee" = .node callee := held
  have known := Node.known_construction kind
  rw [render_construction known, render_construction known]
  congr 1
  refine render_congr ?_ ?_ fun source value place visits => ?_
  · rw [Node.unaskedCall_layout rfl called one, Node.unaskedCall_layout rfl called other]
  · rw [Node.unaskedCall_owesTerminator rfl called one,
      Node.unaskedCall_owesTerminator rfl called other]
  · obtain ⟨rest, crashes, same⟩ := Task.continued_eq (Rule.asCall construction)
      (.within construction) (.node callee)
    rw [Node.unaskedCall_tasks rfl called one, same] at visits
    let spot := { Position.within (Rule.asCall construction) with isCallee := true }
    refine agree.children_eq spot (.visit source value place) ?_ source value place rfl
    rw [held]
    rcases List.mem_append.mp visits with child | visits
    · exact List.mem_append_left _ child
    · rcases List.mem_append.mp visits with argument | check
      · exact List.mem_append_right _ (Task.visit_mem_wanting_iff.mp argument)
      · obtain ⟨crash, impossible⟩ := crashes _ check
        cases impossible

end SubstituteTable.AgreeInside

/-! ## What constructions ask for -/

/-- Nothing is asked for a callee that names no method with a substitute. -/
theorem Rule.methodSubstitute?_of_unknown {table : SubstituteTable}
    (named : callee.kind = "MemberExpression" → ∃ name, callee.accessedName = .ok name)
    (unknown : ∀ name, callee.Accesses name → table.method? name = none) :
    Rule.methodSubstitute? { options with substitutes := table } callee = .ok none := by
  unfold Rule.methodSubstitute?
  split
  · next kind =>
      obtain ⟨name, asked⟩ := named kind
      rw [asked]
      rcases Node.accesses_of_accessedName kind asked with rfl | accesses
      · rfl
      · exact congrArg Except.ok (unknown name accesses)
  · rfl

/-- A construction is the word `new` before its callee and its arguments wherever no method
that the callee names has a substitute, whatever the other methods have. It is so under all
tables if and only if its callee names no member. A method that the callee names and that has
a substitute is replaced as in a call. The name of a member has to be one that can be looked
up. -/
theorem constructions_ask_for_methods (options : Options) {construction callee : Node}
    (kind : construction.kind = "NewExpression")
    (held : construction.field "callee" = .node callee)
    (named : callee.kind = "MemberExpression" → ∃ name, callee.accessedName = .ok name)
    (position : Position) :
    let under (table : SubstituteTable) : Options := { options with substitutes := table }
    let alike (first second : SubstituteTable) : Prop :=
      render (under first) (.node construction) position =
          render (under second) (.node construction) position ∧
        construction.IsPlainConstruction (under first) callee position
    (∀ first second : SubstituteTable, first.AgreeInside second construction →
      (∀ name, callee.Accesses name →
        first.method? name = none ∧ second.method? name = none) → alike first second) ∧
    ((∀ first second : SubstituteTable, first.AgreeInside second construction →
        alike first second) ↔ ∀ name, callee.Accesses name → name = "") ∧
    ∀ (table : SubstituteTable) (name : String) (substitute : Substitute),
      callee.Accesses name → table.method? name = some substitute →
      substitute.takesObject = false → ∀ (object : Value) (text : String) (texts : List String),
      callee.field? "object" = some object → object.form = .text →
      (render (under table) object (.within callee)).outcome = .ok text →
      (Rule.asCall construction).HasOperands (under table) texts →
      (render (under table) (.node construction) position).outcome =
        .ok ("new " ++ substitute.callText text texts) := by
  intro under alike
  have plain : ∀ first second : SubstituteTable, first.AgreeInside second construction →
      (∀ name, callee.Accesses name →
        first.method? name = none ∧ second.method? name = none) → alike first second := by
    intro first second agree unknown
    have one : Rule.methodSubstitute? (under first) callee = .ok none :=
      Rule.methodSubstitute?_of_unknown named fun name accesses => (unknown name accesses).1
    have other : Rule.methodSubstitute? (under second) callee = .ok none :=
      Rule.methodSubstitute?_of_unknown named fun name accesses => (unknown name accesses).2
    exact ⟨agree.render_eq kind held one other, Node.isPlainConstruction kind held one⟩
  refine ⟨plain, ⟨fun always name accesses => ?_, fun nameless first second agree => ?_⟩, ?_⟩
  · -- A table that removes the method leaves the keyword alone.
    by_contra something
    let removing : SubstituteTable := ⟨[(name, .constant "")], []⟩
    have found : removing.method? name = some (.constant "") := by
      simp [removing, SubstituteTable.method?, SubstituteTable.find?, something]
    have agree : removing.AgreeInside removing construction :=
      ⟨rfl, fun _ _ => rfl, fun _ _ => rfl⟩
    have text : (render (under removing) (.node construction) position).outcome =
        .ok ("new " ++ "") :=
      Node.substitutedConstruction_text kind held accesses found (.word "")
    exact Node.not_isConstructedAs_keyword (((always removing removing agree).2 _).mp text)
  · refine plain first second agree fun name accesses => ?_
    rw [nameless name accesses]
    exact ⟨rfl, rfl⟩
  · intro table name substitute accesses found takes object text texts receiver form rendered
      operands
    have called : (Rule.asCall construction).field "callee" = .node callee := held
    exact Node.substitutedConstruction_text kind held accesses found
      (Layout.writes_substituted called receiver form rendered operands takes)

end Construction

def trimAccess : Node :=
  Chain.accessNode (variableNode "s") "trim"

def trimConstruction : Node :=
  ⟨⟨0, []⟩, "NewExpression", [("callee", .node trimAccess), ("arguments", .list [])], none⟩

/-- The built-in substitute for calls of `trim` takes the place of the class in `new s.trim()`.
Without substitutes the class is left as it is. -/
theorem trimConstruction_is_replaced :
    trimConstruction.field "callee" = .node trimAccess ∧ trimAccess.Accesses "trim" ∧
      (render {} (.node trimConstruction) {}).outcome = .ok "new trim($s)" ∧
      (render { substitutes := .empty } (.node trimConstruction) {}).outcome =
        .ok "new $s->trim()" := by
  have held : trimConstruction.field "callee" = .node trimAccess := rfl
  have accesses : trimAccess.Accesses "trim" := Chain.accessNode_accesses _ "trim"
  obtain ⟨unasked, -, asked⟩ := constructions_ask_for_methods {} rfl held
    (fun _ => ⟨"trim", accesses.accessedName_eq⟩) {}
  refine ⟨held, accesses, ?_, ?_⟩
  · exact asked .builtIn "trim" (.receiverFirst "trim") accesses rfl rfl _ "$s" [] rfl
      rfl rfl ⟨[], rfl, .nil⟩
  · have plain := unasked .empty .empty ⟨rfl, fun _ _ => rfl, fun _ _ => rfl⟩ fun name _ => by
      simp [SubstituteTable.method?, SubstituteTable.find?, SubstituteTable.empty]
    exact (plain.2 _).mpr ⟨"$s->trim", [], rfl, rfl, ⟨[], rfl, .nil⟩, rfl⟩

end PhpRendering
