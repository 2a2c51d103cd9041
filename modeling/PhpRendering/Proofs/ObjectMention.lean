import PhpRendering.Proofs.LiteralObject

/-!
# Texts around the literal that is accessed

The literal that is the object of an access is written by the access: with a connective
behind it, with a bracket, or between the parentheses of the call that takes the place of
the access. An access around that one chooses the same connective. A node that looks at
none of this has the text of its slots, of which one at most mentions the literal.
-/

namespace PhpRendering

/-- A literal with a text for its output: its own spelling, when it has one, is a text. -/
structure Node.IsTextLiteral (literal : Node) : Prop where
  kind : literal.kind = "Literal"
  form : literal.form = .text

/-- Whether what is rendered with a literal in it has a text that mentions the literal, for an
access with a known property. -/
def MentionsLiteral (options : Options) (property : Value) (filled : Node → Value)
    (place : Node → Position) : Prop :=
  ∃ mention : Mention, ∀ literal : Node, literal.IsTextLiteral →
    (render options (filled literal) (place literal)).outcome = .ok (mention.text property literal)

/-! ## Nodes that do not look at the literal -/

section Nodes

variable {options : Options} {access : Node} (kind : access.kind = "MemberExpression")
  (something : access.field "object" ≠ .null)

theorem Node.pairwise_tasks (options : Options) (node : Node) (position : Position) :
    (node.tasks options position).Pairwise Task.Apart := by
  unfold Node.tasks
  split
  · exact List.pairwise_singleton _ _
  · exact Construct.pairwise_tasks ..

variable {node : Node} {position : Position} {name : String} {more : List Step}
  (readable : node.Readable) (usable : position.IsUsable)
  (has : (Value.node node).HasObjectAt access (.member name :: more))
  (blind : ¬ node.LooksAt options position (.member name :: more))
  (below : ∀ source child place rest,
    .visit source (.node child) place ∈ node.tasks options position →
    (Value.node child).HasObjectAt access rest →
    MentionsLiteral options (access.field "property")
      (fun literal => Value.put (.node literal) rest (.node child)) fun _ => place)
include kind something readable usable has blind below

/-- What is rendered for a source has a text that mentions the literal when the source lies on
the way. -/
theorem Source.exists_mention_put (source : Source) (place : Position) :
    ∃ mention : Mention, (mention.isThere = true → source.LiesOn (.member name :: more)) ∧
      ∀ value, .visit source value place ∈ node.tasks options position →
        ∀ literal : Node, literal.IsTextLiteral →
          (render options (source.valueAt options (node.put (.node literal) name more))
            place).outcome = .ok (mention.text (access.field "property") literal) := by
  by_cases visited : ∃ value, .visit source value place ∈ node.tasks options position
  · obtain ⟨value, held⟩ := visited
    obtain ⟨⟨child, rfl, childReadable⟩, fine⟩ := Node.tasks_safe options readable usable _ held
    obtain ⟨construct, known, among⟩ := Node.known_of_visit held
    have beyond := Construct.not_mem_routes known among has.leads blind
    rcases Construct.valueAt_put_cases known
        (fun function => readable.defaults_text? (function ▸ known)) among has kind something beyond
      with ⟨lies, rest, inside, changed⟩ | same
    · obtain ⟨mention, rendered⟩ := below source child place rest held inside
      refine ⟨mention, fun _ => lies, fun _ _ literal isLiteral => ?_⟩
      rw [changed]
      exact rendered literal isLiteral
    · obtain ⟨text, outcome⟩ := (render_isSafe options childReadable fine).outcome
      refine ⟨.absent text, fun there => absurd there Bool.false_ne_true, fun _ _ literal _ => ?_⟩
      rw [same]
      exact outcome
  · exact ⟨.absent "", fun there => absurd there Bool.false_ne_true,
      fun value held => absurd ⟨value, held⟩ visited⟩

/-- A node that does not look at the literal has a text that mentions it. -/
theorem Node.put_mentionsLiteral :
    MentionsLiteral options (access.field "property")
      (fun literal => .node (node.put (.node literal) name more)) fun _ => position := by
  choose mentions lies rendered using
    Source.exists_mention_put kind something readable usable has blind below
  -- The way leads into one source at most, so that one slot at most mentions the literal.
  have single : (node.tasks options position).Pairwise (Task.NotBoth mentions) := by
    refine (Node.pairwise_tasks options node position).imp fun {task other} apart => ?_
    cases task with
    | visit source value place =>
        cases other with
        | visit sourceToo valueToo placeToo =>
            exact fun there thereToo =>
              Source.Apart.not_liesOn apart (lies _ _ there) (lies _ _ thereToo)
        | _ => exact fun _ => id
    | _ => exact fun there => there.elim
  refine Node.exists_mention readable usable single fun literal isLiteral => ?_
  have alike := @Node.layout_put (.node literal) more node name options position has.leads blind
  refine ⟨alike.1.strengthen fun task held counterpart heldToo paired => ?_, alike.2⟩
  rw [Node.layout_tasks] at held heldToo
  cases paired with
  | enter _ _ => exact .enter _ _
  | @visit source value other place alike =>
      obtain ⟨⟨child, rfl, -⟩, -⟩ := Node.tasks_safe options readable usable _ held
      obtain ⟨childToo, rfl⟩ := Value.eq_node_of_isSome alike.isSome_node?_eq.symm
      obtain ⟨construct, knownToo, amongToo⟩ := Node.known_of_visit heldToo
      have defaults : construct = .functionDeclaration →
          ((node.put (.node literal) name more).field "defaults").text? = none := by
        rintro rfl
        have alike : (node.field "defaults").Alike (Node.Altered "object" (.node literal))
            ((node.put (.node literal) name more).field "defaults") :=
          Node.field_put_alike has.leads fun same => absurd same (by decide)
        exact alike.text?_eq.symm.trans (readable.defaults_text? knownToo)
      refine .visit ?_
      rw [← Construct.valueAt_eq knownToo defaults amongToo]
      exact rendered source place _ held literal isLiteral

end Nodes

/-! ## Changed nodes -/

section Changed

variable {node : Node} {new : Value} {name : String} {more : List Step}

theorem Node.field_put_of_ne {field : String} (beside : field ≠ name) :
    (node.put new name more).field field = node.field field :=
  (node.put_field new name more field).trans (if_neg beside)

theorem Node.field_put_self (node : Node) (new : Value) (name : String) :
    (node.put new name []).field name = new :=
  (node.put_field new name [] name).trans (if_pos rfl)

theorem Node.field?_put_of_ne {field : String} (beside : field ≠ name) :
    (node.put new name more).field? field = node.field? field := by
  unfold Node.field?
  rw [Node.field_put_of_ne beside]

theorem Node.flag_put_of_ne {field : String} (beside : field ≠ name) :
    (node.put new name more).flag field = node.flag field := by
  unfold Node.flag
  rw [Node.field_put_of_ne beside]

theorem Node.require_put_of_ne {field : String} (beside : field ≠ name) :
    (node.put new name more).require field = node.require field := by
  unfold Node.require
  rw [Node.field?_put_of_ne beside]
  rfl

theorem Node.within_put
    (leads : LeadsToField "object" (.member name :: more)) (new : Value) :
    Position.within (node.put new name more) = Position.within node := by
  have twin : Node.Twin (Node.Altered "object" new) node (node.put new name more) :=
    .base (.put leads node)
  exact (twin.within_eq (looksAlike_altered new) rfl).symm

/-- The substitute that an access asks for does not depend on the object. -/
theorem Rule.propertySubstitute?_put
    (leads : LeadsToField "object" (.member name :: more)) (new : Value) (options : Options)
    (position : Position) :
    Rule.propertySubstitute? options (node.put new name more) position =
      Rule.propertySubstitute? options node position := by
  have twin : Node.Twin (Node.Altered "object" new) node (node.put new name more) :=
    .base (.put leads node)
  exact (twin.propertySubstitute?_eq (looksAlike_altered new)
    (fun altered _ => altered.field_alike (by decide)) options position).symm

/-- The substitute that a call asks for does not depend on the receiver. -/
theorem Rule.methodSubstitute?_put
    (leads : LeadsToField "object" (.member name :: more)) (new : Value) (options : Options) :
    Rule.methodSubstitute? options (node.put new name more) =
      Rule.methodSubstitute? options node := by
  have twin : Node.Twin (Node.Altered "object" new) node (node.put new name more) :=
    .base (.put leads node)
  exact (twin.methodSubstitute?_eq (looksAlike_altered new)
    (fun altered _ => altered.field_alike (by decide)) options).symm

theorem Node.isStatic_put (access : Node) (new : Value) :
    (Value.node (access.put new "object" [])).isStatic = (Value.node access).isStatic := by
  have altered : access.Altered "object" new (access.put new "object" []) := .put .here access
  have name_eq : access.name = (access.put new "object" []).name :=
    (looksAlike_altered new).name altered
  simp only [Value.isStatic, Value.name, name_eq]

end Changed

/-! ## Replaced nodes -/

def Substitute.operandFields : Substitute → List String
  | .propertyFunction _ => ["object"]
  | .constant _ => []
  | _ => ["callee", "arguments"]

section Operands

variable {node : Node} {new : Value} {name : String} {more : List Step}
  (within : Position.within (node.put new name more) = Position.within node)
include within

theorem Layout.optionalItems_put {field : String} (beside : field ≠ name)
    (together : List Layout → Layout) :
    Layout.optionalItems (node.put new name more) field together =
      Layout.optionalItems node field together := by
  unfold Layout.optionalItems Node.optionalItems
  rw [Node.flag_put_of_ne beside, Node.field_put_of_ne beside, within]

/-- A substitute that does not read a field writes the same whatever is changed there. -/
theorem Layout.substituted_put {substitute : Substitute}
    (beside : name ∉ substitute.operandFields) :
    Layout.substituted (node.put new name more) substitute =
      Layout.substituted node substitute := by
  have callReceiver (other : "callee" ≠ name) :
      Layout.callReceiver (node.put new name more) = Layout.callReceiver node := by
    unfold Layout.callReceiver Layout.needed
    rw [Node.require_put_of_ne other]
  have operands (other : "arguments" ≠ name) :=
    @Layout.optionalItems_put node new name more within "arguments" other
  have yield (other : "callee" ≠ name) (otherToo : "arguments" ≠ name) :
      (node.put new name more).operandsYieldText = node.operandsYieldText := by
    unfold Node.operandsYieldText Node.calledObject
    rw [Node.field_put_of_ne other, Node.field_put_of_ne otherToo]
  cases substitute with
  | propertyFunction function =>
      have other : "object" ≠ name := fun same => beside (same ▸ List.mem_singleton_self _)
      simp only [Layout.substituted, Layout.receiver, Layout.needed,
        Node.require_put_of_ne other, within]
  | constant text => rfl
  | _ =>
      simp only [Substitute.operandFields, List.mem_cons, List.not_mem_nil, or_false,
        not_or] at beside
      simp only [Layout.substituted, callReceiver (Ne.symm beside.1), operands (Ne.symm beside.2),
        yield (Ne.symm beside.1) (Ne.symm beside.2)]

end Operands

/-- Whether a node at a position is laid out as the call that a substitute puts in its place. -/
structure Node.IsReplaced (options : Options) (position : Position) (substitute : Substitute)
    (node : Node) : Prop where
  layout : node.layout options position = Layout.substituted node substitute
  bare : node.owesTerminator options position = false

namespace Node.IsReplaced

variable {options : Options} {node other : Node} {position place : Position}
  {substitute : Substitute}

theorem of_call (known : Construct.ofKind? node.kind = some .call) {called : Node}
    (held : node.field "callee" = .node called)
    (asked : Rule.methodSubstitute? options called = .ok (some substitute)) :
    node.IsReplaced options position substitute where
  layout := by
    rw [Node.layout_eq known]
    simp only [Construct.layout, Layout.call, Layout.needed, Node.require, Node.field?_node held,
      Value.asNode, Layout.shaped, asked]
  bare := by
    rw [Node.owesTerminator_eq known]
    simp only [Construct.owesTerminator, held, Value.node?, Option.map_some, asked]

theorem of_access (known : Construct.ofKind? node.kind = some .member) {object property : Value}
    (foundObject : node.field? "object" = some object)
    (found : node.field? "property" = some property)
    (asked : Rule.propertySubstitute? options node position = .ok (some substitute)) :
    node.IsReplaced options position substitute where
  layout := by
    rw [Node.layout_eq known]
    simp only [Construct.layout, Layout.member, Layout.needed, Node.require, foundObject, found,
      Layout.shaped, asked]
  bare := Node.owesTerminator_eq known options position

theorem outcome_of_writes (replaced : node.IsReplaced options position substitute) {text : String}
    (writes : (Layout.substituted node substitute).Writes (render options) text) :
    (render options (.node node) position).outcome = .ok text := by
  rw [← replaced.layout] at writes
  rw [render_of_writes writes, replaced.bare]
  rfl

/-- Nodes that are replaced by the same call have the same text. -/
theorem outcome_congr (replaced : node.IsReplaced options position substitute)
    (replacedToo : other.IsReplaced options place substitute)
    (same : Layout.substituted node substitute = Layout.substituted other substitute) :
    (render options (.node node) position).outcome =
      (render options (.node other) place).outcome := by
  rw [render_outcome, render_outcome, replaced.layout, replacedToo.layout, same, replaced.bare,
    replacedToo.bare]

end Node.IsReplaced

/-! ## The access -/

theorem render_literal (options : Options) {literal : Node} (kind : literal.kind = "Literal")
    (position : Position) :
    (render options (.node literal) position).outcome = .ok literal.spelling := by
  have known : Construct.ofKind? literal.kind = some .literal := by
    rw [kind]
    rfl
  have writes : (Construct.literal.layout options literal position).Writes (render options)
      literal.spelling := by
    unfold Node.spelling Construct.layout Layout.optional
    cases literal.field? "raw" with
    | none => exact .word _
    | some raw => exact .word _
  rw [render_of_construct_writes known writes]
  rfl

section Access

variable {options : Options} {access : Node} {position : Position}

/-- What an access without a substitute has rendered. -/
theorem Node.visits_of_access (known : Construct.ofKind? access.kind = some .member)
    {object property : Value} (foundObject : access.field? "object" = some object)
    (found : access.field? "property" = some property)
    (asked : Rule.propertySubstitute? options access position = .ok none) :
    .visit (.field "object") object (Rule.objectPosition access object) ∈
        access.tasks options position ∧
      .visit (.field "property") property
        (if access.flag "computed" then .within access
        else { Position.within access with
          isMemberProperty := true, isStatic := property.isStatic }) ∈
        access.tasks options position := by
  have tasks_eq : access.tasks options position = Part.access.tasks options access position := by
    rw [Node.tasks_eq known]
    exact List.append_nil _
  rw [tasks_eq]
  simp only [Part.tasks, Task.needed, Node.require, foundObject, found, Task.shaped, asked,
    Task.child]
  exact ⟨List.mem_cons_self .., List.mem_append_right _ (List.mem_singleton_self _)⟩

/-- An access that lacks its object or its property has no text. -/
theorem render_of_incomplete (known : Construct.ofKind? access.kind = some .member)
    (incomplete : access.field? "object" = none ∨ access.field? "property" = none) :
    (render options (.node access) position).outcome = .ok "" := by
  have stops (field : String) : ((Layout.stop (.missing (access.missing field))).write
      (render options)).outcome = .error (.missing (access.missing field)) := rfl
  cases found : access.field? "object" with
  | none =>
      refine render_of_lacking known (access.missing "object") ?_
      simp only [Construct.layout, Layout.member, Layout.needed, Node.require, found, stops]
  | some object =>
      have absent := incomplete.resolve_left (by simp [found])
      refine render_of_lacking known (access.missing "property") ?_
      simp only [Construct.layout, Layout.member, Layout.needed, Node.require, found, absent, stops]

variable (known : Construct.ofKind? access.kind = some .member) {object : Node}
  (held : access.field "object" = .node object) (readable : access.Readable)
  (usable : position.IsUsable)
include known held readable usable

/-- A readable access asks for a substitute without a crash. -/
theorem Node.asked_of_readable {property : Value}
    (found : access.field? "property" = some property) :
    ∃ substitute, Rule.propertySubstitute? options access position = .ok substitute := by
  cases asked : Rule.propertySubstitute? options access position with
  | ok substitute => exact ⟨substitute, rfl⟩
  | error crash =>
      have stops : .stop (.crash crash) ∈ access.tasks options position := by
        rw [Node.tasks_eq known]
        refine List.mem_flatMap.mpr ⟨.access, List.mem_singleton_self _, ?_⟩
        simp only [Part.tasks, Task.needed, Node.require, Node.field?_node held, found, Task.shaped,
          asked]
        exact List.mem_singleton_self _
      obtain ⟨missing, same⟩ := Node.tasks_safe options readable usable _ stops
      cases same

/-- An access without a substitute is its object with a text behind it that depends on the
object for the connective only. -/
theorem Node.access_text {property : Value} (found : access.field? "property" = some property)
    (asked : Rule.propertySubstitute? options access position = .ok none) :
    ∃ text, ∀ (chosen : Option Connective) {new : Value} {more : List Step} {inner : Node}
      {innerText : String}, LeadsToField "object" (.member "object" :: more) →
      (access.put new "object" more).field "object" = .node inner →
      (render options (.node inner)
        (Rule.objectPosition (access.put new "object" more) (.node inner))).outcome =
          .ok innerText →
      (render options (.node (access.put new "object" more))
        { position with connective := chosen }).outcome =
        .ok (innerText ++ (if access.flag "computed" then "[" ++ text ++ "]"
          else (chosen.getD (Connective.between (.node inner) property)).text ++ text)) := by
  have visited := (Node.visits_of_access known (Node.field?_node held) found asked).2
  obtain ⟨⟨child, rfl, childReadable⟩, fine⟩ := Node.tasks_safe options readable usable _ visited
  obtain ⟨text, outcome⟩ := (render_isSafe options childReadable fine).outcome
  refine ⟨text, fun chosen {new more inner innerText} leads object rendered => ?_⟩
  have property_eq : (access.put new "object" more).field? "property" = some (.node child) :=
    (Node.field?_put_of_ne (by decide)).trans found
  have askedToo : Rule.propertySubstitute? options (access.put new "object" more)
      { position with connective := chosen } = .ok none :=
    (Rule.propertySubstitute?_put leads new options position).trans asked
  have writes : (Construct.member.layout options (access.put new "object" more)
      { position with connective := chosen }).Writes (render options)
      (innerText ++ (if access.flag "computed" then "[" ++ text ++ "]"
        else (chosen.getD (Connective.between (.node inner) (.node child))).text ++ text)) := by
    refine Layout.writes_needed_iff.mpr ⟨_, Node.field?_node object, Layout.writes_needed_iff.mpr
      ⟨_, property_eq, Layout.writes_shaped_iff.mpr ⟨none, askedToo, .next (.visit rendered) ?_⟩⟩⟩
    rw [Node.flag_put_of_ne (by decide), Node.within_put leads]
    split
    · next computed =>
        rw [if_pos computed] at outcome
        rw [String.append_assoc, ← @String.append_empty "]"]
        exact .next (.word _) (.next (.visit outcome) (.next (.word _) (.word _)))
    · next plain =>
        rw [if_neg plain] at outcome
        exact .next (.word _) (.visit outcome)
  have knownToo : Construct.ofKind? (access.put new "object" more).kind = some .member := known
  rw [render_of_construct_writes knownToo writes]
  rfl

/-- The call that takes the place of an access writes the object between parentheses, or not
at all. -/
theorem Node.replaced_access_mentionsLiteral {property : Value} {substitute : Substitute}
    (found : access.field? "property" = some property)
    (asked : Rule.propertySubstitute? options access position = .ok (some substitute)) :
    ∀ chosen : Node → Option Connective, MentionsLiteral options property
      (fun literal => .node (access.put (.node literal) "object" []))
      fun literal => { position with connective := chosen literal } := by
  intro chosen
  have leads : LeadsToField "object" [Step.member "object"] := .here
  have object_eq (literal : Node) : (access.put (.node literal) "object" []).field? "object" =
      some (.node literal) := Node.field?_node (access.field_put_self _ _)
  have replaced (literal : Node) : (access.put (.node literal) "object" []).IsReplaced options
      { position with connective := chosen literal } substitute :=
    .of_access known (object_eq literal) ((Node.field?_put_of_ne (by decide)).trans found)
      ((Rule.propertySubstitute?_put leads (.node literal) options position).trans asked)
  by_cases taken : "object" ∈ substitute.operandFields
  · obtain ⟨function, rfl⟩ : ∃ function, substitute = .propertyFunction function := by
      cases substitute with
      | propertyFunction function => exact ⟨function, rfl⟩
      | constant text => cases taken
      | _ => simp [Substitute.operandFields] at taken
    refine ⟨.once (function ++ "(") (.fixed ')' (by decide)) "", fun literal isLiteral => ?_⟩
    have slot : (Layout.receiver (.field "object") (access.put (.node literal) "object" [])).Writes
        (render options) literal.spelling :=
      Layout.writes_needed_iff.mpr
        ⟨_, object_eq literal, .visit (render_literal options isLiteral.kind _)⟩
    have spelled :
        (Mention.once (function ++ "(") (.fixed ')' (by decide)) "").text property literal =
          function ++ "(" ++ (literal.spelling ++ (")" ++ "")) := by
      simp only [Mention.text, Link.text, String.append_assoc]
      rfl
    rw [spelled]
    exact (replaced literal).outcome_of_writes
      (.next (.word _) (.next slot (.next (.word _) (.word _))))
  · obtain ⟨text, outcome⟩ := (render_isSafe options readable usable).outcome
    refine ⟨.absent text, fun literal _ => ?_⟩
    have within := @Node.within_put access "object" [] leads (.node literal)
    have own : access.IsReplaced options position substitute :=
      .of_access known (Node.field?_node held) found asked
    exact ((replaced literal).outcome_congr own (Layout.substituted_put within taken)).trans
      outcome

/-- An access mentions the literal that is its object, followed by a connective, a bracket, or
the end of the call that takes its place. -/
theorem Node.access_mentionsLiteral (chosen : Node → Option Connective) (link : Link)
    (tail : String)
    (linked : ∀ literal : Node, literal.IsTextLiteral →
      ((chosen literal).getD (Connective.between (.node literal) (access.field "property"))).text =
        link.text (access.field "property") literal ++ tail) :
    MentionsLiteral options (access.field "property")
      (fun literal => .node (access.put (.node literal) "object" []))
      fun literal => { position with connective := chosen literal } := by
  cases found : access.field? "property" with
  | none =>
      refine ⟨.absent "", fun literal _ => ?_⟩
      exact render_of_incomplete known (.inr ((Node.field?_put_of_ne (by decide)).trans found))
  | some property =>
      have named : access.field "property" = property := Node.field_of_field? found
      rw [named] at linked ⊢
      obtain ⟨substitute, asked⟩ := Node.asked_of_readable known held readable usable found
      cases substitute with
      | some substitute =>
          exact Node.replaced_access_mentionsLiteral known held readable usable found asked chosen
      | none =>
          obtain ⟨text, rendered⟩ := Node.access_text known held readable usable found asked
          have written (literal : Node) (chosen : Option Connective)
              (isLiteral : literal.IsTextLiteral) :=
            rendered chosen (.here : LeadsToField "object" [Step.member "object"])
              (access.field_put_self (.node literal) _)
              (render_literal options isLiteral.kind _)
          cases computed : access.flag "computed" with
          | true =>
              refine ⟨.once "" (.fixed '[' (by decide)) (text ++ "]"), fun literal isLiteral => ?_⟩
              rw [written literal (chosen literal) isLiteral, computed, if_pos rfl]
              refine congrArg Except.ok ?_
              change _ = "" ++ literal.spelling ++ "[" ++ (text ++ "]")
              rw [String.empty_append, String.append_assoc, String.append_assoc]
          | false =>
              refine ⟨.once "" link (tail ++ text), fun literal isLiteral => ?_⟩
              rw [written literal (chosen literal) isLiteral, computed,
                if_neg Bool.false_ne_true, linked literal isLiteral]
              refine congrArg Except.ok ?_
              simp only [Mention.text, String.empty_append, String.append_assoc]

end Access

/-! ## Around the access -/

section Around

variable {options : Options} {outer access object : Node} {position : Position}

def Node.chosen? (access : Node) : Option Connective :=
  (Value.node access).plainAccess?.map fun pair => Connective.between pair.1 pair.2

/-- The connective that is chosen inside an access is the one that the access would choose. -/
theorem Node.getD_chosen? (access literal : Node) :
    ((access.put (.node literal) "object" []).chosen?.getD
        (Connective.between (.node literal) (access.field "property"))) =
      Connective.between (.node literal) (access.field "property") := by
  have object_eq : (access.put (.node literal) "object" []).field? "object" =
      some (.node literal) := Node.field?_node (access.field_put_self _ _)
  have property_eq : (access.put (.node literal) "object" []).field? "property" =
      access.field? "property" := Node.field?_put_of_ne (by decide)
  unfold Node.chosen? Value.plainAccess?
  simp only [object_eq, property_eq]
  split
  · cases found : access.field? "property" with
    | none => rfl
    | some property =>
        rw [Node.field_of_field? found]
        rfl
  · rfl

/-- An access to an access mentions the literal that is the object of the inner one. -/
theorem Node.around_mentionsLiteral (known : Construct.ofKind? outer.kind = some .member)
    (heldAccess : outer.field "object" = .node access)
    (knownAccess : Construct.ofKind? access.kind = some .member)
    (held : access.field "object" = .node object) (readable : outer.Readable)
    (usable : position.IsUsable) (plain : outer.substitute? options position = none) :
    MentionsLiteral options (access.field "property")
      (fun literal => .node (outer.put (.node literal) "object" [.member "object"]))
      fun _ => position := by
  have leads : LeadsToField "object" [.member "object", Step.member "object"] := .member .here
  have object_eq (literal : Node) :
      (outer.put (.node literal) "object" [.member "object"]).field "object" =
        .node (access.put (.node literal) "object" []) := by
    rw [outer.put_field, if_pos rfl, heldAccess]
    rfl
  cases found : outer.field? "property" with
  | none =>
      exact ⟨.absent "", fun literal _ =>
        render_of_incomplete known (.inr ((Node.field?_put_of_ne (by decide)).trans found))⟩
  | some property =>
      obtain ⟨substitute, asked⟩ := Node.asked_of_readable known heldAccess readable usable found
      obtain rfl : none = substitute := plain.symm.trans (Node.substitute?_of_member known asked)
      obtain ⟨text, rendered⟩ := Node.access_text known heldAccess readable usable found asked
      have visited := (Node.visits_of_access known (Node.field?_node heldAccess) found asked).1
      obtain ⟨⟨_, ⟨⟩, accessReadable⟩, fine⟩ := Node.tasks_safe options readable usable _ visited
      -- The outer access tells the inner one the connective that it would choose itself.
      obtain ⟨mention, inside⟩ := Node.access_mentionsLiteral knownAccess held accessReadable fine
        (fun literal => (access.put (.node literal) "object" []).chosen?) .connective ""
        fun literal _ => by
          rw [Node.getD_chosen?, String.append_empty]
          rfl
      let behind := if outer.flag "computed" then "[" ++ text ++ "]"
        else (position.connective.getD (Connective.between (.node access) property)).text ++ text
      refine ⟨mention.append (.absent behind), fun literal isLiteral => ?_⟩
      have place : Rule.objectPosition (outer.put (.node literal) "object" [.member "object"])
          (.node (access.put (.node literal) "object" [])) =
          { Rule.objectPosition outer (.node access) with
            connective := (access.put (.node literal) "object" []).chosen? } := by
        simp only [Rule.objectPosition, Node.within_put leads, Node.isStatic_put]
        rfl
      have inner : (render options (.node (access.put (.node literal) "object" []))
          (Rule.objectPosition (outer.put (.node literal) "object" [.member "object"])
            (.node (access.put (.node literal) "object" [])))).outcome =
          .ok (mention.text (access.field "property") literal) := by
        rw [place]
        exact inside literal isLiteral
      have whole := rendered position.connective leads (object_eq literal) inner
      rw [Mention.append_text _ _ fun _ => rfl]
      have between : Connective.between (.node (access.put (.node literal) "object" [])) property =
          Connective.between (.node access) property := by
        unfold Connective.between
        rw [Node.isStatic_put]
      rw [between] at whole
      exact whole

end Around

end PhpRendering
