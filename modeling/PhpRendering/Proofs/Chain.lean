import PhpRendering.Proofs.Lookups
import PhpRendering.Proofs.Written

/-!
# Chains of accesses

A chain starts at a name or at the instance itself and goes on with reads of properties and
of items, with method calls and with calls. Each node of the tree is rendered by its own
rule, at a position that its parent chooses: the innermost name may lose its dollar sign,
and an access may be told its connective by the access around it. All the same the text is
a left fold over the steps of the chain. What the fold carries is the text so far, and
whether that is still a name.
-/

namespace PhpRendering

/-! ## What substitutes make of texts -/

/-- The text of a substitute for a call. A substitute that asks for the object of a read finds
none in a call, which is left out then. -/
def Substitute.callText (receiver : String) (operands : List String) : Substitute → String
  | .receiverFirst function => Rule.functionCall function (receiver :: operands)
  | .receiverLast function => Rule.functionCall function (operands ++ [receiver])
  | .charAt => Rule.functionCall "substr" [receiver, operands.headD "0", "1"]
  | .constant text => text
  | .propertyFunction _ => ""

/-- The text of a substitute for a read. A substitute that asks for a callee finds none in a
read, which is left out then. -/
def Substitute.readText (receiver : String) : Substitute → String
  | .propertyFunction function => Rule.functionCall function [receiver]
  | .constant text => text
  | _ => ""

/-! ## The fold -/

namespace Chain

inductive Step where
  | property (name : String)
  | index (text : String)
  | method (name : String) (operands : List String)
  | call (operands : List String)

/-- What is written for a chain so far: a name, which is spelled by what follows, or a text. -/
inductive Written where
  | name (name : String)
  | text (text : String)

namespace Written

def spelled (bare : Bool) : Written → String
  | .name known => if bare then known else Naming.variableName known
  | .text known => known

def isStatic : Written → Bool
  | .name known => isStaticName known
  | .text _ => false

abbrev plain (written : Written) : String :=
  written.spelled false

abbrev object (written : Written) : String :=
  written.spelled written.isStatic

abbrev callee (written : Written) : String :=
  written.spelled true

def member (written : Written) (name : String) : String :=
  written.object ++ (Connective.classify written.isStatic (isStaticName name)).text ++ name

def next (table : SubstituteTable) (written : Written) : Step → Written
  | .property accessed =>
      .text <|
        match table.property? accessed with
        | some substitute => substitute.readText written.plain
        | none => written.member accessed
  | .index inside => .text (written.object ++ "[" ++ inside ++ "]")
  | .method accessed operands =>
      .text <|
        match table.method? accessed with
        | some substitute => substitute.callText written.plain operands
        | none => Rule.functionCall (written.member accessed) operands
  | .call operands => .text (Rule.functionCall written.callee operands)

end Written

def written (table : SubstituteTable) (base : Written) (steps : List Step) : Written :=
  steps.foldl (Written.next table) base

end Chain

/-! ## Chains in a tree -/

def Node.HasOperands (options : Options) (call : Node) (texts : List String) : Prop :=
  ∃ operands, call.optionalItems "arguments" = .ok operands ∧
    List.Forall₂ (fun operand text => operand.form.isText = true ∧
      (render options operand (.within call)).outcome = .ok text) operands texts

structure Node.IsAccess (node : Node) : Prop where
  kind : node.kind = "MemberExpression"
  nameless : node.name = ""
  noCallee : node.field "callee" = .null
  noArguments : node.field "arguments" = .null

structure Node.IsCall (node : Node) : Prop where
  kind : node.kind = "CallExpression"
  nameless : node.name = ""
  noObject : node.field "object" = .null

theorem Node.IsAccess.known {node : Node} (isAccess : node.IsAccess) :
    Construct.ofKind? node.kind = some .member := by
  rw [isAccess.kind]
  rfl

theorem Node.IsCall.known {node : Node} (isCall : node.IsCall) :
    Construct.ofKind? node.kind = some .call := by
  rw [isCall.kind]
  rfl

/-- A call of what yields a text yields a text. -/
theorem Node.IsCall.form {node callee : Node} (isCall : node.IsCall)
    (held : node.field "callee" = .node callee) (form : callee.form = .text) :
    node.form = .text := by
  have called : (node.field "callee").form = .text := by rw [held, Value.form, form]
  rw [Node.form_eq isCall.known]
  simp only [Construct.form, called]
  rfl

/-- Whether a node is a chain. The call of a property is a step of its own, never a property
with a call after it. -/
inductive Chain.IsAt (options : Options) (base : Written) : List Step → Node → Prop where
  | name {node : Node} {name : String} (kind : node.kind = "Identifier")
      (named : node.field "name" = .text name) (something : name ≠ "")
      (starts : base = .name name) : IsAt options base [] node
  | self {node : Node} (kind : node.kind = "ThisExpression") (nameless : node.name = "")
      (starts : base = .text Naming.selfReference) : IsAt options base [] node
  | property {steps : List Step} {inner node : Node} {name : String}
      (isInner : IsAt options base steps inner) (isAccess : node.IsAccess)
      (object : node.field "object" = .node inner) (accesses : node.Accesses name) :
      IsAt options base (steps ++ [Step.property name]) node
  | index {steps : List Step} {inner node : Node} {value : Value} {text : String}
      (isInner : IsAt options base steps inner) (isAccess : node.IsAccess)
      (object : node.field "object" = .node inner) (computed : node.flag "computed" = true)
      (property : node.field? "property" = some value)
      (rendered : (render options value (.within node)).outcome = .ok text) :
      IsAt options base (steps ++ [Step.index text]) node
  | method {steps : List Step} {inner access node : Node} {name : String} {texts : List String}
      (isInner : IsAt options base steps inner) (isCall : node.IsCall)
      (callee : node.field "callee" = .node access)
      (object : access.field "object" = .node inner) (accesses : access.Accesses name)
      (operands : node.HasOperands options texts) :
      IsAt options base (steps ++ [Step.method name texts]) node
  | call {steps : List Step} {inner node : Node} {texts : List String}
      (isInner : IsAt options base steps inner) (isCall : node.IsCall)
      (callee : node.field "callee" = .node inner)
      (noMethod : inner.kind = "MemberExpression" → inner.flag "computed" = true)
      (operands : node.HasOperands options texts) :
      IsAt options base (steps ++ [Step.call texts]) node

/-! ## Texts of calls -/

section Operands

variable {options : Options} {node : Node} {texts : List String}

theorem Node.HasOperands.writes (operands : node.HasOperands options texts)
    {together : List Layout → Layout} {text : String}
    (fills : ∀ layouts, List.Forall₂ (Layout.Writes (render options)) layouts texts →
      (together layouts).Writes (render options) text) :
    (Layout.optionalItems node "arguments" together).Writes (render options) text := by
  obtain ⟨items, listed, all⟩ := operands
  unfold Layout.optionalItems
  rw [listed, Layout.writes_shaped_iff]
  exact ⟨items, rfl, fills _ (Layout.writes_slots _ (all.imp fun _ _ held => held.2))⟩

theorem Node.HasOperands.yield (operands : node.HasOperands options texts) :
    (node.field "arguments").itemsYieldText = true := by
  obtain ⟨items, listed, all⟩ := operands
  rw [Node.itemsYieldText_eq listed]
  exact List.all_eq_true.mpr ((List.forall₂_and_left _ _).mp all).1

theorem Node.HasOperands.operandsYieldText (operands : node.HasOperands options texts)
    {access : Node} (callee : node.field "callee" = .node access)
    (receiver : (access.field "object").form = .text) : node.operandsYieldText = true := by
  have object : node.calledObject = access.field "object" := by
    unfold Node.calledObject
    rw [callee]
  unfold Node.operandsYieldText
  rw [object, receiver, operands.yield]
  rfl

/-- The call that takes the place of a method call has the texts of the receiver and of the
arguments. -/
theorem Layout.writes_substituted {access : Node} (callee : node.field "callee" = .node access)
    {object : Value} (receiver : access.field? "object" = some object)
    (form : object.form = .text) {text : String}
    (rendered : (render options object (.within access)).outcome = .ok text)
    (operands : node.HasOperands options texts) {substitute : Substitute}
    (takes : substitute.takesObject = false) :
    (substituted node substitute).Writes (render options) (substitute.callText text texts) := by
  have slot : (callReceiver node).Writes (render options) text := by
    simp only [callReceiver, Layout.receiver, writes_needed_iff, writes_shaped_iff]
    exact ⟨_, Node.field?_node callee, access, rfl, object, receiver, .visit rendered⟩
  have yield : node.operandsYieldText = true := by
    rw [← Node.field_of_field? receiver] at form
    exact operands.operandsYieldText callee form
  cases substitute with
  | receiverFirst function =>
      have spelled : (Substitute.receiverFirst function).callText text texts =
          function ++ "(" ++ (text ++ (Text.joined (texts.map (", " ++ ·)) ++ (")" ++ ""))) := by
        simp [Substitute.callText, Rule.functionCall, Rule.commaSeparated, Text.separatedBy_cons,
          String.append_assoc]
      have others := operands.writes fun _ all =>
        .around (.next (.word ", ")) (", " ++ ·) (fun _ _ writes => .next (.word _) writes) all
      rw [spelled, substituted, writes_wanting_iff]
      exact ⟨yield, .next (.word _) (.next slot (.next others (.next (.word _) (.word _))))⟩
  | receiverLast function =>
      have spelled : (Substitute.receiverLast function).callText text texts =
          function ++ "(" ++ (Text.joined (texts.map (· ++ ", ")) ++ (text ++ (")" ++ ""))) := by
        simp [Substitute.callText, Rule.functionCall, Rule.commaSeparated,
          Text.separatedBy_concat, String.append_assoc]
      have others := operands.writes fun _ all =>
        .around (.next · (.word ", ")) (· ++ ", ") (fun _ _ writes => .next writes (.word _)) all
      rw [spelled, substituted, writes_wanting_iff]
      exact ⟨yield, .next (.word _) (.next others (.next slot (.next (.word _) (.word _))))⟩
  | charAt =>
      have spelled : Substitute.charAt.callText text texts =
          "substr(" ++ (text ++ "") ++ (", " ++ (texts.headD "0" ++ (", 1)" ++ ""))) := by
        simp [Substitute.callText, Rule.functionCall, Rule.commaSeparated,
          Text.separatedBy_cons_cons, String.append_assoc]
      have index := operands.writes fun _ all => .firstOr "0" all
      rw [spelled]
      exact .swap (.next (.word _) (.next index (.next (.word _) (.word _))))
        (.next (.word _) (.next slot (.word _)))
  | constant known => exact .word known
  | propertyFunction function => cases takes

/-- A substitute that asks for a callee stops where there is none. -/
theorem Layout.write_substituted_of_noCallee {render : Renderer}
    (callee : node.field? "callee" = none) (operands : node.optionalItems "arguments" = .ok [])
    {substitute : Substitute} (takes : substitute.takesReceiver = true) :
    ((substituted node substitute).write render).outcome =
      .error (.missing (node.missing "callee")) := by
  have stop : callReceiver node = .stop (.missing (node.missing "callee")) := by
    simp only [callReceiver, needed, Node.require, callee]
  have items (together : List Layout → Layout) :
      optionalItems node "arguments" together = together [] := by
    simp only [optionalItems, operands, shaped]
    rfl
  -- Nothing before the callee stops: the words are written, and there are no arguments.
  have fails : (substituted node substitute).write render =
      .fail (.missing (node.missing "callee")) := by
    cases substitute with
    | receiverFirst function => simp [substituted, write_wanting, joined, stop, write]
    | receiverLast function => simp [substituted, write_wanting, joined, stop, items, write]
    | charAt => simp [substituted, joined, stop, items, firstOr, write]
    | constant text => cases takes
    | propertyFunction function => cases takes
  rw [fails]
  rfl

end Operands

/-! ## Which substitute is asked for -/

namespace Node.Accesses

variable {node : Node} {name : String}

theorem methodSubstitute?_eq (options : Options) (accesses : node.Accesses name) :
    Rule.methodSubstitute? options node = .ok (options.substitutes.method? name) := by
  unfold Rule.methodSubstitute?
  rw [if_pos accesses.kind, accesses.accessedName_eq]
  rfl

theorem propertySubstitute?_eq (options : Options) (accesses : node.Accesses name)
    {position : Position} (called : position.isCallee = false)
    (usable : position.parentIsUsable = true) (read : position.isTarget = false) :
    Rule.propertySubstitute? options node position =
      .ok (options.substitutes.property? name) := by
  unfold Rule.propertySubstitute? Position.checkParent
  rw [called, accesses.plain, usable, read, accesses.accessedName_eq]
  rfl

end Node.Accesses

/-- Nothing is asked for in the place of a callee that names no method. -/
theorem Rule.methodSubstitute?_of_noMethod (options : Options) {callee : Node}
    (noMethod : callee.kind = "MemberExpression" → callee.flag "computed" = true) :
    methodSubstitute? options callee = .ok none := by
  unfold methodSubstitute?
  split
  · next kind =>
      unfold Node.accessedName
      rw [noMethod kind]
      rfl
  · rfl

/-! ## One step of a chain -/

def Position.isBare (position : Position) : Bool :=
  position.isStatic || position.isCallee || position.isMemberProperty

/-- Whether a node is rendered at a position as a value, as an object or as a callee. A
connective that is handed down is the one that the node would choose itself. -/
structure Position.Suits (position : Position) (node : Node) : Prop where
  usable : position.parentIsUsable = true
  read : position.isTarget = false
  calm : position.inStatement = false
  called : position.isCallee = true → node.kind = "MemberExpression" → node.flag "computed" = true
  own : position.connective = none ∨ position.connective =
    (Value.node node).plainAccess?.map fun pair => Connective.between pair.1 pair.2

theorem Position.suits_within {parent : Node} (calm : parent.kind ≠ "ExpressionStatement")
    (read : parent.kind ≠ "UpdateExpression") (node : Node) :
    (Position.within parent).Suits node where
  usable := rfl
  read := beq_eq_false_iff_ne.mpr read
  calm := beq_eq_false_iff_ne.mpr calm
  called := fun impossible => absurd impossible Bool.false_ne_true
  own := .inl rfl

/-- What a chain is written as, wherever it stands. -/
structure Node.IsWritten (options : Options) (node : Node) (written : Chain.Written) : Prop where
  form : node.form = .text
  isStatic : (Value.node node).isStatic = written.isStatic
  text : ∀ position : Position, position.Suits node →
    (render options (.node node) position).outcome = .ok (written.spelled position.isBare)

namespace Node

theorem isStatic_eq_false {node : Node} (nameless : node.name = "") :
    (Value.node node).isStatic = false :=
  congrArg isStaticName nameless

theorem name_eq {node : Node} {name : String} (named : node.field "name" = .text name) :
    node.name = name := by
  unfold Node.name
  rw [named]
  rfl

theorem isWritten_name (options : Options) {node : Node} {name : String}
    (kind : node.kind = "Identifier") (named : node.field "name" = .text name)
    (something : name ≠ "") : node.IsWritten options (.name name) where
  form := Node.form_of_kind kind (by decide)
  isStatic := congrArg isStaticName (name_eq named)
  text position _ := by
    have known : Construct.ofKind? node.kind = some .identifier := by
      rw [kind]
      rfl
    have writes : (Construct.identifier.layout options node position).Writes (render options)
        ((Chain.Written.name name).spelled position.isBare) := by
      simp only [Construct.layout, name_eq named, if_neg something, Chain.Written.spelled]
      unfold Position.isBare
      cases position.isStatic || position.isCallee || position.isMemberProperty with
      | true => exact .word _
      | false => exact .word _
    rw [render_of_construct_writes known writes]
    rfl

theorem isWritten_self (options : Options) {node : Node} (kind : node.kind = "ThisExpression")
    (nameless : node.name = "") : node.IsWritten options (.text Naming.selfReference) where
  form := Node.form_of_kind kind (by decide)
  isStatic := isStatic_eq_false nameless
  text position _ := by
    have known : Construct.ofKind? node.kind = some .selfReference := by
      rw [kind]
      rfl
    rw [render_of_construct_writes known (.word _)]
    rfl

/-- The name of a member is bare; an empty one is left out, which makes no difference. -/
theorem render_memberName (options : Options) {node : Node} {name : String}
    (kind : node.kind = "Identifier") (named : node.field "name" = .text name)
    {position : Position} (isMember : position.isMemberProperty = true) :
    (render options (.node node) position).outcome = .ok name := by
  have known : Construct.ofKind? node.kind = some .identifier := by
    rw [kind]
    rfl
  by_cases nothing : name = ""
  · subst nothing
    refine render_of_lacking known (node.missing "name") ?_
    simp only [Construct.layout, name_eq named, if_true]
    rfl
  · have writes : (Construct.identifier.layout options node position).Writes (render options)
        name := by
      simp only [Construct.layout, name_eq named, if_neg nothing, isMember, Bool.or_true, if_true]
      exact .word _
    rw [render_of_construct_writes known writes]
    rfl

end Node

section Step

variable {options : Options} {inner node : Node} {written : Chain.Written}

/-- An access for which nothing is asked is laid out as one. -/
theorem Layout.writes_access {object property : Value} (held : node.field? "object" = some object)
    (found : node.field? "property" = some property) {position : Position}
    (nothing : Rule.propertySubstitute? options node position = .ok none) {text : String}
    (writes : (access node position object property).Writes (render options) text) :
    (Construct.member.layout options node position).Writes (render options) text := by
  simp only [Construct.layout, member, writes_needed_iff, writes_shaped_iff]
  exact ⟨object, held, property, found, none, nothing, writes⟩

namespace Node.IsWritten

theorem plain (isWritten : inner.IsWritten options written) {parent : Node}
    (kind : parent.kind = "MemberExpression") :
    (render options (.node inner) (.within parent)).outcome = .ok written.plain :=
  isWritten.text _ (Position.suits_within (by rw [kind]; decide) (by rw [kind]; decide) inner)

/-- An object is told by the access around it what it would choose itself. -/
theorem object (isWritten : inner.IsWritten options written) {member : Node}
    (kind : member.kind = "MemberExpression") :
    (render options (.node inner) (Rule.objectPosition member (.node inner))).outcome =
      .ok written.object := by
  have suits : (Rule.objectPosition member (.node inner)).Suits inner :=
    { Position.suits_within (by rw [kind]; decide) (by rw [kind]; decide) inner with
      own := .inr rfl }
  have bare : (Rule.objectPosition member (.node inner)).isBare = written.isStatic := by
    rw [← isWritten.isStatic]
    simp [Rule.objectPosition, Position.isBare, Position.within]
  rw [isWritten.text _ suits, bare]

theorem callee (isWritten : inner.IsWritten options written) {call : Node}
    (kind : call.kind = "CallExpression")
    (noMethod : inner.kind = "MemberExpression" → inner.flag "computed" = true) :
    (render options (.node inner) { Position.within call with isCallee := true }).outcome =
      .ok written.callee := by
  have suits : Position.Suits { Position.within call with isCallee := true } inner :=
    { Position.suits_within (by rw [kind]; decide) (by rw [kind]; decide) inner with
      called := fun _ => noMethod }
  rw [isWritten.text _ suits]
  simp [Position.isBare]

/-- An access for which nothing is asked is the object with its member. Its connective is the
same whether it is handed down or not. -/
theorem member (isWritten : inner.IsWritten options written) {name : String}
    (accesses : node.Accesses name) (held : node.field "object" = .node inner)
    {position : Position} (own : position.connective = none ∨ position.connective =
      (Value.node node).plainAccess?.map fun pair => Connective.between pair.1 pair.2)
    (nothing : Rule.propertySubstitute? options node position = .ok none) :
    (render options (.node node) position).outcome = .ok (written.member name) := by
  obtain ⟨property, found, identifier, named⟩ := accesses.property
  have known : Construct.ofKind? node.kind = some .member := by
    rw [accesses.kind]
    rfl
  have between : Connective.between (.node inner) (.node property) =
      Connective.classify written.isStatic (isStaticName name) :=
    congrArg₂ Connective.classify isWritten.isStatic (congrArg isStaticName (name_eq named))
  have chosen : position.connective.getD (Connective.between (.node inner) (.node property)) =
      Connective.classify written.isStatic (isStaticName name) := by
    rcases own with none | handed
    · rw [none, Option.getD_none, between]
    · have pair : (Value.node node).plainAccess? = some (.node inner, .node property) := by
        simp [Value.plainAccess?, accesses.kind, accesses.plain, field?_node held,
          field?_node found]
      rw [handed, pair, Option.map_some, Option.getD_some, between]
  have writes : (Layout.access node position (.node inner) (.node property)).Writes
      (render options) (written.member name) := by
    unfold Layout.access Chain.Written.member
    rw [accesses.plain, if_neg Bool.false_ne_true, chosen, String.append_assoc]
    exact .next (.visit (isWritten.object accesses.kind))
      (.next (.word _) (.visit (render_memberName options identifier named rfl)))
  rw [render_of_construct_writes known
    (Layout.writes_access (field?_node held) (field?_node found) nothing writes)]
  rfl

/-- A substitute for a read has the text of the object. One for calls asks for a callee, and
the read is left out. -/
theorem substitutedRead (isWritten : inner.IsWritten options written) (isAccess : node.IsAccess)
    (held : node.field "object" = .node inner) {property : Value}
    (found : node.field? "property" = some property) {position : Position}
    {substitute : Substitute}
    (asked : Rule.propertySubstitute? options node position = .ok (some substitute)) :
    (render options (.node node) position).outcome =
      .ok (substitute.readText written.plain) := by
  have layout : Construct.member.layout options node position =
      Layout.substituted node substitute := by
    simp only [Construct.layout, Layout.member, Layout.needed, require, field?_node held, found,
      asked, Layout.shaped]
  have lacking (takes : substitute.takesReceiver = true) :
      (render options (.node node) position).outcome = .ok "" := by
    refine render_of_lacking isAccess.known (node.missing "callee") ?_
    rw [layout]
    exact Layout.write_substituted_of_noCallee (field?_eq_none_iff.mpr isAccess.noCallee)
      (optionalItems_of_null isAccess.noArguments) takes
  have writing {text : String}
      (writes : (Layout.substituted node substitute).Writes (render options) text) :
      (render options (.node node) position).outcome = .ok text := by
    rw [render_of_construct_writes isAccess.known (layout ▸ writes)]
    rfl
  cases substitute with
  | propertyFunction function =>
      have slot : (Layout.receiver (.field "object") node).Writes (render options)
          written.plain := by
        simp only [Layout.receiver, Layout.writes_needed_iff]
        exact ⟨_, field?_node held, .visit (isWritten.plain isAccess.kind)⟩
      have spelled : (Substitute.propertyFunction function).readText written.plain =
          function ++ "(" ++ (written.plain ++ (")" ++ "")) := by
        simp [Substitute.readText, Rule.functionCall, Rule.commaSeparated, String.append_assoc]
      rw [spelled]
      exact writing (.next (.word _) (.next slot (.next (.word _) (.word _))))
  | constant text => exact writing (.word _)
  | receiverFirst function => exact lacking rfl
  | receiverLast function => exact lacking rfl
  | charAt => exact lacking rfl

/-- The read of a property is its substitute, or the object with the property. -/
theorem property (isWritten : inner.IsWritten options written) {name : String}
    (isAccess : node.IsAccess) (held : node.field "object" = .node inner)
    (accesses : node.Accesses name) :
    node.IsWritten options (written.next options.substitutes (.property name)) where
  form := Node.form_of_kind isAccess.kind (by decide)
  isStatic := isStatic_eq_false isAccess.nameless
  text position suits := by
    have called : position.isCallee = false := by
      refine Bool.eq_false_iff.mpr fun called => ?_
      have computed := suits.called called isAccess.kind
      rw [accesses.plain] at computed
      cases computed
    have asked := accesses.propertySubstitute?_eq options called suits.usable suits.read
    simp only [Chain.Written.next, Chain.Written.spelled]
    cases found : options.substitutes.property? name with
    | none => exact isWritten.member accesses held suits.own (asked.trans (congrArg _ found))
    | some substitute =>
        obtain ⟨property, present, -⟩ := accesses.property
        exact isWritten.substitutedRead isAccess held (field?_node present)
          (asked.trans (congrArg _ found))

/-- The read of an item is the object with the index. -/
theorem index (isWritten : inner.IsWritten options written) (isAccess : node.IsAccess)
    (held : node.field "object" = .node inner) (computed : node.flag "computed" = true)
    {value : Value} (found : node.field? "property" = some value) {inside : String}
    (rendered : (render options value (.within node)).outcome = .ok inside) :
    node.IsWritten options (written.next options.substitutes (.index inside)) where
  form := Node.form_of_kind isAccess.kind (by decide)
  isStatic := isStatic_eq_false isAccess.nameless
  text position suits := by
    have nothing : Rule.propertySubstitute? options node position = .ok none := by
      unfold Rule.propertySubstitute?
      rw [computed, Bool.or_true, if_pos rfl]
    have writes : (Layout.access node position (.node inner) value).Writes (render options)
        (written.object ++ ("[" ++ (inside ++ ("]" ++ "")))) := by
      unfold Layout.access
      rw [if_pos computed]
      exact .next (.visit (isWritten.object isAccess.kind))
        (.next (.word _) (.next (.visit rendered) (.next (.word _) (.word _))))
    rw [render_of_construct_writes isAccess.known
      (Layout.writes_access (field?_node held) found nothing writes)]
    simp [Chain.Written.next, Chain.Written.spelled, Fragment.terminated,
      Construct.owesTerminator, String.append_assoc]

end Node.IsWritten

/-- A call for which nothing is asked is its callee with the arguments. -/
theorem Node.IsCall.render (isCall : node.IsCall) (held : node.field "callee" = .node inner)
    (form : inner.form = .text)
    (nothing : Rule.methodSubstitute? options inner = .ok none) {function : String}
    (callee : (PhpRendering.render options (.node inner)
      { Position.within node with isCallee := true }).outcome = .ok function)
    {texts : List String} (operands : node.HasOperands options texts) {position : Position}
    (usable : position.parentIsUsable = true) (calm : position.inStatement = false) :
    (PhpRendering.render options (.node node) position).outcome =
      .ok (Rule.functionCall function texts) := by
  have layout : Construct.call.layout options node position =
      .joined [.visit (.field "callee") (.node inner) { Position.within node with isCallee := true },
        .word "(", .arguments node, .word ")", .empty] := by
    have called : (Value.node inner).form = .text := form
    simp only [Construct.layout, Layout.call, Layout.needed, Node.require, Node.field?_node held,
      Layout.shaped, Value.asNode, nothing, Layout.continued_of_form called, Position.checkParent,
      usable, if_true]
  have owes : Construct.call.owesTerminator options node position = false := by
    simp [Construct.owesTerminator, held, Value.node?, nothing, calm]
  have writes : (Construct.call.layout options node position).Writes (PhpRendering.render options)
      (function ++ ("(" ++ (Text.separatedBy ", " texts ++ (")" ++ ("" ++ ""))))) := by
    have written : (Layout.arguments node).Writes (PhpRendering.render options)
        (Text.separatedBy ", " texts) :=
      Layout.writes_wanting_iff.mpr
        ⟨operands.yield, operands.writes fun _ all => .separatedBy _ all⟩
    rw [layout]
    exact .next (.visit callee) (.next (.word _)
      (.next written (.next (.word _) (.next (.word _) (.word _)))))
  rw [render_of_construct_writes isCall.known writes, owes]
  simp [Rule.functionCall, Rule.commaSeparated, Fragment.terminated, String.append_assoc]

/-- A substitute for a call has the texts of the receiver and of the arguments. One for reads
asks for an object, and the call is left out. -/
theorem Node.IsWritten.substitutedCall (isWritten : inner.IsWritten options written)
    {access : Node} (kind : access.kind = "MemberExpression") (isCall : node.IsCall)
    (callee : node.field "callee" = .node access) (held : access.field "object" = .node inner)
    {texts : List String} (operands : node.HasOperands options texts) {substitute : Substitute}
    (asked : Rule.methodSubstitute? options access = .ok (some substitute)) (position : Position) :
    (render options (.node node) position).outcome =
      .ok (substitute.callText written.plain texts) := by
  have layout : Construct.call.layout options node position =
      Layout.substituted node substitute := by
    simp only [Construct.layout, Layout.call, Layout.needed, require, field?_node callee,
      Layout.shaped, Value.asNode, asked]
  have owes : Construct.call.owesTerminator options node position = false := by
    simp [Construct.owesTerminator, callee, Value.node?, asked]
  cases takes : substitute.takesObject with
  | false =>
      have writes := Layout.writes_substituted callee (field?_node held) isWritten.form
        (isWritten.plain kind) operands takes
      rw [render_of_construct_writes isCall.known (layout ▸ writes), owes]
      rfl
  | true =>
      have object : node.field? "object" = none := field?_eq_none_iff.mpr isCall.noObject
      cases substitute with
      | propertyFunction function =>
          refine render_of_lacking isCall.known (node.missing "object") ?_
          rw [layout]
          have stop : Layout.receiver (.field "object") node =
              .stop (.missing (node.missing "object")) := by
            simp only [Layout.receiver, Layout.needed, require, object]
          simp only [Layout.substituted, Layout.joined, stop, Layout.write,
            Emission.done_andThen, Emission.fail_andThen]
          rfl
      | receiverFirst function => cases takes
      | receiverLast function => cases takes
      | charAt => cases takes
      | constant text => cases takes

namespace Node.IsWritten

/-- The call of a method is its substitute, or the object with the method and the arguments. -/
theorem method (isWritten : inner.IsWritten options written) {access : Node} {name : String}
    (isCall : node.IsCall) (callee : node.field "callee" = .node access)
    (held : access.field "object" = .node inner) (accesses : access.Accesses name)
    {texts : List String} (operands : node.HasOperands options texts) :
    node.IsWritten options (written.next options.substitutes (.method name texts)) where
  form := isCall.form callee (Node.form_of_kind accesses.kind (by decide))
  isStatic := isStatic_eq_false isCall.nameless
  text position suits := by
    have asked := accesses.methodSubstitute?_eq options
    simp only [Chain.Written.next, Chain.Written.spelled]
    cases found : options.substitutes.method? name with
    | none =>
        rw [found] at asked
        exact isCall.render callee (Node.form_of_kind accesses.kind (by decide)) asked
          (isWritten.member accesses held (.inl rfl) rfl) operands suits.usable suits.calm
    | some substitute =>
        rw [found] at asked
        exact isWritten.substitutedCall accesses.kind isCall callee held operands asked position

/-- Any other call is the callee with the arguments. -/
theorem call (isWritten : inner.IsWritten options written) (isCall : node.IsCall)
    (held : node.field "callee" = .node inner)
    (noMethod : inner.kind = "MemberExpression" → inner.flag "computed" = true)
    {texts : List String} (operands : node.HasOperands options texts) :
    node.IsWritten options (written.next options.substitutes (.call texts)) where
  form := isCall.form held isWritten.form
  isStatic := isStatic_eq_false isCall.nameless
  text _ suits :=
    isCall.render held isWritten.form (Rule.methodSubstitute?_of_noMethod options noMethod)
      (isWritten.callee isCall.kind noMethod) operands suits.usable suits.calm

end Node.IsWritten

end Step

/-! ## All steps -/

namespace Chain

theorem written_concat (table : SubstituteTable) (base : Written) (steps : List Step)
    (step : Step) : written table base (steps ++ [step]) =
      (written table base steps).next table step := by
  unfold written
  rw [List.foldl_append]
  rfl

/-- Every node of a chain is written as the fold over the steps up to it. -/
theorem IsAt.isWritten {options : Options} {base : Written} {steps : List Step} {node : Node}
    (isAt : IsAt options base steps node) :
    node.IsWritten options (written options.substitutes base steps) := by
  induction isAt with
  | name kind named something starts =>
      rw [starts]
      exact Node.isWritten_name options kind named something
  | self kind nameless starts =>
      rw [starts]
      exact Node.isWritten_self options kind nameless
  | property _ isAccess object accesses ih =>
      rw [written_concat]
      exact ih.property isAccess object accesses
  | index _ isAccess object computed found rendered ih =>
      rw [written_concat]
      exact ih.index isAccess object computed found rendered
  | method _ isCall callee object accesses operands ih =>
      rw [written_concat]
      exact ih.method isCall callee object accesses operands
  | call _ isCall callee noMethod operands ih =>
      rw [written_concat]
      exact ih.call isCall callee noMethod operands

/-- The text of a chain is a left fold over its steps, wherever the chain is read. An empty
position, and that of an operand, ask for the plain text. -/
theorem IsAt.render_eq_fold {options : Options} {base : Written} {steps : List Step} {node : Node}
    (isAt : IsAt options base steps node) {position : Position} (suits : position.Suits node) :
    (render options (.node node) position).outcome =
      .ok ((steps.foldl (Written.next options.substitutes) base).spelled position.isBare) :=
  isAt.isWritten.text position suits

def accessNode (object : Node) (name : String) : Node :=
  let property : Node := ⟨⟨0, []⟩, "Identifier", [("name", .text name)], none⟩
  ⟨⟨0, []⟩, "MemberExpression", [("object", .node object), ("property", .node property)], none⟩

theorem accessNode_accesses (object : Node) (name : String) :
    (accessNode object name).Accesses name where
  kind := rfl
  plain := rfl
  property := ⟨_, rfl, rfl, rfl⟩

theorem IsAt.accessNode {options : Options} {base : Written} {steps : List Step} {object : Node}
    (isAt : IsAt options base steps object) (name : String) :
    IsAt options base (steps ++ [Step.property name]) (accessNode object name) :=
  .property isAt ⟨rfl, rfl, rfl, rfl⟩ rfl (accessNode_accesses object name)

/-- The second access hands its connective down to the first one, and a substitute takes the
place of the method. -/
theorem staticChain_rendered :
    let base : Node := ⟨⟨0, []⟩, "Identifier", [("name", .text "A")], none⟩
    let chain := accessNode (accessNode base "B") "c"
    let trimmed : Node :=
      ⟨⟨0, []⟩, "CallExpression", [("callee", .node (accessNode chain "trim"))], none⟩
    IsAt {} (.name "A") [.property "B", .property "c", .method "trim" []] trimmed ∧
      Position.Suits {} trimmed ∧
      (render {} (.node chain) {}).outcome = .ok "A\\B->c" ∧
      (render {} (.node trimmed) {}).outcome = .ok "trim(A\\B->c)" := by
  intro base chain trimmed
  have isBase : IsAt {} (.name "A") [] base := .name rfl rfl (by decide) rfl
  have isChain : IsAt {} (.name "A") [.property "B", .property "c"] chain :=
    (isBase.accessNode "B").accessNode "c"
  have isTrimmed : IsAt {} (.name "A") [.property "B", .property "c", .method "trim" []] trimmed :=
    .method isChain ⟨rfl, rfl, rfl⟩ rfl rfl (accessNode_accesses chain "trim") ⟨_, rfl, .nil⟩
  have suits (node : Node) : Position.Suits {} node :=
    ⟨rfl, rfl, rfl, fun impossible => absurd impossible Bool.false_ne_true, .inl rfl⟩
  refine ⟨isTrimmed, suits trimmed, ?_, ?_⟩
  · exact isChain.render_eq_fold (suits chain)
  · exact isTrimmed.render_eq_fold (suits trimmed)

end Chain

end PhpRendering
