import PhpRendering.Proofs.ObjectMention

/-!
# The casing of a literal that is accessed

Whether a node is named like a class is told by its name, and a node without one is named
by its value. A literal has a value, so its casing chooses the connective behind it, as the
casing of an identifier does. Apart from this connective nothing in a text depends on the
literal that is the object of an access but the text of the literal itself.
-/

namespace PhpRendering

/-! ## Receivers -/

/-- The call of a substitute mentions a literal that is the receiver once, or not at all. -/
theorem Substitute.exists_callText (substitute : Substitute) (texts : List String) :
    ∃ mention : Mention, ∀ property literal,
      mention.text property literal = substitute.callText literal.spelling texts := by
  have comma (text : String) : ", " ++ text = "," ++ (" " ++ text) :=
    @String.append_assoc "," " " text
  cases substitute with
  | receiverFirst function =>
      cases texts with
      | nil =>
          refine ⟨.once (function ++ "(") (.fixed ')' (by decide)) "", fun property literal => ?_⟩
          simp [Mention.text, Link.text, callText, Rule.functionCall, Rule.commaSeparated,
            Text.separatedBy]
      | cons first rest =>
          refine ⟨.once (function ++ "(") (.fixed ',' (by decide))
            (" " ++ Rule.commaSeparated (first :: rest) ++ ")"), fun property literal => ?_⟩
          simp [Mention.text, Link.text, callText, Rule.functionCall, Rule.commaSeparated,
            Text.separatedBy_cons_cons, comma, String.append_assoc]
  | receiverLast function =>
      refine ⟨.once (function ++ "(" ++ Text.joined (texts.map (· ++ ", ")))
        (.fixed ')' (by decide)) "", fun property literal => ?_⟩
      simp [Mention.text, Link.text, callText, Rule.functionCall, Rule.commaSeparated,
        Text.separatedBy_concat, String.append_assoc]
  | charAt =>
      refine ⟨.once "substr(" (.fixed ',' (by decide)) (" " ++ texts.headD "0" ++ ", 1)"),
        fun property literal => ?_⟩
      simp [Mention.text, Link.text, callText, Rule.functionCall, Rule.commaSeparated,
        Text.separatedBy_cons_cons, comma, String.append_assoc]
  | constant text => exact ⟨.absent text, fun _ _ => rfl⟩
  | propertyFunction function => exact ⟨.absent "", fun _ _ => rfl⟩

/-- Arguments that can be read have texts. -/
theorem Node.exists_hasOperands (options : Options) {call : Node}
    (operands : call.Fulfils ⟨"arguments", .nodes, .rendered⟩) :
    ∃ texts, call.HasOperands options texts := by
  obtain ⟨items, listed⟩ := operands.optionalItems (.inl rfl)
  have rendered : ∀ item ∈ items, ∃ text, item.form.isText = true ∧
      (render options item (.within call)).outcome = .ok text := by
    intro item inside
    rcases Node.optionalItems_eq_ok listed with rfl | given
    · cases inside
    · obtain ⟨child, rfl, roles⟩ := operands.node_of_item (.inl rfl) given inside
      obtain ⟨text, outcome⟩ :=
        (render_isSafe options roles (Position.within_isUsable call)).outcome
      exact ⟨text, Form.isText_iff.mpr (Node.Readable.form_eq roles), outcome⟩
  choose! text rendered using rendered
  exact ⟨items.map text, items, listed,
    List.forall₂_map_right_iff.mpr (List.forall₂_same.mpr rendered)⟩

section Receiver

variable {options : Options} {outer called object : Node} {position : Position}

theorem Node.HasOperands.put {node : Node} {texts : List String}
    (operands : node.HasOperands options texts) {new : Value} {name : String} {more : List Step}
    (within : Position.within (node.put new name more) = Position.within node)
    (beside : "arguments" ≠ name) : (node.put new name more).HasOperands options texts := by
  obtain ⟨items, listed, all⟩ := operands
  refine ⟨items, ?_, within ▸ all⟩
  unfold Node.optionalItems at listed ⊢
  rwa [Node.flag_put_of_ne beside, Node.field_put_of_ne beside]

variable (heldCalled : outer.field "callee" = .node called)
include heldCalled

theorem Node.callee_put (literal : Node) :
    (outer.put (.node literal) "callee" [.member "object"]).field "callee" =
      .node (called.put (.node literal) "object" []) := by
  rw [outer.put_field, if_pos rfl, heldCalled]
  rfl

variable (readable : outer.Readable) (usable : position.IsUsable)
include readable usable

/-- A node that is replaced by a call mentions a literal that is the receiver. -/
theorem Node.replaced_receiver_mentionsLiteral {substitute : Substitute}
    (operands : outer.Fulfils ⟨"arguments", .nodes, .rendered⟩)
    (own : outer.IsReplaced options position substitute)
    (replaced : ∀ literal : Node, (outer.put (.node literal) "callee" [.member "object"]).IsReplaced
      options position substitute) (property : Value) :
    MentionsLiteral options property
      (fun literal => .node (outer.put (.node literal) "callee" [.member "object"]))
      fun _ => position := by
  have leads : LeadsToField "object" [.member "callee", Step.member "object"] := .member .here
  have within (literal : Node) := @Node.within_put outer _ _ leads (.node literal)
  cases takes : substitute.takesObject with
  | false =>
      obtain ⟨texts, operandTexts⟩ := Node.exists_hasOperands options operands
      obtain ⟨mention, spelled⟩ := substitute.exists_callText texts
      refine ⟨mention, fun literal isLiteral => ?_⟩
      rw [spelled]
      exact (replaced literal).outcome_of_writes <| Layout.writes_substituted
        (Node.callee_put heldCalled literal) (Node.field?_node (called.field_put_self _ _))
        isLiteral.form (render_literal options isLiteral.kind _)
        (operandTexts.put (within literal) (by decide)) takes
  | true =>
      have beside : "callee" ∉ substitute.operandFields := by
        cases substitute with
        | propertyFunction function => simp [Substitute.operandFields]
        | _ => cases takes
      obtain ⟨text, outcome⟩ := (render_isSafe options readable usable).outcome
      exact ⟨.absent text, fun literal _ => ((replaced literal).outcome_congr own
        (Layout.substituted_put (within literal) beside)).trans outcome⟩

/-- An access that has a substitute mentions a literal that is the object of a callee. -/
theorem Node.access_receiver_mentionsLiteral (known : Construct.ofKind? outer.kind = some .member)
    (asked : (outer.substitute? options position).isSome = true) (property : Value) :
    MentionsLiteral options property
      (fun literal => .node (outer.put (.node literal) "callee" [.member "object"]))
      fun _ => position := by
  have leads : LeadsToField "object" [.member "callee", Step.member "object"] := .member .here
  have parts := (Node.readable_iff_parts known).mp readable .access (List.mem_singleton_self _)
  have beside {field : String} (other : field ≠ "callee") (literal : Node) :
      (outer.put (.node literal) "callee" [.member "object"]).field? field = outer.field? field :=
    Node.field?_put_of_ne other
  by_cases complete : outer.field? "object" = none ∨ outer.field? "property" = none
  · refine ⟨.absent "", fun literal _ => render_of_incomplete known ?_⟩
    rwa [beside (by decide), beside (by decide)]
  · obtain ⟨object, foundObject⟩ := Option.ne_none_iff_exists'.mp fun none => complete (.inl none)
    obtain ⟨accessed, found⟩ := Option.ne_none_iff_exists'.mp fun none => complete (.inr none)
    cases asks : Rule.propertySubstitute? options outer position with
    | error crash => simp [Node.substitute?, known, asks] at asked
    | ok substitute =>
        rw [Node.substitute?_of_member known asks] at asked
        obtain ⟨substitute, rfl⟩ := Option.isSome_iff_exists.mp asked
        refine Node.replaced_receiver_mentionsLiteral heldCalled readable usable
          (parts _ (by decide)) (.of_access known foundObject found asks) (fun literal => ?_) property
        exact .of_access known ((beside (by decide) literal).trans foundObject)
          ((beside (by decide) literal).trans found)
          ((Rule.propertySubstitute?_put leads (.node literal) options position).trans asks)

/-- A call or an access that has a substitute mentions a literal that is the receiver. -/
theorem Node.receiver_mentionsLiteral (asked : (outer.substitute? options position).isSome = true)
    (property : Value) :
    MentionsLiteral options property
      (fun literal => .node (outer.put (.node literal) "callee" [.member "object"]))
      fun _ => position := by
  rcases Node.known_of_substitute? asked with known | known
  · have parts := (Node.readable_iff_parts known).mp readable .call (List.mem_singleton_self _)
    cases found : Rule.methodSubstitute? options called with
    | error crash => simp [Node.substitute?, known, heldCalled, Value.node?, found] at asked
    | ok substitute =>
        rw [Node.substitute?_of_call known heldCalled found] at asked
        obtain ⟨substitute, rfl⟩ := Option.isSome_iff_exists.mp asked
        refine Node.replaced_receiver_mentionsLiteral heldCalled readable usable
          (parts _ (by decide)) (.of_call known heldCalled found) (fun literal => ?_) property
        exact .of_call known (Node.callee_put heldCalled literal)
          ((Rule.methodSubstitute?_put .here (.node literal) options).trans found)
  · exact Node.access_receiver_mentionsLiteral heldCalled readable usable known asked property

end Receiver

/-! ## Trees -/

/-- A connective that was chosen elsewhere, or else the one of the access, is a link. -/
theorem Connective.exists_link (chosen : Option Connective) (property : Value) :
    ∃ (link : Link) (tail : String), ∀ literal : Node,
      (chosen.getD (Connective.between (.node literal) property)).text =
        link.text property literal ++ tail := by
  cases chosen with
  | none => exact ⟨.connective, "", fun _ => String.append_empty.symm⟩
  | some chosen =>
      cases chosen with
      | namespaceMember => exact ⟨.fixed '\\' (by decide), "", fun _ => rfl⟩
      | staticMember => exact ⟨.fixed ':' (by decide), ":", fun _ => rfl⟩
      | instanceMember => exact ⟨.fixed '-' (by decide), ">", fun _ => rfl⟩

section Trees

variable {options : Options} {access object : Node} (kind : access.kind = "MemberExpression")
  (held : access.field "object" = .node object)
include kind held

/-- A node that looks at the literal mentions it. -/
theorem Node.LooksAt.mentionsLiteral {node : Node} {position : Position} {path : List Step}
    (looks : node.LooksAt options position path) (has : (Value.node node).HasObjectAt access path)
    (readable : node.Readable) (usable : position.IsUsable) :
    MentionsLiteral options (access.field "property")
      (fun literal => Value.put (.node literal) path (.node node)) fun _ => position := by
  have knownAccess : Construct.ofKind? access.kind = some .member := by
    rw [kind]
    rfl
  cases looks with
  | object known =>
      rcases has.kind_of_object with rfl | declared
      · obtain ⟨link, tail, linked⟩ :=
          Connective.exists_link position.connective (node.field "property")
        exact Node.access_mentionsLiteral knownAccess held readable usable
          (fun _ => position.connective) link tail fun literal _ => linked literal
      · rw [declared] at known
        rcases known with impossible | impossible <;> cases impossible
  | access known plain heldInner kindInner =>
      have deeper : (node.field "object").HasObjectAt access [.member "object"] :=
        has.down (by simp)
      rw [heldInner] at deeper
      rcases deeper.kind_of_object with rfl | declared
      · exact Node.around_mentionsLiteral known heldInner knownAccess held readable usable plain
      · exact absurd (kindInner.symm.trans declared) (by decide)
  | receiver asked =>
      have deeper : (node.field "callee").HasObjectAt access [.member "object"] :=
        has.down (by simp)
      obtain ⟨called, heldCalled⟩ : ∃ called, node.field "callee" = .node called := by
        generalize node.field "callee" = callee at deeper
        cases deeper <;> exact ⟨_, rfl⟩
      exact Node.receiver_mentionsLiteral heldCalled readable usable asked _

/-- Whatever the node is through which the way leads, it mentions the literal. -/
theorem Value.HasObjectAt.mentionsLiteral (options : Options) (node : Node) (position : Position)
    (readable : node.Readable) (usable : position.IsUsable) {path : List Step}
    (has : (Value.node node).HasObjectAt access path) :
    MentionsLiteral options (access.field "property")
      (fun literal => Value.put (.node literal) path (.node node)) fun _ => position := by
  -- The induction is on what is rendered: a declaration made of a function is no subtree.
  induction node, position using Node.visit_induction options generalizing path with
  | step node position ih =>
      by_cases looks : node.LooksAt options position path
      · exact looks.mentionsLiteral kind held has readable usable
      · obtain ⟨name, more, rfl⟩ : ∃ name more, path = .member name :: more := by
          cases has <;> exact ⟨_, _, rfl⟩
        have something : access.field "object" ≠ .null := by
          rw [held]
          exact Value.noConfusion
        refine Node.put_mentionsLiteral kind something readable usable has looks ?_
        intro source child place rest visits inside
        obtain ⟨⟨_, ⟨⟩, childReadable⟩, fine⟩ := Node.tasks_safe options readable usable _ visits
        exact ih source child place visits childReadable fine inside

end Trees

/-! ## Texts that differ in a part -/

/-- Whether two texts are the same but for a part that each of them has in its own way. -/
def Text.SameBut (own other text textToo : String) : Prop :=
  text = textToo ∨
    ∃ before after, text = before ++ own ++ after ∧ textToo = before ++ other ++ after

/-- Texts that are the same but for a part have the letters that the parts do not share only
in the parts. -/
theorem Text.SameBut.count_eq {own other text textToo : String}
    (same : SameBut own other text textToo) (apart : text ≠ textToo) (letter : Char) :
    text.toList.count letter + other.toList.count letter =
      textToo.toList.count letter + own.toList.count letter := by
  obtain ⟨before, after, rfl, rfl⟩ := same.resolve_left apart
  simp only [String.toList_append, List.count_append]
  omega

/-- The connectives of objects of different casing end in different letters. -/
theorem Connective.classify_ends : ∀ casing other property : Bool, casing ≠ other →
    (classify casing property).text.toList.getLast? ≠
      (classify other property).text.toList.getLast? := by
  decide

/-- One of these letters is not in both connectives. -/
theorem Connective.classify_letters : ∀ casing other property : Bool, casing ≠ other →
    (classify casing property).text.toList.count (if property then ':' else '>') ≠
      (classify other property).text.toList.count (if property then ':' else '>') := by
  decide

theorem Connective.isSome_getLast? (connective : Connective) :
    connective.text.toList.getLast?.isSome = true := by
  cases connective <;> rfl

/-- What stands before the connective is told by the text, so that literals of different casing
have different texts. -/
theorem Mention.connected_text_ne {property : Value} {literal other : Node}
    (different : (Value.node literal).isStatic ≠ (Value.node other).isStatic)
    (before after : String) :
    (Mention.once before .connective after).text property literal ≠
      (Mention.once before .connective after).text property other := by
  intro equal
  have letters := congrArg String.toList equal
  simp only [text, Link.text, String.toList_append, List.append_left_inj] at letters
  have last := congrArg List.getLast? letters
  simp only [List.getLast?_append, Option.or_of_isSome (Connective.isSome_getLast? _)] at last
  exact Connective.classify_ends _ _ _ different last

/-- Two literals are mentioned in texts that are the same but for the literals unless the
connective behind them is written and tells them apart. -/
theorem Mention.sameBut_iff (mention : Mention) (property : Value) (literal other : Node) :
    Text.SameBut literal.spelling other.spelling (mention.text property literal)
        (mention.text property other) ↔
      (mention.isConnected = true →
        (Value.node literal).isStatic = (Value.node other).isStatic) := by
  cases mention with
  | absent text => exact ⟨fun _ => nofun, fun _ => .inl rfl⟩
  | once before link after =>
      cases link with
      | fixed letter calm =>
          refine ⟨fun _ => nofun, fun _ => .inr ⟨before, String.singleton letter ++ after, ?_, ?_⟩⟩
          · exact String.append_assoc
          · exact String.append_assoc
      | connective =>
          constructor
          · intro same _
            by_contra different
            have counts := Connective.classify_letters _ _ property.isStatic different
            have letters := same.count_eq (Mention.connected_text_ne different before after)
              (if property.isStatic then ':' else '>')
            simp only [text, Link.text, Connective.between, String.toList_append,
              List.count_append] at letters
            omega
          · intro casing
            have between : Connective.between (.node literal) property =
                Connective.between (.node other) property := by
              unfold Connective.between
              rw [casing rfl]
            refine .inr ⟨before, (Connective.between (.node other) property).text ++ after, ?_, ?_⟩
            · rw [← between]
              exact String.append_assoc
            · exact String.append_assoc

def quoted (text : String) : Node :=
  ⟨⟨0, []⟩, "Literal", [("value", .text text), ("raw", .text ("\"" ++ text ++ "\""))], none⟩

theorem quoted_isTextLiteral (text : String) : (quoted text).IsTextLiteral :=
  ⟨rfl, rfl⟩

/-- The connective is written when the texts of literals of different casing are not the same
but for the literals. -/
theorem Mention.isConnected_iff (mention : Mention) (property : Value) :
    mention.isConnected = true ↔
      ¬ Text.SameBut (quoted "a").spelling (quoted "A").spelling
        (mention.text property (quoted "a")) (mention.text property (quoted "A")) := by
  have different : (Value.node (quoted "a")).isStatic ≠ (Value.node (quoted "A")).isStatic := by
    decide
  rw [mention.sameBut_iff]
  constructor
  · exact fun connected same => different (same connected)
  · exact fun unlike => by_contra fun plain => unlike fun connected => absurd connected plain

/-- Whether the connective is written is told by the texts that the literals have. -/
theorem Mention.isConnected_congr {mention other : Mention} {property : Value}
    (same : ∀ literal : Node, literal.IsTextLiteral →
      mention.text property literal = other.text property literal) :
    mention.isConnected = other.isConnected := by
  rw [Bool.eq_iff_iff, mention.isConnected_iff property, other.isConnected_iff property,
    same _ (quoted_isTextLiteral _), same _ (quoted_isTextLiteral _)]

/-! ## Putting back what is there -/

theorem Node.setField_of_lookup {name : String} {value : Value} {fields : List (String × Value)}
    (found : fields.lookup name = some value) : setField name value fields = fields := by
  induction fields with
  | nil => cases found
  | cons entry rest ih =>
      obtain ⟨known, old⟩ := entry
      by_cases same : known = name
      · subst same
        rw [List.lookup_cons_self] at found
        cases found
        simp [setField]
      · have differs : (name == known) = false := beq_eq_false_iff_ne.mpr (Ne.symm same)
        rw [List.lookup_cons, differs] at found
        simp [setField, same, ih found]

/-- Nothing changes when what stands at the end of a way is put there. -/
theorem Value.put_at {path : List Step} {value : Value} (something : value.at path ≠ .null) :
    Value.put (value.at path) path value = value := by
  induction path generalizing value with
  | nil => rfl
  | cons step rest ih =>
      have below : Value.put (value.at (step :: rest)) rest (value.down step) = value.down step :=
        ih something
      cases step with
      | member name =>
          cases value with
          | node node =>
              have present : node.fields.lookup name = some (node.field name) := by
                cases found : node.fields.lookup name with
                | some held => simp [Node.field, found]
                | none =>
                    refine absurd ?_ something
                    have nothing : node.field name = .null := by simp [Node.field, found]
                    exact (congrArg (Value.at · rest) nothing).trans (Value.at_null rest)
              change Value.put _ rest (node.field name) = node.field name at below
              refine congrArg Value.node ((node.put_eq _ name rest).trans ?_)
              cases node
              rw [below, Node.setField_of_lookup present]
          | _ => rfl
      | item index =>
          cases value with
          | list items =>
              change Value.put _ rest (items.getD index .null) = items.getD index .null at below
              refine congrArg Value.list ?_
              rw [below]
              by_cases inside : index < items.length
              · simp [List.getD_eq_getElem?_getD, inside]
              · exact List.set_eq_of_length_le (Nat.le_of_not_lt inside)
          | _ => rfl

/-! ## Literals under accesses -/

structure Node.WritesConnective (options : Options) (position : Position) (access : Node) :
    Prop where
  plain : access.flag "computed" = false
  complete : access.has "property" = true
  unasked : access.substitute? options position = none
  own : position.connective = none

/-- What such an access mentions is followed by the connective. -/
theorem Node.WritesConnective.isConnected {options : Options} {access object : Node}
    {position : Position} (writes : access.WritesConnective options position)
    (known : Construct.ofKind? access.kind = some .member)
    (held : access.field "object" = .node object) (readable : access.Readable)
    (usable : position.IsUsable) {mention : Mention}
    (rendered : ∀ literal : Node, literal.IsTextLiteral →
      (render options (.node (access.put (.node literal) "object" [])) position).outcome =
        .ok (mention.text (access.field "property") literal)) : mention.isConnected = true := by
  obtain ⟨property, found⟩ := Node.has_iff.mp writes.complete
  obtain ⟨substitute, asked⟩ := Node.asked_of_readable known held readable usable found
  obtain rfl : none = substitute :=
    writes.unasked.symm.trans (Node.substitute?_of_member known asked)
  obtain ⟨text, outcome⟩ := Node.access_text known held readable usable found asked
  have place : { position with connective := none } = position := by
    rw [← writes.own]
  have same : ∀ literal : Node, literal.IsTextLiteral →
      mention.text (access.field "property") literal =
        (Mention.once "" .connective text).text (access.field "property") literal := by
    intro literal isLiteral
    have written := outcome none (.here : LeadsToField "object" [Step.member "object"])
      (access.field_put_self (.node literal) _) (render_literal options isLiteral.kind _)
    rw [place, writes.plain, if_neg Bool.false_ne_true, rendered literal isLiteral] at written
    rw [Except.ok.inj written, Node.field_of_field? found]
    simp only [Mention.text, Link.text, String.empty_append, String.append_assoc]
    rfl
  exact Mention.isConnected_congr same

/-- Of another literal as the object of an access nothing shows but its own text and, where the
connective of the access is written, its casing: the text is the same but for the text of the
literal exactly when the connective is not written or the literals have the same casing. The
access itself writes it unless it is computed, is replaced or is told one. -/
theorem accessed_literal_shows_casing (options : Options) {root access object : Node}
    {path : List Step} {position : Position} (found : (Value.node root).at path = .node access)
    (kind : access.kind = "MemberExpression") (held : access.field "object" = .node object)
    (isLiteral : object.IsTextLiteral) (readable : root.Readable) (usable : position.IsUsable) :
    ∃ mention : Mention,
      (render options (.node root) position).outcome =
        .ok (mention.text (access.field "property") object) ∧
      (∀ literal : Node, literal.IsTextLiteral →
        (render options (Value.put (.node literal) (path ++ [.member "object"]) (.node root))
          position).outcome = .ok (mention.text (access.field "property") literal) ∧
        (Text.SameBut object.spelling literal.spelling
            (mention.text (access.field "property") object)
            (mention.text (access.field "property") literal) ↔
          (mention.isConnected = true →
            (Value.node object).isStatic = (Value.node literal).isStatic))) ∧
      (path = [] → access.WritesConnective options position → mention.isConnected = true) := by
  obtain ⟨mention, rendered⟩ := Value.HasObjectAt.mentionsLiteral kind held options root position
    readable usable (Value.HasObjectAt.of_at found)
  have there : (Value.node root).at (path ++ [.member "object"]) = .node object := by
    unfold Value.at at found ⊢
    rw [List.foldl_append, found]
    exact held
  have own : Value.put (.node object) (path ++ [.member "object"]) (.node root) = .node root := by
    rw [← there]
    refine Value.put_at ?_
    rw [there]
    exact Value.noConfusion
  refine ⟨mention, ?_, fun literal other => ⟨rendered literal other, ?_⟩, ?_⟩
  · have whole := rendered object isLiteral
    simp only [own] at whole
    exact whole
  · exact mention.sameBut_iff _ object literal
  · rintro rfl writes
    cases found
    have known : Construct.ofKind? root.kind = some .member := by
      rw [kind]
      rfl
    exact writes.isConnected known held readable usable rendered

def quotedAccess (text : String) : Node :=
  ⟨⟨0, []⟩, "MemberExpression",
    [("object", .node (quoted text)),
      ("property", .node ⟨⟨0, []⟩, "Identifier", [("name", .text "p")], none⟩)], none⟩

def quotedAccessCall (text : String) : Node :=
  ⟨⟨0, []⟩, "CallExpression",
    [("callee", .node ⟨⟨0, []⟩, "Identifier", [("name", .text "f")], none⟩),
      ("arguments", .list [.node (quotedAccess text)])], none⟩

/-- An uppercase letter at the start of a string makes the access to it a static one. -/
theorem quotedAccessCall_shows_casing :
    (quotedAccessCall "abc").Readable ∧ ∃ mention : Mention, mention.isConnected = true ∧
      (render {} (.node (quotedAccessCall "abc")) {}).outcome = .ok "f(\"abc\"->p)" ∧
      (render {} (.node (quotedAccessCall "Abc")) {}).outcome = .ok "f(\"Abc\"::p)" ∧
      (∀ text, (render {} (.node (quotedAccessCall text)) {}).outcome =
        .ok (mention.text ((quotedAccess "abc").field "property") (quoted text))) ∧
      (quotedAccess "abc").WritesConnective {} {} := by
  have found : (Value.node (quotedAccessCall "abc")).at [.member "arguments", .item 0] =
      .node (quotedAccess "abc") := rfl
  have readable : (quotedAccessCall "abc").Readable := Node.readable_of_check 4 (by decide)
  obtain ⟨mention, own, others, -⟩ := accessed_literal_shows_casing {} found rfl rfl
    (quoted_isTextLiteral "abc") readable
    (⟨rfl, fun unusable => nomatch unusable⟩ : Position.IsUsable {})
  have lower : (render {} (.node (quotedAccessCall "abc")) {}).outcome = .ok "f(\"abc\"->p)" := rfl
  have upper : (render {} (.node (quotedAccessCall "Abc")) {}).outcome = .ok "f(\"Abc\"::p)" := rfl
  have whole (text : String) := (others (quoted text) (quoted_isTextLiteral text)).1
  refine ⟨readable, mention, ?_, lower, upper, whole, ⟨rfl, rfl, rfl, rfl⟩⟩
  have text_eq := Except.ok.inj (own.symm.trans lower)
  have textToo_eq := Except.ok.inj ((whole "Abc").symm.trans upper)
  by_contra plain
  have same := (others (quoted "Abc") (quoted_isTextLiteral _)).2.mpr
    fun connected => absurd connected plain
  rw [text_eq, textToo_eq] at same
  exact absurd (same.count_eq (by decide) '>') (by decide)

end PhpRendering
