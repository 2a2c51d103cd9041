import PhpRendering.Proofs.ExpressionText

/-!
# Quiet texts of expressions

The words of the rules of expressions end no statements, so the text of an expression
outside a statement is quiet when the texts of its operands are. A body is the exception:
it holds statements, but its brackets fit and curly brackets stand around it.
-/

namespace PhpRendering

/-- Quietness goes through the rules of expressions. -/
theorem Text.quiet_carried : Carried (Avoids blockMarks) IsQuiet where
  append := IsQuiet.append
  bare := IsQuiet.of_avoids
  plain := IsQuiet.of_isPlain
  quoted {text} plain := by
    rcases plain with avoids | rfl | rfl
    · exact .of_avoids (avoids.doubleQuoted blockMarks_subset)
    · exact .of_avoids (by decide)
    · have quote : IsQuiet "\"" := .of_avoids (by decide)
      exact quote.append (IsQuiet.braces.append quote)

theorem Substitute.opening_avoids {substitute : Substitute}
    (plain : Text.Avoids Text.blockMarks substitute.text) :
    Text.Avoids Text.blockMarks substitute.opening := by
  cases substitute with
  | receiverFirst function => exact Text.Avoids.append_iff.mpr ⟨plain, by decide⟩
  | receiverLast function => exact Text.Avoids.append_iff.mpr ⟨plain, by decide⟩
  | propertyFunction function => exact Text.Avoids.append_iff.mpr ⟨plain, by decide⟩
  | charAt => decide
  | constant text => exact plain

theorem Options.IsPlain.opens {options : Options}
    (plain : options.IsPlain (Text.Avoids Text.blockMarks)) : options.Opens Text.IsQuiet :=
  ⟨fun entry listed => .of_avoids (Substitute.opening_avoids (plain.methods entry listed)),
    fun entry listed => .of_avoids (Substitute.opening_avoids (plain.properties entry listed))⟩

/-! ## Rendered texts -/

namespace Node.IsPhrase

variable {options : Options} {node : Node} {position : Position}

/-- A phrase owes a terminator in a statement only. -/
theorem owesTerminator_eq_false (phrase : node.IsPhrase) (outside : position.inStatement = false) :
    node.owesTerminator options position = false := by
  unfold Node.owesTerminator
  split
  · rfl
  · next known found =>
      rcases phrase.construct known found with expression | rfl
      · cases known with
        | call =>
            simp only [Construct.owesTerminator, outside]
            split <;> rfl
        | _ => first | rfl | cases expression
      · rfl

/-- The text of the declaration of a function is quiet, with quiet parameters and a body
in which the brackets fit. -/
theorem declaration_isQuiet {render : Renderer} {text : String}
    (tree : node.IsPlainTree (Text.Avoids Text.blockMarks))
    (params : ∀ source value place,
      .visit source value place ∈ Part.parameters.tasks options node position →
      ∀ slot, (render value place).outcome = .ok slot → Text.IsQuiet slot)
    (body : ∀ value slot, node.field? "body" = some value →
      (render value (.within node)).outcome = .ok slot → Text.IsBalanced slot)
    (writes : (Construct.functionDeclaration.layout options node position).Writes render text) :
    Text.IsQuiet text := by
  simp only [Construct.layout, Layout.writes_joined_cons_iff, Layout.writes_joined_nil_iff,
    Layout.writes_word_iff, Layout.writes_present_iff, Layout.writes_enter_iff,
    Layout.parameterTexts, Layout.writes_wanting_iff,
    Layout.writes_text_iff] at writes
  obtain ⟨_, _, rfl, ⟨between, _, parameters, ⟨_, _, rfl, ⟨_, _, ⟨-, rfl⟩, ⟨_, _, rfl,
    ⟨_, _, ⟨-, rfl⟩, ⟨_, _, rfl, ⟨inner, _, ⟨value, held, -, rendered⟩, ⟨_, _, rfl, rfl, rfl⟩, rfl⟩,
    rfl⟩, rfl⟩, rfl⟩, rfl⟩, rfl⟩, rfl⟩, rfl⟩ := writes
  have header : Text.IsQuiet ("function " ++ (node.field "id").name ++ "(") := by
    refine .of_avoids ?_
    simp only [Text.Avoids.append_iff]
    exact ⟨⟨by decide, tree.name Text.blockless "id"⟩, by decide⟩
  have listed : Text.IsQuiet between := by
    have whole := Layout.carrying Text.quiet_carried render
    refine whole.parameters node (.comma Text.quiet_carried) ?_ between parameters
    rwa [Layout.tasks_parameters options node position]
  have block := Text.IsQuiet.block (body value inner held rendered)
  have closed : Text.IsQuiet ")" := .of_avoids (by decide)
  simpa using header.append (listed.append (closed.append block))

/-- Parameters are no bodies. -/
theorem source_of_parameters {source : Source} {value : Value} {place : Position}
    (among : .visit source value place ∈ Part.parameters.tasks options node position) :
    source ≠ .field "body" := by
  rintro rfl
  have provided : Source.Provides node .parameters (.field "body") value :=
    Part.tasks_provided options node position .parameters _ among
  cases provided with
  | field listed single found direct =>
      have fields : ∀ reading ∈ Part.parameters.readings, reading.field ≠ "body" := by decide
      exact fields _ listed rfl

end Node.IsPhrase

/-- The text of a phrase outside a statement is quiet, by induction on what it visits.
The bodies of functions are no phrases, but their brackets fit. -/
theorem render_isQuiet {options : Options}
    (names : options.IsPlain (Text.Avoids Text.delimiters)) {node : Node}
    (phrase : node.IsPhrase) (readable : node.Readable)
    (tree : node.IsPlainTree (Text.Avoids Text.delimiters)) {position : Position}
    (usable : position.IsUsable) (outside : position.inStatement = false)
    (plain : position.HasPlainSource (Text.Avoids Text.delimiters))
    {text : String} (rendered : (render options (.node node) position).outcome = .ok text) :
    Text.IsQuiet text := by
  induction node, position using Node.visit_induction options generalizing text with
  | step node position ih =>
      rcases render_cases rendered with rfl | ⟨written, writes, rfl⟩
      · exact .of_avoids (by decide)
      rw [phrase.owesTerminator_eq_false outside]
      change Text.IsQuiet written
      have inner {source : Source} {child : Node} {place : Position}
          (visits : .visit source (.node child) place ∈ node.tasks options position) :=
        tree.visit Text.undelimited (fun _ => names.constructor) readable visits
      have fewer {text : String} (avoids : Text.Avoids Text.delimiters text) :=
        avoids.mono Text.blockMarks_subset
      have few := tree.mono fewer
      have quiet {source : Source} {value : Value} {place : Position} {slot : String}
          (visits : .visit source value place ∈ node.tasks options position)
          (other : ¬ (source = .field "body" ∧
            Construct.ofKind? node.kind = some .functionDeclaration))
          (found : (render options value place).outcome = .ok slot) : Text.IsQuiet slot := by
        obtain ⟨⟨child, rfl, below⟩, fine⟩ := Node.tasks_safe options readable usable _ visits
        obtain ⟨again, still⟩ := (phrase.visit readable visits).resolve_left other
        exact ih source child place visits again below (inner visits).1 fine (still outside)
          ((inner visits).2 plain) found
      unfold Node.layout at writes
      split at writes
      · cases writes
        exact .of_avoids (by decide)
      · next construct known =>
          rcases phrase.construct construct known with expression | rfl
          · refine construct.layout_carries Text.quiet_carried Text.blockless (names.mono fewer).opens
              known expression readable few.plain (fun key held => (few.child held).plain) position
              (render options) (fun source value place held slot found => ?_) written writes
            rw [construct.layout_tasks, ← node.tasks_eq known] at held
            refine quiet held (fun body => ?_) found
            cases known.symm.trans body.2
            cases expression
          · refine Node.IsPhrase.declaration_isQuiet few (fun source value place held slot found => ?_)
              (fun value slot held found => ?_) writes
            · have listed : Part.parameters ∈ Construct.functionDeclaration.parts := by decide
              refine quiet ?_ (fun body => Node.IsPhrase.source_of_parameters held body.1) found
              rw [node.tasks_eq known]
              exact List.mem_flatMap.mpr ⟨_, listed, held⟩
            · have among : .visit (.field "body") value (.within node) ∈
                  node.tasks options position := by
                rw [node.tasks_eq known]
                refine List.mem_flatMap.mpr ⟨.text "body", by decide, ?_⟩
                simp only [Part.tasks, Task.needed, Node.require, held]
                exact Task.visit_mem_wanting_iff.mpr (List.mem_singleton_self _)
              obtain ⟨⟨child, rfl, below⟩, fine⟩ :=
                Node.tasks_safe options readable usable _ among
              have fewer {text : String} (avoids : Text.Avoids Text.delimiters text) :=
                avoids.mono Text.brackets_subset
              obtain ⟨again, there⟩ := inner among
              obtain ⟨slot, same, balanced⟩ := render_isBalanced (names.mono fewer) below
                (again.mono fewer) fine ((there plain).mono fewer)
              cases same.symm.trans found
              exact balanced

end PhpRendering
