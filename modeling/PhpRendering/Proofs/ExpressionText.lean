import PhpRendering.Proofs.Expression

/-!
# Texts of expressions

The rules of expressions put the texts of operands, their own texts and words without
marks of blocks and statements one after another. A property of texts that goes through
this holds of the text of an expression when it holds of the texts of its operands.
-/

namespace PhpRendering

/-- A property of texts that goes through the rules of expressions whose own texts are
admitted. -/
structure Text.Carried (admits carried : String → Prop) : Prop where
  append : ∀ {first second}, carried first → carried second → carried (first ++ second)
  bare : ∀ {text}, Avoids blockMarks text → carried text
  plain : ∀ {text}, IsPlain admits text → carried text
  quoted : ∀ {text}, IsPlain admits text → carried (doubleQuoted text)

def Substitute.opening : Substitute → String
  | .receiverFirst function => function ++ "("
  | .receiverLast function => function ++ "("
  | .propertyFunction function => function ++ "("
  | .charAt => "substr("
  | .constant text => text

structure Options.Opens (carried : String → Prop) (options : Options) : Prop where
  methods : ∀ entry ∈ options.substitutes.methods, carried entry.2.opening
  properties : ∀ entry ∈ options.substitutes.properties, carried entry.2.opening

namespace Layout

variable {admits carried : String → Prop} {render : Renderer}

def Carries (carried : String → Prop) (render : Renderer) (layout : Layout) : Prop :=
  (∀ source value place, .visit source value place ∈ layout.tasks →
    ∀ slot, (render value place).outcome = .ok slot → carried slot) →
  ∀ text, layout.Writes render text → carried text

theorem Carries.word {text : String} (holds : carried text) :
    (Layout.word text).Carries carried render := by
  intro slots written writes
  rw [writes_word_iff.mp writes]
  exact holds

section

variable (carry : Text.Carried admits carried)
include carry

/-- A word without marks of blocks and statements. -/
theorem Carries.bare {text : String} (avoids : Text.Avoids Text.blockMarks text) :
    (Layout.word text).Carries carried render :=
  .word (carry.bare avoids)

theorem Carries.next {first second : Layout} (before : first.Carries carried render)
    (after : second.Carries carried render) :
    (Layout.next first second).Carries carried render := by
  intro slots text writes
  obtain ⟨_, _, one, other, rfl⟩ := writes_next_iff.mp writes
  refine carry.append (before (fun source value place held => ?_) _ one)
    (after (fun source value place held => ?_) _ other)
  · exact slots source value place (List.mem_append_left _ held)
  · exact slots source value place (List.mem_append_right _ held)

/-- A property that is carried goes through all ways to lay out. -/
theorem carrying (render : Renderer) : Compositional (Carries carried render) where
  empty := .bare carry (by decide)
  visit source value position slots text writes :=
    slots source value position (List.mem_singleton_self _) text (writes_visit_iff.mp writes)
  enter function slots text writes := by
    rw [writes_enter_iff.mp writes]
    exact carry.bare (by decide)
  report diagnostic slots text writes := by
    cases writes
    exact carry.bare (by decide)
  stop fault slots text writes := absurd writes not_writes_stop
  next := Carries.next carry
  swap {first second} before after := by
    intro slots text writes
    cases writes with
    | swap one other =>
        refine carry.append (after (fun source value place held => ?_) _ other)
          (before (fun source value place held => ?_) _ one)
        · exact slots source value place (List.mem_append_right _ held)
        · exact slots source value place (List.mem_append_left _ held)
  unwritten _ slots text writes := by
    cases writes
    exact carry.bare (by decide)

/-! ## Layouts of expressions -/

variable {options : Options} {node : Node} {position : Position}

theorem Carries.comma : (Layout.word ", ").Carries carried render :=
  .bare carry (by decide)

theorem Carries.substituted (node : Node) {substitute : Substitute}
    (opens : carried substitute.opening) : (substituted node substitute).Carries carried render := by
  have whole := carrying carry render
  have close : (Layout.word ")").Carries carried render := .bare carry (by decide)
  have receiver := whole.callReceiver node
  cases substitute with
  | receiverFirst function =>
      refine whole.wanting (whole.next (.word opens) (whole.next receiver (whole.next ?_
        (whole.next close whole.empty))))
      refine whole.optionalItems fun _ all => whole.joined ?_
      exact List.forall_mem_map.mpr fun operand inside =>
        whole.next (.comma carry) (all operand inside)
  | receiverLast function =>
      refine whole.wanting (whole.next (.word opens) (whole.next ?_ (whole.next receiver
        (whole.next close whole.empty))))
      refine whole.optionalItems fun _ all => whole.joined ?_
      exact List.forall_mem_map.mpr fun operand inside =>
        whole.next (all operand inside) (.comma carry)
  | propertyFunction function =>
      exact whole.next (.word opens) (whole.next (whole.receiver _ _)
        (whole.next close whole.empty))
  | charAt =>
      have operands :
          (Layout.optionalItems node "arguments" (.firstOr "0")).Carries carried render :=
        whole.optionalItems fun _ all => whole.firstOr (.bare carry (by decide)) all
      exact whole.swap
        (whole.next (.comma carry) (whole.next operands
          (whole.next (.bare carry (by decide)) whole.empty)))
        (whole.next (.word opens) (whole.next receiver whole.empty))
  | constant text => exact .word opens

theorem Carries.call (opens : options.Opens carried) (callee : (node.field "callee").form = .text) :
    (call options node position).Carries carried render := by
  have whole := carrying carry render
  refine whole.needed fun function same => whole.shaped fun called _ =>
    whole.shaped fun found asked => ?_
  cases found with
  | some substitute =>
      obtain ⟨name, listed⟩ := Rule.methodSubstitute?_listed asked
      exact .substituted carry node (opens.methods _ listed)
  | none =>
      have operands : (Layout.arguments node).Carries carried render :=
        whole.wanting (whole.optionalItems fun _ all => whole.separatedBy (.comma carry) all)
      rw [Node.field_of_field? same] at callee
      dsimp only
      rw [continued_of_form callee]
      exact whole.next (whole.visit _ _ _) (whole.next (.bare carry (by decide))
        (whole.next operands (whole.next (.bare carry (by decide))
          (whole.next (whole.shaped fun _ _ => whole.empty) whole.empty))))

theorem Carries.member (opens : options.Opens carried) :
    (member options node position).Carries carried render := by
  have whole := carrying carry render
  refine whole.needed fun object _ => whole.needed fun property _ =>
    whole.shaped fun found asked => ?_
  cases found with
  | some substitute =>
      obtain ⟨name, listed⟩ := Rule.propertySubstitute?_listed asked
      exact .substituted carry node (opens.properties _ listed)
  | none =>
      refine whole.next (whole.visit _ _ _) ?_
      split
      · exact whole.next (.bare carry (by decide)) (whole.next (whole.visit _ _ _)
          (whole.next (.bare carry (by decide)) whole.empty))
      · refine whole.next (.bare carry ?_) (whole.visit _ _ _)
        cases position.connective.getD (Connective.between object property) <;> decide

end

end Layout

open Layout in
/-- The layout of an expression carries the property from its slots to its text. -/
theorem Construct.layout_carries {admits carried : String → Prop}
    (carry : Text.Carried admits carried) (vocabulary : Text.Vocabulary admits)
    {options : Options} (opens : options.Opens carried) {node : Node} {construct : Construct}
    (known : Construct.ofKind? node.kind = some construct)
    (expression : construct.isExpression = true) (readable : node.Readable) (plain : node.IsPlain admits)
    (keys : ∀ key, node.field "key" = .node key → key.IsPlain admits) (position : Position)
    (render : Renderer) : (construct.layout options node position).Carries carried render := by
  have whole := carrying carry render
  have shown {field : String} (written : field ∈ construct.written)
      (listed : field ∈ ["name", "raw", "value", "operator"]) :
      carried (node.field field).shown :=
    carry.plain (plain.shown vocabulary known written listed)
  have name : carried node.name := carry.plain (.inl (plain.name vocabulary))
  cases construct with
  | identifier =>
      simp only [Construct.layout]
      split
      · exact whole.stop _
      · split
        · exact .word name
        · exact .word (carry.append (carry.bare (by decide)) name)
  | punctuator =>
      refine whole.needed fun value found => .word ?_
      rw [← Node.field_of_field? found]
      exact shown (by decide) (by decide)
  | literal =>
      refine whole.optional (.word (carry.plain (plain.literalText vocabulary known)))
        fun raw found => .word ?_
      rw [← Node.field_of_field? found]
      exact shown (by decide) (by decide)
  | selfReference => exact .bare carry (by decide)
  | binary =>
      have operator : carried (" " ++ (node.field "operator").shown ++ " ") :=
        carry.append (carry.append (carry.bare (by decide)) (shown (by decide) (by decide)))
          (carry.bare (by decide))
      exact whole.next (whole.side node "left") (whole.next (.word operator)
        (whole.next (whole.side node "right") (whole.next (whole.present node "operator")
          whole.empty)))
  | update =>
      simp only [Construct.layout]
      rw [update_of_form (readable.argument_form known)]
      refine whole.next (whole.child node "argument") (whole.needed fun operator found => ?_)
      split
      · next mark held =>
          have same := (Node.field_of_field? found).trans (Value.eq_text held)
          exact .word (carry.plain (.inl (plain.texts "operator" (by decide) mark same)))
      · exact whole.stop _
  | call => exact .call carry opens (readable.callee_form known)
  | construction =>
      exact whole.next (.bare carry (by decide)) (whole.wanting (whole.visit _ _ _))
  | member => exact .member carry opens
  | functionExpression => exact whole.visit _ _ _
  | objectLiteral =>
      have entries :
          (Layout.optionalItems node "properties" (.separatedBy ", ")).Carries carried render :=
        whole.optionalItems fun _ all => whole.separatedBy (.comma carry) all
      exact whole.next (.bare carry (by decide)) (whole.next (whole.wanting entries)
        (whole.next (.bare carry (by decide)) whole.empty))
  | arrayLiteral =>
      refine whole.next (.bare carry (by decide)) (whole.next (whole.wanting ?_)
        (whole.next (.bare carry (by decide)) whole.empty))
      refine whole.shaped fun items _ =>
        whole.separatedBy (.comma carry) (List.forall_mem_map.mpr fun entry _ => ?_)
      split
      · exact .bare carry (by decide)
      · exact whole.visit _ _ _
  | property =>
      refine whole.needed fun key found => whole.needed fun value _ =>
        whole.unlessUnsupported (whole.shaped fun bearer same =>
          whole.shaped fun name spelled => ?_)
      have held := (Node.field_of_field? found).trans (Value.asNode_eq_ok same)
      have key := (keys bearer held).keyText vocabulary spelled
      exact whole.next (.word (carry.append (carry.quoted key) (carry.bare (by decide))))
        (whole.visit _ _ _)
  | _ => cases expression

end PhpRendering
