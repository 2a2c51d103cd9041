import PhpRendering.Proofs.Emitter
import PhpRendering.Proofs.Fields

/-!
# Rules and their layouts

Every rule writes the layout of its construct: what is shown of its output is the text
of the layout, and the output has the form that the node tells. The parts from which
rules are made come first, each with the part of a layout that stands for it.
-/

namespace PhpRendering

/-! ## Separated texts -/

namespace Text

theorem separatedBy_cons (separator first : String) (rest : List String) :
    separatedBy separator (first :: rest) = first ++ joined (rest.map (separator ++ ·)) := by
  induction rest generalizing first with
  | nil => simp
  | cons second rest ih => simp [separatedBy_cons_cons, ih, String.append_assoc]

theorem separatedBy_concat (separator last : String) (texts : List String) :
    separatedBy separator (texts ++ [last]) = joined (texts.map (· ++ separator)) ++ last := by
  induction texts with
  | nil => simp
  | cons first rest ih =>
      cases rest with
      | nil => simp [separatedBy_cons_cons]
      | cons second rest =>
          rw [List.cons_append, List.cons_append, separatedBy_cons_cons, ← List.cons_append, ih]
          simp only [List.map_cons, joined_cons, String.append_assoc]

end Text

namespace Layout

open Emission

section Lists

variable {render : Renderer}

/-! ## Lists of layouts -/

theorem write_joined (layouts : List Layout) :
    (joined layouts).write render =
      (each (write render) layouts).andThen fun texts => .done (Text.joined texts) := by
  induction layouts with
  | nil => exact (done_andThen _ _).symm
  | cons first rest ih =>
      simp only [joined, write, ih, each, bind_eq, pure_eq, andThen_assoc, done_andThen,
        Text.joined_cons]

theorem write_separatedBy (separator : String) (layouts : List Layout) :
    (separatedBy separator layouts).write render =
      (each (write render) layouts).andThen fun texts =>
        .done (Text.separatedBy separator texts) := by
  induction layouts with
  | nil => exact (done_andThen _ _).symm
  | cons first rest ih =>
      cases rest with
      | nil => simp [separatedBy, each, andThen_assoc]
      | cons second rest =>
          simp only [separatedBy, write, ih, each, bind_eq, pure_eq, andThen_assoc, done_andThen,
            Text.separatedBy_cons_cons, String.append_assoc]

theorem write_firstOr (absent : String) (layouts : List Layout) :
    (firstOr absent layouts).write render =
      (each (write render) layouts).andThen fun texts => .done (texts.headD absent) := by
  cases layouts with
  | nil => exact (done_andThen _ _).symm
  | cons first rest =>
      simp [firstOr, write, write_joined, each, andThen_assoc]

/-! ## Slots -/

theorem write_wanting (fits : Bool) (layout : Layout) :
    (wanting fits layout).write render =
      (layout.write render).andThen fun text => (demand fits).andThen fun _ => .done text := by
  cases fits with
  | true => simp only [wanting, if_true, demand_true, done_andThen, andThen_done]
  | false => rfl

theorem each_slots (source : Nat → Source) (position : Position) (values : List Value) :
    each (write render) (slots source position values) =
      each (fun value => Rule.child render value position) values := by
  unfold slots
  rw [each_map]
  exact each_zipIdx (fun value => Rule.child render value position) values

theorem write_needed (node : Node) (field : String) (next : Value → Layout) :
    (needed node field next).write render =
      (Rule.required node field).andThen fun value => (next value).write render := by
  unfold needed Rule.required
  cases node.require field with
  | ok value => exact (done_andThen _ _).symm
  | error missing => rfl

theorem write_shaped {α : Type} (result : Except Crash α) (next : α → Layout) :
    (shaped result next).write render =
      (ofShape result).andThen fun found => (next found).write render := by
  cases result with
  | ok found => exact (done_andThen _ _).symm
  | error crash => rfl

/-- A slot in the place of a required child. -/
theorem write_child (node : Node) (field : String) :
    (child node field).write render =
      (Rule.required node field).andThen fun value => Rule.child render value (.within node) :=
  write_needed _ _ _

theorem write_optionalItems (node : Node) (field : String) (together : List Layout → Layout) :
    (optionalItems node field together).write render =
      (ofShape (node.optionalItems field)).andThen fun items =>
        (together (slots (.item field) (.within node) items)).write render :=
  write_shaped _ _

end Lists

def rendering (render : Renderer) (owesTerminator : Bool) (layout : Layout) : Rendering :=
  (layout.write render).andThen fun text => .done ⟨.text text, owesTerminator⟩

end Layout

/-! ## Fields that are read -/

open Emission

theorem Rule.required_congr {β : Type} {node : Node} {field : String}
    {next other : Value → Emission Fault β}
    (same : ∀ value, node.field? field = some value → next value = other value) :
    (Rule.required node field).andThen next = (Rule.required node field).andThen other := by
  unfold Rule.required Node.require
  cases found : node.field? field with
  | none => rfl
  | some value => exact (done_andThen _ _).trans ((same value found).trans (done_andThen _ _).symm)

/-- A required field that was read holds what the field holds. -/
theorem Rule.required_andThen {β : Type} (node : Node) (field : String)
    (next : Value → Emission Fault β) :
    (Rule.required node field).andThen next =
      (Rule.required node field).andThen fun _ => next (node.field field) :=
  Rule.required_congr fun value found => by rw [Node.field_of_field? found]

theorem ofShape_congr {α β : Type} {result : Except Crash α} {next other : α → Emission Fault β}
    (same : ∀ found, result = .ok found → next found = other found) :
    (ofShape result).andThen next = (ofShape result).andThen other := by
  cases result with
  | error crash => rfl
  | ok found => exact (done_andThen _ _).trans ((same found rfl).trans (done_andThen _ _).symm)

theorem ofShape_outcome_ok_iff {α : Type} {result : Except Crash α} {found : α} :
    (ofShape result).outcome = .ok found ↔ result = .ok found := by
  cases result with
  | ok value =>
      refine ⟨fun done => ?_, fun same => ?_⟩
      · cases done
        rfl
      · cases same
        rfl
  | error crash =>
      refine ⟨fun done => ?_, fun same => ?_⟩
      · cases done
      · cases same

theorem Rule.required_outcome_ok_iff {node : Node} {field : String} {value : Value} :
    (Rule.required node field).outcome = .ok value ↔ node.field? field = some value := by
  unfold Rule.required Node.require
  cases node.field? field with
  | some held =>
      refine ⟨fun done => ?_, fun same => ?_⟩
      · cases done
        rfl
      · cases same
        rfl
  | none =>
      refine ⟨fun done => ?_, fun same => ?_⟩
      · cases done
      · cases same

/-! ## Copies -/

theorem Rule.form_asDeclaration (function : Node) (name : String) :
    (asDeclaration function name).form = .text :=
  Node.form_of_kind rfl (by decide : (Construct.ofKind? "FunctionDeclaration").all _ = true)

theorem Rule.form_defaultAssignment (function : Node) (target default : Value) :
    (defaultAssignment function target default).form = .text :=
  Node.form_of_kind rfl (by decide : (Construct.ofKind? "AssignmentExpression").all _ = true)

section Rules

variable {emit : Emitter} (fits : emit.Fits)

namespace Layout

/-! ## Parts of rules -/

theorem write_side (node : Node) (field : String) :
    (side node field).write emit.shown = Rule.side emit node field := by
  unfold Rule.side side
  simp only [write_needed, bind_eq, Rule.shown_eq, write]

theorem write_receiver (source : Source) (member : Node) :
    (receiver source member).write emit.shown =
      (Rule.receiver emit member).andThen fun output => .done output.shown := by
  unfold receiver Rule.receiver
  simp only [write_needed, write, Rule.child_shown, bind_eq, andThen_assoc]

theorem write_callReceiver (call : Node) :
    (callReceiver call).write emit.shown =
      (Rule.callReceiver emit call).andThen fun output => .done output.shown := by
  unfold callReceiver Rule.callReceiver
  simp only [write_needed, write_shaped, write_receiver, bind_eq, andThen_assoc]

/-- Slots for the arguments of a call, laid out together. -/
theorem write_operands (node : Node) (together : List Layout → Layout)
    (combine : List String → String)
    (all : ∀ layouts, (together layouts).write emit.shown =
      (each (write emit.shown) layouts).andThen fun texts => .done (combine texts)) :
    (optionalItems node "arguments" together).write emit.shown =
      (Rule.arguments emit node).andThen fun outputs =>
        .done (combine (outputs.map Output.shown)) := by
  unfold Rule.arguments
  simp only [write_optionalItems, all, each_slots, Rule.children, Rule.child_shown, each_andThen,
    bind_eq, andThen_assoc, done_andThen]

/-- The arguments of a call, each one with the same words around it. -/
theorem write_operands_around (emit : Emitter) (node : Node) (around : Layout → Layout) (put : String → String)
    (writes : ∀ layout, (around layout).write emit.shown =
      (layout.write emit.shown).andThen fun text => .done (put text)) :
    (optionalItems node "arguments" fun operands => joined (operands.map around)).write emit.shown =
      (Rule.arguments emit node).andThen fun outputs =>
        .done (Text.joined ((outputs.map Output.shown).map put)) :=
  write_operands node _ (fun texts => Text.joined (texts.map put)) fun layouts => by
    simp only [write_joined, each_map, writes, done_andThen, each_andThen, andThen_assoc]

section Fits

include fits

theorem write_text (node : Node) (field : String) :
    (Layout.text node field).write emit.shown =
      (Rule.required node field).andThen fun value => Rule.text emit value (.within node) := by
  unfold Layout.text
  simp only [write_needed, write_wanting, write, Rule.text_eq fits]

theorem each_textSlots (source : Nat → Source) (position : Position) (values : List Value) :
    each (write emit.shown) (textSlots source position values) =
      each (fun value => Rule.text emit value position) values := by
  unfold textSlots
  simp only [each_map, write_wanting, write, ← Rule.text_eq fits]
  exact each_zipIdx (fun value => Rule.text emit value position) values

/-- Slots for a list of which texts are wanted, laid out together. -/
theorem write_wanted {list : Value} {items : List Value} (listed : list.items = .ok items)
    (source : Nat → Source) (position : Position) (together : List Layout → Layout)
    (combine : List String → String)
    (all : ∀ layouts, (together layouts).write emit.shown =
      (each (write emit.shown) layouts).andThen fun texts => .done (combine texts)) :
    ((together (slots source position items)).write emit.shown).andThen (fun text =>
        (demand list.itemsYieldText).andThen fun _ => .done text) =
      (Rule.children emit position items).andThen fun outputs =>
        (Rule.texts outputs).andThen fun texts => .done (combine texts) := by
  rw [Rule.children_texts fits, all, each_slots, Value.itemsYieldText_eq listed]
  simp only [andThen_assoc, done_andThen]

theorem write_wantedItems (node : Node) (field : String) (together : List Layout → Layout)
    (combine : List String → String)
    (all : ∀ layouts, (together layouts).write emit.shown =
      (each (write emit.shown) layouts).andThen fun texts => .done (combine texts)) :
    (wanting (node.field field).itemsYieldText (optionalItems node field together)).write
        emit.shown =
      (ofShape (node.optionalItems field)).andThen fun items =>
        (Rule.children emit (.within node) items).andThen fun outputs =>
          (Rule.texts outputs).andThen fun texts => .done (combine texts) := by
  rw [write_wanting, write_optionalItems, andThen_assoc]
  refine ofShape_congr fun items listed => ?_
  rw [Rule.children_texts fits, all, each_slots, Node.itemsYieldText_eq listed]
  simp only [andThen_assoc, done_andThen]

theorem write_statements (parent : Node) (field : String) (list : Value) :
    (statements parent field list).write emit.shown = Rule.sequence emit parent list := by
  unfold statements Rule.sequence
  rw [write_wanting, write_shaped, andThen_assoc, bind_eq]
  refine ofShape_congr fun items listed => ?_
  let produce (entry : Value × Nat) : Emission Fault Output :=
    if entry.1.isNull then .done (.text "")
    else
      Rule.child emit entry.1 { Position.within parent with isLast := entry.2 + 1 == items.length }
  have forms : ∀ entry ∈ items.zipIdx, ∀ output, (produce entry).outcome = .ok output →
      output.form.isText = entry.1.form.isText := by
    intro entry _ output done
    by_cases hole : entry.1.isNull = true
    · rw [Value.eq_null_of_isNull hole]
      simp only [produce, if_pos hole] at done
      cases done
      rfl
    · simp only [produce, if_neg hole] at done
      exact congrArg Form.isText (Rule.child_form fits done)
  have whole := Rule.each_texts produce (fun entry => entry.1.form.isText) items.zipIdx forms
    fun texts => .done (Text.joined texts)
  have all : (items.zipIdx.all fun entry => entry.1.form.isText) = list.itemsYieldText := by
    have places : items.all (fun item => item.form.isText) =
        (items.zipIdx.map Prod.fst).all fun item => item.form.isText := by
      rw [List.zipIdx_map_fst]
    rw [Value.itemsYieldText_eq listed, places, List.all_map]
    rfl
  have slots : each (fun entry => (produce entry).andThen fun output => .done output.shown)
        items.zipIdx =
      each (fun entry => (if entry.1.isNull then empty
        else .visit (.item field entry.2) entry.1
          { Position.within parent with isLast := entry.2 + 1 == items.length }).write emit.shown)
        items.zipIdx := by
    congr 1
    funext entry
    by_cases hole : entry.1.isNull = true
    · simp only [produce, if_pos hole, write, done_andThen]
      rfl
    · simp only [produce, if_neg hole, write, Rule.child_shown]
  rw [all, slots] at whole
  rw [write_joined, each_map, andThen_assoc]
  simp only [done_andThen]
  exact whole.symm

/-- The receiver of a call is rendered as its form tells. -/
theorem callReceiver_form {node : Node} {output : Output}
    (done : (Rule.callReceiver emit node).outcome = .ok output) :
    output.form = node.calledObject.form := by
  obtain ⟨callee, found, rest⟩ := andThen_outcome_ok_iff.mp done
  obtain ⟨called, same, rest⟩ := andThen_outcome_ok_iff.mp rest
  obtain ⟨object, inside, rendered⟩ := andThen_outcome_ok_iff.mp rest
  obtain rfl := Value.asNode_eq_ok (ofShape_outcome_ok_iff.mp same)
  rw [Rule.child_form fits rendered, Node.calledObject,
    Node.field_of_field? (Rule.required_outcome_ok_iff.mp found)]
  exact congrArg Value.form (Node.field_of_field? (Rule.required_outcome_ok_iff.mp inside)).symm

theorem arguments_form {node : Node} {outputs : List Output}
    (done : (Rule.arguments emit node).outcome = .ok outputs) :
    (outputs.all fun output => output.form.isText) = (node.field "arguments").itemsYieldText := by
  obtain ⟨items, listed, rendered⟩ := andThen_outcome_ok_iff.mp done
  rw [Node.itemsYieldText_eq (ofShape_outcome_ok_iff.mp listed)]
  exact all_of_each (fun _ _ _ done => congrArg Form.isText (Rule.child_form fits done)) rendered

theorem write_substituted (node : Node) (substitute : Substitute) :
    (substituted node substitute).write emit.shown = Rule.substituted emit node substitute := by
  cases substitute with
  | receiverFirst function =>
      have operands := write_operands_around emit node (.next (.word ", ")) (", " ++ ·)
        fun layout => done_andThen _ _
      simp only [substituted, write_wanting, joined, write, write_callReceiver, operands,
        Rule.substituted, bind_eq, pure_eq, andThen_assoc, done_andThen]
      refine andThen_congr fun first received => andThen_congr fun outputs given => ?_
      rw [Rule.texts_eq, List.all_cons, callReceiver_form fits received, arguments_form fits given]
      simp only [List.map_cons, Rule.functionCall, Rule.commaSeparated, Text.separatedBy_cons,
        andThen_assoc, done_andThen]
      simp only [String.append_assoc, String.append_empty]
      rfl
  | receiverLast function =>
      have operands := write_operands_around emit node (.next · (.word ", ")) (· ++ ", ")
        fun layout => by simp only [write, done_andThen]
      simp only [substituted, write_wanting, joined, write, write_callReceiver, operands,
        Rule.substituted, bind_eq, pure_eq, andThen_assoc, done_andThen]
      refine andThen_congr fun outputs given => andThen_congr fun last received => ?_
      rw [Rule.texts_eq, List.all_append, List.all_cons, List.all_nil, Bool.and_true,
        callReceiver_form fits received, arguments_form fits given, Bool.and_comm]
      simp only [List.map_append, List.map_cons, List.map_nil, Rule.functionCall,
        Rule.commaSeparated, Text.separatedBy_concat, andThen_assoc, done_andThen]
      simp only [String.append_assoc, String.append_empty]
      rfl
  | propertyFunction function =>
      simp only [substituted, joined, write, write_receiver, Rule.substituted, Rule.functionCall,
        Rule.commaSeparated, Text.separatedBy_singleton, bind_eq, pure_eq, andThen_assoc,
        done_andThen]
      simp only [String.append_assoc, String.append_empty]
  | charAt =>
      have operands : (optionalItems node "arguments" (firstOr "0")).write emit.shown =
          (Rule.arguments emit node).andThen fun outputs =>
            .done ((outputs.map Output.shown).headD "0") :=
        write_operands node _ (·.headD "0") (write_firstOr "0")
      simp only [substituted, joined, write, write_callReceiver, operands, Rule.substituted,
        Rule.functionCall, Rule.commaSeparated, Text.separatedBy_cons_cons,
        Text.separatedBy_singleton, bind_eq, pure_eq, andThen_assoc, done_andThen]
      refine andThen_congr fun outputs _ => andThen_congr fun first _ => ?_
      cases outputs with
      | nil =>
          simp [String.append_assoc]
          rfl
      | cons output rest => simp [String.append_assoc]
  | constant text => rfl

theorem parameter_form {function : Node} {param : Value} {index : Nat} {output : Output}
    (done : (Rule.parameter emit function param index).outcome = .ok output) :
    output.form.isText =
      (param.form.isText ||
        match (Rule.defaults function).itemAt index with
        | .ok default => !default.isNull
        | .error _ => false) := by
  obtain ⟨default, given, rest⟩ := andThen_outcome_ok_iff.mp done
  obtain ⟨value, stands, rendered⟩ := andThen_outcome_ok_iff.mp rest
  obtain ⟨node, same, chosen⟩ := andThen_outcome_ok_iff.mp stands
  obtain rfl := Value.asNode_eq_ok (ofShape_outcome_ok_iff.mp same)
  rw [Rule.child_form fits rendered, ofShape_outcome_ok_iff.mp given]
  split at chosen
  · next kind =>
      obtain ⟨target, -, chosen⟩ := andThen_outcome_ok_iff.mp chosen
      obtain ⟨other, -, chosen⟩ := andThen_outcome_ok_iff.mp chosen
      cases chosen
      have unknown : Construct.ofKind? node.kind = none := by
        rw [kind]
        rfl
      rw [Value.form, Value.form, Rule.form_defaultAssignment, Node.form_of_unknown unknown]
      rfl
  · split at chosen
    · next nothing =>
        cases chosen
        simp only [nothing, Bool.not_true, Bool.or_false]
    · next something =>
        cases chosen
        have full : (!default.isNull) = true := by simpa using something
        rw [Value.form, Rule.form_defaultAssignment]
        simp only [full, Bool.or_true]
        rfl

theorem parameters_form {function : Node} {outputs : List Output}
    (done : (Rule.parameters emit function).outcome = .ok outputs) :
    (outputs.all fun output => output.form.isText) = function.parametersYieldText := by
  obtain ⟨params, listed, rendered⟩ := andThen_outcome_ok_iff.mp done
  rw [Node.parametersYieldText, ofShape_outcome_ok_iff.mp listed]
  exact all_of_each (fun _ _ _ done => parameter_form fits done) rendered

theorem write_alternate (node : Node) :
    (alternate node).write emit.shown = Rule.alternateBranch emit node := by
  unfold alternate Rule.alternateBranch optional
  cases node.field? "alternate" with
  | none => rfl
  | some value =>
      simp only [write_shaped, bind_eq, pure_eq, Rule.text_eq fits]
      congr 1
      funext branch
      split
      · simp only [joined, write, write_wanting, andThen_assoc, done_andThen, String.append_assoc,
          String.append_empty]
      · simp only [write, write_wanting, andThen_assoc, done_andThen]

theorem write_loopInit (loop : Node) (init : Value) :
    (loopInit loop init).write emit.shown = Rule.loopInit emit loop init := by
  unfold loopInit Rule.loopInit
  simp only [write_shaped, bind_eq, pure_eq]
  congr 1
  funext start
  split
  · simp only [write_needed, write_shaped, write_separatedBy, textSlots, each_map, write,
      write_wanting, andThen_assoc, done_andThen, ← Rule.inline_eq fits]
    congr 1
    funext declarations
    congr 1
    funext items
    congr 1
    exact each_zipIdx (fun item => Rule.inline emit item (.within start)) items
  · simp only [write, write_wanting, andThen_assoc, done_andThen, Rule.inline_eq fits]

theorem write_moduleBody (node : Node) (body : Value) :
    (moduleBody node body).write emit.shown = Rule.moduleBody emit node body := by
  cases body with
  | list items => exact write_statements fits node "body" (.list items)
  | scalar value => exact (Rule.shown_eq _ _ _).symm
  | record members => exact (Rule.shown_eq _ _ _).symm
  | foreign origin => exact (Rule.shown_eq _ _ _).symm
  | node inner => exact (Rule.shown_eq _ _ _).symm

theorem write_optionalText (node : Node) (field absent before : String) :
    (optionalText node field absent before).write emit.shown =
      match node.field? field with
      | none => .done absent
      | some value =>
          (Rule.text emit value (.within node)).andThen fun text => .done (before ++ text) := by
  unfold optionalText optional
  cases node.field? field with
  | none => rfl
  | some value =>
      simp only [write, write_wanting, Rule.text_eq fits, andThen_assoc, done_andThen]

end Fits

theorem write_parameter (function : Node) (param : Value) (index : Nat) :
    (parameter function param index).write emit.shown =
      (Rule.parameter emit function param index).andThen fun output => .done output.shown := by
  unfold parameter Rule.parameter Rule.parameterValue
  simp only [write_shaped, bind_eq, pure_eq, andThen_assoc]
  congr 1
  funext default
  congr 1
  funext node
  split
  · simp only [write_needed, write, Rule.child_shown, andThen_assoc, done_andThen]
  · split
    · rw [write, done_andThen, Rule.child_shown]
    · rw [write, done_andThen, Rule.child_shown]

theorem write_parameters (function : Node) :
    (parameters function).write emit.shown =
      (Rule.parameters emit function).andThen fun outputs =>
        .done (Rule.commaSeparated (outputs.map Output.shown)) := by
  unfold parameters Rule.parameters
  simp only [write_shaped, write_separatedBy, each_map, write_parameter, each_andThen, bind_eq,
    andThen_assoc, done_andThen, Rule.commaSeparated]

theorem write_superclass (node : Node) :
    (superclass node).write emit.shown = Rule.superclass emit node := by
  unfold superclass Rule.superclass optional
  cases node.field? "superClass" with
  | none => rfl
  | some value =>
      simp only [write_shaped, bind_eq, pure_eq, Rule.shown_eq]
      congr 1
      funext parent
      split
      · rfl
      · exact done_andThen _ _

theorem write_optionalChild (node : Node) (field absent before after : String) :
    (optionalChild node field absent before after).write emit.shown =
      match node.field? field with
      | none => .done absent
      | some value =>
          (Rule.shown emit value (.within node)).andThen fun text =>
            .done (before ++ text ++ after) := by
  unfold optionalChild optional
  cases node.field? field with
  | none => rfl
  | some value =>
      simp only [joined, write, Rule.shown_eq, andThen_assoc, done_andThen, String.append_assoc,
        String.append_empty]

theorem rendering_needed (node : Node) (field : String) (next : Value → Layout)
    (owesTerminator : Bool) :
    (needed node field next).rendering emit.shown owesTerminator =
      (Rule.required node field).andThen fun value =>
        (next value).rendering emit.shown owesTerminator := by
  simp only [rendering, write_needed, andThen_assoc]

theorem rendering_unlessUnsupported (node : Node) (next : Layout) :
    (unlessUnsupported node next).rendering emit.shown false =
      match Rule.unsupportedForm? node with
      | some feature => Rule.unsupported node feature
      | none => next.rendering emit.shown false := by
  unfold unlessUnsupported
  cases Rule.unsupportedForm? node with
  | some feature => simp only [rendering, write, andThen_assoc, done_andThen]; rfl
  | none => rfl

/-! ## Rules that write a text -/

variable {options : Options} {node : Node} {position : Position}

theorem binary_eq :
    Rule.binary emit node =
      (Construct.binary.layout options node position).rendering emit.shown false := by
  simp only [Construct.layout, Rule.binary, rendering, joined, write, write_side, present,
    write_needed, bind_eq, pure_eq, andThen_assoc, done_andThen, String.append_assoc,
    String.append_empty]
  congr 1; funext left
  congr 1; funext right
  exact Rule.required_andThen _ _ _

theorem property_eq :
    Rule.property emit node = (property node).rendering emit.shown false := by
  simp only [Rule.property, property, rendering_needed, rendering_unlessUnsupported, bind_eq,
    pure_eq]
  congr 1; funext key
  congr 1; funext value
  cases Rule.unsupportedForm? node with
  | some feature => rfl
  | none =>
      simp only [rendering, write_shaped, write, Rule.shown_eq, andThen_assoc, done_andThen]

theorem member_eq (fits : emit.Fits) :
    Rule.member emit options node position =
      (member options node position).rendering emit.shown false := by
  simp only [Rule.member, member, rendering, write_shaped, write_needed, bind_eq, pure_eq,
    andThen_assoc]
  congr 1; funext object
  congr 1; funext property
  congr 1; funext substitute
  cases substitute with
  | some substitute => simp only [write_substituted fits]
  | none =>
      simp only [access, write, Rule.shown_eq, andThen_assoc]
      congr 1; funext text
      split
      · simp only [joined, write, andThen_assoc, done_andThen, String.append_assoc,
          String.append_empty]
      · simp only [write, andThen_assoc, done_andThen, String.append_assoc]

section Fits

include fits

theorem functionDeclaration_eq :
    Rule.functionDeclaration emit node =
      (Construct.functionDeclaration.layout options node position).rendering emit.shown false := by
  simp only [Construct.layout, Rule.functionDeclaration, rendering, joined, write,
    write_parameters, present, parameterTexts, write_wanting, write_text fits, write_needed,
    bind_eq, pure_eq, andThen_assoc, done_andThen, String.append_assoc, String.append_empty,
    String.empty_append]
  refine andThen_congr fun params done => ?_
  rw [Rule.required_andThen]
  refine Rule.required_congr fun body found => ?_
  congr 1; funext entered
  rw [Rule.texts_eq, parameters_form fits done]
  simp only [andThen_assoc, done_andThen]
  congr 1; funext fit
  simp only [Rule.required, Node.require, found]
  rw [Node.field_of_field? found]
  exact (done_andThen _ _).symm

theorem classDeclaration_eq :
    Rule.classDeclaration emit node =
      (Construct.classDeclaration.layout options node position).rendering emit.shown false := by
  simp only [Construct.layout, Rule.classDeclaration, rendering, joined, write, write_superclass,
    present, write_text fits, write_needed, bind_eq, pure_eq, andThen_assoc, done_andThen,
    String.append_assoc, String.append_empty, String.empty_append]
  exact Rule.required_andThen _ _ _

theorem methodDefinition_eq :
    Rule.methodDefinition emit options node position =
      (method options node position).rendering emit.shown false := by
  simp only [Rule.methodDefinition, method, rendering_needed, rendering_unlessUnsupported, bind_eq,
    pure_eq]
  congr 1; funext key
  congr 1; funext value
  cases Rule.unsupportedForm? node with
  | some feature => rfl
  | none =>
      simp only [rendering, write_shaped, joined, write, Rule.text_eq fits, Value.form,
        Rule.form_asDeclaration, andThen_assoc, done_andThen, String.append_assoc,
        String.append_empty]
      rfl

theorem arrayLiteral_eq :
    Rule.arrayLiteral emit node =
      (Construct.arrayLiteral.layout options node position).rendering emit.shown false := by
  simp only [Construct.layout, Rule.arrayLiteral, rendering, joined, write, write_wanting,
    write_shaped, write_separatedBy, Rule.commaSeparated, bind_eq, pure_eq, andThen_assoc,
    done_andThen, String.append_assoc, String.append_empty]
  refine ofShape_congr fun items listed => ?_
  let produce (element : Value) : Emission Fault Output :=
    if element.isNull then .done (.text "null") else Rule.child emit element (.within node)
  have forms : ∀ item ∈ items, ∀ output, (produce item).outcome = .ok output →
      output.form.isText = item.form.isText := by
    intro item _ output done
    by_cases hole : item.isNull = true
    · rw [Value.eq_null_of_isNull hole]
      simp only [produce, if_pos hole] at done
      cases done
      rfl
    · simp only [produce, if_neg hole] at done
      exact congrArg Form.isText (Rule.child_form fits done)
  refine (Rule.each_texts produce (fun item => item.form.isText) items forms _).trans ?_
  rw [Node.itemsYieldText_eq listed, each_map, ← each_zipIdx]
  congr 2
  funext entry
  by_cases hole : entry.1.isNull = true
  · simp only [produce, if_pos hole, write, done_andThen]
    rfl
  · simp only [produce, if_neg hole, write, Rule.child_shown]

theorem forStatement_eq :
    Rule.forStatement emit node =
      (Construct.forStatement.layout options node position).rendering emit.shown false := by
  have start : (Layout.optional node "init" empty (loopInit node)).write emit.shown =
      Rule.loopStart emit node := by
    unfold Layout.optional Rule.loopStart
    cases node.field? "init" with
    | none => rfl
    | some init => exact write_loopInit fits node init
  have clause (field : String) : (optionalChild node field "" "" "").write emit.shown =
      Rule.optionalClause emit node field := by
    rw [write_optionalChild]
    unfold Rule.optionalClause
    cases node.field? field with
    | none => rfl
    | some value => simp only [String.empty_append, String.append_empty, andThen_done]
  simp only [Construct.layout, Rule.forStatement, rendering, joined, write, write_child, start,
    clause, Rule.shown_eq, bind_eq, pure_eq, andThen_assoc, done_andThen, String.append_assoc,
    String.append_empty]

theorem returnStatement_eq :
    Rule.returnStatement emit node =
      (Construct.returnStatement.layout options node position).rendering emit.shown true := by
  simp only [Construct.layout, Rule.returnStatement, rendering, write_optionalText fits]
  cases node.field? "argument" with
  | none => exact (done_andThen _ _).symm
  | some argument => simp only [bind_eq, pure_eq, andThen_assoc, done_andThen]

theorem switchStatement_eq :
    Rule.switchStatement emit node =
      (Construct.switchStatement.layout options node position).rendering emit.shown false := by
  simp only [Construct.layout, Rule.switchStatement, rendering, joined, write, write_child,
    write_shaped, write_joined, each_map, each_andThen, each_textSlots fits, Rule.shown_eq, bind_eq,
    pure_eq, andThen_assoc, done_andThen, String.append_assoc, String.append_empty]

theorem switchCase_eq :
    Rule.switchCase emit node =
      (Construct.switchCase.layout options node position).rendering emit.shown false := by
  unfold Rule.switchCase Rule.caseLabel
  simp only [Construct.layout, rendering, write, write_optionalChild, write_statements fits]
  cases node.field? "test" <;>
    simp only [bind_eq, pure_eq, andThen_assoc, done_andThen, String.append_assoc]

theorem moduleDeclaration_eq :
    Rule.moduleDeclaration emit node =
      (Construct.moduleDeclaration.layout options node position).rendering emit.shown false := by
  simp only [Construct.layout, Rule.moduleDeclaration, rendering, joined, write, present,
    write_needed, write_moduleBody fits, bind_eq, pure_eq, andThen_assoc, done_andThen,
    String.append_assoc, String.append_empty, String.empty_append]
  exact Rule.required_andThen _ _ _

end Fits

theorem importSpecifier_eq :
    Rule.importSpecifier node position = (imported node position).rendering emit.shown false := by
  unfold Rule.importSpecifier imported importedModule useStatement Rule.importedModule
    Rule.importedBinding rendering Layout.optional
  cases position.importSource with
  | named moduleName =>
      cases node.field? "id" with
      | some id =>
          simp only [write, bind_eq, pure_eq, done_andThen, String.empty_append,
            ImportSource.moduleName]
      | none =>
          simp only [write, write_needed, bind_eq, pure_eq, done_andThen, andThen_assoc,
            String.empty_append, ImportSource.moduleName]
  | _ => rfl

end Layout

end Rules

end PhpRendering
