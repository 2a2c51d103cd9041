import Mathlib.Data.List.Forall2
import PhpRendering.Proofs.Requirement
import PhpRendering.Proofs.Safety

/-!
# Written texts

What a layout writes when nothing stops it, one rule for each way to lay out. The text of
a node is what its layout writes, with the terminator that it owes, unless a field is
missing: then the text is empty.
-/

namespace PhpRendering

/-- The texts that a layout may give when its slots are filled by a renderer. -/
inductive Layout.Writes (render : Renderer) : Layout → String → Prop where
  | word (text : String) : (Layout.word text).Writes render text
  | visit {source : Source} {value : Value} {position : Position} {text : String}
      (rendered : (render value position).outcome = .ok text) :
      (Layout.visit source value position).Writes render text
  | enter (function : Node) : (Layout.enter function).Writes render ""
  | report (diagnostic : Diagnostic) : (Layout.report diagnostic).Writes render ""
  | next {first second : Layout} {before after : String} (one : first.Writes render before)
      (other : second.Writes render after) :
      (Layout.next first second).Writes render (before ++ after)
  | swap {first second : Layout} {before after : String} (one : first.Writes render after)
      (other : second.Writes render before) :
      (Layout.swap first second).Writes render (before ++ after)
  | unwritten {layout : Layout} {text : String} (inner : layout.Writes render text) :
      (Layout.unwritten layout).Writes render ""
  | clause {layout : Layout} {text : String} (inner : layout.Writes render text) :
      (Layout.clause layout).Writes render (withoutTerminator text)
  | line {layout : Layout} {text : String} (inner : layout.Writes render text) :
      (Layout.line layout).Writes render (endLine text)
  | changed (change : String → String) {layout : Layout} {text : String}
      (inner : layout.Writes render text) : (Layout.changed change layout).Writes render (change text)

open Emission

/-- A layout gives the text that is written when nothing stops it. -/
theorem Layout.writes_iff {render : Renderer} {layout : Layout} {text : String} :
    layout.Writes render text ↔ (layout.write render).outcome = .ok text := by
  constructor
  · intro writes
    induction writes with
    | word text => rfl
    | visit rendered => exact insideRule_outcome_ok_iff.mpr rendered
    | enter function => rfl
    | report diagnostic => rfl
    | next _ _ before after =>
        exact andThen_outcome_ok_iff.mpr ⟨_, before, andThen_outcome_ok_iff.mpr ⟨_, after, rfl⟩⟩
    | swap _ _ after before =>
        exact andThen_outcome_ok_iff.mpr ⟨_, after, andThen_outcome_ok_iff.mpr ⟨_, before, rfl⟩⟩
    | unwritten _ ih => exact andThen_outcome_ok_iff.mpr ⟨_, ih, rfl⟩
    | clause _ ih => exact andThen_outcome_ok_iff.mpr ⟨_, ih, rfl⟩
    | line _ ih => exact andThen_outcome_ok_iff.mpr ⟨_, ih, rfl⟩
    | changed _ _ ih => exact andThen_outcome_ok_iff.mpr ⟨_, ih, rfl⟩
  · intro written
    induction layout generalizing text with
    | word known =>
        cases written
        exact .word known
    | visit source value position => exact .visit (insideRule_outcome_ok_iff.mp written)
    | enter function =>
        cases written
        exact .enter function
    | report diagnostic =>
        cases written
        exact .report diagnostic
    | stop fault => cases written
    | next first second one other =>
        obtain ⟨before, early, later⟩ := andThen_outcome_ok_iff.mp written
        obtain ⟨after, late, ⟨⟩⟩ := andThen_outcome_ok_iff.mp later
        exact .next (one early) (other late)
    | swap first second one other =>
        obtain ⟨after, early, later⟩ := andThen_outcome_ok_iff.mp written
        obtain ⟨before, late, ⟨⟩⟩ := andThen_outcome_ok_iff.mp later
        exact .swap (one early) (other late)
    | unwritten layout ih =>
        obtain ⟨inner, found, ⟨⟩⟩ := andThen_outcome_ok_iff.mp written
        exact .unwritten (ih found)
    | clause layout ih =>
        obtain ⟨inner, found, ⟨⟩⟩ := andThen_outcome_ok_iff.mp written
        exact .clause (ih found)
    | line layout ih =>
        obtain ⟨inner, found, ⟨⟩⟩ := andThen_outcome_ok_iff.mp written
        exact .line (ih found)
    | changed change layout ih =>
        obtain ⟨inner, found, ⟨⟩⟩ := andThen_outcome_ok_iff.mp written
        exact .changed change (ih found)

namespace Layout

variable {render : Renderer} {text : String}

@[simp]
theorem writes_word_iff {known : String} : (word known).Writes render text ↔ text = known := by
  constructor
  · rintro ⟨⟩
    rfl
  · rintro rfl
    exact .word _

@[simp]
theorem writes_next_iff {first second : Layout} :
    (next first second).Writes render text ↔
      ∃ before after, first.Writes render before ∧ second.Writes render after ∧
        text = before ++ after := by
  constructor
  · rintro ⟨⟩
    exact ⟨_, _, by assumption, by assumption, rfl⟩
  · rintro ⟨before, after, one, other, rfl⟩
    exact .next one other

@[simp]
theorem writes_joined_nil_iff : (joined []).Writes render text ↔ text = "" :=
  writes_word_iff

@[simp]
theorem writes_joined_cons_iff {first : Layout} {rest : List Layout} :
    (joined (first :: rest)).Writes render text ↔
      ∃ before after, first.Writes render before ∧ (joined rest).Writes render after ∧
        text = before ++ after :=
  writes_next_iff

@[simp]
theorem writes_visit_iff {source : Source} {value : Value} {position : Position} :
    (visit source value position).Writes render text ↔
      (render value position).outcome = .ok text := by
  constructor
  · rintro ⟨⟩
    assumption
  · exact .visit

@[simp]
theorem writes_enter_iff {function : Node} : (enter function).Writes render text ↔ text = "" := by
  constructor
  · rintro ⟨⟩
    rfl
  · rintro rfl
    exact .enter function

@[simp]
theorem not_writes_stop {fault : Fault} : ¬ (stop fault).Writes render text := by
  rintro ⟨⟩

@[simp]
theorem writes_wanting_iff {fits : Bool} {layout : Layout} :
    (wanting fits layout).Writes render text ↔ fits = true ∧ layout.Writes render text := by
  cases fits with
  | true => simp [wanting]
  | false => simp [wanting]

@[simp]
theorem writes_needed_iff {node : Node} {field : String} {next : Value → Layout} :
    (needed node field next).Writes render text ↔
      ∃ value, node.field? field = some value ∧ (next value).Writes render text := by
  unfold needed Node.require
  cases node.field? field with
  | none => simp
  | some value => simp

@[simp]
theorem writes_shaped_iff {α : Type} {result : Except Crash α} {next : α → Layout} :
    (shaped result next).Writes render text ↔
      ∃ found, result = .ok found ∧ (next found).Writes render text := by
  cases result with
  | error crash => simp [shaped]
  | ok found => simp [shaped]

@[simp]
theorem writes_child_iff {node : Node} {field : String} :
    (child node field).Writes render text ↔
      ∃ value, node.field? field = some value ∧
        (render value (.within node)).outcome = .ok text := by
  simp [child]

@[simp]
theorem writes_text_iff {node : Node} {field : String} :
    (Layout.text node field).Writes render text ↔
      ∃ value, node.field? field = some value ∧ value.form.isText = true ∧
        (render value (.within node)).outcome = .ok text := by
  simp [Layout.text]

@[simp]
theorem writes_present_iff {node : Node} {field : String} :
    (present node field).Writes render text ↔
      (∃ value, node.field? field = some value) ∧ text = "" := by
  simp [present]

/-! ### Several slots -/

theorem Writes.joined {layouts : List Layout} {texts : List String}
    (all : List.Forall₂ (Layout.Writes render) layouts texts) :
    (Layout.joined layouts).Writes render (Text.joined texts) := by
  induction all with
  | nil => exact .word ""
  | cons first _ ih => exact .next first ih

theorem Writes.separatedBy (separator : String) {layouts : List Layout} {texts : List String}
    (all : List.Forall₂ (Layout.Writes render) layouts texts) :
    (Layout.separatedBy separator layouts).Writes render (Text.separatedBy separator texts) := by
  induction all with
  | nil => exact .word ""
  | cons first rest ih =>
      cases rest with
      | nil => exact first
      | cons second later =>
          rw [Text.separatedBy_cons_cons, String.append_assoc]
          exact .next first (.next (.word separator) ih)

/-- Texts with words around each of them. -/
theorem Writes.around {layouts : List Layout} {texts : List String}
    (wrap : Layout → Layout) (wrapText : String → String)
    (each : ∀ layout text, layout.Writes render text → (wrap layout).Writes render (wrapText text))
    (all : List.Forall₂ (Layout.Writes render) layouts texts) :
    (Layout.joined (layouts.map wrap)).Writes render (Text.joined (texts.map wrapText)) := by
  refine .joined ?_
  rw [List.forall₂_map_left_iff, List.forall₂_map_right_iff]
  exact all.imp each

/-- The first of some texts, when the others are not written. -/
theorem Writes.firstOr (absent : String) {layouts : List Layout}
    {texts : List String} (all : List.Forall₂ (Layout.Writes render) layouts texts) :
    (Layout.firstOr absent layouts).Writes render (texts.headD absent) := by
  cases all with
  | nil => exact .word absent
  | cons first rest =>
      have whole := Writes.next first (.unwritten (.joined rest))
      rwa [String.append_empty] at whole

/-- The slots for the values of a list are filled by the texts of the values. -/
theorem writes_slots (source : Nat → Source) {position : Position} {values : List Value}
    {texts : List String}
    (all : List.Forall₂ (fun value text => (render value position).outcome = .ok text) values
      texts) :
    List.Forall₂ (Layout.Writes render) (slots source position values) texts := by
  have places (start : Nat) : List.Forall₂ (Layout.Writes render)
      ((values.zipIdx start).map fun entry => .visit (source entry.2) entry.1 position) texts := by
    induction all generalizing start with
    | nil => exact .nil
    | cons first _ ih => exact .cons (.visit first) (ih (start + 1))
  exact places 0

end Layout

/-- What is left of a node at its boundary: the text of its layout with the terminator
that it owes, or no text when a field is missing. -/
theorem render_outcome (options : Options) (node : Node) (position : Position) :
    (render options (.node node) position).outcome =
      match ((node.layout options position).write (render options)).outcome with
      | .ok written => .ok (Fragment.terminated ⟨written, node.owesTerminator options position⟩)
      | .error (.missing _) => .ok ""
      | .error (.crash crash) => .error crash := by
  rw [render_eq, renderNode]
  unfold atBoundary Layout.closed andThen
  cases ((node.layout options position).write (render options)).outcome with
  | ok written => rfl
  | error fault => cases fault <;> rfl

theorem Node.layout_eq {node : Node} {construct : Construct}
    (known : Construct.ofKind? node.kind = some construct) (options : Options)
    (position : Position) :
    node.layout options position = construct.layout options node position := by
  unfold Node.layout
  rw [known]

theorem Node.owesTerminator_eq {node : Node} {construct : Construct}
    (known : Construct.ofKind? node.kind = some construct) (options : Options)
    (position : Position) :
    node.owesTerminator options position = construct.owesTerminator options node position := by
  unfold Node.owesTerminator
  rw [known]

/-- The text of a node whose layout is written. -/
theorem render_of_writes {options : Options} {node : Node} {position : Position} {written : String}
    (writes : (node.layout options position).Writes (render options) written) :
    (render options (.node node) position).outcome =
      .ok (Fragment.terminated ⟨written, node.owesTerminator options position⟩) := by
  rw [render_outcome, Layout.writes_iff.mp writes]

theorem render_of_construct_writes {options : Options} {node : Node} {position : Position}
    {construct : Construct} (known : Construct.ofKind? node.kind = some construct)
    {written : String}
    (writes : (construct.layout options node position).Writes (render options) written) :
    (render options (.node node) position).outcome =
      .ok (Fragment.terminated ⟨written, construct.owesTerminator options node position⟩) := by
  rw [← node.layout_eq known] at writes
  rw [← node.owesTerminator_eq known]
  exact render_of_writes writes

/-- A node that lacks a field is rendered as no text. -/
theorem render_of_lacking {options : Options} {node : Node} {position : Position}
    {construct : Construct} (known : Construct.ofKind? node.kind = some construct)
    (missing : Missing)
    (lacking : ((construct.layout options node position).write (render options)).outcome =
      .error (.missing missing)) :
    (render options (.node node) position).outcome = .ok "" := by
  rw [render_outcome, node.layout_eq known, lacking]

/-- The text of a node is empty, or its layout is written and gets the terminator that
it owes. -/
theorem render_cases {options : Options} {node : Node} {position : Position} {text : String}
    (rendered : (render options (.node node) position).outcome = .ok text) :
    text = "" ∨ ∃ written, (node.layout options position).Writes (render options) written ∧
      text = Fragment.terminated ⟨written, node.owesTerminator options position⟩ := by
  rw [render_outcome] at rendered
  split at rendered
  · next written outcome =>
      exact .inr ⟨written, Layout.writes_iff.mpr outcome, (Except.ok.inj rendered).symm⟩
  · exact .inl (Except.ok.inj rendered).symm
  · cases rendered

/-- A named identifier that stands for its value is a variable. -/
theorem render_variable (options : Options) {node : Node} (kind : node.kind = "Identifier")
    (named : node.name ≠ "") (parent : Node) :
    (render options (.node node) (.within parent)).outcome = .ok ("$" ++ node.name) := by
  have known : Construct.ofKind? node.kind = some .identifier := by
    rw [kind]
    rfl
  have writes : (Construct.identifier.layout options node (.within parent)).Writes
      (render options) (Naming.variableName node.name) := by
    simp [Construct.layout, if_neg named, Position.within]
  rw [render_of_construct_writes known writes]
  rfl

/-! ## Nodes that lack nothing -/

/-- A layout that does not stop is written when all its slots are filled. -/
theorem Layout.exists_writes {render : Renderer} {layout : Layout}
    (slots : ∀ source value place, .visit source value place ∈ layout.tasks →
      ∃ text, (render value place).outcome = .ok text)
    (free : ∀ fault, .stop fault ∉ layout.tasks) : ∃ text, layout.Writes render text := by
  induction layout with
  | word text => exact ⟨text, .word text⟩
  | visit source value place =>
      obtain ⟨text, rendered⟩ := slots source value place (List.mem_singleton_self _)
      exact ⟨text, .visit rendered⟩
  | enter function => exact ⟨"", .enter function⟩
  | report diagnostic => exact ⟨"", .report diagnostic⟩
  | stop fault => exact absurd (List.mem_singleton_self _) (free fault)
  | next first second ih ihSecond =>
      simp only [tasks, List.mem_append, not_or] at slots free
      obtain ⟨before, one⟩ := ih (fun source value place held => slots source value place (.inl held))
        fun fault => (free fault).1
      obtain ⟨after, other⟩ := ihSecond
        (fun source value place held => slots source value place (.inr held))
        fun fault => (free fault).2
      exact ⟨before ++ after, .next one other⟩
  | swap first second ih ihSecond =>
      simp only [tasks, List.mem_append, not_or] at slots free
      obtain ⟨after, one⟩ := ih (fun source value place held => slots source value place (.inl held))
        fun fault => (free fault).1
      obtain ⟨before, other⟩ := ihSecond
        (fun source value place held => slots source value place (.inr held))
        fun fault => (free fault).2
      exact ⟨before ++ after, .swap one other⟩
  | unwritten layout ih =>
      obtain ⟨text, one⟩ := ih slots free
      exact ⟨"", .unwritten one⟩
  | clause layout ih =>
      obtain ⟨text, one⟩ := ih slots free
      exact ⟨_, .clause one⟩
  | line layout ih =>
      obtain ⟨text, one⟩ := ih slots free
      exact ⟨_, .line one⟩
  | changed change layout ih =>
      obtain ⟨text, one⟩ := ih slots free
      exact ⟨_, .changed change one⟩

def Part.isDirect : Part → Bool
  | .call => false
  | .access => false
  | _ => true

/-- What a direct part needs and does is the same with all substitutes. -/
theorem Part.silent_of_isMet {options : Options} {node : Node} {position : Position} {part : Part}
    (direct : part.isDirect = true) (usable : position.IsUsable) (readable : part.IsReadable node)
    (met : part.IsMet options node position) : Silent (part.tasks options node position) := by
  let builtIn : Options := { options with substitutes := .builtIn }
  have tasks : part.tasks options node position = part.tasks builtIn node position := by
    cases part <;> first | rfl | cases direct
  have same : part.IsMet builtIn node position := by
    cases part <;> first | exact met | cases direct
  rw [tasks]
  exact (Part.silent_iff rfl usable readable).mpr same

/-- The layout of a readable node that has all it needs is written, when it asks for no
substitute. -/
theorem Node.exists_writes {options : Options} {node : Node} {position : Position}
    {construct : Construct} (known : Construct.ofKind? node.kind = some construct)
    (direct : ∀ part ∈ construct.parts, part.isDirect = true) (readable : node.Readable)
    (usable : position.IsUsable) (met : ∀ part ∈ construct.parts, part.IsMet options node position) :
    ∃ written, (construct.layout options node position).Writes (render options) written := by
  have silent : Silent (node.tasks options position) := by
    rw [node.tasks_eq known]
    exact List.forall_mem_flatMap.mpr fun part listed => Part.silent_of_isMet (direct part listed)
      usable ((Node.readable_iff_parts known).mp readable part listed) (met part listed)
  rw [← node.layout_eq known]
  refine Layout.exists_writes (fun source value place held => ?_) fun fault held => ?_
  · rw [node.layout_tasks] at held
    obtain ⟨⟨child, rfl, below⟩, fine⟩ := Node.tasks_safe options readable usable _ held
    exact (render_isSafe options below fine).outcome
  · rw [node.layout_tasks] at held
    exact silent _ held

end PhpRendering
