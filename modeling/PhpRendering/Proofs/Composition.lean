import PhpRendering.Proofs.Layout

/-!
# Properties of layouts by composition

Many properties hold of a layout when they hold of its words. Such a property goes
through every way to lay out, so a rule has it when the words of the rule have it.
-/

namespace PhpRendering

/-- A property that holds of slots and of whatever has no text, and of a layout when it
holds of the parts that are written. Nothing is said about ends that are changed. -/
structure Layout.Compositional (P : Layout → Prop) : Prop where
  empty : P .empty
  visit : ∀ source value position, P (.visit source value position)
  enter : ∀ function, P (.enter function)
  report : ∀ diagnostic, P (.report diagnostic)
  stop : ∀ fault, P (.stop fault)
  next : ∀ {first second}, P first → P second → P (.next first second)
  swap : ∀ {first second}, P first → P second → P (.swap first second)
  unwritten : ∀ {layout}, P layout → P (.unwritten layout)

namespace Layout.Compositional

variable {P : Layout → Prop}

/-- A field that may be absent is read, or another layout takes its place. -/
theorem optional (_ : Compositional P) {node : Node} {field : String} {absent : Layout}
    {next : Value → Layout} (nothing : P absent)
    (follow : ∀ value, node.field? field = some value → P (next value)) :
    P (Layout.optional node field absent next) := by
  unfold Layout.optional
  cases found : node.field? field with
  | none => exact nothing
  | some value => exact follow value found

variable (compositional : Compositional P)
include compositional

theorem joined {layouts : List Layout} (all : ∀ layout ∈ layouts, P layout) :
    P (joined layouts) := by
  induction layouts with
  | nil => exact compositional.empty
  | cons first rest ih =>
      obtain ⟨head, tail⟩ := List.forall_mem_cons.mp all
      exact compositional.next head (ih tail)

theorem separatedBy {separator : String} (between : P (.word separator)) {layouts : List Layout}
    (all : ∀ layout ∈ layouts, P layout) : P (separatedBy separator layouts) := by
  induction layouts with
  | nil => exact compositional.empty
  | cons first rest ih =>
      obtain ⟨head, tail⟩ := List.forall_mem_cons.mp all
      cases rest with
      | nil => exact head
      | cons second rest =>
          exact compositional.next head (compositional.next between (ih tail))

theorem firstOr {absent : String} (nothing : P (.word absent)) {layouts : List Layout}
    (all : ∀ layout ∈ layouts, P layout) : P (firstOr absent layouts) := by
  cases layouts with
  | nil => exact nothing
  | cons first rest =>
      obtain ⟨head, tail⟩ := List.forall_mem_cons.mp all
      exact compositional.next head (compositional.unwritten (compositional.joined tail))

/-! ## Fields -/

variable {node : Node} {field : String}

theorem needed {next : Value → Layout}
    (follow : ∀ value, node.field? field = some value → P (next value)) :
    P (needed node field next) := by
  unfold Layout.needed Node.require
  cases found : node.field? field with
  | none => exact compositional.stop _
  | some value => exact follow value found

theorem shaped {α : Type} {result : Except Crash α} {next : α → Layout}
    (follow : ∀ found, result = .ok found → P (next found)) : P (shaped result next) := by
  cases result with
  | error crash => exact compositional.stop _
  | ok found => exact follow found rfl

theorem wanting {fits : Bool} {layout : Layout} (inner : P layout) : P (wanting fits layout) := by
  cases fits with
  | true => exact inner
  | false => exact compositional.next inner (compositional.stop _)

theorem child (node : Node) (field : String) : P (child node field) :=
  compositional.needed fun _ _ => compositional.visit _ _ _

theorem text (node : Node) (field : String) : P (Layout.text node field) :=
  compositional.needed fun _ _ => compositional.wanting (compositional.visit _ _ _)

theorem side (node : Node) (field : String) : P (side node field) :=
  compositional.needed fun _ _ => compositional.visit _ _ _

theorem present (node : Node) (field : String) : P (present node field) :=
  compositional.needed fun _ _ => compositional.empty

theorem optionalChild {absent before after : String} (nothing : P (.word absent))
    (early : P (.word before)) (late : P (.word after)) :
    P (optionalChild node field absent before after) :=
  compositional.optional nothing fun _ _ => compositional.next early
    (compositional.next (compositional.visit _ _ _) (compositional.next late compositional.empty))

theorem optionalText {absent before : String} (nothing : P (.word absent))
    (early : P (.word before)) : P (optionalText node field absent before) :=
  compositional.optional nothing fun _ _ =>
    compositional.next early (compositional.wanting (compositional.visit _ _ _))

theorem textSlots (source : Nat → Source) (position : Position) (values : List Value) :
    ∀ layout ∈ textSlots source position values, P layout :=
  List.forall_mem_map.mpr fun _ _ => compositional.wanting (compositional.visit _ _ _)

theorem slots (source : Nat → Source) (position : Position) (values : List Value) :
    ∀ layout ∈ slots source position values, P layout :=
  List.forall_mem_map.mpr fun _ _ => compositional.visit _ _ _

theorem optionalItems {together : List Layout → Layout}
    (all : ∀ layouts, (∀ layout ∈ layouts, P layout) → P (together layouts)) :
    P (optionalItems node field together) :=
  compositional.shaped fun _ _ => all _ (compositional.slots _ _ _)

theorem statements (parent : Node) (field : String) (list : Value) :
    P (statements parent field list) := by
  refine compositional.wanting (compositional.shaped fun items _ =>
    compositional.joined (List.forall_mem_map.mpr fun entry _ => ?_))
  split
  · exact compositional.empty
  · exact compositional.visit _ _ _

/-! ## Pieces of rules -/

theorem receiver (source : Source) (member : Node) : P (receiver source member) :=
  compositional.needed fun _ _ => compositional.visit _ _ _

theorem callReceiver (call : Node) : P (callReceiver call) :=
  compositional.needed fun _ _ => compositional.shaped fun _ _ => compositional.receiver _ _

theorem unlessUnsupported {next : Layout} (other : P next) : P (unlessUnsupported node next) := by
  unfold Layout.unlessUnsupported
  split
  · exact compositional.report _
  · exact other

theorem parameters (function : Node) (comma : P (.word ", ")) : P (parameters function) := by
  refine compositional.shaped fun params _ => compositional.separatedBy comma
    (List.forall_mem_map.mpr fun entry _ => ?_)
  refine compositional.shaped fun default _ => compositional.shaped fun param _ => ?_
  split
  · exact compositional.needed fun _ _ => compositional.needed fun _ _ => compositional.visit _ _ _
  · split
    · exact compositional.visit _ _ _
    · exact compositional.visit _ _ _

theorem loopInit (loop : Node) (init : Value) (comma : P (.word ", "))
    (clause : ∀ {layout}, P layout → P (.clause layout)) : P (loopInit loop init) := by
  refine compositional.shaped fun start _ => ?_
  split
  · refine compositional.needed fun declarations _ => compositional.shaped fun items _ =>
      compositional.separatedBy comma (List.forall_mem_map.mpr fun slot inside => ?_)
    exact clause (compositional.textSlots _ _ _ slot inside)
  · exact clause (compositional.wanting (compositional.visit _ _ _))

theorem moduleBody (node : Node) (body : Value) : P (moduleBody node body) := by
  cases body with
  | list items => exact compositional.statements node "body" (.list items)
  | _ => exact compositional.visit _ _ _

theorem exported (node : Node) : P (exported node) := by
  unfold Layout.exported
  split
  · exact compositional.needed fun specifiers _ =>
      compositional.statements node "specifiers" specifiers
  · exact compositional.wanting (compositional.next (compositional.visit _ _ _)
      (compositional.shaped fun _ _ => compositional.empty))

end Layout.Compositional

end PhpRendering
