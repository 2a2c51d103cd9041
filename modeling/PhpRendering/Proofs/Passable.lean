import PhpRendering.Proofs.Readable

/-!
# Tasks without obstacles

A task is passable when it does not stop at a crash and renders its value below
nodes. All tasks of a readable node are passable: a rule looks at nothing but what a
reading of its construct names.
-/

namespace PhpRendering

structure Position.IsUsable (position : Position) : Prop where
  parent : position.parentIsUsable = true
  source : position.importSource ≠ .unusable

theorem Node.importSource_ne_unusable (parent : Node) : parent.importSource ≠ .unusable := by
  unfold Node.importSource
  cases parent.require "source" with
  | ok source => exact ImportSource.noConfusion
  | error missing => exact ImportSource.noConfusion

theorem Position.within_isUsable (parent : Node) : (Position.within parent).IsUsable :=
  ⟨rfl, parent.importSource_ne_unusable⟩

def Task.IsPassable : Task → Prop
  | .visit _ _ position => position.IsUsable
  | .stop (.crash _) => False
  | _ => True

/-! ## Accesses that succeed -/

/-- The name that a readable member access reads. -/
theorem Node.Fulfils.accessedName {member : Node}
    (fulfils : member.Fulfils ⟨"property", .node, .rendered⟩) :
    ∃ name, member.accessedName = .ok name := by
  unfold Node.accessedName
  split
  · exact ⟨"", rfl⟩
  · split
    · next property held =>
        split
        · next kind =>
            obtain ⟨_, ⟨⟩, roles⟩ := fulfils.node_of_field? (.inl rfl) (Node.field?_node held)
            have known : Construct.ofKind? property.kind = some .identifier := by
              rw [kind]
              rfl
            have named : property.Fulfils ⟨"name", .text, .unread⟩ :=
              (Node.readable_iff_parts known).mp roles .name (List.mem_singleton_self _) _
                (List.mem_singleton_self _)
            rcases named.1 with nothing | ⟨letters, text⟩
            · exact ⟨"", congrArg Value.substituteName nothing⟩
            · exact ⟨letters, congrArg Value.substituteName text⟩
        · exact ⟨"", rfl⟩
    · exact ⟨"", rfl⟩

/-- Whether a readable callee has a substitute. -/
theorem Rule.methodSubstitute?_ok (options : Options) {callee : Node} (readable : callee.Readable) :
    ∃ found, Rule.methodSubstitute? options callee = .ok found := by
  unfold Rule.methodSubstitute?
  split
  · next kind =>
      have known : Construct.ofKind? callee.kind = some .member := by
        rw [kind]
        rfl
      have access := (Node.readable_iff_parts known).mp readable .access (List.mem_singleton_self _)
      obtain ⟨name, asked⟩ := (access ⟨"property", .node, .rendered⟩ (by decide)).accessedName
      rw [asked]
      exact ⟨_, rfl⟩
  · exact ⟨none, rfl⟩

/-- Whether a readable member access has a substitute. -/
theorem Rule.propertySubstitute?_ok (options : Options) {member : Node} {position : Position}
    (readable : Part.access.IsReadable member) (usable : position.IsUsable) :
    ∃ found, Rule.propertySubstitute? options member position = .ok found := by
  obtain ⟨name, asked⟩ := (readable ⟨"property", .node, .rendered⟩ (by decide)).accessedName
  unfold Rule.propertySubstitute? Position.checkParent
  rw [usable.parent, asked]
  split
  · exact ⟨none, rfl⟩
  · cases position.isTarget with
    | true => exact ⟨none, rfl⟩
    | false => exact ⟨_, rfl⟩

/-- The key of an entry whose literals are spelled as texts. -/
theorem Rule.keyText_ok {key : Node} (roles : ∀ role ∈ Use.spelled.roles key, ReadableAs role key) :
    ∃ name, Rule.keyText key = .ok name := by
  unfold Rule.keyText
  split
  · next kind =>
      simp only [Use.roles, if_pos kind, List.mem_singleton, forall_eq] at roles
      have spelled : key.Fulfils ⟨"raw", .text, .unread⟩ :=
        readableAs_iff.mp roles _ (List.mem_singleton_self _)
      split
      · next text _ => exact ⟨text, rfl⟩
      · split
        · next flag =>
            unfold Node.flag at flag
            rcases spelled.1 with nothing | ⟨letters, text⟩
            · rw [nothing] at flag
              cases flag
            · exact ⟨letters, congrArg Rule.keySpelling text⟩
        · exact ⟨_, rfl⟩
  · exact ⟨key.name, rfl⟩

/-- The list of defaults can be asked for each position. -/
theorem Node.Fulfils.itemAt_defaults {node : Node}
    (fulfils : node.Fulfils ⟨"defaults", .holedNodes, .rendered⟩) (index : Nat) :
    ∃ default, (Rule.defaults node).itemAt index = .ok default := by
  unfold Rule.defaults
  split
  · next flag =>
      obtain ⟨items, listed⟩ := fulfils.items_of_flag (.inr rfl) flag
      exact ⟨_, congrArg (Value.itemAt index) listed⟩
  · exact ⟨.null, rfl⟩

section Tasks

variable {options : Options} {node : Node} {position : Position}

/-- A value that is rendered in its place stands below nodes. -/
theorem Task.IsPlaced.isUsable (usable : position.IsUsable) {source : Source} {value : Value}
    {place : Position} (placed : (Task.visit source value place).IsPlaced options node position) :
    place.IsUsable := by
  have below (inside : place.IsBelow node) : place.IsUsable :=
    ⟨inside.usable, inside.source ▸ node.importSource_ne_unusable⟩
  cases source with
  | copy =>
      rcases placed with ⟨-, rfl⟩ | ⟨-, rfl⟩
      · exact Position.within_isUsable node
      · exact usable
  | field name => exact below placed
  | item name index => exact below placed
  | receiver =>
      obtain ⟨callee, -, rfl⟩ := placed
      exact Position.within_isUsable callee
  | declarator index =>
      obtain ⟨start, -, -, rfl⟩ := placed
      exact Position.within_isUsable start
  | method =>
      obtain ⟨rfl, -⟩ := placed
      exact Position.within_isUsable node
  | pattern index => exact below placed
  | defaulted index => exact below placed

/-- A part of a readable node can use what it reads. -/
theorem Part.IsReadable.not_crashes {part : Part} (readable : part.IsReadable node)
    (usable : position.IsUsable) (crash : Crash) : ¬ part.Crashes options node position crash := by
  intro crashes
  -- Each access that may fail succeeds on what the part reads.
  have clash {α : Type} {result : Except Crash α} (fine : ∃ found, result = .ok found)
      (failed : result = .error crash) : False := by
    obtain ⟨found, same⟩ := fine
    cases same.symm.trans failed
  cases crashes with
  | noText provided other =>
      rw [provided.form_eq readable] at other
      cases other
  | mark read found failed =>
      subst read
      have argument : (node.field "argument").form = .text :=
        Value.form_of_nodesOf fun child inside => Node.Readable.form_eq fun role known =>
          (readable ⟨"argument", .anything, .rendered⟩ (List.mem_cons_of_mem _
            (List.mem_singleton_self _))).2 child inside role known
      rw [argument] at failed
      rcases (readable _ (List.mem_cons_self ..)).1 with nothing | ⟨letters, text⟩
      · rw [Node.field?_eq_none_iff.mpr nothing] at found
        cases found
      · cases (Node.field_of_field? found).symm.trans text
        exact clash ⟨Form.text, rfl⟩ failed
  | key read held failed =>
      subst read
      have key : node.Fulfils ⟨"key", .node, .spelled⟩ := readable _ (List.mem_cons_self ..)
      obtain ⟨_, ⟨⟩, roles⟩ := key.node_of_field? (.inl rfl) (Node.field?_node held)
      exact clash (Rule.keyText_ok roles) failed
  | single listed found failed =>
      obtain ⟨child, rfl, -⟩ := (readable _ listed).node_of_field? (.inl rfl) found
      exact clash ⟨child, rfl⟩ failed
  | several listed plain found failed =>
      obtain ⟨items, rfl⟩ := (readable _ listed).items_of_field? plain found
      exact clash ⟨items, rfl⟩ failed
  | optional listed plain failed => exact clash ((readable _ listed).optionalItems plain) failed
  | callee read held failed =>
      subst read
      have callee : node.Fulfils ⟨"callee", .node, .called⟩ := readable _ (by decide)
      obtain ⟨called, same, roles⟩ := callee.node_of_field? (.inl rfl) (Node.field?_node held)
      cases same
      exact clash (Rule.methodSubstitute?_ok options fun role known =>
        roles role (List.mem_append_left _ known)) failed
  | property read failed =>
      subst read
      exact clash (Rule.propertySubstitute?_ok options readable usable) failed
  | parent read failed => exact clash ⟨(), if_pos usable.parent⟩ failed
  | default read failed =>
      subst read
      have defaults : node.Fulfils ⟨"defaults", .holedNodes, .rendered⟩ := readable _ (by decide)
      exact clash (defaults.itemAt_defaults _) failed
  | param read held listed failed =>
      subst read
      have params : node.Fulfils ⟨"params", .nodes, .parameter⟩ := readable _ (by decide)
      obtain ⟨child, rfl, -⟩ := params.node_of_item (.inl rfl) held listed
      exact clash ⟨child, rfl⟩ failed
  | method read found failed =>
      subst read
      obtain ⟨function, rfl, -⟩ :=
        (readable _ (List.mem_singleton_self _)).node_of_field? (.inl rfl) found
      exact clash ⟨function, rfl⟩ failed
  | @declarators start _ _ read held kind found failed =>
      subst read
      obtain ⟨_, same, roles⟩ :=
        (readable _ (List.mem_singleton_self _)).node_of_field? (.inl rfl) (Node.field?_node held)
      cases same
      have known : Construct.ofKind? start.kind = some .variableDeclaration := by
        rw [kind]
        rfl
      have declarations : start.Fulfils ⟨"declarations", .nodes, .rendered⟩ :=
        (Node.readable_iff_parts known).mp roles (.children "declarations")
          (List.mem_singleton_self _) _ (List.mem_singleton_self _)
      obtain ⟨items, rfl⟩ := declarations.items_of_field? (.inl rfl) found
      exact clash ⟨items, rfl⟩ failed
  | source read unusable => exact usable.source unusable

/-- The tasks of a readable part have no obstacles. -/
theorem Part.tasks_passable (options : Options) (usable : position.IsUsable) {part : Part}
    (readable : part.IsReadable node) :
    ∀ task ∈ part.tasks options node position, task.IsPassable := by
  intro task among
  cases part.tasks_do options node position task among with
  | visit provided placed marked => exact placed.isUsable usable
  | crash crashes => exact readable.not_crashes usable _ crashes
  | _ => trivial

end Tasks

end PhpRendering
