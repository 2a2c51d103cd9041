import PhpRendering.Proofs.ExpressionText

/-!
# Last letters of texts

A text that ends in a semicolon looks like a statement that has its terminator. The text
of an expression ends in a word of a rule or in a text of its own, and no word of a rule
ends so. A rule that closes a block ends its line, whatever stands in the block.
-/

namespace PhpRendering

namespace Text

def IsUnended (text : String) : Prop :=
  text.toList.getLast? ≠ some ';'

def EndsLine (text : String) : Prop :=
  text.toList.getLast? = some '\n'

instance : DecidablePred IsUnended :=
  fun text => inferInstanceAs (Decidable (text.toList.getLast? ≠ some ';'))

instance : DecidablePred EndsLine :=
  fun text => inferInstanceAs (Decidable (text.toList.getLast? = some '\n'))

/-- The last letter of two texts is that of the second one, unless it is empty. -/
theorem getLast?_append (first second : String) :
    (first ++ second).toList.getLast? = second.toList.getLast?.or first.toList.getLast? := by
  rw [String.toList_append, List.getLast?_append]

/-- A text that is not empty alone tells the last letter. -/
theorem getLast?_append_of_ne_empty {second : String} (something : second ≠ "") (first : String) :
    (first ++ second).toList.getLast? = second.toList.getLast? := by
  rw [getLast?_append]
  cases last : second.toList.getLast? with
  | none => exact absurd (String.toList_inj.mp (List.getLast?_eq_none_iff.mp last)) something
  | some letter => rfl

theorem EndsLine.isUnended {text : String} (ends : EndsLine text) : IsUnended text := by
  intro semicolon
  cases ends.symm.trans semicolon

theorem EndsLine.append {second : String} (ends : EndsLine second) (first : String) :
    EndsLine (first ++ second) := by
  unfold EndsLine
  rw [getLast?_append, ends]
  rfl

theorem endsLine_endLine (text : String) : EndsLine (endLine text) := by
  unfold endLine
  split
  · assumption
  · have newline : EndsLine "\n" := by decide
    exact newline.append text

namespace IsUnended

theorem append {first second : String} (before : IsUnended first) (after : IsUnended second) :
    IsUnended (first ++ second) := by
  unfold IsUnended
  rw [getLast?_append]
  cases last : second.toList.getLast? with
  | none => exact before
  | some letter =>
      intro same
      exact after (last.trans same)

/-- What stands before a text that is not empty does not count. -/
theorem append_right {second : String} (something : second ≠ "") (after : IsUnended second)
    (first : String) : IsUnended (first ++ second) := by
  unfold IsUnended
  rwa [getLast?_append_of_ne_empty something]

theorem of_avoids {special : List Char} {text : String} (avoids : Avoids special text)
    (ends : ';' ∈ special) : IsUnended text :=
  fun last => avoids ';' (List.mem_of_getLast? last) ends

end IsUnended

theorem singleQuoted_isUnended (text : String) : IsUnended (singleQuoted text) := by
  unfold IsUnended singleQuoted
  rw [String.toList_ofList, List.getLast?_concat]
  decide

theorem doubleQuoted_isUnended (text : String) : IsUnended (doubleQuoted text) := by
  unfold IsUnended doubleQuoted
  rw [String.toList_ofList, List.getLast?_concat]
  decide

theorem unended_vocabulary : Vocabulary IsUnended :=
  ⟨fun avoids => .of_avoids avoids (by decide), fun {text} _ => singleQuoted_isUnended text⟩

/-- The rules of expressions add no semicolon at the end. -/
theorem unended_carried : Carried IsUnended IsUnended where
  append := IsUnended.append
  bare avoids := .of_avoids avoids (by decide)
  plain {text} plain := by
    rcases plain with unended | rfl | rfl
    · exact unended
    · decide
    · decide
  quoted {text} _ := doubleQuoted_isUnended text

/-- What is unended has no terminator, or one that ends its line. -/
theorem IsUnended.endsLine_statement {text : String} (unended : IsUnended text) :
    EndsLine (Fragment.terminated ⟨text, true⟩) := by
  cases ended : isTerminated text with
  | false =>
      rw [terminated_statement ended]
      have newline : EndsLine terminator := by decide
      exact newline.append text
  | true =>
      have bare : Fragment.terminated ⟨text, true⟩ = text := by
        simp [Fragment.terminated, ended]
      rw [bare]
      obtain ⟨before, last | last⟩ := isTerminated_iff.mp ended
      · exact absurd (by simp [last]) unended
      · simp [EndsLine, last]

theorem IsUnended.terminated {text : String} (unended : IsUnended text) (owes : Bool) :
    IsUnended (Fragment.terminated ⟨text, owes⟩) := by
  cases owes with
  | false => exact unended
  | true => exact unended.endsLine_statement.isUnended

end Text

def Substitute.IsUnended : Substitute → Prop
  | .constant text => Text.IsUnended text
  | _ => True

instance : DecidablePred Substitute.IsUnended
  | .constant text => inferInstanceAs (Decidable (Text.IsUnended text))
  | .receiverFirst _ => .isTrue trivial
  | .receiverLast _ => .isTrue trivial
  | .propertyFunction _ => .isTrue trivial
  | .charAt => .isTrue trivial

structure Options.IsUnended (options : Options) : Prop where
  methods : ∀ entry ∈ options.substitutes.methods, entry.2.IsUnended
  properties : ∀ entry ∈ options.substitutes.properties, entry.2.IsUnended

/-- A substitute that is no constant opens with a bracket. -/
theorem Substitute.IsUnended.opening {substitute : Substitute} (unended : substitute.IsUnended) :
    Text.IsUnended substitute.opening := by
  have bracket (name : String) : Text.IsUnended (name ++ "(") :=
    .append_right (by decide) (by decide) name
  cases substitute with
  | receiverFirst function => exact bracket function
  | receiverLast function => exact bracket function
  | propertyFunction function => exact bracket function
  | charAt => exact bracket "substr"
  | constant text => exact unended

theorem Options.IsUnended.opens {options : Options} (unended : options.IsUnended) :
    options.Opens Text.IsUnended :=
  ⟨fun entry listed => (unended.methods entry listed).opening,
    fun entry listed => (unended.properties entry listed).opening⟩

/-! ## Rules that end their lines -/

def Construct.endsInBlock : Construct → Bool
  | .functionDeclaration | .classDeclaration | .ifStatement | .forStatement | .forInStatement
  | .switchStatement => true
  | _ => false

namespace Layout

variable {render : Renderer}

def EndsLine (render : Renderer) (layout : Layout) : Prop :=
  ∀ text, layout.Writes render text → Text.EndsLine text

theorem EndsLine.next {second : Layout} (ends : second.EndsLine render) (first : Layout) :
    (Layout.next first second).EndsLine render := by
  intro text writes
  obtain ⟨before, after, -, other, rfl⟩ := writes_next_iff.mp writes
  exact (ends after other).append before

/-- The last word of a list of layouts. -/
theorem EndsLine.last {word : String} (ends : Text.EndsLine word) :
    (joined [.word word]).EndsLine render := by
  intro text writes
  obtain ⟨_, _, rfl, rfl, rfl⟩ := by
    simpa only [writes_joined_cons_iff, writes_joined_nil_iff, writes_word_iff] using writes
  rwa [String.append_empty]

theorem EndsLine.line (layout : Layout) : (Layout.line layout).EndsLine render := by
  intro text writes
  cases writes with
  | line inner => exact Text.endsLine_endLine _

end Layout

open Layout in
theorem Construct.layout_endsLine {construct : Construct} (closes : construct.endsInBlock = true)
    (options : Options) (node : Node) (position : Position) (render : Renderer) :
    (construct.layout options node position).EndsLine render := by
  have block : (joined [.word "\x7d\n"]).EndsLine render := .last (by decide)
  cases construct with
  | functionDeclaration =>
      exact .next (.next (.next (.next (.next (.next (.next (.next block _) _) _) _) _) _) _) _
  | classDeclaration =>
      have members : (joined [.word "\n\x7d\n"]).EndsLine render := .last (by decide)
      exact .next (.next (.next (.next (.next members _) _) _) _) _
  | ifStatement => exact .line _
  | forStatement =>
      exact .next (.next (.next (.next (.next (.next (.next (.next (.next block _) _) _) _) _) _)
        _) _) _
  | forInStatement =>
      exact .next (.next (.next (.next (.next (.next (.next block _) _) _) _) _) _) _
  | switchStatement => exact .next (.next (.next (.next block _) _) _) _
  | _ => cases closes

/-! ## Texts of expressions -/

/-- The text of a phrase does not end in a semicolon, by induction on what it visits. The
bodies of functions are no phrases, but a block is around them. -/
theorem render_isUnended {options : Options} (unended : options.IsUnended) {node : Node}
    (phrase : node.IsPhrase) (readable : node.Readable) (tree : node.IsPlainTree Text.IsUnended)
    {position : Position} (usable : position.IsUsable) {text : String}
    (rendered : (render options (.node node) position).outcome = .ok text) :
    Text.IsUnended text := by
  induction node, position using Node.visit_induction options generalizing text with
  | step node position ih =>
      rcases render_cases rendered with rfl | ⟨written, writes, rfl⟩
      · decide
      refine Text.IsUnended.terminated ?_ _
      unfold Node.layout at writes
      split at writes
      · cases writes
        decide
      · next construct known =>
          rcases phrase.construct construct known with expression | rfl
          · refine construct.layout_carries Text.unended_carried Text.unended_vocabulary
              unended.opens known expression readable tree.plain
              (fun key held => (tree.child held).plain) position (render options)
              (fun source value place held slot found => ?_) written writes
            rw [construct.layout_tasks, ← node.tasks_eq known] at held
            obtain ⟨⟨child, rfl, below⟩, fine⟩ := Node.tasks_safe options readable usable _ held
            have other : source ≠ .method := phrase.source_ne_method held
            obtain ⟨inner, -⟩ :=
              tree.visit Text.unended_vocabulary (fun same => absurd same other) readable held
            have again : child.IsPhrase := by
              rcases phrase.visit readable held with ⟨-, declared⟩ | ⟨again, -⟩
              · cases known.symm.trans declared
                cases expression
              · exact again
            exact ih source child place held again below inner fine found
          · exact (Construct.layout_endsLine rfl options node position _ written writes).isUnended

end PhpRendering
