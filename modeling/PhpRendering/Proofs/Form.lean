import PhpRendering.Render

/-!
# Forms of outputs

Whether the output of a value is a text does not depend on how it is rendered. Nothing
but the spelling of a literal, a declarator or a sum that stands for it, and a call that
continues a list, is anything else. The form of an output is read off the tree: it tells
which rules fail for want of a text, and what is shown of an output that nothing else
is known of.
-/

namespace PhpRendering

/-- What can be told of an output without rendering: texts and lists depend on what is
rendered, everything else does not. -/
inductive Form where
  | text
  | list (isEmpty : Bool)
  | scalar (value : Scalar)
  | notANumber
  | object (shown : String)
deriving DecidableEq, Repr

namespace Form

def isText : Form → Bool
  | .text => true
  | _ => false

def isList : Form → Bool
  | .list _ => true
  | _ => false

def shown : Form → String
  | .scalar value => value.shown
  | .notANumber => "nan"
  | .object shown => shown
  | _ => ""

theorem isText_iff {form : Form} : form.isText = true ↔ form = .text := by
  cases form <;> simp [isText]

end Form

def Output.form : Output → Form
  | .held (.scalar (.text _)) => .text
  | .held (.scalar value) => .scalar value
  | .held (.list items) => .list items.isEmpty
  | .held other => .object other.shown
  | .notANumber => .notANumber

def Form.plus : Form → Value → Except Crash Form
  | .list isEmpty, .list more => .ok (.list (isEmpty && more.isEmpty))
  | .text, .scalar (.text _) => .ok .text
  | .scalar first, .scalar second =>
      (Output.plus (.held (.scalar first)) (.scalar second)).map Output.form
  | .notANumber, .scalar second => (Output.plus .notANumber (.scalar second)).map Output.form
  | _, _ => .error .notAName

namespace Output

variable {output : Output}

theorem exists_text (isText : output.form = .text) : ∃ text, output = .text text := by
  unfold form at isText
  split at isText
  · next text => exact ⟨text, rfl⟩
  all_goals cases isText

theorem exists_list {isEmpty : Bool} (isList : output.form = .list isEmpty) :
    ∃ items, output = .held (.list items) ∧ items.isEmpty = isEmpty := by
  unfold form at isList
  split at isList
  · cases isList
  · cases isList
  · next items => exact ⟨items, rfl, Form.list.inj isList⟩
  all_goals cases isList

theorem asText_of_form (isText : output.form = .text) : output.asText = .ok output.shown := by
  obtain ⟨text, rfl⟩ := exists_text isText
  rfl

theorem asText_error (other : output.form.isText = false) : output.asText = .error .notAName := by
  unfold asText
  split
  · cases other
  · rfl

/-! ## Sums -/

theorem form_plus (output : Output) (operator : Value) :
    (output.plus operator).map form = output.form.plus operator := by
  cases output with
  | notANumber => cases operator <;> rfl
  | held held =>
      cases held with
      | list items =>
          cases operator with
          | list more =>
              simp only [plus, form, Form.plus, Except.map]
              cases items <;> rfl
          | _ => rfl
      | scalar scalar =>
          cases scalar with
          | text before =>
              cases operator with
              | scalar second => cases second <;> rfl
              | _ => rfl
          | _ =>
              cases operator with
              | scalar second => cases second <;> rfl
              | _ => rfl
      | _ => cases operator <;> rfl

end Output

/-! ## Lists that are shown -/

/-- A shown list without its end, ready for more items. -/
def Text.opened (separated : Bool) (list : String) : String :=
  String.ofList list.toList.dropLast ++ if separated then ", " else ""

def Text.closing (list : String) : String :=
  String.ofList list.toList.tail

def Text.asItems (text : String) : String :=
  Text.closing (Value.list (Value.letters text)).shown

theorem shownItems_append (items more : List Value) :
    shownItems (items ++ more) = shownItems items ++ shownItems more := by
  induction items with
  | nil => rfl
  | cons item rest ih => simp only [List.cons_append, shownItems, ih]

theorem Text.separatedBy_append (separator : String) (texts more : List String) :
    separatedBy separator (texts ++ more) =
      separatedBy separator texts ++
        (if !texts.isEmpty && !more.isEmpty then separator else "") ++
          separatedBy separator more := by
  induction texts with
  | nil => simp
  | cons first rest ih =>
      cases rest with
      | nil => cases more <;> simp [separatedBy_cons_cons]
      | cons second rest =>
          rw [List.cons_append, List.cons_append, separatedBy_cons_cons, ← List.cons_append, ih]
          simp only [separatedBy_cons_cons, List.isEmpty_cons, String.append_assoc]

theorem shownItems_isEmpty (items : List Value) : (shownItems items).isEmpty = items.isEmpty := by
  cases items <;> rfl

/-- Two lists shown as one. -/
theorem Value.shown_append (items more : List Value) :
    (Value.list (items ++ more)).shown =
      Text.opened (!items.isEmpty && !more.isEmpty) (Value.list items).shown ++
        Text.closing (Value.list more).shown := by
  have before : ("[" ++ Text.separatedBy ", " (shownItems items) ++ "]").toList.dropLast =
      ("[" ++ Text.separatedBy ", " (shownItems items)).toList := by
    rw [String.toList_append]
    exact List.dropLast_concat
  simp only [Value.shown, Value.shownInside, shownItems_append, Text.separatedBy_append,
    shownItems_isEmpty, Text.opened, Text.closing, before, String.ofList_toList]
  apply String.toList_inj.mp
  simp

/-- What is left of a shown output when an operator is added to it. -/
def Form.start (operator : Value) (shown : String) : Form → String
  | .text => shown
  | .list isEmpty =>
      match operator with
      | .list more => Text.opened (!isEmpty && !more.isEmpty) shown
      | _ => ""
  | _ => ""

def Form.ending (operator : Value) : Form → String
  | .text => operator.shown
  | .list _ => Text.closing operator.shown
  | form => form.shown

namespace Output

variable {output : Output}

/-- The sum of two numbers is shown as its form tells. -/
theorem shown_sum {first second : Summand} {total : Output} (added : sum first second = .ok total) :
    total.shown = total.form.shown ∧ ∀ operator, total.form.ending operator = total.form.shown := by
  have ofFloats (one other : Number.Binary64) :
      (ofFloats one other).shown = (ofFloats one other).form.shown ∧
        ∀ operator, (ofFloats one other).form.ending operator = (ofFloats one other).form.shown := by
    unfold Output.ofFloats
    cases one.plus other <;> exact ⟨rfl, fun _ => rfl⟩
  unfold sum at added
  split at added
  · cases added
    exact ⟨rfl, fun _ => rfl⟩
  · cases one : first.asFloat with
    | error crash =>
        rw [one] at added
        cases added
    | ok value =>
        cases other : second.asFloat with
        | error crash =>
            rw [one, other] at added
            cases added
        | ok more =>
            rw [one, other] at added
            cases added
            exact ofFloats value more

/-- What is made by adding to an output that is no text and no list is a number. -/
theorem shown_plus_of_other {operator : Value} {total : Output} (other : output.form.isText = false)
    (single : output.form.isList = false) (added : output.plus operator = .ok total) :
    total.shown = total.form.ending operator := by
  unfold plus at added
  split at added
  · cases single
  · cases other
  · split at added
    · obtain ⟨shown, ending⟩ := shown_sum added
      exact shown.trans (ending _).symm
    · cases added
  · split at added
    · next second _ =>
        cases one : second.asFloat with
        | error crash =>
            rw [one] at added
            cases added
        | ok value =>
            rw [one] at added
            cases added
            rfl
    · cases added
  · cases added

/-- A sum is shown as what is left of the output, followed by what the operator leaves of
itself. -/
theorem shown_plus {operator : Value} {total : Output} (added : output.plus operator = .ok total) :
    total.shown = output.form.start operator output.shown ++ total.form.ending operator := by
  cases known : output.form with
  | text =>
      obtain ⟨before, rfl⟩ := exists_text known
      cases operator with
      | scalar second =>
          cases second with
          | text after =>
              cases added
              rfl
          | _ => cases added
      | _ => cases added
  | list isEmpty =>
      obtain ⟨items, rfl, rfl⟩ := exists_list known
      cases operator with
      | list more =>
          cases added
          exact Value.shown_append items more
      | _ => cases added
  | _ =>
      have other : output.form.isText = false := by rw [known]; rfl
      have single : output.form.isList = false := by rw [known]; rfl
      rw [shown_plus_of_other other single added]
      exact String.empty_append.symm

theorem continued_text (isText : output.form = .text) (more : String) :
    output.continued more = .ok (.text (output.shown ++ more)) := by
  obtain ⟨text, rfl⟩ := exists_text isText
  rfl

/-- A list that takes in the letters of a text which is not empty. -/
theorem continued_list {isEmpty : Bool} (isList : output.form = .list isEmpty) {more : String}
    (something : more ≠ "") :
    ∃ longer, output.continued more = .ok longer ∧ longer.form = .list false ∧
      longer.shown = Text.opened (!isEmpty) output.shown ++ Text.asItems more := by
  obtain ⟨items, rfl, rfl⟩ := exists_list isList
  have letters : (Value.letters more).isEmpty = false := by
    simpa [Value.letters] using something
  refine ⟨_, rfl, ?_, ?_⟩
  · simp only [form]
    cases items <;> simp [letters]
  · have whole := Value.shown_append items (Value.letters more)
    rw [letters, Bool.not_false, Bool.and_true] at whole
    exact whole

theorem continued_error (other : output.form.isText = false) (single : output.form.isList = false)
    (more : String) : output.continued more = .error .notAName := by
  unfold continued
  split
  · cases other
  · cases single
  · rfl

end Output

/-! ## Forms of values -/

def Construct.form (node : Node) (forms : String → Form) : Construct → Form
  | .literal =>
      match node.field? "raw" with
      | some raw => (Output.held raw).form
      | none => .text
  | .variableDeclarator => if node.has "init" then .text else forms "id"
  | .update =>
      match node.field? "operator" with
      | some operator =>
          match (forms "argument").plus operator with
          | .ok sum => sum
          | .error _ => .text
      | none => .text
  | .call => if (forms "callee").isList then .list false else .text
  | _ => .text

mutual

/-- The form of the output of a value. Whatever is no node has no output. -/
def Value.form : Value → Form
  | .node found => found.form
  | _ => .text

def Node.form : Node → Form
  | ⟨origin, kind, fields, location⟩ =>
      match Construct.ofKind? kind with
      | none => .text
      | some construct =>
          construct.form ⟨origin, kind, fields, location⟩ fun name =>
            ((fieldForms fields).lookup name).getD .text

def fieldForms : List (String × Value) → List (String × Form)
  | [] => []
  | (name, value) :: rest => (name, value.form) :: fieldForms rest

end

theorem lookup_fieldForms (fields : List (String × Value)) (name : String) :
    (fieldForms fields).lookup name = (fields.lookup name).map Value.form := by
  induction fields with
  | nil => rfl
  | cons entry rest ih =>
      obtain ⟨known, value⟩ := entry
      simp only [fieldForms, List.lookup_cons, ih]
      split <;> rfl

theorem Node.form_eq {node : Node} {construct : Construct}
    (known : Construct.ofKind? node.kind = some construct) :
    node.form = construct.form node fun name => (node.field name).form := by
  obtain ⟨origin, kind, fields, location⟩ := node
  have forms (name : String) : ((fieldForms fields).lookup name).getD .text =
      ((fields.lookup name).getD .null).form := by
    rw [lookup_fieldForms]
    cases fields.lookup name <;> rfl
  simp only [Node.form, known, forms]
  rfl

theorem Node.form_of_unknown {node : Node} (unknown : Construct.ofKind? node.kind = none) :
    node.form = .text := by
  obtain ⟨origin, kind, fields, location⟩ := node
  simp only [Node.form, unknown]

def Construct.yieldsText : Construct → Bool
  | .literal | .variableDeclarator | .update | .call => false
  | _ => true

theorem Node.form_of_construct {node : Node} {construct : Construct}
    (known : Construct.ofKind? node.kind = some construct)
    (yields : construct.yieldsText = true) : node.form = .text := by
  rw [Node.form_eq known]
  cases construct <;> first | rfl | cases yields

theorem Node.form_of_kind {node : Node} {kind : String} (same : node.kind = kind)
    (yields : (Construct.ofKind? kind).all Construct.yieldsText = true) : node.form = .text := by
  cases known : Construct.ofKind? node.kind with
  | none => exact Node.form_of_unknown known
  | some construct =>
      rw [← same, known] at yields
      exact Node.form_of_construct known yields

def Value.itemsYieldText : Value → Bool
  | .list items => items.all fun item => item.form.isText
  | _ => true

/-- Only nodes yield anything but texts. -/
theorem Value.isNull_of_form {value : Value} (other : value.form.isText = false) :
    value.isNull = false := by
  cases value with
  | node found => rfl
  | _ => cases other

/-- An item of a list that yields no text. -/
theorem Value.exists_of_itemsYieldText {list : Value} (other : list.itemsYieldText = false) :
    ∃ (items : List Value) (index : Nat) (value : Value), list = .list items ∧
      items[index]? = some value ∧ value.form.isText = false := by
  cases list with
  | list items =>
      obtain ⟨value, inside, unfit⟩ := List.all_eq_false.mp other
      obtain ⟨index, place⟩ := List.mem_iff_getElem?.mp inside
      exact ⟨items, index, value, rfl, place, Bool.eq_false_iff.mpr unfit⟩
  | _ => cases other

def Node.calledObject (call : Node) : Value :=
  match call.field "callee" with
  | .node callee => callee.field "object"
  | _ => .null

def Node.operandsYieldText (call : Node) : Bool :=
  call.calledObject.form.isText && (call.field "arguments").itemsYieldText

/-- Whether the parameters of a function are texts. One with a default is an assignment. -/
def Node.parametersYieldText (function : Node) : Bool :=
  match function.optionalItems "params" with
  | .ok params => params.zipIdx.all fun entry =>
      entry.1.form.isText ||
        match (Rule.defaults function).itemAt entry.2 with
        | .ok default => !default.isNull
        | .error _ => false
  | .error _ => true

end PhpRendering
