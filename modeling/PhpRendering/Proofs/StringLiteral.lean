import Mathlib.Data.List.Forall2
import PhpRendering.Proofs.Written

/-!
# String literals read back

A reader of the target goes through a string literal letter by letter, up to the quote that
closes it. Whatever a text is, its literal is read as one whole string with that text as its
value: escapes hide every quote, every backslash and every dollar sign that would start an
interpolation. So the keys of an object literal are the keys of the array that stands for it.
-/

namespace PhpRendering

/-! ## Reading a literal -/

/-- How the letters between two quotes are read. -/
structure Quoting where
  quote : Char
  /-- whether a letter stands for itself, when it is neither the quote nor a backslash -/
  plain : Char → Bool
  /-- what a backslash and the letter after it stand for, if they may stand there -/
  pair : Char → Option (List Char)

namespace Quoting

/-- Between single quotes only the backslash and the quote are escaped. A backslash before
another letter stands for itself. -/
def single : Quoting where
  quote := '\''
  plain _ := true
  pair letter :=
    if letter = '\\' ∨ letter = '\'' then some [letter] else some ['\\', letter]

/-- Between double quotes a dollar sign starts an interpolation. The escapes of other letters
than these three have values of their own. -/
def double : Quoting where
  quote := '"'
  plain letter := letter != '$'
  pair letter :=
    if letter = '\\' ∨ letter = '"' ∨ letter = '$' then some [letter] else none

/-- The value of the letters up to the closing quote and the letters after it. There is none
when the quote is missing or a letter has a meaning that is no text. -/
def read (quoting : Quoting) : List Char → Option (List Char × List Char)
  | [] => none
  | letter :: rest =>
      if letter = quoting.quote then some ([], rest)
      else if letter = '\\' then
        match rest with
        | [] => none
        | next :: later => do
            let meaning ← quoting.pair next
            let (value, after) ← quoting.read later
            return (meaning ++ value, after)
      else if quoting.plain letter then do
        let (value, after) ← quoting.read rest
        return (letter :: value, after)
      else none

def value? (quoting : Quoting) (literal : String) : Option String :=
  match literal.toList with
  | [] => none
  | opening :: letters =>
      if opening = quoting.quote then
        match quoting.read letters with
        | some (value, []) => some (String.ofList value)
        | _ => none
      else none

/-- Whether a reader undoes the escapes of some letters and takes all other letters as they
are. -/
structure Undoes (quoting : Quoting) (escaped : Char → Bool) : Prop where
  quote : quoting.quote ≠ '\\'
  escape : ∀ letter, escaped letter = true → quoting.pair letter = some [letter]
  bare : ∀ letter, escaped letter = false →
    letter ≠ quoting.quote ∧ letter ≠ '\\' ∧ quoting.plain letter = true

theorem single_undoes : single.Undoes Text.isSingleQuoteEscaped where
  quote := by decide
  escape letter special := by
    rw [Text.isSingleQuoteEscaped, Bool.or_eq_true, beq_iff_eq, beq_iff_eq] at special
    exact if_pos special
  bare letter other := by
    rw [Text.isSingleQuoteEscaped, Bool.or_eq_false_iff, beq_eq_false_iff_ne,
      beq_eq_false_iff_ne] at other
    exact ⟨other.2, other.1, rfl⟩

theorem double_undoes : double.Undoes Text.isDoubleQuoteEscaped where
  quote := by decide
  escape letter special := by
    rw [Text.isDoubleQuoteEscaped, Bool.or_eq_true, Bool.or_eq_true, beq_iff_eq, beq_iff_eq,
      beq_iff_eq, or_assoc] at special
    exact if_pos special
  bare letter other := by
    rw [Text.isDoubleQuoteEscaped, Bool.or_eq_false_iff, Bool.or_eq_false_iff,
      beq_eq_false_iff_ne, beq_eq_false_iff_ne, beq_eq_false_iff_ne] at other
    exact ⟨other.1.2, other.1.1, bne_iff_ne.mpr other.2⟩

/-- The reader finds the letters again that were escaped, and stops at the quote after them. -/
theorem Undoes.read_withBackslashes {quoting : Quoting} {escaped : Char → Bool}
    (undoes : quoting.Undoes escaped) (letters rest : List Char) :
    quoting.read (Text.withBackslashes escaped letters ++ quoting.quote :: rest) =
      some (letters, rest) := by
  induction letters with
  | nil =>
      rw [Text.withBackslashes, List.nil_append, read.eq_def]
      exact if_pos rfl
  | cons letter later ih =>
      rw [Text.withBackslashes]
      cases special : escaped letter with
      | true =>
          rw [if_pos rfl, List.cons_append, List.cons_append, read.eq_def]
          simp only [if_neg undoes.quote.symm, if_true, undoes.escape letter special, ih]
          rfl
      | false =>
          obtain ⟨notQuote, notBackslash, plain⟩ := undoes.bare letter special
          rw [if_neg Bool.false_ne_true, List.cons_append, read.eq_def]
          simp only [if_neg notQuote, if_neg notBackslash, plain, if_true, ih]
          rfl

theorem Undoes.value?_withBackslashes {quoting : Quoting} {escaped : Char → Bool}
    (undoes : quoting.Undoes escaped) (text : String) :
    quoting.value? (String.ofList
      (quoting.quote :: Text.withBackslashes escaped text.toList ++ [quoting.quote])) =
      some text := by
  unfold value?
  rw [String.toList_ofList, List.cons_append]
  simp only [if_true, undoes.read_withBackslashes, String.ofList_toList]

theorem value?_singleQuoted (text : String) : single.value? (Text.singleQuoted text) = some text :=
  single_undoes.value?_withBackslashes text

theorem value?_doubleQuoted (text : String) : double.value? (Text.doubleQuoted text) = some text :=
  double_undoes.value?_withBackslashes text

end Quoting

/-! ## Escaping one letter after another -/

namespace Text

def withBackslash (special : Char) (letters : List Char) : List Char :=
  withBackslashes (· == special) letters

/-- A letter is escaped after others in one go with them, as long as it is not the backslash
that these have brought. -/
theorem withBackslash_withBackslashes {special : Char} (other : special ≠ '\\')
    {escaped : Char → Bool} (fresh : escaped special = false) (letters : List Char) :
    withBackslash special (withBackslashes escaped letters) =
      withBackslashes (fun letter => escaped letter || letter == special) letters := by
  have backslash : ('\\' == special) = false := beq_eq_false_iff_ne.mpr other.symm
  induction letters with
  | nil => rfl
  | cons letter rest ih =>
      rw [withBackslash] at ih ⊢
      cases known : escaped letter with
      | true =>
          have different : (letter == special) = false := by
            refine beq_eq_false_iff_ne.mpr ?_
            rintro rfl
            cases known.symm.trans fresh
          simp [withBackslashes, known, backslash, different, ih]
      | false =>
          cases same : letter == special <;> simp [withBackslashes, known, same, ih]

/-- The three letters that are escaped between double quotes may be escaped one after
another, the backslash first. -/
theorem withBackslashes_double (letters : List Char) :
    withBackslash '$' (withBackslash '"' (withBackslash '\\' letters)) =
      withBackslashes isDoubleQuoteEscaped letters := by
  have first : withBackslash '\\' letters = withBackslashes (· == '\\') letters := rfl
  rw [first, withBackslash_withBackslashes (by decide) (by decide),
    withBackslash_withBackslashes (by decide) (by decide)]
  rfl

theorem withBackslashes_single (letters : List Char) :
    withBackslash '\'' (withBackslash '\\' letters) =
      withBackslashes isSingleQuoteEscaped letters := by
  have first : withBackslash '\\' letters = withBackslashes (· == '\\') letters := rfl
  rw [first, withBackslash_withBackslashes (by decide) (by decide)]
  rfl

end Text

/-! ## Literals and keys in a tree -/

/-- A literal without a spelling of its own is written as its value between single quotes. -/
theorem render_text_literal (options : Options) {node : Node} {text : String}
    (kind : node.kind = "Literal") (bare : node.field? "raw" = none)
    (held : node.field "value" = .text text) (position : Position) :
    (render options (.node node) position).outcome = .ok (Text.singleQuoted text) := by
  have known : Construct.ofKind? node.kind = some .literal := by
    rw [kind]
    rfl
  have writes : (Construct.literal.layout options node position).Writes (render options)
      (Text.singleQuoted text) := by
    simp only [Construct.layout, Layout.optional, bare, held]
    exact .word _
  rw [render_of_construct_writes known writes]
  rfl

inductive Node.IsKey (key : String) (node : Node) : Prop where
  | literal (kind : node.kind = "Literal") (held : node.field "value" = .text key)
  | name (kind : node.kind = "Identifier") (named : node.name = key)

theorem Node.IsKey.keyText_eq {key : String} {node : Node} (isKey : node.IsKey key) :
    Rule.keyText node = .ok key := by
  unfold Rule.keyText
  cases isKey with
  | literal kind held => rw [if_pos kind, held, Value.text?]
  | name kind named => rw [kind, if_neg (by decide), named]

/-- A plain entry of an object literal, with its key and the text of its value. -/
structure Node.IsEntry (options : Options) (node : Node) (entry : String × String) : Prop where
  kind : node.kind = "Property"
  plain : Rule.unsupportedForm? node = none
  key : ∃ bearer : Node, node.field "key" = .node bearer ∧ bearer.IsKey entry.1
  value : ∃ value, node.field? "value" = some value ∧
    (render options value (.within node)).outcome = .ok entry.2

def Value.IsEntry (options : Options) (value : Value) (entry : String × String) : Prop :=
  ∃ property : Node, value = .node property ∧ property.IsEntry options entry

theorem Value.IsEntry.form_isText {options : Options} {value : Value} {entry : String × String}
    (isEntry : value.IsEntry options entry) : value.form.isText = true := by
  obtain ⟨property, rfl, isEntry⟩ := isEntry
  rw [Value.form, Node.form_of_kind isEntry.kind (by decide)]
  rfl

def entryText (entry : String × String) : String :=
  Text.doubleQuoted entry.1 ++ " => " ++ entry.2

theorem Node.IsEntry.render {options : Options} {entry : String × String} {node : Node}
    (isEntry : node.IsEntry options entry) (position : Position) :
    (PhpRendering.render options (.node node) position).outcome = .ok (entryText entry) := by
  have known : Construct.ofKind? node.kind = some .property := by
    rw [isEntry.kind]
    rfl
  obtain ⟨bearer, held, isKey⟩ := isEntry.key
  obtain ⟨value, found, rendered⟩ := isEntry.value
  have writes : (Construct.property.layout options node position).Writes
      (PhpRendering.render options) (entryText entry) := by
    simp only [Construct.layout, Layout.property, Layout.writes_needed_iff]
    refine ⟨_, Node.field?_node held, value, found, ?_⟩
    simp only [Layout.unlessUnsupported, isEntry.plain, Layout.writes_shaped_iff]
    exact ⟨bearer, rfl, entry.1, isKey.keyText_eq, .next (.word _) (.visit rendered)⟩
  rw [render_of_construct_writes known writes]
  rfl

/-- An object literal is an array with one entry for each of its properties, in order. -/
theorem render_object {options : Options} {node : Node} (kind : node.kind = "ObjectExpression")
    {items : List Value} (listed : node.optionalItems "properties" = .ok items)
    {entries : List (String × String)}
    (all : List.Forall₂ (Value.IsEntry options) items entries)
    (position : Position) :
    (render options (.node node) position).outcome =
      .ok ("array(" ++ Text.separatedBy ", " (entries.map entryText) ++ ")") := by
  have known : Construct.ofKind? node.kind = some .objectLiteral := by
    rw [kind]
    rfl
  have texts : List.Forall₂ (fun item text =>
      (render options item (.within node)).outcome = .ok text) items
      (entries.map entryText) := by
    rw [List.forall₂_map_right_iff]
    refine all.imp fun item entry => ?_
    rintro ⟨property, rfl, isEntry⟩
    exact isEntry.render _
  have yield : (node.field "properties").itemsYieldText = true := by
    have forms : List.Forall₂ (fun item entry =>
        item.form.isText = true ∧ Value.IsEntry options item entry) items entries :=
      all.imp fun item entry isEntry => ⟨isEntry.form_isText, isEntry⟩
    rw [Node.itemsYieldText_eq listed]
    exact List.all_eq_true.mpr ((List.forall₂_and_left _ _).mp forms).1
  have writes : (Construct.objectLiteral.layout options node position).Writes (render options)
      ("array(" ++ (Text.separatedBy ", " (entries.map entryText) ++ (")" ++ ""))) := by
    refine .next (.word _) (.next ?_ (.next (.word _) (.word _)))
    unfold Layout.optionalItems
    rw [Layout.writes_wanting_iff, listed, Layout.writes_shaped_iff]
    exact ⟨yield, items, rfl, .separatedBy _ (Layout.writes_slots _ texts)⟩
  rw [render_of_construct_writes known writes, String.append_empty, ← String.append_assoc]
  rfl

/-- A text that is an array literal with known keys, each spelled by a literal, and known
texts of values. -/
def IsArrayWith (entries : List (String × String)) (text : String) : Prop :=
  ∃ keys : List String,
    List.Forall₂ (fun literal entry => Quoting.double.value? literal = some entry.1) keys entries ∧
    text = "array(" ++
      Text.separatedBy ", " (List.zipWith (fun literal entry => literal ++ " => " ++ entry.2) keys
        entries) ++ ")"

theorem isArrayWith_entries (entries : List (String × String)) :
    IsArrayWith entries
      ("array(" ++ Text.separatedBy ", " (entries.map entryText) ++ ")") := by
  refine ⟨entries.map fun entry => Text.doubleQuoted entry.1, ?_, ?_⟩
  · rw [List.forall₂_map_left_iff, List.forall₂_same]
    exact fun entry _ => Quoting.value?_doubleQuoted entry.1
  · rw [List.zipWith_map_left, List.zipWith_self]
    rfl

/-- Whatever a text is, its literal between double quotes and its literal between single
quotes are complete literals with that text as their value. It makes no difference that the
letters are escaped one after another. So a literal without a spelling of its own keeps its
value, and an object literal keeps its keys. -/
theorem quoted_texts_read_back (options : Options) :
    (∀ text, Quoting.double.value? (Text.doubleQuoted text) = some text ∧
      Text.doubleQuoted text = String.ofList ('"' :: Text.withBackslash '$'
        (Text.withBackslash '"' (Text.withBackslash '\\' text.toList)) ++ ['"'])) ∧
    (∀ text, Quoting.single.value? (Rule.literalText (.text text)) = some text ∧
      Rule.literalText (.text text) = String.ofList ('\'' :: Text.withBackslash '\''
        (Text.withBackslash '\\' text.toList) ++ ['\''])) ∧
    (∀ (node : Node) (text : String) (position : Position), node.kind = "Literal" →
      node.field? "raw" = none → node.field "value" = .text text →
      ∃ literal, (render options (.node node) position).outcome = .ok literal ∧
        Quoting.single.value? literal = some text) ∧
    ∀ (node : Node) (items : List Value) (entries : List (String × String)) (position : Position),
      node.kind = "ObjectExpression" → node.optionalItems "properties" = .ok items →
      List.Forall₂ (Value.IsEntry options) items entries →
      ∃ text, (render options (.node node) position).outcome = .ok text ∧
        IsArrayWith entries text := by
  refine ⟨fun text => ⟨Quoting.value?_doubleQuoted text, ?_⟩,
    fun text => ⟨Quoting.value?_singleQuoted text, ?_⟩, ?_, ?_⟩
  · rw [Text.withBackslashes_double]
    rfl
  · rw [Text.withBackslashes_single]
    rfl
  · intro node text position kind bare held
    exact ⟨_, render_text_literal options kind bare held position,
      Quoting.value?_singleQuoted text⟩
  · intro node items entries position kind listed all
    exact ⟨_, render_object kind listed all position, isArrayWith_entries entries⟩

/-- An entry with a key of letters that are escaped and an entry with a plain name. -/
def oddEntries : List Node :=
  let origin : Origin := ⟨0, []⟩
  let entry (key value : Node) : Node :=
    ⟨origin, "Property", [("key", .node key), ("value", .node value)], none⟩
  [entry ⟨origin, "Literal", [("value", .text "\\$\"")], none⟩
      ⟨origin, "Identifier", [("name", .text "x")], none⟩,
    entry ⟨origin, "Identifier", [("name", .text "name")], none⟩
      ⟨origin, "Literal", [("value", .text "it's")], none⟩]

theorem oddEntries_read_back :
    List.Forall₂ (Value.IsEntry {}) (oddEntries.map Value.node)
        [("\\$\"", "$x"), ("name", "'it\\'s'")] ∧
      ∃ text, (render {} (.node ⟨⟨0, []⟩, "ObjectExpression",
          [("properties", .list (oddEntries.map Value.node))], none⟩) {}).outcome = .ok text ∧
        IsArrayWith [("\\$\"", "$x"), ("name", "'it\\'s'")] text := by
  have all : List.Forall₂ (Value.IsEntry {}) (oddEntries.map Value.node)
      [("\\$\"", "$x"), ("name", "'it\\'s'")] := by
    refine .cons ⟨_, rfl, rfl, rfl, ⟨_, rfl, .literal rfl rfl⟩, _, rfl, ?_⟩
      (.cons ⟨_, rfl, rfl, rfl, ⟨_, rfl, .name rfl rfl⟩, _, rfl, ?_⟩ .nil)
    · exact render_variable {} rfl (by decide) _
    · have quoted : Text.singleQuoted "it's" = "'it\\'s'" := by decide
      rw [← quoted]
      exact render_text_literal {} rfl rfl rfl _
  exact ⟨all, (quoted_texts_read_back {}).2.2.2 _ _ _ {} rfl rfl all⟩

end PhpRendering
