import PhpRendering.Proofs.RecordLikeness
import PhpRendering.Proofs.UnlocatedLayout
import PhpRendering.Tree.Conversion

/-!
# Metadata of the parser

What a parser adds to its objects about the source text never reaches the output. Two trees
that differ in nothing else give the same text, or fail in the same way; the scopes are the
same, and the diagnostics differ in their lines only.
-/

namespace PhpRendering

/-! ## Trees without metadata -/

/-- The members that describe the source text of an object with a type. -/
def annotationMembers : List String :=
  ["loc", "range", "tokens", "comments", "errors"]

mutual

/-- A JSON tree without the metadata of its typed objects. What tells the type of an object
stays as it is, and other objects keep all their members. -/
def Json.withoutMetadata : Json → Json
  | .scalar value => .scalar value
  | .array items => .array (itemsWithoutMetadata items)
  | .object members =>
      if (members.lookup "type").isSome then .object (typedWithoutMetadata members)
      else .object (untypedWithoutMetadata members)

def itemsWithoutMetadata : List Json → List Json
  | [] => []
  | item :: rest => item.withoutMetadata :: itemsWithoutMetadata rest

def typedWithoutMetadata : List (String × Json) → List (String × Json)
  | [] => []
  | (name, value) :: rest =>
      if annotationMembers.contains name then typedWithoutMetadata rest
      else if name = "type" then (name, value) :: typedWithoutMetadata rest
      else (name, value.withoutMetadata) :: typedWithoutMetadata rest

def untypedWithoutMetadata : List (String × Json) → List (String × Json)
  | [] => []
  | (name, value) :: rest => (name, value.withoutMetadata) :: untypedWithoutMetadata rest

end

theorem lookup_typedWithoutMetadata (members : List (String × Json)) :
    (typedWithoutMetadata members).lookup "type" = members.lookup "type" := by
  induction members with
  | nil => rfl
  | cons entry rest ih =>
      obtain ⟨name, value⟩ := entry
      rw [typedWithoutMetadata, List.lookup_cons]
      by_cases isType : name = "type"
      · subst isType
        simp [annotationMembers]
      · have other : ("type" == name) = false := beq_eq_false_iff_ne.mpr (Ne.symm isType)
        rw [other, if_neg isType]
        split
        · exact ih
        · rw [List.lookup_cons, other]
          exact ih

theorem isSome_lookup_untypedWithoutMetadata (members : List (String × Json)) (name : String) :
    ((untypedWithoutMetadata members).lookup name).isSome = (members.lookup name).isSome := by
  induction members with
  | nil => rfl
  | cons entry rest ih =>
      obtain ⟨known, value⟩ := entry
      rw [untypedWithoutMetadata, List.lookup_cons, List.lookup_cons]
      split
      · rfl
      · exact ih

theorem TreeForm.not_keeps_of_describing {name : String}
    (describing : annotationMembers.contains name = true) : TreeForm.data.keeps name = false := by
  have known : ∀ member ∈ annotationMembers, TreeForm.data.keeps member = false := by decide
  exact known name (List.contains_iff_mem.mp describing)

mutual

/-- The values of a tree with and without metadata are the same up to locations. -/
theorem TreeForm.convert_withoutMetadata (origin : Origin) (source : Json) :
    (TreeForm.data.convert origin source.withoutMetadata).unlocated =
      (TreeForm.data.convert origin source).unlocated := by
  cases source with
  | scalar value => rfl
  | array items =>
      rw [Json.withoutMetadata, TreeForm.convert, TreeForm.convert, Value.unlocated,
        Value.unlocated, TreeForm.convertItems_withoutMetadata origin 0 items]
  | object members =>
      rw [Json.withoutMetadata]
      cases typed : members.lookup "type" with
      | some type =>
          have typedToo := (lookup_typedWithoutMetadata members).trans typed
          simp only [Option.isSome_some, if_true, TreeForm.convert, TreeForm.nodeType?, typed,
            typedToo, Value.unlocated, Node.unlocated]
          rw [TreeForm.convertFields_withoutMetadata origin members]
      | none =>
          have untyped : (untypedWithoutMetadata members).lookup "type" = none := by
            rw [← Option.isNone_iff_eq_none, ← Option.not_isSome,
              isSome_lookup_untypedWithoutMetadata, typed]
            rfl
          simp only [Option.isSome_none, Bool.false_eq_true, if_false, TreeForm.convert,
            TreeForm.nodeType?, typed, untyped, Value.unlocated]
          rw [TreeForm.convertMembers_withoutMetadata origin members]

theorem TreeForm.convertItems_withoutMetadata (origin : Origin) (index : Nat) (items : List Json) :
    unlocatedItems (TreeForm.data.convertItems origin index (itemsWithoutMetadata items)) =
      unlocatedItems (TreeForm.data.convertItems origin index items) := by
  cases items with
  | nil => rfl
  | cons item rest =>
      rw [itemsWithoutMetadata, TreeForm.convertItems, TreeForm.convertItems, unlocatedItems,
        unlocatedItems, TreeForm.convert_withoutMetadata _ item,
        TreeForm.convertItems_withoutMetadata origin (index + 1) rest]

theorem TreeForm.convertFields_withoutMetadata (origin : Origin)
    (members : List (String × Json)) :
    unlocatedMembers (TreeForm.data.convertFields origin (typedWithoutMetadata members)) =
      unlocatedMembers (TreeForm.data.convertFields origin members) := by
  cases members with
  | nil => rfl
  | cons entry rest =>
      obtain ⟨name, value⟩ := entry
      have later := TreeForm.convertFields_withoutMetadata origin rest
      rw [typedWithoutMetadata, TreeForm.convertFields]
      by_cases describing : annotationMembers.contains name = true
      · rw [if_pos describing, TreeForm.not_keeps_of_describing describing, later]
        rfl
      · rw [if_neg describing]
        by_cases isType : name = "type"
        · subst isType
          exact later
        · rw [if_neg isType, TreeForm.convertFields]
          split
          · rw [unlocatedMembers, unlocatedMembers, TreeForm.convert_withoutMetadata _ value, later]
          · exact later

theorem TreeForm.convertMembers_withoutMetadata (origin : Origin)
    (members : List (String × Json)) :
    unlocatedMembers (TreeForm.data.convertMembers origin (untypedWithoutMetadata members)) =
      unlocatedMembers (TreeForm.data.convertMembers origin members) := by
  cases members with
  | nil => rfl
  | cons entry rest =>
      obtain ⟨name, value⟩ := entry
      rw [untypedWithoutMetadata, TreeForm.convertMembers, TreeForm.convertMembers,
        unlocatedMembers, unlocatedMembers, TreeForm.convert_withoutMetadata _ value,
        TreeForm.convertMembers_withoutMetadata origin rest]

end

theorem Json.typeName_withoutMetadata (source : Json) :
    source.withoutMetadata.typeName = source.typeName := by
  cases source with
  | scalar value => rfl
  | array items => rfl
  | object members =>
      rw [withoutMetadata]
      split <;> rfl

/-! ## Functions that are entered -/

def Node.SameUnlocated (node other : Node) : Prop :=
  node.unlocated = other.unlocated

mutual

theorem Value.unlocated_leadsTo (target : Origin) (value : Value) :
    value.unlocated.leadsTo target = value.leadsTo target := by
  cases value with
  | node node =>
      obtain ⟨origin, kind, fields, location⟩ := node
      rw [Value.unlocated, Node.unlocated, Value.leadsTo, Value.leadsTo, Node.contains,
        Node.contains, unlocated_membersLeadTo target fields]
  | list items =>
      rw [Value.unlocated, Value.leadsTo, Value.leadsTo, unlocated_itemsLeadTo target items]
  | record members => rfl
  | scalar value => rfl
  | foreign origin => rfl

theorem unlocated_itemsLeadTo (target : Origin) (items : List Value) :
    itemsLeadTo target (unlocatedItems items) = itemsLeadTo target items := by
  cases items with
  | nil => rfl
  | cons item rest =>
      have later := unlocated_itemsLeadTo target rest
      cases item with
      | node node =>
          have here := Value.unlocated_leadsTo target (.node node)
          rw [Value.unlocated, Value.leadsTo, Value.leadsTo] at here
          rw [unlocatedItems, Value.unlocated, itemsLeadTo, itemsLeadTo, here, later]
      | list inner => exact later
      | record members => exact later
      | scalar value => exact later
      | foreign origin => exact later

theorem unlocated_membersLeadTo (target : Origin) (members : List (String × Value)) :
    membersLeadTo target (unlocatedMembers members) = membersLeadTo target members := by
  cases members with
  | nil => rfl
  | cons entry rest =>
      obtain ⟨name, value⟩ := entry
      rw [unlocatedMembers, membersLeadTo, membersLeadTo, Value.unlocated_leadsTo target value,
        unlocated_membersLeadTo target rest]

end

theorem Node.unlocated_contains (target : Origin) (node : Node) :
    node.unlocated.contains target = node.contains target := by
  have same := Value.unlocated_leadsTo target (.node node)
  rwa [Value.unlocated, Value.leadsTo, Value.leadsTo] at same

/-- The body of a function is in the same places without its locations. -/
theorem Node.occurrence_isSame (function inner : Node) (name : String) :
    (function.unlocated.occurrence name).isSame (inner.unlocated.occurrence name) =
      (function.occurrence name).isSame (inner.occurrence name) := by
  simp only [occurrence, unlocated_field, unlocated_origin]
  cases function.field name <;> cases inner.field name <;> simp [Value.unlocated, Occurrence.isSame]

theorem Scope.unlocated_holdsBodyOf (scope : Scope) (inner : Node) :
    ({ scope with function := scope.function.map .unlocated } : Scope).holdsBodyOf
      inner.unlocated = scope.holdsBodyOf inner := by
  unfold Scope.holdsBodyOf Scope.holds
  cases scope.function with
  | none => rfl
  | some function =>
      have null : (function.unlocated.occurrence "body").value.isNull =
          (function.occurrence "body").value.isNull := by
        simp [Node.occurrence]
      dsimp only [Option.map_some]
      rw [null, function.occurrence_isSame inner "body"]
      split
      · rfl
      · split
        · rfl
        · simp only [Node.occurrence, Node.unlocated_field]
          cases function.field "body" <;> cases inner.field "body" <;>
            simp [Value.unlocated, Node.unlocated_contains]

namespace Node

theorem unlocated_boundName (node : Node) :
    node.unlocated.boundName = node.boundName.unlocated := by
  induction height : node.height using Nat.strongRecOn generalizing node with
  | ind bound ih =>
      subst height
      rw [boundName_eq, boundName_eq]
      simp only [unlocated_kind, unlocated_field]
      split
      · rfl
      · split
        · have lower := node.height_field_lt "left"
          cases left : node.field "left" with
          | node inner =>
              rw [left] at lower
              exact ih _ lower inner rfl
          | _ => rfl
        · rfl

end Node

/-- A name is the same without locations, and it is never a list that may hold some. -/
theorem Value.unlocated_symbolName? (value : Value) :
    value.unlocated.symbolName?.map (Option.map Value.bare) =
      value.symbolName?.map (Option.map Value.bare) := by
  unfold symbolName?
  rw [unlocated_isTruthy]
  split
  · cases value with
    | node node =>
        obtain ⟨origin, kind, fields, location⟩ := node
        rfl
    | _ => rfl
  · rfl

theorem Value.unlocated_boundSymbol? (param : Value) :
    param.unlocated.boundSymbol?.map (Option.map Value.bare) =
      param.boundSymbol?.map (Option.map Value.bare) := by
  cases param with
  | node node =>
      have same := node.boundName.unlocated_symbolName?
      rw [← node.unlocated_boundName] at same
      exact same
  | _ => rfl

theorem Node.unlocated_notice (function : Node) : function.unlocated.notice = function.notice := by
  have name : function.unlocated.functionName?.map (Option.map Value.bare) =
      function.functionName?.map (Option.map Value.bare) := by
    simp only [functionName?, unlocated_field]
    cases function.field "id" with
    | node id =>
        simp only [Value.unlocated, unlocated_field]
        exact (id.field "name").unlocated_symbolName?
    | _ => rfl
  have params : (function.unlocated.optionalItems "params").map boundSymbols =
      (function.optionalItems "params").map boundSymbols := by
    rw [unlocated_optionalItems]
    cases function.optionalItems "params" with
    | error crash => rfl
    | ok items =>
        refine congrArg Except.ok ?_
        simp [boundSymbols, Function.comp_def, Value.unlocated_boundSymbol?]
  unfold notice
  rw [name, params]

/-- A recorder does not tell apart functions that differ in locations only. -/
theorem Node.SameUnlocated.entersLike {function other : Node}
    (same : function.SameUnlocated other) : function.EntersLike SameUnlocated other := by
  have notice : function.notice = other.notice := by
    rw [← function.unlocated_notice, ← other.unlocated_notice, same]
  refine ⟨same, congrArg Notice.name notice, congrArg Notice.params notice, ?_⟩
  intro scope scopeToo like
  have owners : scope.function.map Node.unlocated = scopeToo.function.map Node.unlocated := by
    obtain ⟨-, -, related, -⟩ := like
    generalize scope.function = owner at related
    generalize scopeToo.function = ownerToo at related
    cases related with
    | none => rfl
    | some related => exact congrArg some related
  rw [← scope.unlocated_holdsBodyOf, ← scopeToo.unlocated_holdsBodyOf, same]
  unfold Scope.holdsBodyOf Scope.holds
  simp only [owners]

/-! ## Sessions -/

namespace Session

structure SameUnlocated (first second : Session) : Prop where
  options : first.options = second.options
  log : first.log.map Diagnostic.unlocated = second.log.map Diagnostic.unlocated
  recorder : first.recorder.Like Node.SameUnlocated second.recorder

theorem SameUnlocated.refl (session : Session) : session.SameUnlocated session :=
  have reflexive (function : Node) : function.SameUnlocated function := rfl
  ⟨rfl, rfl, .refl reflexive session.recorder⟩

/-- One event that is the same up to locations keeps two sessions the same. -/
theorem SameUnlocated.observe {first second : Session} (like : first.SameUnlocated second)
    {event other : Event} (same : event.unlocated = other.unlocated) :
    (first.observe event).1.SameUnlocated (second.observe other).1 ∧
      (first.observe event).2 = (second.observe other).2 := by
  cases event with
  | reported diagnostic =>
      cases other with
      | reported diagnosticToo =>
          refine ⟨⟨like.options, ?_, like.recorder⟩, rfl⟩
          have equal : diagnostic.unlocated = diagnosticToo.unlocated := Event.reported.inj same
          simp only [Session.observe, List.map_append, like.log, List.map_cons, equal]
      | entered functionToo => cases same
  | entered function =>
      cases other with
      | reported diagnosticToo => cases same
      | entered functionToo =>
          have equal : function.SameUnlocated functionToo := Event.entered.inj same
          obtain ⟨after, outcome⟩ := like.recorder.enter equal.entersLike
          exact ⟨⟨like.options, like.log, after⟩, outcome⟩

theorem SameUnlocated.observeAll {first second : Session} (like : first.SameUnlocated second)
    {events others : List Event}
    (same : events.map Event.unlocated = others.map Event.unlocated) :
    (first.observeAll events).1.SameUnlocated (second.observeAll others).1 ∧
      (first.observeAll events).2 = (second.observeAll others).2 := by
  induction events generalizing first second others with
  | nil =>
      cases others with
      | nil => exact ⟨like, rfl⟩
      | cons other later => cases same
  | cons event rest ih =>
      cases others with
      | nil => cases same
      | cons other later =>
          obtain ⟨head, tail⟩ := List.cons.inj same
          obtain ⟨after, outcome⟩ := like.observe head
          unfold Session.observeAll
          generalize first.observe event = result at after outcome
          generalize second.observe other = resultToo at after outcome
          obtain ⟨session, done⟩ := result
          obtain ⟨sessionToo, doneToo⟩ := resultToo
          cases outcome
          cases done with
          | error crash => exact ⟨after, rfl⟩
          | ok done => exact ih after tail

/-- The renderings of two values that are the same up to locations. -/
theorem SameUnlocated.render {first second : Session} (like : first.SameUnlocated second)
    {value other : Value} (same : value.unlocated = other.unlocated) :
    (first.render value {}).1.SameUnlocated (second.render other {}).1 ∧
      (first.render value {}).2 = (second.render other {}).2 := by
  have emissions : (PhpRendering.render first.options value {}).unlocated id =
      (PhpRendering.render second.options other {}).unlocated id := by
    rw [render_unlocated, render_unlocated, same, like.options]
  obtain ⟨after, outcome⟩ := like.observeAll (congrArg Emission.events emissions)
  have results : (PhpRendering.render first.options value {}).outcome =
      (PhpRendering.render second.options other {}).outcome := by
    have plain (emission : Emission Crash String) :
        (emission.unlocated id).outcome = emission.outcome := by
      obtain ⟨events, outcome⟩ := emission
      cases outcome <;> rfl
    rw [← plain, emissions, plain]
  unfold Session.render Session.run
  generalize first.observeAll _ = result at after outcome
  generalize second.observeAll _ = resultToo at after outcome
  obtain ⟨session, done⟩ := result
  obtain ⟨sessionToo, doneToo⟩ := resultToo
  cases outcome
  cases done with
  | error crash => exact ⟨after, rfl⟩
  | ok done => exact ⟨after, results⟩

theorem unlocated_programOf (value : Value) (found : String) :
    programOf value.unlocated found = (programOf value found).map .unlocated := by
  cases value with
  | node root =>
      simp only [programOf, Value.unlocated_node, Node.unlocated_kind]
      split <;> rfl
  | _ => rfl

/-- The files for two trees that are the same up to locations. -/
theorem SameUnlocated.generate {first second : Session} (like : first.SameUnlocated second)
    {value other : Value} (same : value.unlocated = other.unlocated) (found : String) :
    (first.generate value found).1.SameUnlocated (second.generate other found).1 ∧
      (first.generate value found).2 = (second.generate other found).2 := by
  have programs : (programOf value found).map Node.unlocated =
      (programOf other found).map Node.unlocated := by
    rw [← unlocated_programOf, ← unlocated_programOf, same]
  unfold Session.generate
  cases program : programOf value found with
  | error failure =>
      cases programToo : programOf other found with
      | error failureToo =>
          rw [program, programToo] at programs
          cases programs
          exact ⟨like, rfl⟩
      | ok rootToo =>
          rw [program, programToo] at programs
          cases programs
  | ok root =>
      cases programToo : programOf other found with
      | error failureToo =>
          rw [program, programToo] at programs
          cases programs
      | ok rootToo =>
          rw [program, programToo] at programs
          have roots : (Value.node root).unlocated = (Value.node rootToo).unlocated :=
            congrArg Value.node (Except.ok.inj programs)
          obtain ⟨after, outcome⟩ := like.render roots
          dsimp only
          rw [like.options]
          generalize first.render (.node root) {} = result at after outcome
          generalize second.render (.node rootToo) {} = resultToo at after outcome
          obtain ⟨session, done⟩ := result
          obtain ⟨sessionToo, doneToo⟩ := resultToo
          cases outcome
          cases done with
          | error crash => exact ⟨after, rfl⟩
          | ok text => exact ⟨after, rfl⟩

/-- Two trees that differ only in the metadata of their typed objects have the same file, or
fail in the same way, in any session. The diagnostics agree apart from their lines, and the
recorders have the same scopes with the same names, parents and symbols. -/
theorem metadata_has_no_say (session : Session) (tree : Nat) {source other : Json}
    (same : source.withoutMetadata = other.withoutMetadata) :
    let first := session.generate (.ofJson .data tree source) source.typeName
    let second := session.generate (.ofJson .data tree other) other.typeName
    first.2 = second.2 ∧
      first.1.log.map Diagnostic.unlocated = second.1.log.map Diagnostic.unlocated ∧
      first.1.recorder.bare = second.1.recorder.bare := by
  intro first second
  have values : (Value.ofJson .data tree source).unlocated =
      (Value.ofJson .data tree other).unlocated := by
    unfold Value.ofJson
    rw [← TreeForm.convert_withoutMetadata, same, TreeForm.convert_withoutMetadata]
  have names : source.typeName = other.typeName := by
    rw [← source.typeName_withoutMetadata, same, other.typeName_withoutMetadata]
  obtain ⟨after, outcome⟩ := (SameUnlocated.refl session).generate values source.typeName
  have bare (function other : Node) (same : function.SameUnlocated other) :
      function.bare = other.bare := by
    have origin := congrArg Node.origin same
    have kind := congrArg Node.kind same
    rw [Node.unlocated_origin, Node.unlocated_origin] at origin
    rw [Node.unlocated_kind, Node.unlocated_kind] at kind
    simp only [Node.bare, origin, kind]
  rw [names] at after outcome
  have result : first = session.generate (.ofJson .data tree source) other.typeName := by
    rw [← names]
  rw [result]
  exact ⟨outcome, after.log, after.recorder.bare_eq bare⟩

end Session

def debuggerSource (metadata : List (String × Json)) : Json :=
  .object <| metadata ++
    [("type", Json.text "Program"),
      ("body", Json.array [.object (metadata ++ [("type", Json.text "DebuggerStatement")])])]

/-- A location and a token that looks like a node. -/
def sampleMetadata : List (String × Json) :=
  [("loc", .object [("start", .object [("line", .scalar (.int 7))])]),
    ("tokens", .array [.object [("type", .text "Identifier"), ("value", .text "debugger")]])]

theorem debuggerSource_generates_alike :
    (debuggerSource sampleMetadata).withoutMetadata = (debuggerSource []).withoutMetadata ∧
      let first := ({} : Session).generate (.ofJson .data 0 (debuggerSource sampleMetadata)) "dict"
      let second := ({} : Session).generate (.ofJson .data 0 (debuggerSource [])) "dict"
      first.2 = second.2 ∧
        first.1.log.map Diagnostic.unlocated = second.1.log.map Diagnostic.unlocated ∧
        first.1.recorder.bare = second.1.recorder.bare ∧
        first.1.log.map Diagnostic.line = [.scalar (.int 7)] ∧
        second.1.log.map Diagnostic.line = [.null] := by
  have same : (debuggerSource sampleMetadata).withoutMetadata =
      (debuggerSource []).withoutMetadata := rfl
  obtain ⟨texts, logs, records⟩ := Session.metadata_has_no_say {} 0 same
  exact ⟨same, texts, logs, records, rfl, rfl⟩

end PhpRendering
