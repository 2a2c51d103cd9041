import PhpRendering.Proofs.Place
import PhpRendering.Proofs.RecordLikeness

/-!
# The two forms of a tree

Plain data and parser objects are two forms of one tree. They differ in the members that
start with an underscore, which parser objects hide, and in the location data. Nothing
that is rendered, reported or recorded depends on either: a tree whose objects all have a
type translates alike in both forms, also where it is malformed.
-/

namespace PhpRendering

/-! ## Trees of typed objects -/

/-- Whether the line that an object names as the start of its location is a plain value. -/
def hasPlainLine (members : List (String × Json)) : Bool :=
  match (((Json.object members).member "loc").member "start").member "line" with
  | .scalar _ => true
  | _ => false

mutual

/-- Whether every object outside location data has a text as its type and a plain line. -/
def Json.isTyped : Json → Bool
  | .scalar _ => true
  | .array items => itemsTyped items
  | .object members =>
      ((members.lookup "type").bind Json.text?).isSome && hasPlainLine members && membersTyped members

def itemsTyped : List Json → Bool
  | [] => true
  | item :: rest => item.isTyped && itemsTyped rest

def membersTyped : List (String × Json) → Bool
  | [] => true
  | (name, value) :: rest => (name == "loc" || value.isTyped) && membersTyped rest

end

theorem Json.isTyped_of_member {members : List (String × Json)} (typed : membersTyped members = true)
    {name : String} {value : Json} (found : members.lookup name = some value)
    (notLocation : name ≠ "loc") : value.isTyped = true := by
  induction members with
  | nil => cases found
  | cons entry rest ih =>
      obtain ⟨known, held⟩ := entry
      obtain ⟨first, later⟩ := Bool.and_eq_true_iff.mp typed
      rw [List.lookup_cons] at found
      split at found
      · next same =>
          cases found
          rw [← LawfulBEq.eq_of_beq same, beq_eq_false_iff_ne.mpr notLocation, Bool.false_or] at first
          exact first
      · exact ih later found

/-! ## Fields of converted nodes -/

/-- A field of a converted node is the member with its name, if the form keeps it. -/
theorem TreeForm.lookup_convertFields (form : TreeForm) (origin : Origin)
    (members : List (String × Json)) (name : String) :
    (form.convertFields origin members).lookup name =
      if form.keeps name then
        (members.lookup name).map (form.convert (origin.down (.member name)))
      else none := by
  induction members with
  | nil => simp [TreeForm.convertFields]
  | cons entry rest ih =>
      obtain ⟨known, value⟩ := entry
      unfold TreeForm.convertFields
      by_cases same : name = known
      · subst same
        split
        · simp
        · next dropped => rw [ih, if_neg dropped]
      · have differs : (name == known) = false := beq_eq_false_iff_ne.mpr same
        split
        · simp [List.lookup_cons, differs, ih]
        · simp [List.lookup_cons, differs, ih]

/-- Members that parser objects do not hide are kept by both forms or by neither. -/
theorem TreeForm.keeps_eq {name : String} (visible : isReservedName name = false) :
    TreeForm.data.keeps name = TreeForm.objects.keeps name := by
  simp [TreeForm.keeps, visible]

/-- A place that no hidden member leads to. -/
def Origin.IsVisible (origin : Origin) : Prop :=
  ∀ name, .member name ∈ origin.steps → isReservedName name = false

theorem Origin.IsVisible.member {origin : Origin} (visible : origin.IsVisible) {name : String}
    (unreserved : isReservedName name = false) : (origin.down (.member name)).IsVisible := by
  intro known held
  rcases List.mem_cons.mp held with same | inside
  · cases same
    exact unreserved
  · exact visible known inside

theorem Origin.IsVisible.item {origin : Origin} (visible : origin.IsVisible) (index : Nat) :
    (origin.down (.item index)).IsVisible := by
  intro known held
  rcases List.mem_cons.mp held with same | inside
  · cases same
  · exact visible known inside

/-! ## Counterparts -/

/-- Two nodes that are the two forms of one object, at a place that both forms have. -/
def Node.OfForms (data objects : Node) : Prop :=
  ∃ (origin : Origin) (members : List (String × Json)),
    (Json.object members).isTyped = true ∧ origin.IsVisible ∧
      .node data = TreeForm.data.convert origin (.object members) ∧
      .node objects = TreeForm.objects.convert origin (.object members)

/-- The node of a typed object. -/
theorem TreeForm.convert_typed {members : List (String × Json)}
    (typed : (Json.object members).isTyped = true) :
    ∃ kind, ∀ (form : TreeForm) (origin : Origin), form.convert origin (.object members) =
      .node ⟨origin, kind, form.convertFields origin members, form.location members⟩ := by
  simp only [Json.isTyped, Bool.and_eq_true] at typed
  obtain ⟨⟨named, -⟩, -⟩ := typed
  obtain ⟨kind, text⟩ := Option.isSome_iff_exists.mp named
  obtain ⟨type, found, isText⟩ := Option.bind_eq_some_iff.mp text
  have scalar : type = .text kind := by
    unfold Json.text? at isText
    split at isText
    · cases isText
      rfl
    · cases isText
  subst scalar
  refine ⟨kind, fun form origin => ?_⟩
  cases form with
  | data =>
      simp only [TreeForm.convert, TreeForm.nodeType?, found]
      rfl
  | objects =>
      simp only [TreeForm.convert, TreeForm.nodeType?, found, Json.isNull]
      rfl

mutual

/-- The two forms of a value at a place that both have correspond. -/
theorem TreeForm.convert_alike {origin : Origin} (visible : origin.IsVisible) {source : Json}
    (typed : source.isTyped = true) :
    (TreeForm.data.convert origin source).Alike Node.OfForms (TreeForm.objects.convert origin source) := by
  cases source with
  | scalar value => exact .scalar value
  | array items =>
      exact Value.Alike.list_iff.mpr (TreeForm.convertItems_alike visible 0 typed)
  | object members =>
      obtain ⟨kind, converted⟩ := TreeForm.convert_typed typed
      have data := converted .data origin
      have objects := converted .objects origin
      rw [data, objects]
      exact .node ⟨origin, members, typed, visible, data.symm, objects.symm⟩

theorem TreeForm.convertItems_alike {origin : Origin} (visible : origin.IsVisible) (start : Nat)
    {items : List Json} (typed : itemsTyped items = true) :
    List.Forall₂ (Value.Alike Node.OfForms) (TreeForm.data.convertItems origin start items)
      (TreeForm.objects.convertItems origin start items) := by
  cases items with
  | nil => exact .nil
  | cons item rest =>
      obtain ⟨first, later⟩ := Bool.and_eq_true_iff.mp typed
      exact .cons (TreeForm.convert_alike (visible.item start) first)
        (TreeForm.convertItems_alike visible (start + 1) later)

end

def Json.startLine (location : Json) : Json :=
  (location.member "start").member "line"

/-- The line of a node is that in its location data, whatever shape these have. -/
theorem Node.line_of_data {node : Node} {members : List (String × Json)}
    (located : node.location = TreeForm.data.location members) :
    node.line = ((Json.object members).member "loc").startLine := by
  unfold Node.line
  rw [located]
  simp only [TreeForm.location, Json.startLine, Json.member, Json.member?]
  cases members.lookup "loc" with
  | none => rfl
  | some location =>
      cases location with
      | scalar value => rfl
      | array items => rfl
      | object known =>
          dsimp only [Option.getD_some]
          cases known.lookup "start" with
          | none => rfl
          | some start => cases start <;> rfl

theorem Node.line_of_objects {node : Node} {members : List (String × Json)}
    (located : node.location = TreeForm.objects.location members) :
    node.line = ((Json.object members).member "loc").startLine := by
  have member : (Json.object members).member "loc" = (members.lookup "loc").getD .null := rfl
  unfold Node.line
  rw [located, member]
  unfold TreeForm.location
  cases members.lookup "loc" with
  | none => rfl
  | some location =>
      cases location with
      | scalar value => rfl
      | array items => rfl
      | object known =>
          simp only [Option.getD_some, Json.startLine]
          generalize (Json.object known).member "start" = start
          cases start with
          | scalar value => cases value <;> rfl
          | array items => rfl
          | object place => rfl

/-- Both forms name the same line. -/
theorem Node.OfForms.line_eq {node other : Node} (forms : Node.OfForms node other) :
    node.line = other.line := by
  obtain ⟨origin, members, typed, -, data, objects⟩ := forms
  obtain ⟨kind, converted⟩ := TreeForm.convert_typed typed
  cases data.trans (converted .data origin)
  cases objects.trans (converted .objects origin)
  rw [Node.line_of_data rfl, Node.line_of_objects rfl]

namespace Node.OfForms

variable {node other : Node}

theorem field (forms : Node.OfForms node other) {name : String}
    (visible : isReservedName name = false) :
    (node.field name).Alike Node.OfForms (other.field name) := by
  obtain ⟨origin, members, typed, shown, data, objects⟩ := forms
  obtain ⟨kind, converted⟩ := TreeForm.convert_typed typed
  cases data.trans (converted .data origin)
  cases objects.trans (converted .objects origin)
  simp only [Node.field, TreeForm.lookup_convertFields, TreeForm.keeps_eq visible]
  split
  · next kept =>
      cases found : members.lookup name with
      | none => exact .scalar _
      | some value =>
          have notLocation : name ≠ "loc" := by
            rintro rfl
            exact absurd kept (by decide)
          simp only [Json.isTyped, Bool.and_eq_true] at typed
          exact TreeForm.convert_alike (shown.member visible)
            (Json.isTyped_of_member typed.2 found notLocation)
  · exact .scalar _

theorem bare_eq (forms : Node.OfForms node other) : node.bare = other.bare := by
  obtain ⟨origin, members, typed, -, data, objects⟩ := forms
  obtain ⟨kind, converted⟩ := TreeForm.convert_typed typed
  cases data.trans (converted .data origin)
  cases objects.trans (converted .objects origin)
  rfl

theorem kind_eq (forms : Node.OfForms node other) : node.kind = other.kind := by
  have same := congrArg Node.kind forms.bare_eq
  exact same

theorem origin_eq (forms : Node.OfForms node other) : node.origin = other.origin := by
  have same := congrArg Node.origin forms.bare_eq
  exact same

end Node.OfForms

/-- The two forms of a tree resemble each other. -/
theorem resembles_ofForms : Resembles Node.OfForms where
  kind forms := .inl forms.kind_eq
  line forms := forms.line_eq
  fields forms name listed := by
    have visible : ∀ name ∈ facadeFields, isReservedName name = false := by decide
    exact forms.field (visible name listed)
  name forms := by
    have named := forms.field (by decide : isReservedName "name" = false)
    have valued := forms.field (by decide : isReservedName "value" = false)
    unfold Node.name
    rw [named.isNull_eq]
    split
    · exact congrArg (Option.getD · "") valued.text?_eq
    · exact congrArg (Option.getD · "") named.text?_eq
  identifier forms _ := forms.field (by decide)
  shown forms name listed := by
    have visible : ∀ name ∈ shownFields, isReservedName name = false := by decide
    exact (forms.field (visible name listed)).shown_eq fun _ _ => Node.OfForms.kind_eq
  value forms _ := by
    have valued := forms.field (by decide : isReservedName "value" = false)
    exact valued.shown_eq fun _ _ => Node.OfForms.kind_eq
  callee forms held heldToo := by
    have callee := forms.field (by decide : isReservedName "callee" = false)
    rw [held, heldToo] at callee
    cases callee with
    | node related => exact related.kind_eq
  called forms := forms.field (by decide)
  formed forms construct _ name listed := by
    refine forms.field ?_
    revert listed name
    cases construct <;> decide
  places forms inner := by rw [forms.origin_eq, inner.origin_eq]

/-! ## Searches in the two forms -/

/-- A search for a visible place finds nothing behind a hidden member. -/
theorem TreeForm.leadsTo_hidden (form : TreeForm) (origin : Origin) {name : String}
    (hidden : isReservedName name = true) (source : Json) {target : Origin}
    (visible : target.IsVisible) :
    (form.convert (origin.down (.member name)) source).leadsTo target = false := by
  cases leads : (form.convert (origin.down (.member name)) source).leadsTo target with
  | false => rfl
  | true =>
      have within := (form.convert_isLocated _ source).isWithin_of_leadsTo leads
      have shown := visible name (within.2.subset (List.mem_cons_self ..))
      rw [hidden] at shown
      cases shown

mutual

/-- A search for a visible place goes alike in both forms. -/
theorem TreeForm.leadsTo_eq (origin : Origin) {source : Json} (typed : source.isTyped = true)
    {target : Origin} (visible : target.IsVisible) :
    (TreeForm.data.convert origin source).leadsTo target =
      (TreeForm.objects.convert origin source).leadsTo target := by
  cases source with
  | scalar value => rfl
  | array items => exact TreeForm.itemsLeadTo_eq origin 0 typed visible
  | object members =>
      obtain ⟨kind, converted⟩ := TreeForm.convert_typed typed
      simp only [Json.isTyped, Bool.and_eq_true] at typed
      have members_eq := TreeForm.membersLeadTo_eq origin typed.2 visible
      rw [converted, converted]
      simp only [Value.leadsTo, Node.contains, members_eq]

theorem TreeForm.itemsLeadTo_eq (origin : Origin) (start : Nat) {items : List Json}
    (typed : itemsTyped items = true) {target : Origin} (visible : target.IsVisible) :
    itemsLeadTo target (TreeForm.data.convertItems origin start items) =
      itemsLeadTo target (TreeForm.objects.convertItems origin start items) := by
  cases items with
  | nil => rfl
  | cons item rest =>
      obtain ⟨first, later⟩ := Bool.and_eq_true_iff.mp typed
      have tail := TreeForm.itemsLeadTo_eq origin (start + 1) later visible
      have head := TreeForm.leadsTo_eq (origin.down (.item start)) first visible
      cases item with
      | scalar value => exact tail
      | array inner => exact tail
      | object members =>
          obtain ⟨kind, converted⟩ := TreeForm.convert_typed first
          rw [converted, converted] at head
          simp only [TreeForm.convertItems, converted, itemsLeadTo, tail]
          exact congrArg (· || _) head

theorem TreeForm.membersLeadTo_eq (origin : Origin) {members : List (String × Json)}
    (typed : membersTyped members = true) {target : Origin} (visible : target.IsVisible) :
    membersLeadTo target (TreeForm.data.convertFields origin members) =
      membersLeadTo target (TreeForm.objects.convertFields origin members) := by
  cases members with
  | nil => rfl
  | cons entry rest =>
      obtain ⟨name, value⟩ := entry
      obtain ⟨first, later⟩ := Bool.and_eq_true_iff.mp typed
      have tail := TreeForm.membersLeadTo_eq origin later visible
      unfold TreeForm.convertFields
      cases hidden : isReservedName name with
      | true =>
          have dropped : TreeForm.objects.keeps name = false := by
            simp [TreeForm.keeps, hidden]
          rw [dropped]
          split
          · rw [membersLeadTo, TreeForm.leadsTo_hidden _ origin hidden value visible, Bool.false_or]
            exact tail
          · exact tail
      | false =>
          rw [TreeForm.keeps_eq hidden]
          split
          · next kept =>
              have notLocation : (name == "loc") = false := by
                refine beq_eq_false_iff_ne.mpr ?_
                rintro rfl
                exact absurd kept (by decide)
              rw [notLocation, Bool.false_or] at first
              rw [membersLeadTo, membersLeadTo, TreeForm.leadsTo_eq _ first visible, tail]
          · exact tail

end

namespace Node.OfForms

variable {node other : Node}

theorem contains_eq (forms : Node.OfForms node other) {target : Origin}
    (visible : target.IsVisible) : node.contains target = other.contains target := by
  obtain ⟨origin, members, typed, -, data, objects⟩ := forms
  have same := TreeForm.leadsTo_eq origin typed visible
  rw [← data, ← objects] at same
  exact same

theorem isVisible (forms : Node.OfForms node other) : node.origin.IsVisible := by
  obtain ⟨origin, members, typed, visible, data, -⟩ := forms
  obtain ⟨kind, converted⟩ := TreeForm.convert_typed typed
  cases data.trans (converted .data origin)
  exact visible

end Node.OfForms

/-! ## Functions in the two forms -/

namespace Node.Twin

variable {node other : Node}

theorem bare_eq (twin : Twin OfForms node other) : node.bare = other.bare := by
  have origin_eq {node other : Node} (bare : node.bare = other.bare) : node.origin = other.origin := by
    have same := congrArg Node.origin bare
    exact same
  induction twin with
  | base forms => exact forms.bare_eq
  | call _ ih => simp only [Node.bare, Rule.asCall_origin, Rule.asCall_kind, origin_eq ih]
  | declaration _ name ih =>
      simp only [Node.bare, Rule.asDeclaration_origin, origin_eq ih]
      rfl
  | identifier _ name ih => simp only [Node.bare, origin_eq ih]
  | assignment _ _ _ ih =>
      simp only [Node.bare, Rule.defaultAssignment, origin_eq ih]

theorem field_alike (twin : Twin OfForms node other) {name : String}
    (visible : isReservedName name = false) :
    (node.field name).Alike (Twin OfForms) (other.field name) := by
  by_cases isId : name = "id"
  · subst isId
    exact twin.id fun forms => forms.field visible
  · exact (twin.field isId fun forms => forms.field visible).mono fun _ _ => .base

end Node.Twin

/-- Nothing foreign stands in plain data. -/
theorem Node.OfForms.field_ne_foreign {node other : Node} (forms : OfForms node other)
    (name : String) (place : Origin) : node.field name ≠ .foreign place := by
  obtain ⟨origin, members, typed, -, data, -⟩ := forms
  obtain ⟨kind, converted⟩ := TreeForm.convert_typed typed
  cases data.trans (converted .data origin)
  simp only [Node.field, TreeForm.lookup_convertFields]
  split
  · cases members.lookup name with
    | none => rintro ⟨⟩
    | some value =>
        cases value with
        | scalar value => rintro ⟨⟩
        | array items => rintro ⟨⟩
        | object inner =>
            simp only [Option.map_some, Option.getD_some, TreeForm.convert]
            split <;> rintro ⟨⟩
  · rintro ⟨⟩

theorem Node.Twin.name_ne_foreign {node other : Node} (twin : Twin OfForms node other)
    (place : Origin) : node.field "name" ≠ .foreign place := by
  induction twin with
  | base forms => exact forms.field_ne_foreign "name" place
  | call _ ih => exact ih
  | declaration _ given ih =>
      rw [Rule.asDeclaration_field (by decide : "name" ≠ "id")]
      exact ih
  | identifier _ _ _ => rintro ⟨⟩
  | assignment _ _ _ _ => rintro ⟨⟩

theorem Node.OfForms.boundName_ne_foreign {node other : Node} (forms : OfForms node other)
    (place : Origin) : node.boundName ≠ .foreign place := by
  induction height : node.height using Nat.strongRecOn generalizing node other with
  | ind bound ih =>
      subst height
      have left := forms.field (by decide : isReservedName "left" = false)
      have lower := node.height_field_lt "left"
      rw [node.boundName_eq]
      split
      · exact forms.field_ne_foreign "name" place
      · split
        · generalize node.field "left" = held at left lower
          generalize other.field "left" = heldToo at left
          cases left with
          | node inner => exact ih _ lower inner rfl
          | _ => exact fun same => nomatch same
        · exact fun same => nomatch same

/-- The name that corresponding values give to a symbol. -/
theorem Value.Alike.symbolName?_bare {value other : Value} (alike : value.Alike Node.OfForms other)
    (known : ∀ place, value ≠ .foreign place) :
    value.symbolName?.map (Option.map Value.bare) = other.symbolName?.map (Option.map Value.bare) := by
  unfold Value.symbolName?
  rw [alike.isTruthy_eq]
  split
  · cases alike with
    | node forms => exact congrArg (fun bare => Except.ok (some (Value.node bare))) forms.bare_eq
    | foreign place _ => exact absurd rfl (known place)
    | _ => rfl
  · rfl

section Occurrences

variable {value other : Value} (alike : value.Alike Node.OfForms other) (place : Origin)
include alike

/-- Values that correspond, at one place, are the same occurrence or not of any value. -/
theorem Occurrence.isSame_target (here : Occurrence) :
    here.isSame ⟨value, place⟩ = here.isSame ⟨other, place⟩ := by
  obtain ⟨held, origin⟩ := here
  cases alike with
  | node forms => cases held <;> simp only [Occurrence.isSame, forms.origin_eq]
  | list length each => cases held <;> rfl
  | foreign first second => cases held <;> rfl
  | _ => rfl

theorem Occurrence.isSame_source (target : Occurrence) :
    Occurrence.isSame ⟨value, place⟩ target = Occurrence.isSame ⟨other, place⟩ target := by
  obtain ⟨held, origin⟩ := target
  cases alike with
  | node forms => cases held <;> simp only [Occurrence.isSame, forms.origin_eq]
  | list length each => cases held <;> rfl
  | foreign first second => cases held <;> rfl
  | _ => rfl

end Occurrences

/-- The functions that recorders of two runs over the two forms of a tree know: the same
ones, from before, or counterparts. -/
def Node.SameFunction (function other : Node) : Prop :=
  function = other ∨ Node.Twin Node.OfForms function other

namespace Node.SameFunction

variable {function other inner innerToo : Node}

theorem bare_eq (same : function.SameFunction other) : function.bare = other.bare := by
  rcases same with rfl | twin
  · rfl
  · exact twin.bare_eq

/-- Whether the body of a recorded function holds that of an entered one is the same in
both forms. -/
theorem holdsBodyOf_eq (same : function.SameFunction other) (twin : Twin OfForms inner innerToo)
    (scope scopeToo : Scope) (owner : scope.function = some function)
    (ownerToo : scopeToo.function = some other) :
    scope.holdsBodyOf inner = scopeToo.holdsBodyOf innerToo := by
  have notId : "body" ≠ "id" := by decide
  have target := twin.field notId fun forms => forms.field (by decide : isReservedName "body" = false)
  have places : inner.origin = innerToo.origin := by
    have origins := congrArg Node.origin twin.bare_eq
    exact origins
  have around : function.origin = other.origin := by
    have origins := congrArg Node.origin same.bare_eq
    exact origins
  unfold Scope.holdsBodyOf Scope.holds Node.occurrence
  rw [owner, ownerToo]
  simp only [places, around]
  generalize inner.field "body" = sought at target
  generalize innerToo.field "body" = soughtToo at target
  rw [Occurrence.isSame_target target]
  rcases same with rfl | twinToo
  · split
    · rfl
    · split
      · rfl
      · generalize function.field "body" = root
        cases target with
        | node forms => cases root <;> simp only [forms.origin_eq]
        | list length each => cases root <;> rfl
        | foreign first second => cases root <;> rfl
        | _ => rfl
  · have body := twinToo.field notId fun forms => forms.field (by decide : isReservedName "body" = false)
    generalize function.field "body" = root at body
    generalize other.field "body" = rootToo at body
    rw [body.isNull_eq, Occurrence.isSame_source body]
    split
    · rfl
    · split
      · rfl
      · cases body with
        | node outer =>
            cases target with
            | @node sought soughtToo forms =>
                have same := outer.contains_eq forms.isVisible
                rw [forms.origin_eq] at same
                simp only [forms.origin_eq, same]
            | _ => rfl
        | _ => cases target <;> rfl

end Node.SameFunction

/-- A recorder does not tell counterparts apart. -/
theorem Node.Twin.entersLike {function other : Node} (twin : Twin OfForms function other) :
    function.EntersLike Node.SameFunction other where
  related := .inr twin
  name := by
    have id := twin.field_alike (by decide : isReservedName "id" = false)
    unfold Node.functionName?
    generalize function.field "id" = held at id
    generalize other.field "id" = heldToo at id
    cases id with
    | node inner =>
        have named := inner.field (by decide : "name" ≠ "id") fun forms =>
          forms.field (by decide : isReservedName "name" = false)
        exact named.symbolName?_bare inner.name_ne_foreign
    | _ => rfl
  params := by
    have params := twin.field (by decide : "params" ≠ "id") fun forms =>
      forms.field (by decide : isReservedName "params" = false)
    have bound (param paramToo : Value) (alike : param.Alike OfForms paramToo) :
        param.boundSymbol?.map (Option.map Value.bare) =
          paramToo.boundSymbol?.map (Option.map Value.bare) := by
      cases alike with
      | node forms =>
          exact (resembles_ofForms.boundName forms).symbolName?_bare forms.boundName_ne_foreign
      | _ => rfl
    have listed := Node.optionalItems_alike params
    generalize function.optionalItems "params" = items at listed
    generalize other.optionalItems "params" = others at listed
    cases listed with
    | error crash => rfl
    | ok all => exact congrArg Except.ok (map_eq_of_forall₂ all bound)
  holds scope scopeToo like := like.holdsBodyOf_eq fun _ _ outer owner ownerToo =>
    outer.holdsBodyOf_eq twin scope scopeToo owner ownerToo

/-! ## Renderings of the two forms -/

/-- The two forms of an object render alike. -/
theorem Node.OfForms.render_like {node other : Node} (forms : Node.OfForms node other)
    (options : Options) (position : Position) :
    (render options (.node node) position).Like (Node.Twin Node.OfForms)
      (render options (.node other) position) := by
  have visible (construct : Construct) : ∀ name ∈ construct.readFields,
      isReservedName name = false := by
    cases construct <;> decide
  refine PhpRendering.render_like options ?_ ?_ ?_
    (Task.Alike.visit .copy (.node (.base forms)) (.inl rfl))
  · intro _ node position _ other place related
    cases related with
    | visit _ alike places =>
        cases alike with
        | node twin =>
            have kind : node.kind = other.kind := by
              have same := congrArg Node.kind twin.bare_eq
              exact same
            have alike (construct : Construct) (_ : Construct.ofKind? node.kind = some construct)
                (name : String) (read : name ∈ construct.readFields) :=
              twin.field_alike (visible construct name read)
            refine twin.layout_like (fun _ _ same => same) resembles_ofForms kind options places
              (twin.asksAlike resembles_ofForms options position alike) alike ?_
            · intro _
              exact Layout.Like.parameters_paired (fun _ _ paired => paired.alike) resembles_ofForms
                twin kind (twin.field (by decide) fun forms => forms.field (by decide))
                (twin.field (by decide) fun forms => forms.field (by decide))
  · intro _ _ _ _ _ _ related
    cases related with
    | visit _ alike _ => exact alike.isSome_node?_eq
  · intro _ _ related
    cases related with
    | enter twin _ => exact twin

/-- Plain data and parser objects translate alike. Whatever a tree of typed objects is, in
any session its two forms give the same file or fail in the same way, with the same log and
the same records. -/
theorem Session.forms_alike (session : Session) (tree : Nat) {source : Json}
    (typed : source.isTyped = true) (found : String) :
    (session.generate (.ofJson .data tree source) found).2 =
        (session.generate (.ofJson .objects tree source) found).2 ∧
      (session.generate (.ofJson .data tree source) found).1.log =
        (session.generate (.ofJson .objects tree source) found).1.log ∧
      (session.generate (.ofJson .data tree source) found).1.recorder.bare =
        (session.generate (.ofJson .objects tree source) found).1.recorder.bare := by
  have visible : Origin.IsVisible ⟨tree, []⟩ := fun _ held => (List.not_mem_nil held).elim
  have alike : (Value.ofJson .data tree source).Alike Node.OfForms (.ofJson .objects tree source) :=
    TreeForm.convert_alike visible typed
  generalize Value.ofJson .data tree source = data at alike
  generalize Value.ofJson .objects tree source = objects at alike
  cases alike with
  | node forms =>
      have alike := (forms.render_like session.options {}).mono fun _ _ => Node.Twin.entersLike
      have reflexive (function : Node) : function.SameFunction function := .inl rfl
      have before := Session.Like.refl reflexive session
      obtain ⟨after, outcome⟩ := before.generate forms.kind_eq found alike
      exact ⟨outcome, after.log, after.recorder.bare_eq fun _ _ => Node.SameFunction.bare_eq⟩
  | _ => exact ⟨rfl, rfl, rfl⟩

/-- A program with an unsupported statement on a known line, and a function that holds
another one and has a hidden member and a text in the place of its location. -/
def markedSource : Json :=
  let identifier (name : String) : Json :=
    .object [("type", .text "Identifier"), ("name", .text name)]
  let function (name : String) (statements : List Json) (more : List (String × Json)) : Json :=
    .object ([("type", .text "FunctionDeclaration"), ("id", identifier name),
      ("params", .array [identifier "x"]),
      ("body", .object [("type", .text "BlockStatement"), ("body", .array statements)])] ++ more)
  .object [("type", .text "Program"),
    ("body", .array
      [.object [("type", .text "WithStatement"),
          ("loc", .object [("start", .object [("line", .scalar (.int 3))])])],
        function "f" [function "g" [] []] [("_parent", identifier "p"), ("loc", .text "here")]])]

theorem markedSource_alike :
    markedSource.isTyped = true ∧
      (Session.generate {} (.ofJson .data 0 markedSource) "Node").2 =
        (Session.generate {} (.ofJson .objects 0 markedSource) "Node").2 ∧
      (Session.generate {} (.ofJson .data 0 markedSource) "Node").1.recorder.bare =
        (Session.generate {} (.ofJson .objects 0 markedSource) "Node").1.recorder.bare ∧
      (Session.generate {} (.ofJson .data 0 markedSource) "Node").1.log.map Diagnostic.line =
        [.scalar (.int 3)] ∧
      (Session.generate {} (.ofJson .data 0 markedSource) "Node").2 =
        .ok "<?php\nfunction f($x) \x7b\nfunction g($x) \x7b\n\x7d\n\x7d\n" := by
  have typed : markedSource.isTyped = true := by decide
  obtain ⟨file, log, record⟩ := Session.forms_alike {} 0 typed "Node"
  exact ⟨typed, file, record, rfl, rfl⟩

end PhpRendering
