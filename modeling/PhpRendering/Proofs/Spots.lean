import Mathlib.Logic.Relation
import PhpRendering.Proofs.Region
import PhpRendering.Proofs.TreeForms
import PhpRendering.Proofs.WellFormed

/-!
# Places in the two spellings

An object of a tree stands at one place in the tree as it was read and at another one in
the tree as it is respelled: a default moves from the pattern of its parameter into the
list of defaults. The objects keep their nesting, so one of them lies below another in
both trees or in neither.
-/

namespace PhpRendering

/-! ## Nodes of objects -/

def TreeForm.nodeAt (form : TreeForm) (origin : Origin) (members : List (String × Json)) : Node :=
  ⟨origin, (Json.object members).kind?.getD "", form.convertFields origin members,
    form.location members⟩

theorem TreeForm.convert_object (form : TreeForm) (origin : Origin) {members : List (String × Json)}
    (node : (Json.object members).isNode = true) :
    form.convert origin (.object members) = .node (form.nodeAt origin members) := by
  unfold Json.isNode Json.kind? at node
  rw [Json.member_object] at node
  unfold TreeForm.nodeAt Json.kind?
  rw [Json.member_object]
  cases found : members.lookup "type" with
  | none =>
      rw [found] at node
      cases node
  | some type =>
      rw [found, Option.getD_some] at node
      obtain ⟨kind, isText⟩ := Option.isSome_iff_exists.mp node
      unfold Json.text? at isText
      split at isText
      · cases isText
        cases form with
        | data =>
            simp only [TreeForm.convert, TreeForm.nodeType?, found]
            rfl
        | objects =>
            simp only [TreeForm.convert, TreeForm.nodeType?, found, Json.isNull]
            rfl
      · cases isText

theorem TreeForm.nodeAt_field (form : TreeForm) (origin : Origin) (members : List (String × Json))
    (name : String) :
    (form.nodeAt origin members).field name =
      if form.keeps name then
        form.convert (origin.down (.member name)) ((Json.object members).member name)
      else .null := by
  unfold Node.field TreeForm.nodeAt
  rw [TreeForm.lookup_convertFields, Json.member_object]
  split
  · cases members.lookup name <;> rfl
  · rfl

theorem TreeForm.convertItems_getElem? (form : TreeForm) (origin : Origin) (start : Nat)
    (items : List Json) (index : Nat) :
    (form.convertItems origin start items)[index]? =
      items[index]?.map (form.convert (origin.down (.item (start + index)))) := by
  induction items generalizing start index with
  | nil => rfl
  | cons item rest ih =>
      cases index with
      | zero => rfl
      | succ index =>
          rw [TreeForm.convertItems, List.getElem?_cons_succ, List.getElem?_cons_succ, ih,
            Nat.add_assoc, Nat.add_comm 1]

theorem TreeForm.convert_item (form : TreeForm) (origin : Origin) {items : List Json} {index : Nat}
    {item : Json} (place : items[index]? = some item) :
    (form.convertItems origin 0 items)[index]? =
      some (form.convert (origin.down (.item index)) item) := by
  rw [TreeForm.convertItems_getElem?, place, Nat.zero_add]
  rfl

/-- What a member of an object leads to. -/
theorem TreeForm.nodeAt_field_node {form : TreeForm} {origin : Origin}
    {members inner : List (String × Json)} {name : String} (kept : form.keeps name = true)
    (held : (Json.object members).member name = .object inner)
    (node : (Json.object inner).isNode = true) :
    (form.nodeAt origin members).field name =
      .node (form.nodeAt (origin.down (.member name)) inner) := by
  rw [TreeForm.nodeAt_field, if_pos kept, held, form.convert_object _ node]

/-! ## Spots -/

/-- An object with its place in a tree and its place in the respelled tree. -/
structure Spot where
  old : Origin
  new : Origin
  members : List (String × Json)

namespace Spot

def oldNode (form : TreeForm) (spot : Spot) : Node :=
  form.nodeAt spot.old spot.members

def newNode (form : TreeForm) (spot : Spot) : Node :=
  form.nodeAt spot.new (respelledMembers (respelledBelow spot.members))

def paramAt (function : Origin) (index : Nat) : Origin :=
  (function.down (.member "params")).down (.item index)

def defaultAt (function : Origin) (index : Nat) : Origin :=
  (function.down (.member "defaults")).down (.item index)

inductive Child (form : TreeForm) (spot : Spot) : Spot → Prop where
  | member {name : String} {inner : List (String × Json)} (kept : form.keeps name = true)
      (ordinary : (Json.object spot.members).isOf "ImportSpecifier" = false)
      (held : (Json.object spot.members).member name = .object inner)
      (node : (Json.object inner).isNode = true) :
      Child form spot ⟨spot.old.down (.member name), spot.new.down (.member name), inner⟩
  | item {name : String} {items : List Json} {index : Nat} {inner : List (String × Json)}
      (kept : form.keeps name = true)
      (ordinary : (Json.object spot.members).isOf "ImportSpecifier" = false)
      (held : (Json.object spot.members).member name = .array items)
      (place : items[index]? = some (.object inner))
      (stays : name = "params" → (ownParams? spot.members).isSome = true →
        (Json.object inner).bringsDefault = false)
      (node : (Json.object inner).isNode = true) :
      Child form spot ⟨(spot.old.down (.member name)).down (.item index),
        (spot.new.down (.member name)).down (.item index), inner⟩
  | target {params : List Json} {index : Nat} {param : Json} {inner : List (String × Json)}
      (own : ownParams? spot.members = some params) (place : params[index]? = some param)
      (brings : param.bringsDefault = true) (held : param.member "left" = .object inner)
      (node : (Json.object inner).isNode = true) :
      Child form spot ⟨(paramAt spot.old index).down (.member "left"), paramAt spot.new index, inner⟩
  | default {params : List Json} {index : Nat} {param : Json} {inner : List (String × Json)}
      (own : ownParams? spot.members = some params) (place : params[index]? = some param)
      (brings : param.bringsDefault = true) (held : param.member "right" = .object inner)
      (node : (Json.object inner).isNode = true) :
      Child form spot
        ⟨(paramAt spot.old index).down (.member "right"), defaultAt spot.new index, inner⟩

def SameOrApart (first second : Spot) : Prop :=
  first = second ∨ first.old.Apart second.old ∧ first.new.Apart second.new

theorem SameOrApart.symm {first second : Spot} (either : first.SameOrApart second) :
    second.SameOrApart first := by
  rcases either with rfl | ⟨⟨oldOne, oldTwo⟩, newOne, newTwo⟩
  · exact .inl rfl
  · exact .inr ⟨⟨oldTwo, oldOne⟩, newTwo, newOne⟩

end Spot

/-! ## Ways down from one place -/

/-- Places below different members of an object are apart. -/
theorem Origin.Apart.of_name_ne {origin inner other : Origin} {name known : String}
    (different : name ≠ known) (within : inner.IsWithin (origin.down (.member name)))
    (withinToo : other.IsWithin (origin.down (.member known))) : inner.Apart other :=
  (Origin.apart_of_step_ne (fun same => different (Step.member.inj same)) origin).mono within
    withinToo

/-- Places below different items of a list are apart. -/
theorem Origin.Apart.of_index_ne {origin inner other : Origin} {index known : Nat}
    (different : index ≠ known) (within : inner.IsWithin (origin.down (.item index)))
    (withinToo : other.IsWithin (origin.down (.item known))) : inner.Apart other :=
  (Origin.apart_of_step_ne (fun same => different (Step.item.inj same)) origin).mono within
    withinToo

namespace Spot

variable {form : TreeForm} {spot first second : Spot}

section Ways

variable {name : String} {items : List Json} {index other : Nat} {inner : List (String × Json)}

/-- A list of defaults is not an object, and neither are parameters. -/
theorem member_ne_of_ownParams? {params : List Json}
    (held : (Json.object spot.members).member name = .object inner)
    (own : ownParams? spot.members = some params) : name ≠ "params" ∧ name ≠ "defaults" := by
  obtain ⟨-, nothing, listed⟩ := ownParams?_shape own
  constructor
  · rintro rfl
    cases held.symm.trans listed
  · rintro rfl
    rw [held] at nothing
    cases nothing

theorem member_apart (held : (Json.object spot.members).member name = .object inner)
    (child : Child form spot second) :
    SameOrApart ⟨spot.old.down (.member name), spot.new.down (.member name), inner⟩ second := by
  have apart {known : String} (different : name ≠ known) {origin place : Origin}
      (within : place.IsWithin (origin.down (.member known))) :
      (origin.down (.member name)).Apart place :=
    .of_name_ne different (.refl _) within
  cases child with
  | @member known _ _ _ heldToo _ =>
      by_cases same : name = known
      · subst same
        cases held.symm.trans heldToo
        exact .inl rfl
      · exact .inr ⟨apart same (.refl _), apart same (.refl _)⟩
  | @item known _ _ _ _ _ heldToo _ _ _ =>
      have different : name ≠ known := by
        rintro rfl
        cases held.symm.trans heldToo
      exact .inr ⟨apart different (.down _ _), apart different (.down _ _)⟩
  | @target _ index _ _ own _ _ _ _ =>
      have different := (member_ne_of_ownParams? held own).1
      have deep := (Origin.IsWithin.down (paramAt spot.old index) (.member "left")).trans (.down _ _)
      exact .inr ⟨apart different deep, apart different (.down _ _)⟩
  | @default _ index _ _ own _ _ _ _ =>
      obtain ⟨notParams, notDefaults⟩ := member_ne_of_ownParams? held own
      have deep := (Origin.IsWithin.down (paramAt spot.old index) (.member "right")).trans (.down _ _)
      exact .inr ⟨apart notParams deep, apart notDefaults (.down _ _)⟩

/-- Where a parameter stays, no default is taken from it. -/
theorem item_ne_of_brings {params : List Json} {param : Json}
    (held : (Json.object spot.members).member "params" = .array items)
    (place : items[index]? = some (.object inner))
    (stays : (ownParams? spot.members).isSome = true → (Json.object inner).bringsDefault = false)
    (own : ownParams? spot.members = some params) (placeToo : params[other]? = some param)
    (brings : param.bringsDefault = true) : index ≠ other := by
  rintro rfl
  cases held.symm.trans (ownParams?_shape own).2.2
  cases place.symm.trans placeToo
  rw [stays (by rw [own]; rfl)] at brings
  cases brings

theorem item_apart (held : (Json.object spot.members).member name = .array items)
    (place : items[index]? = some (.object inner))
    (stays : name = "params" → (ownParams? spot.members).isSome = true →
      (Json.object inner).bringsDefault = false)
    {params : List Json} {param : Json} (own : ownParams? spot.members = some params)
    (placeToo : params[other]? = some param) (brings : param.bringsDefault = true) :
    ((spot.old.down (.member name)).down (.item index)).Apart (paramAt spot.old other) ∧
      ((spot.new.down (.member name)).down (.item index)).Apart (paramAt spot.new other) ∧
      ((spot.new.down (.member name)).down (.item index)).Apart (defaultAt spot.new other) := by
  have notDefaults : name ≠ "defaults" := by
    rintro rfl
    have nothing := (ownParams?_shape own).2.1
    rw [held] at nothing
    cases nothing
  have moved : ((spot.new.down (.member name)).down (.item index)).Apart (defaultAt spot.new other) :=
    .of_name_ne notDefaults (.down _ _) (.down _ _)
  by_cases same : name = "params"
  · subst same
    have different := item_ne_of_brings held place (stays rfl) own placeToo brings
    exact ⟨.of_index_ne different (.refl _) (.refl _), .of_index_ne different (.refl _) (.refl _),
      moved⟩
  · exact ⟨.of_name_ne same (.down _ _) (.down _ _), .of_name_ne same (.down _ _) (.down _ _), moved⟩

end Ways

/-- Objects directly below one object are the same or apart, in both trees. -/
theorem Child.sameOrApart (one : Child form spot first) (other : Child form spot second) :
    first.SameOrApart second := by
  cases one with
  | member _ _ held _ => exact member_apart held other
  | @item name items index inner kept ordinary held place stays node =>
      cases other with
      | member _ _ heldToo _ =>
          exact (member_apart heldToo (.item kept ordinary held place stays node)).symm
      | @item known _ indexToo _ _ _ heldToo placeToo _ _ =>
          by_cases same : name = known
          · subst same
            cases held.symm.trans heldToo
            by_cases sameIndex : index = indexToo
            · subst sameIndex
              cases place.symm.trans placeToo
              exact .inl rfl
            · exact .inr ⟨.of_index_ne sameIndex (.refl _) (.refl _),
                .of_index_ne sameIndex (.refl _) (.refl _)⟩
          · exact .inr ⟨.of_name_ne same (.down _ _) (.down _ _),
              .of_name_ne same (.down _ _) (.down _ _)⟩
      | target own placeToo brings _ _ =>
          obtain ⟨old, new, -⟩ := item_apart held place stays own placeToo brings
          exact .inr ⟨old.mono (.refl _) (.down _ _), new⟩
      | default own placeToo brings _ _ =>
          obtain ⟨old, -, new⟩ := item_apart held place stays own placeToo brings
          exact .inr ⟨old.mono (.refl _) (.down _ _), new⟩
  | @target params index param inner own place brings held node =>
      cases other with
      | member _ _ heldToo _ =>
          have self : Child form spot _ := .target own place brings held node
          exact (member_apart heldToo self).symm
      | item _ _ heldToo placeToo stays _ =>
          obtain ⟨old, new, -⟩ := item_apart heldToo placeToo stays own place brings
          exact SameOrApart.symm (.inr ⟨old.mono (.refl _) (.down _ _), new⟩)
      | @target _ indexToo _ _ ownToo placeToo _ heldToo _ =>
          cases own.symm.trans ownToo
          by_cases same : index = indexToo
          · subst same
            cases place.symm.trans placeToo
            cases held.symm.trans heldToo
            exact .inl rfl
          · exact .inr ⟨.of_index_ne same (.down _ _) (.down _ _),
              .of_index_ne same (.refl _) (.refl _)⟩
      | @default _ indexToo _ _ ownToo placeToo _ heldToo _ =>
          have new : (paramAt spot.new index).Apart (defaultAt spot.new indexToo) :=
            .of_name_ne (by decide) (.down _ _) (.down _ _)
          by_cases same : index = indexToo
          · subst same
            exact .inr ⟨.of_name_ne (by decide) (.refl _) (.refl _), new⟩
          · exact .inr ⟨.of_index_ne same (.down _ _) (.down _ _), new⟩
  | @default params index param inner own place brings held node =>
      cases other with
      | member _ _ heldToo _ =>
          have self : Child form spot _ := .default own place brings held node
          exact (member_apart heldToo self).symm
      | item _ _ heldToo placeToo stays _ =>
          obtain ⟨old, -, new⟩ := item_apart heldToo placeToo stays own place brings
          exact SameOrApart.symm (.inr ⟨old.mono (.refl _) (.down _ _), new⟩)
      | @target _ indexToo _ _ ownToo placeToo _ heldToo _ =>
          have new : (paramAt spot.new indexToo).Apart (defaultAt spot.new index) :=
            .of_name_ne (by decide) (.down _ _) (.down _ _)
          by_cases same : index = indexToo
          · subst same
            exact .inr ⟨.of_name_ne (by decide) (.refl _) (.refl _), new.2, new.1⟩
          · exact .inr ⟨.of_index_ne same (.down _ _) (.down _ _), new.2, new.1⟩
      | @default _ indexToo _ _ ownToo placeToo _ heldToo _ =>
          cases own.symm.trans ownToo
          by_cases same : index = indexToo
          · subst same
            cases place.symm.trans placeToo
            cases held.symm.trans heldToo
            exact .inl rfl
          · exact .inr ⟨.of_index_ne same (.down _ _) (.down _ _),
              .of_index_ne same (.refl _) (.refl _)⟩

theorem Child.within (child : Child form spot first) :
    first.old.IsWithin spot.old ∧ first.new.IsWithin spot.new := by
  have two (origin : Origin) (step next : Step) : ((origin.down step).down next).IsWithin origin :=
    (Origin.IsWithin.down _ _).trans (.down _ _)
  cases child with
  | member _ _ _ _ => exact ⟨.down _ _, .down _ _⟩
  | item _ _ _ _ _ _ => exact ⟨two _ _ _, two _ _ _⟩
  | target _ _ _ _ _ => exact ⟨(Origin.IsWithin.down _ _).trans (two _ _ _), two _ _ _⟩
  | default _ _ _ _ _ => exact ⟨(Origin.IsWithin.down _ _).trans (two _ _ _), two _ _ _⟩

/-- No object lies below its children. -/
theorem Child.not_within (child : Child form spot first) :
    ¬ spot.old.IsWithin first.old ∧ ¬ spot.new.IsWithin first.new := by
  have two (origin : Origin) (step next : Step) : ¬ origin.IsWithin ((origin.down step).down next) :=
    fun within => origin.not_isWithin_down step (within.trans (.down _ _))
  cases child with
  | member _ _ _ _ => exact ⟨Origin.not_isWithin_down _ _, Origin.not_isWithin_down _ _⟩
  | item _ _ _ _ _ _ => exact ⟨two _ _ _, two _ _ _⟩
  | target _ _ _ _ _ => exact ⟨fun within => two _ _ _ (within.trans (.down _ _)), two _ _ _⟩
  | default _ _ _ _ _ => exact ⟨fun within => two _ _ _ (within.trans (.down _ _)), two _ _ _⟩

abbrev Below (form : TreeForm) : Spot → Spot → Prop :=
  Relation.ReflTransGen (Child form)

theorem Below.within {inner : Spot} (below : Below form spot inner) :
    inner.old.IsWithin spot.old ∧ inner.new.IsWithin spot.new := by
  induction below with
  | refl => exact ⟨.refl _, .refl _⟩
  | tail _ child ih => exact ⟨child.within.1.trans ih.1, child.within.2.trans ih.2⟩

/-- An object whose place lies below that of another one, in one of the trees, lies below it
in both. The induction is on the way down to the upper object; the way to the lower one
either takes the same steps or leaves it for good. -/
theorem Below.of_isWithin (one : Below form spot first) (other : Below form spot second)
    (within : second.old.IsWithin first.old ∨ second.new.IsWithin first.new) :
    Below form first second := by
  induction one using Relation.ReflTransGen.head_induction_on with
  | refl => exact other
  | @head spot next child rest ih =>
      have inside := Below.within rest
      rcases other.cases_head with rfl | ⟨nextToo, childToo, restToo⟩
      · rcases within with old | new
        · exact absurd (old.trans inside.1) child.not_within.1
        · exact absurd (new.trans inside.2) child.not_within.2
      · rcases child.sameOrApart childToo with rfl | ⟨apart, apartToo⟩
        · exact ih restToo
        · have insideToo := Below.within restToo
          rcases within with old | new
          · exact (apart.elim (old.trans inside.1) insideToo.1).elim
          · exact (apartToo.elim (new.trans inside.2) insideToo.2).elim

/-- One object of a tree lies below another one in both trees or in neither. -/
theorem Below.isWithin_iff (one : Below form spot first) (other : Below form spot second) :
    second.old.IsWithin first.old ↔ second.new.IsWithin first.new :=
  ⟨fun within => (Below.within (one.of_isWithin other (.inl within))).2,
    fun within => (Below.within (one.of_isWithin other (.inr within))).1⟩

/-- Two objects of a tree stand at one place in both trees or in neither. -/
theorem Below.origin_eq_iff (one : Below form spot first) (other : Below form spot second) :
    first.old = second.old ↔ first.new = second.new := by
  have both {origin place : Origin} : origin = place ↔ origin.IsWithin place ∧ place.IsWithin origin := by
    constructor
    · rintro rfl
      exact ⟨.refl _, .refl _⟩
    · rintro ⟨⟨tree, steps⟩, -, stepsToo⟩
      obtain ⟨number, way⟩ := origin
      obtain ⟨numberToo, wayToo⟩ := place
      cases tree
      have level := Nat.le_antisymm stepsToo.length_le steps.length_le
      cases stepsToo.eq_of_length level
      rfl
  rw [both, both, one.isWithin_iff other, other.isWithin_iff one]

/-! ## Nodes below nodes -/

theorem convert_respelled (form : TreeForm) (origin : Origin) {members : List (String × Json)}
    (node : (Json.object members).isNode = true) :
    form.convert origin (Json.object members).respelled =
      .node (form.nodeAt origin (respelledMembers (respelledBelow members))) := by
  rw [Json.respelled_object node]
  refine form.convert_object origin ?_
  rw [← Json.respelled_object node, Json.isNode_respelled]
  exact node

/-- What a field of a node holds. -/
theorem oldNode_field (spot : Spot) {name : String} (kept : form.keeps name = true) :
    (spot.oldNode form).field name =
      form.convert (spot.old.down (.member name)) ((Json.object spot.members).member name) := by
  unfold oldNode
  rw [TreeForm.nodeAt_field, if_pos kept]

/-- What a field of a respelled node holds. -/
theorem newNode_field (node : (Json.object spot.members).isNode = true) (name : String) :
    (spot.newNode form).field name =
      if form.keeps name then
        form.convert (spot.new.down (.member name)) ((Json.object spot.members).respelled.member name)
      else .null := by
  unfold newNode
  rw [TreeForm.nodeAt_field, Json.respelled_object node]

theorem not_metadata_of_keeps {name : String} (kept : form.keeps name = true) :
    metadataMembers.contains name = false := by
  obtain ⟨field, -⟩ := Bool.and_eq_true_iff.mp kept
  simpa using field

section Fields

variable (node : (Json.object spot.members).isNode = true)
include node

/-- A field that is not respelled holds the respelled value. -/
theorem newNode_field_ordinary {name : String} (kept : form.keeps name = true)
    (ordinary : (Json.object spot.members).isOf "ImportSpecifier" = false)
    (params : name ∈ ["params", "defaults"] → ownParams? spot.members = none) :
    (spot.newNode form).field name =
      form.convert (spot.new.down (.member name))
        ((Json.object spot.members).member name).respelled := by
  rw [newNode_field node, if_pos kept,
    Json.member_respelled node (not_metadata_of_keeps kept) params fun _ => ordinary]

omit node in
/-- The parameters of a function as they were read. -/
theorem oldNode_params {params : List Json} (own : ownParams? spot.members = some params) :
    (spot.oldNode form).field "params" =
      form.convert (spot.old.down (.member "params")) (.array params) := by
  rw [spot.oldNode_field (by cases form <;> decide), (ownParams?_shape own).2.2]

/-- The respelled parameters of a function and the list of their defaults. -/
theorem newNode_params {params : List Json} (own : ownParams? spot.members = some params) :
    (spot.newNode form).field "params" =
        form.convert (spot.new.down (.member "params"))
          (.array (params.map fun param => param.paramTarget.respelled)) ∧
      (spot.newNode form).field "defaults" =
        form.convert (spot.new.down (.member "defaults"))
          (.array (params.map fun param => param.paramDefault.respelled)) := by
  have kept : form.keeps "params" = true ∧ form.keeps "defaults" = true := by
    cases form <;> decide
  obtain ⟨targets, defaults⟩ := member_respelledParams own
  rw [newNode_field node, newNode_field node, if_pos kept.1, if_pos kept.2, targets, defaults]
  exact ⟨rfl, rfl⟩

end Fields

theorem ownParams?_of_member {name : String} {inner : List (String × Json)}
    (held : (Json.object spot.members).member name = .object inner)
    (listed : name ∈ ["params", "defaults"]) : ownParams? spot.members = none := by
  cases own : ownParams? spot.members with
  | none => rfl
  | some params =>
      obtain ⟨notParams, notDefaults⟩ := member_ne_of_ownParams? held own
      simp [notParams, notDefaults] at listed

/-- The way to a child leads there in the tree as it was read. -/
theorem Child.oldLeads (child : Child form spot first) :
    (spot.oldNode form).Leads (first.oldNode form) := by
  -- a pattern among the parameters lies on the way to its sides
  have side {params : List Json} {index : Nat} {param : Json} {name : String}
      {inner : List (String × Json)} (own : ownParams? spot.members = some params)
      (place : params[index]? = some param) (brings : param.bringsDefault = true)
      (held : param.member name = .object inner) (kept : form.keeps name = true)
      (node : (Json.object inner).isNode = true) :
      (spot.oldNode form).Leads (form.nodeAt ((paramAt spot.old index).down (.member name)) inner) := by
    have pattern := Json.isNode_of_isOf (Json.bringsDefault_shape brings).1
    obtain ⟨members, rfl⟩ := Json.isObject_of_isNode pattern
    have item := form.convert_item (spot.old.down (.member "params")) place
    rw [form.convert_object _ pattern] at item
    exact .field (.item .refl (oldNode_params own) item) (TreeForm.nodeAt_field_node kept held node)
  cases child with
  | member kept _ held node => exact .field .refl (TreeForm.nodeAt_field_node kept held node)
  | @item name items index inner kept _ held place _ node =>
      have item := form.convert_item (spot.old.down (.member name)) place
      rw [form.convert_object _ node] at item
      have list : (spot.oldNode form).field name =
          .list (form.convertItems (spot.old.down (.member name)) 0 items) := by
        rw [spot.oldNode_field kept, held]
        rfl
      exact .item .refl list item
  | target own place brings held node =>
      exact side own place brings held (by cases form <;> decide) node
  | default own place brings held node =>
      exact side own place brings held (by cases form <;> decide) node

/-- The way to a child leads there in the respelled tree. -/
theorem Child.newLeads (node : (Json.object spot.members).isNode = true)
    (child : Child form spot first) : (spot.newNode form).Leads (first.newNode form) := by
  cases child with
  | @member name inner kept ordinary held inside =>
      have field := newNode_field_ordinary node kept ordinary (ownParams?_of_member held)
      rw [held, convert_respelled form _ inside] at field
      exact .field .refl field
  | @item name items index inner kept ordinary held place stays inside =>
      have respelled : (items.map Json.respelled)[index]? = some (Json.object inner).respelled := by
        rw [List.getElem?_map, place]
        rfl
      by_cases moves : name = "params" ∧ (ownParams? spot.members).isSome
      · obtain ⟨rfl, known⟩ := moves
        obtain ⟨params, own⟩ := Option.isSome_iff_exists.mp known
        cases held.symm.trans (ownParams?_shape own).2.2
        have same : (items.map fun param => param.paramTarget.respelled)[index]? =
            some (Json.object inner).respelled := by
          rw [List.getElem?_map, place]
          simp [Json.paramTarget, stays rfl known]
        have item := form.convert_item (spot.new.down (.member "params")) same
        rw [convert_respelled form _ inside] at item
        exact .item .refl (newNode_params node own).1 item
      · have none : name ∈ ["params", "defaults"] → ownParams? spot.members = none := by
          intro listed
          cases own : ownParams? spot.members with
          | none => rfl
          | some params =>
              have nothing := (ownParams?_shape own).2.1
              rw [own] at moves
              simp only [List.mem_cons, List.not_mem_nil, or_false] at listed
              rcases listed with rfl | rfl
              · exact absurd ⟨rfl, rfl⟩ moves
              · rw [held] at nothing
                cases nothing
        have field := newNode_field_ordinary node kept ordinary none
        rw [held, Json.respelled, Json.respelledItems_eq_map] at field
        have item := form.convert_item (spot.new.down (.member name)) respelled
        rw [convert_respelled form _ inside] at item
        exact .item .refl field item
  | @target params index param inner own place brings held inside =>
      have same : (params.map fun param => param.paramTarget.respelled)[index]? =
          some (Json.object inner).respelled := by
        rw [List.getElem?_map, place]
        simp [Json.paramTarget, brings, held]
      have item := form.convert_item (spot.new.down (.member "params")) same
      rw [convert_respelled form _ inside] at item
      exact .item .refl (newNode_params node own).1 item
  | @default params index param inner own place brings held inside =>
      have same : (params.map fun param => param.paramDefault.respelled)[index]? =
          some (Json.object inner).respelled := by
        rw [List.getElem?_map, place]
        simp [Json.paramDefault, brings, held]
      have item := form.convert_item (spot.new.down (.member "defaults")) same
      rw [convert_respelled form _ inside] at item
      exact .item .refl (newNode_params node own).2 item

theorem Child.isNode (child : Child form spot first) : (Json.object first.members).isNode = true := by
  cases child with
  | member _ _ _ node => exact node
  | item _ _ _ _ _ node => exact node
  | target _ _ _ _ node => exact node
  | default _ _ _ _ node => exact node

theorem Below.isNode (node : (Json.object spot.members).isNode = true)
    (below : Below form spot first) : (Json.object first.members).isNode = true := by
  cases below with
  | refl => exact node
  | tail _ child => exact child.isNode

/-- A search finds the objects below an object in both trees. -/
theorem Below.contains (node : (Json.object spot.members).isNode = true)
    (below : Below form spot first) :
    (spot.oldNode form).contains first.old = true ∧ (spot.newNode form).contains first.new = true := by
  induction below using Relation.ReflTransGen.head_induction_on with
  | refl => exact ⟨Node.contains_self (first.oldNode form), Node.contains_self (first.newNode form)⟩
  | head child rest ih =>
      obtain ⟨old, new⟩ := ih child.isNode
      exact ⟨child.oldLeads.contains old, (child.newLeads node).contains new⟩

/-- A search below one object for another one goes alike in both trees. -/
theorem Below.contains_eq (node : (Json.object spot.members).isNode = true)
    (one : Below form spot first) (other : Below form spot second) :
    (first.oldNode form).contains second.old = (first.newNode form).contains second.new := by
  have inside := Below.isNode node one
  have old := form.convert_isLocated first.old (.object first.members)
  have new := form.convert_isLocated first.new (Json.object first.members).respelled
  rw [form.convert_object _ inside] at old
  rw [convert_respelled form _ inside] at new
  rw [Bool.eq_iff_iff]
  constructor
  · intro found
    exact (Below.contains inside (one.of_isWithin other (.inl (old.isWithin_of_leadsTo found)))).2
  · intro found
    exact (Below.contains inside (one.of_isWithin other (.inr (new.isWithin_of_leadsTo found)))).1

end Spot

end PhpRendering
