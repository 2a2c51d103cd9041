import PhpRendering.Proofs.Layout

/-!
# Emitters and what they show

An emitter yields outputs, a renderer the texts that are shown of them. When the outputs
have the forms of their values, a rule that wants texts of its children fails exactly
where the forms tell it: what it does is done with the shown texts and a demand that no
longer looks at outputs.
-/

namespace PhpRendering

namespace Emission

variable {ε α β γ : Type}

theorem andThen_congr {first : Emission ε α} {next other : α → Emission ε β}
    (same : ∀ result, first.outcome = .ok result → next result = other result) :
    first.andThen next = first.andThen other := by
  obtain ⟨events, outcome⟩ := first
  cases outcome with
  | error failure => rfl
  | ok result => simp only [andThen, same result rfl]

/-- One emission after another has a result when both have one. -/
theorem andThen_outcome_ok_iff {first : Emission ε α} {next : α → Emission ε β} {result : β} :
    (first.andThen next).outcome = .ok result ↔
      ∃ middle, first.outcome = .ok middle ∧ (next middle).outcome = .ok result := by
  obtain ⟨events, outcome⟩ := first
  cases outcome with
  | error failure =>
      constructor
      · intro impossible
        cases impossible
      · rintro ⟨middle, impossible, -⟩
        cases impossible
  | ok middle =>
      constructor
      · exact fun found => ⟨middle, rfl, found⟩
      · rintro ⟨_, ⟨⟩, found⟩
        exact found

/-- One emission after another fails where one of them does. -/
theorem andThen_outcome_error_iff {first : Emission ε α} {next : α → Emission ε β} {failure : ε} :
    (first.andThen next).outcome = .error failure ↔
      first.outcome = .error failure ∨
        ∃ middle, first.outcome = .ok middle ∧ (next middle).outcome = .error failure := by
  obtain ⟨events, outcome⟩ := first
  cases outcome with
  | error other => simp [andThen]
  | ok middle => simp [andThen]

theorem insideRule_outcome_ok_iff {emission : Emission Crash α} {result : α} :
    emission.insideRule.outcome = .ok result ↔ emission.outcome = .ok result := by
  obtain ⟨events, outcome⟩ := emission
  cases outcome with
  | error crash =>
      constructor
      · intro impossible
        cases impossible
      · intro impossible
        cases impossible
  | ok found =>
      constructor
      · rintro ⟨⟩
        rfl
      · rintro ⟨⟩
        rfl

theorem insideRule_andThen_done (emission : Emission Crash α) (wrap : α → β) :
    (emission.andThen fun result => .done (wrap result)).insideRule =
      emission.insideRule.andThen fun result => .done (wrap result) := by
  obtain ⟨events, outcome⟩ := emission
  cases outcome <;> rfl

theorem each_map (emit : β → Emission ε γ) (wrap : α → β) (items : List α) :
    each emit (items.map wrap) = each (fun item => emit (wrap item)) items := by
  induction items with
  | nil => rfl
  | cons item rest ih => simp only [List.map_cons, each, ih]

/-- Positions that are not looked at make no difference. -/
theorem each_zipIdx (emit : α → Emission ε β) (items : List α) :
    each (fun entry => emit entry.1) items.zipIdx = each emit items := by
  rw [← each_map emit Prod.fst, List.zipIdx_map_fst]

/-- What is made of each result may as well be made of all results at the end. -/
theorem each_andThen (emit : α → Emission ε β) (wrap : β → γ) (items : List α) :
    each (fun item => (emit item).andThen fun result => .done (wrap result)) items =
      (each emit items).andThen fun results => .done (results.map wrap) := by
  induction items with
  | nil => exact (done_andThen _ _).symm
  | cons item rest ih =>
      simp only [each, bind_eq, pure_eq, ih, andThen_assoc, done_andThen, List.map_cons]

/-- What can be told of each result from its item can be told of all. -/
theorem all_of_each {emit : α → Emission ε β} {ofResult : β → Bool} {ofItem : α → Bool}
    {items : List α} {results : List β}
    (same : ∀ item ∈ items, ∀ result, (emit item).outcome = .ok result →
      ofResult result = ofItem item)
    (done : (each emit items).outcome = .ok results) : results.all ofResult = items.all ofItem := by
  induction items generalizing results with
  | nil =>
      cases done
      rfl
  | cons item rest ih =>
      simp only [each, bind_eq, pure_eq, andThen] at done
      cases first : (emit item).outcome with
      | error failure =>
          rw [first] at done
          cases done
      | ok result =>
          rw [first] at done
          cases later : (each emit rest).outcome with
          | error failure =>
              simp only [later] at done
              cases done
          | ok more =>
              simp only [later] at done
              cases done
              rw [List.all_cons, List.all_cons, same item (List.mem_cons_self ..) result first,
                ih (fun item held => same item (List.mem_cons_of_mem _ held)) later]

/-- The failure of a rule that wants a text and gets none. -/
def demand (fits : Bool) : Emission Fault Unit :=
  if fits then .done () else .fail (.crash .notAName)

@[simp]
theorem demand_true : demand true = .done () := rfl

end Emission

open Emission

/-! ## Outputs as texts -/

theorem Output.ofShape_asText (output : Output) :
    ofShape output.asText = (demand output.form.isText).andThen fun _ => .done output.shown := by
  cases fits : output.form.isText with
  | true => rw [Output.asText_of_form (Form.isText_iff.mp fits)]; rfl
  | false => rw [Output.asText_error fits]; rfl

theorem Rule.texts_eq (outputs : List Output) :
    Rule.texts outputs =
      (demand (outputs.all fun output => output.form.isText)).andThen fun _ =>
        .done (outputs.map Output.shown) := by
  unfold Rule.texts
  induction outputs with
  | nil => rfl
  | cons output rest ih =>
      cases fits : output.form.isText with
      | false =>
          simp only [List.mapM_cons, Output.asText_error fits, List.all_cons, fits]
          rfl
      | true =>
          rw [List.mapM_cons, Output.asText_of_form (Form.isText_iff.mp fits), List.all_cons, fits,
            Bool.true_and]
          cases all : rest.all fun output => output.form.isText with
          | false =>
              rw [all] at ih
              cases failed : rest.mapM Output.asText with
              | ok texts =>
                  rw [failed] at ih
                  cases ih
              | error crash =>
                  rw [failed] at ih
                  exact ih
          | true =>
              rw [all] at ih
              cases failed : rest.mapM Output.asText with
              | error crash =>
                  rw [failed] at ih
                  cases ih
              | ok texts =>
                  rw [failed] at ih
                  cases ih
                  rfl

/-! ## Emitters -/

def Emitter.shown (emit : Emitter) : Renderer := fun value position =>
  (emit value position).andThen fun output => .done output.shown

/-- The outputs of an emitter have the forms of the values. -/
def Emitter.Fits (emit : Emitter) : Prop :=
  ∀ value position output, (emit value position).outcome = .ok output → output.form = value.form

namespace Rule

variable {emit : Emitter}

theorem child_shown (emit : Emitter) (value : Value) (position : Position) :
    child emit.shown value position =
      (child emit value position).andThen fun output => .done output.shown :=
  insideRule_andThen_done _ _

theorem shown_eq (emit : Emitter) (value : Value) (position : Position) :
    shown emit value position = child emit.shown value position :=
  (child_shown emit value position).symm

section Fits

variable (fits : emit.Fits)
include fits

theorem child_form {value : Value} {position : Position} {output : Output}
    (done : (child emit value position).outcome = .ok output) : output.form = value.form :=
  fits value position output (insideRule_outcome_ok_iff.mp done)

theorem text_eq (value : Value) (position : Position) :
    text emit value position =
      (child emit.shown value position).andThen fun shown =>
        (demand value.form.isText).andThen fun _ => .done shown := by
  rw [child_shown, andThen_assoc]
  refine andThen_congr fun output done => ?_
  rw [Output.ofShape_asText, child_form fits done, done_andThen]

theorem inline_eq (value : Value) (position : Position) :
    inline emit value position =
      (child emit.shown value position).andThen fun shown =>
        (demand value.form.isText).andThen fun _ => .done (withoutTerminator shown) := by
  unfold inline
  rw [text_eq fits]
  simp only [bind_eq, pure_eq, andThen_assoc, done_andThen]

end Fits

/-- Texts that are wanted of several outputs, whose forms are known. -/
theorem each_texts {α β : Type} (produce : α → Emission Fault Output) (isText : α → Bool)
    (items : List α)
    (forms : ∀ item ∈ items, ∀ output, (produce item).outcome = .ok output →
      output.form.isText = isText item)
    (next : List String → Emission Fault β) :
    ((each produce items).andThen fun outputs => (texts outputs).andThen next) =
      (each (fun item => (produce item).andThen fun output => .done output.shown) items).andThen
        fun shown => (demand (items.all isText)).andThen fun _ => next shown := by
  rw [each_andThen, andThen_assoc]
  refine andThen_congr fun outputs done => ?_
  rw [texts_eq, all_of_each forms done, done_andThen, andThen_assoc]
  simp only [done_andThen]

/-- Texts that are wanted of children at one position. -/
theorem children_texts {β : Type} (fits : emit.Fits) (position : Position) (items : List Value)
    (next : List String → Emission Fault β) :
    ((children emit position items).andThen fun outputs => (texts outputs).andThen next) =
      (each (fun item => child emit.shown item position) items).andThen fun shown =>
        (demand (items.all fun item => item.form.isText)).andThen fun _ => next shown := by
  have forms : ∀ item ∈ items, ∀ output, (child emit item position).outcome = .ok output →
      output.form.isText = item.form.isText :=
    fun _ _ _ done => congrArg Form.isText (child_form fits done)
  simp only [children, child_shown]
  exact each_texts _ _ items forms next

end Rule

theorem Value.itemsYieldText_eq {list : Value} {items : List Value} (listed : list.items = .ok items) :
    list.itemsYieldText = items.all fun item => item.form.isText := by
  cases list with
  | list known =>
      cases listed
      rfl
  | scalar scalar =>
      cases scalar with
      | text letters =>
          cases listed
          exact (List.all_eq_true.mpr fun item held => by
            obtain ⟨letter, -, rfl⟩ := List.mem_map.mp held
            rfl).symm
      | _ => cases listed
  | record members =>
      cases listed
      exact (List.all_eq_true.mpr fun item held => by
        obtain ⟨entry, -, rfl⟩ := List.mem_map.mp held
        rfl).symm
  | foreign origin => cases listed
  | node node => cases listed

theorem Node.itemsYieldText_eq {node : Node} {field : String} {items : List Value}
    (listed : node.optionalItems field = .ok items) :
    (node.field field).itemsYieldText = items.all fun item => item.form.isText := by
  unfold Node.optionalItems Node.flag at listed
  split at listed
  · exact Value.itemsYieldText_eq listed
  · next unset =>
      cases listed
      cases held : node.field field with
      | list known =>
          cases known with
          | nil => rfl
          | cons first rest => exact absurd (congrArg Value.isTruthy held) unset
      | _ => rfl

end PhpRendering
