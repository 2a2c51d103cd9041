import PhpRendering.Proofs.Accounts
import PhpRendering.Proofs.Completeness
import PhpRendering.Proofs.Isolation
import PhpRendering.Proofs.ValuedNames

/-!
# Identifiers that are spelled by value

An identifier may have its name in the field `value`. A program in which some identifiers are
spelled in this way has the same file and the same diagnostics, unless one of them names a
member that has a substitute. Its record is the same exactly when no name of a scope is
lost: a recorder reads names in the field `name` only.
-/

namespace PhpRendering

/-! ## Names of functions and parameters -/

inductive Node.Binds : Node → Node → Prop where
  | here {node : Node} (identifier : node.kind = "Identifier") : Binds node node
  | left {node left bound : Node} (pattern : node.kind = "AssignmentPattern")
      (held : node.field "left" = .node left) (binds : Binds left bound) : Binds node bound

/-- Whether the parameter of a function at a position binds the variable of a chosen
identifier. -/
def Node.BindsChosen (chosen : Origin → Bool) (function : Node) (position : Int) : Prop :=
  ∃ params index param bound, function.optionalItems "params" = .ok params ∧
    params[index]? = some (.node param) ∧ position = (index : Nat) ∧ param.Binds bound ∧
    chosen bound.origin = true

/-- Whether a function keeps the names that it brings to a record: its identifier is not
chosen, unless it was made with a copy and stands where the function stands, and those of
the parameters that are symbols of its scope are not chosen either. -/
structure Node.KeepsNames (chosen : Origin → Bool) (function : Node) : Prop where
  own : ∀ id, function.field "id" = .node id → chosen id.origin = true → id.origin = function.origin
  params : ∀ symbol ∈ firstSymbols function.parameterSymbols,
    ¬ function.BindsChosen chosen symbol.parameter

variable {chosen : Origin → Bool}

theorem Value.valued_bare (value : Value) (plain : ∀ items, value ≠ .list items) :
    (value.valued chosen).bare = value.bare := by
  cases value with
  | node node =>
      have same : (node.valued chosen).bare = node.bare := by
        cases node
        rfl
      exact congrArg Value.node same
  | list items => exact absurd rfl (plain items)
  | _ => rfl

/-- A value gives the same name to a symbol, whichever field the names in it stand in. -/
theorem Value.valued_symbolName? (value : Value) :
    (value.valued chosen).symbolName?.map (Option.map Value.bare) =
      value.symbolName?.map (Option.map Value.bare) := by
  unfold Value.symbolName?
  rw [valued_isTruthy]
  split
  · cases value with
    | list items => rfl
    | node node => exact congrArg (Except.ok ∘ some) ((Value.node node).valued_bare nofun)
    | _ => rfl
  · rfl

theorem exists_ok_of_bareName {first second : Except Crash (Option Value)}
    (same : first.map (Option.map Value.bare) = second.map (Option.map Value.bare))
    (fine : ∃ name, second = .ok name) : ∃ name, first = .ok name := by
  obtain ⟨name, rfl⟩ := fine
  cases first with
  | ok other => exact ⟨other, rfl⟩
  | error crash => cases same

namespace Node.IsValued

variable {node other bound : Node}

/-- The name that a chosen identifier gives to a variable is lost. -/
theorem boundName_of_binds (valued : node.IsValued chosen other) (binds : node.Binds bound)
    (picked : chosen bound.origin = true) :
    (∃ letters, node.boundName = .text letters ∧ letters ≠ "") ∧ other.boundName = .null := by
  induction binds generalizing other with
  | @here node identifier =>
      obtain ⟨-, ⟨letters, named, some⟩, noValue⟩ := valued.eligible.here picked
      rw [node.boundName_eq, other.boundName_eq, ← valued.kind_eq, if_pos identifier, if_pos identifier]
      refine ⟨⟨letters, named, some⟩, ?_⟩
      rw [valued.same, node.valued_field, picked]
      exact congrArg (Value.valued chosen) noValue
  | @left node left bound pattern held binds ih =>
      have other_kind := valued.kind_eq ▸ pattern
      have notIdentifier : "AssignmentPattern" ≠ "Identifier" := by decide
      have below := valued.field_alike_of_ne (by decide : "left" ≠ "name") (by decide)
      rw [node.boundName_eq, other.boundName_eq, pattern, other_kind, if_neg notIdentifier,
        if_pos rfl, if_neg notIdentifier, if_pos rfl]
      rw [held] at below ⊢
      generalize other.field "left" = leftToo at below
      cases below with
      | node inner => exact ih inner picked

/-- Other identifiers give the same name to a variable as before. -/
theorem boundName_of_kept (valued : node.IsValued chosen other)
    (kept : ∀ bound, node.Binds bound → chosen bound.origin = false) :
    other.boundName = node.boundName.valued chosen := by
  induction height : node.height using Nat.strongRecOn generalizing node other with
  | ind tall ih =>
      subst height
      rw [node.boundName_eq, other.boundName_eq, ← valued.kind_eq]
      split
      · next identifier =>
          rw [valued.same]
          exact Node.valued_field_of_kept (kept node (.here identifier)) "name"
      · split
        · next pattern =>
            have below := valued.field_alike_of_ne (by decide : "left" ≠ "name") (by decide)
            have lower := node.height_field_lt "left"
            cases held : node.field "left" with
            | node left =>
                rw [held] at below lower
                generalize other.field "left" = leftToo at below
                cases below with
                | node inner =>
                    exact ih _ lower inner (fun bound binds => kept bound (.left pattern held binds)) rfl
            | _ =>
                rw [held] at below
                generalize other.field "left" = leftToo at below
                cases below
                rfl
        · rfl

/-- A parameter that can be bound can be bound with its name in the other field. -/
theorem bindable (valued : node.IsValued chosen other)
    (fine : ∃ name, node.boundName.symbolName? = .ok name) :
    ∃ name, other.boundName.symbolName? = .ok name := by
  by_cases lost : ∃ bound, node.Binds bound ∧ chosen bound.origin = true
  · obtain ⟨bound, binds, picked⟩ := lost
    rw [(valued.boundName_of_binds binds picked).2]
    exact ⟨none, rfl⟩
  · rw [valued.boundName_of_kept fun bound binds =>
      Bool.eq_false_iff.mpr fun picked => lost ⟨bound, binds, picked⟩]
    exact exists_ok_of_bareName node.boundName.valued_symbolName? fine

end Node.IsValued

/-! ## Functions that are entered -/

theorem Occurrence.isSame_valued (first second : Value) (place other : Origin) :
    Occurrence.isSame ⟨first.valued chosen, place⟩ ⟨second.valued chosen, other⟩ =
      Occurrence.isSame ⟨first, place⟩ ⟨second, other⟩ := by
  cases first <;> cases second <;> simp [Occurrence.isSame, Value.valued]

namespace Node.Twin

variable {node other : Node} (twin : Node.Twin (Node.IsValued chosen) node other)

include twin

theorem origin_valued : other.origin = node.origin := by
  induction twin with
  | base valued => exact valued.origin_eq.symm
  | call _ ih => exact ih
  | declaration _ _ ih => exact ih
  | identifier _ _ ih => exact ih
  | assignment _ _ _ ih => exact ih

theorem body_valued : other.field "body" = (node.field "body").valued chosen := by
  induction twin with
  | base valued =>
      rw [valued.same]
      exact Node.valued_field_of_ne _ (by decide) (by decide)
  | call _ ih => exact ih
  | declaration _ _ ih =>
      rw [Rule.asDeclaration_field (by decide), Rule.asDeclaration_field (by decide)]
      exact ih
  | identifier _ _ => rfl
  | assignment _ _ _ => rfl

end Node.Twin

namespace Node.EntersValued

variable {function other : Node} (entered : function.EntersValued chosen other)

include entered

/-- Whether the body of one function holds that of another does not depend on how
identifiers are spelled. -/
theorem liesLike : function.LiesLike (Node.EntersValued chosen) other where
  related := entered
  holds scope scopeToo owners := by
    unfold Scope.holdsBodyOf Scope.holds
    generalize scope.function = owner at owners
    generalize scopeToo.function = ownerToo at owners
    cases owners with
    | none => rfl
    | some outer =>
        simp only [Node.occurrence, outer.twin.body_valued, outer.twin.origin_valued,
          entered.twin.body_valued, entered.twin.origin_valued, Value.valued_isNull,
          Occurrence.isSame_valued]
        refine congrArg (ite _ _) (congrArg (ite _ _) ?_)
        generalize Node.field _ "body" = root
        generalize Node.field _ "body" = sought
        cases root <;> cases sought <;> simp [Value.valued, Node.valued_contains]

/-- A function that is entered stands in the tree, or is a copy with a name of its own. -/
theorem shape : function.IsValued chosen other ∨
    ∃ node counterpart name, function = Rule.asDeclaration node name ∧
      other = Rule.asDeclaration counterpart name := by
  obtain ⟨twin, declared⟩ := entered
  cases twin with
  | base valued => exact .inl valued
  | declaration _ name => exact .inr ⟨_, _, name, rfl, rfl⟩
  | call _ => exact absurd declared (by decide : "CallExpression" ≠ "FunctionDeclaration")
  | identifier _ _ => exact absurd declared (by decide : "Identifier" ≠ "FunctionDeclaration")
  | assignment _ _ _ =>
      exact absurd declared (by decide : "AssignmentExpression" ≠ "FunctionDeclaration")

/-- The name of a function whose identifier is chosen is lost. -/
theorem functionName?_of_chosen {id : Node} (held : function.field "id" = .node id)
    (picked : chosen id.origin = true) (apart : id.origin ≠ function.origin) :
    (∃ name, function.functionName? = .ok (some name)) ∧ other.functionName? = .ok none := by
  rcases entered.shape with valued | ⟨node, counterpart, name, rfl, rfl⟩
  · have idToo : other.field "id" = .node (id.valued chosen) := by
      rw [valued.same, function.valued_field_of_ne (by decide) (by decide), held]
      rfl
    have below := valued.eligible.field "id"
    rw [held] at below
    obtain ⟨-, ⟨letters, named, some⟩, noValue⟩ := below.here picked
    have lost : (id.valued chosen).field "name" = .null := by
      rw [id.valued_field, picked]
      exact congrArg (Value.valued chosen) noValue
    refine ⟨⟨.text letters, ?_⟩, ?_⟩
    · unfold Node.functionName?
      simp [held, named, Value.symbolName?, Value.isTruthy, Scalar.isTruthy, some, Value.asName,
        Except.map]
    · unfold Node.functionName?
      rw [idToo]
      simp only [lost]
      rfl
  · rw [Rule.asDeclaration_id] at held
    cases held
    exact absurd rfl apart

/-- Any other function keeps its name. -/
theorem functionName?_of_kept
    (kept : ∀ id, function.field "id" = .node id → chosen id.origin = true →
      id.origin = function.origin) :
    other.functionName?.map (Option.map Value.bare) =
      function.functionName?.map (Option.map Value.bare) := by
  rcases entered.shape with valued | ⟨node, counterpart, name, rfl, rfl⟩
  · have unpicked := valued.kept_of_kind (entered.declared ▸ (by decide))
    rw [valued.same]
    unfold Node.functionName?
    rw [Node.valued_field_of_kept unpicked]
    cases held : function.field "id" with
    | node id =>
        have keptId : chosen id.origin = false := by
          refine Bool.eq_false_iff.mpr fun picked => ?_
          rw [kept id held picked, unpicked] at picked
          cases picked
        simp only [Value.valued, Node.valued_field_of_kept keptId]
        exact Value.valued_symbolName? _
    | _ => rfl
  · unfold Node.functionName?
    rw [Rule.asDeclaration_id, Rule.asDeclaration_id]
    rfl

theorem params_alike : (function.field "params").Alike (Node.IsValued chosen) (other.field "params") :=
  entered.twin.field (by decide) fun valued => valued.field_alike_of_ne (by decide) (by decide)

end Node.EntersValued

/-! ## Names of parameters -/

section Parameters

variable {node other : Node}

/-- What a parameter brings that binds the variable of a chosen identifier is lost. -/
theorem Value.boundSymbol?_of_chosen (valued : node.IsValued chosen other) {bound : Node}
    (binds : node.Binds bound) (picked : chosen bound.origin = true) :
    (∃ name, (Value.node node).boundSymbol? = .ok (some name)) ∧
      (Value.node other).boundSymbol? = .ok none := by
  obtain ⟨⟨letters, named, some⟩, lost⟩ := valued.boundName_of_binds binds picked
  refine ⟨⟨.text letters, ?_⟩, ?_⟩
  · simp [Value.boundSymbol?, Value.asNode, Except.bind, named, Value.symbolName?, Value.isTruthy,
      Scalar.isTruthy, some, Value.asName, Except.map]
  · simp only [Value.boundSymbol?, Value.asNode, Except.bind, lost]
    rfl

/-- Any other parameter brings the same as before. -/
theorem Value.boundSymbol?_of_kept {param paramToo : Value}
    (alike : param.Alike (Node.IsValued chosen) paramToo)
    (kept : ∀ node bound, param = .node node → node.Binds bound → chosen bound.origin = false) :
    paramToo.boundSymbol?.map (Option.map Value.bare) =
      param.boundSymbol?.map (Option.map Value.bare) := by
  cases alike with
  | @node node other valued =>
      simp only [Value.boundSymbol?, Value.asNode, Except.bind]
      rw [valued.boundName_of_kept fun bound binds => kept node bound rfl binds]
      exact Value.valued_symbolName? _
  | _ => rfl

theorem parameterSymbols_cons (index : Nat) (param : Value) (rest : List Value) :
    parameterSymbols index (param :: rest) =
      (match param.boundSymbol? with
        | .ok (some name) => [{ name := name, parameter := index }]
        | _ => []) ++ parameterSymbols (index + 1) rest := by
  unfold parameterSymbols
  rw [List.zipIdx_cons, List.filterMap_cons]
  cases brought : param.boundSymbol? with
  | error crash => rfl
  | ok name => cases name <;> rfl

/-- The symbols of parameters without those that chosen identifiers bring. -/
theorem parameterSymbols_valued {params others : List Value} (keep : Symbol → Bool)
    (all : List.Forall₂ (Value.Alike (Node.IsValued chosen)) params others) (index : Nat)
    (kept : ∀ (place : Nat) param, params[place]? = some param → ∀ symbol : Symbol,
      symbol.parameter = (index + place : Nat) → (keep symbol = true ↔
        ∀ node bound, param = .node node → node.Binds bound → chosen bound.origin = false)) :
    (parameterSymbols index others).map Symbol.bare =
      ((parameterSymbols index params).map Symbol.bare).filter keep := by
  induction all generalizing index with
  | nil => rfl
  | @cons param paramToo rest later alike _ ih =>
      have further := ih (index + 1) fun place param found symbol position =>
        kept (place + 1) param found symbol (by rw [position]; congr 1; omega)
      rw [parameterSymbols_cons, parameterSymbols_cons, List.map_append, List.map_append,
        List.filter_append, further]
      congr 1
      have here (name : Value) := kept 0 param rfl { name := name.bare, parameter := index } rfl
      by_cases lost : ∃ node bound, param = .node node ∧ node.Binds bound ∧ chosen bound.origin = true
      · obtain ⟨node, bound, rfl, binds, picked⟩ := lost
        cases alike with
        | node valued =>
            obtain ⟨⟨name, brought⟩, nothing⟩ := Value.boundSymbol?_of_chosen valued binds picked
            have dropped : keep { name := name.bare, parameter := index } = false :=
              Bool.eq_false_iff.mpr fun keeps =>
                Bool.eq_false_iff.mp ((here name).mp keeps node bound rfl binds) picked
            rw [brought, nothing]
            simp [Symbol.bare, dropped]
      · have unpicked (node bound : Node) (same : param = .node node) (binds : node.Binds bound) :
            chosen bound.origin = false :=
          Bool.eq_false_iff.mpr fun picked => lost ⟨node, bound, same, binds, picked⟩
        rcases bareName_cases (Value.boundSymbol?_of_kept alike unpicked) with
          ⟨crash, one, two⟩ | ⟨one, two⟩ | ⟨nameToo, name, one, two, bare⟩
        · rw [one, two]
          rfl
        · rw [one, two]
          rfl
        · rw [one, two]
          simp [Symbol.bare, bare, (here name).mpr unpicked]

end Parameters

/-! ## Names that are kept -/

namespace Node.EntersValued

variable {function other : Node} (entered : function.EntersValued chosen other)

include entered

/-- The parameters of a function bring the same first symbols exactly when none of these comes
from a chosen identifier. -/
theorem parameterSymbols_iff :
    (firstSymbols other.parameterSymbols).map Symbol.bare =
        (firstSymbols function.parameterSymbols).map Symbol.bare ↔
      ∀ symbol ∈ firstSymbols function.parameterSymbols,
        ¬ function.BindsChosen chosen symbol.parameter := by
  classical
  have listed := Node.optionalItems_alike entered.params_alike
  unfold Node.parameterSymbols
  cases result : function.optionalItems "params" with
  | error crash =>
      rw [result] at listed
      generalize other.optionalItems "params" = resultToo at listed
      cases listed
      exact ⟨fun _ _ first => (List.not_mem_nil first).elim, fun _ => rfl⟩
  | ok params =>
      rw [result] at listed
      generalize other.optionalItems "params" = resultToo at listed
      cases listed with
      | @ok _ others all =>
          have kept := parameterSymbols_valued
            (fun symbol => decide (¬ function.BindsChosen chosen symbol.parameter)) all 0
            fun place param found symbol position => ?_
          · dsimp only
            rw [← firstSymbols_map_bare, ← firstSymbols_map_bare, kept, firstSymbols_filter_eq_iff,
              firstSymbols_map_bare, List.forall_mem_map]
            exact forall₂_congr fun symbol _ => decide_eq_true_iff
          · rw [decide_eq_true_eq, position, Nat.zero_add]
            constructor
            · rintro unbound node bound rfl binds
              exact Bool.eq_false_iff.mpr fun picked =>
                unbound ⟨params, place, node, bound, result, found, rfl, binds, picked⟩
            · rintro unpicked ⟨known, index, node, bound, listed, there, same, binds, picked⟩
              cases result.symm.trans listed
              cases Int.ofNat.inj same
              cases found.symm.trans there
              exact Bool.eq_false_iff.mp (unpicked node bound rfl binds) picked

/-- A function has the same name exactly when its identifier is not chosen. -/
theorem ownName?_iff :
    other.ownName?.map Value.bare = function.ownName?.map Value.bare ↔
      ∀ id, function.field "id" = .node id → chosen id.origin = true → id.origin = function.origin := by
  constructor
  · intro same id held picked
    by_contra apart
    obtain ⟨⟨name, named⟩, nothing⟩ := entered.functionName?_of_chosen held picked apart
    unfold Node.ownName? at same
    rw [named, nothing] at same
    cases same
  · intro kept
    have same := entered.functionName?_of_kept kept
    unfold Node.ownName?
    rcases bareName_cases same with
      ⟨crash, one, two⟩ | ⟨one, two⟩ | ⟨nameToo, name, one, two, bare⟩
    · rw [one, two]
    · rw [one, two]
    · rw [one, two]
      exact congrArg some bare

/-- A function brings the same names when the chosen ones are in the field `value` exactly when
it keeps its names. -/
theorem broughtNames_iff :
    other.broughtNames = function.broughtNames ↔ function.KeepsNames chosen := by
  unfold Node.broughtNames
  rw [Prod.mk.injEq, entered.ownName?_iff, entered.parameterSymbols_iff]
  exact ⟨fun ⟨own, params⟩ => ⟨own, params⟩, fun ⟨own, params⟩ => ⟨own, params⟩⟩

/-- A function that can be entered can be entered with the chosen names in the other field. -/
theorem isEnterable (enterable : function.IsEnterable) : other.IsEnterable where
  body := by
    unfold Node.HasPlainBody
    rw [entered.twin.body_valued]
    rcases enterable.body with nothing | ⟨body, held⟩
    · exact .inl (by rw [nothing]; rfl)
    · exact .inr ⟨body.valued chosen, by rw [held]; rfl⟩
  name := by
    by_cases lost : ∃ id, function.field "id" = .node id ∧ chosen id.origin = true ∧
        id.origin ≠ function.origin
    · obtain ⟨id, held, picked, apart⟩ := lost
      exact ⟨none, (entered.functionName?_of_chosen held picked apart).2⟩
    · have kept := entered.functionName?_of_kept fun id held picked =>
        not_not.mp fun apart => lost ⟨id, held, picked, apart⟩
      exact exists_ok_of_bareName kept enterable.name
  params := by
    obtain ⟨params, listed, each⟩ := enterable.params
    have alike := Node.optionalItems_alike entered.params_alike
    rw [listed] at alike
    generalize other.optionalItems "params" = resultToo at alike
    cases alike with
    | @ok _ others all =>
        refine ⟨others, rfl, ?_⟩
        clear listed
        induction all with
        | nil => exact List.forall_mem_nil _
        | cons alike _ ih =>
            obtain ⟨⟨node, rfl, bindable⟩, later⟩ := List.forall_mem_cons.mp each
            cases alike with
            | node valued =>
                exact List.forall_mem_cons.mpr ⟨⟨_, rfl, valued.bindable bindable⟩, ih later⟩

end Node.EntersValued

/-! ## Sessions -/

/-- The events of a tree with the chosen names in the other field are as safe as those of the
tree. -/
theorem safe_of_like {events others : List Event}
    (all : List.Forall₂ (Event.Like (Node.EntersValued chosen)) events others)
    (safe : ∀ event ∈ events, event.IsSafe) : ∀ event ∈ others, event.IsSafe := by
  induction all with
  | nil => exact List.forall_mem_nil _
  | cons head _ ih =>
      obtain ⟨first, later⟩ := List.forall_mem_cons.mp safe
      refine List.forall_mem_cons.mpr ⟨?_, ih later⟩
      cases head with
      | reported diagnostic => trivial
      | entered entered => exact entered.isEnterable first

/-- Functions bring the same names one by one exactly when all of them keep theirs. -/
theorem broughtNames_iff_of_entered {functions others : List Node}
    (all : List.Forall₂ (Node.EntersValued chosen) functions others) :
    others.map Node.broughtNames = functions.map Node.broughtNames ↔
      ∀ function ∈ functions, function.KeepsNames chosen := by
  induction all with
  | nil => exact ⟨fun _ => List.forall_mem_nil _, fun _ => rfl⟩
  | cons entered _ ih =>
      rw [List.map_cons, List.map_cons, List.cons.injEq, entered.broughtNames_iff, ih,
        List.forall_mem_cons]

/-- A readable program, in which nothing is found in the table of substitutes under a chosen
name, has the same file and the same diagnostics when the chosen names are in the field
`value`. The record tells the same exactly when every function that is entered keeps its
names. -/
theorem Session.valued_alike (options : Options) (log : List Diagnostic) {root : Node}
    (program : root.kind = "Program") (readable : root.Readable)
    (eligible : (Value.node root).Throughout (Node.IsEligible chosen))
    (unasked : ¬ (Value.node root).Finds (Node.FindsChosen options chosen) false)
    (found : String) :
    let session : Session := ⟨options, log, .scoping .initial⟩
    ∃ file, (session.generate (.node root) found).2 = .ok file ∧
      (session.generate (.node (root.valued chosen)) found).2 = .ok file ∧
      (session.generate (.node (root.valued chosen)) found).1.log =
        (session.generate (.node root) found).1.log ∧
      ((session.generate (.node (root.valued chosen)) found).1.recorder.account =
          (session.generate (.node root) found).1.recorder.account ↔
        ∀ function ∈ (PhpRendering.render options (.node root) {}).functions,
          function.KeepsNames chosen) := by
  intro session
  have self : root.IsValued chosen (root.valued chosen) := ⟨rfl, eligible⟩
  have programToo : (root.valued chosen).kind = "Program" := self.kind_eq ▸ program
  have usable : Position.IsUsable {} := ⟨rfl, ImportSource.noConfusion⟩
  have safe := render_isSafe options readable usable
  obtain ⟨text, rendered⟩ := safe.outcome
  have alike : (PhpRendering.render options (.node root) {}).Like (Node.EntersValued chosen)
      (PhpRendering.render options (.node (root.valued chosen)) {}) := self.render_like unasked
  have renderedToo := alike.outcome.symm.trans rendered
  have functions := functions_of_like alike.events
  obtain ⟨file, logged, recorder, entered⟩ :=
    Session.generate_of_safe program safe.events rendered log found
  obtain ⟨fileToo, loggedToo, recorderToo, enteredToo⟩ :=
    Session.generate_of_safe programToo (safe_of_like alike.events safe.events) renderedToo log found
  refine ⟨_, file, fileToo, ?_, ?_⟩
  · rw [logged, loggedToo, diagnostics_of_like alike.events]
  · have nested := (ScopeRecord.NestsLike.initial (Node.EntersValued chosen)).enterAll
      (functions.imp fun _ _ entered => entered.liesLike) entered enteredToo
    have tabled := ScopeRecord.initial_isTabled.enterAll entered
    have tabledToo := ScopeRecord.initial_isTabled.enterAll enteredToo
    rw [recorder, recorderToo, eq_comm, Recorder.account_eq_iff tabled tabledToo nested, eq_comm]
    exact broughtNames_iff_of_entered functions

def firstFunctionName (place : Origin) : Bool :=
  place == ⟨0, [.member "id", .item 0, .member "body"]⟩

/-- A function whose identifier is spelled by value has the same file and the same symbols as
before, but no name: it is no symbol of the program. -/
theorem shadowingProgram_valued :
    let valued := shadowingProgram.valued firstFunctionName
    (∃ file, (Session.generate {} (.node shadowingProgram) "Node").2 = .ok file ∧
      (Session.generate {} (.node valued) "Node").2 = .ok file) ∧
    (∃ record, (Session.generate {} (.node valued) "Node").1.recorder = .scoping record ∧
      (record.scope 1).name = .text "" ∧
      (record.scope 0).symbols = [{ name := .text "h", isGlobal := true, isFunction := true }]) ∧
    (Session.generate {} (.node valued) "Node").1.recorder.account ≠
      (Session.generate {} (.node shadowingProgram) "Node").1.recorder.account := by
  intro valued
  have readable : shadowingProgram.Readable := Node.readable_of_check 8 (by decide)
  have eligible : (Value.node shadowingProgram).Throughout (Node.IsEligible firstFunctionName) :=
    Value.throughout_of_check Node.isEligible_of_check _ (by decide)
  have plain : (Value.node shadowingProgram).checkPlaces
      (fun node _ => node.kind ∉ ["CallExpression", "NewExpression", "MemberExpression"])
      false = true := by decide
  have unasked : ¬ (Value.node shadowingProgram).Finds
      (Node.FindsChosen {} firstFunctionName) false := by
    intro finds
    obtain ⟨node, isCallee, found, fine⟩ := finds.checked plain
    cases found with
    | method kind _ _ _ => rcases kind with kind | kind <;> exact absurd (kind ▸ fine) (by decide)
    | property _ named _ => exact absurd (named.accesses.kind ▸ fine) (by decide)
  obtain ⟨file, before, after, -, account⟩ :=
    Session.valued_alike {} [] rfl readable eligible unasked "Node"
  refine ⟨⟨file, before, after⟩, ⟨_, rfl, rfl, rfl⟩, fun same => ?_⟩
  have kept := account.mp same _ (List.mem_cons_self ..)
  exact absurd (kept.own _ rfl rfl) (by decide)

end PhpRendering
