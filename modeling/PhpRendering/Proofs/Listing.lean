import PhpRendering.Command.Report
import PhpRendering.Proofs.ScopeNesting
import PhpRendering.Proofs.Tracking

/-!
# The listing of scopes

The line about a function scope joins the names of its parameters and breaks off at one
that is no text. When all names of a tree are texts it never does, however the rendering
ends: a record takes its parameters from entered functions only, and these are nodes of
the tree or copies of them.
-/

namespace PhpRendering

/-! ## Entered functions -/

/-- A property that copies keep holds throughout every function that is entered. -/
theorem Value.Throughout.entered {P : Node → Prop} (kept : KeptByCopies P) (options : Options)
    {node : Node} {position : Position} (whole : (Value.node node).Throughout P) :
    ∀ function ∈ (render options (.node node) position).functions,
      (Value.node function).Throughout P := by
  intro function entered
  refine (entered_of_visits (fun node => (Value.node node).Throughout P) ?_ whole position
    function entered).1
  exact fun _ _ _ _ _ whole visits => whole.visit kept visits

/-! ## Records whose parameters can be listed -/

def Symbol.IsListable (symbol : Symbol) : Prop :=
  symbol.isParameter = true → ∃ text, symbol.name = .text text

/-- Whether the names that the parameters of a function bind are texts. -/
def Node.HasListableParams (function : Node) : Prop :=
  ∀ params, function.optionalItems "params" = .ok params →
    ∀ node, .node node ∈ params → Shape.text.Admits node.boundName

theorem Node.hasListableParams {function : Node}
    (named : (Value.node function).Throughout Node.IsNamed) : function.HasListableParams := by
  intro params listed node held
  have throughout : (Value.node node).Throughout Node.IsNamed := by
    rcases Node.optionalItems_eq_ok listed with rfl | given
    · cases held
    · exact (named.field "params").items given _ held
  exact throughout.boundName node rfl

/-- A symbol takes its name from a value as it is. -/
theorem Shape.Admits.eq_text {value name : Value} (plain : Shape.text.Admits value)
    (given : value.symbolName? = .ok (some name)) : ∃ text, name = .text text := by
  rcases plain with rfl | ⟨letters, rfl⟩
  · cases given
  · unfold Value.symbolName? at given
    split at given
    · cases given
      exact ⟨letters, rfl⟩
    · cases given

namespace ScopeRecord

def IsListable (record : ScopeRecord) : Prop :=
  ∀ scope ∈ record.scopes, ∀ symbol ∈ scope.symbols, symbol.IsListable

theorem initial_isListable : initial.IsListable := by
  refine List.forall_mem_singleton.mpr ?_
  exact List.forall_mem_nil _

namespace IsListable

variable {record : ScopeRecord} (listable : record.IsListable)

include listable

theorem push (name : Value) (function : Option Node) : (record.push name function).IsListable := by
  refine List.forall_mem_append.mpr ⟨listable, List.forall_mem_singleton.mpr ?_⟩
  exact List.forall_mem_nil _

theorem addSymbol (id : ScopeId) {symbol : Symbol} (fine : symbol.IsListable) :
    (record.addSymbol id symbol).IsListable := by
  intro scope held
  obtain ⟨place, here⟩ := List.getElem?_of_mem held
  simp only [ScopeRecord.addSymbol, List.getElem?_modify] at here
  obtain ⟨old, there, rfl⟩ := Option.map_eq_some_iff.mp here
  have before := listable old (List.mem_of_getElem? there)
  split
  · exact List.forall_mem_append.mpr ⟨before, List.forall_mem_singleton.mpr fine⟩
  · exact before

theorem defineHere {symbol : Symbol} (fine : symbol.IsListable) :
    (record.defineHere symbol).IsListable := by
  unfold ScopeRecord.defineHere
  split
  · exact listable
  · exact listable.addSymbol _ fine

theorem leave (function : Node) : (record.leave function record.outer).1.IsListable := by
  obtain ⟨closed, closes, -⟩ := record.leave_closes function
  unfold IsListable
  rw [closes.scopes]
  exact listable

/-- The name of a function is no parameter. -/
theorem nameFunction (name : Option Value) : (record.nameFunction name).IsListable := by
  cases name with
  | none => exact listable
  | some name => exact listable.defineHere nofun

theorem bindParameters (index : Nat) {params : List Value}
    (fine : ∀ node, .node node ∈ params → Shape.text.Admits node.boundName) :
    (record.bindParameters index params).1.IsListable := by
  refine ScopeRecord.bindParameters_keeps (fun before index name brought kept => ?_) listable index
  obtain ⟨param, inside, bound⟩ := brought
  obtain ⟨node, rfl, named⟩ := Value.boundSymbol?_eq_ok bound
  obtain ⟨text, rfl⟩ := (fine node inside).eq_text named
  exact kept.defineHere fun _ => ⟨text, rfl⟩

theorem openFunction {function : Node} (fine : function.HasListableParams) (name : Option Value) :
    (record.openFunction function name).1.IsListable := by
  have opened := listable.push (name.getD (.text "")) (some function)
  unfold ScopeRecord.openFunction
  cases listed : function.optionalItems "params" with
  | error crash => exact opened
  | ok params =>
      have bound := opened.bindParameters 0 (fine params listed)
      dsimp only
      split
      · next after crash read =>
          rw [read] at bound
          exact bound
      · next after read =>
          rw [read] at bound
          exact bound

/-- An entry keeps a record listable, whether it succeeds or not. -/
theorem enter {function : Node} (fine : function.HasListableParams) :
    (record.enter function).1.IsListable := by
  have closed := listable.leave function
  unfold ScopeRecord.enter
  split
  · next left crash refused =>
      rw [refused] at closed
      exact closed
  · next left done =>
      rw [done] at closed
      cases function.functionName? with
      | error crash => exact closed
      | ok name => exact (closed.nameFunction name).openFunction fine name

theorem enterAll {functions : List Node} (fine : ∀ function ∈ functions, function.HasListableParams) :
    (record.enterAll functions).1.IsListable := by
  induction functions generalizing record with
  | nil => exact listable
  | cons function rest ih =>
      obtain ⟨first, later⟩ := List.forall_mem_cons.mp fine
      have next := listable.enter first
      cases outcome : (record.enter function).2 with
      | error crash =>
          rw [enterAll_cons_of_error outcome]
          exact next
      | ok done =>
          rw [enterAll_cons outcome]
          exact ih next later

end IsListable

end ScopeRecord

/-! ## Lines -/

namespace Command

/-- Steps that all succeed have a list of results. -/
theorem exists_results {α β ε : Type} {step : α → Except ε β} {items : List α}
    (fine : ∀ item ∈ items, ∃ result, step item = .ok result) :
    ∃ results : List β, items.map step = results.map .ok := by
  induction items with
  | nil => exact ⟨[], rfl⟩
  | cons item rest ih =>
      obtain ⟨⟨result, first⟩, later⟩ := List.forall_mem_cons.mp fine
      obtain ⟨results, same⟩ := ih later
      refine ⟨result :: results, ?_⟩
      rw [List.map_cons, first, same, List.map_cons]

theorem mapM_eq_ok {α β ε : Type} {step : α → Except ε β} {items : List α} {results : List β}
    (fine : items.map step = results.map .ok) : items.mapM step = .ok results := by
  induction items generalizing results with
  | nil =>
      cases List.map_eq_nil_iff.mp fine.symm
      rfl
  | cons item rest ih =>
      obtain ⟨result, later, rfl, first, same⟩ := List.map_eq_cons_iff.mp fine.symm
      rw [List.mapM_cons, ← first, ih same.symm]
      rfl

variable {record : ScopeRecord} (listable : record.IsListable)

include listable

theorem parameterNames_ok (id : ScopeId) :
    ∃ names, parameterNames (record.scope id) = .ok names := by
  have symbols : ∀ symbol ∈ (record.scope id).symbols, symbol.IsListable := by
    unfold ScopeRecord.scope
    rw [List.getD_eq_getElem?_getD]
    cases place : record.scopes[id]? with
    | none => exact List.forall_mem_nil _
    | some scope => exact listable scope (List.mem_of_getElem? place)
  have named : ∀ symbol ∈ (record.scope id).symbols.filter Symbol.isParameter,
      ∃ name, parameterName symbol = .ok name := by
    intro symbol held
    obtain ⟨among, parameter⟩ := List.mem_filter.mp held
    obtain ⟨text, given⟩ := symbols symbol among parameter
    refine ⟨text, ?_⟩
    unfold parameterName
    rw [given]
    rfl
  obtain ⟨names, same⟩ := exists_results named
  exact ⟨names, mapM_eq_ok same⟩

theorem scopeLine_ok (id : ScopeId) : ∃ line, scopeLine record id = .ok line := by
  obtain ⟨names, listed⟩ := parameterNames_ok listable id
  unfold scopeLine
  dsimp only
  rw [listed]
  exact ⟨_, rfl⟩

/-- Every line of the listing can be made. -/
theorem scopeLines_ok : ∃ listing : List String,
    scopeLines (.scoping record) = listing.map .ok := by
  obtain ⟨lines, same⟩ :=
    exists_results fun id (_ : id ∈ record.functions) => scopeLine_ok listable id
  exact ⟨"=== Function Scopes ===" :: lines, congrArg (_ :: ·) same⟩

end Command

/-! ## Sessions -/

namespace Session

/-- A tree whose names are texts keeps the record of a session listable, whatever becomes
of its rendering. -/
theorem generate_isListable {session : Session} {record : ScopeRecord}
    (scoping : session.recorder = .scoping record) (listable : record.IsListable) {tree : Value}
    (named : tree.Throughout Node.IsNamed) (found : String) :
    ∃ next, (session.generate tree found).1.recorder = .scoping next ∧ next.IsListable := by
  rcases session.generate_cases tree found with ⟨same, -⟩ | ⟨root, rfl, same, -⟩
  · rw [same]
    exact ⟨record, scoping, listable⟩
  · rw [same]
    unfold Session.render
    rw [run_fst, (observeAll_scoping scoping _).1]
    refine ⟨_, rfl, listable.enterAll fun function entered => ?_⟩
    exact Node.hasListableParams
      (named.entered Node.isNamed_keptByCopies session.options function entered)

end Session

end PhpRendering
