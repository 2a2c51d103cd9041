import Mathlib.Data.List.Chain
import Mathlib.Data.List.Pairwise
import Mathlib.Logic.Relation
import PhpRendering.Proofs.ScopeNesting

/-!
# Moves of a record

All that an entry does, also one that fails half way, is made of four moves: a scope is
opened or closed, a name that is not there yet is defined, or the current scope is counted
as that of an entered function. What the moves keep therefore holds after every entry: the
open scopes end with that of the program and each lies directly inside the next one, and a
scope has a name at most once.
-/

namespace PhpRendering

/-! ## Names -/

/-- A symbol takes the very name that a value gives. -/
theorem Value.symbolName?_eq_some {value name : Value}
    (given : value.symbolName? = .ok (some name)) :
    value = name ∧ value.isTruthy = true ∧ name.asName = .ok name := by
  unfold Value.symbolName? at given
  split at given
  · next truthy =>
      cases value <;> cases given <;> exact ⟨rfl, truthy, rfl⟩
  · cases given

theorem Value.isSameName_comm (first second : Value) :
    first.isSameName second = second.isSameName first := by
  cases first <;> cases second <;> simp [Value.isSameName, Scalar.isEqual, BEq.comm]

theorem Value.isSameName_trans {first second third : Value}
    (same : first.isSameName second = true) (other : second.isSameName third = true) :
    first.isSameName third = true := by
  cases first <;> cases second <;> cases third <;>
    simp_all [Value.isSameName, Scalar.isEqual]

theorem Value.asName_eq_ok {value name : Value} (named : value.asName = .ok name) :
    value = name := by
  cases value <;> cases named <;> rfl

/-- A name is the same as itself. -/
theorem Value.isSameName_self {name : Value} (proper : name.asName = .ok name) :
    name.isSameName name = true := by
  cases name with
  | list items => cases proper
  | record fields => cases proper
  | _ => simp [Value.isSameName, Scalar.isEqual]

/-- The function of a name that names it. -/
theorem Node.functionName?_eq_some {function : Node} {name : Value}
    (named : function.functionName? = .ok (some name)) :
    ∃ id, function.field "id" = .node id ∧ id.field "name" = name ∧ name.isTruthy = true ∧
      name.asName = .ok name := by
  unfold Node.functionName? at named
  split at named
  · next id held =>
      obtain ⟨rfl, truthy, proper⟩ := Value.symbolName?_eq_some named
      exact ⟨id, held, rfl, truthy, proper⟩
  · cases named

def Symbol.IsApart (first second : Symbol) : Prop :=
  first.name.isSameName second.name = false

instance : Std.Symm Symbol.IsApart where
  symm first second apart := (Value.isSameName_comm second.name first.name).trans apart

namespace ScopeRecord

/-! ## Moves -/

/-- What can happen to a record at once: a scope is opened or closed, a name is defined,
or the current scope is counted as that of an entered function. -/
inductive Move (record : ScopeRecord) : ScopeRecord → Prop where
  | opened (name : Value) (function : Option Node) : Move record (record.push name function)
  | closed {next : ScopeRecord} (fine : record.pop = .ok next) : Move record next
  | defined {id : ScopeId} {symbol : Symbol} {next : ScopeRecord}
      (proper : symbol.name.asName = .ok symbol.name) (fine : record.define id symbol = .ok next) :
      Move record next
  | entered : Move record { record with functions := record.functions ++ [record.current] }

abbrev Moves : ScopeRecord → ScopeRecord → Prop :=
  Relation.ReflTransGen Move

/-- What is defined unless it is there already is defined without a refusal. -/
theorem define_of_absent {record : ScopeRecord} {symbol : Symbol}
    (absent : record.currentScope.has symbol.name = false) :
    record.define record.current symbol = .ok (record.defineHere symbol) := by
  unfold define defineHere
  unfold currentScope at absent ⊢
  rw [absent]
  rfl

theorem defineHere_moves (record : ScopeRecord) {symbol : Symbol}
    (proper : symbol.name.asName = .ok symbol.name) : Moves record (record.defineHere symbol) := by
  cases present : record.currentScope.has symbol.name with
  | true =>
      unfold defineHere
      rw [present]
      exact .refl
  | false => exact .single (.defined proper (define_of_absent present))

theorem nameFunction_moves (record : ScopeRecord) {function : Node} {name : Option Value}
    (named : function.functionName? = .ok name) : Moves record (record.nameFunction name) := by
  cases name with
  | none => exact .refl
  | some name =>
      obtain ⟨-, -, -, -, proper⟩ := Node.functionName?_eq_some named
      exact record.defineHere_moves proper

theorem bindParameters_moves (record : ScopeRecord) (index : Nat) (params : List Value) :
    Moves record (record.bindParameters index params).1 := by
  refine bindParameters_keeps (fun before index name brought moved => ?_) .refl index
  obtain ⟨param, -, bound⟩ := brought
  obtain ⟨node, -, named⟩ := Value.boundSymbol?_eq_ok bound
  obtain ⟨-, -, proper⟩ := Value.symbolName?_eq_some named
  exact moved.trans (before.defineHere_moves proper)

theorem openFunction_moves (record : ScopeRecord) (function : Node) (name : Option Value) :
    Moves record (record.openFunction function name).1 := by
  have opened : Moves record (record.push (name.getD (.text "")) (some function)) :=
    .single (.opened _ _)
  unfold openFunction
  cases function.optionalItems "params" with
  | error crash => exact opened
  | ok params =>
      have bound := bindParameters_moves (record.push (name.getD (.text "")) (some function)) 0
        params
      have same := bindParameters_sameNesting (record.push (name.getD (.text "")) (some function)) 0
        params
      dsimp only
      split
      · next after crash read =>
          rw [read] at bound
          exact opened.trans bound
      · next after read =>
          rw [read] at bound same
          rw [← same.current]
          exact (opened.trans bound).tail .entered

theorem leave_moves (record : ScopeRecord) (function : Node) :
    Moves record (record.leave function record.outer).1 := by
  obtain ⟨scopes, current, outer, functions⟩ := record
  induction outer generalizing current with
  | nil => exact .refl
  | cons next outer ih =>
      simp only [leave]
      split
      · exact .refl
      · exact .refl
      · exact .head (.closed rfl) (ih next)

/-- An entry consists of moves, whether it succeeds or not. -/
theorem enter_moves (record : ScopeRecord) (function : Node) :
    Moves record (record.enter function).1 := by
  have left := record.leave_moves function
  unfold enter
  split
  · next after crash refused =>
      rw [refused] at left
      exact left
  · next after fine =>
      rw [fine] at left
      cases named : function.functionName? with
      | error crash => exact left
      | ok name =>
          exact (left.trans (after.nameFunction_moves named)).trans
            (openFunction_moves _ function name)

theorem enterAll_moves (record : ScopeRecord) (functions : List Node) :
    Moves record (record.enterAll functions).1 := by
  induction functions generalizing record with
  | nil => exact .refl
  | cons function rest ih =>
      have first := record.enter_moves function
      cases outcome : (record.enter function).2 with
      | error crash => rwa [enterAll_cons_of_error outcome]
      | ok done =>
          rw [enterAll_cons outcome]
          exact first.trans (ih _)

/-! ## Entered functions -/

/-- The scopes that are counted as those of entered functions when one was opened: that
one, unless the entry failed. -/
def counted (id : ScopeId) : Except Crash Unit → List ScopeId
  | .ok () => [id]
  | .error _ => []

theorem openFunction_functions (record : ScopeRecord) (function : Node) (name : Option Value) :
    (record.openFunction function name).1.functions =
      record.functions ++ counted record.scopes.length (record.openFunction function name).2 := by
  unfold openFunction
  cases function.optionalItems "params" with
  | error crash => exact (List.append_nil _).symm
  | ok params =>
      have bound := bindParameters_sameNesting
        (record.push (name.getD (.text "")) (some function)) 0 params
      dsimp only
      generalize (record.push (name.getD (.text "")) (some function)).bindParameters 0 params =
        binding at bound
      obtain ⟨after, outcome⟩ := binding
      cases outcome with
      | error crash => exact bound.functions.trans (List.append_nil _).symm
      | ok done => exact congrArg (· ++ [record.scopes.length]) bound.functions

/-- An entry that succeeds counts one function more, with the new scope, and one that
fails counts none. -/
theorem enter_functions (record : ScopeRecord) (function : Node) :
    (record.enter function).1.functions =
      record.functions ++ counted record.scopes.length (record.enter function).2 := by
  obtain ⟨closed, closes, -⟩ := record.leave_closes function
  unfold enter
  split
  · next left crash refused =>
      rw [refused] at closes
      exact closes.functions.trans (List.append_nil _).symm
  · next left fine =>
      rw [fine] at closes
      cases function.functionName? with
      | error crash => exact closes.functions.trans (List.append_nil _).symm
      | ok name =>
          have same := nameFunction_sameNesting left name
          have opened := openFunction_functions (left.nameFunction name) function name
          rw [same.length, same.functions, closes.functions, closes.scopes] at opened
          exact opened

/-! ## Stacks -/

/-- Whether a scope lies directly inside another one. -/
def LiesIn (record : ScopeRecord) (inner outer : ScopeId) : Prop :=
  ∃ owner, record.frames[inner]? = some (some outer, owner)

/-- A record whose scopes are older than those inside them, and whose open scopes, each
directly inside the next one, end with that of the program. -/
structure IsStacked (record : ScopeRecord) : Prop where
  program : ∃ owner, record.frames[programId]? = some (none, owner)
  older : ∀ (id : ScopeId) frame, record.frames[id]? = some frame → id ≠ programId →
    ∃ parent, frame.1 = some parent ∧ parent < id
  linked : record.openScopes.IsChain record.LiesIn
  bottom : record.openScopes.getLast? = some programId

theorem frame_scope (record : ScopeRecord) (id : ScopeId) :
    frame (record.scope id) = record.frames.getD id (none, none) := by
  unfold scope frames
  rw [List.getD_eq_getElem?_getD, List.getD_eq_getElem?_getD, List.getElem?_map]
  cases record.scopes[id]? <;> rfl

/-- A record that grows keeps the frames of its scopes. -/
theorem frame_of_grown {record after : ScopeRecord} (grown : record.frames <+: after.frames)
    {id : ScopeId} (known : id < record.scopes.length) :
    frame (after.scope id) = frame (record.scope id) := by
  obtain ⟨more, joined⟩ := grown
  have length : record.frames.length = record.scopes.length := List.length_map _
  rw [frame_scope, frame_scope, ← joined, List.getD_eq_getElem?_getD, List.getD_eq_getElem?_getD,
    List.getElem?_append_left (length ▸ known)]

theorem initial_isStacked : initial.IsStacked := by
  refine ⟨⟨none, rfl⟩, ?_, .singleton _, rfl⟩
  intro id frame found notProgram
  cases id with
  | zero => exact absurd rfl notProgram
  | succ id => cases found

theorem pop_eq_ok {record next : ScopeRecord} (fine : record.pop = .ok next) :
    next.frames = record.frames ∧ next.scopes = record.scopes ∧
      next.functions = record.functions ∧
        record.openScopes = record.current :: next.openScopes := by
  unfold pop at fine
  unfold openScopes
  split at fine
  · cases fine
  · next outer' after same =>
      cases fine
      exact ⟨rfl, rfl, rfl, congrArg _ same⟩

/-- A symbol that is added to a scope changes no other one. -/
theorem scope_addSymbol {record : ScopeRecord} {id : ScopeId}
    (known : id < record.scopes.length) (symbol : Symbol) (other : ScopeId) :
    ((record.addSymbol id symbol).scope other).symbols =
      (record.scope other).symbols ++ if id = other then [symbol] else [] := by
  unfold scope addSymbol
  rw [List.getD_eq_getElem?_getD, List.getD_eq_getElem?_getD, List.getElem?_modify]
  split
  · next same =>
      subst same
      rw [List.getElem?_eq_getElem known]
      rfl
  · cases record.scopes[other]? <;> exact (List.append_nil _).symm

theorem define_eq_ok {record next : ScopeRecord} {id : ScopeId} {symbol : Symbol}
    (fine : record.define id symbol = .ok next) :
    (record.scope id).has symbol.name = false ∧ next = record.addSymbol id symbol := by
  unfold define at fine
  split at fine
  · cases fine
  · next absent =>
      cases fine
      exact ⟨Bool.eq_false_iff.mpr absent, rfl⟩

/-- Moves change neither where a scope lies nor whose it is. -/
theorem Move.frames {record after : ScopeRecord} (moved : record.Move after) :
    record.frames <+: after.frames := by
  cases moved with
  | opened name function => exact ⟨_, List.map_append.symm⟩
  | closed fine => exact (pop_eq_ok fine).1 ▸ List.prefix_rfl
  | @defined id symbol after proper fine =>
      obtain ⟨-, rfl⟩ := define_eq_ok fine
      exact (addSymbol_sameNesting record id symbol).frames ▸ List.prefix_rfl
  | entered => exact List.prefix_rfl

theorem Moves.frames {record after : ScopeRecord} (moves : record.Moves after) :
    record.frames <+: after.frames := by
  induction moves with
  | refl => exact List.prefix_rfl
  | tail _ next ih => exact ih.trans next.frames

namespace IsStacked

variable {record : ScopeRecord} (stacked : record.IsStacked)

include stacked

theorem of_same {after : ScopeRecord} (frames : after.frames = record.frames)
    (opened : after.openScopes = record.openScopes) : after.IsStacked := by
  obtain ⟨program, older, linked, bottom⟩ := stacked
  have around : after.LiesIn = record.LiesIn := by
    unfold LiesIn
    rw [frames]
  refine ⟨?_, ?_, ?_, ?_⟩
  · rwa [frames]
  · rwa [frames]
  · rwa [around, opened]
  · rwa [opened]

/-- The open scopes are among those of the record. -/
theorem open_lt : ∀ id ∈ record.openScopes, id < record.scopes.length := by
  have linked := stacked.linked
  have bottom := stacked.bottom
  generalize record.openScopes = opened at linked bottom
  induction opened with
  | nil => exact List.forall_mem_nil _
  | cons id outer ih =>
      cases outer with
      | nil =>
          obtain ⟨owner, found⟩ := stacked.program
          have last : id = programId := Option.some.inj bottom
          rw [last]
          exact List.forall_mem_singleton.mpr (lt_of_frame found)
      | cons next outer =>
          obtain ⟨⟨owner, found⟩, rest⟩ := List.isChain_cons_cons.mp linked
          rw [List.getLast?_cons_cons] at bottom
          exact List.forall_mem_cons.mpr ⟨lt_of_frame found, ih rest bottom⟩

theorem current_lt : record.current < record.scopes.length :=
  stacked.open_lt _ (List.mem_cons_self ..)

theorem push (name : Value) (function : Option Node) : (record.push name function).IsStacked := by
  have frames : (record.push name function).frames =
      record.frames ++ [(some record.current, function)] := List.map_append
  have length : record.frames.length = record.scopes.length := List.length_map _
  have kept {id : ScopeId} {frame : Option ScopeId × Option Node}
      (found : record.frames[id]? = some frame) :
      (record.push name function).frames[id]? = some frame := by
    rw [frames, List.getElem?_append_left (by rw [length]; exact lt_of_frame found)]
    exact found
  refine ⟨?_, ?_, ?_, ?_⟩
  · obtain ⟨owner, found⟩ := stacked.program
    exact ⟨owner, kept found⟩
  · intro id frame found notProgram
    rw [frames] at found
    rw [List.getElem?_append] at found
    split at found
    · exact stacked.older id frame found notProgram
    · next beyond =>
        obtain ⟨bound, same⟩ := List.getElem?_eq_some_iff.mp found
        refine ⟨record.current, ?_, stacked.current_lt.trans_le ?_⟩
        · rw [← same, List.getElem_singleton]
        · rw [← length]
          exact Nat.le_of_not_lt beyond
  · have here : (record.push name function).frames[record.scopes.length]? =
        some (some record.current, function) := by
      rw [frames, ← length, List.getElem?_concat_length]
    refine List.isChain_cons_cons.mpr ⟨⟨function, here⟩, ?_⟩
    exact stacked.linked.imp fun inner outer lies => lies.imp fun owner found => kept found
  · exact (List.getLast?_cons_cons ..).trans stacked.bottom

/-- Every move keeps a record stacked. -/
theorem move {after : ScopeRecord} (moved : record.Move after) : after.IsStacked := by
  cases moved with
  | opened name function => exact stacked.push name function
  | closed fine =>
      obtain ⟨frames, -, -, opened⟩ := pop_eq_ok fine
      have around : after.LiesIn = record.LiesIn := by
        unfold LiesIn
        rw [frames]
      have linked := stacked.linked
      have bottom := stacked.bottom
      rw [opened] at linked bottom
      refine ⟨?_, ?_, ?_, ?_⟩
      · rw [frames]
        exact stacked.program
      · rw [frames]
        exact stacked.older
      · rw [around]
        exact (List.isChain_cons_cons.mp linked).2
      · exact (List.getLast?_cons_cons ..).symm.trans bottom
  | @defined id symbol after proper fine =>
      obtain ⟨-, rfl⟩ := define_eq_ok fine
      have same := addSymbol_sameNesting record id symbol
      exact stacked.of_same same.frames same.openScopes
  | entered => exact stacked.of_same rfl rfl

theorem moves {after : ScopeRecord} (moved : record.Moves after) : after.IsStacked := by
  induction moved with
  | refl => exact stacked
  | tail _ next ih => exact ih.move next

/-! ## Chains -/

theorem parent_program : (record.scope programId).parent = none := by
  obtain ⟨owner, found⟩ := stacked.program
  exact (scope_of_frame found).1

/-- Every other scope lies in one. -/
theorem parent_of_ne {id : ScopeId} (known : id < record.scopes.length) (other : id ≠ programId) :
    ∃ parent, (record.scope id).parent = some parent := by
  have place : record.frames[id]? = some (frame record.scopes[id]) := by
    unfold frames
    rw [List.getElem?_map, List.getElem?_eq_getElem known]
    rfl
  obtain ⟨parent, same, -⟩ := stacked.older id _ place other
  exact ⟨parent, (scope_of_frame place).1.trans same⟩

/-- The scope around a scope is older. -/
theorem parent_lt {id parent : ScopeId} (found : (record.scope id).parent = some parent) :
    parent < id := by
  have around : (record.scope id).parent = (record.frames.getD id (none, none)).1 :=
    congrArg Prod.fst (frame_scope record id)
  rw [found, List.getD_eq_getElem?_getD] at around
  cases place : record.frames[id]? with
  | none =>
      rw [place] at around
      cases around
  | some frame =>
      rw [place] at around
      have notProgram : id ≠ programId := by
        rintro rfl
        cases stacked.parent_program.symm.trans found
      obtain ⟨outer, same, younger⟩ := stacked.older id frame place notProgram
      cases around.trans same
      exact younger

theorem chain_eq (id : ScopeId) :
    record.chain id = id :: ((record.scope id).parent.map record.chain).getD [] := by
  cases found : (record.scope id).parent with
  | none =>
      rw [chain, found]
      rfl
  | some parent => exact chain_of_parent found (stacked.parent_lt found)

/-- The scopes around the current one are those that are open. -/
theorem chain_current : record.chain record.current = record.openScopes := by
  have linked := stacked.linked
  have bottom := stacked.bottom
  unfold openScopes at linked bottom ⊢
  generalize record.current = current at linked bottom ⊢
  generalize record.outer = outer at linked bottom ⊢
  induction outer generalizing current with
  | nil =>
      have last : current = programId := Option.some.inj bottom
      rw [last, stacked.chain_eq, stacked.parent_program]
      rfl
  | cons next outer ih =>
      obtain ⟨⟨owner, found⟩, rest⟩ := List.isChain_cons_cons.mp linked
      rw [stacked.chain_eq, (scope_of_frame found).1]
      exact congrArg (current :: ·) (ih next rest ((List.getLast?_cons_cons ..).symm.trans bottom))

theorem depth_current : record.depth record.current = record.openScopes.length - 1 := by
  unfold depth
  rw [stacked.chain_current]

end IsStacked

/-! ## Symbols -/

def HasDistinctNames (record : ScopeRecord) : Prop :=
  ∀ scope ∈ record.scopes,
    scope.symbols.Pairwise Symbol.IsApart ∧ ∀ symbol ∈ scope.symbols,
      symbol.name.asName = .ok symbol.name

theorem initial_hasDistinctNames : initial.HasDistinctNames :=
  List.forall_mem_singleton.mpr ⟨.nil, List.forall_mem_nil _⟩

/-- A scope that is no other one of the record is the one with the number. -/
theorem scope_mem {record : ScopeRecord} {id : ScopeId} (known : id < record.scopes.length) :
    record.scope id ∈ record.scopes := by
  unfold scope
  rw [List.getD_eq_getElem?_getD, List.getElem?_eq_getElem known]
  exact List.getElem_mem known

namespace HasDistinctNames

variable {record : ScopeRecord} (distinct : record.HasDistinctNames)

include distinct

/-- A name is defined only where it is not defined yet. -/
theorem define {id : ScopeId} {symbol : Symbol} {next : ScopeRecord}
    (proper : symbol.name.asName = .ok symbol.name) (fine : record.define id symbol = .ok next) :
    next.HasDistinctNames := by
  obtain ⟨absent, rfl⟩ := define_eq_ok fine
  intro scope held
  obtain ⟨place, here⟩ := List.getElem?_of_mem held
  simp only [addSymbol, List.getElem?_modify] at here
  obtain ⟨old, there, rfl⟩ := Option.map_eq_some_iff.mp here
  obtain ⟨apart, named⟩ := distinct old (List.mem_of_getElem? there)
  split
  · next same =>
      have owner : record.scope id = old := by
        unfold ScopeRecord.scope
        rw [same, List.getD_eq_getElem?_getD, there]
        rfl
      rw [owner] at absent
      refine ⟨List.pairwise_append.mpr ⟨apart, List.pairwise_singleton .., ?_⟩,
        List.forall_mem_append.mpr ⟨named, List.forall_mem_singleton.mpr proper⟩⟩
      intro other among
      refine List.forall_mem_singleton.mpr ?_
      exact Bool.eq_false_iff.mpr (List.any_eq_false.mp absent other among)
  · exact ⟨apart, named⟩

/-- Every move keeps the names of each scope different. -/
theorem move {after : ScopeRecord} (moved : record.Move after) : after.HasDistinctNames := by
  cases moved with
  | opened name function =>
      exact List.forall_mem_append.mpr
        ⟨distinct, List.forall_mem_singleton.mpr ⟨.nil, List.forall_mem_nil _⟩⟩
  | closed fine =>
      obtain ⟨-, scopes, -, -⟩ := pop_eq_ok fine
      unfold HasDistinctNames
      rwa [scopes]
  | defined proper fine => exact distinct.define proper fine
  | entered => exact distinct

theorem moves {after : ScopeRecord} (moved : record.Moves after) : after.HasDistinctNames := by
  induction moved with
  | refl => exact distinct
  | tail _ next ih => exact ih.move next

theorem symbols (id : ScopeId) :
    (record.scope id).symbols.Pairwise Symbol.IsApart ∧
      ∀ symbol ∈ (record.scope id).symbols, symbol.name.asName = .ok symbol.name := by
  rcases Nat.lt_or_ge id record.scopes.length with known | beyond
  · exact distinct _ (scope_mem known)
  · have absent : record.scope id = programScope := by
      unfold scope
      rw [List.getD_eq_getElem?_getD, List.getElem?_eq_none beyond]
      rfl
    rw [absent]
    exact ⟨.nil, List.forall_mem_nil _⟩

/-- Symbols of a scope that have the same name are the same one. -/
theorem symbol_unique {id : ScopeId} {name : Value} {first second : Symbol}
    (held : first ∈ (record.scope id).symbols) (same : first.name.isSameName name = true)
    (heldToo : second ∈ (record.scope id).symbols) (sameToo : second.name.isSameName name = true) :
    first = second := by
  by_contra differs
  have apart := (distinct.symbols id).1.forall held heldToo differs
  rw [Value.isSameName_comm] at sameToo
  exact Bool.eq_false_iff.mp apart (Value.isSameName_trans same sameToo)

end HasDistinctNames

end ScopeRecord

end PhpRendering
