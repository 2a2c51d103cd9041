import PhpRendering.Proofs.Spellings
import PhpRendering.Proofs.SymbolTables

/-!
# What records tell

A recorder tells how scopes are nested, what they are called and which symbols they have.
When two runs enter functions that are nested alike, the records tell the same exactly when
the functions bring the same names, one by one: their own, and those of their parameters
where they come first.
-/

namespace PhpRendering

/-! ## Symbols with bare names -/

theorem firstSymbols_map_bare (symbols : List Symbol) :
    firstSymbols (symbols.map Symbol.bare) = (firstSymbols symbols).map Symbol.bare := by
  induction symbols with
  | nil => rfl
  | cons symbol rest ih =>
      rw [List.map_cons, firstSymbols, firstSymbols, ih, List.map_cons, List.filter_map]
      simp only [Function.comp_def, Symbol.bare, Value.isSameName_bare]

/-- Behind lists with the same first symbols the same symbols are first ones. -/
theorem firstSymbols_append_congr {front other back : List Symbol}
    (same : firstSymbols front = firstSymbols other) :
    firstSymbols (front ++ back) = firstSymbols (other ++ back) := by
  have among (name : Value) : (front.any fun symbol => symbol.name.isSameName name) =
      other.any fun symbol => symbol.name.isSameName name := by
    rw [← any_firstSymbols front, ← any_firstSymbols other, same]
  simp only [firstSymbols_append, same, among]

theorem mem_of_mem_firstSymbols {symbols : List Symbol} {symbol : Symbol}
    (first : symbol ∈ firstSymbols symbols) : symbol ∈ symbols := by
  induction symbols with
  | nil => exact first
  | cons head rest ih =>
      rcases List.mem_cons.mp first with rfl | later
      · exact List.mem_cons_self ..
      · exact List.mem_cons_of_mem _ (ih (List.mem_of_mem_filter later))

/-- The first symbols stay when others are left out exactly when none of them is. -/
theorem firstSymbols_filter_eq_iff {symbols : List Symbol} {keep : Symbol → Bool} :
    firstSymbols (symbols.filter keep) = firstSymbols symbols ↔
      ∀ symbol ∈ firstSymbols symbols, keep symbol = true := by
  constructor
  · intro same symbol first
    rw [← same] at first
    exact List.of_mem_filter (mem_of_mem_firstSymbols first)
  · intro kept
    induction symbols using List.reverseRecOn with
    | nil => rfl
    | append_singleton rest last ih =>
        have sooner : ∀ symbol ∈ firstSymbols rest, symbol ∈ firstSymbols (rest ++ [last]) := by
          intro symbol first
          rw [firstSymbols_append]
          exact List.mem_append_left _ first
        have before := ih fun symbol first => kept symbol (sooner symbol first)
        rw [List.filter_append, firstSymbols_append_singleton]
        cases keeps : keep last with
        | true =>
            rw [List.filter_singleton, keeps]
            exact (firstSymbols_append_singleton _ last).trans (by rw [before])
        | false =>
            rw [List.filter_singleton, keeps]
            split
            · exact (congrArg firstSymbols (List.append_nil _)).trans before
            · next new =>
                have first : last ∈ firstSymbols (rest ++ [last]) := by
                  rw [firstSymbols_append_singleton, if_neg new]
                  exact List.mem_append_right _ (List.mem_singleton_self _)
                rw [kept last first] at keeps
                cases keeps

/-! ## Names that a function brings -/

/-- The names that a function brings to a record: its own, and those of its parameters with
their positions, each where it comes first. -/
def Node.broughtNames (function : Node) : Option Value × List Symbol :=
  (function.ownName?.map Value.bare, (firstSymbols function.parameterSymbols).map Symbol.bare)

theorem Node.isTruthy_of_ownName? {function : Node} {name : Value}
    (own : function.ownName? = some name) : name.isTruthy = true := by
  unfold Node.ownName? at own
  split at own
  · next named =>
      subst own
      obtain ⟨-, -, -, truthy, -⟩ := Node.functionName?_eq_some named
      exact truthy
  · cases own

/-- A scope without a name is told from any other one. -/
theorem Node.ownName?_eq_of_getD {function other : Node}
    (same : (function.ownName?.getD (.text "")).bare = (other.ownName?.getD (.text "")).bare) :
    function.ownName?.map Value.bare = other.ownName?.map Value.bare := by
  have unlike {node : Node} {name : Value} (own : node.ownName? = some name) :
      name.bare ≠ .text "" := by
    intro empty
    have truthy := Node.isTruthy_of_ownName? own
    cases name with
    | scalar value =>
        cases empty
        exact Bool.noConfusion truthy
    | _ => cases empty
  cases own : function.ownName? with
  | none =>
      cases ownToo : other.ownName? with
      | none => rfl
      | some name =>
          rw [own, ownToo] at same
          exact absurd same.symm (unlike ownToo)
  | some name =>
      cases ownToo : other.ownName? with
      | none =>
          rw [own, ownToo] at same
          exact absurd same (unlike own)
      | some nameToo =>
          rw [own, ownToo] at same
          exact congrArg some same

theorem Node.isParameter_of_mem {function : Node} {symbol : Symbol}
    (held : symbol ∈ function.parameterSymbols) : symbol.isParameter = true := by
  unfold Node.parameterSymbols at held
  split at held
  · obtain ⟨entry, -, brought⟩ := List.mem_filterMap.mp held
    split at brought
    · cases brought
      exact decide_eq_true (Int.natCast_nonneg _)
    · cases brought
  · cases held

structure Node.LiesLike (E : Node → Node → Prop) (function other : Node) : Prop where
  related : E function other
  holds : ∀ scope scopeToo : Scope, Option.Rel E scope.function scopeToo.function →
    scope.holdsBodyOf function = scopeToo.holdsBodyOf other

namespace ScopeRecord

variable {record other : ScopeRecord} {entered others : List Node}

theorem isParameter_of_nameSymbol? {id inner : ScopeId} {symbol : Symbol}
    (brought : record.nameSymbol? id inner = some symbol) : symbol.isParameter = false := by
  unfold nameSymbol? at brought
  split at brought
  · obtain ⟨name, -, rfl⟩ := Option.map_eq_some_iff.mp brought
    rfl
  · cases brought

/-- The parameters among the symbols of a scope are those that the parameters of its function
bring. -/
theorem filter_firstSymbols_brought {id : ScopeId} {function : Node}
    (owner : (record.scope id).function = some function) :
    (firstSymbols (record.brought id)).filter Symbol.isParameter =
      firstSymbols function.parameterSymbols := by
  unfold brought
  rw [owner, Option.map_some, Option.getD_some, firstSymbols_append, List.filter_append]
  have parameters : (firstSymbols function.parameterSymbols).filter Symbol.isParameter =
      firstSymbols function.parameterSymbols :=
    List.filter_eq_self.mpr fun symbol first =>
      Node.isParameter_of_mem (mem_of_mem_firstSymbols first)
  rw [parameters, List.append_right_eq_self, List.filter_eq_nil_iff]
  intro symbol kept
  have first := mem_of_mem_firstSymbols (List.mem_of_mem_filter kept)
  obtain ⟨inner, -, brought⟩ := List.mem_filterMap.mp first
  rw [isParameter_of_nameSymbol? brought]
  exact Bool.false_ne_true

/-! ## Records that are nested alike -/

structure NestsLike (E : Node → Node → Prop) (first second : ScopeRecord) : Prop where
  frames : List.Forall₂ (fun frame other => frame.1 = other.1 ∧ Option.Rel E frame.2 other.2)
    first.frames second.frames
  opened : first.openScopes = second.openScopes
  functions : first.functions = second.functions

/-- What an entry that succeeds opens once scopes are closed. -/
theorem enter_opens {function : Node} (fine : (record.enter function).2 = .ok ()) :
    Opens (record.leave function record.outer).1 (record.enter function) function := by
  unfold enter at fine ⊢
  generalize record.leave function record.outer = leaving at fine ⊢
  obtain ⟨left, outcome⟩ := leaving
  cases outcome with
  | error crash => cases fine
  | ok done =>
      cases named : function.functionName? with
      | error crash =>
          rw [named] at fine
          cases fine
      | ok name =>
          exact (nameFunction_sameNesting left name).opens (openFunction_opens _ function name)

namespace NestsLike

variable {E : Node → Node → Prop} {first second : ScopeRecord}

theorem frame (like : first.NestsLike E second) (id : ScopeId) :
    (first.scope id).parent = (second.scope id).parent ∧
      Option.Rel E (first.scope id).function (second.scope id).function := by
  have frames := like.frames
  have here := first.frame_scope id
  have hereToo := second.frame_scope id
  generalize first.frames = known at frames here
  generalize second.frames = others at frames hereToo
  have same : (known.getD id (none, none)).1 = (others.getD id (none, none)).1 ∧
      Option.Rel E (known.getD id (none, none)).2 (others.getD id (none, none)).2 := by
    clear here hereToo
    induction frames generalizing id with
    | nil => exact ⟨rfl, .none⟩
    | cons head _ ih =>
        cases id with
        | zero => exact head
        | succ id => exact ih id
  rwa [← here, ← hereToo] at same

theorem length_eq (like : first.NestsLike E second) :
    first.scopes.length = second.scopes.length := by
  have lengths := like.frames.length_eq
  unfold ScopeRecord.frames at lengths
  rwa [List.length_map, List.length_map] at lengths

theorem initial (E : Node → Node → Prop) : NestsLike E .initial .initial :=
  ⟨.cons ⟨rfl, .none⟩ .nil, rfl, rfl⟩

theorem holds (like : first.NestsLike E second) {function other : Node}
    (lies : function.LiesLike E other) :
    first.currentScope.holdsBodyOf function = second.currentScope.holdsBodyOf other := by
  unfold currentScope
  rw [(List.cons.inj like.opened).1]
  exact lies.holds _ _ (like.frame _).2

theorem leave (like : first.NestsLike E second) {function other : Node}
    (lies : function.LiesLike E other) :
    (first.leave function first.outer).1.NestsLike E (second.leave other second.outer).1 ∧
      (first.leave function first.outer).2 = (second.leave other second.outer).2 := by
  obtain ⟨scopes, current, outer, functions⟩ := first
  obtain ⟨scopesToo, currentToo, outerToo, functionsToo⟩ := second
  obtain ⟨frames, opened, rfl⟩ := like
  cases opened
  induction outer generalizing current with
  | nil => exact ⟨⟨frames, rfl, rfl⟩, rfl⟩
  | cons next rest ih =>
      have here : NestsLike E ⟨scopes, current, next :: rest, functions⟩
          ⟨scopesToo, current, next :: rest, functions⟩ := ⟨frames, rfl, rfl⟩
      simp only [ScopeRecord.leave]
      rw [here.holds lies]
      cases (ScopeRecord.currentScope ⟨scopesToo, current, next :: rest, functions⟩).holdsBodyOf
          other with
      | error crash => exact ⟨here, rfl⟩
      | ok inside =>
          cases inside with
          | true => exact ⟨here, rfl⟩
          | false => exact ih next frames

/-- Entries of functions that lie alike keep records nested alike. -/
theorem enter (like : first.NestsLike E second) {function other : Node}
    (lies : function.LiesLike E other) (fine : (first.enter function).2 = .ok ())
    (fineToo : (second.enter other).2 = .ok ()) :
    (first.enter function).1.NestsLike E (second.enter other).1 := by
  obtain ⟨left, -⟩ := like.leave lies
  have opens := enter_opens fine
  have opensToo := enter_opens fineToo
  generalize (first.leave function first.outer).1 = before at left opens
  generalize (second.leave other second.outer).1 = beforeToo at left opensToo
  have current : before.current = beforeToo.current := (List.cons.inj left.opened).1
  refine ⟨?_, ?_, ?_⟩
  · rw [opens.frames, opensToo.frames]
    exact List.rel_append left.frames (.cons ⟨congrArg some current, .some lies.related⟩ .nil)
  · rw [opens.opened, opensToo.opened, left.length_eq, left.opened]
  · have counts := opens.functions.resolve_right fun failed => failed.2 fine
    have countsToo := opensToo.functions.resolve_right fun failed => failed.2 fineToo
    rw [counts, countsToo, left.functions, left.length_eq]

theorem enterAll (like : first.NestsLike E second) {functions others : List Node}
    (all : List.Forall₂ (Node.LiesLike E) functions others)
    (fine : (first.enterAll functions).2 = .ok ()) (fineToo : (second.enterAll others).2 = .ok ()) :
    (first.enterAll functions).1.NestsLike E (second.enterAll others).1 := by
  induction all generalizing first second with
  | nil => exact like
  | cons lies _ ih =>
      have head := enter_ok_of_enterAll fine
      have headToo := enter_ok_of_enterAll fineToo
      rw [enterAll_cons head] at fine ⊢
      rw [enterAll_cons headToo] at fineToo ⊢
      exact ih (like.enter lies head headToo) fine fineToo

end NestsLike

/-! ## Outlines -/

theorem getElem?_scopes {id : ScopeId} (known : id < record.scopes.length) :
    record.scopes[id]? = some (record.scope id) := by
  rw [scope, List.getD_eq_getElem?_getD, List.getElem?_eq_getElem known, Option.getD_some]

theorem outlines_eq_iff (length : record.scopes.length = other.scopes.length) :
    record.scopes.map Scope.outline = other.scopes.map Scope.outline ↔
      ∀ id < record.scopes.length, (record.scope id).outline = (other.scope id).outline := by
  constructor
  · intro same id known
    have here := congrArg (·[id]?) same
    simp only [List.getElem?_map, getElem?_scopes known, getElem?_scopes (length ▸ known),
      Option.map_some] at here
    exact Option.some.inj here
  · intro same
    refine List.ext_getElem? fun id => ?_
    rw [List.getElem?_map, List.getElem?_map]
    rcases Nat.lt_or_ge id record.scopes.length with known | beyond
    · rw [getElem?_scopes known, getElem?_scopes (length ▸ known), Option.map_some, Option.map_some,
        same id known]
    · rw [List.getElem?_eq_none beyond, List.getElem?_eq_none (length ▸ beyond)]

theorem name_eq {id : ScopeId} (known : id < record.scopes.length) :
    record.names[id]? = some (record.scope id).name := by
  unfold names
  rw [List.getElem?_map, getElem?_scopes known]
  rfl

namespace IsTabled

variable (tabled : record.IsTabled entered)

include tabled

theorem program_lt : programId < record.scopes.length := by
  rw [tabled.length]
  exact Nat.succ_pos _

theorem entered_lt {index : Nat} {function : Node} (found : entered[index]? = some function) :
    index + 1 < record.scopes.length := by
  rw [tabled.length]
  exact Nat.succ_lt_succ (List.getElem?_eq_some_iff.mp found).1

/-- Each scope is that of the program or that of an entered function. -/
theorem scope_cases {id : ScopeId} (known : id < record.scopes.length) :
    id = programId ∨ ∃ index function, id = index + 1 ∧ entered[index]? = some function := by
  rw [tabled.length] at known
  cases id with
  | zero => exact .inl rfl
  | succ index =>
      exact .inr ⟨index, _, rfl, List.getElem?_eq_getElem (Nat.lt_of_succ_lt_succ known)⟩

theorem name_program : (record.scope programId).name = .text "<program>" := by
  have listed := name_eq tabled.program_lt
  rw [tabled.names] at listed
  exact (Option.some.inj listed).symm

theorem name_of_entered {index : Nat} {function : Node}
    (found : entered[index]? = some function) :
    (record.scope (index + 1)).name = function.ownName?.getD (.text "") := by
  have listed := name_eq (tabled.entered_lt found)
  rw [tabled.names, List.getElem?_cons_succ, List.getElem?_map, found] at listed
  exact (Option.some.inj listed).symm

end IsTabled

/-! ## Records that tell the same -/

section Both

variable {E : Node → Node → Prop} (tabled : record.IsTabled entered)
  (tabledToo : other.IsTabled others) (like : record.NestsLike E other)

include tabled tabledToo like

theorem length_entered : entered.length = others.length := by
  have lengths := like.length_eq
  rw [tabled.length, tabledToo.length] at lengths
  exact Nat.succ.inj lengths

/-- Every entered function has a counterpart. -/
theorem exists_counterpart {index : Nat} {function : Node}
    (found : entered[index]? = some function) :
    ∃ counterpart, others[index]? = some counterpart := by
  have known := (List.getElem?_eq_some_iff.mp found).1
  rw [length_entered tabled tabledToo like] at known
  exact ⟨_, List.getElem?_eq_getElem known⟩

section Same

variable (same : entered.map Node.broughtNames = others.map Node.broughtNames)

include same

omit tabled tabledToo like in
theorem broughtNames_eq {index : Nat} {function counterpart : Node}
    (found : entered[index]? = some function) (foundToo : others[index]? = some counterpart) :
    function.broughtNames = counterpart.broughtNames := by
  have here := congrArg (·[index]?) same
  simp only [List.getElem?_map, found, foundToo, Option.map_some] at here
  exact Option.some.inj here

/-- Functions that bring the same names bring them to corresponding scopes. -/
theorem nameSymbol?_bare (id : ScopeId) {inner : ScopeId} (held : inner ∈ record.functions) :
    (record.nameSymbol? id inner).map Symbol.bare =
      (other.nameSymbol? id inner).map Symbol.bare := by
  rcases tabled.scope_cases (tabled.functions_lt inner held) with rfl | ⟨index, function, rfl, found⟩
  · rw [tabled.functions, List.mem_range'_1] at held
    exact absurd held.1 (Nat.not_succ_le_zero 0)
  · obtain ⟨counterpart, foundToo⟩ := exists_counterpart tabled tabledToo like found
    have own : function.ownName?.map Value.bare = counterpart.ownName?.map Value.bare :=
      congrArg Prod.fst (broughtNames_eq same found foundToo)
    have brings (name : Option Value) :
        (name.map fun name => ({ name := name, isGlobal := id == programId, isFunction := true } :
          Symbol)).map Symbol.bare =
          (name.map Value.bare).map fun name =>
            { name := name, isGlobal := id == programId, isFunction := true } := by
      cases name <;> rfl
    unfold nameSymbol?
    rw [(like.frame (index + 1)).1, tabled.owners index function found,
      tabledToo.owners index counterpart foundToo]
    split
    · rw [Option.bind_some, Option.bind_some, brings, brings, own]
    · rfl

theorem symbols_bare {id : ScopeId} (known : id < record.scopes.length) :
    (record.scope id).symbols.map Symbol.bare = (other.scope id).symbols.map Symbol.bare := by
  have names : (record.functions.filterMap (record.nameSymbol? id)).map Symbol.bare =
      (other.functions.filterMap (other.nameSymbol? id)).map Symbol.bare := by
    rw [List.map_filterMap, List.map_filterMap, ← like.functions]
    exact List.filterMap_congr fun inner held =>
      nameSymbol?_bare tabled tabledToo like same id held
  have parameters :
      (firstSymbols (((record.scope id).function.map Node.parameterSymbols).getD [])).map
          Symbol.bare =
        (firstSymbols (((other.scope id).function.map Node.parameterSymbols).getD [])).map
          Symbol.bare := by
    rcases tabled.scope_cases known with rfl | ⟨index, function, rfl, found⟩
    · rw [tabled.unowned, tabledToo.unowned]
    · obtain ⟨counterpart, foundToo⟩ := exists_counterpart tabled tabledToo like found
      rw [tabled.owners index function found, tabledToo.owners index counterpart foundToo]
      exact congrArg Prod.snd (broughtNames_eq same found foundToo)
  rw [← firstSymbols_map_bare, ← firstSymbols_map_bare] at parameters
  rw [tabled.symbols id known, tabledToo.symbols id (like.length_eq ▸ known),
    ← firstSymbols_map_bare, ← firstSymbols_map_bare]
  unfold brought
  rw [List.map_append, List.map_append, names]
  exact firstSymbols_append_congr parameters

end Same

/-- The names that an entered function brings can be told from its scope. -/
theorem broughtNames_eq_of_outline {index : Nat} {function counterpart : Node}
    (found : entered[index]? = some function) (foundToo : others[index]? = some counterpart)
    (outline : (record.scope (index + 1)).outline = (other.scope (index + 1)).outline) :
    function.broughtNames = counterpart.broughtNames := by
  have known := tabled.entered_lt found
  have name : (record.scope (index + 1)).name.bare = (other.scope (index + 1)).name.bare :=
    congrArg Scope.name outline
  have symbols : (record.scope (index + 1)).symbols.map Symbol.bare =
      (other.scope (index + 1)).symbols.map Symbol.bare := congrArg Scope.symbols outline
  have parameters (symbols : List Symbol) : (symbols.map Symbol.bare).filter Symbol.isParameter =
      (symbols.filter Symbol.isParameter).map Symbol.bare := List.filter_map
  rw [tabled.name_of_entered found, tabledToo.name_of_entered foundToo] at name
  have bound := congrArg (List.filter Symbol.isParameter) symbols
  rw [parameters, parameters, tabled.symbols _ known, tabledToo.symbols _ (like.length_eq ▸ known),
    filter_firstSymbols_brought (tabled.owners index function found),
    filter_firstSymbols_brought (tabledToo.owners index counterpart foundToo)] at bound
  exact Prod.ext (Node.ownName?_eq_of_getD name) bound

/-- Records of functions that are nested alike tell the same exactly when the functions
bring the same names. -/
theorem outlines_eq_iff_broughtNames :
    record.scopes.map Scope.outline = other.scopes.map Scope.outline ↔
      entered.map Node.broughtNames = others.map Node.broughtNames := by
  rw [outlines_eq_iff like.length_eq]
  constructor
  · intro same
    refine List.ext_getElem? fun index => ?_
    rw [List.getElem?_map, List.getElem?_map]
    cases found : entered[index]? with
    | none =>
        have beyond := List.getElem?_eq_none_iff.mp found
        rw [length_entered tabled tabledToo like] at beyond
        rw [List.getElem?_eq_none beyond]
    | some function =>
        obtain ⟨counterpart, foundToo⟩ := exists_counterpart tabled tabledToo like found
        rw [foundToo]
        exact congrArg some (broughtNames_eq_of_outline tabled tabledToo like found foundToo
          (same (index + 1) (tabled.entered_lt found)))
  · intro same id known
    have name : (record.scope id).name.bare = (other.scope id).name.bare := by
      rcases tabled.scope_cases known with rfl | ⟨index, function, rfl, found⟩
      · rw [tabled.name_program, tabledToo.name_program]
      · obtain ⟨counterpart, foundToo⟩ := exists_counterpart tabled tabledToo like found
        have own : function.ownName?.map Value.bare = counterpart.ownName?.map Value.bare :=
          congrArg Prod.fst (broughtNames_eq same found foundToo)
        have bare (name : Option Value) :
            (name.getD (.text "")).bare = (name.map Value.bare).getD (.text "") := by
          cases name <;> rfl
        rw [tabled.name_of_entered found, tabledToo.name_of_entered foundToo, bare, bare, own]
    simp only [Scope.outline, (like.frame id).1, name, symbols_bare tabled tabledToo like same known]

end Both

end ScopeRecord

/-- Recorders of functions that are nested alike tell the same exactly when the functions
bring the same names. -/
theorem Recorder.account_eq_iff {E : Node → Node → Prop} {record other : ScopeRecord}
    {entered others : List Node} (tabled : record.IsTabled entered)
    (tabledToo : other.IsTabled others) (like : record.NestsLike E other) :
    (Recorder.scoping record).account = (Recorder.scoping other).account ↔
      entered.map Node.broughtNames = others.map Node.broughtNames := by
  rw [← ScopeRecord.outlines_eq_iff_broughtNames tabled tabledToo like]
  obtain ⟨current, outer⟩ := List.cons.inj like.opened
  simp only [Recorder.account, Account.scopes.injEq, ScopeRecord.mk.injEq, current, outer,
    like.functions, and_self, and_true]

end PhpRendering
