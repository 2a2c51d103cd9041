import PhpRendering.Proofs.SymbolTables

/-!
# Records on top of others

Functions that are entered when only the scope of the program is open do not see what was
recorded before. They get the scopes that they get in an empty record, with other numbers,
on top of those that are there, as long as the program has their names already.
-/

namespace PhpRendering

namespace ScopeRecord

/-! ## Numbers -/

/-- The number that a scope gets behind a number of others. That of the program keeps its
own. -/
def shift (offset : Nat) (id : ScopeId) : ScopeId :=
  if id = programId then programId else id + offset

theorem shift_program (offset : Nat) : shift offset programId = programId :=
  if_pos rfl

theorem shift_of_ne {offset : Nat} {id : ScopeId} (other : id ≠ programId) :
    shift offset id = id + offset :=
  if_neg other

theorem shift_ne {offset : Nat} {id : ScopeId} (other : id ≠ programId) :
    shift offset id ≠ programId := by
  rw [shift_of_ne other]
  exact fun same => other (Nat.eq_zero_of_add_eq_zero_right same)

theorem shift_eq_program_iff {offset : Nat} {id : ScopeId} :
    shift offset id = programId ↔ id = programId := by
  constructor
  · intro same
    by_contra other
    exact shift_ne other same
  · rintro rfl
    exact shift_program offset

end ScopeRecord

def Scope.shifted (offset : Nat) (scope : Scope) : Scope :=
  { scope with parent := scope.parent.map (ScopeRecord.shift offset) }

namespace ScopeRecord

def offset (record : ScopeRecord) : Nat :=
  record.scopes.length - 1

/-- A record whose scopes stand behind those of another one, with the scope of the program
that is there. -/
def graft (base record : ScopeRecord) : ScopeRecord where
  scopes := base.scopes ++ (record.scopes.drop 1).map (Scope.shifted base.offset)
  current := shift base.offset record.current
  outer := record.outer.map (shift base.offset)
  functions := base.functions ++ record.functions.map (shift base.offset)

variable {base record : ScopeRecord} {id : ScopeId}

/-! ## Scopes of a graft -/

theorem IsStacked.length_eq (stacked : record.IsStacked) :
    record.scopes.length = record.offset + 1 := by
  have some := Nat.zero_lt_of_lt stacked.current_lt
  unfold offset
  omega

theorem scope_graft_of_ne (stacked : base.IsStacked) (known : id < record.scopes.length)
    (other : id ≠ programId) :
    (graft base record).scope (shift base.offset id) =
      (record.scope id).shifted base.offset := by
  obtain ⟨rest, rfl⟩ := Nat.exists_eq_succ_of_ne_zero other
  have length := stacked.length_eq
  have place : rest + 1 + base.offset = base.scopes.length + rest := by omega
  unfold graft scope
  rw [shift_of_ne other, List.getD_eq_getElem?_getD, List.getD_eq_getElem?_getD, place,
    List.getElem?_append_right (Nat.le_add_right _ _), Nat.add_sub_cancel_left, List.getElem?_map,
    List.getElem?_drop, Nat.add_comm 1 rest, List.getElem?_eq_getElem known]
  rfl

/-- What is searched in a scope does not depend on its number. -/
theorem holdsBodyOf_shifted (scope : Scope) (offset : Nat) (function : Node) :
    (scope.shifted offset).holdsBodyOf function = scope.holdsBodyOf function :=
  rfl

/-- A name that is defined in a scope stays defined there. -/
theorem Move.has {after : ScopeRecord} (moved : record.Move after) {name : Value}
    (present : (record.scope id).has name = true) : (after.scope id).has name = true := by
  cases moved with
  | opened other function =>
      rcases Nat.lt_or_ge id record.scopes.length with known | beyond
      · rwa [scope_push_of_lt known]
      · unfold scope at present
        rw [List.getD_eq_getElem?_getD, List.getElem?_eq_none beyond] at present
        cases present
  | closed fine =>
      obtain ⟨-, scopes, -, -⟩ := pop_eq_ok fine
      unfold scope at present ⊢
      rwa [scopes]
  | defined proper fine =>
      obtain ⟨-, rfl⟩ := define_eq_ok fine
      unfold scope at present ⊢
      unfold addSymbol
      rw [List.getD_eq_getElem?_getD] at present ⊢
      rw [List.getElem?_modify]
      cases place : record.scopes[id]? with
      | none =>
          rw [place] at present
          cases present
      | some scope =>
          rw [place] at present
          have still : scope.has name = true := present
          unfold Scope.has at still
          split
          · exact List.any_append.trans (by rw [still, Bool.true_or])
          · exact present
  | entered => exact present

theorem Moves.has {after : ScopeRecord} (moves : record.Moves after) {name : Value}
    (present : (record.scope id).has name = true) : (after.scope id).has name = true := by
  induction moves with
  | refl => exact present
  | tail _ next ih => exact next.has ih

/-- A scope of the lower record lies as deep as before. -/
theorem chain_of_base {after : ScopeRecord} (stacked : record.IsStacked) (larger : after.IsStacked)
    (frames : record.frames <+: after.frames) (known : id < record.scopes.length) :
    after.chain id = record.chain id := by
  induction id using Nat.strongRecOn with
  | ind id ih =>
      have parent : (after.scope id).parent = (record.scope id).parent :=
        congrArg Prod.fst (frame_of_grown frames known)
      rw [stacked.chain_eq, larger.chain_eq, parent]
      cases found : (record.scope id).parent with
      | none => rfl
      | some parent =>
          have older := stacked.parent_lt found
          exact congrArg (id :: ·) (ih parent older (older.trans known))

/-- A scope of the upper record lies as deep as there. -/
theorem chain_graft (stacked : base.IsStacked) (inner : record.IsStacked)
    (grafted : (graft base record).IsStacked) (known : id < record.scopes.length) :
    (graft base record).chain (shift base.offset id) =
      (record.chain id).map (shift base.offset) := by
  induction id using Nat.strongRecOn with
  | ind id ih =>
      by_cases here : id = programId
      · subst here
        rw [shift_program, grafted.chain_eq, grafted.parent_program, inner.chain_eq,
          inner.parent_program]
        rfl
      · rw [grafted.chain_eq, scope_graft_of_ne stacked known here, inner.chain_eq]
        obtain ⟨parent, found⟩ := inner.parent_of_ne known here
        have older := inner.parent_lt found
        unfold Scope.shifted
        rw [found]
        exact congrArg (_ :: ·) (ih parent older (older.trans known))

end ScopeRecord

end PhpRendering
