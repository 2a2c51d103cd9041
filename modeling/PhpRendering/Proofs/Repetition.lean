import PhpRendering.Proofs.Grafting
import PhpRendering.Proofs.Recovery
import PhpRendering.Proofs.Throughout

/-!
# Rendering a tree again

A record that was used for a tree keeps the scopes that were open at its end. When the same
tree is rendered again, the first function of it is entered in the innermost of them that
holds its body; a function holds its own body too. So the new scopes are a copy of those of
the first time exactly when none that was left open holds the first function.
-/

namespace PhpRendering

namespace ScopeRecord

variable {record : ScopeRecord} {function : Node} {functions : List Node}

/-! ## Closing everything -/

/-- Whether no open scope but that of the program holds a function. -/
def Excludes (record : ScopeRecord) (function : Node) : Prop :=
  ∀ id ∈ record.openScopes, id ≠ programId → (record.scope id).holdsBodyOf function = .ok false

def entered (functions : List Node) : Nat → ScopeRecord
  | 0 => initial
  | times + 1 => ((entered functions times).enterAll functions).1

/-- A record with the scopes of another one and a number of copies of them. In each copy the
scopes lie inside each other as they do there, and those directly in the program again. -/
structure IsCopied (record once : ScopeRecord) (copies : Nat) : Prop where
  functions : record.functions = List.range' 1 ((copies + 1) * once.functions.length)
  scopes : record.scopes = once.scopes ++ (List.range copies).flatMap fun copy =>
    (once.scopes.drop 1).map (Scope.shifted ((copy + 1) * once.functions.length))
  depth : ∀ copy ≤ copies, ∀ id ∈ once.functions,
    record.depth (shift (copy * once.functions.length) id) = once.depth id

section Once

variable (fine : (initial.enterAll functions).2 = .ok ())

include fine

theorem entered_once_isTabled : (entered functions 1).IsTabled functions :=
  initial_isTabled.enterAll fine

theorem entered_once_length : (entered functions 1).functions.length = functions.length := by
  rw [(entered_once_isTabled fine).functions, List.length_range']

theorem IsCopied.offset_eq {copies : Nat} (copied : record.IsCopied (entered functions 1) copies) :
    record.offset = (copies + 1) * functions.length := by
  have size := (entered_once_isTabled fine).length
  have count := entered_once_length fine
  unfold offset
  rw [copied.scopes, List.length_append, List.length_flatMap]
  simp only [List.length_map, List.length_drop, size, List.map_const', List.sum_replicate_nat,
    List.length_range, Nat.add_sub_cancel, Nat.succ_mul]
  omega

/-- One more copy on top of some. -/
theorem IsCopied.graft {copies : Nat} (copied : record.IsCopied (entered functions 1) copies)
    (stacked : record.IsStacked)
    (grafted : (graft record (entered functions 1)).IsStacked) :
    (ScopeRecord.graft record (entered functions 1)).IsCopied (entered functions 1)
      (copies + 1) := by
  have tabled := entered_once_isTabled fine
  have count := entered_once_length fine
  have offset := copied.offset_eq fine
  refine ⟨?_, ?_, fun copy small id held => ?_⟩
  · have shifted : (List.range' 1 functions.length).map (shift record.offset) =
        List.range' (1 + record.offset) functions.length := by
      rw [Nat.add_comm 1, ← List.map_add_range']
      refine List.map_congr_left fun id held => ?_
      have positive := (List.mem_range'_1.mp held).1
      rw [shift_of_ne (Nat.ne_of_gt positive), Nat.add_comm]
    unfold ScopeRecord.graft
    rw [copied.functions, tabled.functions, shifted, List.length_range', offset,
      List.range'_append_1, ← Nat.succ_mul]
  · unfold ScopeRecord.graft
    rw [copied.scopes, List.range_succ, List.flatMap_append, List.flatMap_singleton, count, offset,
      List.append_assoc]
  · have known := tabled.functions_lt id held
    unfold ScopeRecord.depth
    rcases Nat.lt_succ_iff_lt_or_eq.mp (Nat.lt_succ_of_le small) with before | last
    · have old : shift (copy * (entered functions 1).functions.length) id <
          record.scopes.length := by
        obtain ⟨positive, bound⟩ := List.mem_range'_1.mp (tabled.functions ▸ held)
        have apart := Nat.mul_le_mul_right functions.length (Nat.le_of_lt_succ before)
        have sum (place : Nat) (bound : place < 1 + functions.length) :
            place + copy * functions.length <
              copies * functions.length + functions.length + 1 := by omega
        rw [shift_of_ne (Nat.ne_of_gt positive), stacked.length_eq, offset, count, Nat.succ_mul]
        exact sum id bound
      have frames : record.frames <+: (ScopeRecord.graft record (entered functions 1)).frames := by
        refine ⟨((entered functions 1).scopes.drop 1).map
          (frame ∘ Scope.shifted record.offset), ?_⟩
        unfold ScopeRecord.frames ScopeRecord.graft
        rw [List.map_append, List.map_map]
      rw [chain_of_base stacked grafted frames old]
      exact copied.depth copy (Nat.le_of_lt_succ before) id held
    · rw [last, count, ← offset, chain_graft stacked tabled.stacked grafted known, List.length_map]

end Once

/-- The open scopes of a graft exclude what those of the upper record exclude. -/
theorem Excludes.graft {base : ScopeRecord} (stacked : base.IsStacked) (inner : record.IsStacked)
    (outside : record.Excludes function) :
    (ScopeRecord.graft base record).Excludes function := by
  intro id held other
  have opened : (ScopeRecord.graft base record).openScopes =
      record.openScopes.map (shift base.offset) := rfl
  rw [opened] at held
  obtain ⟨place, among, rfl⟩ := List.mem_map.mp held
  have apart : place ≠ programId := fun same => other (shift_eq_program_iff.mpr same)
  rw [scope_graft_of_ne stacked (inner.open_lt place among) apart, holdsBodyOf_shifted]
  exact outside place among apart

section First

variable {rest : List Node} (fine : (initial.enterAll (function :: rest)).2 = .ok ())

include fine

end First

end ScopeRecord

/-! ## Sessions -/

namespace Session

def times (session : Session) (root : Node) : Nat → Session
  | 0 => session
  | count + 1 => ((session.times root count).render (.node root) {}).1

section

variable {options : Options} {log : List Diagnostic} {root : Node}

variable {text : String}
  (fine : (Session.render ⟨options, log, .scoping .initial⟩ (.node root) {}).2 = .ok text)

include fine

end

end Session

end PhpRendering
