import PhpRendering.Naming
import PhpRendering.Proofs.Brackets
import PhpRendering.Scalar

/-!
# Plain texts

A text is plain when it avoids some special characters, which are brackets or the
semicolon. The texts that are made for numbers are plain, and quoting a text or writing
it with a capital adds no special characters.
-/

namespace PhpRendering

namespace Text

def brackets : List Char :=
  ['(', ')', '[', ']', '\x7b', '\x7d']

def delimiters : List Char :=
  ';' :: brackets

def Avoids (special : List Char) (text : String) : Prop :=
  ∀ letter ∈ text.toList, letter ∉ special

-- The check runs through the letters of the text. Any quantifier over letters could be decided
-- by running through all letters there are, which takes too long.
instance (special : List Char) (text : String) : Decidable (Avoids special text) :=
  decidable_of_iff (text.toList.all (!special.contains ·) = true) (by simp [Avoids])

namespace Avoids

variable {special : List Char}

@[simp]
theorem append_iff {first second : String} :
    Avoids special (first ++ second) ↔ Avoids special first ∧ Avoids special second := by
  unfold Avoids
  rw [String.toList_append]
  exact List.forall_mem_append

@[simp]
theorem ofList_iff {letters : List Char} :
    Avoids special (String.ofList letters) ↔ ∀ letter ∈ letters, letter ∉ special := by
  unfold Avoids
  rw [String.toList_ofList]

/-- Fewer special characters are easier to avoid. -/
theorem mono {more : List Char} {text : String} (avoids : Avoids more text)
    (fewer : special ⊆ more) : Avoids special text :=
  fun letter inside among => avoids letter inside (fewer among)

/-- A text without brackets has an empty word. -/
theorem marks_eq_nil {text : String} (avoids : Avoids brackets text) : marks text = [] := by
  unfold marks
  refine List.filterMap_eq_nil_iff.mpr fun letter inside => ?_
  have other := avoids letter inside
  unfold Mark.ofChar?
  split <;> first | rfl | exact absurd (by decide) other

end Avoids

theorem brackets_subset : brackets ⊆ delimiters :=
  List.subset_cons_self _ _

/-! ## Texts of numbers -/

theorem digit_avoids {letter : Char} (digit : letter.isDigit = true) : letter ∉ delimiters := by
  have table : delimiters.all (!·.isDigit) = true := rfl
  intro among
  have other := List.all_eq_true.mp table letter among
  rw [digit] at other
  cases other

theorem toDigits_avoid (number : Nat) : ∀ letter ∈ Nat.toDigits 10 number, letter ∉ delimiters :=
  fun _ inside => digit_avoids (Nat.isDigit_of_mem_toDigits (by decide) (by decide) inside)

theorem avoids_nat (number : Nat) : Avoids delimiters (toString number) := by
  rw [Nat.toString_eq_ofList_toDigits, Avoids.ofList_iff]
  exact toDigits_avoid number

theorem avoids_int (number : Int) : Avoids delimiters (toString number) := by
  rw [Int.toString_eq_repr, Int.repr_eq_if]
  split
  · exact avoids_nat _
  · exact Avoids.append_iff.mpr ⟨by decide, avoids_nat _⟩

theorem avoids_atLeastTwoDigits (number : Nat) :
    Avoids delimiters (Number.atLeastTwoDigits number) := by
  unfold Number.atLeastTwoDigits
  split
  · exact Avoids.append_iff.mpr ⟨by decide, avoids_nat number⟩
  · exact avoids_nat number

theorem avoids_decimal (decimal : Number.Decimal) : Avoids delimiters decimal.text := by
  have digits := toDigits_avoid decimal.digits
  have zeros (count : Nat) : ∀ letter ∈ List.replicate count '0', letter ∉ delimiters := by
    intro letter inside
    rw [List.eq_of_mem_replicate inside]
    decide
  have front (count : Nat) := fun letter inside =>
    digits letter (List.mem_of_mem_take (i := count) inside)
  have back (count : Nat) := fun letter inside =>
    digits letter (List.mem_of_mem_drop (i := count) inside)
  simp only [Number.Decimal.text]
  split
  · split
    · simp only [Avoids.append_iff, Avoids.ofList_iff, List.forall_mem_append]
      exact ⟨by decide, zeros _, digits⟩
    · split
      · simp only [Avoids.append_iff, Avoids.ofList_iff]
        exact ⟨⟨front _, by decide⟩, back _⟩
      · simp only [Avoids.append_iff, Avoids.ofList_iff, List.forall_mem_append]
        exact ⟨⟨digits, zeros _⟩, by decide⟩
  · simp only [Avoids.append_iff, Avoids.ofList_iff]
    refine ⟨⟨⟨⟨front 1, ?_⟩, by decide⟩, ?_⟩, avoids_atLeastTwoDigits _⟩
    · split
      · decide
      · exact Avoids.append_iff.mpr ⟨by decide, Avoids.ofList_iff.mpr (back 1)⟩
    · split
      · decide
      · decide

theorem avoids_binary64 (number : Number.Binary64) : Avoids delimiters number.text := by
  cases number with
  | infinite negative => cases negative <;> decide
  | finite negative significand exponent =>
      have sign : Avoids delimiters (if negative then "-" else "") := by
        cases negative <;> decide
      simp only [Number.Binary64.text]
      split
      · exact Avoids.append_iff.mpr ⟨sign, by decide⟩
      · exact Avoids.append_iff.mpr ⟨sign, avoids_decimal _⟩

/-! ## Quoted and capitalised texts -/

variable {special : List Char}

theorem withBackslashes_avoids (few : special ⊆ delimiters) (escaped : Char → Bool)
    {letters : List Char} (avoid : ∀ letter ∈ letters, letter ∉ special) :
    ∀ letter ∈ withBackslashes escaped letters, letter ∉ special := by
  have backslash : '\\' ∉ special := fun among => absurd (few among) (by decide)
  induction letters with
  | nil => exact avoid
  | cons first rest ih =>
      obtain ⟨head, tail⟩ := List.forall_mem_cons.mp avoid
      unfold withBackslashes
      split
      · exact List.forall_mem_cons.mpr ⟨backslash, List.forall_mem_cons.mpr ⟨head, ih tail⟩⟩
      · exact List.forall_mem_cons.mpr ⟨head, ih tail⟩

theorem Avoids.singleQuoted (few : special ⊆ delimiters) {text : String}
    (avoids : Avoids special text) : Avoids special (singleQuoted text) := by
  have quote : '\'' ∉ special := fun among => absurd (few among) (by decide)
  unfold Text.singleQuoted
  rw [ofList_iff, List.forall_mem_append]
  exact ⟨List.forall_mem_cons.mpr ⟨quote, withBackslashes_avoids few _ avoids⟩,
    List.forall_mem_singleton.mpr quote⟩

theorem Avoids.doubleQuoted (few : special ⊆ delimiters) {text : String}
    (avoids : Avoids special text) : Avoids special (doubleQuoted text) := by
  have quote : '"' ∉ special := fun among => absurd (few among) (by decide)
  unfold Text.doubleQuoted
  rw [ofList_iff, List.forall_mem_append]
  exact ⟨List.forall_mem_cons.mpr ⟨quote, withBackslashes_avoids few _ avoids⟩,
    List.forall_mem_singleton.mpr quote⟩

/-- A code stands for its own character, or for the null character when there is none. -/
theorem toNat_ofNat (code : Nat) : (Char.ofNat code).toNat = code ∨ Char.ofNat code = '\x00' := by
  by_cases valid : code.isValidChar
  · exact .inl (congrArg Char.toNat (dif_pos valid))
  · exact .inr (dif_neg valid)

/-- No run of characters has a delimiter among its uppercase forms. -/
theorem caseRuns_avoid : ∀ run ∈ caseRuns, ∀ letter ∈ delimiters,
    ¬ (run.first + run.offset ≤ (letter.toNat : Int) ∧
      (letter.toNat : Int) ≤ run.last + run.offset) := by
  have codes : ∀ run ∈ caseRuns, ∀ code ∈ delimiters.map Char.toNat,
      ¬ (run.first + run.offset ≤ (code : Int) ∧ (code : Int) ≤ run.last + run.offset) := by
    decide +kernel
  exact fun run listed letter among => codes run listed _ (List.mem_map_of_mem among)

theorem specialUppercase_avoids : ∀ entry ∈ specialUppercase, ∀ code ∈ entry.2,
    Char.ofNat code ∉ delimiters := by
  decide

/-- Only a delimiter has a delimiter in its uppercase form. -/
theorem uppercase_avoids (few : special ⊆ delimiters) {letter : Char} (avoids : letter ∉ special) :
    ∀ upper ∈ uppercase letter, upper ∉ special := by
  unfold uppercase
  split
  · next codes found =>
      obtain ⟨before, after, same, -⟩ := List.lookup_eq_some_iff.mp found
      have listed : (letter.toNat, codes) ∈ specialUppercase :=
        same ▸ List.mem_append_right _ (List.mem_cons_self ..)
      refine List.forall_mem_map.mpr fun code inside among => ?_
      exact specialUppercase_avoids _ listed code inside (few among)
  · split
    · next run found =>
        refine List.forall_mem_singleton.mpr fun among => ?_
        have contained : run.contains letter.toNat = true :=
          (List.find?_eq_some_iff_append.mp found).1
        simp only [CaseRun.contains, Bool.and_eq_true, decide_eq_true_eq] at contained
        have outside := caseRuns_avoid run (List.mem_of_find?_eq_some found) _ (few among)
        have null : '\x00' ∉ special := fun held => absurd (few held) (by decide)
        rcases toNat_ofNat (letter.toNat + run.offset).toNat with own | absent
        · rw [own] at outside
          have visible : ∀ code ∈ delimiters.map Char.toNat, 0 < code := by decide
          have positive := visible _ (List.mem_map_of_mem (few among))
          rw [own] at positive
          omega
        · rw [absent] at among
          exact null among
    · exact List.forall_mem_singleton.mpr avoids

theorem Avoids.capitalised (few : special ⊆ delimiters) {text : String}
    (avoids : Avoids special text) : Avoids special (capitalised text) := by
  unfold Text.capitalised
  split
  · intro letter inside
    cases inside
  · next first rest letters =>
      have parts : ∀ letter ∈ first :: rest, letter ∉ special := letters ▸ avoids
      obtain ⟨head, tail⟩ := List.forall_mem_cons.mp parts
      rw [ofList_iff, List.forall_mem_append]
      exact ⟨uppercase_avoids few head, tail⟩

/-! ## Vocabularies -/

/-- A set of texts that holds all texts without delimiters and all quotations of its own. -/
structure Vocabulary (admits : String → Prop) : Prop where
  basic : ∀ {text}, Avoids delimiters text → admits text
  singleQuoted : ∀ {text}, admits text → admits (Text.singleQuoted text)

theorem Vocabulary.empty {admits : String → Prop} (vocabulary : Vocabulary admits) : admits "" :=
  vocabulary.basic (List.forall_mem_nil _)

/-- The texts that avoid some of the delimiters. -/
theorem avoids_vocabulary (few : special ⊆ delimiters) : Vocabulary (Avoids special) :=
  ⟨fun avoids => avoids.mono few, Avoids.singleQuoted few⟩

theorem bracketless : Vocabulary (Avoids brackets) :=
  avoids_vocabulary brackets_subset

theorem undelimited : Vocabulary (Avoids delimiters) :=
  avoids_vocabulary (List.Subset.refl _)

end Text

end PhpRendering
