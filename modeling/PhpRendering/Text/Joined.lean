/-!
# Joined texts

Texts one after another, with or without a separator between them.
-/

namespace PhpRendering.Text

def joined : List String → String
  | [] => ""
  | first :: rest => first ++ joined rest

def separatedBy (separator : String) : List String → String
  | [] => ""
  | [only] => only
  | first :: rest => first ++ separator ++ separatedBy separator rest

@[simp]
theorem joined_nil : joined [] = "" := rfl

@[simp]
theorem joined_cons (first : String) (rest : List String) :
    joined (first :: rest) = first ++ joined rest := rfl

@[simp]
theorem separatedBy_nil (separator : String) : separatedBy separator [] = "" := rfl

@[simp]
theorem separatedBy_singleton (separator only : String) :
    separatedBy separator [only] = only := rfl

theorem separatedBy_cons_cons (separator first second : String) (rest : List String) :
    separatedBy separator (first :: second :: rest) =
      first ++ separator ++ separatedBy separator (second :: rest) := rfl

end PhpRendering.Text
