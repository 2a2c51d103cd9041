/-!
# Quoted strings of the target

A single-quoted string has two escapes, for the backslash and for the quote. A
double-quoted string has a third one for the dollar sign, which would start an
interpolation. Everything else stands for itself.
-/

namespace PhpRendering.Text

def withBackslashes (escaped : Char → Bool) : List Char → List Char
  | [] => []
  | letter :: rest =>
      if escaped letter then '\\' :: letter :: withBackslashes escaped rest
      else letter :: withBackslashes escaped rest

def isSingleQuoteEscaped (letter : Char) : Bool :=
  letter == '\\' || letter == '\''

def isDoubleQuoteEscaped (letter : Char) : Bool :=
  letter == '\\' || letter == '"' || letter == '$'

def singleQuoted (text : String) : String :=
  String.ofList ('\'' :: withBackslashes isSingleQuoteEscaped text.toList ++ ['\''])

def doubleQuoted (text : String) : String :=
  String.ofList ('"' :: withBackslashes isDoubleQuoteEscaped text.toList ++ ['"'])

end PhpRendering.Text
