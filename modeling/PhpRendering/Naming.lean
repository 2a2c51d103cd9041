import PhpRendering.Text.Uppercase

/-!
# Names in the target

How names are written in PHP: variables with a dollar sign, the constructor
under the name that PHP expects, and modules as capitalised namespaces.
-/

namespace PhpRendering.Naming

def selfReference : String := "$this"

/-- The variable that takes the values of a loop over keys. -/
def discardedValue : String := "$___"

def constructorKey : String := "constructor"

def namespaceSeparator : String := "\\"

def variableName (name : String) : String :=
  "$" ++ name

def methodName (constructorName name : String) : String :=
  if name = constructorKey then constructorName else name

def moduleNamespace (moduleName : String) : String :=
  Text.capitalised moduleName

def qualifiedImport (moduleName name : String) : String :=
  namespaceSeparator ++ moduleNamespace moduleName ++ namespaceSeparator ++ name

end PhpRendering.Naming
