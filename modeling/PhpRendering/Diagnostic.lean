import PhpRendering.Tree.Basic

/-!
# Diagnostics

A diagnostic records a node that was left out of the output. Either its kind, or
a form of its kind, has no rendering, or a field that its kind requires is
missing. The log of a run keeps the diagnostics in the order of their reports.
-/

namespace PhpRendering

inductive Category where
  | unsupported
  | malformed
deriving DecidableEq, Repr

def Category.word : Category → String
  | unsupported => "unsupported"
  | malformed => "malformed"

/-- Why one node was left out. An unsupported kind has an empty feature; a
feature names a form of an otherwise supported kind. -/
inductive Cause where
  | unsupported (feature : String)
  | missing (field : String)
deriving DecidableEq, Repr

/-- A node left out of the output. -/
structure Diagnostic where
  kind : String
  cause : Cause
  line : Json

namespace Diagnostic

def unsupported (node : Node) (feature : String) : Diagnostic :=
  ⟨node.kind, .unsupported feature, node.line⟩

def ofMissing (missing : Missing) : Diagnostic :=
  ⟨missing.kind, .missing missing.field, missing.line⟩

def category (diagnostic : Diagnostic) : Category :=
  match diagnostic.cause with
  | .unsupported _ => .unsupported
  | .missing _ => .malformed

def detail (diagnostic : Diagnostic) : String :=
  match diagnostic.cause with
  | .unsupported feature =>
      if feature = "" then "'" ++ diagnostic.kind ++ "' not implemented."
      else "'" ++ diagnostic.kind ++ "' with " ++ feature ++ " not implemented."
  | .missing field =>
      "'" ++ diagnostic.kind ++ "' is missing required field '" ++ field ++ "'."

def report (diagnostic : Diagnostic) : String :=
  let place := if diagnostic.line.isNull then "" else "line " ++ diagnostic.line.shown ++ ": "
  "  " ++ place ++ diagnostic.detail

end Diagnostic

/-! ## Summaries -/

def countInOrder {α : Type} [BEq α] (keys : List α) : List (α × Nat) :=
  keys.eraseDups.map fun key => (key, keys.count key)

def reportedKinds (log : List Diagnostic) (category : Option Category) : List String :=
  (log.filter fun diagnostic =>
    match category with
    | none => true
    | some wanted => diagnostic.category == wanted).map Diagnostic.kind

def countsByCategory (log : List Diagnostic) : List (Category × Nat) :=
  countInOrder (log.map Diagnostic.category)

def countsByKind (log : List Diagnostic) : List (String × Nat) :=
  countInOrder (log.map Diagnostic.kind)

/-- The lines of a summary: the total, the counts by category and all reports. -/
def summaryLines (log : List Diagnostic) : List String :=
  let head := ["=== Translation Diagnostics ===", "Total diagnostics: " ++ toString log.length]
  if log.isEmpty then head
  else
    head ++ ["", "By category:"]
      ++ (countsByCategory log).map (fun entry => "  " ++ entry.1.word ++ ": " ++ toString entry.2)
      ++ ["", "Details:"] ++ log.map Diagnostic.report

def summary (log : List Diagnostic) : String :=
  Text.separatedBy "\n" (summaryLines log)

end PhpRendering
