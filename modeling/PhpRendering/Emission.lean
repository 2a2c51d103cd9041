import PhpRendering.Diagnostic

/-!
# Emissions

An emission is the trace of rendering a part of a tree: the events on the way,
in order, and the result or the failure at the end. Events are diagnostics and
the functions that were entered.

Inside a rule a failure is either a missing field, which the boundary of the
node turns into a diagnostic, or a crash, which no boundary stops.
-/

namespace PhpRendering

/-- Something that happens while a tree is rendered. -/
inductive Event where
  | reported (diagnostic : Diagnostic)
  | entered (function : Node)

/-- A failure inside the rule of a node. -/
inductive Fault where
  | missing (missing : Missing)
  | crash (crash : Crash)

structure Emission (ε α : Type) where
  events : List Event
  outcome : Except ε α

namespace Emission

variable {ε α β : Type}

def done (result : α) : Emission ε α :=
  ⟨[], .ok result⟩

def fail (failure : ε) : Emission ε α :=
  ⟨[], .error failure⟩

def andThen (first : Emission ε α) (next : α → Emission ε β) : Emission ε β :=
  match first.outcome with
  | .ok result =>
      let second := next result
      ⟨first.events ++ second.events, second.outcome⟩
  | .error failure => ⟨first.events, .error failure⟩

instance : Monad (Emission ε) where
  pure := done
  bind := andThen

/-! ## Laws of sequencing -/

@[simp]
theorem pure_eq (result : α) : (pure result : Emission ε α) = done result := rfl

@[simp]
theorem bind_eq (first : Emission ε α) (next : α → Emission ε β) :
    first >>= next = first.andThen next := rfl

@[simp]
theorem done_andThen (result : α) (next : α → Emission ε β) :
    (done result).andThen next = next result := by
  simp [andThen, done]

@[simp]
theorem fail_andThen (failure : ε) (next : α → Emission ε β) :
    (fail failure : Emission ε α).andThen next = fail failure := rfl

@[simp]
theorem andThen_done (first : Emission ε α) : first.andThen done = first := by
  obtain ⟨events, outcome⟩ := first
  cases outcome with
  | error failure => rfl
  | ok result => simp [andThen, done]

theorem andThen_assoc {γ : Type} (first : Emission ε α) (second : α → Emission ε β)
    (third : β → Emission ε γ) :
    (first.andThen second).andThen third =
      first.andThen fun result => (second result).andThen third := by
  obtain ⟨events, outcome⟩ := first
  cases outcome with
  | error failure => rfl
  | ok result =>
      simp only [andThen]
      cases (second result).outcome with
      | error failure => rfl
      | ok middle => simp [List.append_assoc]

instance : LawfulMonad (Emission ε) :=
  LawfulMonad.mk' (Emission ε)
    (fun emission => andThen_done emission)
    (fun result next => done_andThen result next)
    (fun first second third => andThen_assoc first second third)

/-! ## Ways to emit -/

def signal (event : Event) : Emission ε Unit :=
  ⟨[event], .ok ()⟩

def report (diagnostic : Diagnostic) : Emission ε Unit :=
  signal (.reported diagnostic)

/-- The same events with the failure seen from inside a rule. -/
def insideRule (emission : Emission Crash α) : Emission Fault α :=
  match emission.outcome with
  | .ok result => ⟨emission.events, .ok result⟩
  | .error crash => ⟨emission.events, .error (.crash crash)⟩

/-- The result of an access to a value, seen from inside a rule. -/
def ofShape (result : Except Crash α) : Emission Fault α :=
  ⟨[], result.mapError .crash⟩

def ofFields (result : Except Missing α) : Emission Fault α :=
  ⟨[], result.mapError .missing⟩

def each (emit : α → Emission ε β) : List α → Emission ε (List β)
  | [] => done []
  | item :: rest => do
      let result ← emit item
      let results ← each emit rest
      return result :: results

end Emission

end PhpRendering
