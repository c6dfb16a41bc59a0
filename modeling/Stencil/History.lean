import Stencil.Config

/-!
# Histories

An engine is used by a sequence of operations. Some operations come in two
forms: in place, where a failure may leave part of the work done, and consuming,
where the operation works on a copy that replaces the engine only if it
succeeds. Each operation leaves an engine and an outcome, and after a failure
the history goes on with the engine that is left.
-/

namespace Stencil

/-- How an operation treats the engine it works on. -/
inductive Form where
  /-- It changes the engine itself. -/
  | inPlace
  /-- It changes a copy, which replaces the engine on success. -/
  | consuming
  deriving DecidableEq

/-- An operation on an engine. -/
inductive Operation where
  /-- Set the delimiter. -/
  | setDelimiter (form : Form) (delimiter : Text)
  /-- Bind one name. -/
  | bind (form : Form) (name value : Text)
  /-- Bind names in order, up to the first that is refused. -/
  | bindAll (form : Form) (entries : Entries Text)
  /-- Set the default. -/
  | setFallback (form : Form) (value : Text)
  /-- Apply a configuration. -/
  | configure (config : Config)
  /-- Compile the text. -/
  | compile

/-- What an operation answers: a text if it compiles, nothing if it sets something. -/
abbrev Outcome := Except Fault (Option Text)

namespace Engine

/-- The engine and the outcome of an operation that changes nothing if it fails. -/
def commit (e : Engine) : Except Fault Engine → Engine × Outcome
  | .ok e' => (e', .ok none)
  | .error fault => (e, .error fault)

/-- The engine that an operation leaves, and its outcome. -/
def step (e : Engine) : Operation → Engine × Outcome
  | .setDelimiter _ delimiter => (e.setDelimiter delimiter, .ok none)
  | .bind _ name value => e.commit (e.bind name value)
  | .bindAll .inPlace entries =>
    let (e, outcome) := e.bindEach entries
    (e, outcome.map fun _ => none)
  | .bindAll .consuming entries => e.commit (e.bindAll entries)
  | .setFallback _ value => e.commit (e.setFallback value)
  | .configure config => e.commit (config.apply e)
  | .compile =>
    match e.compile with
    | .ok (text, e) => (e, .ok (some text))
    | .error fault => (e, .error fault)

/-- The engine that a sequence of operations leaves, and the outcome of each. -/
def run (e : Engine) : List Operation → Engine × List Outcome
  | [] => (e, [])
  | op :: ops =>
    let (e, outcome) := e.step op
    let (e, outcomes) := e.run ops
    (e, outcome :: outcomes)

end Engine

end Stencil
