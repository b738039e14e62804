/-!
# Notices

While it works, the library gives notices about what is going on. A noted result is a result, or
the reason why there is none, together with the notices given on the way; they are kept even when
a later step fails.
-/

namespace CodeGraph

/-- How much a notice matters. -/
inductive NoticeLevel where
  /-- Details of the work. -/
  | debug
  /-- Progress. -/
  | info
  /-- Something is not as it should be. -/
  | warning
deriving DecidableEq, Repr

namespace NoticeLevel

/-- The level's name. -/
def label : NoticeLevel → String
  | .debug => "DEBUG"
  | .info => "INFO"
  | .warning => "WARNING"

end NoticeLevel

/-- A line about what is going on. -/
structure Notice where
  /-- How much it matters. -/
  level : NoticeLevel
  /-- The notice in words. -/
  message : String
deriving DecidableEq, Repr

/-- A result, or the reason why there is none, with the notices given on the way. -/
structure Noted (ε α : Type) where
  /-- The notices in the order in which they were given. -/
  notices : List Notice
  /-- What came of it. -/
  outcome : Except ε α

namespace Noted

/-- A step without notices. -/
def ofExcept {ε α : Type} (outcome : Except ε α) : Noted ε α :=
  { notices := [], outcome }

/-- A step that gives notices. -/
def tell {ε : Type} (notices : List Notice) : Noted ε Unit :=
  { notices, outcome := .ok () }

/-- A step whose failure is told in other terms. -/
def mapError {ε ε' α : Type} (step : Noted ε α) (rename : ε → ε') : Noted ε' α :=
  { notices := step.notices, outcome := step.outcome.mapError rename }

/-- Goes on with the result of a step; a failed step ends the run. -/
def andThen {ε α β : Type} (step : Noted ε α) (next : α → Noted ε β) : Noted ε β :=
  match step.outcome with
  | .ok value =>
      let rest := next value
      { notices := step.notices ++ rest.notices, outcome := rest.outcome }
  | .error error => { notices := step.notices, outcome := .error error }

instance {ε : Type} : Monad (Noted ε) where
  pure value := { notices := [], outcome := .ok value }
  bind := andThen

end Noted

end CodeGraph
