/-! Journals: what happened on the way to an answer, in order. -/

namespace SimdNetwork

/-- How much an entry matters. -/
inductive Level where
  | trace
  | debug
  | info
  deriving DecidableEq, Repr

/-- The level's name. -/
def Level.name : Level → String
  | .trace => "TRACE"
  | .debug => "DEBUG"
  | .info => "INFO"

/-- One entry of a journal. -/
structure Entry where
  /-- How much it matters. -/
  level : Level
  /-- What happened. -/
  message : String
  deriving DecidableEq, Repr

/-- The entry as one line. -/
def Entry.line (entry : Entry) : String := entry.level.name ++ " " ++ entry.message

/-- What happened on the way to an answer, earliest first. -/
abbrev Journal : Type := List Entry

end SimdNetwork
