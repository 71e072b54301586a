/-!
# Log records

A record has a level, the part of the program it comes from, and a text.  How much is kept is set
by a *verbosity*: nothing, or everything up to a level.

* `Level`, `Verbosity.admits` — what is kept;
* `Record.line` — a record as one line of text.
-/

namespace SdHost.Log

/-- How urgent a record is, the most urgent first. -/
inductive Level where
  | error
  | warn
  | info
  | debug
  | trace
  deriving DecidableEq, Repr

namespace Level

/-- The place of a level in the order of urgency. -/
def rank : Level → Nat
  | error => 1
  | warn => 2
  | info => 3
  | debug => 4
  | trace => 5

/-- The name of a level. -/
def name : Level → String
  | error => "ERROR"
  | warn => "WARN"
  | info => "INFO"
  | debug => "DEBUG"
  | trace => "TRACE"

/-- The name of a level, filled up to five characters. -/
def tag (l : Level) : String := l.name.pushn ' ' (5 - l.name.length)

end Level

/-- Which records are kept. -/
inductive Verbosity where
  /-- None. -/
  | off
  /-- Those at least as urgent as a level. -/
  | upTo (level : Level)
  deriving DecidableEq, Repr

namespace Verbosity

/-- Whether records of a level are kept. -/
def admits : Verbosity → Level → Bool
  | off, _ => false
  | upTo least, level => level.rank ≤ least.rank

/-- The name of a verbosity. -/
def name : Verbosity → String
  | off => "OFF"
  | upTo level => level.name

end Verbosity

/-- One log record. -/
structure Record where
  level : Level
  /-- The part of the program that speaks. -/
  source : String
  text : String
  deriving DecidableEq, Repr

/-- A record as a line, without its end. -/
def Record.line (r : Record) : String := "[" ++ r.level.tag ++ "] " ++ r.source ++ ": " ++ r.text

end SdHost.Log
