import SdHost.Log.Record

/-!
# The logger

A program has one logger, which writes the records it keeps to one sink.

* `Logger.log` — writes a record as a line; while the sink is being written to, further records
  are dropped rather than waited for, and a sink that fails loses the record silently;
* `Logger.setVerbosity` — changes what is kept from now on;
* `Logger.install` — a second logger is refused and changes nothing.
-/

namespace SdHost.Log

/-- Where lines go. -/
structure Sink where
  text : String := ""
  /-- Writing fails, and nothing is added. -/
  broken : Bool := false

/-- Adds a line, unless the sink fails. -/
def Sink.write (s : Sink) (line : String) : Sink :=
  if s.broken then s else { s with text := s.text ++ line ++ "\n" }

/-- The installed logger. -/
structure Logger where
  verbosity : Verbosity
  sink : Sink := {}
  /-- Somebody is writing to the sink. -/
  inUse : Bool := false

namespace Logger

/-- Why a logger was not installed. -/
inductive InstallError where
  | alreadyInstalled
  deriving DecidableEq, Repr

/-- What is said about a refused installation. -/
def InstallError.message : InstallError → String
  | alreadyInstalled =>
    "attempted to set a logger after the logging system was already initialized"

/-- Keeps records up to another verbosity from now on. -/
def setVerbosity (l : Logger) (v : Verbosity) : Logger := { l with verbosity := v }

/-- Offers a record: it is written if its level is kept and nobody is writing. -/
def log (l : Logger) (r : Record) : Logger :=
  if l.verbosity.admits r.level && !l.inUse then { l with sink := l.sink.write r.line } else l

/-- Offers a record to a sink that itself offers `nested` records whenever it is written to. -/
def logReentering (l : Logger) (r : Record) (nested : List Record) : Logger :=
  if l.verbosity.admits r.level && !l.inUse then
    let during := nested.foldl log { l with inUse := true }
    { during with sink := during.sink.write r.line, inUse := false }
  else l

/-- The length of what has been written, in bytes. -/
def bytesWritten (l : Logger) : Nat := l.sink.text.utf8ByteSize

/-- Asks for a second logger beside the installed one. -/
def install (l : Logger) (_ : Verbosity) : Except InstallError Unit × Logger :=
  (.error .alreadyInstalled, l)

/-- A logger whose sink is being written to keeps nothing. -/
theorem log_of_inUse (l : Logger) (r : Record) (h : l.inUse = true) : l.log r = l := by
  simp [log, h]

end Logger

end SdHost.Log
