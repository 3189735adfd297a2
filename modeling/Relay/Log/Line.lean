/-!
# `Relay.Log.Line`: what the relay notes down

A line of the log has a level, the part of the relay that it comes from, and a text.
-/

set_option autoImplicit false

namespace Relay

/-- How much a line matters. -/
inductive LogLevel where
  /-- Something failed. -/
  | error
  /-- Something is not as it should be. -/
  | warn
  /-- Something that happens rarely. -/
  | info
  /-- Something that happens for every connection. -/
  | debug
  /-- Anything. -/
  | trace
deriving DecidableEq

namespace LogLevel

/-- The levels, those that matter most first. -/
def all : List LogLevel := [error, warn, info, debug, trace]

/-- The number of a level, from one. -/
def rank : LogLevel → Nat
  | error => 1
  | warn => 2
  | info => 3
  | debug => 4
  | trace => 5

/-- The name of a level. -/
def label : LogLevel → String
  | error => "ERROR"
  | warn => "WARN"
  | info => "INFO"
  | debug => "DEBUG"
  | trace => "TRACE"

end LogLevel

/-- A line of the log. -/
structure LogLine where
  /-- How much it matters. -/
  level : LogLevel
  /-- The part of the relay that it comes from; parts of a part are set off by `::`. -/
  source : String
  /-- What it says. -/
  text : String
deriving DecidableEq

namespace LogLine

/-- A line of the process itself. -/
def process (level : LogLevel) (text : String) : LogLine := ⟨level, "mrps", text⟩

/-- A line of the loop that takes connections. -/
def loop (level : LogLevel) (text : String) : LogLine := ⟨level, "mrps::server", text⟩

/-- The names of the fields of a line: it has its text and no others. -/
def fields (_line : LogLine) : List String := ["message"]

/-- A line as it is written, without the time. -/
def toText (line : LogLine) : String :=
  let level := line.level.label
  s!"{level} {line.source}: {line.text}"

end LogLine

end Relay
