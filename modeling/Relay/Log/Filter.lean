import Relay.Log.Line
import Relay.Log.Pattern.Parser
import Relay.Text.Decimal
import Relay.Violation

/-!
# `Relay.Log.Filter`: which lines are written

A filter is a list of directives, separated by commas:

    warn                     lines of any source, down to this level
    mrps::server=info        lines of sources whose name begins like this
    mrps                     all lines of such sources
    mrps[{message}]=info     those of them that have this field
    mrps[work]=info          those of them that are noted while this span is open
    mrps[{user=a.*}]=info    the same for spans with a field that matches a pattern

Of the directives that hold for a line the one with the longest source decides, of two with the
same source one that asks for a field, and of two alike the later (`LogFilter.permits`); a line for
which none holds is not written at all. Levels are names in any case or numbers from 0, which is
off, to 5.

The relay never opens a span, so directives that ask for one never hold. They must be well formed
all the same: one malformed directive makes the whole setting void. A setting that would cut a
character in two is worse: the relay stops (`LogFilter.choose`).
-/

set_option autoImplicit false

namespace Relay

/-- A field that a directive asks for. -/
structure LogField where
  /-- The name of the field. -/
  name : String
  /-- What its value is compared with; only fields of spans are ever compared. -/
  value : Option String
deriving DecidableEq

/-- How many levels are written of some lines. -/
structure LogDirective where
  /-- What the names of the sources begin with; all do with the empty text. -/
  source : String
  /-- The span that has to be open. -/
  span : Option String := none
  /-- The field that has to be there. -/
  field : Option LogField := none
  /-- The number of the last level that is written. -/
  depth : Nat
deriving DecidableEq

/-- Which lines are written. -/
structure LogFilter where
  /-- The directives, in the order in which they were given. -/
  directives : List LogDirective
deriving DecidableEq

/-- Why a text is no filter. -/
inductive LogFault where
  /-- A directive does not have the form of one. -/
  | malformed
  /-- A part of a directive would begin or end within a character. -/
  | splitCharacter
deriving DecidableEq

namespace LogField

/-- Whether a text may stand for a value: it is a pattern or a number. Numbers are patterns too,
except those with a plus sign, which would repeat nothing. -/
def isValue (text : String) : Bool :=
  Pattern.isWellFormed text.toList ||
    match text.toList with
    | '+' :: number => Decimal.isReal number
    | _ => false

/-- The field that a text between braces asks for: a name, and a value after `=`. What follows a
second `=` is passed over. -/
def parse? (text : String) : Option LogField :=
  match text.splitOn "=" with
  | [] => none
  | [name] => if name.isEmpty then none else some ⟨name, none⟩
  | name :: value :: _ => if isValue value then some ⟨name, some value⟩ else none

end LogField

namespace LogDirective

/-! ### Levels -/

/-- The number of a level that is given as a name or a number. -/
def depth? (text : String) : Option Nat :=
  let name := String.ofList (text.toList.map Char.toUpper)
  match Decimal.unsigned? text.toList with
  | some depth => if depth ≤ LogLevel.trace.rank then some depth else none
  | none =>
    if name = "OFF" then some 0
    else (LogLevel.all.find? fun level => level.label == name).map LogLevel.rank

/-! ### Parts of a text

The parts of a directive are found as if the blanks around it were not there, and then cut out of
its whole text at the distances from the beginning that were found. So a blank before a directive
moves all its parts: the directive ` info` asks for sources that begin with ` info`. A cut that
falls into a character is a fault of its own, and the first fault counts.
-/

/-- The bytes that characters take. -/
def width (chars : List Char) : Nat := (String.ofList chars).utf8ByteSize

/-- A text without so many bytes at its start. -/
def dropBytes : Nat → List Char → Except LogFault (List Char)
  | 0, text => .ok text
  | _ + 1, [] => .ok []
  | n + 1, c :: rest =>
    if c.utf8Size ≤ n + 1 then dropBytes (n + 1 - c.utf8Size) rest else .error .splitCharacter
termination_by _ text => text.length

/-- So many bytes at the start of a text. -/
def takeBytes : Nat → List Char → Except LogFault (List Char)
  | 0, _ | _ + 1, [] => .ok []
  | n + 1, c :: rest =>
    if c.utf8Size ≤ n + 1 then (takeBytes (n + 1 - c.utf8Size) rest).map (c :: ·)
    else .error .splitCharacter
termination_by _ text => text.length

/-- What stands between two bytes of a text. -/
def cut (text : List Char) (start stop : Nat) : Except LogFault String := do
  return String.ofList (← takeBytes (stop - start) (← dropBytes start text))

/-- A malformed part is a fault. -/
def wellFormed {α : Type} (part : Option α) : Except LogFault α :=
  match part with
  | some a => .ok a
  | none => .error .malformed

/-- The level that a text ends with, from a byte on; all levels if nothing stands there. -/
def depthFrom (text : List Char) (start : Nat) : Except LogFault Nat := do
  let level := String.ofList (← dropBytes start text)
  if level.isEmpty then return LogLevel.trace.rank else wellFormed (depth? level)

/-- The level that a text ends with, after a closing bracket; `rest` begins after that, at the byte
`start`. -/
def depthAfterBracket (text : List Char) (start : Nat) (rest : List Char) : Except LogFault Nat :=
  match rest with
  | [] => .ok LogLevel.trace.rank
  | '=' :: _ => depthFrom text (start + 1)
  | _ => .error .malformed

/-! ### Directives -/

/-- Whether a character may begin the name of a source. -/
def beginsName (c : Char) : Bool := ['-', ':', '_'].contains c || Alphanumeric.isAlphanumeric c

/-- The directive for a source whose opening bracket has been found; `rest` begins after it, at the
byte `start`. -/
def bracketed (text : List Char) (source : String) (start : Nat) (rest : List Char) :
    Except LogFault LogDirective := do
  let name := rest.takeWhile fun c => c != ']' && c != '{'
  let stop := start + width name
  match rest.drop name.length with
  | ']' :: rest =>
    let span ← cut text start stop
    return { source, span := some span, depth := ← depthAfterBracket text (stop + 1) rest }
  | '{' :: rest =>
    let span ← cut text start stop
    let inBraces := rest.takeWhile (· != '}')
    let start := stop + 1
    let stop := start + width inBraces
    match rest.drop inBraces.length with
    | '}' :: rest =>
      let field ← wellFormed (LogField.parse? (← cut text start stop))
      let ']' :: rest := rest | .error .malformed
      let depth ← depthAfterBracket text (stop + 2) rest
      -- Before a field a span may be left out.
      return { source, span := if span.isEmpty then none else some span, field := some field, depth }
    | _ => .error .malformed
  | _ => .error .malformed

/-- The directive that a text stands for. -/
def parse (text : String) : Except LogFault LogDirective :=
  let chars := text.toList
  match Blank.trim chars with
  | [] => .error .malformed
  | '[' :: rest => bracketed chars "" 1 rest
  | c :: more =>
    let name := (c :: more).takeWhile fun c => c != '=' && c != '['
    let stop := width name
    if !beginsName c then .error .malformed
    else match (c :: more).drop name.length with
      | '[' :: rest => do bracketed chars (← cut chars 0 stop) (stop + 1) rest
      | _ :: _ => do return { source := ← cut chars 0 stop, depth := ← depthFrom chars (stop + 1) }
      | [] =>
        match depth? text with
        | some depth => .ok { source := "", depth }
        | none => .ok { source := text, depth := LogLevel.trace.rank }

/-! ### What a directive speaks of -/

/-- Whether a directive holds for a line. -/
def holdsFor (d : LogDirective) (line : LogLine) : Bool :=
  d.source.isPrefixOf line.source && d.span.isNone &&
    d.field.all fun field => field.value.isNone && line.fields.contains field.name

/-- Of two directives that hold for a line, the one that decides. -/
def stronger (best : Option LogDirective) (d : LogDirective) : Option LogDirective :=
  match best with
  | none => some d
  | some b =>
    if b.source.length < d.source.length then some d
    else if d.source.length < b.source.length then some b
    else if b.field.isSome && d.field.isNone then some b
    else some d

end LogDirective

namespace LogFilter

/-- The filter that writes all lines down to a level. -/
def upTo (level : LogLevel) : LogFilter := ⟨[{ source := "", depth := level.rank }]⟩

/-- The filter that a text stands for. Nothing between two commas is no directive, and without
directives nothing is written. -/
def parse (text : String) : Except LogFault LogFilter :=
  let parts := (text.splitOn ",").filter fun part => !part.isEmpty
  (parts.mapM LogDirective.parse).map LogFilter.mk

/-- The filter for how often more detail was asked for. -/
def ofVerbosity : Nat → LogFilter
  | 0 => upTo .info
  | 1 => upTo .debug
  | _ => upTo .trace

/-- The filter for a setting and how often more detail was asked for: the setting wins, if it is
there and well formed. -/
def choose (setting : Option String) (verbosity : Nat) : Except Violation LogFilter :=
  match setting.map parse with
  | some (.ok filter) => .ok filter
  | some (.error .splitCharacter) => .error .splitCharacter
  | some (.error .malformed) | none => .ok (ofVerbosity verbosity)

/-- Whether a line is written. -/
def permits (f : LogFilter) (line : LogLine) : Bool :=
  let matching := f.directives.filter fun d => d.holdsFor line
  match matching.foldl LogDirective.stronger none with
  | none => false
  | some d => line.level.rank ≤ d.depth

end LogFilter

end Relay
