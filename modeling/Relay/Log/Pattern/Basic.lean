/-!
# `Relay.Log.Pattern.Basic`: patterns as trees

A pattern is a regular expression that the value of a field is compared with. The relay never has
such a value at hand, so a tree keeps only what decides whether a pattern can be compared with
anything: how its parts are nested (`Pattern.height`), and which of them ask for more than is there
(`Pattern.isSupported`).

Patterns match characters, or single bytes after the option `u` was turned off. There are no tables
of all the world's letters at hand, so patterns on characters can neither ignore case nor use
shorthands such as `\d` or the boundaries of words. Patterns on bytes can do all of this for ASCII,
but whatever they match has to be whole characters still.
-/

set_option autoImplicit false

namespace Relay

/-- A character that stands for itself. -/
structure Literal where
  /-- The character. -/
  char : Char
  /-- Whether it is written as a code of two digits, which is that of a byte where bytes are
  matched. -/
  isByte : Bool := false
deriving DecidableEq

/-- What a group, or the rest of one, is told to do. -/
structure PatternOptions where
  /-- Whether letters stand for themselves in both cases. -/
  ignoreCase : Option Bool := none
  /-- Whether characters are matched, and not bytes. -/
  unicode : Option Bool := none
  /-- Whether blanks and comments in the pattern are left out. -/
  verbose : Option Bool := none
deriving DecidableEq

/-- A set of characters. -/
inductive CharSet where
  /-- No character. -/
  | empty
  /-- One character. -/
  | literal (l : Literal)
  /-- All characters from one to another. -/
  | range (first last : Literal)
  /-- The characters of a name, or all others. -/
  | named (isNegated : Bool)
  /-- The characters of a shorthand, or all others. -/
  | shorthand (isNegated : Bool)
  /-- A set in brackets, or all characters that are not in it. -/
  | bracketed (isNegated : Bool) (members : CharSet)
  /-- What is in one of some sets. -/
  | union (sets : List CharSet)
  /-- What two sets have in common, or what tells them apart. -/
  | compared (left right : CharSet)

/-- A regular expression. -/
inductive Pattern where
  /-- The empty text. -/
  | empty
  /-- Nothing, but what follows is told something. -/
  | options (o : PatternOptions)
  /-- A character. -/
  | literal (l : Literal)
  /-- Any character. -/
  | any
  /-- The beginning or the end of a line or of the text. -/
  | edge
  /-- The beginning or the end of a word, or a place that is neither. -/
  | boundary
  /-- A character of a shorthand, or any other. -/
  | shorthand (isNegated : Bool)
  /-- A character of a set in brackets, or any other. -/
  | set (isNegated : Bool) (members : CharSet)
  /-- A pattern, repeated or left out. -/
  | repetition (p : Pattern)
  /-- A pattern in parentheses. -/
  | group (o : PatternOptions) (p : Pattern)
  /-- One of some patterns. -/
  | alternation (ps : List Pattern)
  /-- Some patterns, one after the other. -/
  | sequence (ps : List Pattern)

/-! ### Nesting -/

namespace CharSet

mutual

/-- How deep the parts of a set are nested. -/
def height : CharSet → Nat
  | empty | literal _ | range _ _ | named _ | shorthand _ => 0
  | bracketed _ members => members.height + 1
  | union sets => heights sets + 1
  | compared left right => max left.height right.height + 1

/-- How deep the parts of some sets are nested. -/
def heights : List CharSet → Nat
  | [] => 0
  | s :: rest => max s.height (heights rest)

end

/-- The union of some sets; of a single one that is itself. -/
def ofList : List CharSet → CharSet
  | [] => empty
  | [s] => s
  | sets => union sets

end CharSet

namespace Pattern

mutual

/-- How deep the parts of a pattern are nested. -/
def height : Pattern → Nat
  | empty | options _ | literal _ | any | edge | boundary | shorthand _ => 0
  | set _ members => members.height + 1
  | repetition p | group _ p => p.height + 1
  | alternation ps | sequence ps => heights ps + 1

/-- How deep the parts of some patterns are nested. -/
def heights : List Pattern → Nat
  | [] => 0
  | p :: rest => max p.height (heights rest)

end

/-- How deep the parts of a pattern may be nested. -/
def maxHeight : Nat := 250

/-- Patterns one after the other; a single one is itself. -/
def ofList : List Pattern → Pattern
  | [] => empty
  | [p] => p
  | ps => sequence ps

/-- A choice among patterns; a single one is itself. -/
def oneOf : List Pattern → Pattern
  | [p] => p
  | ps => alternation ps

end Pattern

/-! ### What is supported -/

/-- How patterns are matched. -/
structure MatchMode where
  /-- Whether letters stand for themselves in both cases. -/
  ignoreCase : Bool := false
  /-- Whether characters are matched, and not bytes. -/
  unicode : Bool := true
deriving DecidableEq

namespace MatchMode

/-- The mode with some options changed. -/
def changed (m : MatchMode) (o : PatternOptions) : MatchMode :=
  ⟨o.ignoreCase.getD m.ignoreCase, o.unicode.getD m.unicode⟩

/-- Whether a character can be matched: among characters case matters, and a byte by itself is a
character only within ASCII. -/
def supports (m : MatchMode) (l : Literal) : Bool :=
  if m.unicode then !m.ignoreCase else !l.isByte || l.char.toNat < 128

/-- Whether a character can be a member of a set: a set of bytes holds no character that takes
several. -/
def supportsMember (m : MatchMode) (l : Literal) : Bool :=
  m.supports l && (m.unicode || l.char.toNat < 128)

end MatchMode

namespace CharSet

mutual

/-- Whether a set can be matched. The other bytes than those of a set, and so the negated ones, are
no characters by themselves. -/
def isSupported (m : MatchMode) : CharSet → Bool
  | empty => true
  | literal l => m.supportsMember l
  | range first last => m.supportsMember first && m.supportsMember last
  | named isNegated => if m.unicode then !m.ignoreCase else !isNegated
  | shorthand isNegated => !m.unicode && !isNegated
  | bracketed isNegated members => (m.unicode || !isNegated) && members.isSupported m
  | union sets => areSupported m sets
  | compared left right => left.isSupported m && right.isSupported m

/-- Whether some sets can all be matched. -/
def areSupported (m : MatchMode) : List CharSet → Bool
  | [] => true
  | s :: rest => s.isSupported m && areSupported m rest

end

end CharSet

namespace Pattern

mutual

/-- The mode that a pattern leaves to what follows it, if the pattern can be matched: options hold
up to the end of the group that they are in. -/
def modeAfter? (m : MatchMode) : Pattern → Option MatchMode
  | empty | edge => some m
  | options o => some (m.changed o)
  | literal l => if m.supports l then some m else none
  | any => if m.unicode then some m else none
  | boundary => if m.unicode then none else some m
  | shorthand isNegated => if !m.unicode && !isNegated then some m else none
  | set isNegated members =>
    if (CharSet.bracketed isNegated members).isSupported m then some m else none
  | repetition p => p.modeAfter? m
  | group o p => (p.modeAfter? (m.changed o)).map fun _ => m
  | alternation ps | sequence ps => modeAfterAll? m ps

/-- The mode that patterns one after the other leave, if they can be matched. -/
def modeAfterAll? (m : MatchMode) : List Pattern → Option MatchMode
  | [] => some m
  | p :: rest =>
    match p.modeAfter? m with
    | none => none
    | some m => modeAfterAll? m rest

end

/-- Whether a pattern can be matched. -/
def isSupported (p : Pattern) : Bool := (p.modeAfter? {}).isSome

end Pattern

end Relay
