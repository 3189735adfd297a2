import Relay.Log.Pattern.Basic
import Relay.Text.Alphanumeric
import Relay.Text.Blank
import Relay.Text.Hexadecimal

/-!
# `Relay.Log.Pattern.Parser`: patterns as text

    a|b      either                 (a)  a group, also (?:a), (?<name>a) and (?P<name>a)
    a* a+ a? repeated               (?s) options for what follows, (?s:a) for a group
    .        any character          [a-z&&[^b]] [[:alpha:]]  sets of characters
    ^ $      line or text ends      \n \. \x41 \d \b  escaped characters

A repetition may be followed by `?`, options are turned off after `-`, and every group has a name of
its own. After the option `x`, blanks and comments from `#` to the end of the line are left out.
Counted repetitions and other forms with braces are no patterns: a pattern stands between braces
itself and ends with the first that closes. `Pattern.isWellFormed` says which texts are patterns
that can be matched.

The functions that read nested parts take a bound for their steps. Each step reads at least one
character, so the length of the text is enough.
-/

set_option autoImplicit false

namespace Relay.Pattern

/-! ### Blanks and comments -/

/-- A text without the blanks and comments at its start. -/
def skipBlanks (isComment : Bool) : List Char → List Char
  | [] => []
  | c :: rest =>
    if isComment then skipBlanks (c != '\n') rest
    else if c = '#' then skipBlanks true rest
    else if Blank.isBlank c then skipBlanks false rest
    else c :: rest

/-- A text without what is left out at its start. -/
def skip (verbose : Bool) (text : List Char) : List Char :=
  if verbose then skipBlanks false text else text

/-- The character that decides whether a hyphen before a text makes a range. The first sign of a
comment is passed over like a blank, and the comment itself is not. -/
def lookAhead (verbose : Bool) (text : List Char) : Option Char :=
  if verbose then
    match text.dropWhile Blank.isBlank with
    | '#' :: rest => (rest.dropWhile Blank.isBlank).head?
    | rest => rest.head?
  else text.head?

/-! ### Escaped characters -/

/-- What an escaped character stands for. -/
inductive Escape where
  /-- A character. -/
  | literal (l : Literal)
  /-- The beginning or the end of the text. -/
  | edge
  /-- The beginning or the end of a word, or a place that is neither. -/
  | boundary
  /-- A shorthand for a set of characters, or for all others. -/
  | shorthand (isNegated : Bool)
deriving DecidableEq

/-- The number of so many hexadecimal digits, which begins with some digits that were read before,
and what follows. -/
def code? (verbose : Bool) : Nat → Nat → List Char → Option (Nat × List Char)
  | 0, value, text => some (value, text)
  | digits + 1, value, text =>
    match skip verbose text with
    | [] => none
    | c :: rest =>
      (Hexadecimal.digit? c).bind fun digit => code? verbose digits (16 * value + digit) rest

/-- The character whose code of so many digits comes next, and what follows. -/
def coded? (verbose : Bool) (digits : Nat) (text : List Char) : Option (Escape × List Char) :=
  match code? verbose digits 0 text with
  | none => none
  | some (value, rest) =>
    if value.isValidChar then some (.literal ⟨Char.ofNat value, digits = 2⟩, rest) else none

/-- What follows a backslash, and what comes then. -/
def escape? (verbose : Bool) : List Char → Option (Escape × List Char)
  | [] => none
  | c :: rest =>
    match c with
    | 'x' => coded? verbose 2 rest
    | 'u' => coded? verbose 4 rest
    | 'U' => coded? verbose 8 rest
    | 'd' | 's' | 'w' => some (.shorthand false, rest)
    | 'D' | 'S' | 'W' => some (.shorthand true, rest)
    | 'A' | 'z' => some (.edge, rest)
    | 'b' | 'B' | '<' | '>' => some (.boundary, rest)
    | 'a' => some (.literal { char := '\x07' }, rest)
    | 'f' => some (.literal { char := '\x0c' }, rest)
    | 'n' => some (.literal { char := '\n' }, rest)
    | 'r' => some (.literal { char := '\r' }, rest)
    | 't' => some (.literal { char := '\t' }, rest)
    | 'v' => some (.literal { char := '\x0b' }, rest)
    | _ =>
      if c.toNat < 128 && !c.isAlphanum then some (.literal { char := c }, rest) else none

/-! ### Sets -/

/-- The names of sets. -/
def setNames : List String :=
  ["alnum", "alpha", "ascii", "blank", "cntrl", "digit", "graph", "lower", "print", "punct",
    "space", "upper", "word", "xdigit"]

/-- A named set after its opening bracket, `[:alpha:]` or `[:^alpha:]`, and what follows: whether it
is negated. -/
def named? : List Char → Option (Bool × List Char)
  | ':' :: text =>
    let (isNegated, text) := match text with
      | '^' :: rest => (true, rest)
      | _ => (false, text)
    let name := text.takeWhile (· != ':')
    match text.drop name.length with
    | ':' :: ']' :: rest =>
      if setNames.contains (String.ofList name) then some (isNegated, rest) else none
    | _ => none
  | _ => none

/-- A character of a set, or what is escaped in it, and what follows. -/
def memberStart? (verbose : Bool) : List Char → Option (Escape × List Char)
  | [] => none
  | '\\' :: rest => escape? verbose rest
  | c :: rest => some (.literal { char := c }, rest)

/-- The set of a member that is no range. -/
def single? : Escape → Option CharSet
  | .literal l => some (.literal l)
  | .shorthand isNegated => some (.shorthand isNegated)
  | .edge | .boundary => none

/-- The set of all characters from one to another. -/
def range? : Escape → Escape → Option CharSet
  | .literal first, .literal last =>
    if first.char ≤ last.char then some (.range first last) else none
  | _, _ => none

/-- A member of a set and what follows: a range, if a hyphen follows that has something else than a
bracket or a hyphen after it. -/
def member? (verbose : Bool) (text : List Char) : Option (CharSet × List Char) := do
  let (first, rest) ← memberStart? verbose text
  let alone := (single? first).map fun s => (s, rest)
  match skip verbose rest with
  | [] => none
  | '-' :: after =>
    let next := lookAhead verbose after
    if next = some ']' ∨ next = some '-' then alone
    else
      let (last, rest) ← memberStart? verbose (skip verbose after)
      let set ← range? first last
      return (set, rest)
  | _ => alone

/-- Whether the set that begins here is negated, and its members. -/
def negation (verbose : Bool) (text : List Char) : Bool × List Char :=
  match skip verbose text with
  | '^' :: rest => (true, rest)
  | rest => (false, rest)

/-- The set compared with what was read before it. -/
def comparedWith (left : Option CharSet) (right : CharSet) : CharSet :=
  match left with
  | none => right
  | some left => .compared left right

/-- The members of a set up to its closing bracket, and what follows that. `left` is what these
members are compared with, `read` are those that were read before. Hyphens at the start stand for
themselves, and so does a closing bracket there. -/
def members? (verbose : Bool) :
    Nat → Bool → Option CharSet → List CharSet → List Char → Option (CharSet × List Char)
  | 0, _, _, _, _ => none
  | bound + 1, isStart, left, read, text =>
    let closed := comparedWith left (CharSet.ofList read)
    match skip verbose text with
    | [] => none
    | c :: rest =>
      if isStart && c = '-' then
        members? verbose bound true left (read ++ [.literal { char := c }]) rest
      else if isStart && read.isEmpty && c = ']' then
        members? verbose bound false left [.literal { char := c }] rest
      else if c = ']' then some (closed, rest)
      else if c = '[' then
        match named? rest with
        | some (isNegated, rest) =>
          members? verbose bound false left (read ++ [.named isNegated]) rest
        | none =>
          let (isNegated, rest) := negation verbose rest
          match members? verbose bound true none [] rest with
          | none => none
          | some (inner, rest) =>
            members? verbose bound false left (read ++ [.bracketed isNegated inner]) rest
      else if ['&', '-', '~'].contains c && rest.head? = some c then
        members? verbose bound false (some closed) [] rest.tail
      else
        match member? verbose (c :: rest) with
        | none => none
        | some (member, rest) => members? verbose bound false left (read ++ [member]) rest

/-! ### Groups -/

/-- How far a pattern has been read. -/
structure Position where
  /-- What has not been read yet. -/
  rest : List Char
  /-- Whether blanks and comments are left out. -/
  verbose : Bool := false
  /-- The names that groups have. -/
  names : List (List Char) := []
deriving DecidableEq

/-- Whether a character may stand in the name of a group. -/
def isNameChar (isFirst : Bool) (c : Char) : Bool :=
  if isFirst then c = '_' || Alphanumeric.isLetter c
  else ['_', '.', '[', ']'].contains c || Alphanumeric.isAlphanumeric c

/-- The name of a group, which no other group has, and what follows its closing angle. -/
def name? (p : Position) : Option Position :=
  let name := p.rest.takeWhile (· != '>')
  match name, p.rest.drop name.length with
  | first :: more, '>' :: rest =>
    if isNameChar true first && more.all (isNameChar false) && !p.names.contains name then
      some { p with rest, names := name :: p.names }
    else none
  | _, _ => none

/-- The letters of options up to the mark that ends them, which follows, and what comes then. None
is given twice, and a minus sign turns something off. -/
def optionLetters? (seen : List Char) : List Char → Option (List Char × Char × List Char)
  | [] => none
  | c :: rest =>
    if c = ':' ∨ c = ')' then
      if seen.getLast? = some '-' then none else some (seen, c, rest)
    else if ['-', 'i', 'm', 's', 'U', 'u', 'R', 'x'].contains c && !seen.contains c then
      optionLetters? (seen ++ [c]) rest
    else none

/-- What letters say about an option: those after a minus sign turn it off. -/
def setting (letters : List Char) (option : Char) : Option Bool :=
  if letters.contains option then some ((letters.takeWhile (· != '-')).contains option) else none

/-- The options that letters stand for. -/
def optionsOf (letters : List Char) : PatternOptions :=
  ⟨setting letters 'i', setting letters 'u', setting letters 'x'⟩

/-- What follows an opening parenthesis: whether a group begins, what it or the rest of the group
around it is told, and what comes then. -/
def opened? (p : Position) : Option (Bool × PatternOptions × Position) :=
  let rest := skip p.verbose p.rest
  match rest with
  | '?' :: 'P' :: '<' :: rest | '?' :: '<' :: rest =>
    (name? { p with rest }).map fun p => (true, {}, p)
  | '?' :: rest =>
    match optionLetters? [] rest with
    | none => none
    -- Options are not left empty where they hold for what follows.
    | some ([], ')', _) => none
    | some (letters, mark, rest) => some (mark = ':', optionsOf letters, { p with rest })
  | rest => some (true, {}, { p with rest })

/-! ### Patterns -/

/-- A part of a pattern that is neither a set nor a group, and what follows. -/
def atom? (verbose : Bool) : List Char → Option (Pattern × List Char)
  | [] => none
  | '.' :: rest => some (.any, rest)
  | '^' :: rest | '$' :: rest => some (.edge, rest)
  | '{' :: _ => none
  | '\\' :: rest =>
    (escape? verbose rest).map fun (e, rest) =>
      (match e with
        | .literal l => .literal l
        | .edge => .edge
        | .boundary => .boundary
        | .shorthand isNegated => .shorthand isNegated, rest)
  | c :: rest => some (.literal { char := c }, rest)

/-- The parts read so far, the last of which is repeated: there is one, and it is not options. -/
def repeated? (parts : List Pattern) : Option (List Pattern) :=
  match parts.getLast? with
  | none | some (.options _) => none
  | some p => some (parts.dropLast ++ [.repetition p])

/-- A pattern up to the parenthesis that closes the group around it, or to the end of the text; what
follows begins with that parenthesis. `branches` and `parts` are what was read before: patterns to
choose from, and the parts of the one that is not at its end. -/
def pattern? : Nat → List Pattern → List Pattern → Position → Option (Pattern × Position)
  | 0, _, _, _ => none
  | bound + 1, branches, parts, p =>
    let branch := Pattern.ofList parts
    match skip p.verbose p.rest with
    | [] => some (oneOf (branches ++ [branch]), { p with rest := [] })
    | ')' :: rest => some (oneOf (branches ++ [branch]), { p with rest := ')' :: rest })
    | '|' :: rest => pattern? bound (branches ++ [branch]) [] { p with rest }
    | '(' :: rest =>
      match opened? { p with rest } with
      | none => none
      | some (false, o, next) =>
        let verbose := o.verbose.getD p.verbose
        pattern? bound branches (parts ++ [.options o]) { next with verbose }
      | some (true, o, next) =>
        let verbose := o.verbose.getD p.verbose
        match pattern? bound [] [] { next with verbose } with
        | some (inner, { rest := ')' :: rest, names, .. }) =>
          -- What the group was told to leave out ends with it.
          pattern? bound branches (parts ++ [.group o inner]) { p with rest, names }
        | _ => none
    | '[' :: rest =>
      let (isNegated, rest) := negation p.verbose rest
      match members? p.verbose (rest.length + 1) true none [] rest with
      | none => none
      | some (members, rest) =>
        pattern? bound branches (parts ++ [.set isNegated members]) { p with rest }
    | '*' :: rest | '+' :: rest | '?' :: rest =>
      match repeated? parts with
      | none => none
      | some parts =>
        let rest := match rest with
          | '?' :: rest => rest
          | _ => rest
        pattern? bound branches parts { p with rest }
    | text =>
      match atom? p.verbose text with
      | none => none
      | some (part, rest) => pattern? bound branches (parts ++ [part]) { p with rest }

/-- The pattern that a text stands for. -/
def parse? (text : List Char) : Option Pattern :=
  match pattern? (text.length + 1) [] [] { rest := text } with
  | some (pattern, { rest := [], .. }) =>
    if pattern.height ≤ maxHeight then some pattern else none
  | _ => none

/-- Whether a text is a pattern that can be matched. -/
def isWellFormed (text : List Char) : Bool :=
  match parse? text with
  | some pattern => pattern.isSupported
  | none => false

end Relay.Pattern
