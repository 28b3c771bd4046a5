import Pdl.Text.Alphanumeric
import Pdl.Text.Reader

/-!
# Patterns

A pattern is a regular expression.  A log filter may hold one as the value of
a field, and then it has to be well formed, so this module says which texts
are (`Pattern.isWellFormed`).  What a pattern matches is of no concern here.

* `.`, `^`, `$` and a character without a meaning of its own are elements.  So
  are an escape, a class between brackets and a group between parentheses.
* `?`, `*` and `+` follow what they repeat.  Braces would give a count, but a
  pattern in a filter ends before the closing brace, so an opening one is a
  fault.
* A bar stands between alternatives, which may be empty.
* A group may begin with `?` and flags.  A name between angle brackets may
  stand there too, and no two groups have the same name.  Flags that end with
  the parenthesis hold for the rest of the group around them.

Patterns are read without tables of characters.  So the classes of digits,
blanks and word characters and the edges of words are faults unless they are
about ASCII alone, and classes by a property of characters always are.

Three flags change which patterns are well formed.  Under `x` blanks and
comments do not count.  Without `u` classes are about bytes, and what could
match half of a character is a fault.  Under `i` letters match in either case,
which needs tables with `u` for every character that the pattern names.

The walk over a pattern takes one element in each step, so the length of the
pattern bounds the number of steps.
-/

namespace Pdl.Pattern

/-- How a pattern is read. -/
structure Mode where
  /-- Blanks and comments do not count. -/
  loose : Bool
  /-- Classes are about bytes. -/
  bytes : Bool
  /-- Letters match in either case. -/
  folding : Bool
deriving Repr, DecidableEq

/-- Whether a pattern may name characters. -/
def Mode.allowsCharacters (m : Mode) : Bool := m.bytes || !m.folding

/-- Whether a pattern may name a character in a class. -/
def Mode.allowsMember (m : Mode) (c : Char) : Bool :=
  m.allowsCharacters && !(m.bytes && 0x7F < c.toNat)

/-- What follows the blanks and comments at the front; `comment` says that the
text begins inside a comment. -/
def skipFrom (comment : Bool) : List Char → List Char
  | [] => []
  | c :: r =>
      if comment then skipFrom (c != '\n') r
      else if isBlank c then skipFrom false r
      else if c = '#' then skipFrom true r
      else c :: r

/-- What follows that which does not count at the front. -/
def Mode.skip (m : Mode) (cs : List Char) : List Char := if m.loose then skipFrom false cs else cs

/-! ## Escapes -/

/-- What an escape stands for. -/
inductive Escape where
  /-- A character. -/
  | character (c : Char)
  /-- A class of characters. -/
  | characters
  /-- A place between characters. -/
  | place
deriving Repr, DecidableEq

/-- The character with a number of `n` hexadecimal digits.  In two digits it
is a byte where classes are about bytes. -/
def numbered? (m : Mode) (n : Nat) : Reader Escape := fun cs => do
  let (v, r) ← hexNumber? n cs
  if v.isValidChar ∧ ¬(m.bytes ∧ n = 2 ∧ 0x7F < v) then
    return (.character (Char.ofNat v), r)
  else none

/-- The control character of a letter. -/
def control? : Char → Option Char
  | 'a' => some '\x07'
  | 'f' => some '\x0c'
  | 't' => some '\t'
  | 'n' => some '\n'
  | 'r' => some '\r'
  | 'v' => some '\x0b'
  | _ => none

/-- An escape, after its backslash.  Any mark of ASCII may be escaped, but of
the letters and digits only those with a meaning. -/
def escape? (m : Mode) : Reader Escape
  | [] => none
  | c :: r =>
      if c = 'x' then numbered? m 2 r
      else if c = 'u' then numbered? m 4 r
      else if c = 'U' then numbered? m 8 r
      else if c = 'd' || c = 's' || c = 'w' then if m.bytes then some (.characters, r) else none
      else if c = 'A' || c = 'z' then some (.place, r)
      else if c = 'b' || c = 'B' || c = '<' || c = '>' then
        if m.bytes then some (.place, r) else none
      else match control? c with
        | some d => some (.character d, r)
        | none => if c.toNat < 0x80 && !c.isAlphanum then some (.character c, r) else none

/-! ## Classes -/

/-- The names of classes between `[:` and `:]`. -/
def classNames : List String :=
  ["alnum", "alpha", "ascii", "blank", "cntrl", "digit", "graph", "lower", "print", "punct",
    "space", "upper", "word", "xdigit"]

/-- What follows a named class, after its bracket. -/
def namedClass? : List Char → Option (List Char)
  | ':' :: r =>
      let r := (after? '^' r).getD r
      match r.dropWhile (· != ':') with
      | ':' :: ']' :: rest =>
          if classNames.contains (.ofList (r.takeWhile (· != ':'))) then some rest else none
      | _ => none
  | _ => none

/-- What follows the opening of a class, after its bracket: a caret, and then
hyphens or a closing bracket that stand for themselves. -/
def classStart? (m : Mode) (cs : List Char) : Option (List Char) :=
  let cs := m.skip cs
  match after? '^' cs with
  | some r => if m.bytes then none else literals? (m.skip r)
  | none => literals? cs
where
  /-- What follows the hyphens, or else the closing bracket, at the front. -/
  literals? (cs : List Char) : Option (List Char) :=
    match cs with
    | '-' :: r =>
        if m.allowsCharacters then some (r.dropWhile fun c => c = '-' || (m.loose && isBlank c))
        else none
    | ']' :: r => if m.allowsCharacters then some r else none
    | cs => some cs

/-- A member of a class: a character, or nothing for several at once. -/
def member? (m : Mode) : Reader (Option Char)
  | [] => none
  | '\\' :: r =>
      match escape? m r with
      | some (.character c, r) => if m.allowsMember c then some (some c, r) else none
      | some (.characters, r) => some (none, r)
      | _ => none
  | c :: r => if m.allowsMember c then some (some c, r) else none

/-- What follows a member of a class, or a range of which both ends are
characters and the last is not before the first. -/
def memberOrRange? (m : Mode) (cs : List Char) : Option (List Char) := do
  let (first, r) ← member? m cs
  match m.skip r with
  | '-' :: r =>
      match m.skip r with
      | ']' :: _ => some ('-' :: r)
      | '-' :: _ => some ('-' :: r)
      | r => match first, ← member? m r with
        | some a, (some b, r) => if a ≤ b then some r else none
        | _, _ => none
  | r => some r

/-- What follows the rest of a class in which `depth` more are open.  At most
`fuel` members are read. -/
def classRest? (m : Mode) : (fuel depth : Nat) → List Char → Option (List Char)
  | 0, _, _ => none
  | fuel + 1, depth, cs =>
      match m.skip cs with
      | [] => none
      | ']' :: r => match depth with
        | 0 => some r
        | depth + 1 => classRest? m fuel depth r
      | '[' :: r => match namedClass? r with
        | some r => if m.allowsCharacters then classRest? m fuel depth r else none
        | none => do classRest? m fuel (depth + 1) (← classStart? m r)
      | '&' :: '&' :: r => classRest? m fuel depth r
      | '-' :: '-' :: r => classRest? m fuel depth r
      | '~' :: '~' :: r => classRest? m fuel depth r
      | cs => do classRest? m fuel depth (← memberOrRange? m cs)

/-- What follows a class, after its first bracket. -/
def charClass? (m : Mode) (cs : List Char) : Option (List Char) := do
  classRest? m (cs.length + 1) 0 (← classStart? m cs)

/-! ## Groups -/

/-- What is known in the middle of a pattern. -/
structure State where
  /-- How the pattern is read from here on. -/
  mode : Mode
  /-- How it is read after each of the groups that are open, innermost first. -/
  groups : List Mode
  /-- The names of the groups so far. -/
  names : List (List Char)
  /-- Whether there is something to repeat. -/
  repeatable : Bool

/-- The state at the front of a pattern. -/
def State.start : State := ⟨⟨false, false, false⟩, [], [], false⟩

/-- The state inside a new group. -/
def State.enter (s : State) (mode : Mode) : State :=
  { s with mode := mode, groups := s.mode :: s.groups, repeatable := false }

/-- Whether a text may name a group. -/
def isGroupName : List Char → Bool
  | [] => false
  | c :: cs =>
      (c = '_' || isAlphabetic c)
        && cs.all fun c => c = '_' || c = '.' || c = '[' || c = ']' || isAlphanumeric c

/-- The mode after flags.  Those after a minus are turned off. -/
def Mode.after (m : Mode) (flags : List Char) : Mode :=
  let on := flags.takeWhile (· != '-')
  let off := flags.dropWhile (· != '-')
  let flag (c : Char) (before : Bool) := on.contains c || (before && !off.contains c)
  ⟨flag 'x' m.loose, !flag 'u' (!m.bytes), flag 'i' m.folding⟩

/-- Whether characters are flags, each at most once, and a minus not last. -/
def areFlags (cs : List Char) : Bool :=
  cs.all "imsUuRx-".toList.contains && cs.Nodup && cs.getLast? != some '-'

/-- A group with a name, after its angle bracket. -/
def named? (s : State) (cs : List Char) : Option (State × List Char) :=
  let name := cs.takeWhile (· != '>')
  match cs.dropWhile (· != '>') with
  | [] => none
  | _ :: r =>
      if isGroupName name && !s.names.contains name then
        some ({ s.enter s.mode with names := name :: s.names }, r)
      else none

/-- A group with flags or flags alone, after the question mark. -/
def flagged? (s : State) (cs : List Char) : Option (State × List Char) :=
  let flags := cs.takeWhile fun c => c != ':' && c != ')'
  let mode := s.mode.after flags
  if areFlags flags then
    match cs.dropWhile fun c => c != ':' && c != ')' with
    | ':' :: r => some (s.enter mode, r)
    | _ :: r => if flags = [] then none else some ({ s with mode := mode, repeatable := false }, r)
    | [] => none
  else none

/-- The opening of a group, after its parenthesis. -/
def group? (s : State) (cs : List Char) : Option (State × List Char) :=
  match s.mode.skip cs with
  | '?' :: 'P' :: '<' :: r => named? s r
  | '?' :: '<' :: r => named? s r
  | '?' :: r => flagged? s r
  | r => some (s.enter s.mode, r)

/-! ## The walk -/

/-- The state and the rest of the pattern after an element. -/
def step? (s : State) : List Char → Option (State × List Char)
  | [] => none
  | '(' :: r => group? s r
  | ')' :: r => match s.groups with
    | [] => none
    | m :: ms => some ({ s with mode := m, groups := ms, repeatable := true }, r)
  | '|' :: r => some ({ s with repeatable := false }, r)
  | '[' :: r => (charClass? s.mode r).map ({ s with repeatable := true }, ·)
  | '\\' :: r => match escape? s.mode r with
    | some (.character _, r) =>
        if s.mode.allowsCharacters then some ({ s with repeatable := true }, r) else none
    | some (_, r) => some ({ s with repeatable := true }, r)
    | none => none
  | '\x7b' :: _ => none
  | c :: r =>
      if c = '?' || c = '*' || c = '+' then if s.repeatable then some (s, r) else none
      else if c = '.' then if s.mode.bytes then none else some ({ s with repeatable := true }, r)
      else if c = '^' || c = '$' || s.mode.allowsCharacters then
        some ({ s with repeatable := true }, r)
      else none

/-- Whether the rest of a pattern is well formed.  At most `fuel` elements are
read. -/
def isWellFormedFrom : (fuel : Nat) → State → List Char → Bool
  | 0, _, _ => false
  | fuel + 1, s, cs =>
      match s.mode.skip cs with
      | [] => s.groups.isEmpty
      | cs => match step? s cs with
        | some (s, r) => isWellFormedFrom fuel s r
        | none => false

/-- Whether a text is a pattern. -/
def isWellFormed (cs : List Char) : Bool := isWellFormedFrom (cs.length + 1) .start cs

private def reads (text : String) : Bool := isWellFormed text.toList

example : ["", "a|", "()*", "^*$?", ".*?", "]", "a-b", "(?s)a", "(?P<n>a)(?<m>)"].all reads := by
  decide +kernel
example : ["(", ")", "[", "*", "a|*", "a\x7b", "(?i)*", "(?)", "(?P<n>)(?<n>)", "(?=a)"].any reads
    = false := by decide +kernel
example : ["[]]", "[^]a]", "[--a]", "[a-]", "[[:alpha:]&&[^x]]", "[\\.\\]]"].all reads := by
  decide +kernel
example : ["[]", "[^]", "[b-a]", "(?-u)[\\d-a]", "[\\A]", "[[:alpha:]", "[a-"].any reads
    = false := by decide +kernel
example : ["\\.", "\\x41", "\\n", "(?-u:\\b\\d)", "(?x)a # (\n"].all reads := by
  decide +kernel
example : ["\\", "\\y", "\\1", "\\x4", "\\uD800", "\\b", "(?-u).", "\\é"].any reads = false := by
  decide +kernel
example : ["\\d", "\\W", "[\\s]", "\\pL", "\\B"].any reads = false := by decide +kernel

example : ["(?i)", "(?i).*^", "(?i-u)a[b]", "(?i:)a", "(?i)[^&&]", "(?i)(?-i)a"].all reads := by
  decide +kernel
example : ["(?i)a", "(?i)\\.", "(?i)[a]", "(?i)[^-]", "(?i)[[:digit:]]", "a(?i:b)"].any reads
    = false := by decide +kernel

end Pdl.Pattern
