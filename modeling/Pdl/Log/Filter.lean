import Pdl.Log.Event
import Pdl.Log.Pattern
import Pdl.Text.Split
import Pdl.Text.Utf8

/-!
# Log filters

A filter says which events the log shows.  It is a list of directives with
commas between them.

* A level, by name or by a number from 0 for `off` to 5 for `trace`, is the
  threshold for all components.
* A name is the threshold `trace` for the components whose names begin so.
* A name, an equals sign and a level is that threshold for them.
* Brackets may follow the name or stand in its place, and then an equals sign
  and a level may follow the brackets.  With a field between braces inside
  them the directive is about the events that have the field.  With the name
  of a span of time, or with a value for the field, it is about spans.  It
  shows no events here, because nothing happens in a span.

The shape of a directive is that of the part without the blanks at its ends,
while its texts are cut at the same offsets from the part as it stands.  So
blanks at the end belong to a level, and blanks at the front push all texts
along.

Of the directives that cover an event the one with the longest name decides,
of those with the same name one with a field comes first and then the field
later in the alphabet, and of several with the same name and field the last
decides.  Where none covers it, the event is not shown.  An empty filter shows
errors only.
-/

namespace Pdl

/-- The least important level that is shown; nothing is shown without one. -/
abbrev Threshold := Option LogLevel

namespace Threshold

/-- The threshold with a number. -/
def ofNumber? : Nat → Option Threshold
  | 0 => some none
  | 1 => some (some .error)
  | 2 => some (some .warning)
  | 3 => some (some .info)
  | 4 => some (some .debug)
  | 5 => some (some .trace)
  | _ => none

/-- The threshold with a name or number. -/
def ofText? (cs : List Char) : Option Threshold :=
  let digits := (after? '+' cs).getD cs
  if digits ≠ [] ∧ digits.all Char.isDigit then
    ofNumber? (digits.foldl (fun n d => 10 * n + (d.toNat - '0'.toNat)) 0)
  else match String.ofList (cs.map Char.toLower) with
    | "error" => some (some .error)
    | "warn" => some (some .warning)
    | "info" => some (some .info)
    | "debug" => some (some .debug)
    | "trace" => some (some .trace)
    | "off" => some none
    | _ => none

/-- Whether a threshold lets a level through. -/
def allows (t : Threshold) (level : LogLevel) : Bool :=
  match t with
  | some least => level.rank ≤ least.rank
  | none => false

end Threshold

/-! ## Directives -/

/-- A threshold for some of the events. -/
structure Directive where
  /-- What the name of the component begins with, if that matters. -/
  component : Option String
  /-- A field that the event has, if that matters. -/
  field : Option String
  /-- The threshold for these events. -/
  threshold : Threshold
deriving Repr, DecidableEq

namespace Directive

/-- Whether a directive is about an event. -/
def covers (d : Directive) (e : Event) : Bool :=
  d.component.all (fun c => c.toList.isPrefixOf e.component.name.toList) && d.field.all e.hasField

/-- How much of the name of a component a directive fixes. -/
def reach (d : Directive) : Nat :=
  match d.component with
  | none => 0
  | some c => c.utf8ByteSize + 1

/-- Whether the field of one directive comes before that of another. -/
def fieldPrecedes : Option String → Option String → Bool
  | some f, some g => g < f
  | some _, none => true
  | none, _ => false

/-- Whether `d` decides rather than `other` about an event that both cover,
whichever stands first. -/
def outranks (d other : Directive) : Bool :=
  other.reach < d.reach || (d.reach = other.reach && fieldPrecedes d.field other.field)

end Directive

/-! ## Reading -/

/-- Whether a directive may begin with `c`. -/
def startsDirective (c : Char) : Bool := isAlphanumeric c || c = '-' || c = ':' || c = '_'

/-- What follows a sign at the front. -/
def skipSign (cs : List Char) : List Char := ((after? '+' cs).or (after? '-' cs)).getD cs

/-- Whether a text is a number in base ten with or without a point and an
exponent, or a word for an infinity or for no number, after a sign or not. -/
def isNumberText (cs : List Char) : Bool :=
  let cs := (skipSign cs).map Char.toLower
  let whole := cs.takeWhile Char.isDigit
  let r := cs.dropWhile Char.isDigit
  let part := ((after? '.' r).getD []).takeWhile Char.isDigit
  let r := ((after? '.' r).map (·.dropWhile Char.isDigit)).getD r
  ["inf", "infinity", "nan"].contains (String.ofList cs) ||
    (whole ++ part ≠ [] && match r with
      | [] => true
      | c :: r => c = 'e' && skipSign r ≠ [] && (skipSign r).all Char.isDigit)

/-- What a directive asks for between brackets. -/
inductive Scope where
  /-- The event has a field. -/
  | field (name : String)
  /-- The event happens in a span. -/
  | span
deriving Repr, DecidableEq

/-- The scope of a field or of a field with a value. -/
def Scope.ofField? (inSpan : Bool) (field : List Char) : Option Scope :=
  if field = [] then none
  else match splitAtChar '=' field with
    | _ :: value :: _ =>
        if isNumberText value || Pattern.isWellFormed value then some .span else none
    | _ => some (if inSpan then .span else .field (.ofList field))

/-- The scope between brackets with the offset of what follows and the rest.
The characters are those after the opening bracket, which are `start` bytes
into the part. -/
def Scope.read? (part : List Char) (start : Nat) (cs : List Char) :
    Option (Scope × Nat × List Char) :=
  let name := cs.takeWhile fun c => c != ']' && c != '\x7b'
  let first := start + byteCount name + 1
  match cs.dropWhile fun c => c != ']' && c != '\x7b' with
  | ']' :: r => some (.span, first, r)
  | _ :: r =>
      let last := first + byteCount (r.takeWhile (· != '\x7d'))
      match r.dropWhile (· != '\x7d') with
      | '\x7d' :: ']' :: r => do
          let scope ← Scope.ofField? (name != []) (← sliceBytes first last part)
          return (scope, last + 2, r)
      | _ => none
  | [] => none

/-- The threshold after a name or brackets.  The characters are the rest
there, which is `start` bytes into the part. -/
def Threshold.read? (part : List Char) (start : Nat) : List Char → Option Threshold
  | [] => some (some .trace)
  | '=' :: _ => do
      match ← dropBytes (start + 1) part with
      | [] => return some .trace
      | level => Threshold.ofText? level
  | _ => none

/-- The directives about events that a part between commas stands for. -/
def Directive.read? (part : List Char) : Option (List Directive) :=
  let core := trimBlanks part
  let name := core.takeWhile fun c => c != '=' && c != '['
  let size := byteCount name
  let rest := core.dropWhile fun c => c != '=' && c != '['
  let within (component : Option String) (r : List Char) : Option (List Directive) := do
    let (scope, start, r) ← Scope.read? part (size + 1) r
    let threshold ← Threshold.read? part start r
    match scope with
    | .field f => return [⟨component, some f, threshold⟩]
    | .span => return []
  match name, rest with
  | [], '[' :: r => within none r
  | [], _ => none
  | c :: _, r =>
      if !startsDirective c then none
      else match r with
        | [] => match Threshold.ofText? part with
          | some t => some [⟨none, none, t⟩]
          | none => some [⟨some (.ofList part), none, some .trace⟩]
        | '[' :: r => do within (some (.ofList (← takeBytes size part))) r
        | r => do
            return [⟨some (.ofList (← takeBytes size part)), none, ← Threshold.read? part size r⟩]

/-! ## Filters -/

/-- Which events the log shows. -/
abbrev LogFilter := List Directive

namespace LogFilter

/-- The same threshold for all events. -/
def everywhere (t : Threshold) : LogFilter := [⟨none, none, t⟩]

/-- The filter that a text describes. -/
def ofText? (text : String) : Option LogFilter :=
  match (splitAtChar ',' text.toList).filter (· != []) with
  | [] => some (everywhere (some .error))
  | parts => (parts.mapM Directive.read?).map List.flatten

/-- The directive that decides about an event. -/
def deciding? (f : LogFilter) (e : Event) : Option Directive :=
  (f.filter (·.covers e)).foldl (fun best d =>
    match best with
    | some b => if b.outranks d then best else some d
    | none => some d) none

/-- Whether a filter shows an event. -/
def shows (f : LogFilter) (e : Event) : Bool :=
  match f.deciding? e with
  | some d => d.threshold.allows e.level
  | none => false

/-- The filter of a run.  The variable `RUST_LOG` gives it, unless it is
absent or faulty. -/
def ofVariable (value : Option String) (verbose : Bool) : LogFilter :=
  (value.bind ofText?).getD (everywhere (some (if verbose then .debug else .info)))

end LogFilter

private def shown (filter : String) : Option (Bool × Bool) :=
  (LogFilter.ofText? filter).map fun f =>
    (f.shows (.analysisStarted ""), f.shows (.reportsWritten "" 4))

example : shown "info" = some (false, true) ∧ shown "OFF" = some (false, false) := by decide +kernel
example : shown "analizador=4,error" = some (true, false) := by decide +kernel
example : shown "anz" = some (false, true) ∧ shown "anz=bad" = none := by decide +kernel
example : shown ",," = some (false, false) ∧ shown "[x]=debug" = some (false, false) := by
  decide +kernel
example : shown "[\x7bmessage\x7d]" = some (true, true) ∧ shown "[\x7b\x7d]" = none := by
  decide +kernel
example : shown "[\x7bdir\x7d]=off,trace" = some (true, false) := by decide +kernel
example : shown "[\x7bdir=.*\x7d],debug" = some (true, true) := by decide +kernel
example : shown "[\x7bdir=(\x7d],debug" = none := by decide +kernel
example : shown "[\x7bdir=+1e5\x7d]" = some (false, false) := by decide +kernel
example : shown " debug" = some (false, false) ∧ shown " a=debug" = none := by decide +kernel

end Pdl
