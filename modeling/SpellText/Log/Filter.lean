import SpellText.Log.Event
import SpellText.Text.Alphanumeric
import SpellText.Text.Digit
import SpellText.Text.Split

/-!
# Filters

Which events a log tells of. A filter text has rules divided by commas: a level
for everything, or a part of the program with a level of its own, as in
`info,part=debug`. A rule for a part holds for every part whose name begins that
way, and of the rules that hold for an event the most specific one decides. A
part without a level has all its events told.

A rule may go on in brackets: `part[span]` concerns a stretch of work, of which
the program has none, and `part[{field}]` only events with that value. A text
with a rule that makes no sense is no filter.
-/

namespace SpellText.Log

/-- The level with a place in the order. -/
def Level.ofRank? : Nat → Option Level
  | 0 => some off
  | 1 => some error
  | 2 => some warn
  | 3 => some info
  | 4 => some debug
  | 5 => some trace
  | _ => none

/-- The level with a name in letters of any case, or with a number for its place
in the order. -/
def Level.ofName? (s : List Char) : Option Level :=
  let name := String.ofList (s.map Char.toLower)
  if name = "off" then some off
  else if name = "error" then some error
  else if name = "warn" then some warn
  else if name = "info" then some info
  else if name = "debug" then some debug
  else if name = "trace" then some trace
  else (Text.digitsValue? (if s.head? = some '+' then s.drop 1 else s)).bind ofRank?

/-- A rule of a filter. -/
structure Rule where
  /-- How the names of the parts begin that the rule is for, if not for all. -/
  part : Option String
  /-- The value that events have that the rule is for, if not for all. -/
  field : Option String
  level : Level
  deriving DecidableEq, Repr

namespace Rule

/-- The rule is about the event. -/
def concerns (r : Rule) (e : Event) : Bool :=
  r.part.all (fun p => p.toList.isPrefixOf e.part.toList) && r.field.all e.fields.contains

/-- How specific a rule is about the part: the length of the name that it gives. -/
def reach (r : Rule) : Nat :=
  match r.part with
  | some p => p.utf8ByteSize + 1
  | none => 0

/-- The rule `r` gives way to the rule `s` behind it, where both concern the same event. -/
def yieldsTo (r s : Rule) : Bool :=
  r.reach < s.reach || r.reach == s.reach &&
    match r.field, s.field with
    | none, _ => true
    | some _, none => false
    | some a, some b => !(b < a)

/-- The level behind an equals sign; everything where no level is named. -/
def level? : List Char → Option Level
  | [] => some .trace
  | ['='] => some .trace
  | '=' :: name => Level.ofName? name
  | _ => none

/-- The rest of a rule behind an opening bracket. A rule about stretches of work
gives no rule for events. -/
def ofBrackets? (part : Option String) (s : List Char) : Option (Option Rule) :=
  let isInner (c : Char) : Bool := c != ']' && c != '\x7b'
  match s.takeWhile isInner, s.dropWhile isInner with
  | _, ']' :: rest => (level? rest).map fun _ => none
  | span, _ :: rest =>
    let field := rest.takeWhile (· != '\x7d')
    match field, rest.dropWhile (· != '\x7d') with
    | _ :: _, _ :: ']' :: rest =>
      (level? rest).map fun level =>
        if span.isEmpty && !field.contains '=' then some ⟨part, some (String.ofList field), level⟩
        else none
    | _, _ => none
  | _, [] => none

/-- A character that the name of a part can begin with. -/
def isPartStart (c : Char) : Bool :=
  Text.isAlphanumeric c || c == '_' || c == ':' || c == '-'

/-- Read a rule, if it makes sense; it need not be about events. -/
def ofChars? (s : List Char) : Option (Option Rule) :=
  match s with
  | [] => none
  | '[' :: rest => ofBrackets? none rest
  | c :: _ =>
    if !isPartStart c then none
    else
      let isName (c : Char) : Bool := c != '=' && c != '['
      let name := some (String.ofList (s.takeWhile isName))
      match s.dropWhile isName with
      | [] =>
        match Level.ofName? s with
        | some level => some (some ⟨none, none, level⟩)
        | none => some (some ⟨name, none, .trace⟩)
      | '[' :: rest => ofBrackets? name rest
      | rest => (level? rest).map fun level => some ⟨name, none, level⟩

end Rule

/-- The rules that decide which events a log tells of. -/
abbrev Filter := List Rule

namespace Filter

/-- The filter of a log that nobody gave one: it tells of the main steps. -/
def default : Filter := [⟨none, none, .info⟩]

/-- Read a filter text, if it makes sense. -/
def ofText? (text : String) : Option Filter :=
  (((Text.split ',' text.toList).filter (!·.isEmpty)).mapM Rule.ofChars?).map (·.filterMap id)

/-- The rule that decides on an event. -/
def rule? (f : Filter) (e : Event) : Option Rule :=
  (f.filter (·.concerns e)).foldl
    (fun best r =>
      match best with
      | some b => if b.yieldsTo r then some r else some b
      | none => some r)
    none

/-- The log tells of the event. -/
def shows (f : Filter) (e : Event) : Bool :=
  match f.rule? e with
  | some r => e.level.rank ≤ r.level.rank
  | none => false

/-- The lines of the events that the log tells of. -/
def lines (f : Filter) (es : List Event) : String :=
  String.join ((es.filter f.shows).map Event.line)

end Filter

end SpellText.Log
