import DataRepository.Number.Nearest
import DataRepository.Telemetry.Directive

/-!
# Log filters

Which events are recorded.  A filter is a list of directives.  Of those that are for an event, the one
that names it most closely counts; where there is none, the event is not recorded.  A directive with a
condition on the component lets the component be named, and records what happens in it, besides.
-/
namespace DataRepository.Telemetry

abbrev Filter := List Directive

namespace Directive

/-- Whether the directive is for this part. -/
def covers (d : Directive) (target : String) : Bool := d.target.toList.isPrefixOf target.toList

/-- Whether the directive has a condition on the component. -/
def isConditional (d : Directive) : Bool := d.span.isSome || d.field.isSome

/-- Whether the directive is for events by themselves: it names no component, nor the value of a
field. -/
def isStanding (d : Directive) : Bool := d.span.isNone && d.field.all (·.value.isNone)

/-- Whether an event with these fields has the field that the directive asks for. -/
def asksFor (d : Directive) (fields : List String) : Bool :=
  d.field.all fun f => fields.contains f.name

/-- Whether a directive names an event less closely than another one for the same event, or in the
same way. -/
def isWider (d e : Directive) : Bool :=
  let name (d : Directive) := (d.field.map (·.name)).getD ""
  d.target.length < e.target.length ∨ d.target.length = e.target.length ∧
    (d.field.isNone ∨ e.field.isSome ∧ name d ≤ name e)

/-- Whether two directives have one and the same condition. -/
def sameCondition (d e : Directive) : Bool :=
  d.target = e.target ∧ d.span = e.span ∧ d.field = e.field

/-- The part of the program that opens components. -/
def spanTarget : String := "udr::telemetry::init"

/-- Whether the directive is for the components of the program. -/
def watches (d : Directive) : Bool :=
  d.covers spanTarget && d.span.all (· = Span.name) && d.asksFor Span.fieldNames

/-- Whether a field of the component is what the condition of a directive asks for.  A numeral or a
truth value in a condition is compared with fields of that kind, of which a component has none. -/
def holdsFor (d : Directive) (s : Span) : Bool :=
  d.field.all fun f => f.value.all fun v =>
    s.fields.contains (f.name, .string v) &&
      ! (["true", "false"].contains v || (Double.ofText? v.toList).isSome)

end Directive

namespace Filter

/-- The filter that records errors only. -/
def errorsOnly : Filter := [{ rank := Level.error.rank }]

/-- The filter of some directives; without any, errors are recorded. -/
def ofDirectives (ds : List Directive) : Filter := if ds = [] then errorsOnly else ds

def ofText? (text : String) : Option Filter :=
  let readings : Option (List Directive) := (directives text).mapM fun (_, r) => r.toOption
  readings.map ofDirectives

/-- Reads a filter; faulty directives are left out. -/
def ofTextLossy (text : String) : Filter :=
  ofDirectives ((directives text).filterMap fun (_, r) => r.toOption)

/-- The faulty directives of a text, and what is wrong with them. -/
def faults (text : String) : List (String × Directive.Flaw) :=
  (directives text).filterMap fun (d, reading) =>
    match reading with
    | .ok _ => none
    | .error flaw => some (d, flaw)

/-- The directives for events by themselves. -/
def standing (f : Filter) : List Directive :=
  (f.filter fun d => d.isStanding && ! d.isConditional) ++
    f.filter fun d => d.isStanding && d.isConditional

/-- The directives with a condition on the component; of several with one condition the last one
counts. -/
def conditional (f : Filter) : List Directive :=
  (f.filter (·.isConditional)).foldr
    (fun d kept => if kept.any (·.sameCondition d) then kept else d :: kept) []

/-- The directive that counts among those for an event: the closest, and of equal ones the last. -/
def closest (ds : List Directive) : Option Directive :=
  ds.foldl (fun best d =>
    match best with
    | some b => if b.isWider d then some d else some b
    | none => some d) none

/-- Whether the closest of some directives is for this level. -/
def reaches (ds : List Directive) (level : Level) : Bool :=
  match closest ds with
  | some d => level.rank ≤ d.rank
  | none => false

/-- The greatest rank of some directives; that of no level without any. -/
def topRank (ds : List Directive) : Nat := (ds.map (·.rank)).foldl max 0

/-- The greatest rank that anything can be recorded at.  A condition on the value of a field, which is
known late, leaves every rank open. -/
def ceiling (f : Filter) : Nat :=
  if f.conditional.any (·.field.any (·.value.isSome)) then Level.trace.rank
  else max (topRank f.standing) (topRank f.conditional)

/-- Whether components are named with their events. -/
def namesSpans (f : Filter) : Bool :=
  Level.info.rank ≤ f.ceiling &&
    (f.conditional.any (·.watches) || reaches (f.standing.filter (·.covers Directive.spanTarget)) .info)

/-- The greatest rank of what is recorded for happening in a component. -/
def spanRank (f : Filter) (s : Span) : Nat :=
  topRank (f.conditional.filter fun d => d.watches && d.holdsFor s)

def admits (f : Filter) (e : Event) : Bool :=
  reaches (f.standing.filter fun d => d.covers e.target && d.asksFor e.fieldNames) e.level ||
    f.namesSpans && e.span.any fun s => e.level.rank ≤ f.spanRank s

/-- What a filter leaves of the events; components are named if they are recorded. -/
def apply (f : Filter) (events : List Event) : List Event :=
  (events.filter f.admits).map fun e => { e with span := if f.namesSpans then e.span else none }

example :
    let e : Event := { level := .info, target := "udr::sbi::server", message := "m" }
    (ofTextLossy "udr=info,net=off").admits e ∧ ! (ofTextLossy "udr=warn").admits e ∧
      ! (ofTextLossy "").admits e ∧ ! (ofTextLossy "[{addr}]=info").admits e ∧
      (ofTextLossy "warn,[udr]=info").admits { e with span := some ⟨"sbi", "1"⟩ } := by
  decide +kernel

end Filter

end DataRepository.Telemetry
