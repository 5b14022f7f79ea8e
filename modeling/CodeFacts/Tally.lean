import CodeFacts.Call
import CodeFacts.Text.Decimal

/-!
Tallies: they pass every call on to another handler and count those it accepts. The end of a run
freezes a tally until it is reset.
-/

namespace CodeFacts

inductive Counter where
  | units
  | packages
  | classes
  | interfaces
  | enumerations
  | attributes
  | constructors
  | methods
  | parseErrors
  | unresolved
  | entries
  | classDocs
  | methodDocs
  deriving DecidableEq, Repr

namespace Counter

/-- Every counter, in the order of reports. -/
def all : List Counter :=
  [.units, .packages, .classes, .interfaces, .enumerations, .attributes, .constructors, .methods,
    .parseErrors, .unresolved, .entries, .classDocs, .methodDocs]

def key : Counter → String
  | .units => "compilation_units"
  | .packages => "packages"
  | .classes => "classes"
  | .interfaces => "interfaces"
  | .enumerations => "enumerations"
  | .attributes => "attributes"
  | .constructors => "constructors"
  | .methods => "methods"
  | .parseErrors => "parse_errors"
  | .unresolved => "unresolved"
  | .entries => "javadoc_entries"
  | .classDocs => "classes_javadoc"
  | .methodDocs => "methods_javadoc"

def label (counter : Counter) : String :=
  String.ofList (counter.key.toList.map fun c => if c = '_' then ' ' else c)

/-- The counter of a call, for the calls that are counted. -/
def ofCall? : Call → Option Counter
  | .startUnit .. => some .units
  | .startPackage .. => some .packages
  | .startClass .. => some .classes
  | .startInterface .. => some .interfaces
  | .startEnumeration .. => some .enumerations
  | .attribute .. => some .attributes
  | .constructor .. => some .constructors
  | .method .. => some .methods
  | .parseError .. => some .parseErrors
  | .parsedEntry .. => some .entries
  | .classDoc .. => some .classDocs
  | .methodDoc .. => some .methodDocs
  | _ => none

end Counter

structure Statistics where
  count : Counter → Nat
  unresolvedTypes : List String
  errors : List String
  seconds : Float

namespace Statistics

def time (statistics : Statistics) : String := Text.threePlaces statistics.seconds

def report (statistics : Statistics) : List String :=
  Counter.all.map (fun counter => s!"{counter.label}: {statistics.count counter}") ++
    [s!"parsing time: {statistics.time}s"] ++
    (if statistics.unresolvedTypes = [] then []
    else ["unresolved types: " ++ ", ".intercalate statistics.unresolvedTypes])

def text (statistics : Statistics) : String := "\n".intercalate statistics.report

def toValue (statistics : Statistics) : Value :=
  .record (Counter.all.map (fun counter => (counter.key, .int (statistics.count counter))) ++
    [("unresolved_types", Value.ofTexts statistics.unresolvedTypes),
      ("errors", Value.ofTexts statistics.errors), ("parsing_time", .text statistics.time)])

end Statistics

/-- A handler and what was counted of the calls it accepted: a counter for each, in the order they
came, newest first. Times are in seconds. -/
structure Tally (η : Type) where
  wrapped : η
  frozen : Bool
  counted : List Counter
  unresolved : List String
  errors : List String
  started : Option Float
  elapsed : Float
  clock : Float

namespace Tally

variable {η : Type}

def start (wrapped : η) (clock : Float) : Tally η :=
  ⟨wrapped, false, [], [], [], none, 0, clock⟩

def reset (tally : Tally η) : Tally η := start tally.wrapped tally.clock

def tick (tally : Tally η) (seconds : Float) : Tally η :=
  { tally with clock := tally.clock + seconds }

/-- The names that notices say nothing is known under. -/
def unresolvedNames (notices : List Notice) : List String :=
  notices.filterMap fun
    | .unresolvedType name => some name
    | _ => none

/-- What a call that was accepted starts or ends. -/
def mark (tally : Tally η) : Call → Tally η
  | .startParsing .. => { tally with started := some tally.clock }
  | .endParsing =>
      { tally with
        frozen := true
        elapsed := (tally.started.map (tally.clock - ·)).getD tally.elapsed }
  | .parseError location description =>
      { tally with errors := tally.errors ++ [Call.errorText location description] }
  | _ => tally

/-- A tally with one more call that was accepted. -/
def count (tally : Tally η) (call : Call) (notices : List Notice) : Tally η :=
  if tally.frozen then tally
  else
    let names := unresolvedNames notices
    mark
      { tally with
        counted :=
          (Counter.ofCall? call).toList ++ names.map (fun _ => Counter.unresolved) ++ tally.counted
        unresolved := names ++ tally.unresolved }
      call

/-- The reply of the wrapped handler, counted if it accepts. -/
def handle [Handler η] (tally : Tally η) (call : Call) : Reply × Tally η :=
  let (reply, wrapped) := Handler.handle call tally.wrapped
  let next := { tally with wrapped }
  (reply, if reply.isAccepted then next.count call reply.notices else next)

instance [Handler η] : Handler (Tally η) where
  handle call tally := tally.handle call

def seconds (tally : Tally η) : Float :=
  match tally.started with
  | some start => if tally.frozen then tally.elapsed else tally.clock - start
  | none => tally.elapsed

/-- The counts now. Unresolved names are sorted and come once each. -/
def statistics (tally : Tally η) : Statistics where
  count counter := tally.counted.count counter
  unresolvedTypes := tally.unresolved.eraseDups.mergeSort fun left right => decide (left ≤ right)
  errors := tally.errors
  seconds := tally.seconds

end Tally

end CodeFacts
