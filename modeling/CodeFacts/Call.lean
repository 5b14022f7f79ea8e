import CodeFacts.DocEntry
import CodeFacts.TypeRef

/-!
The calls by which the structure of code is told, in the order of the text, and the notices sent
back while they are handled. Every call that opens a container is paired with one that closes it.
-/

namespace CodeFacts

/-- A step in telling the structure of code. Types come as references and modifiers as bits; all
other fields come unchecked. -/
inductive Call where
  | startParsing (library location : Value)
  | endParsing
  | startUnit (name : Value)
  | endUnit
  | startPackage (name : Value)
  | endPackage
  | startClass (visibility name : Value) (modifiers : List Nat) (extended : Option TypeRef)
      (implemented : List TypeRef)
  | endClass
  | startInterface (name : Value) (extended : List TypeRef) (visibility : Value)
      (modifiers : List Nat)
  | endInterface
  | startEnumeration (visibility name elements : Value) (modifiers : List Nat)
      (implemented : List TypeRef)
  | endEnumeration
  | attribute (visibility name : Value) (type : TypeRef) (modifiers : List Nat) (value : Value)
  | constructor (visibility overload parameters : Value) (types : List TypeRef)
      (modifiers : List Nat) (exceptions : List TypeRef)
  | method (visibility name parameters : Value) (types : List TypeRef) (result : Option TypeRef)
      (modifiers : List Nat) (exceptions : List TypeRef) (overload : Value)
  | parseError (location description : Value)
  | parsedEntry (entry : DocEntry)
  | classDoc (entry : DocEntry) (path : Value)
  | methodDoc (entry : DocEntry) (path signature : Value)

/-- What is told to listeners while a call is handled. -/
inductive Notice where
  | unresolvedType (name : String)
  | parseError (location description : Value)
  | packageDiscrepancy (declared expected : String)

def Notice.words : Notice → List Value
  | .unresolvedType name => [.text "unresolved_type", .text name]
  | .parseError location description => [.text "parse_error", location, description]
  | .packageDiscrepancy declared expected =>
      [.text "package_discrepancy", .text declared, .text expected]

def Call.errorText (location description : Value) : String :=
  location.plain ++ ": " ++ description.plain

/-- How a call ended, and what was told to listeners in the meantime. -/
structure Reply where
  outcome : Except Fault Unit
  notices : List Notice

namespace Reply

def accepted (notices : List Notice) : Reply := ⟨.ok (), notices⟩

def refused (fault : Fault) (notices : List Notice) : Reply := ⟨.error fault, notices⟩

def isAccepted (reply : Reply) : Bool := reply.outcome.isOk

theorem isAccepted_eq_true_iff {reply : Reply} :
    reply.isAccepted = true ↔ reply.outcome = .ok () := by
  unfold isAccepted
  cases reply.outcome with
  | error fault => exact iff_of_false nofun nofun
  | ok _ => exact iff_of_true rfl rfl

theorem isAccepted_eq_false_iff {reply : Reply} :
    reply.isAccepted = false ↔ ∃ fault, reply.outcome = .error fault := by
  unfold isAccepted
  cases reply.outcome with
  | error fault => exact iff_of_true rfl ⟨fault, rfl⟩
  | ok _ => exact iff_of_false nofun nofun

end Reply

/-- Something that handles calls, keeping a state. -/
class Handler (η : Type) where
  /-- The reply to a call and the state after it. -/
  handle : Call → η → Reply × η

/-- Calls handled one after the other up to the first that is refused: the fault of that one, all
notices, and the state after it. -/
def Handler.handleAll {η : Type} [Handler η] (state : η) :
    List Call → Option Fault × List Notice × η
  | [] => (none, [], state)
  | call :: rest =>
      let (reply, next) := Handler.handle call state
      match reply.outcome with
      | .error fault => (some fault, reply.notices, next)
      | .ok _ =>
          let (fault, notices, last) := Handler.handleAll next rest
          (fault, reply.notices ++ notices, last)

theorem Handler.handleAll_append {η : Type} [Handler η] (first second : List Call) (state : η) :
    Handler.handleAll state (first ++ second) =
      match Handler.handleAll state first with
      | (some fault, notices, next) => (some fault, notices, next)
      | (none, notices, next) =>
          let (fault, more, last) := Handler.handleAll next second
          (fault, notices ++ more, last) := by
  induction first generalizing state with
  | nil => rfl
  | cons call rest ih =>
      simp only [List.cons_append, Handler.handleAll]
      cases (Handler.handle call state).1.outcome with
      | error fault => rfl
      | ok _ =>
          simp only [ih]
          generalize Handler.handleAll (Handler.handle call state).2 rest = run
          obtain ⟨fault, notices, next⟩ := run
          cases fault with
          | some fault => rfl
          | none => simp [List.append_assoc]

end CodeFacts
