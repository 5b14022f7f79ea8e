import CodeFacts.Event.Log
import CodeFacts.Ontology.Profile
import CodeFacts.Session
import CodeFacts.Store.Memory

/-!
Commands: what can be asked on the command line, and the lines of the answers. The model asked about
is the one that the calls of a recorded log build.
-/

namespace CodeFacts

/-- What is asked. Logs are named by their paths. -/
inductive Command where
  | help
  | ontology
  | report (log : String)
  | search (log : String) (pattern : Pattern)

namespace Command

def usage : List String :=
  ["usage: codefacts ontology",
    "       codefacts report LOG",
    "       codefacts search LOG [SUBJECT [PREDICATE [OBJECT]]]",
    "A term written - stands for any term."]

/-- A term of a search, if it is not left open. -/
def term? (word : String) : Option String := if word = "-" then none else some word

def ofArguments : List String → Command
  | ["ontology"] => .ontology
  | ["report", log] => .report log
  | ["search", log] => .search log .any
  | ["search", log, subject] => .search log ⟨term? subject, none, none⟩
  | ["search", log, subject, predicate] => .search log ⟨term? subject, term? predicate, none⟩
  | ["search", log, subject, predicate, object] =>
      .search log ⟨term? subject, term? predicate, term? object⟩
  | _ => .help

def log? : Command → Option String
  | .report log => some log
  | .search log _ => some log
  | _ => none

/-- The session after the calls of a log, all of which must be accepted. -/
def replayed (text date : String) : Except Fault (Session MemoryStore) := do
  let events ← EventLog.read text
  let model : Model MemoryStore := ⟨Ontology.java, .empty, .empty⟩
  match Event.replay (Session.start model .statistics [] date) events with
  | (none, _, session) => return session
  | (some fault, _, _) => .error fault

/-- A triple as a line, a literal in quotes. -/
def tripleLine (triple : Triple) : String :=
  let object := if triple.literal then "\"" ++ triple.object ++ "\"" else triple.object
  triple.subject ++ " " ++ triple.predicate ++ " " ++ object

/-- How many triples a model has for each predicate, as lines. -/
def countLines (store : MemoryStore) : List String :=
  ((Store.predicateCounts store).map fun (predicate, count) => s!"{predicate}: {count}").mergeSort
    fun left right => decide (left ≤ right)

/-- The lines that answer a command, given the text of its log and the date. -/
def answer (command : Command) (text date : String) : Except Fault (List String) :=
  match command with
  | .help => .ok usage
  | .ontology => .ok Ontology.java.lines
  | .report _ => do
      let session ← replayed text date
      return ((session.statistics?.map Statistics.report).getD []) ++
        countLines session.model.store
  | .search _ pattern => do
      let session ← replayed text date
      return (TripleStore.search session.model.store pattern).map tripleLine

end Command

end CodeFacts
