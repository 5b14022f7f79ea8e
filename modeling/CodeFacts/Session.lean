import CodeFacts.Builder.Handle
import CodeFacts.Recorder
import CodeFacts.Tally

/-!
Sessions: a builder over a model, with a tally and a recorder around it as wanted, and listeners
that hear every notice.
-/

namespace CodeFacts

/-- What is put around the builder of a session. A recorder can also stand alone. -/
inductive Arrangement where
  | builder
  | statistics
  | recordedBuilder
  | recordedStatistics
  | recorder
  deriving DecidableEq, Repr

def Arrangement.ofWord? : String → Option Arrangement
  | "builder" => some .builder
  | "statistics" => some .statistics
  | "record+builder" => some .recordedBuilder
  | "record+statistics" => some .recordedStatistics
  | "record" => some .recorder
  | _ => none

/-- A builder, with a tally around it or without one. -/
inductive Stage (σ : Type) where
  | plain (builder : Builder σ)
  | counted (tally : Tally (Builder σ))

namespace Stage

variable {σ : Type}

def builder : Stage σ → Builder σ
  | .plain builder => builder
  | .counted tally => tally.wrapped

def tally? : Stage σ → Option (Tally (Builder σ))
  | .plain _ => none
  | .counted tally => some tally

def mapBuilder (change : Builder σ → Builder σ) : Stage σ → Stage σ
  | .plain builder => .plain (change builder)
  | .counted tally => .counted { tally with wrapped := change tally.wrapped }

def mapTally (change : Tally (Builder σ) → Tally (Builder σ)) : Stage σ → Stage σ
  | .plain builder => .plain builder
  | .counted tally => .counted (change tally)

instance [TripleStore σ] : Handler (Stage σ) where
  handle call
    | .plain builder =>
        let (reply, next) := builder.handle call
        (reply, .plain next)
    | .counted tally =>
        let (reply, next) := tally.handle call
        (reply, .counted next)

end Stage

/-- A stage, with a recorder around it or without one. A recorder that stands alone keeps the model
beside it. -/
inductive Chain (σ : Type) where
  | direct (stage : Stage σ)
  | recorded (stage : Stage σ) (log : List Event)
  | alone (model : Model σ) (log : List Event)

namespace Chain

variable {σ : Type}

def stage? : Chain σ → Option (Stage σ)
  | .direct stage => some stage
  | .recorded stage _ => some stage
  | .alone _ _ => none

def log? : Chain σ → Option (List Event)
  | .direct _ => none
  | .recorded _ log => some log
  | .alone _ log => some log

def model : Chain σ → Model σ
  | .direct stage => stage.builder.model
  | .recorded stage _ => stage.builder.model
  | .alone model _ => model

def mapStage (change : Stage σ → Stage σ) : Chain σ → Chain σ
  | .direct stage => .direct (change stage)
  | .recorded stage log => .recorded (change stage) log
  | .alone model log => .alone model log

def withModel (model : Model σ) : Chain σ → Chain σ
  | .alone _ log => .alone model log
  | chain => chain.mapStage (·.mapBuilder fun builder => { builder with model })

def start [TripleStore σ] (model : Model σ) (date : String) (clock : Float) :
    Arrangement → Chain σ
  | .builder => .direct (.plain (Builder.start model date))
  | .statistics => .direct (.counted (Tally.start (Builder.start model date) clock))
  | .recordedBuilder => .recorded (.plain (Builder.start model date)) []
  | .recordedStatistics => .recorded (.counted (Tally.start (Builder.start model date) clock)) []
  | .recorder => .alone model []

instance [TripleStore σ] : Handler (Chain σ) where
  handle call
    | .direct stage =>
        let (reply, next) := Handler.handle call stage
        (reply, .direct next)
    | .recorded stage log =>
        let recorder : Recorder (Stage σ) := ⟨some stage, log⟩
        let (reply, next) := recorder.handle call
        (reply, .recorded (next.wrapped.getD stage) next.log)
    | .alone model log =>
        let recorder : Recorder (Stage σ) := ⟨none, log⟩
        let (reply, next) := recorder.handle call
        (reply, .alone model next.log)

end Chain

/-- A chain, the names of those that listen to it, and the tally of the last chain that had one.
Libraries are stamped with the date; the clock is in seconds. -/
structure Session (σ : Type) where
  chain : Chain σ
  lastTally : Option (Tally (Builder σ))
  listeners : List String
  date : String
  clock : Float

namespace Session

variable {σ : Type} [TripleStore σ]

def start (model : Model σ) (arrangement : Arrangement) (listeners : List String)
    (date : String) : Session σ where
  chain := Chain.start model date 0 arrangement
  lastTally := none
  listeners := listeners
  date := date
  clock := 0

def model (session : Session σ) : Model σ := session.chain.model

def withModel (session : Session σ) (model : Model σ) : Session σ :=
  { session with chain := session.chain.withModel model }

def withStore (session : Session σ) (store : σ) : Session σ :=
  session.withModel { session.model with store }

def builder? (session : Session σ) : Option (Builder σ) := session.chain.stage?.map Stage.builder

/-- The tally of the chain, or of the last chain that had one. -/
def tally? (session : Session σ) : Option (Tally (Builder σ)) :=
  (session.chain.stage?.bind Stage.tally?).or session.lastTally

def mapTally (session : Session σ) (change : Tally (Builder σ) → Tally (Builder σ)) : Session σ :=
  match session.chain.stage?.bind Stage.tally? with
  | some _ => { session with chain := session.chain.mapStage (·.mapTally change) }
  | none => { session with lastTally := session.lastTally.map change }

/-- The counts of a session, if it ever had a tally. -/
def statistics? (session : Session σ) : Option Statistics := session.tally?.map Tally.statistics

def tick (session : Session σ) (seconds : Float) : Session σ :=
  { session.mapTally (·.tick seconds) with clock := session.clock + seconds }

/-- A session with a new chain over its model, to which nobody listens. -/
def renew (session : Session σ) (arrangement : Arrangement) : Session σ :=
  { session with
    chain := Chain.start session.model session.date session.clock arrangement
    lastTally := session.tally?
    listeners := [] }

/-- A session with one more listener; each listens once. -/
def listen (session : Session σ) (name : String) : Session σ :=
  if name ∈ session.listeners then session
  else { session with listeners := session.listeners ++ [name] }

def silence (session : Session σ) (name : String) : Session σ :=
  { session with listeners := session.listeners.erase name }

/-- How many listen: the listeners, and the tally of the chain. -/
def audience (session : Session σ) : Nat :=
  session.listeners.length + (session.chain.stage?.bind Stage.tally?).toList.length

/-- Who hears what: each notice is told to every listener before the next. -/
def heard (session : Session σ) (notices : List Notice) : List (String × Notice) :=
  notices.flatMap fun notice => session.listeners.map (·, notice)

instance : Handler (Session σ) where
  handle call session :=
    let (reply, chain) := Handler.handle call session.chain
    (reply, { session with chain })

end Session

end CodeFacts
