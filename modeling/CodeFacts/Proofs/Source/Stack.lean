import CodeFacts.Proofs.Source.Trace
import CodeFacts.Source.Telling

/-!
Units told with one stack of type variables. The variables of a declaration are put on the stack
while it is read or told and taken off again however that ends, so telling with the stack in place
is telling with a resolver handed down, and the stack ends as it began.
-/

namespace CodeFacts.Source

/-- Where the telling of a unit to a handler stands: the state of the handler, what it has said, and
what is known of names, with the type variables of the declarations around. -/
structure Stage (η : Type) where
  state : η
  notices : List Notice
  resolver : Resolver

/-- A step of the telling: why it ended, if not well, and where the telling stands then. -/
abbrev Act (η : Type) := Stage η → Option Fault × Stage η

namespace Act

variable {η : Type}

def tell [Handler η] (trace : Trace) : Act η := fun stage =>
  let (fault, notices, state) := trace.run stage.state
  (fault, { stage with state, notices := stage.notices ++ notices })

/-- One step after another, unless the first ends badly. -/
def andThen (first second : Act η) : Act η := fun stage =>
  match first stage with
  | (some fault, next) => (some fault, next)
  | (none, next) => second next

/-- A step with some type variables on the stack. They are taken off also when it ends badly. -/
def within (names : List String) (inside : Act η) : Act η := fun stage =>
  let (fault, next) := inside { stage with resolver := stage.resolver.enter names }
  match next.resolver.leave with
  | .error empty => (some empty, next)
  | .ok resolver => (fault, { next with resolver })

/-- Something read with some type variables on the stack, and a step with what was read after they
are taken off. -/
def reading {α : Type} (names : List String) (read : Resolver → Except Fault α)
    (next : α → Act η) : Act η := fun stage =>
  let inner := stage.resolver.enter names
  match inner.leave with
  | .error empty => (some empty, { stage with resolver := inner })
  | .ok resolver =>
      match read inner with
      | .error fault => (some fault, { stage with resolver })
      | .ok value => next value { stage with resolver }

end Act

variable {η : Type} [Handler η]

/-- A method told with what was read of its result, its parameters and what it throws. -/
def methodTold (owner : String) (inInterface : Bool) (declaration : ExecutableDeclaration)
    (overload : Nat) (read : TypeRef × List TypeRef × List TypeRef) : Trace :=
  Trace.ofCalls
    [.method (.text (visibilityOf inInterface declaration.keywords).word)
      (.text declaration.name) (Value.ofTexts (declaration.parameters.map (·.1))) read.2.1
      (some read.1)
      (bitsOf (methodModifiers inInterface declaration.hasBody declaration.keywords)) read.2.2
      (.int overload)] ++
    methodDocTrace owner declaration read.2.1

def methodAct (owner : String) (inInterface : Bool) (declaration : ExecutableDeclaration)
    (overload : Nat) : Act η :=
  match declaration.type with
  | none => Act.tell .empty
  | some written =>
      Act.reading declaration.typeVariables
        (fun inner => do
          let result ← inner.reference .classType written
          let types ← parameterTypes inner declaration
          return (result, types, ← inner.clause .exception declaration.exceptions))
        fun read => Act.tell (methodTold owner inInterface declaration overload read)

def constructorAct (declaration : ExecutableDeclaration) (overload : Nat) : Act η :=
  Act.reading declaration.typeVariables
    (fun inner => do
      let types ← parameterTypes inner declaration
      return (types, ← inner.clause .exception declaration.exceptions))
    fun read =>
      Act.tell <| Trace.ofCalls
        [.constructor (.text (Visibility.ofKeywords declaration.keywords).word) (.int overload)
          (Value.ofTexts (declaration.parameters.map (·.1))) read.1
          (bitsOf (Modifier.ofKeywords declaration.keywords)) read.2]

mutual

/-- A member told with the stack in place. -/
def memberAct (owner : String) (inInterface : Bool) (methods : List String)
    (constructors : Nat) : Member → Act η
  | .field declaration => fun stage =>
      Act.tell (fieldTrace stage.resolver inInterface declaration) stage
  | .method declaration =>
      methodAct owner inInterface declaration (methods.count declaration.name)
  | .constructor declaration => constructorAct declaration constructors
  | .type heading members =>
      let name := Dotted.within owner heading.name
      Act.within heading.typeVariables <|
        Act.andThen
          (fun stage => Act.tell
            (Trace.ofCall (openCall stage.resolver name inInterface heading) ++
              typeDocTrace name heading) stage) <|
        Act.andThen (membersAct name (heading.sort == .interface) [] 0 members) <|
        Act.tell (Trace.ofCalls [closeCall heading.sort])

def membersAct (owner : String) (inInterface : Bool) (methods : List String)
    (constructors : Nat) : List Member → Act η
  | [] => Act.tell .empty
  | member :: rest =>
      Act.andThen (memberAct owner inInterface methods constructors member) <|
        match member with
        | .method declaration =>
            membersAct owner inInterface (declaration.name :: methods) constructors rest
        | .constructor _ => membersAct owner inInterface methods (constructors + 1) rest
        | _ => membersAct owner inInterface methods constructors rest

end

/-- The types of a unit told with the stack in place. -/
def Outline.act (outline : Outline) : Act η :=
  let types := membersAct outline.package false [] 0 outline.types
  if outline.package = "" then types
  else
    Act.andThen (Act.tell (Trace.ofCalls [.startPackage (.text outline.package)])) <|
      Act.andThen types (Act.tell (Trace.ofCalls [.endPackage]))

/-! ### The stack ends as it began -/

/-- Whether a step tells a trace that what is known of names decides, and leaves what is known as it
was. -/
def Tells (act : Act η) (trace : Resolver → Trace) : Prop :=
  ∀ stage, act stage = Act.tell (trace stage.resolver) stage

theorem tells_tell (trace : Trace) : Tells (Act.tell trace : Act η) fun _ => trace :=
  fun _ => rfl

theorem Tells.andThen {first second : Act η} {one other : Resolver → Trace}
    (first_tells : Tells first one) (second_tells : Tells second other) :
    Tells (first.andThen second) fun resolver => one resolver ++ other resolver := by
  intro stage
  have split := Trace.run_append (one stage.resolver) (other stage.resolver) stage.state
  simp only [Act.andThen, first_tells stage, Act.tell]
  rw [split]
  generalize (one stage.resolver).run stage.state = run
  obtain ⟨fault | fault, notices, next⟩ := run
  · dsimp only
    rw [second_tells]
    simp only [Act.tell, List.append_assoc]
  · rfl

theorem Tells.within {inside : Act η} {trace : Resolver → Trace} (tells : Tells inside trace)
    (names : List String) :
    Tells (Act.within names inside) fun resolver => trace (resolver.enter names) := by
  intro stage
  simp only [Act.within, tells _, Act.tell]
  rfl

theorem tells_reading {α : Type} (names : List String) {read : Resolver → Except Fault α}
    {next : α → Act η} {trace : α → Trace}
    (tells : ∀ value, Tells (next value) fun _ => trace value) :
    Tells (Act.reading names read next) fun resolver =>
      match read (resolver.enter names) with
      | .error fault => .stop fault
      | .ok value => trace value := by
  intro stage
  have back : (stage.resolver.enter names).leave = .ok stage.resolver := rfl
  simp only [Act.reading, back]
  cases read (stage.resolver.enter names) with
  | error fault => simp [Act.tell, Trace.run, Trace.stop, Handler.handleAll]
  | ok value => exact tells value stage

theorem tells_method (owner : String) (inInterface : Bool) (declaration : ExecutableDeclaration)
    (overload : Nat) :
    Tells (methodAct owner inInterface declaration overload : Act η) fun resolver =>
      methodTrace resolver owner inInterface declaration overload := by
  intro stage
  unfold methodAct methodTrace
  cases declaration.type with
  | none => rfl
  | some written =>
      refine (tells_reading _ (fun _ => tells_tell _) stage).trans ?_
      dsimp only
      congr 1
      split
      · rename_i refused
        rw [refused]
      · rename_i read
        rw [read]
        rfl

theorem tells_constructor (declaration : ExecutableDeclaration) (overload : Nat) :
    Tells (constructorAct declaration overload : Act η) fun resolver =>
      constructorTrace resolver declaration overload := by
  intro stage
  have read : Tells (constructorAct declaration overload : Act η) _ :=
    tells_reading _ fun _ => tells_tell _
  rw [read stage]
  unfold constructorTrace
  dsimp only
  cases parameterTypes (stage.resolver.enter declaration.typeVariables) declaration with
  | error fault => rfl
  | ok types =>
      cases (stage.resolver.enter declaration.typeVariables).clause .exception
        declaration.exceptions <;> rfl

mutual

theorem tells_member (owner : String) (inInterface : Bool) (methods : List String)
    (constructors : Nat) : ∀ member : Member,
    Tells (memberAct owner inInterface methods constructors member : Act η) fun resolver =>
      memberTrace resolver owner inInterface methods constructors member
  | .field _ => fun _ => rfl
  | .method declaration => tells_method owner inInterface declaration _
  | .constructor declaration => tells_constructor declaration constructors
  | .type heading members => by
      intro stage
      have inside := tells_members (Dotted.within owner heading.name)
        (heading.sort == .interface) [] 0 members
      have opened : Tells (fun stage => Act.tell
          (Trace.ofCall (openCall stage.resolver (Dotted.within owner heading.name) inInterface
              heading) ++
            typeDocTrace (Dotted.within owner heading.name) heading) stage : Act η)
          fun resolver =>
            Trace.ofCall (openCall resolver (Dotted.within owner heading.name) inInterface
              heading) ++
            typeDocTrace (Dotted.within owner heading.name) heading :=
        fun _ => rfl
      have block := (opened.andThen (inside.andThen
        (tells_tell (Trace.ofCalls [closeCall heading.sort])))).within heading.typeVariables
      rw [memberAct, block stage]
      simp only [memberTrace, Trace.append_assoc]

theorem tells_members (owner : String) (inInterface : Bool) (methods : List String)
    (constructors : Nat) : ∀ members : List Member,
    Tells (membersAct owner inInterface methods constructors members : Act η) fun resolver =>
      memberTraces resolver owner inInterface methods constructors members
  | [] => tells_tell .empty
  | member :: rest => by
      have this := tells_member owner inInterface methods constructors member
      have later := fun methods constructors =>
        tells_members owner inInterface methods constructors rest
      cases member <;> exact this.andThen (later _ _)

end

/-- The types of a unit are told as their trace to any handler, and whatever it does with the calls,
the stack of type variables ends as it began. -/
theorem tells_outline (outline : Outline) (symbols : SymbolTable) (stage : Stage η)
    (begun : stage.resolver = outline.resolver symbols) :
    outline.act stage = Act.tell (outline.trace symbols) stage := by
  have types := tells_members (η := η) outline.package false [] 0 outline.types
  unfold Outline.act Outline.trace
  rw [← begun]
  by_cases empty : outline.package = ""
  · simp only [if_pos empty]
    exact types stage
  · simp only [if_neg empty, Trace.append_assoc]
    exact ((tells_tell _).andThen (types.andThen (tells_tell _))) stage

end CodeFacts.Source
