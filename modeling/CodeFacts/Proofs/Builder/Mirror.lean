import CodeFacts.Proofs.Builder.Atomic
import CodeFacts.Proofs.Names
import Mathlib.Data.List.TakeWhile

/-!
The path of a builder against its open scopes. The path mirrors the scopes as long as no package is
refused at a segment behind its first; the segments before that one stay on the path until the next
run begins.
-/

namespace CodeFacts

/-- The fragments a scope put on the path, the last of its identifier. -/
def Scope.own (scope : Scope) : List Fragment :=
  scope.identifier.fragments.drop (scope.identifier.size - scope.pushed)

namespace Builder

variable {σ : Type} [TripleStore σ]

/-- The path is what the open scopes put on it, which is the identifier of the innermost one, and
every scope is called by the names of its identifier. -/
structure Mirrors (builder : Builder σ) : Prop where
  fragments : builder.path.fragments = builder.scopes.reverse.flatMap Scope.own
  size : builder.path.size = (builder.scopes.map (·.pushed)).sum
  built : builder.path = (builder.scopes.head?.map (·.identifier)).getD .empty
  names : ∀ scope ∈ builder.scopes,
    scope.name = Dotted.join (scope.identifier.fragments.map (·.name))

/-- Whether a text may be the name of a fragment. -/
def plain (segment : String) : Bool := (reservedMark? segment).isNone

/-- How many segments stand before the first that is refused; where none is refused, none stay. -/
def leftBefore (segments : List String) : Nat :=
  if segments.all plain then 0 else (segments.takeWhile plain).length

/-- How many fragments a call leaves on the path that belong to no scope. -/
def leftOver (builder : Builder σ) : Call → Nat
  | .startPackage name =>
      match builder.phase, builder.packageName name with
      | .parsing, .ok (_, segments) => leftBefore segments
      | _, _ => 0
  | _ => 0

/-- Whether a call begins a run, which clears the path. -/
def begins (builder : Builder σ) : Call → Bool
  | .startParsing library location => (builder.startParsing library location).1.isAccepted
  | _ => false

/-- How many fragments on the path belong to no scope after some calls, if it was some before. -/
def stray (builder : Builder σ) (before : Nat) : List Call → Nat
  | [] => before
  | call :: rest =>
      (builder.handle call).2.stray
        (if builder.begins call then 0 else before + builder.leftOver call) rest

/-! What fragments go onto a path. -/

theorem child_refused (path : Identifier) {segment : String} (kind : EntityKind)
    (forbidden : plain segment = false) : ∃ fault, path.child segment kind.key = .error fault := by
  have invalid : ¬(reservedMark? segment = none ∧ reservedMark? kind.key = none ∧
      kind.key ≠ "") := by
    rintro ⟨unmarked, _⟩
    rw [plain, unmarked] at forbidden
    cases forbidden
  rw [Identifier.child, Fragment.make, dif_neg invalid]
  exact ⟨_, rfl⟩

theorem pushAll_eq (kind : EntityKind) (segments : List String) (path : Identifier) :
    ∃ more fault, pushAll kind path segments =
        ({ path with fragments := path.fragments ++ more }, fault) ∧
      more.map (·.name) = segments.takeWhile plain ∧
      (fault = none ↔ segments.all plain = true) := by
  induction segments generalizing path with
  | nil => exact ⟨[], none, by simp [pushAll], rfl, by simp⟩
  | cons segment rest ih =>
      unfold pushAll
      cases allowed : plain segment with
      | true =>
          obtain ⟨next, pushed, _⟩ := path.child_plain kind (Option.isNone_iff_eq_none.mp allowed)
          obtain ⟨fragment, rfl, named, _⟩ := Identifier.push_of_child pushed
          obtain ⟨more, fault, later, names, complete⟩ := ih (path.push fragment)
          refine ⟨fragment :: more, fault, ?_, ?_, ?_⟩
          · simp only [pushed, later]
            simp [Identifier.push]
          · simp [allowed, named, names]
          · simp [allowed, complete]
      | false =>
          obtain ⟨fault, refused⟩ := child_refused path kind allowed
          exact ⟨[], some fault, by simp [refused], by simp [allowed], by simp [allowed]⟩

theorem child_of_pushAll {kind : EntityKind} {path reached : Identifier} {segment : String}
    (pushed : pushAll kind path [segment] = (reached, none)) :
    path.child segment kind.key = .ok reached := by
  unfold pushAll at pushed
  cases child : path.child segment kind.key with
  | error fault =>
      rw [child] at pushed
      cases pushed
  | ok next =>
      rw [child] at pushed
      exact congrArg (fun pushed => Except.ok pushed.1) pushed

theorem pushAll_strongest {kind : EntityKind} (segments : List String) {path reached : Identifier}
    (pushed : pushAll kind path segments = (reached, none)) (some_segment : segments ≠ []) :
    reached.strongestQualifier = .ok kind.key := by
  induction segments generalizing path with
  | nil => exact absurd rfl some_segment
  | cons segment rest ih =>
      cases rest with
      | nil => exact Identifier.strongest_of_child (child_of_pushAll pushed)
      | cons =>
          unfold pushAll at pushed
          cases child : path.child segment kind.key with
          | error fault =>
              rw [child] at pushed
              cases pushed
          | ok next =>
              rw [child] at pushed
              exact ih pushed (List.cons_ne_nil _ _)

theorem leftPath_eq (builder : Builder σ) (call : Call) :
    (builder.leftPath call).space = builder.path.space ∧
      (builder.leftPath call).size = builder.path.size + builder.leftOver call ∧
      (builder.leftOver call = 0 → builder.leftPath call = builder.path) := by
  cases call with
  | startPackage name =>
      simp only [leftPath, leftOver]
      cases builder.phase with
      | idle => exact ⟨rfl, rfl, fun _ => rfl⟩
      | parsing =>
          cases builder.packageName name with
          | error fault => exact ⟨rfl, rfl, fun _ => rfl⟩
          | ok named =>
              obtain ⟨more, fault, pushed, names, complete⟩ :=
                pushAll_eq .package named.2 builder.path
              have size : more.length = (named.2.takeWhile plain).length := by
                rw [← names, List.length_map]
              dsimp only
              rw [pathLeft, pushed, leftBefore]
              cases fault with
              | none =>
                  rw [if_pos (complete.mp rfl)]
                  exact ⟨rfl, rfl, fun _ => rfl⟩
              | some fault =>
                  have refused : ¬named.2.all plain = true :=
                    fun all => by cases complete.mpr all
                  rw [if_neg refused, ← size]
                  refine ⟨rfl, List.length_append, ?_⟩
                  intro none
                  rw [List.length_eq_zero_iff.mp none, List.append_nil]
  | _ => exact ⟨rfl, rfl, fun _ => rfl⟩

/-! What a call does to the path and the scopes. -/

/-- The dotted name of a scope opened with some segments. -/
def nameOf (builder : Builder σ) (segments : List String) : String :=
  match builder.scopes with
  | [] => Dotted.join segments
  | scope :: _ => scope.name ++ "." ++ Dotted.join segments

/-- The four things a call can do to the path and the scopes of a builder. -/
inductive Moves (builder : Builder σ) (call : Call) (next : Builder σ) : Prop
  | stays (running : builder.begins call = false) (path : next.path = builder.leftPath call)
      (scopes : next.scopes = builder.scopes)
  | begins (begun : builder.begins call = true)
      (path : next.path = ⟨builder.path.space, []⟩) (scopes : next.scopes = [])
  | opens (kind : EntityKind) (segments : List String) (running : builder.begins call = false)
      (whole : builder.leftOver call = 0) (some_segment : segments ≠ [])
      (pushed : pushAll kind builder.path segments = (next.path, none))
      (scopes : next.scopes =
        ⟨kind, next.path, segments.length, builder.nameOf segments⟩ :: builder.scopes)
  | closes (scope : Scope) (running : builder.begins call = false)
      (whole : builder.leftOver call = 0) (open_scope : builder.scopes = scope :: next.scopes)
      (path : next.path = builder.path.ancestor scope.pushed)

variable {builder : Builder σ} {call : Call}

theorem moves_write {notices : List Notice} {writes : List Write}
    {after : Builder σ → Builder σ} (running : builder.begins call = false)
    (left : builder.leftPath call = builder.path)
    (place : ∀ next : Builder σ,
      (after next).path = next.path ∧ (after next).scopes = next.scopes) :
    builder.Moves call (builder.write notices writes after).2 := by
  unfold write
  obtain ⟨model, outcome⟩ := builder.model.writeAll writes
  cases outcome with
  | error fault => exact .stays running left.symm rfl
  | ok unknown => exact .stays running ((place _).1.trans left.symm) (place _).2

theorem moves_openScope {notices : List Notice} {kind : EntityKind} {segments : List String}
    {name : String} {writes : Identifier → List Write}
    (running : builder.begins call = false) (some_segment : segments ≠ [])
    (named : name = builder.nameOf segments)
    (left : builder.leftPath call = pathLeft kind builder.path segments)
    (whole : (pushAll kind builder.path segments).2 = none → builder.leftOver call = 0) :
    builder.Moves call (builder.openScope notices kind segments name writes).2 := by
  unfold pathLeft at left
  unfold openScope
  generalize reached : pushAll kind builder.path segments = pushed at left whole ⊢
  obtain ⟨path, outcome⟩ := pushed
  cases outcome with
  | some fault => exact .stays running left.symm rfl
  | none =>
      dsimp only
      unfold write
      obtain ⟨model, outcome⟩ := builder.model.writeAll (writes path)
      cases outcome with
      | error fault => exact .stays running left.symm rfl
      | ok unknown =>
          rw [named]
          exact .opens kind segments running (whole rfl) some_segment reached rfl

omit [TripleStore σ] in
theorem scopedName_eq_nameOf (builder : Builder σ) (simple : String) :
    builder.scopedName simple = builder.nameOf [simple] := by
  unfold scopedName nameOf
  cases builder.scopes <;> simp [Dotted.join, Text.joinWith]

theorem moves_openType {kind : EntityKind} {what : String} {name : Value}
    {writes : (container id : Identifier) → List Write}
    (running : builder.begins call = false) (left : builder.leftPath call = builder.path)
    (whole : builder.leftOver call = 0) :
    builder.Moves call (builder.openType kind what name writes).2 := by
  unfold openType
  split
  · exact .stays running left.symm rfl
  · split
    · exact .stays running left.symm rfl
    · rename_i simple notices named
      refine moves_openScope running (List.cons_ne_nil _ _) (builder.scopedName_eq_nameOf simple)
        ?_ fun _ => whole
      rw [left]
      unfold pathLeft pushAll
      cases builder.path.child simple kind.key <;> rfl

theorem moves_closeScope {kind : EntityKind} (running : builder.begins call = false)
    (left : builder.leftPath call = builder.path) (whole : builder.leftOver call = 0) :
    builder.Moves call (builder.closeScope kind).2 := by
  unfold closeScope
  split
  · exact .stays running left.symm rfl
  · exact .stays running left.symm rfl
  · rename_i scope outer _ open_scope
    dsimp only
    split
    · exact .stays running left.symm rfl
    · split
      · exact .closes scope running whole open_scope rfl
      · split
        · exact .stays running left.symm rfl
        · exact .closes scope running whole open_scope rfl

theorem moves_declare {kind : EntityKind} {what : String} {kinds : List EntityKind}
    {named : Except Fault (String × List Notice)}
    {writes : (container id : Identifier) → List Write}
    (running : builder.begins call = false) (left : builder.leftPath call = builder.path) :
    builder.Moves call (builder.declare kind what kinds named writes).2 := by
  unfold declare
  split
  · exact .stays running left.symm rfl
  · exact .stays running left.symm rfl
  · split
    · exact .stays running left.symm rfl
    · split
      · exact .stays running left.symm rfl
      · split
        · exact .stays running left.symm rfl
        · exact moves_write running left fun _ => ⟨rfl, rfl⟩

theorem moves_startParsing (library location : Value) :
    builder.Moves (.startParsing library location) (builder.startParsing library location).2 := by
  have begun : builder.begins (.startParsing library location) =
      (builder.startParsing library location).1.isAccepted := rfl
  unfold startParsing at begun ⊢
  split at begun
  · exact .stays begun rfl rfl
  · split at begun
    · exact .stays begun rfl rfl
    · exact .begins begun rfl rfl

omit [TripleStore σ] in
theorem segments_ne_nil {name : Value} {text : String} {segments : List String}
    (named : builder.packageName name = .ok (text, segments)) :
    segments ≠ [] ∧ text = builder.nameOf segments := by
  unfold packageName at named
  split at named
  · cases named
  · split at named
    · cases named
    · simp only [Steps.bind_ok_iff, Steps.pure_ok_iff, segmentsInside] at named
      obtain ⟨given, _, inner, found, same⟩ := named
      cases same
      unfold nameOf
      cases open_scopes : builder.scopes with
      | nil =>
          rw [open_scopes] at found
          cases found
          exact ⟨Dotted.segments_ne_nil text, (Dotted.join_segments text).symm⟩
      | cons scope outer =>
          rw [open_scopes] at found
          dsimp only at found ⊢
          split at found
          · rename_i rest inside
            cases found
            refine ⟨Dotted.segments_ne_nil rest, ?_⟩
            rw [Dotted.join_segments]
            exact Dotted.eq_of_inside? inside
          · cases found

omit [TripleStore σ] in
theorem segments_unmarked {name text : String} {segments : List String}
    (unmarked : Dotted.Unmarked name)
    (named : builder.packageName (.text name) = .ok (text, segments)) :
    segments.all plain = true := by
  have plain_of {part : String} (within : Dotted.Unmarked part) :
      (Dotted.segments part).all plain = true := by
    rw [List.all_eq_true]
    intro segment member
    exact Option.isNone_iff_eq_none.mpr (within.segment_plain member)
  unfold packageName at named
  split at named
  · cases named
  · split at named
    · cases named
    · simp only [Steps.bind_ok_iff, Steps.pure_ok_iff, segmentsInside] at named
      obtain ⟨_, given, inner, found, same⟩ := named
      cases given
      cases same
      split at found
      · cases found
        exact plain_of unmarked
      · split at found
        · rename_i rest inside
          cases found
          refine plain_of (unmarked.part fun c held => ?_)
          rw [Dotted.eq_of_inside? inside, String.toList_append]
          exact List.mem_append_right _ held
        · cases found

omit [TripleStore σ] in
theorem packageName_text {name : Value} {text : String} {segments : List String}
    (named : builder.packageName name = .ok (text, segments)) : ∃ given, name = .text given := by
  cases name with
  | text given => exact ⟨given, rfl⟩
  | _ =>
      unfold packageName at named
      split at named
      · cases named
      · rename_i something
        split at named
        · cases named
        · simp only [nameText, something, Bool.false_eq_true, if_false, Steps.bind_ok_iff] at named
          obtain ⟨_, refused, _⟩ := named
          cases refused

omit [TripleStore σ] in
/-- A package whose name has no marks but dots leaves nothing on the path that no scope owns. -/
theorem leftOver_unmarked
    (unmarked : ∀ name, call = .startPackage (.text name) → Dotted.Unmarked name) :
    builder.leftOver call = 0 := by
  cases call with
  | startPackage name =>
      dsimp only [leftOver]
      split
      · rename_i named
        obtain ⟨given, rfl⟩ := packageName_text named
        exact if_pos (segments_unmarked (unmarked given rfl) named)
      · rfl
  | _ => rfl

theorem refused_unmarked {builder : Builder PlainStore}
    (unmarked : ∀ name, call = .startPackage (.text name) → Dotted.Unmarked name)
    (refused : (builder.handle call).1.isAccepted = false) :
    (builder.handle call).2 = builder := by
  obtain ⟨fault, outcome⟩ := Reply.isAccepted_eq_false_iff.mp refused
  obtain ⟨same, _⟩ := leaves_handle builder call fault outcome
  rw [same, (leftPath_eq builder call).2.2 (leftOver_unmarked unmarked)]

theorem moves_startPackage (name : Value) :
    builder.Moves (.startPackage name) (builder.startPackage name).2 := by
  unfold startPackage
  cases phase : builder.phase with
  | idle =>
      have left : builder.leftPath (.startPackage name) = builder.path := by
        simp only [leftPath, phase]
      exact .stays rfl left.symm rfl
  | parsing =>
      cases named : builder.packageName name with
      | error fault =>
          have left : builder.leftPath (.startPackage name) = builder.path := by
            simp only [leftPath, phase, named]
          exact .stays rfl left.symm rfl
      | ok found =>
          obtain ⟨text, segments⟩ := found
          obtain ⟨some_segment, same⟩ := segments_ne_nil named
          refine moves_openScope rfl some_segment same ?_ ?_
          · simp only [leftPath, phase, named]
          · intro complete
            obtain ⟨_, _, pushed, _, all⟩ := pushAll_eq .package segments builder.path
            rw [pushed] at complete
            simp only [leftOver, phase, named]
            exact if_pos (all.mp complete)

theorem moves_handle (call : Call) : builder.Moves call (builder.handle call).2 := by
  cases call with
  | startParsing library location => exact moves_startParsing library location
  | startPackage name => exact moves_startPackage name
  | endPackage => exact moves_closeScope rfl rfl rfl
  | endClass => exact moves_closeScope rfl rfl rfl
  | endInterface => exact moves_closeScope rfl rfl rfl
  | endEnumeration => exact moves_closeScope rfl rfl rfl
  | startClass => exact moves_openType rfl rfl rfl
  | startInterface => exact moves_openType rfl rfl rfl
  | startEnumeration => exact moves_openType rfl rfl rfl
  | «attribute» => exact moves_declare rfl rfl
  | constructor => exact moves_declare rfl rfl
  | method => exact moves_declare rfl rfl
  | endParsing =>
      simp only [handle, endParsing]
      split
      · exact .stays rfl rfl rfl
      · exact .stays rfl rfl rfl
      · exact .stays rfl rfl rfl
      · exact moves_write rfl rfl fun _ => ⟨rfl, rfl⟩
  | startUnit name =>
      simp only [handle, startUnit]
      split <;> exact .stays rfl rfl rfl
  | endUnit =>
      simp only [handle, endUnit]
      split
      · exact .stays rfl rfl rfl
      · exact .stays rfl rfl rfl
      · split <;> exact .stays rfl rfl rfl
  | parseError => exact .stays rfl rfl rfl
  | parsedEntry => exact .stays rfl rfl rfl
  | classDoc => exact .stays rfl rfl rfl
  | methodDoc =>
      simp only [handle, noteMethodDoc]
      split <;> exact .stays rfl rfl rfl

/-! What a run keeps of the path. -/

/-- A path made of what the scopes put on it and nothing else, innermost first. -/
def Stacked (path : Identifier) : List Scope → Prop
  | [] => path = .empty
  | scope :: outer =>
      scope.identifier = path ∧ scope.name = Dotted.join (path.fragments.map (·.name)) ∧
        0 < scope.pushed ∧ scope.pushed ≤ path.size ∧ Stacked (path.ancestor scope.pushed) outer

/-- What holds of a builder after any calls, of the fragments on whose path some belong to no
scope. -/
structure Tracks (builder : Builder σ) (stray : Nat) : Prop where
  space : builder.path.space = Space.model
  size : builder.path.size = (builder.scopes.map (·.pushed)).sum + stray
  stacked : stray = 0 → Stacked builder.path builder.scopes

omit [TripleStore σ] in
theorem tracks_start (model : Model σ) (date : String) : (start model date).Tracks 0 :=
  ⟨rfl, rfl, fun _ => rfl⟩

omit [TripleStore σ] in
theorem stacked_name {path : Identifier} {more : List Fragment} {segments : List String}
    (stacked : Stacked path builder.scopes) (some_segment : segments ≠ [])
    (names : more.map (·.name) = segments) :
    builder.nameOf segments = Dotted.join ((path.fragments ++ more).map (·.name)) := by
  unfold nameOf
  rw [List.map_append, names]
  cases open_scopes : builder.scopes with
  | nil =>
      rw [open_scopes] at stacked
      obtain rfl : path = .empty := stacked
      rfl
  | cons scope outer =>
      rw [open_scopes] at stacked
      obtain ⟨_, named, filled, within, _⟩ := stacked
      have some_fragment : path.fragments.map (·.name) ≠ [] := by
        intro none
        have size := congrArg List.length none
        rw [List.length_map, List.length_nil] at size
        unfold Identifier.size at within
        omega
      dsimp only
      rw [named, Dotted.join_append some_fragment some_segment]

theorem Tracks.moves {next : Builder σ} {stray : Nat} (tracks : builder.Tracks stray)
    (moves : builder.Moves call next) :
    next.Tracks (if builder.begins call then 0 else stray + builder.leftOver call) := by
  cases moves with
  | stays running path scopes =>
      -- What a refused call leaves on the path is stray, and nothing is claimed of such a path.
      obtain ⟨space, size, same⟩ := leftPath_eq builder call
      rw [running, if_neg Bool.false_ne_true]
      refine ⟨?_, ?_, ?_⟩
      · rw [path, space, tracks.space]
      · rw [path, scopes, size, tracks.size, Nat.add_assoc]
      · intro none
        rw [path, scopes, same (by omega)]
        exact tracks.stacked (by omega)
  | begins begun path scopes =>
      have cleared : next.path = .empty := by
        rw [path, tracks.space]
        rfl
      rw [begun, if_pos rfl]
      refine ⟨?_, ?_, fun _ => ?_⟩
      · rw [cleared]
        rfl
      · rw [cleared, scopes]
        rfl
      · rw [cleared, scopes]
        rfl
  | opens kind segments running whole some_segment pushed scopes =>
      obtain ⟨more, _, reached, names, all⟩ := pushAll_eq kind segments builder.path
      rw [pushed] at reached
      obtain ⟨path, rfl⟩ := Prod.mk.inj reached
      -- No segment was refused, so that the path grew by all that the scope counts as pushed.
      have complete : more.map (·.name) = segments := by
        rw [names, List.takeWhile_eq_self_iff]
        exact List.all_eq_true.mp (all.mp rfl)
      have length : more.length = segments.length := by rw [← complete, List.length_map]
      have size : next.path.size = builder.path.size + segments.length := by
        rw [path, Identifier.size, List.length_append, length]
        rfl
      rw [running, if_neg Bool.false_ne_true, whole, Nat.add_zero]
      refine ⟨?_, ?_, ?_⟩
      · rw [path]
        exact tracks.space
      · rw [size, scopes, List.map_cons, List.sum_cons, tracks.size]
        dsimp only
        omega
      · intro none
        have outer : next.path.ancestor segments.length = builder.path := by
          rw [Identifier.ancestor, size, Nat.add_sub_cancel, path, Identifier.size,
            List.take_left]
        rw [scopes]
        refine ⟨rfl, ?_, List.length_pos_iff.mpr some_segment, ?_, ?_⟩
        · rw [path]
          exact stacked_name (tracks.stacked none) some_segment complete
        · rw [size]
          exact Nat.le_add_left _ _
        · rw [outer]
          exact tracks.stacked none
  | closes scope running whole open_scope path =>
      have size := tracks.size
      rw [open_scope, List.map_cons, List.sum_cons] at size
      rw [running, if_neg Bool.false_ne_true, whole, Nat.add_zero]
      refine ⟨?_, ?_, ?_⟩
      · rw [path]
        exact tracks.space
      · rw [path, Identifier.size, Identifier.ancestor, List.length_take]
        unfold Identifier.size at size ⊢
        omega
      · intro none
        have stacked := tracks.stacked none
        rw [open_scope] at stacked
        rw [path]
        exact stacked.2.2.2.2

theorem Tracks.after (calls : List Call) {builder : Builder σ} {before : Nat}
    (tracks : builder.Tracks before) :
    (Handler.after builder calls).Tracks (builder.stray before calls) := by
  induction calls generalizing builder before with
  | nil => exact tracks
  | cons call rest ih => exact ih (tracks.moves (moves_handle call))

theorem stacked_mirrors {path : Identifier} {scopes : List Scope} (stacked : Stacked path scopes) :
    path.fragments = scopes.reverse.flatMap Scope.own ∧
      path = (scopes.head?.map (·.identifier)).getD .empty ∧
      ∀ scope ∈ scopes, scope.name = Dotted.join (scope.identifier.fragments.map (·.name)) := by
  induction scopes generalizing path with
  | nil =>
      obtain rfl : path = .empty := stacked
      exact ⟨rfl, rfl, fun _ member => by cases member⟩
  | cons scope outer ih =>
      obtain ⟨same, named, _, _, rest⟩ := stacked
      obtain ⟨fragments, _, names⟩ := ih rest
      refine ⟨?_, same.symm, ?_⟩
      · rw [List.reverse_cons, List.flatMap_append, ← fragments, List.flatMap_singleton, Scope.own,
          same]
        exact (List.take_append_drop _ _).symm
      · intro other member
        rcases List.mem_cons.mp member with rfl | later
        · rw [same]
          exact named
        · exact names other later

/-- After any calls the path has as many fragments as the open scopes put on it and the stray ones,
and it mirrors the scopes just if none is stray. -/
theorem mirrors_iff_none_stray (model : Model σ) (date : String) (calls : List Call) :
    let builder := Handler.after (start model date) calls
    let stray := (start model date).stray 0 calls
    builder.path.size = (builder.scopes.map (·.pushed)).sum + stray ∧
      (builder.Mirrors ↔ stray = 0) := by
  intro builder stray
  have tracks : builder.Tracks stray := (tracks_start model date).after calls
  refine ⟨tracks.size, ?_, ?_⟩
  · intro mirrors
    have size := tracks.size
    rw [mirrors.size] at size
    omega
  · intro none
    obtain ⟨fragments, built, names⟩ := stacked_mirrors (tracks.stacked none)
    exact ⟨fragments, by rw [tracks.size, none, Nat.add_zero], built, names⟩

/-- A package refused at its second segment leaves the first on the path, where no scope is open. -/
theorem refused_package_not_mirrored :
    ¬(Handler.after (start ⟨.empty, .empty, MemoryStore.empty⟩ "2024-01-01")
      [.startParsing (.text "lib") (.text "/lib"), .startPackage (.text "a.b:c")]).Mirrors := by
  intro mirrors
  have counted := mirrors.size
  have same := after_map MemoryStore.view
    [.startParsing (.text "lib") (.text "/lib"), .startPackage (.text "a.b:c")]
    (start ⟨.empty, .empty, MemoryStore.empty⟩ "2024-01-01")
  have path := congrArg Builder.path same
  have scopes := congrArg Builder.scopes same
  change _ = (Handler.after (start ⟨.empty, .empty, MemoryStore.empty⟩ "2024-01-01") _).path at path
  change _ = (Handler.after (start ⟨.empty, .empty, MemoryStore.empty⟩ "2024-01-01") _).scopes
    at scopes
  rw [← path, ← scopes] at counted
  revert counted
  decide +kernel

end Builder

end CodeFacts
