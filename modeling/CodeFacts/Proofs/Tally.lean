import CodeFacts.Ontology.Profile
import CodeFacts.Proofs.Distinct
import CodeFacts.Proofs.View
import CodeFacts.Tally

/-!
A tally counts exactly the calls accepted by the handler it is around, from its creation or its last
reset up to the first accepted end of a run, and is otherwise that handler.
-/

namespace CodeFacts

variable {η : Type}

/-- An accepted call and what was told to listeners while it was handled. -/
structure Heard where
  call : Call
  notices : List Notice

/-- The calls that a handler accepts out of some. -/
def Handler.heard [Handler η] (state : η) : List Call → List Heard
  | [] => []
  | call :: rest =>
      let (reply, next) := Handler.handle call state
      if reply.isAccepted then ⟨call, reply.notices⟩ :: Handler.heard next rest
      else Handler.heard next rest

/-- The text that an accepted call adds to the errors, if it is about one. -/
def Call.error? : Call → Option String
  | .parseError location description => some (Call.errorText location description)
  | _ => none

def Call.endsRun : Call → Bool
  | .endParsing => true
  | _ => false

/-- Calls up to and with the first that ends a run. -/
def throughEnd : List Heard → List Heard
  | [] => []
  | one :: rest => one :: if one.call.endsRun then [] else throughEnd rest

/-- The names that were notified as unresolved, in order. -/
def notified (told : List Heard) : List String :=
  told.flatMap fun one => Tally.unresolvedNames one.notices

@[simp] theorem notified_concat (told : List Heard) (one : Heard) :
    notified (told ++ [one]) = notified told ++ Tally.unresolvedNames one.notices := by
  simp [notified]

/-- How many of some calls a counter is for. -/
def Counter.tell (counter : Counter) (told : List Heard) : Nat :=
  told.countP fun one => decide (Counter.ofCall? one.call = some counter)

@[simp] theorem Counter.tell_concat (counter : Counter) (told : List Heard) (one : Heard) :
    counter.tell (told ++ [one]) =
      counter.tell told + if Counter.ofCall? one.call = some counter then 1 else 0 := by
  simp [Counter.tell, List.countP_append, List.countP_singleton]

theorem Counter.ofCall?_ne_unresolved (call : Call) : Counter.ofCall? call ≠ some .unresolved := by
  cases call <;> simp [Counter.ofCall?]

/-- What statistics should say of some accepted calls. -/
structure Statistics.Exact (statistics : Statistics) (told : List Heard) : Prop where
  counters : ∀ counter ≠ .unresolved, statistics.count counter = counter.tell told
  unresolved : statistics.count .unresolved = (notified told).length
  sorted : statistics.unresolvedTypes.Pairwise (· < ·)
  names : ∀ name, name ∈ statistics.unresolvedTypes ↔ name ∈ notified told
  errors : statistics.errors = told.filterMap fun one => one.call.error?

namespace Tally

/-- What is done to a tally: a call is made on it, it is reset, or time passes. -/
inductive Move where
  | call (told : Call)
  | reset
  | tick (seconds : Float)

def Move.call? : Move → Option Call
  | .call told => some told
  | _ => none

def calls (moves : List Move) : List Call := moves.filterMap Move.call?

@[simp] theorem calls_call (call : Call) (rest : List Move) :
    calls (.call call :: rest) = call :: calls rest := rfl

@[simp] theorem calls_reset (rest : List Move) : calls (.reset :: rest) = calls rest := rfl

@[simp] theorem calls_tick (seconds : Float) (rest : List Move) :
    calls (.tick seconds :: rest) = calls rest := rfl

def move [Handler η] (tally : Tally η) : Move → Tally η
  | .call told => (tally.handle told).2
  | .reset => tally.reset
  | .tick seconds => tally.tick seconds

def after [Handler η] (tally : Tally η) (moves : List Move) : Tally η := moves.foldl move tally

@[simp] theorem after_cons [Handler η] (tally : Tally η) (first : Move) (rest : List Move) :
    tally.after (first :: rest) = (tally.move first).after rest := rfl

theorem after_append [Handler η] (tally : Tally η) (first second : List Move) :
    tally.after (first ++ second) = (tally.after first).after second := List.foldl_append

/-! One accepted call. -/

theorem count_frozen {tally : Tally η} (frozen : tally.frozen = true) (call : Call)
    (notices : List Notice) : tally.count call notices = tally := by
  rw [count, if_pos frozen]

/-- All that one more accepted call changes, the times left open. -/
theorem count_running {tally : Tally η} (running : tally.frozen = false) (one : Heard) :
    ∃ started elapsed, tally.count one.call one.notices =
      { tally with
        frozen := one.call.endsRun
        counted := (Counter.ofCall? one.call).toList ++
          (unresolvedNames one.notices).map (fun _ => Counter.unresolved) ++ tally.counted
        unresolved := unresolvedNames one.notices ++ tally.unresolved
        errors := tally.errors ++ one.call.error?.toList
        started, elapsed } := by
  obtain ⟨call, notices⟩ := one
  obtain ⟨wrapped, frozen, counted, unresolved, errors, started, elapsed, clock⟩ := tally
  obtain rfl : frozen = false := running
  cases call with
  | startParsing => exact ⟨some clock, elapsed, by simp [count, mark, Call.error?, Call.endsRun]⟩
  | endParsing =>
      exact ⟨started, (started.map (clock - ·)).getD elapsed,
        by simp [count, mark, Call.error?, Call.endsRun]⟩
  | parseError => exact ⟨started, elapsed, rfl⟩
  | _ => exact ⟨started, elapsed, by simp [count, mark, Call.error?, Call.endsRun]⟩

theorem wrapped_count (tally : Tally η) (one : Heard) :
    (tally.count one.call one.notices).wrapped = tally.wrapped := by
  cases frozen : tally.frozen with
  | true => rw [count_frozen frozen]
  | false =>
      obtain ⟨started, elapsed, counted⟩ := count_running frozen one
      rw [counted]

/-- A tally has counted exactly some accepted calls. -/
structure Counts (tally : Tally η) (told : List Heard) : Prop where
  counters : ∀ counter ≠ .unresolved, tally.counted.count counter = counter.tell told
  unresolved : tally.counted.count .unresolved = (notified told).length
  names : ∀ name, name ∈ tally.unresolved ↔ name ∈ notified told
  errors : tally.errors = told.filterMap fun one => one.call.error?
  frozen : tally.frozen = told.any fun one => one.call.endsRun

namespace Counts

variable {tally : Tally η} {told : List Heard}

theorem nothing (wrapped : η) (clock : Float) : (start wrapped clock).Counts [] where
  counters _ _ := rfl
  unresolved := rfl
  names _ := iff_of_false List.not_mem_nil List.not_mem_nil
  errors := rfl
  frozen := rfl

/-- The handler in a tally and its clock are no part of what it has counted. -/
theorem elsewhere (counts : tally.Counts told) (wrapped : η) (clock : Float) :
    ({ tally with wrapped, clock } : Tally η).Counts told where
  counters := counts.counters
  unresolved := counts.unresolved
  names := counts.names
  errors := counts.errors
  frozen := counts.frozen

/-- One more accepted call is counted in all that a tally keeps. -/
theorem concat (counts : tally.Counts told) (running : tally.frozen = false) (one : Heard) :
    (tally.count one.call one.notices).Counts (told ++ [one]) := by
  obtain ⟨started, elapsed, counted⟩ := count_running running one
  rw [counted]
  constructor
  case counters =>
    intro counter other
    have no_name :
        ((unresolvedNames one.notices).map fun _ => Counter.unresolved).count counter = 0 := by
      simp [List.count_replicate, other.symm]
    simp only [List.count_append, no_name, counts.counters counter other, Counter.tell_concat]
    cases Counter.ofCall? one.call with
    | none => simp
    | some found => by_cases same : found = counter <;> simp [same, Nat.add_comm]
  case unresolved =>
    have no_call : (Counter.ofCall? one.call).toList.count .unresolved = 0 :=
      List.count_eq_zero.mpr fun member =>
        Counter.ofCall?_ne_unresolved one.call (Option.mem_toList.mp member)
    simp only [List.count_append, no_call, counts.unresolved, notified_concat, List.length_append,
      List.map_const', List.count_replicate_self]
    omega
  case names =>
    intro name
    simp only [List.mem_append, notified_concat, counts.names name, or_comm]
  case errors =>
    simp only [counts.errors, List.filterMap_append]
    cases text : one.call.error? <;> simp [text]
  case frozen =>
    have quiet : (told.any fun one => one.call.endsRun) = false := counts.frozen.symm.trans running
    simp [quiet]

/-- What a tally reports is what it has counted. -/
theorem exact (counts : tally.Counts told) : tally.statistics.Exact told where
  counters := counts.counters
  unresolved := counts.unresolved
  sorted := sortedOnce_strict tally.unresolved
  names name := by
    rw [← counts.names name]
    simp [statistics]
  errors := counts.errors

end Counts

/-! Whatever is done to a tally, the handler in it is where the calls alone bring it. -/

variable [Handler η]

/-- A call goes to the handler in a tally, and is counted if it is accepted. -/
theorem handle_eq (tally : Tally η) (call : Call) :
    tally.handle call =
      ((Handler.handle call tally.wrapped).1,
        let next := { tally with wrapped := (Handler.handle call tally.wrapped).2 }
        if (Handler.handle call tally.wrapped).1.isAccepted then
          next.count call (Handler.handle call tally.wrapped).1.notices
        else next) := rfl

theorem wrapped_handle (tally : Tally η) (call : Call) :
    (tally.handle call).2.wrapped = (Handler.handle call tally.wrapped).2 := by
  rw [handle_eq]
  dsimp only
  split
  · exact wrapped_count _ ⟨call, _⟩
  · rfl

theorem wrapped_after (moves : List Move) (tally : Tally η) :
    (tally.after moves).wrapped = Handler.after tally.wrapped (calls moves) := by
  induction moves generalizing tally with
  | nil => rfl
  | cons first rest ih =>
      rw [after_cons, ih]
      cases first with
      | call call => simp [move, wrapped_handle, Handler.after]
      | reset => simp [move, reset, start]
      | tick seconds => simp [move, tick]

/-! A frozen tally keeps its counts until it is reset. -/

theorem move_frozen {tally : Tally η} (frozen : tally.frozen = true) {first : Move}
    (kept : first ≠ .reset) :
    ∃ wrapped clock, tally.move first = { tally with wrapped, clock } := by
  cases first with
  | call call =>
      refine ⟨(Handler.handle call tally.wrapped).2, tally.clock, ?_⟩
      simp only [move, handle_eq]
      split
      · exact count_frozen (by simpa using frozen) _ _
      · rfl
  | reset => exact absurd rfl kept
  | tick seconds => exact ⟨tally.wrapped, tally.clock + seconds, rfl⟩

theorem after_frozen (moves : List Move) {tally : Tally η} (frozen : tally.frozen = true)
    (kept : .reset ∉ moves) :
    ∃ wrapped clock, tally.after moves = { tally with wrapped, clock } := by
  induction moves generalizing tally with
  | nil => exact ⟨tally.wrapped, tally.clock, rfl⟩
  | cons first rest ih =>
      rw [List.mem_cons, not_or] at kept
      obtain ⟨wrapped, clock, moved⟩ := move_frozen frozen (Ne.symm kept.1)
      have still : ({ tally with wrapped, clock } : Tally η).frozen = true := frozen
      obtain ⟨wrapped', clock', later⟩ := ih still kept.2
      refine ⟨wrapped', clock', ?_⟩
      rw [after_cons, moved, later]

omit [Handler η] in
theorem statistics_frozen {tally : Tally η} (frozen : tally.frozen = true) (wrapped : η)
    (clock : Float) : ({ tally with wrapped, clock } : Tally η).statistics = tally.statistics := by
  unfold statistics seconds
  cases tally.started with
  | none => rfl
  | some start => simp only [frozen, if_true]

/-! Any number of calls. -/

/-- While no run has ended, what a tally goes on to count are the accepted calls up to and with the
first that ends one. -/
theorem counts_after (moves : List Move) {tally : Tally η} {told : List Heard}
    (counts : tally.Counts told) (running : tally.frozen = false) (kept : .reset ∉ moves) :
    (tally.after moves).Counts
      (told ++ throughEnd (Handler.heard tally.wrapped (calls moves))) := by
  induction moves generalizing tally told with
  | nil => simpa [calls, Handler.heard, throughEnd, after] using counts
  | cons first rest ih =>
      rw [List.mem_cons, not_or] at kept
      rw [after_cons]
      cases first with
      | reset => exact absurd rfl kept.1
      | tick seconds =>
          exact ih (counts.elsewhere tally.wrapped (tally.clock + seconds)) running kept.2
      | call call =>
          have moved := counts.elsewhere (Handler.handle call tally.wrapped).2 tally.clock
          simp only [move, handle_eq, calls_call, Handler.heard]
          cases accepted : (Handler.handle call tally.wrapped).1.isAccepted with
          | false => exact ih moved running kept.2
          | true =>
              let here := { tally with wrapped := (Handler.handle call tally.wrapped).2 }
              let one : Heard := ⟨call, (Handler.handle call tally.wrapped).1.notices⟩
              have counted : (here.count one.call one.notices).Counts (told ++ [one]) :=
                moved.concat running one
              have halted : (here.count one.call one.notices).frozen = one.call.endsRun := by
                have running : here.frozen = false := running
                obtain ⟨_, _, same⟩ := count_running running one
                rw [same]
              rw [if_pos rfl, if_pos rfl, throughEnd]
              -- Once a run has ended nothing more is counted, so the induction stops here.
              cases ends : call.endsRun with
              | true =>
                  obtain ⟨wrapped, clock, still⟩ := after_frozen rest (halted.trans ends) kept.2
                  rw [still]
                  exact counted.elsewhere wrapped clock
              | false =>
                  have later := ih counted (halted.trans ends) kept.2
                  rw [wrapped_count here one, List.append_assoc] at later
                  exact later

/-- Statistics are exact from the creation of a tally or its last reset to the end of a run, which
freezes them, and a tally replies as the handler in it would by itself. -/
theorem statistics_exact (state : η) (clock : Float) (earlier moves : List Move)
    (begun : earlier = [] ∨ ∃ before, earlier = before ++ [.reset]) (kept : .reset ∉ moves) :
    let direct := Handler.after state (calls (earlier ++ moves))
    let tally := (start state clock).after (earlier ++ moves)
    let told := throughEnd (Handler.heard (Handler.after state (calls earlier)) (calls moves))
    tally.wrapped = direct ∧
      (∀ call, (Handler.handle call tally).1 = (Handler.handle call direct).1) ∧
      tally.statistics.Exact told ∧
      (tally.frozen = true ↔ ∃ one ∈ told, one.call.endsRun = true) ∧
      (tally.frozen = true → ∀ later, .reset ∉ later →
        (tally.after later).statistics = tally.statistics) := by
  intro direct tally told
  have reached : tally.wrapped = direct := wrapped_after (earlier ++ moves) (start state clock)
  have afresh : ∃ clock', (start state clock).after earlier =
      start (Handler.after state (calls earlier)) clock' := by
    obtain rfl | ⟨before, rfl⟩ := begun
    · exact ⟨clock, rfl⟩
    · refine ⟨((start state clock).after before).clock, ?_⟩
      have wrapped := wrapped_after (before ++ [.reset]) (start state clock)
      rw [after_append] at wrapped ⊢
      exact congrArg (start · _) wrapped
  obtain ⟨clock', begins⟩ := afresh
  have counts : tally.Counts told := by
    show ((start state clock).after (earlier ++ moves)).Counts told
    rw [after_append, begins]
    exact counts_after moves (Counts.nothing _ clock') rfl kept
  refine ⟨reached, ?_, counts.exact, ?_, ?_⟩
  · intro call
    exact congrArg (fun wrapped => (Handler.handle call wrapped).1) reached
  · rw [counts.frozen, List.any_eq_true]
  · intro frozen later still
    obtain ⟨wrapped, clock, same⟩ := after_frozen later frozen still
    rw [same, statistics_frozen frozen]

/-- A run told after a reset, with a call that is refused and an error. Nothing of what came before
the reset or after the end of the run is counted. -/
theorem runAfterReset_exact :
    let state := Builder.start (σ := PlainStore)
      ⟨.ofRelations Ontology.libraryRelations, .empty, .empty⟩ "2024-01-01"
    let earlier : List Move :=
      [.call (.parseError (.text "A.java") (.text "early")), .tick 1, .reset]
    let moves : List Move :=
      [.call (.startParsing (.text "lib") (.text "/lib")), .call .endPackage,
        .call (.parseError (.text "X.java") (.text "bad")), .call .endParsing,
        .call (.parseError (.text "X.java") (.text "late"))]
    let tally := (start state 0).after (earlier ++ moves)
    (earlier = [] ∨ ∃ before, earlier = before ++ [.reset]) ∧ .reset ∉ moves ∧
      tally.statistics.count .parseErrors = 1 ∧ tally.statistics.errors = ["X.java: bad"] ∧
      ∀ later, .reset ∉ later → (tally.after later).statistics = tally.statistics := by
  intro state earlier moves tally
  have begun : earlier = [] ∨ ∃ before, earlier = before ++ [.reset] :=
    .inr ⟨earlier.take 2, rfl⟩
  have kept : .reset ∉ moves := by simp [moves]
  let told := throughEnd (Handler.heard (Handler.after state (calls earlier)) (calls moves))
  obtain ⟨_, _, counts, frozen, still⟩ := statistics_exact state 0 earlier moves begun kept
  have said : Counter.tell .parseErrors told = 1 ∧
      told.filterMap (fun one => one.call.error?) = ["X.java: bad"] ∧
      ∃ one ∈ told, one.call.endsRun = true := by
    decide +kernel
  obtain ⟨counted, errors, ended⟩ := said
  refine ⟨begun, kept, ?_, ?_, still (frozen.mpr ended)⟩
  · rw [← counted]
    exact counts.counters .parseErrors (by decide)
  · rw [← errors]
    exact counts.errors

end Tally

end CodeFacts
