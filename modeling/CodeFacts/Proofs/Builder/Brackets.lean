import CodeFacts.Proofs.Builder.Outcome
import CodeFacts.Proofs.Builder.Writes

/-!
The brackets of a run. The builder keeps its containers on a stack and its unit beside it, as a name
and a depth; the accepted calls nest all the same, and a closing call is accepted just if it closes
what was opened last.
-/

namespace CodeFacts

inductive Bracket where
  | run
  | unit
  | container (kind : EntityKind)
  deriving DecidableEq

inductive Mark where
  | opens (bracket : Bracket)
  | closes (bracket : Bracket)
  deriving DecidableEq

def Call.mark? : Call → Option Mark
  | .startParsing _ _ => some (.opens .run)
  | .endParsing => some (.closes .run)
  | .startUnit _ => some (.opens .unit)
  | .endUnit => some (.closes .unit)
  | .startPackage _ => some (.opens (.container .package))
  | .endPackage => some (.closes (.container .package))
  | .startClass .. => some (.opens (.container .classType))
  | .endClass => some (.closes (.container .classType))
  | .startInterface .. => some (.opens (.container .interface))
  | .endInterface => some (.closes (.container .interface))
  | .startEnumeration .. => some (.opens (.container .enumeration))
  | .endEnumeration => some (.closes (.container .enumeration))
  | .attribute .. | .constructor .. | .method .. => none
  | .parseError .. | .parsedEntry .. | .classDoc .. | .methodDoc .. => none

namespace Call

variable {call : Call} {kind : EntityKind} {writes : Declared}

theorem mark_of_opens (told : call.opens? = some (kind, writes)) :
    call.mark? = some (.opens (.container kind)) := by
  cases call <;> cases told <;> rfl

theorem mark_of_closes (told : call.closes? = some kind) :
    call.mark? = some (.closes (.container kind)) := by
  cases call <;> cases told <;> rfl

theorem mark_of_declares (told : call.declares? = some (kind, writes)) : call.mark? = none := by
  cases call <;> cases told <;> rfl

theorem mark_of_isNote (told : call.isNote = true) : call.mark? = none := by
  cases call <;> cases told <;> rfl

end Call

namespace Bracket

def isContainer : Bracket → Bool
  | .container _ => true
  | _ => false

/-- Whether a bracket may open inside of others, innermost first: a run in nothing, a container in
a run, and a unit in a run and no other unit. -/
def Fits (bracket : Bracket) (around : List Bracket) : Prop :=
  match bracket with
  | .run => around = []
  | .unit => around ≠ [] ∧ .unit ∉ around
  | .container _ => around ≠ []

end Bracket

namespace Mark

/-- Units and containers that nest well, where a unit is open around them or not. No unit stands in
another one. -/
inductive Nested : (inUnit : Bool) → List Mark → Prop
  | nil {inUnit : Bool} : Nested inUnit []
  | container {inUnit : Bool} (kind : EntityKind) {inner rest : List Mark}
      (inside : Nested inUnit inner) (later : Nested inUnit rest) :
      Nested inUnit
        (.opens (.container kind) :: (inner ++ .closes (.container kind) :: rest))
  | unit {inner rest : List Mark} (inside : Nested true inner) (later : Nested false rest) :
      Nested false (.opens .unit :: (inner ++ .closes .unit :: rest))

inductive Runs : List Mark → Prop
  | nil : Runs []
  | run {inner rest : List Mark} (inside : Nested false inner) (later : Runs rest) :
      Runs (.opens .run :: (inner ++ .closes .run :: rest))

/-- What stands open after one more mark, innermost first. -/
def next (standing : List Bracket) : Mark → List Bracket
  | .opens bracket => bracket :: standing
  | .closes _ => standing.tail

def standing (marks : List Mark) : List Bracket := marks.foldl next []

/-- Marks that close all that stands open, with brackets in between that nest well at each level. -/
def Completes : List Bracket → List Mark → Prop
  | [], marks => Runs marks
  | bracket :: around, marks =>
      ∃ inner rest, Nested (decide (.unit ∈ bracket :: around)) inner ∧
        marks = inner ++ .closes bracket :: rest ∧ Completes around rest

theorem completes_closes (around : List Bracket) : Completes around (around.map .closes) := by
  induction around with
  | nil => exact .nil
  | cons bracket outer ih => exact ⟨[], _, .nil, rfl, ih⟩

theorem Completes.close {bracket : Bracket} {around : List Bracket} {marks : List Mark}
    (completes : Completes around marks) :
    Completes (bracket :: around) (.closes bracket :: marks) :=
  ⟨[], marks, .nil, rfl, completes⟩

theorem Completes.open {bracket : Bracket} {around : List Bracket} {marks : List Mark}
    (completes : Completes (bracket :: around) marks) (fits : bracket.Fits around) :
    Completes around (.opens bracket :: marks) := by
  obtain ⟨inner, rest, inside, rfl, later⟩ := completes
  cases around with
  | nil =>
      cases bracket with
      | run => exact .run inside later
      | unit => exact absurd rfl fits.1
      | container => exact absurd rfl fits
  | cons outer further =>
      obtain ⟨beside, last, nested, rfl, done⟩ := later
      refine ⟨.opens bracket :: (inner ++ .closes bracket :: beside), last, ?_, ?_, done⟩
      · cases bracket with
        | run => cases fits
        | unit =>
            have alone : decide (.unit ∈ outer :: further) = false := decide_eq_false fits.2
            rw [alone] at nested ⊢
            rw [decide_eq_true List.mem_cons_self] at inside
            exact .unit inside nested
        | container kind =>
            have level : decide (.unit ∈ .container kind :: outer :: further) =
                decide (Bracket.unit ∈ outer :: further) := by simp
            rw [level] at inside
            exact .container kind inside nested
      · simp

end Mark

namespace Builder

variable {σ : Type}

/-- What stands open in a builder. Of its containers, as many as the unit found open are around the
unit and the others inside of it. -/
inductive Stands (builder : Builder σ) : List Bracket → Prop
  | idle (waiting : builder.phase = .idle) (no_unit : builder.unit = none)
      (no_scope : builder.scopes = []) : Stands builder []
  | between (running : builder.phase = .parsing) (no_unit : builder.unit = none) :
      Stands builder (builder.scopes.map (.container ·.kind) ++ [.run])
  | within (inner outer : List Scope) (running : builder.phase = .parsing)
      (some_unit : builder.unit.isSome = true) (split : builder.scopes = inner ++ outer)
      (level : outer.length = builder.unitDepth) :
      Stands builder
        (inner.map (.container ·.kind) ++ .unit :: (outer.map (.container ·.kind) ++ [.run]))

variable {builder : Builder σ} {standing : List Bracket}

theorem stands_start (model : Model σ) (date : String) : (start model date).Stands [] :=
  .idle rfl rfl rfl

theorem Stands.same {other : Builder σ} (stands : builder.Stands standing)
    (phase : other.phase = builder.phase) (unit : other.unit = builder.unit)
    (scopes : other.scopes = builder.scopes) (level : other.unitDepth = builder.unitDepth) :
    other.Stands standing := by
  cases stands with
  | idle waiting no_unit no_scope =>
      exact .idle (phase.trans waiting) (unit.trans no_unit) (scopes.trans no_scope)
  | between running no_unit =>
      rw [← scopes]
      exact .between (phase.trans running) (unit.trans no_unit)
  | within inner outer running some_unit split depth =>
      refine .within inner outer (phase.trans running) ?_ (scopes.trans split)
        (depth.trans level.symm)
      rw [unit]
      exact some_unit

theorem Stands.ne_nil_iff (stands : builder.Stands standing) :
    builder.phase = .parsing ↔ standing ≠ [] := by
  cases stands with
  | idle waiting => simp [waiting]
  | between running => simp [running]
  | within _ _ running => simp [running]

theorem Stands.unit_iff (stands : builder.Stands standing) :
    builder.unit.isSome = true ↔ .unit ∈ standing := by
  cases stands with
  | idle _ no_unit => simp [no_unit]
  | between _ no_unit => simp [no_unit]
  | within _ _ _ some_unit => simp [some_unit]

theorem Stands.depth_eq (stands : builder.Stands standing) :
    builder.depth = standing.countP (·.isContainer) := by
  have counted (scopes : List Scope) :
      (scopes.map (Bracket.container ·.kind)).countP (·.isContainer) = scopes.length := by
    rw [List.countP_map, List.countP_eq_length]
    exact fun _ _ => rfl
  unfold depth
  cases stands with
  | idle _ _ no_scope => rw [no_scope]; rfl
  | between => rw [List.countP_append, counted]; rfl
  | within inner outer _ _ split =>
      rw [split, List.length_append, List.countP_append, List.countP_cons, List.countP_append,
        counted, counted]
      rfl

theorem Stands.opened {other : Builder σ} (scope : Scope) (stands : builder.Stands standing)
    (running : builder.phase = .parsing) (phase : other.phase = builder.phase)
    (unit : other.unit = builder.unit) (scopes : other.scopes = scope :: builder.scopes)
    (level : other.unitDepth = builder.unitDepth) :
    other.Stands (.container scope.kind :: standing) := by
  cases stands with
  | idle waiting =>
      rw [waiting] at running
      cases running
  | between _ no_unit =>
      have stands : other.Stands (other.scopes.map (.container ·.kind) ++ [.run]) :=
        .between (phase.trans running) (unit.trans no_unit)
      rw [scopes] at stands
      exact stands
  | within inner outer _ some_unit split depth =>
      refine .within (scope :: inner) outer (phase.trans running) ?_ ?_ (depth.trans level.symm)
      · rw [unit]
        exact some_unit
      · rw [scopes, split]
        rfl

theorem Stands.closed {scope : Scope} {outer : List Scope} (stands : builder.Stands standing)
    (running : builder.phase = .parsing) (open_scope : builder.scopes = scope :: outer)
    (inside : builder.unit.isSome = true → builder.unitDepth < builder.depth) :
    ∃ around, standing = .container scope.kind :: around ∧
      Stands { builder with path := builder.path.ancestor scope.pushed, scopes := outer }
        around := by
  let next : Builder σ :=
    { builder with path := builder.path.ancestor scope.pushed, scopes := outer }
  cases stands with
  | idle waiting =>
      rw [waiting] at running
      cases running
  | between _ no_unit =>
      have stands : next.Stands (next.scopes.map (.container ·.kind) ++ [.run]) :=
        .between running no_unit
      refine ⟨_, ?_, stands⟩
      rw [open_scope]
      rfl
  | within inner around _ some_unit split depth =>
      have deeper := inside some_unit
      rw [depth.symm, Builder.depth, split, List.length_append] at deeper
      -- The scope to be closed is one of those inside of the unit.
      cases inner with
      | nil =>
          rw [List.length_nil] at deeper
          omega
      | cons first others =>
          rw [open_scope, List.cons_append] at split
          obtain ⟨rfl, rest⟩ := List.cons.inj split
          exact ⟨_, rfl, .within others around running some_unit rest depth⟩

/-- The bracket opened last, read off the fields of a builder. -/
def innermost (builder : Builder σ) : Bracket :=
  if builder.unit.isSome = true ∧ builder.depth ≤ builder.unitDepth then .unit
  else
    match builder.scopes with
    | [] => .run
    | scope :: _ => .container scope.kind

theorem Stands.head?_eq (stands : builder.Stands standing) (running : builder.phase = .parsing) :
    standing.head? = some builder.innermost ∧
      (builder.unit.isSome = true → builder.unitDepth ≤ builder.depth) := by
  unfold innermost
  cases stands with
  | idle waiting => cases waiting.symm.trans running
  | between _ no_unit =>
      rw [if_neg (by simp [no_unit]), no_unit]
      refine ⟨?_, by simp⟩
      cases builder.scopes <;> rfl
  | within inner outer _ some_unit split level =>
      have depth : builder.depth = inner.length + builder.unitDepth := by
        rw [Builder.depth, split, List.length_append, level]
      refine ⟨?_, fun _ => by omega⟩
      cases inner with
      | nil =>
          rw [List.length_nil] at depth
          rw [if_pos ⟨some_unit, by omega⟩]
          rfl
      | cons scope others =>
          rw [List.length_cons] at depth
          rw [if_neg fun at_unit => by omega, split]
          rfl

/-! Which closing calls are accepted. -/

/-- A reply that accepts if something holds, and otherwise refuses for a lack of balance. -/
def Balances (reply : Reply) (holds : Prop) : Prop :=
  (reply.isAccepted = true ↔ holds) ∧
    (¬holds → ∃ cause, reply.outcome = .error (.scope cause))

theorem balances_accepted {notices : List Notice} {holds : Prop} (held : holds) :
    Balances (.accepted notices) holds :=
  ⟨iff_of_true rfl held, fun missed => absurd held missed⟩

theorem balances_refused {notices : List Notice} {holds : Prop} (cause : ScopeFault)
    (missed : ¬holds) : Balances (.refused (.scope cause) notices) holds :=
  ⟨iff_of_false Bool.false_ne_true missed, fun _ => ⟨cause, rfl⟩⟩

theorem Stands.closeScope (stands : builder.Stands standing) (running : builder.phase = .parsing)
    (kind : EntityKind) :
    Balances (builder.closeScope kind).1 (standing.head? = some (.container kind)) := by
  rw [(stands.head?_eq running).1, Option.some.injEq]
  unfold Builder.closeScope innermost
  split
  · rename_i waiting
    cases waiting.symm.trans running
  · rename_i no_scope
    rw [no_scope]
    refine balances_refused _ ?_
    split <;> exact nofun
  · rename_i scope outer _ open_scope
    rw [open_scope]
    dsimp only
    by_cases other : scope.kind ≠ kind
    · rw [if_pos other]
      refine balances_refused _ ?_
      split
      · exact nofun
      · exact fun same => other (Bracket.container.inj same)
    · rw [if_neg other]
      have same : scope.kind = kind := not_not.mp other
      split
      · rename_i no_unit
        refine balances_accepted ?_
        rw [if_neg (by simp [no_unit]), same]
      · rename_i unit some_unit
        rw [some_unit]
        by_cases outside : builder.depth ≤ builder.unitDepth
        · rw [if_pos outside, if_pos ⟨rfl, outside⟩]
          exact balances_refused _ nofun
        · rw [if_neg outside, if_neg fun at_unit => outside at_unit.2, same]
          exact balances_accepted rfl

theorem Stands.endUnit (stands : builder.Stands standing) (running : builder.phase = .parsing) :
    Balances builder.endUnit.1 (standing.head? = some .unit) := by
  obtain ⟨head, deeper⟩ := stands.head?_eq running
  rw [head, Option.some.injEq]
  unfold Builder.endUnit innermost
  split
  · rename_i waiting
    cases waiting.symm.trans running
  · rename_i no_unit
    refine balances_refused _ ?_
    rw [if_neg (by simp [no_unit])]
    split <;> exact nofun
  · rename_i unit _ some_unit
    rw [some_unit] at deeper ⊢
    have level := deeper rfl
    by_cases inside : builder.depth ≠ builder.unitDepth
    · rw [if_pos inside]
      refine balances_refused _ ?_
      rw [if_neg fun at_unit => by omega]
      split <;> exact nofun
    · rw [if_neg inside]
      refine balances_accepted ?_
      rw [if_pos ⟨rfl, by omega⟩]

variable [TripleStore σ]

/-- A call that closes a unit or a container is accepted just if it closes the bracket opened last,
and refused as unbalanced otherwise. -/
theorem Stands.closing (stands : builder.Stands standing) (running : builder.phase = .parsing)
    {call : Call} {bracket : Bracket} (closes : call.mark? = some (.closes bracket))
    (inner : bracket ≠ .run) :
    Balances (builder.handle call).1 (standing.head? = some bracket) := by
  cases call <;> cases closes
  case endParsing => exact absurd rfl inner
  case endUnit => exact stands.endUnit running
  case endPackage => exact stands.closeScope running .package
  case endClass => exact stands.closeScope running .classType
  case endInterface => exact stands.closeScope running .interface
  case endEnumeration => exact stands.closeScope running .enumeration

theorem write_only {sort : Fault → Prop} {notices : List Notice} {writes : List Write}
    {after : Builder σ → Builder σ}
    (each : ∀ first ∈ writes, ∀ draft : Draft σ, Steps.Only sort (draft.write first)) :
    Steps.Only sort (builder.write notices writes after).1.outcome := by
  have only := builder.model.writeAll_only each
  unfold write
  generalize builder.model.writeAll writes = written at only
  obtain ⟨model, outcome⟩ := written
  cases outcome with
  | ok unknown => exact Steps.only_ok ()
  | error fault => exact Steps.only_error (only fault rfl)

theorem libraryWrites_only (library location date : String) (draft : Draft σ) :
    ∀ first ∈ Declaration.libraryWrites library location date,
      Steps.Only Ontology.OfAddition (draft.write first) := by
  simp only [Declaration.libraryWrites, List.forall_mem_cons]
  refine ⟨draft.addResource_only _ _ _, draft.addLiteral_only _ _ _,
    draft.addLiteral_only _ _ _, ?_⟩
  intro first member
  cases member

/-- The end of a run is refused as unbalanced just if something in the run stands open. -/
theorem Stands.endParsing (stands : builder.Stands standing) :
    (∃ cause, builder.endParsing.1.outcome = .error (.scope cause)) ↔
      ∃ bracket ∈ standing, bracket ≠ .run := by
  have entered := stands.ne_nil_iff
  have in_unit := stands.unit_iff
  have depth := stands.depth_eq
  unfold Builder.endParsing
  split
  · rename_i waiting
    refine iff_of_false ?_ ?_
    · rintro ⟨cause, refused⟩
      cases Except.error.inj refused
    · rintro ⟨bracket, member, _⟩
      have entry := entered.mpr (List.ne_nil_of_mem member)
      cases waiting.symm.trans entry
  · rename_i unit _ _ some_unit
    rw [some_unit] at in_unit
    exact iff_of_true ⟨_, rfl⟩ ⟨.unit, in_unit.mp rfl, nofun⟩
  · rename_i scope outer _ _ open_scope
    have some_container : 0 < standing.countP (·.isContainer) := by
      rw [← depth, Builder.depth, open_scope]
      exact Nat.succ_pos _
    obtain ⟨bracket, member, container⟩ := List.countP_pos_iff.mp some_container
    refine iff_of_true ⟨_, rfl⟩ ⟨bracket, member, ?_⟩
    rintro rfl
    cases container
  · rename_i running no_unit no_scope
    refine iff_of_false ?_ ?_
    · rintro ⟨cause, refused⟩
      exact write_only (fun first member draft => libraryWrites_only _ _ _ draft first member) _
        refused
    · rintro ⟨bracket, member, other⟩
      cases bracket with
      | run => exact other rfl
      | unit =>
          rw [no_unit] at in_unit
          cases in_unit.mpr member
      | container kind =>
          have some_container : 0 < standing.countP (·.isContainer) :=
            List.countP_pos_iff.mpr ⟨_, member, rfl⟩
          rw [← depth, Builder.depth, no_scope] at some_container
          cases some_container

/-- Between runs no call but the one that begins a run changes the model or the scopes. -/
theorem idle_keeps (waiting : builder.phase = .idle) {call : Call}
    (other : call.mark? ≠ some (.opens .run)) :
    (builder.handle call).2.model = builder.model ∧
      (builder.handle call).2.scopes = builder.scopes := by
  cases call with
  | startParsing => exact absurd rfl other
  | methodDoc =>
      simp only [handle, noteMethodDoc]
      split <;> exact ⟨rfl, rfl⟩
  | _ =>
      simp [handle, endParsing, startUnit, endUnit, startPackage, closeScope, openType, declare,
        noteError, notStarted, refuse, waiting]

/-! What a run leaves open. -/

/-- The mark a builder takes from a call, if it accepts it. -/
def marked (builder : Builder σ) (call : Call) : Option Mark :=
  if (builder.handle call).1.isAccepted then call.mark? else none

def marks (builder : Builder σ) : List Call → List Mark
  | [] => []
  | call :: rest => (builder.marked call).toList ++ (builder.handle call).2.marks rest

/-- How a mark changes what stands open: what opens fits, and what closes was opened last. -/
inductive Follows (standing : List Bracket) : Option Mark → List Bracket → Prop
  | stays : Follows standing none standing
  | opens (bracket : Bracket) (fits : bracket.Fits standing) :
      Follows standing (some (.opens bracket)) (bracket :: standing)
  | closes (bracket : Bracket) (around : List Bracket) (innermost : standing = bracket :: around) :
      Follows standing (some (.closes bracket)) around

/-- What stands open after a call follows from what stood open before and the mark of the call. -/
theorem Stands.handle (stands : builder.Stands standing) {call : Call}
    (named : call ≠ .startUnit .null) :
    ∃ next, Follows standing (builder.marked call) next ∧ (builder.handle call).2.Stands next := by
  have outcome := outcome_handle builder call
  unfold marked
  generalize builder.handle call = result at outcome
  -- What a call does is possible in some of the states only: the phase or the unit excludes others.
  cases outcome with
  | refuses => exact ⟨standing, .stays, stands.same rfl rfl rfl rfl⟩
  | begins library location name place told idle =>
      cases stands with
      | idle => exact ⟨[.run], told ▸ .opens .run rfl, .between rfl rfl⟩
      | between running => cases idle.symm.trans running
      | within _ _ running => cases idle.symm.trans running
  | ends model unknown told running no_unit no_scope =>
      cases stands with
      | idle waiting => cases waiting.symm.trans running
      | between =>
          refine ⟨[], ?_, .idle rfl no_unit no_scope⟩
          rw [told, no_scope]
          exact .closes .run [] rfl
      | within _ _ _ some_unit =>
          rw [no_unit] at some_unit
          cases some_unit
  | beginsUnit name told running no_unit =>
      cases stands with
      | idle waiting => cases waiting.symm.trans running
      | between =>
          have some_name : (unitName? name).isSome = true := by
            cases name with
            | null => exact absurd told named
            | _ => rfl
          refine ⟨_, ?_, .within [] builder.scopes running some_name rfl rfl⟩
          rw [told]
          exact .opens .unit ⟨by simp, by simp⟩
      | within _ _ _ some_unit =>
          rw [no_unit] at some_unit
          cases some_unit
  | endsUnit unit told running open_unit level =>
      cases stands with
      | idle waiting => cases waiting.symm.trans running
      | between _ no_unit => cases no_unit.symm.trans open_unit
      | within inner outer _ _ split depth =>
          -- The unit ends at the depth it began at, so that no scope in it is left open.
          have none_inside : inner = [] := by
            rw [Builder.depth, split, List.length_append] at level
            exact List.length_eq_zero_iff.mp (by omega)
          subst none_inside
          refine ⟨outer.map (.container ·.kind) ++ [.run], ?_, ?_⟩
          · rw [told]
            exact .closes .unit _ rfl
          · have scopes : builder.scopes = outer := split
            rw [← scopes]
            exact .between running rfl
  | opens kind writes segments name notices path model unknown told running =>
      let scope : Scope := ⟨kind, path, segments.length, name⟩
      refine ⟨.container kind :: standing, ?_, ?_⟩
      · rw [Call.mark_of_opens told]
        exact .opens (.container kind) (stands.ne_nil_iff.mp running)
      · exact stands.opened scope running rfl rfl rfl rfl
  | closes kind scope outer told running open_scope same inside =>
      obtain ⟨around, innermost, closed⟩ := stands.closed running open_scope inside
      refine ⟨around, ?_, closed⟩
      rw [Call.mark_of_closes told, ← same]
      exact .closes _ around innermost
  | declares kind writes scope outer name id notices model unknown told =>
      refine ⟨standing, ?_, stands.same rfl rfl rfl rfl⟩
      rw [Call.mark_of_declares told]
      exact .stays
  | notes notices errors told =>
      refine ⟨standing, ?_, stands.same rfl rfl rfl rfl⟩
      rw [Call.mark_of_isNote told]
      exact .stays

/-- After any calls, what stands open is what the marks left open, and closing it completes the
marks. -/
theorem Stands.after (calls : List Call) {builder : Builder σ} {standing : List Bracket}
    (stands : builder.Stands standing) (named : Call.startUnit .null ∉ calls) :
    let last := (builder.marks calls).foldl Mark.next standing
    (Handler.after builder calls).Stands last ∧
      Mark.Completes standing (builder.marks calls ++ last.map .closes) := by
  induction calls generalizing builder standing with
  | nil => exact ⟨stands, Mark.completes_closes standing⟩
  | cons call rest ih =>
      obtain ⟨this, later⟩ := not_or.mp (mt List.mem_cons.mpr named)
      obtain ⟨next, follows, stands⟩ := stands.handle (Ne.symm this)
      obtain ⟨last, completes⟩ := ih stands later
      unfold marks
      generalize builder.marked call = mark at follows
      cases follows with
      | stays => exact ⟨last, completes⟩
      | opens bracket fits => exact ⟨last, completes.open fits⟩
      | closes bracket around innermost =>
          subst innermost
          exact ⟨last, completes.close⟩

/-- After any calls, where units are given names: the accepted calls nest, and closing what stands
open completes them; the depth is the number of open containers; and a closing call is accepted just
if it closes the bracket opened last. Between runs no other call than the beginning of one changes
the model or the scopes. -/
theorem runs_nest (model : Model σ) (date : String) (calls : List Call)
    (named : Call.startUnit .null ∉ calls) :
    let builder := Handler.after (start model date) calls
    let marks := (start model date).marks calls
    let standing := Mark.standing marks
    Mark.Runs (marks ++ standing.map .closes) ∧
      builder.depth = standing.countP (·.isContainer) ∧
      (builder.unit.isSome = true ↔ .unit ∈ standing) ∧
      (builder.phase = .parsing ↔ standing ≠ []) ∧
      (builder.phase = .parsing → ∀ call bracket, call.mark? = some (.closes bracket) →
        bracket ≠ .run → Balances (builder.handle call).1 (standing.head? = some bracket)) ∧
      ((∃ cause, (builder.handle .endParsing).1.outcome = .error (.scope cause)) ↔
        ∃ bracket ∈ standing, bracket ≠ .run) ∧
      (builder.phase = .idle → ∀ call : Call, call.mark? ≠ some (.opens .run) →
        (builder.handle call).2.model = builder.model ∧
          (builder.handle call).2.scopes = builder.scopes) := by
  intro builder marks standing
  obtain ⟨stands, completes⟩ := (stands_start model date).after calls named
  refine ⟨completes, stands.depth_eq, stands.unit_iff, stands.ne_nil_iff, ?_, stands.endParsing,
    ?_⟩
  · intro running call bracket closes inner
    exact stands.closing running closes inner
  · intro waiting call other
    exact idle_keeps waiting other

theorem unitInRun_nests :
    let calls : List Call :=
      [.startParsing (.text "lib") (.text "/lib"), .startUnit (.text "A.java"),
        .startUnit (.text "B.java"), .endClass]
    let builder := start ⟨.empty, .empty, PlainStore.empty⟩ "2024-01-01"
    Call.startUnit .null ∉ calls ∧
      builder.marks calls = [.opens .run, .opens .unit] ∧
      Mark.Runs [.opens .run, .opens .unit, .closes .unit, .closes .run] := by
  intro calls builder
  have named : Call.startUnit .null ∉ calls := by simp [calls]
  have marks : builder.marks calls = [.opens .run, .opens .unit] := by decide +kernel
  have runs := (runs_nest ⟨.empty, .empty, PlainStore.empty⟩ "2024-01-01" calls named).1
  rw [marks] at runs
  exact ⟨named, marks, runs⟩

end Builder

end CodeFacts
