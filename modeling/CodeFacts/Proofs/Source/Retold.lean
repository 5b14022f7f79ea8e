import CodeFacts.Proofs.Builder.Paired
import CodeFacts.Proofs.Source.Alike
import CodeFacts.Proofs.Source.Rebound

/-!
Declarations told again with names that are missing. As far as one tree is told with fields of the
kinds the profile speaks of, a tree that lost some names is told by calls of the same sorts: other
names of types change what is referred to, but not to what kind of thing.
-/

namespace CodeFacts

/-- Whether a call, if it declares something, has fields of the kinds the profile speaks of. -/
def Call.Kinded (call : Call) : Prop :=
  (call.opens?).isSome = true ∨ (call.declares?).isSome = true → call.wellKinded = true

instance (call : Call) : Decidable call.Kinded :=
  inferInstanceAs (Decidable ((call.opens?).isSome = true ∨ (call.declares?).isSome = true →
    call.wellKinded = true))

namespace Trace

/-- Whether a trace is told by calls paired with those of another one, if that one has no fault and
its calls have fields of the kinds the profile speaks of. -/
def Followed (one other : Trace) : Prop :=
  one.fault = none → (∀ call ∈ one.calls, call.Kinded) →
    other.fault = none ∧ List.Forall₂ Call.Pairs one.calls other.calls

theorem followed_empty : Followed empty empty := fun _ _ => ⟨rfl, .nil⟩

theorem Followed.append {first again second later : Trace} (followed : first.Followed again)
    (further : first.fault = none → (∀ call ∈ first.calls, call.Kinded) → second.Followed later) :
    (first ++ second).Followed (again ++ later) := by
  intro passed kinds
  obtain ⟨first_passed, second_passed, calls⟩ := of_append passed
  rw [calls] at kinds ⊢
  obtain ⟨first_kinds, second_kinds⟩ := List.forall_mem_append.mp kinds
  obtain ⟨again_passed, pairs⟩ := followed first_passed first_kinds
  obtain ⟨later_passed, more⟩ := further first_passed first_kinds second_passed second_kinds
  obtain ⟨told, rest⟩ := again
  cases again_passed
  exact ⟨later_passed, List.rel_append pairs more⟩

theorem followed_ofCall {one other : Except Fault Call}
    (pairs : ∀ call, one = .ok call → call.Kinded →
      ∃ again, other = .ok again ∧ call.Pairs again) :
    (ofCall one).Followed (ofCall other) := by
  intro passed kinds
  obtain ⟨call, given, told⟩ := calls_ofCall passed
  rw [told] at kinds ⊢
  obtain ⟨again, given_again, pair⟩ := pairs call given (kinds call List.mem_cons_self)
  rw [given_again]
  exact ⟨rfl, .cons pair .nil⟩

theorem followed_ofCalls {calls others : List Call} (pairs : List.Forall₂ Call.Pairs calls others) :
    (ofCalls calls).Followed (ofCalls others) :=
  fun _ _ => ⟨rfl, pairs⟩

end Trace

namespace Source

/-- Trees that differ in names that are missing only. -/
def Leeway.missing : Leeway := ⟨true, false⟩

theorem Unnamed.unmarked {leeway : Leeway} {name other : String}
    (unnamed : Unnamed leeway name other) (unmarked : Dotted.Unmarked name) :
    Dotted.Unmarked other := by
  rcases unnamed with same | ⟨_, lost⟩
  · rw [same]
    exact unmarked
  · rw [lost]
    decide +kernel

theorem signatureName_plain {type : TypeRef} (plain : type.isPlain = true) :
    ∃ name, signatureName type = .ok name := by
  induction type with
  | primitive name => exact ⟨name, rfl⟩
  | named kind name enclosing =>
      unfold signatureName
      split
      · obtain ⟨none, unmarked⟩ := Bool.and_eq_true_iff.mp plain
        obtain rfl := Option.isNone_iff_eq_none.mp none
        obtain ⟨id, made, _⟩ :=
          Identifier.ofTypeName_unmarked kind.entity (of_decide_eq_true unmarked)
        exact ⟨id.text, by rw [TypeRef.text, made]; rfl⟩
      · exact ⟨name, rfl⟩
  | array element dimensions ih =>
      obtain ⟨name, found⟩ := ih plain
      exact Steps.bind_passes ⟨name, found⟩ fun _ _ => ⟨_, rfl⟩

variable {one other : Resolver} {owner another : String}

/-! ### Members -/

theorem followed_field (renamed : Resolver.Renamed one other) (inInterface : Bool)
    (field : FieldDeclaration) {declarators : List Declarator}
    (each : List.Forall₂ (SameDeclarator .missing) field.declarators declarators) :
    (fieldTrace one inInterface field).Followed
      (fieldTrace other inInterface { field with declarators }) := by
  obtain ⟨keywords, type, all⟩ := field
  unfold fieldTrace
  dsimp only at each ⊢
  induction each with
  | nil => exact Trace.followed_empty
  | @cons declarator changed _ _ here _ ih =>
      rw [List.map_cons, List.map_cons, Trace.join_cons, Trace.join_cons]
      refine (Trace.followed_ofCall fun call told kinds => ?_).append fun _ _ => ih
      obtain ⟨unnamed, dimensions, value⟩ := here
      obtain ⟨type, referred, told⟩ := Steps.bind_ok_iff.mp told
      cases told
      obtain ⟨rebound, again, same⟩ := renamed.reference referred
      rw [dimensions, again, value]
      refine ⟨_, rfl, .declares rfl rfl ?_⟩
      have kinds := kinds (.inr rfl)
      simp only [Call.wellKinded, Bool.and_eq_true, Value.isUnmarked, decide_eq_true_eq]
        at kinds ⊢
      obtain ⟨⟨⟨word, unmarked⟩, plain⟩, given⟩ := kinds
      exact ⟨⟨⟨word, unnamed.unmarked unmarked⟩, same.1 plain⟩, given⟩

theorem namesEach_rebound {parameters : Value} {types others : List TypeRef}
    (each : List.Forall₂ Rebound types others)
    (named : Declaration.namesEach parameters types = true) :
    Declaration.namesEach parameters others = true := by
  unfold Declaration.namesEach at *
  rwa [← each.length_eq]

theorem plain_rebound {types others : List TypeRef} (each : List.Forall₂ Rebound types others)
    (plain : types.all (·.isPlain) = true) : others.all (·.isPlain) = true :=
  all_of_rebound (fun _ _ same => same.1) each plain

theorem names_rebound {types others : List TypeRef} {kind : EntityKind}
    (each : List.Forall₂ Rebound types others) (named : types.all (·.names kind) = true) :
    others.all (·.names kind) = true :=
  all_of_rebound (fun _ _ same => same.names) each named

/-- The documentation of a method is told under another name as soon as its types have names. -/
theorem followed_methodDoc {declaration : ExecutableDeclaration} {name : String}
    (types : List TypeRef) {others : List TypeRef} (plain : others.all (·.isPlain) = true) :
    (methodDocTrace owner declaration types).Followed
      (methodDocTrace another { declaration with name } others) := by
  unfold methodDocTrace
  cases declaration.documentation with
  | none => exact Trace.followed_empty
  | some entry =>
      refine (Trace.followed_ofCalls (.cons (.entry entry) .nil)).append fun _ _ => ?_
      refine Trace.followed_ofCall fun call told _ => ?_
      obtain ⟨signature, _, told⟩ := Steps.bind_ok_iff.mp told
      cases told
      obtain ⟨signature_again, named⟩ := Steps.mapM_passes others fun type listed =>
        signatureName_plain (List.all_eq_true.mp plain type listed)
      rw [named]
      exact ⟨_, rfl, .methodDoc entry _ _ _ _⟩

theorem followed_method (renamed : Resolver.Renamed one other) (owner another : String)
    (inInterface : Bool) (declaration : ExecutableDeclaration) {name : String}
    (unnamed : Unnamed .missing declaration.name name) (overload count : Nat) :
    (methodTrace one owner inInterface declaration overload).Followed
      (methodTrace other another inInterface { declaration with name } count) := by
  unfold methodTrace
  cases declaration.type with
  | none => exact Trace.followed_empty
  | some written =>
      have inner := renamed.enter declaration.typeVariables
      dsimp only
      split
      · exact nofun
      · rename_i read
        simp only [Steps.bind_ok_iff, Steps.pure_ok_iff, Prod.mk.injEq] at read
        obtain ⟨result, returned, types, given, exceptions, thrown, rfl, rfl, rfl⟩ := read
        have given : parameterTypes (one.enter declaration.typeVariables)
            { declaration with name, type := some written } = .ok types := given
        obtain ⟨result_again, returned_again, same_result⟩ := inner.reference returned
        obtain ⟨types_again, given_again, same_types⟩ := inner.parameterTypes given
        obtain ⟨exceptions_again, thrown_again, same_exceptions⟩ := inner.clause thrown
        rw [returned_again, given_again, thrown_again]
        dsimp only [bind, Except.bind, pure, Except.pure]
        refine Trace.Followed.append (fun _ kinds => ⟨rfl, .cons ?_ .nil⟩) fun _ kinds => ?_
        all_goals
          have kinds := kinds _ List.mem_cons_self (.inr rfl)
          simp only [Call.wellKinded, Bool.and_eq_true, Value.isUnmarked, decide_eq_true_eq]
            at kinds
          obtain ⟨⟨⟨⟨⟨⟨word, unmarked⟩, whole⟩, named⟩, plain⟩, returns⟩, throws⟩ := kinds
        · refine .declares rfl rfl ?_
          simp only [Call.wellKinded, Bool.and_eq_true, Value.isUnmarked, decide_eq_true_eq]
          exact ⟨⟨⟨⟨⟨⟨word, unnamed.unmarked unmarked⟩, rfl⟩, namesEach_rebound same_types named⟩,
            plain_rebound same_types plain⟩, same_result.1 returns⟩,
            names_rebound same_exceptions throws⟩
        · exact followed_methodDoc types (plain_rebound same_types plain)

theorem followed_constructor (renamed : Resolver.Renamed one other)
    (declaration : ExecutableDeclaration) (overload count : Nat) :
    (constructorTrace one declaration overload).Followed
      (constructorTrace other declaration count) := by
  have inner := renamed.enter declaration.typeVariables
  refine Trace.followed_ofCall fun call told kinds => ?_
  simp only [Steps.bind_ok_iff] at told
  obtain ⟨types, given, exceptions, thrown, told⟩ := told
  cases told
  obtain ⟨types_again, given_again, same_types⟩ := inner.parameterTypes given
  obtain ⟨exceptions_again, thrown_again, same_exceptions⟩ := inner.clause thrown
  rw [given_again, thrown_again]
  refine ⟨_, rfl, .declares rfl rfl ?_⟩
  have kinds := kinds (.inr rfl)
  simp only [Call.wellKinded, Bool.and_eq_true] at kinds ⊢
  obtain ⟨⟨⟨⟨word, whole⟩, named⟩, plain⟩, thrown⟩ := kinds
  exact ⟨⟨⟨⟨word, rfl⟩, namesEach_rebound same_types named⟩, plain_rebound same_types plain⟩,
    names_rebound same_exceptions thrown⟩

/-! ### Types -/

theorem extended_rebound (renamed : Resolver.Renamed one other) {written : Option Written}
    {type : Option TypeRef} (given : written.mapM (one.reference .classType) = .ok type) :
    ∃ again, written.mapM (other.reference .classType) = .ok again ∧
      (type.all (·.names .classType) = true → again.all (·.names .classType) = true) := by
  cases written with
  | none =>
      cases given
      exact ⟨none, rfl, id⟩
  | some written =>
      obtain ⟨type, referred, rfl⟩ := Steps.map_ok_iff.mp given
      obtain ⟨rebound, again, same⟩ := renamed.reference referred
      refine ⟨some rebound, ?_, same.names⟩
      show Except.map some (other.reference .classType written) = _
      rw [again]
      rfl

theorem unmarked_of_opening {call : Call} {kind : EntityKind} {name : Value}
    (opens : call.opening? = some (kind, name)) (kinds : call.Kinded) : name.isUnmarked = true := by
  obtain ⟨_, told⟩ := Call.opens_of_opening opens
  have kinds := kinds (.inl (by rw [told]; rfl))
  cases call <;> cases opens <;> simp only [Call.wellKinded, Bool.and_eq_true] at kinds
  case startPackage => exact kinds
  case startClass => exact kinds.1.1.2
  case startInterface => exact kinds.1.2
  case startEnumeration => exact kinds.1.1.2

/-- A type is opened under another name, where it is marked as little as it was. -/
theorem followed_opening (renamed : Resolver.Renamed one other) (inInterface : Bool)
    (heading : TypeHeading) {name full renamed_full : String}
    (clean : Dotted.Unmarked full → Dotted.Unmarked renamed_full) :
    (Trace.ofCall (openCall one full inInterface heading)).Followed
      (Trace.ofCall (openCall other renamed_full inInterface { heading with name })) := by
  refine Trace.followed_ofCall fun call told kinds => ?_
  simp only [openCall, Steps.bind_ok_iff] at told
  obtain ⟨extended, super, interfaces, listed, told⟩ := told
  obtain ⟨extended_again, super_again, same_super⟩ := extended_rebound renamed super
  obtain ⟨interfaces_again, listed_again, same_interfaces⟩ := renamed.clause listed
  unfold openCall
  dsimp only
  rw [super_again, listed_again]
  dsimp only [bind, Except.bind, pure, Except.pure] at told ⊢
  cases sort : heading.sort
  all_goals
    rw [sort] at told
    cases told
    have kinds := kinds (.inl rfl)
    simp only [Call.wellKinded, Bool.and_eq_true, Value.isUnmarked, decide_eq_true_eq] at kinds
  case classType =>
    obtain ⟨⟨⟨word, unmarked⟩, super⟩, listed⟩ := kinds
    refine ⟨_, rfl, .opens rfl rfl (by decide) ?_⟩
    simp only [Call.wellKinded, Bool.and_eq_true, Value.isUnmarked, decide_eq_true_eq]
    exact ⟨⟨⟨word, clean unmarked⟩, same_super super⟩, names_rebound same_interfaces listed⟩
  case interface =>
    obtain ⟨⟨word, unmarked⟩, listed⟩ := kinds
    refine ⟨_, rfl, .opens rfl rfl (by decide) ?_⟩
    simp only [Call.wellKinded, Bool.and_eq_true, Value.isUnmarked, decide_eq_true_eq]
    exact ⟨⟨word, clean unmarked⟩, names_rebound same_interfaces listed⟩
  case enumeration =>
    obtain ⟨⟨⟨word, unmarked⟩, elements⟩, listed⟩ := kinds
    refine ⟨_, rfl, .opens rfl rfl (by decide) ?_⟩
    simp only [Call.wellKinded, Bool.and_eq_true, Value.isUnmarked, decide_eq_true_eq]
    exact ⟨⟨⟨word, clean unmarked⟩, elements⟩, names_rebound same_interfaces listed⟩

theorem followed_typeDoc (heading : TypeHeading) (name full other : String) :
    (typeDocTrace full heading).Followed (typeDocTrace other { heading with name }) := by
  unfold typeDocTrace
  dsimp only
  cases heading.documentation with
  | none => exact Trace.followed_empty
  | some entry =>
      exact Trace.followed_ofCalls (.cons (.entry entry) (.cons (.classDoc entry _ _) .nil))

/-- Whether nodes are read alike, and told alike in any owners and under any resolvers that know the
same but for the types of the unit. -/
def ToldAlike (node other : Option Node × Node) : Prop :=
  (readMember node = none ∧ readMember other = none) ∨
    ∃ member again, readMember node = some member ∧ readMember other = some again ∧
      ∀ (first second : Resolver), Resolver.Renamed first second → ∀ owner another,
        Dotted.Unmarked another → ∀ inInterface methods names constructors count,
          (memberTrace first owner inInterface methods constructors member).Followed
            (memberTrace second another inInterface names count again)

theorem followed_members {nodes others : List (Option Node × Node)}
    (each : List.Forall₂ ToldAlike nodes others) (renamed : Resolver.Renamed one other)
    (clean : Dotted.Unmarked another) (inInterface : Bool) (methods names : List String)
    (constructors count : Nat) :
    (memberTraces one owner inInterface methods constructors
        (nodes.filterMap readMember)).Followed
      (memberTraces other another inInterface names count (others.filterMap readMember)) := by
  induction each generalizing methods names constructors count with
  | nil => exact Trace.followed_empty
  | @cons node again nodes others here _ ih =>
      rcases here with ⟨unread, unread_again⟩ | ⟨member, changed, read, read_again, told⟩
      · rw [List.filterMap_cons_none unread, List.filterMap_cons_none unread_again]
        exact ih methods names constructors count
      · rw [List.filterMap_cons_some read, List.filterMap_cons_some read_again]
        obtain ⟨more, total, split⟩ := memberTraces_cons one owner inInterface methods constructors
          member (nodes.filterMap readMember)
        obtain ⟨more_again, total_again, split_again⟩ := memberTraces_cons other another inInterface
          names count changed (others.filterMap readMember)
        rw [split, split_again]
        exact (told one other renamed owner another clean inInterface methods names constructors
          count).append fun _ _ => ih more more_again total total_again

/-- Nodes that differ in names that are missing are told alike. The induction is over the members of
types. -/
theorem Alike.told {node other : Option Node × Node} (alike : Alike .missing node other) :
    ToldAlike node other := by
  obtain ⟨previous, node⟩ := node
  induction node using Node.members_induction generalizing previous other with
  | step node ih =>
  have read := alike.read
  unfold ToldAlike
  generalize readMember (previous, node) = first, readMember other = second at read
  cases read with
  | nothing => exact .inl ⟨rfl, rfl⟩
  | field declaration each =>
      refine .inr ⟨_, _, rfl, rfl, fun first second renamed owner another _ inInterface _ _ _ _ => ?_⟩
      exact followed_field renamed inInterface declaration each
  | method declaration unnamed =>
      refine .inr ⟨_, _, rfl, rfl, fun first second renamed owner another _ inInterface _ _ _ _ => ?_⟩
      exact followed_method renamed owner another inInterface declaration unnamed _ _
  | constructor declaration =>
      refine .inr ⟨_, _, rfl, rfl, fun first second renamed owner another _ inInterface _ _ _ _ => ?_⟩
      exact followed_constructor renamed declaration _ _
  | @type heading name unnamed members =>
      refine .inr ⟨_, _, rfl, rfl,
        fun first second renamed owner another clean inInterface _ _ _ _ => ?_⟩
      have inner := renamed.enter heading.typeVariables
      have each : List.Forall₂ ToldAlike node.members other.2.members :=
        forall₂_of_mem members fun member listed _ alike => ih member listed member.1 alike
      have within (unmarked : Dotted.Unmarked (Dotted.within owner heading.name)) :
          Dotted.Unmarked (Dotted.within another name) :=
        (unnamed.unmarked unmarked.of_within).within clean
      simp only [memberTrace]
      -- The opening tells that the full name has no marks, which the members inside rely on.
      refine (((followed_opening inner inInterface heading within).append fun _ _ =>
        followed_typeDoc heading name _ _).append fun passed kinds => ?_).append fun _ _ => ?_
      · obtain ⟨started, _, calls⟩ := Trace.of_append passed
        obtain ⟨opening, given, told⟩ := Trace.calls_ofCall started
        have kinds := kinds opening (by rw [calls, told]; exact List.mem_cons_self)
        have unmarked := unmarked_of_opening (opening_of_openCall given) kinds
        exact followed_members each inner (within (of_decide_eq_true unmarked)) _ _ _ _ _
      · refine Trace.followed_ofCalls (.cons ?_ .nil)
        cases heading.sort <;> exact .closes rfl rfl

end Source

end CodeFacts
