import CodeFacts.Proofs.Builder.Fits
import CodeFacts.Proofs.Builder.Signature
import CodeFacts.Proofs.Builder.Standing
import CodeFacts.Proofs.Value.Json

/-!
The bodies of containers as they are told. What is told in a body is handled in the scope of its
container, so executables that are numbered apart in one body have signatures of their own.
-/

namespace CodeFacts

namespace Call

/-- What is told next, put where it is told: the bodies of the containers that are open, innermost
first, and last what is in none. A call that ends a container is in no body. -/
def place {α : Type} (tell : α → Call) (bodies : List (List α)) (item : α) : List (List α) :=
  if (tell item).opening?.isSome then [] :: bodies
  else if (tell item).closes?.isSome then bodies.tail
  else
    match bodies with
    | [] => []
    | body :: outer => (body ++ [item]) :: outer

def bodies {α : Type} (tell : α → Call) (items : List α) : List (List α) :=
  items.foldl (place tell) [[]]

def constructorNumber? : Call → Option Value
  | .constructor _ overload _ _ _ _ => some overload
  | _ => none

def methodNumber? (name : String) : Call → Option Value
  | .method _ (.text given) _ _ _ _ _ overload => if given = name then some overload else none
  | _ => none

/-- Whether the constructors of a body are numbered from zero on, and its methods of each name in
rising order. -/
structure Numbered (body : List Call) : Prop where
  constructors : ∃ count,
    body.filterMap constructorNumber? = (List.range count).map fun number => .int number
  methods : ∀ name, ∃ numbers : List Nat,
    body.filterMap (methodNumber? name) = numbers.map (fun number => .int number) ∧
      numbers.Pairwise (· < ·)

/-- Items placed by what they tell are placed where that would be alone. -/
theorem bodies_map {α : Type} (tell : α → Call) (items : List α) :
    bodies id (items.map tell) = (bodies tell items).map (List.map tell) := by
  have placed (bodies : List (List α)) (item : α) :
      place id (bodies.map (List.map tell)) (tell item) =
        (place tell bodies item).map (List.map tell) := by
    unfold place
    simp only [id]
    split
    · rfl
    · split
      · exact List.map_tail.symm
      · cases bodies <;> simp
  suffices ∀ start : List (List α), (items.map tell).foldl (place id) (start.map (List.map tell)) =
      (items.foldl (place tell) start).map (List.map tell) from this [[]]
  induction items with
  | nil => exact fun _ => rfl
  | cons item rest ih =>
      intro start
      rw [List.map_cons, List.foldl_cons, List.foldl_cons, placed, ih]

theorem mem_of_mem_bodies {α : Type} {tell : α → Call} {items body : List α} {item : α}
    (member : body ∈ bodies tell items) (listed : item ∈ body) : item ∈ items := by
  suffices ∀ start : List (List α), body ∈ items.foldl (place tell) start →
      item ∈ items ∨ ∃ other ∈ start, item ∈ other by
    rcases this [[]] member with told | ⟨other, empty, inside⟩
    · exact told
    · rw [List.mem_singleton.mp empty] at inside
      cases inside
  clear member
  induction items with
  | nil => exact fun start member => .inr ⟨body, member, listed⟩
  | cons first rest ih =>
      intro start member
      rcases ih _ member with told | ⟨other, placed, inside⟩
      · exact .inl (List.mem_cons_of_mem first told)
      · unfold place at placed
        split at placed
        · rcases List.mem_cons.mp placed with rfl | old
          · cases inside
          · exact .inr ⟨other, old, inside⟩
        · split at placed
          · exact .inr ⟨other, List.mem_of_mem_tail placed, inside⟩
          · split at placed
            · cases placed
            · rcases List.mem_cons.mp placed with rfl | old
              · rcases List.mem_append.mp inside with before | new
                · exact .inr ⟨_, List.mem_cons_self, before⟩
                · rw [List.mem_singleton.mp new]
                  exact .inl List.mem_cons_self
              · exact .inr ⟨other, List.mem_cons_of_mem _ old, inside⟩

/-- What tells the executables of one body apart: the name of a method, and the number. -/
def executable? : Call → Option (Option String × Value)
  | .constructor _ overload _ _ _ _ => some (none, overload)
  | .method _ (.text name) _ _ _ _ _ overload => some (some name, overload)
  | _ => none

theorem constructorNumber_of_executable {call : Call} {overload : Value}
    (given : call.executable? = some (none, overload)) :
    call.constructorNumber? = some overload := by
  unfold executable? at given
  split at given <;> cases given
  rfl

theorem methodNumber_of_executable {call : Call} {name : String} {overload : Value}
    (given : call.executable? = some (some name, overload)) :
    call.methodNumber? name = some overload := by
  unfold executable? at given
  split at given <;> cases given
  exact if_pos rfl

/-- The executables of a numbered body are told apart by their names and numbers. -/
theorem Numbered.apart {body : List Call} (numbered : Numbered body) :
    (body.filterMap executable?).Nodup := by
  have number {left right : Nat} (same : left ≠ right) :
      Value.int left ≠ Value.int right := fun equal =>
    same (Int.ofNat.inj (Value.int.inj equal))
  have zeroOn : (body.filterMap constructorNumber?).Nodup := by
    obtain ⟨count, constructors⟩ := numbered.constructors
    rw [constructors, List.Nodup, List.pairwise_map]
    exact List.nodup_range.imp number
  have rising (name : String) : (body.filterMap (methodNumber? name)).Nodup := by
    obtain ⟨numbers, methods, rising⟩ := numbered.methods name
    rw [methods, List.Nodup, List.pairwise_map]
    exact rising.imp fun less => number less.ne
  simp only [List.Nodup, List.pairwise_filterMap] at zeroOn rising ⊢
  simp only [List.pairwise_iff_getElem] at zeroOn rising ⊢
  intro first second below within less one early other late same
  subst same
  obtain ⟨name, overload⟩ := one
  cases name with
  | none =>
      exact zeroOn first second below within less _ (constructorNumber_of_executable early) _
        (constructorNumber_of_executable late) rfl
  | some name =>
      exact rising name first second below within less _ (methodNumber_of_executable early) _
        (methodNumber_of_executable late) rfl

theorem Numbered.number {body : List Call} (numbered : Numbered body) {call : Call}
    (listed : call ∈ body) {name : Option String} {overload : Value}
    (given : call.executable? = some (name, overload)) :
    ∃ number : Nat, overload = .int number := by
  cases name with
  | none =>
      obtain ⟨count, constructors⟩ := numbered.constructors
      have member := List.mem_filterMap.mpr ⟨call, listed, constructorNumber_of_executable given⟩
      rw [constructors] at member
      obtain ⟨number, _, same⟩ := List.mem_map.mp member
      exact ⟨number, same.symm⟩
  | some name =>
      obtain ⟨numbers, methods, _⟩ := numbered.methods name
      have member := List.mem_filterMap.mpr ⟨call, listed, methodNumber_of_executable given⟩
      rw [methods] at member
      obtain ⟨number, _, same⟩ := List.mem_map.mp member
      exact ⟨number, same.symm⟩

/-- Whether a call is one told in a unit: it begins or ends a container, or it declares or notes
something, no method with a dot in its name. -/
structure Inner (call : Call) : Prop where
  place : call.opening?.isSome ∨ call.closes?.isSome ∨ call.mark? = none
  undotted : ∀ name overload, call.executable? = some (some name, overload) → '.' ∉ name.toList

theorem inner_of_isNote {call : Call} (note : call.isNote = true) : call.Inner where
  place := .inr (.inr (mark_of_isNote note))
  undotted name overload given := by cases call <;> first | cases given | cases note

/-- Whether a call, if it declares an executable, has a number and a name without a dot. -/
def Plain (call : Call) : Prop :=
  ∀ name overload, call.executable? = some (name, overload) →
    (∃ number : Nat, overload = .int number) ∧ ∀ text ∈ name, '.' ∉ text.toList

theorem Numbered.plain {body : List Call} (numbered : Numbered body)
    (inner : ∀ call ∈ body, call.Inner) : ∀ call ∈ body, call.Plain := by
  intro call listed name overload given
  refine ⟨numbered.number listed given, ?_⟩
  rintro text rfl
  exact (inner call listed).undotted text overload given

theorem Plain.declaring {call : Call} (plain : call.Plain) {kind : EntityKind} {name : String}
    {signing : Signing} (told : call.declaring? = some (kind, name))
    (given : call.signing? = some signing) :
    ∃ number : Nat, signing.overload = .int number ∧
      call.executable? = some (if kind = .method then some name else none, .int number) := by
  cases call with
  | constructor visibility overload parameters types modifiers exceptions =>
      cases told
      cases given
      obtain ⟨⟨number, rfl⟩, _⟩ := plain none overload rfl
      exact ⟨number, rfl, rfl⟩
  | method visibility text parameters types result modifiers exceptions overload =>
      cases text with
      | text text =>
          cases told
          cases given
          obtain ⟨⟨number, rfl⟩, undotted⟩ := plain (some text) overload rfl
          have simple : Dotted.simple text = text := by
            rw [Dotted.simple, Text.cutLast_eq_none_iff.mpr (undotted text rfl)]
          exact ⟨number, rfl, by rw [simple]; rfl⟩
      | _ => cases told
  | _ => cases given

end Call

namespace Builder

variable {σ : Type} [TripleStore σ]

/-- Calls with the states of a builder in which they are handled. -/
def met (builder : Builder σ) : List Call → List (Builder σ × Call)
  | [] => []
  | call :: rest => (builder, call) :: (builder.handle call).2.met rest

@[simp] theorem map_met (builder : Builder σ) (calls : List Call) :
    (builder.met calls).map Prod.snd = calls := by
  induction calls generalizing builder with
  | nil => rfl
  | cons call rest ih => rw [met, List.map_cons, ih]

/-- Whether every call in a body was accepted in the scope that is as far out as the body. -/
def Placed (builder : Builder σ) (bodies : List (List (Builder σ × Call))) : Prop :=
  ∀ (depth : Nat) (body : List (Builder σ × Call)), bodies[depth]? = some body →
    ∀ item ∈ body, (item.1.handle item.2).1.isAccepted = true ∧
      item.1.scopes.head? = builder.scopes[depth]?

variable {builder : Builder σ} {call : Call} {bodies : List (List (Builder σ × Call))}

theorem Placed.handle (placed : builder.Placed bodies)
    (accepted : (builder.handle call).1.isAccepted = true)
    (inner : call.Inner) :
    (builder.handle call).2.Placed (Call.place Prod.snd bodies (builder, call)) := by
  unfold Call.place
  -- Scopes and bodies move together: both gain an innermost one, both lose it, or neither changes.
  by_cases opens : call.opening?.isSome = true
  · rw [if_pos opens]
    obtain ⟨⟨kind, name⟩, opening⟩ := Option.isSome_iff_exists.mp opens
    obtain ⟨writes, told⟩ := Call.opens_of_opening opening
    obtain ⟨_, scope, _, stands⟩ := standing_of_opened told accepted
    have scopes : (builder.handle call).2.scopes = scope :: builder.scopes :=
      congrArg (fun standing => standing.2.1) stands
    intro depth body found item listed
    cases depth with
    | zero =>
        cases found
        cases listed
    | succ depth =>
        rw [scopes]
        exact placed depth body found item listed
  · rw [if_neg opens]
    by_cases closes : call.closes?.isSome = true
    · rw [if_pos closes]
      obtain ⟨kind, told⟩ := Option.isSome_iff_exists.mp closes
      have scopes : (builder.handle call).2.scopes = builder.scopes.tail := by
        obtain ⟨running, scope, outer, open_scope, same, deeper⟩ := closed_of_accepted told accepted
        rw [handle_closing told, closeScope_inside running open_scope same deeper, open_scope]
        rfl
      intro depth body found item listed
      rw [scopes, List.getElem?_tail]
      rw [List.getElem?_tail] at found
      exact placed (depth + 1) body found item listed
    · rw [if_neg closes]
      have unmarked : call.mark? = none := (inner.place.resolve_left opens).resolve_left closes
      have scopes : (builder.handle call).2.scopes = builder.scopes :=
        congrArg (fun standing => standing.2.1) (standing_of_unmarked unmarked)
      unfold Placed
      rw [scopes]
      cases bodies with
      | nil => exact nofun
      | cons innermost outer =>
          intro depth body found item listed
          cases depth with
          | succ depth => exact placed (depth + 1) body found item listed
          | zero =>
              cases found
              rcases List.mem_append.mp listed with old | new
              · exact placed 0 innermost rfl item old
              · rw [List.mem_singleton.mp new]
                exact ⟨accepted, List.head?_eq_getElem?⟩

theorem Placed.met {calls : List Call} (placed : builder.Placed bodies)
    (passed : (Handler.handleAll builder calls).1 = none)
    (inner : ∀ call ∈ calls, call.Inner) :
    (Handler.after builder calls).Placed
      ((builder.met calls).foldl (Call.place Prod.snd) bodies) := by
  induction calls generalizing builder bodies with
  | nil => exact placed
  | cons call rest ih =>
      obtain ⟨this, later⟩ := List.forall_mem_cons.mp inner
      have accepted := Handler.accepted_of_handleAll passed
      have goes := (Handler.handleAll_of_accepted rest accepted).1
      exact ih (placed.handle accepted this) (goes.symm.trans passed) later

theorem placed_start (builder : Builder σ) : builder.Placed [[]] := by
  intro depth body found item listed
  cases depth with
  | zero =>
      cases found
      cases listed
  | succ depth => cases found

theorem overloadName_injective {left right : Nat}
    (same : Declaration.overloadName (.int left) = Declaration.overloadName (.int right)) :
    left = right := by
  have digits : (Text.decimal left).toList = (Text.decimal right).toList := by
    have texts := congrArg String.toList same
    simpa [Declaration.overloadName, Value.plain, Value.shown] using texts
  simp only [Text.decimal, String.toList_ofList] at digits
  have value := congrArg Text.digitsValue digits
  exact (Json.digitsValue_naturalText left).symm.trans
    (value.trans (Json.digitsValue_naturalText right))

/-- An executable that is accepted with a number has a signature. -/
theorem signature_of_accepted (accepted : (builder.handle call).1.isAccepted = true)
    (plain : call.Plain) (executable : call.signing?.isSome = true) :
    ∃ id, builder.signature? call = some id := by
  obtain ⟨signing, given⟩ := Option.isSome_iff_exists.mp executable
  obtain ⟨kind, _, _, _, told⟩ := Call.of_signing given
  obtain ⟨scope, name, id, _, innermost, named, child, _⟩ := declares_of_accepted accepted told
  have declared : builder.member? call = some id := by
    rw [member?_eq innermost named, child]
    rfl
  obtain ⟨number, overload, _⟩ := plain.declaring named given
  obtain ⟨signature, made, _⟩ := id.child_plain .signature (Declaration.overloadName_plain number)
  refine ⟨signature, ?_⟩
  rw [signature?_eq declared given, overload, made]
  rfl

omit [TripleStore σ] in
theorem child_of_member {member : Identifier} (declared : builder.member? call = some member) :
    ∃ scope kind name, builder.scopes.head? = some scope ∧ call.declaring? = some (kind, name) ∧
      scope.identifier.child name kind.key = .ok member := by
  rw [member?] at declared
  obtain ⟨scope, innermost, declared⟩ := Option.bind_eq_some_iff.mp declared
  obtain ⟨⟨kind, name⟩, told, made⟩ := Option.bind_eq_some_iff.mp declared
  exact ⟨scope, kind, name, innermost, told, Steps.ok_of_toOption made⟩

omit [TripleStore σ] in
/-- Executables with one signature in one scope have the same name and number. -/
theorem executable_of_signature {later : Builder σ} {other : Call} {id : Identifier}
    (level : builder.scopes.head? = later.scopes.head?) (plain : call.Plain)
    (also_plain : other.Plain) (signed : builder.signature? call = some id)
    (again : later.signature? other = some id) :
    call.executable? = other.executable? := by
  obtain ⟨member, signing, declared, given, child⟩ := signing_of_signature signed
  obtain ⟨member', signing', declared', given', child'⟩ := signing_of_signature again
  obtain ⟨last, rfl, named, _⟩ := Identifier.push_of_child child
  obtain ⟨last', same, named', _⟩ := Identifier.push_of_child child'
  obtain ⟨rfl, rfl⟩ := Identifier.push_injective same
  obtain ⟨scope, kind, name, innermost, told, made⟩ := child_of_member declared
  obtain ⟨scope', kind', name', innermost', told', made'⟩ := child_of_member declared'
  obtain rfl : scope = scope' := Option.some.inj (innermost.symm.trans (level.trans innermost'))
  obtain ⟨fragment, rfl, rfl, qualified⟩ := Identifier.push_of_child made
  obtain ⟨fragment', same, rfl, qualified'⟩ := Identifier.push_of_child made'
  obtain ⟨_, rfl⟩ := Identifier.push_injective same
  obtain rfl : kind = kind' := EntityKind.key_injective (qualified.symm.trans qualified')
  obtain ⟨number, overload, executable⟩ := plain.declaring told given
  obtain ⟨number', overload', executable'⟩ := also_plain.declaring told' given'
  rw [overload] at named
  rw [overload'] at named'
  obtain rfl := overloadName_injective (named.symm.trans named')
  exact executable.trans executable'.symm

/-- Executables that are accepted in one body and numbered apart have signatures of their own. -/
theorem signatures_apart {calls : List Call} (passed : (Handler.handleAll builder calls).1 = none)
    (inner : ∀ call ∈ calls, call.Inner)
    (numbered : ∀ body ∈ Call.bodies id calls, Call.Numbered body) :
    ∀ body ∈ Call.bodies Prod.snd (builder.met calls),
      (∀ item ∈ body, item.2.signing?.isSome = true →
        ∃ id, item.1.signature? item.2 = some id) ∧
      (body.filterMap fun item => item.1.signature? item.2).Nodup := by
  intro body member
  have told : ∀ item ∈ body, item.2 ∈ calls := by
    intro item listed
    rw [← map_met builder calls]
    exact List.mem_map_of_mem (Call.mem_of_mem_bodies member listed)
  have counted : Call.Numbered (body.map Prod.snd) := by
    refine numbered _ ?_
    rw [← map_met builder calls, Call.bodies_map]
    exact List.mem_map_of_mem member
  have plain : ∀ item ∈ body, item.2.Plain := by
    intro item listed
    refine counted.plain (fun call among => ?_) item.2 (List.mem_map_of_mem listed)
    obtain ⟨other, held, rfl⟩ := List.mem_map.mp among
    exact inner other.2 (told other held)
  obtain ⟨depth, found⟩ := List.mem_iff_getElem?.mp member
  have placed := (placed_start builder).met passed inner depth body found
  constructor
  · intro item listed executable
    exact signature_of_accepted (placed item listed).1 (plain item listed) executable
  · have apart := counted.apart
    rw [List.filterMap_map] at apart
    simp only [List.Nodup, List.pairwise_filterMap] at apart ⊢
    refine apart.imp_of_mem fun {left right} one other apart id signed later again same => ?_
    subst same
    have level : left.1.scopes.head? = right.1.scopes.head? :=
      (placed left one).2.trans (placed right other).2.symm
    have equal := executable_of_signature level (plain left one) (plain right other) signed again
    obtain ⟨_, signing, declared, given, _⟩ := signing_of_signature signed
    obtain ⟨_, kind, name, _, told, _⟩ := child_of_member declared
    obtain ⟨number, _, executable⟩ := (plain left one).declaring told given
    exact apart _ executable _ (equal.symm.trans executable) rfl

end Builder

end CodeFacts
