import CodeFacts.Proofs.Builder.Standing
import CodeFacts.Proofs.Source.Blocks

/-!
A builder driven by the calls of a unit. As every type is a block under its dotted name, the scopes
of the builder follow the declarations around the one that is told: no name misses its place, no
scope is closed out of turn, and what stood open before the unit stands open after it.
-/

namespace CodeFacts.Source

/-! ### Units -/

/-- Whether no name that a node or one below it holds has a dot. -/
def Node.Undotted (node : Node) : Prop :=
  ∀ name ∈ node.preorder, name.head.field = some "name" → '.' ∉ name.text.toList

namespace Node

instance (node : Node) : Decidable node.Undotted :=
  inferInstanceAs (Decidable (∀ name ∈ node.preorder,
    name.head.field = some "name" → '.' ∉ name.text.toList))

theorem mem_preorder_self (node : Node) : node ∈ node.preorder := by
  obtain ⟨head, children⟩ := node
  exact List.mem_cons_self

theorem mem_preorderAll {child below : Node} {children : List Node} (member : child ∈ children)
    (inside : below ∈ child.preorder) : below ∈ preorderAll children := by
  induction children with
  | nil => cases member
  | cons first rest ih =>
      rw [preorderAll]
      rcases List.mem_cons.mp member with rfl | later
      · exact List.mem_append_left _ inside
      · exact List.mem_append_right _ (ih later)

theorem Undotted.child {node child : Node} (undotted : node.Undotted)
    (member : child ∈ node.children) : child.Undotted := by
  obtain ⟨head, children⟩ := node
  exact fun name inside =>
    undotted name (List.mem_cons_of_mem _ (mem_preorderAll member inside))

theorem Undotted.member {node : Node} {member : Option Node × Node} (undotted : node.Undotted)
    (listed : member ∈ node.members) : member.2.Undotted := by
  obtain ⟨body, inside, direct | ⟨part, one, direct⟩⟩ := mem_members listed
  · exact (undotted.child inside).child direct
  · exact ((undotted.child inside).child one).child direct

theorem Undotted.name {node name : Node} (undotted : node.Undotted)
    (named : node.field? "name" = some name) : '.' ∉ name.text.toList := by
  have member := mem_children_of_field? named
  have holds := List.find?_some named
  exact undotted.child member name name.mem_preorder_self (beq_iff_eq.mp holds)

end Node

variable {σ : Type} [TripleStore σ] {owner : String}

theorem documented_notes (previous : Option Node) {told : DocEntry → Call}
    (notes : ∀ entry, (told entry).isNote = true) :
    ∀ call ∈ documented previous told, call.isNote = true := by
  unfold documented
  cases Node.documentation previous with
  | none => exact nofun
  | some entry =>
      rw [List.forall_mem_cons, List.forall_mem_singleton]
      exact ⟨rfl, notes entry⟩

namespace Member.Told

variable {previous : Option Node} {node : Node} {calls : List Call}

theorem unmarked (told : Member.Told owner previous node calls) :
    ∀ call ∈ calls, call.mark? = none := by
  cases told with
  | field declaration typed each =>
      generalize (node.fieldAll "declarator").filterMap (·.field? "name") = names at each
      induction each with
      | nil => exact nofun
      | cons told _ ih =>
          obtain ⟨visibility, type, modifiers, value, rfl⟩ := told
          exact List.forall_mem_cons.mpr ⟨rfl, ih⟩
  | method =>
      refine List.forall_mem_cons.mpr ⟨rfl, fun call listed => ?_⟩
      exact Call.mark_of_isNote (documented_notes previous (fun _ => rfl) call listed)
  | constructor => exact List.forall_mem_singleton.mpr rfl

theorem undotted (told : Member.Told owner previous node calls) (undotted : node.Undotted) :
    ∀ name, .text name ∈ calls.filterMap Call.placedName? → '.' ∉ name.toList := by
  intro name listed
  rw [told.names] at listed
  obtain ⟨named, member, ⟨rfl⟩⟩ := List.mem_map.mp listed
  unfold Node.memberNames at member
  split at member
  · cases member
  split at member
  case h_1 | h_2 =>
    obtain ⟨declarator, inside, found⟩ := List.mem_filterMap.mp member
    exact (undotted.child (List.mem_filter.mp inside).1).name found
  case h_3 => exact undotted.name (Option.mem_toList.mp member)
  case h_4 => cases member

end Member.Told

/-- The blocks of an owner pass where the owner is the innermost scope. The induction is over the
blocks; inside a block the builder stands in the type the block is of. -/
theorem Blocks.passes {nodes : List (Option Node × Node)} {calls : List Call}
    (blocks : Blocks owner nodes calls) (undotted : ∀ node ∈ nodes, node.2.Undotted)
    (builder : Builder σ) (placed : builder.At owner) (deep : builder.Deep) :
    builder.Passes calls fun next => next.standing = builder.standing := by
  induction blocks generalizing builder with
  | nil => exact Builder.passes_nil rfl
  | member told after ih =>
      obtain ⟨this, others⟩ := List.forall_mem_cons.mp undotted
      refine (Builder.passes_all_simple told.unmarked (told.undotted this)).append
        fun next same => ?_
      rw [← same]
      exact ih others next (placed.same same) (deep.same same)
  | @block owner previous node name rest opening inner later sort declaration named opens inside
      after inner_ih later_ih =>
      obtain ⟨this, others⟩ := List.forall_mem_cons.mp undotted
      have type : sort.kind ≠ .package := by cases sort <;> exact nofun
      have closes : (closeCall sort).closes? = some sort.kind := by cases sort <;> rfl
      have names : ∀ member ∈ node.members, member.2.Undotted := fun _ => this.member
      let full := Dotted.within owner name.text
      let notes := documented previous (.classDoc · (.text full))
      have opened : builder.Passes [opening] fun next =>
          full ≠ "" ∧ builder.Entered sort.kind full next :=
        Builder.passes_opening placed (this.name named) type opens
      have noted : builder.Passes ([opening] ++ notes) fun next =>
          full ≠ "" ∧ builder.Entered sort.kind full next :=
        opened.append fun next entered =>
          (Builder.passes_notes (documented_notes previous fun _ => rfl)).mono
            fun _ same => ⟨entered.1, entered.2.same same⟩
      have filled : builder.Passes ([opening] ++ notes ++ inner)
          (builder.Entered sort.kind full) :=
        noted.append fun next entered =>
          (inner_ih names next (entered.2.at entered.1) (entered.2.deep deep)).mono
            fun _ same => entered.2.same same
      have closed := filled.append fun next entered =>
        Builder.passes_closing deep entered closes
      have all := closed.append fun next same =>
        (later_ih others next (placed.same same) (deep.same same)).mono
          fun _ again => again.trans same
      simpa [full, notes] using all
  | nothing untold after ih =>
      exact ih (List.forall_mem_cons.mp undotted).2 builder placed deep

/-- Blocks that pass leave what stood open before, whatever their names. -/
theorem Blocks.restores {nodes : List (Option Node × Node)} {calls : List Call}
    (blocks : Blocks owner nodes calls) {builder : Builder σ}
    (passed : (Handler.handleAll builder calls).1 = none) :
    (Handler.handleAll builder calls).2.2.standing = builder.standing := by
  induction blocks generalizing builder with
  | nil => rfl
  | member told after ih =>
      obtain ⟨first, later, reached⟩ := Handler.handleAll_append_of_passed passed
      rw [reached, ih later, Builder.standing_of_handleAll told.unmarked first]
  | @block owner previous node name rest opening inner later sort _ named opens _ _ within ih =>
      have closes : (closeCall sort).closes? = some sort.kind := by cases sort <;> rfl
      let notes := documented previous (.classDoc · (.text (Dotted.within owner name.text)))
      have row : opening :: notes ++ inner ++ closeCall sort :: later =
          opening :: (notes ++ inner) ++ [closeCall sort] ++ later := by simp
      rw [row] at passed ⊢
      obtain ⟨first, others, reached⟩ := Handler.handleAll_append_of_passed passed
      rw [reached, ih others]
      refine Builder.standing_of_container opens closes (fun builder passed => ?_) first
      obtain ⟨noted, filled, reached⟩ := Handler.handleAll_append_of_passed passed
      rw [reached, within filled]
      refine Builder.standing_of_handleAll (fun call listed => Call.mark_of_isNote ?_) noted
      exact documented_notes previous (fun _ => rfl) call listed
  | nothing untold after ih => exact ih passed

end CodeFacts.Source
