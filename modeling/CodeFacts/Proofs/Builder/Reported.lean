import CodeFacts.Proofs.Builder.Outcome
import CodeFacts.Proofs.Lookup

/-!
What a call reports. Additions are made one after the other, and a name is reported where it was not
resolved in the model that the additions before it left.
-/

namespace CodeFacts

namespace Model

/-- Whether a model has all that another has, and knows the same names from outside. -/
structure Leads (before after : Model PlainStore) : Prop where
  kept : ∀ triple ∈ before.store.triples, triple ∈ after.store.triples
  symbols : after.symbols = before.symbols

theorem Leads.refl (model : Model PlainStore) : model.Leads model :=
  ⟨fun _ member => member, rfl⟩

theorem Leads.trans {before between after : Model PlainStore} (first : before.Leads between)
    (second : between.Leads after) : before.Leads after :=
  ⟨fun triple member => second.kept triple (first.kept triple member),
    second.symbols.trans first.symbols⟩

end Model

namespace Draft

variable {draft next : Draft PlainStore}

theorem write_leads {first : Write} (written : draft.write first = .ok next) :
    draft.model.Leads next.model := by
  obtain ⟨unknown, _, rfl⟩ := write_ok written
  exact ⟨fun triple member => (PlainStore.mem_insertAll _ _ triple).mpr (.inl member), rfl⟩

theorem resolve_unknown {type : TypeRef} {text name : String}
    (resolved : draft.resolve type = .ok (text, next)) (member : name ∈ next.unknown) :
    name ∈ draft.unknown ∨ draft.model.isResolved (.named .classType name none) = .ok false := by
  simp only [resolve, Steps.bind_ok_iff, Steps.pure_ok_iff] at resolved
  obtain ⟨⟨_, unknown⟩, found, same⟩ := resolved
  cases same
  rcases List.mem_append.mp member with before | now
  · exact .inl before
  · obtain rfl : unknown = some name := Option.mem_toList.mp now
    exact .inr (Model.resolve_unknown found)

theorem Adds.unknown {triples : List Triple} (added : draft.Adds next triples) :
    next.unknown = draft.unknown := by
  obtain ⟨_, rfl⟩ := added
  rfl

theorem write_unknown {first : Write} {name : String} (written : draft.write first = .ok next)
    (member : name ∈ next.unknown) :
    name ∈ draft.unknown ∨ draft.model.isResolved (.named .classType name none) = .ok false := by
  cases first with
  | resource => exact .inl ((addResource_ok written).unknown ▸ member)
  | literal => exact .inl ((addLiteral_ok written).unknown ▸ member)
  | elements => exact .inl ((addElements_ok written).unknown ▸ member)
  | resourceType =>
      simp only [write, Steps.bind_ok_iff] at written
      obtain ⟨_, resolved, added⟩ := written
      exact resolve_unknown resolved ((addResource_ok added).unknown ▸ member)
  | literalType =>
      simp only [write, Steps.bind_ok_iff] at written
      obtain ⟨_, resolved, added⟩ := written
      exact resolve_unknown resolved ((addLiteral_ok added).unknown ▸ member)
  | refuse => cases written

/-- A name that additions report was not resolved in a model they came through. -/
theorem writeAll_unknown (writes : List Write) {draft last : Draft PlainStore}
    (written : draft.writeAll writes = (last, none)) :
    draft.model.Leads last.model ∧ ∀ name ∈ last.unknown, name ∈ draft.unknown ∨
      ∃ model : Model PlainStore, draft.model.Leads model ∧ model.Leads last.model ∧
        model.isResolved (.named .classType name none) = .ok false := by
  induction writes generalizing draft with
  | nil =>
      obtain rfl : draft = last := congrArg Prod.fst written
      exact ⟨.refl _, fun _ member => .inl member⟩
  | cons first rest ih =>
      unfold writeAll at written
      cases step : draft.write first with
      | error fault =>
          rw [step] at written
          cases written
      | ok next =>
          rw [step] at written
          obtain ⟨leads, reported⟩ := ih written
          have whole := (write_leads step).trans leads
          refine ⟨whole, fun name member => ?_⟩
          rcases reported name member with earlier | ⟨model, before, after, unresolved⟩
          · rcases write_unknown step earlier with old | unresolved
            · exact .inl old
            · exact .inr ⟨draft.model, .refl _, whole, unresolved⟩
          · exact .inr ⟨model, (write_leads step).trans before, after, unresolved⟩

end Draft

theorem Model.writeAll_unknown {model next : Model PlainStore} {writes : List Write}
    {unknown : List String} (written : model.writeAll writes = (next, .ok unknown)) :
    model.Leads next ∧ ∀ name ∈ unknown, ∃ between : Model PlainStore,
      model.Leads between ∧ between.Leads next ∧
        between.isResolved (.named .classType name none) = .ok false := by
  obtain ⟨last, drafted, rfl, rfl⟩ := writeAll_drafted written
  obtain ⟨leads, reported⟩ := Draft.writeAll_unknown writes drafted
  exact ⟨leads, fun name member => (reported name member).resolve_left List.not_mem_nil⟩

namespace Builder

/-- A call leaves what was there, and a name it reports was not resolved at some time between. -/
theorem reported_handle (builder : Builder PlainStore) (call : Call) :
    builder.model.Leads (builder.handle call).2.model ∧
      ∀ name, Notice.unresolvedType name ∈ (builder.handle call).1.notices →
        ∃ between : Model PlainStore, builder.model.Leads between ∧
          between.Leads (builder.handle call).2.model ∧
          between.isResolved (.named .classType name none) = .ok false := by
  have outcome := outcome_handle builder call
  have leaves := leaves_handle builder call
  generalize builder.handle call = result at outcome leaves
  have told {unknown : List String} {notices : List Notice}
      (silent : ∀ name, Notice.unresolvedType name ∉ notices) {name : String}
      (reported : Notice.unresolvedType name ∈ notices ++ unknown.map .unresolvedType) :
      name ∈ unknown := by
    have listed := (List.mem_append.mp reported).resolve_left (silent name)
    simpa using listed
  cases outcome with
  | refuses fault =>
      obtain ⟨same, silent⟩ := leaves fault rfl
      rw [same]
      exact ⟨.refl _, fun name reported => absurd reported (silent name)⟩
  | begins | beginsUnit | endsUnit | closes => exact ⟨.refl _, nofun⟩
  | notes _ _ _ silent => exact ⟨.refl _, fun name reported => absurd reported (silent name)⟩
  | ends model unknown _ _ _ _ written =>
      obtain ⟨leads, unresolved⟩ := Model.writeAll_unknown written
      exact ⟨leads, fun name reported =>
        unresolved name (told (fun _ => List.not_mem_nil) reported)⟩
  | opens _ _ _ _ _ _ _ _ _ _ _ _ _ written _ _ _ silent =>
      obtain ⟨leads, unresolved⟩ := Model.writeAll_unknown written
      exact ⟨leads, fun name reported => unresolved name (told silent reported)⟩
  | declares _ _ _ _ _ _ _ _ _ _ _ _ _ written _ silent =>
      obtain ⟨leads, unresolved⟩ := Model.writeAll_unknown written
      exact ⟨leads, fun name reported => unresolved name (told silent reported)⟩

theorem leads_after (calls : List Call) (builder : Builder PlainStore) :
    builder.model.Leads (Handler.after builder calls).model := by
  induction calls generalizing builder with
  | nil => exact .refl _
  | cons call rest ih => exact (reported_handle builder call).1.trans (ih _)

end Builder

end CodeFacts
