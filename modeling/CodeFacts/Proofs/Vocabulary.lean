import CodeFacts.Vocabulary
import Mathlib.Data.List.Nodup

/-!
The words of the model keep kinds and predicates apart.
-/

namespace CodeFacts

theorem resource_injective {left right : String} (same : resource left = resource right) :
    left = right := by
  have texts := congrArg String.toList same
  simp only [resource, String.toList_append] at texts
  exact String.toList_injective (List.append_cancel_left texts)

theorem resource_ne_empty (name : String) : resource name ≠ "" := by
  intro empty
  have none := congrArg String.toList empty
  simp [resource, modelSpace] at none

namespace EntityKind

theorem uri_injective {left right : EntityKind} (same : left.uri = right.uri) : left = right :=
  key_injective (resource_injective same)

theorem uri_ne_empty (kind : EntityKind) : kind.uri ≠ "" := resource_ne_empty kind.key

end EntityKind

namespace Predicate

def all : List Predicate :=
  .subClassOf :: EntityKind.all.map .contains ++
    [.containsElement, .attributeType, .attributeValue, .parameterType, .parameterIndex,
      .returnType, .extendsClass, .implementsInterface, .extendsInterface, .throwsException,
      .hasVisibility, .hasModifiers, .containsLibrary, .libraryLocation, .libraryDate]

theorem mem_all (predicate : Predicate) : predicate ∈ all := by
  cases predicate with
  | contains kind => cases kind <;> decide
  | _ => decide

theorem localName_injective {left right : Predicate} (same : left.localName = right.localName) :
    left = right := by
  have distinct : (all.map localName).Nodup := by decide +kernel
  exact List.inj_on_of_nodup_map distinct (mem_all left) (mem_all right) same

theorem uri_eq_resource {predicate : Predicate} (other : predicate ≠ .subClassOf) :
    predicate.uri = resource predicate.localName := by
  cases predicate <;> first | rfl | exact absurd rfl other

/-- The one predicate of another vocabulary is none of this one's. -/
theorem subClassOf_uri_ne (name : String) : subClassOf.uri ≠ resource name := by
  intro same
  have prefixes := congrArg (fun text => text.toList.take 12) same
  have schema : subClassOf.uri.toList.take 12 = "http://www.w".toList := by decide +kernel
  have model : (resource name).toList.take 12 = "http://www.r".toList := by
    have start : modelSpace.toList.take 12 = "http://www.r".toList := by decide +kernel
    have long : 12 ≤ modelSpace.toList.length := by decide +kernel
    rw [resource, String.toList_append, List.take_append_of_le_length long, start]
  rw [schema, model] at prefixes
  revert prefixes
  decide +kernel

theorem uri_injective {left right : Predicate} (same : left.uri = right.uri) : left = right := by
  by_cases first : left = .subClassOf
  · by_cases second : right = .subClassOf
    · rw [first, second]
    · rw [first, uri_eq_resource second] at same
      exact absurd same (subClassOf_uri_ne _)
  · by_cases second : right = .subClassOf
    · rw [second, uri_eq_resource first] at same
      exact absurd same.symm (subClassOf_uri_ne _)
    · rw [uri_eq_resource first, uri_eq_resource second] at same
      exact localName_injective (resource_injective same)

theorem uri_inj {left right : Predicate} : left.uri = right.uri ↔ left = right :=
  ⟨uri_injective, congrArg uri⟩

theorem uri_ne_empty (predicate : Predicate) : predicate.uri ≠ "" := by
  by_cases other : predicate = .subClassOf
  · rw [other]
    decide +kernel
  · rw [uri_eq_resource other]
    exact resource_ne_empty _

end Predicate

end CodeFacts
