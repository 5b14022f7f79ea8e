import CodeFacts.Event.Basic
import CodeFacts.Proofs.Builder.Settled

/-!
A call whose fields are of their kinds is recorded as an event, and a builder handles the call of
that event as it handles the call itself.
-/

namespace CodeFacts

def Value.holdsTexts (value : Value) : Bool := (value.items?).any (·.all Value.isText)

def Value.isWhole : Value → Bool
  | .int _ => true
  | _ => false

/-- Whether a value is a text or is missing. -/
def Value.isTextOrMissing : Value → Bool
  | .null => true
  | value => value.isText

def Modifier.named (modifiers : List Nat) : Bool :=
  modifiers.all fun bit => decide (bit ∈ Modifier.all.map Modifier.bit)

/-- Whether a value is the word of a visibility. -/
def Visibility.isWord (visibility : Value) : Bool := (Visibility.ofValue? visibility).isSome

/-- Whether a value is a text without the marks that no segment of a package may hold. -/
def Value.isPackageName : Value → Bool
  | .text name => !name.toList.contains ':' && !name.toList.contains '#'
  | _ => false

/-- Whether the fields of a call are of their kinds: names and other texts are texts, visibilities
and modifiers are those there are, types can be stored, and packages have segments without marks. -/
def Call.recordable : Call → Bool
  | .startParsing library location => library.isText && location.isText
  | .startUnit name => name.isText
  | .startPackage name => name.isPackageName
  | .startClass visibility name modifiers extended implemented =>
      Visibility.isWord visibility && name.isText && Modifier.named modifiers &&
        extended.all TypeRef.storable && implemented.all TypeRef.storable
  | .startInterface name extended visibility modifiers =>
      name.isText && extended.all TypeRef.storable && Visibility.isWord visibility &&
        Modifier.named modifiers
  | .startEnumeration visibility name elements modifiers implemented =>
      Visibility.isWord visibility && name.isText && elements.holdsTexts &&
        Modifier.named modifiers && implemented.all TypeRef.storable
  | .attribute visibility name type modifiers value =>
      Visibility.isWord visibility && name.isText && type.storable && Modifier.named modifiers &&
        value.isTextOrMissing
  | .constructor visibility overload parameters types modifiers exceptions =>
      Visibility.isWord visibility && overload.isWhole && parameters.holdsTexts &&
        types.all TypeRef.storable && Modifier.named modifiers && exceptions.all TypeRef.storable
  | .method visibility name parameters types result modifiers exceptions overload =>
      Visibility.isWord visibility && name.isText && parameters.holdsTexts &&
        types.all TypeRef.storable && result.any TypeRef.storable && Modifier.named modifiers &&
        exceptions.all TypeRef.storable && overload.isWhole
  | .parseError location description => location.isText && description.isText
  | .classDoc _ path => path.isText
  | .methodDoc _ path signature => path.isText && signature.holdsTexts
  | _ => true

/-- The items of a value as a list. -/
def Value.listed (value : Value) : Value := .list (value.items?.getD [])

/-- The bits that the mask of some modifiers is read back as. -/
def Modifier.settled (modifiers : List Nat) : List Nat := Event.bitsOf (Event.maskOf modifiers)

/-- The call that the event of a call stands for. -/
def Call.settled : Call → Call
  | .startClass visibility name modifiers extended implemented =>
      .startClass visibility name (Modifier.settled modifiers) (extended.map TypeRef.settled)
        (implemented.map TypeRef.settled)
  | .startInterface name extended visibility modifiers =>
      .startInterface name (extended.map TypeRef.settled) visibility (Modifier.settled modifiers)
  | .startEnumeration visibility name elements modifiers implemented =>
      .startEnumeration visibility name elements.listed (Modifier.settled modifiers)
        (implemented.map TypeRef.settled)
  | .attribute visibility name type modifiers value =>
      .attribute visibility name type.settled (Modifier.settled modifiers) value
  | .constructor visibility overload parameters types modifiers exceptions =>
      .constructor visibility overload parameters.listed (types.map TypeRef.settled)
        (Modifier.settled modifiers) (exceptions.map TypeRef.settled)
  | .method visibility name parameters types result modifiers exceptions overload =>
      .method visibility name parameters.listed (types.map TypeRef.settled)
        (result.map TypeRef.settled) (Modifier.settled modifiers)
        (exceptions.map TypeRef.settled) overload
  | .methodDoc entry path signature => .methodDoc entry path signature.listed
  | call => call

/-! What the fields come back as. -/

theorem Value.eq_text {value : Value} (text : value.isText = true) :
    ∃ name, value = .text name := by
  cases value <;> first | exact ⟨_, rfl⟩ | cases text

theorem Value.eq_int {value : Value} (whole : value.isWhole = true) :
    ∃ number, value = .int number := by
  cases value <;> first | exact ⟨_, rfl⟩ | cases whole

theorem Value.eq_ofText? {value : Value} (given : value.isTextOrMissing = true) :
    ∃ text, value = Value.ofText? text := by
  cases value <;> first | exact ⟨none, rfl⟩ | exact ⟨some _, rfl⟩ | cases given

theorem Visibility.eq_word {value : Value} (word : Visibility.isWord value = true) :
    ∃ visibility : Visibility, value = .text visibility.word := by
  obtain ⟨visibility, found⟩ := Option.isSome_iff_exists.mp word
  unfold ofValue? at found
  split at found
  · rename_i given
    have same := List.find?_some found
    exact ⟨visibility, by rw [beq_iff_eq.mp same]⟩
  · cases found

theorem Value.eq_texts {value : Value} (texts : value.holdsTexts = true) :
    ∃ names : List String, value.items? = some (names.map .text) := by
  unfold holdsTexts at texts
  cases listed : value.items? with
  | none => rw [listed] at texts; cases texts
  | some items =>
      rw [listed] at texts
      have all : ∀ item ∈ items, item.isText = true := List.all_eq_true.mp texts
      clear listed texts
      induction items with
      | nil => exact ⟨[], rfl⟩
      | cons first rest ih =>
          obtain ⟨name, rfl⟩ := eq_text (all first List.mem_cons_self)
          obtain ⟨names, same⟩ := ih fun item later => all item (List.mem_cons_of_mem _ later)
          exact ⟨name :: names, by rw [Option.some.inj same]; rfl⟩

theorem Checked.texts_list (path : List String) (names : List String) :
    Checked.texts path (.list (names.map .text)) = .good names := by
  have from_start (start : Nat) :
      Checked.items Checked.text path start (names.map .text) = .good names := by
    induction names generalizing start with
    | nil => rfl
    | cons name rest ih =>
        rw [List.map_cons, Checked.items, ih]
        rfl
  exact from_start 0

theorem Modifier.folded_lt {modifiers : List Nat} (named : Modifier.named modifiers = true)
    {found : Nat} (small : found < 128) : modifiers.foldl (· ||| ·) found < 128 := by
  have below : ∀ found < 128, ∀ bit ∈ Modifier.all.map Modifier.bit, found ||| bit < 128 := by
    decide +kernel
  induction modifiers generalizing found with
  | nil => exact small
  | cons bit rest ih =>
      simp only [Modifier.named, List.all_cons, Bool.and_eq_true, decide_eq_true_eq] at named
      exact ih named.2 (below found small bit named.1)

theorem Modifier.mask_settled {modifiers : List Nat} (named : Modifier.named modifiers = true) :
    mask (Modifier.settled modifiers) = mask modifiers := by
  have kept : ∀ found : Nat, found < 128 → mask (Event.bitsOf (Int.ofNat found)) = found := by
    decide +kernel
  exact kept (mask modifiers) (Modifier.folded_lt named (by decide))

theorem TypeRef.read_all {types : List TypeRef} (storable : types.all TypeRef.storable = true) :
    ∃ texts, Event.typeTexts types = .ok texts ∧
      Event.readTypes texts = .ok (types.map TypeRef.settled) := by
  induction types with
  | nil => exact ⟨[], rfl, rfl⟩
  | cons type rest ih =>
      rw [List.all_cons, Bool.and_eq_true] at storable
      obtain ⟨text, written, _, read⟩ := TypeRef.read_stored storable.1
      obtain ⟨texts, rest_written, rest_read⟩ := ih storable.2
      unfold Event.typeTexts at rest_written ⊢
      unfold Event.readTypes at rest_read ⊢
      refine ⟨text :: texts, ?_, ?_⟩
      · rw [List.mapM_cons, written, rest_written]
        rfl
      · rw [List.mapM_cons, read, rest_read]
        rfl

theorem TypeRef.read_optional {type : Option TypeRef}
    (storable : type.all TypeRef.storable = true) :
    ∃ text, type.mapM TypeRef.text = .ok text ∧
      (text.filter (· != "")).mapM TypeRef.read = .ok (type.map TypeRef.settled) := by
  cases type with
  | none => exact ⟨none, rfl, rfl⟩
  | some type =>
      obtain ⟨text, written, filled, read⟩ := TypeRef.read_stored storable
      refine ⟨some text, ?_, ?_⟩
      · rw [Option.mapM_some, written]
        rfl
      · rw [Option.filter_some, if_pos (bne_iff_ne.mpr filled), Option.mapM_some, read]
        rfl

theorem Value.listed_eq {value : Value} {names : List String}
    (listed : value.items? = some (names.map .text)) : value.listed = Value.ofTexts names := by
  rw [Value.listed, listed]
  rfl

theorem Value.items?_listed {value : Value} (texts : value.holdsTexts = true) :
    value.listed.items? = value.items? := by
  obtain ⟨names, same⟩ := Value.eq_texts texts
  rw [Value.listed, same]
  rfl

namespace Event

theorem readVisibility_word (path : List String) (visibility : Visibility) :
    readVisibility path (.text visibility.word) = .good visibility := by
  rw [readVisibility, Visibility.ofValue?, Visibility.ofWord?_word]

theorem itemsOf_eq {value : Value} {names : List String}
    (listed : value.items? = some (names.map .text)) :
    itemsOf value = .ok (names.map .text) := by
  rw [itemsOf, listed]

/-- A call whose fields are of their kinds is recorded, and its event stands for the call it
settles to. -/
theorem toCall_ofCall {call : Call} (recordable : call.recordable = true) :
    ∃ event, ofCall call = .ok event ∧ event.toCall = .ok call.settled := by
  cases call with
  | startParsing library location =>
      simp only [Call.recordable, Bool.and_eq_true] at recordable
      obtain ⟨library, rfl⟩ := Value.eq_text recordable.1
      obtain ⟨location, rfl⟩ := Value.eq_text recordable.2
      exact ⟨.startParsing library location, rfl, rfl⟩
  | endParsing => exact ⟨.endParsing, rfl, rfl⟩
  | startUnit name =>
      obtain ⟨name, rfl⟩ := Value.eq_text recordable
      exact ⟨.startUnit name, rfl, rfl⟩
  | endUnit => exact ⟨.endUnit, rfl, rfl⟩
  | startPackage name =>
      cases name with
      | text name => exact ⟨.startPackage name, rfl, rfl⟩
      | _ => cases recordable
  | endPackage => exact ⟨.endPackage, rfl, rfl⟩
  | startClass visibility name modifiers extended implemented =>
      simp only [Call.recordable, Bool.and_eq_true] at recordable
      obtain ⟨⟨⟨⟨word, named⟩, _⟩, storable⟩, all_storable⟩ := recordable
      obtain ⟨visibility, rfl⟩ := Visibility.eq_word word
      obtain ⟨name, rfl⟩ := Value.eq_text named
      obtain ⟨stored, written, read⟩ := TypeRef.read_optional storable
      obtain ⟨texts, all_written, all_read⟩ := TypeRef.read_all all_storable
      refine ⟨.startClass visibility name (maskOf modifiers) stored texts, ?_, ?_⟩
      · simp only [ofCall, written, all_written, readVisibility_word]
        rfl
      · simp only [toCall, read, all_read]
        rfl
  | endClass => exact ⟨.endClass, rfl, rfl⟩
  | startInterface name extended visibility modifiers =>
      simp only [Call.recordable, Bool.and_eq_true] at recordable
      obtain ⟨⟨⟨named, storable⟩, word⟩, _⟩ := recordable
      obtain ⟨visibility, rfl⟩ := Visibility.eq_word word
      obtain ⟨name, rfl⟩ := Value.eq_text named
      obtain ⟨texts, written, read⟩ := TypeRef.read_all storable
      refine ⟨.startInterface name texts visibility (maskOf modifiers), ?_, ?_⟩
      · simp only [ofCall, written, readVisibility_word]
        rfl
      · simp only [toCall, read]
        rfl
  | endInterface => exact ⟨.endInterface, rfl, rfl⟩
  | startEnumeration visibility name elements modifiers implemented =>
      simp only [Call.recordable, Bool.and_eq_true] at recordable
      obtain ⟨⟨⟨⟨word, named⟩, texts⟩, _⟩, storable⟩ := recordable
      obtain ⟨visibility, rfl⟩ := Visibility.eq_word word
      obtain ⟨name, rfl⟩ := Value.eq_text named
      -- Whatever yields texts one by one is recorded as the list it settles to.
      obtain ⟨names, listed⟩ := Value.eq_texts texts
      obtain ⟨stored, written, read⟩ := TypeRef.read_all storable
      refine ⟨.startEnumeration visibility name names (maskOf modifiers) stored, ?_, ?_⟩
      · simp only [ofCall, itemsOf_eq listed, written, readVisibility_word, bind, Except.bind,
          Checked.texts_list]
        rfl
      · simp only [toCall, read, Call.settled, Value.listed_eq listed]
        rfl
  | endEnumeration => exact ⟨.endEnumeration, rfl, rfl⟩
  | «attribute» visibility name type modifiers value =>
      simp only [Call.recordable, Bool.and_eq_true] at recordable
      obtain ⟨⟨⟨⟨word, named⟩, storable⟩, _⟩, given⟩ := recordable
      obtain ⟨visibility, rfl⟩ := Visibility.eq_word word
      obtain ⟨name, rfl⟩ := Value.eq_text named
      obtain ⟨text, rfl⟩ := Value.eq_ofText? given
      obtain ⟨stored, written, _, read⟩ := TypeRef.read_stored storable
      refine ⟨.attribute visibility name stored (maskOf modifiers) text, ?_, ?_⟩
      · simp only [ofCall, written, readVisibility_word]
        cases text <;> rfl
      · simp only [toCall, read]
        rfl
  | constructor visibility overload parameters types modifiers exceptions =>
      simp only [Call.recordable, Bool.and_eq_true] at recordable
      obtain ⟨⟨⟨⟨⟨word, whole⟩, texts⟩, storable⟩, _⟩, all_storable⟩ := recordable
      obtain ⟨visibility, rfl⟩ := Visibility.eq_word word
      obtain ⟨overload, rfl⟩ := Value.eq_int whole
      obtain ⟨names, listed⟩ := Value.eq_texts texts
      obtain ⟨stored, written, read⟩ := TypeRef.read_all storable
      obtain ⟨thrown, all_written, all_read⟩ := TypeRef.read_all all_storable
      refine ⟨.constructor visibility overload names stored (maskOf modifiers) thrown, ?_, ?_⟩
      · simp only [ofCall, itemsOf_eq listed, written, all_written, readVisibility_word, bind,
          Except.bind, Checked.texts_list]
        rfl
      · simp only [toCall, read, all_read, Call.settled, Value.listed_eq listed]
        rfl
  | method visibility name parameters types result modifiers exceptions overload =>
      simp only [Call.recordable, Bool.and_eq_true] at recordable
      obtain ⟨⟨⟨⟨⟨⟨⟨word, named⟩, texts⟩, storable⟩, returned⟩, _⟩, all_storable⟩, whole⟩ :=
        recordable
      obtain ⟨visibility, rfl⟩ := Visibility.eq_word word
      obtain ⟨name, rfl⟩ := Value.eq_text named
      obtain ⟨overload, rfl⟩ := Value.eq_int whole
      obtain ⟨names, listed⟩ := Value.eq_texts texts
      obtain ⟨stored, written, read⟩ := TypeRef.read_all storable
      obtain ⟨thrown, all_written, all_read⟩ := TypeRef.read_all all_storable
      cases result with
      | none => cases returned
      | some type =>
          obtain ⟨text, result_written, _, result_read⟩ := TypeRef.read_stored returned
          refine ⟨.method visibility name names stored text (maskOf modifiers) thrown overload,
            ?_, ?_⟩
          · simp only [ofCall, ofCall.writtenResult, itemsOf_eq listed, written, result_written,
              all_written, readVisibility_word, bind, Except.bind, Checked.texts_list]
            rfl
          · simp only [toCall, read, result_read, all_read, Call.settled, Value.listed_eq listed]
            rfl
  | parseError location description =>
      simp only [Call.recordable, Bool.and_eq_true] at recordable
      obtain ⟨location, rfl⟩ := Value.eq_text recordable.1
      obtain ⟨description, rfl⟩ := Value.eq_text recordable.2
      exact ⟨.parseError location description, rfl, rfl⟩
  | parsedEntry entry => exact ⟨.parsedEntry entry, rfl, rfl⟩
  | classDoc entry path =>
      obtain ⟨path, rfl⟩ := Value.eq_text recordable
      exact ⟨.classDoc entry path, rfl, rfl⟩
  | methodDoc entry path signature =>
      simp only [Call.recordable, Bool.and_eq_true] at recordable
      obtain ⟨path, rfl⟩ := Value.eq_text recordable.1
      obtain ⟨names, listed⟩ := Value.eq_texts recordable.2
      refine ⟨.methodDoc entry path names, ?_, ?_⟩
      · simp only [ofCall, itemsOf_eq listed, bind, Except.bind, Checked.texts_list]
        rfl
      · simp only [toCall, Call.settled, Value.listed_eq listed]

end Event

namespace Builder

variable {σ : Type} [TripleStore σ]

/-- What a call settles to is handled as the call is. -/
theorem handle_settled {call : Call} (recordable : call.recordable = true)
    (builder : Builder σ) : builder.handle call.settled = builder.handle call := by
  cases call with
  | startClass visibility name modifiers extended implemented =>
      simp only [Call.recordable, Bool.and_eq_true] at recordable
      obtain ⟨⟨⟨⟨_, _⟩, bits⟩, _⟩, _⟩ := recordable
      exact builder.openType_settled .classType "class" name fun container id =>
        Declaration.classWrites_settled visibility extended implemented container id
          (Modifier.mask_settled bits)
  | startInterface name extended visibility modifiers =>
      simp only [Call.recordable, Bool.and_eq_true] at recordable
      obtain ⟨⟨⟨_, _⟩, _⟩, bits⟩ := recordable
      exact builder.openType_settled .interface "interface" name fun container id =>
        Declaration.interfaceWrites_settled visibility extended container id
          (Modifier.mask_settled bits)
  | startEnumeration visibility name elements modifiers implemented =>
      simp only [Call.recordable, Bool.and_eq_true] at recordable
      obtain ⟨⟨⟨⟨_, _⟩, texts⟩, bits⟩, _⟩ := recordable
      exact builder.openType_settled .enumeration "enumeration" name fun container id =>
        Declaration.enumerationWrites_settled visibility implemented container id
          (Modifier.mask_settled bits) (Value.items?_listed texts)
  | «attribute» visibility name type modifiers value =>
      simp only [Call.recordable, Bool.and_eq_true] at recordable
      obtain ⟨⟨⟨⟨_, _⟩, _⟩, bits⟩, _⟩ := recordable
      exact builder.declare_settled .attribute "attribute" EntityKind.types
        (builder.simpleName name) fun container id =>
          Declaration.attributeWrites_settled visibility type value container id
            (Modifier.mask_settled bits)
  | constructor visibility overload parameters types modifiers exceptions =>
      simp only [Call.recordable, Bool.and_eq_true] at recordable
      obtain ⟨⟨⟨⟨⟨_, _⟩, texts⟩, _⟩, bits⟩, _⟩ := recordable
      exact builder.declare_settled .constructor "constructor" constructible
        (.ok (Declaration.overloadName overload, [])) fun container id =>
          Declaration.executableWrites_settled .constructor visibility overload types none
            exceptions container id (Modifier.mask_settled bits) (Value.items?_listed texts)
  | method visibility name parameters types result modifiers exceptions overload =>
      simp only [Call.recordable, Bool.and_eq_true] at recordable
      obtain ⟨⟨⟨⟨⟨⟨⟨_, _⟩, texts⟩, _⟩, _⟩, bits⟩, _⟩, _⟩ := recordable
      exact builder.declare_settled .method "method" EntityKind.types
        (builder.simpleName name) fun container id =>
          Declaration.executableWrites_settled .method visibility overload types result
            exceptions container id (Modifier.mask_settled bits) (Value.items?_listed texts)
  | methodDoc entry path signature =>
      simp only [Call.recordable, Bool.and_eq_true] at recordable
      simp only [Call.settled, handle, noteMethodDoc, Value.items?_listed recordable.2]
  | _ => rfl

end Builder

end CodeFacts
