import CodeFacts.Event.Log
import CodeFacts.Proofs.Event.Record
import CodeFacts.Proofs.Value.Json
import Mathlib.Algebra.Group.Int.Defs

/-!
An event log is read back from its JSON form, event for event. The form has a record for each event,
whose kind says which fields to expect; its text is read within the limits of the reader of logs.
-/

namespace CodeFacts

/-! ### Fields -/

@[simp] theorem Value.field?_nil (name : String) : (Value.record []).field? name = none := rfl

@[simp] theorem Value.field?_cons (key name : String) (value : Value)
    (fields : List (String × Value)) :
    (Value.record ((key, value) :: fields)).field? name =
      ((Value.record fields).field? name).or (if key = name then some value else none) := by
  simp only [field?, List.reverse_cons, List.find?_append]
  cases fields.reverse.find? fun field => field.1 == name with
  | some field => rfl
  | none => by_cases same : key = name <;> simp [same]

namespace Checked

variable {α β : Type}

@[simp] theorem map_good (function : α → β) (value : α) :
    function <$> good value = good (function value) := rfl

@[simp] theorem seq_good (function : α → β) (value : α) :
    good function <*> good value = good (function value) := rfl

@[simp] theorem text_text (path : List String) (value : String) :
    text path (.text value) = good value := rfl

@[simp] theorem integer_int (path : List String) (value : Int) :
    integer path (.int value) = good value := rfl

@[simp] theorem texts_ofTexts (path : List String) (names : List String) :
    texts path (Value.ofTexts names) = good names := texts_list path names

@[simp] theorem optionalText_ofText? (path : List String) (text : Option String) :
    optionalText path (Value.ofText? text) = good text := by
  cases text <;> rfl

theorem items_map {read : List String → Value → Checked α} {write : α → Value} {things : List α}
    (back : ∀ thing ∈ things, ∀ path, read path (write thing) = good thing) (path : List String)
    (start : Nat) : items read path start (things.map write) = good things := by
  induction things generalizing start with
  | nil => rfl
  | cons thing rest ih =>
      have later := ih (fun other member => back other (List.mem_cons_of_mem thing member))
        (start + 1)
      rw [List.map_cons, items, back thing List.mem_cons_self, later, map_good, seq_good]

end Checked

/-! ### Documentation entries -/

theorem Entries.ofList_of_nodup {α : Type} {entries : List (String × α)}
    (distinct : (entries.map Prod.fst).Nodup) : Entries.ofList entries = entries := by
  have put_new (before after : List (String × α))
      (distinct : ((before ++ after).map Prod.fst).Nodup) :
      after.foldl (fun entries entry => Entries.put entries entry.1 entry.2) before =
        before ++ after := by
    induction after generalizing before with
    | nil => exact (List.append_nil before).symm
    | cons entry rest ih =>
        have absent : before.any (·.1 == entry.1) = false := by
          rw [List.map_append, List.nodup_append] at distinct
          simp only [List.any_eq_false, beq_iff_eq]
          intro other member
          exact distinct.2.2 other.1 (List.mem_map_of_mem member) entry.1 List.mem_cons_self
        have added : Entries.put before entry.1 entry.2 = before ++ [entry] := by
          rw [Entries.put, absent]
          rfl
        rw [List.foldl_cons, added, ih _ (by simpa using distinct), List.append_assoc,
          List.singleton_append]
  exact put_new [] entries distinct

namespace DocEntry

/-- Whether no tag of an entry comes twice. -/
def Keyed (entry : DocEntry) : Prop := (entry.tags.map Prod.fst).Nodup

instance (entry : DocEntry) : Decidable entry.Keyed :=
  inferInstanceAs (Decidable (entry.tags.map Prod.fst).Nodup)

theorem readTags_tags (path : List String) {tags : List (String × List String)}
    (distinct : (tags.map Prod.fst).Nodup) :
    readTags path (.record (tags.map fun (name, values) => (name, Value.ofTexts values))) =
      .good tags := by
  have all (tags : List (String × List String)) :
      (tags.map fun (name, values) => (name, Value.ofTexts values)).foldr
        (fun field rest => List.cons <$> ((field.1, ·) <$>
          Checked.texts (path ++ [field.1]) field.2) <*> rest) (.good []) = .good tags := by
    induction tags with
    | nil => rfl
    | cons tag rest ih => simp [ih]
  rw [readTags, all, Checked.map_good, Entries.ofList_of_nodup distinct]

theorem ofValue_toValue (path : List String) {entry : DocEntry} (keyed : entry.Keyed) :
    ofValue path entry.toValue = .good entry := by
  have tags := readTags_tags (path ++ ["tags"]) keyed
  simp [ofValue, toValue, Checked.optional, tags]

end DocEntry

/-! ### Events -/

namespace Event

/-- The documentation an event brings. -/
def entry? : Event → Option DocEntry
  | .parsedEntry entry | .classDoc entry _ | .methodDoc entry _ _ => some entry
  | _ => none

/-- Whether the documentation of an event has each tag once. -/
def Keyed (event : Event) : Prop := ∀ entry ∈ event.entry?, entry.Keyed

instance (event : Event) : Decidable event.Keyed :=
  inferInstanceAs (Decidable (∀ entry ∈ event.entry?, entry.Keyed))

/-- The record of an event is read as that event: its kind leads to the reader of its fields, and
each of these reads what is written for it. -/
theorem ofValue_toValue (path : List String) {event : Event} (keyed : event.Keyed) :
    ofValue path event.toValue = .good event := by
  cases event with
  | parsedEntry entry | classDoc entry _ | methodDoc entry _ _ =>
      have read (path : List String) : DocEntry.ofValue path entry.toValue = .good entry :=
        DocEntry.ofValue_toValue path (keyed entry rfl)
      simp [ofValue, toValue, kind, fields, ofTagged?, Checked.required, Checked.optional, read]
  | _ =>
      simp [ofValue, toValue, kind, fields, ofTagged?, Checked.required, Checked.optional,
        readVisibility_word]

/-- The whole numbers in an event. -/
def numbers : Event → List Int
  | .startClass _ _ modifiers _ _ | .startInterface _ _ _ modifiers
  | .startEnumeration _ _ _ modifiers _ | .attribute _ _ _ modifiers _ => [modifiers]
  | .constructor _ overload _ _ modifiers _ | .method _ _ _ _ _ modifiers _ overload =>
      [overload, modifiers]
  | .parsedEntry entry | .classDoc entry _ | .methodDoc entry _ _ => [entry.row, entry.column]
  | _ => []

/-- Whether the whole numbers in an event are of no more digits than the reader of logs takes. -/
def Short (event : Event) : Prop :=
  ∀ number ∈ event.numbers,
    (Text.naturalText number.natAbs).length ≤ EventLog.limits.digits

instance (event : Event) : Decidable event.Short :=
  inferInstanceAs (Decidable (∀ number ∈ event.numbers,
    (Text.naturalText number.natAbs).length ≤ EventLog.limits.digits))

end Event

/-! ### The text of a log -/

namespace EventLog

variable {room : Nat}

theorem within_texts (names : List String) :
    (Value.ofTexts names).Within limits (room + 1) := by
  refine .list fun item member => ?_
  obtain ⟨name, _, rfl⟩ := List.mem_map.mp member
  exact .text name

theorem within_optionalText (text : Option String) :
    (Value.ofText? text).Within limits room := by
  cases text with
  | none => exact .null
  | some text => exact .text text

theorem within_entry {entry : DocEntry}
    (row : (Text.naturalText entry.row.natAbs).length ≤ limits.digits)
    (column : (Text.naturalText entry.column.natAbs).length ≤ limits.digits) :
    entry.toValue.Within limits (room + 3) := by
  have tags : (Value.record (entry.tags.map fun (name, values) =>
      (name, Value.ofTexts values))).Within limits (room + 2) := by
    refine .record fun field member => ?_
    obtain ⟨⟨name, values⟩, _, rfl⟩ := List.mem_map.mp member
    exact within_texts values
  refine .record ?_
  simp only [List.forall_mem_cons]
  exact ⟨.text _, .text _, tags, .int row, .int column, List.forall_mem_nil _⟩

theorem within_event {event : Event} (short : event.Short) :
    event.toValue.Within limits (room + 4) := by
  refine .record (List.forall_mem_cons.mpr ⟨.text _, ?_⟩)
  cases event with
  | parsedEntry entry | classDoc entry _ | methodDoc entry _ _ =>
      have row := short entry.row List.mem_cons_self
      have column := short entry.column (List.mem_cons_of_mem _ List.mem_cons_self)
      have entry_within : entry.toValue.Within limits (room + 3) := within_entry row column
      simp [Event.fields, entry_within, Value.Within.text, within_texts]
  | _ =>
      simp only [Event.Short, Event.numbers, List.forall_mem_cons] at short
      simp [Event.fields, Value.Within.text, Value.Within.int, within_texts, within_optionalText,
        short]

theorem within_log {events : List Event} (short : ∀ event ∈ events, event.Short) :
    (toValue events).Within limits (room + 6) := by
  refine .record ?_
  rw [List.forall_mem_singleton]
  refine .list fun item member => ?_
  obtain ⟨event, held, rfl⟩ := List.mem_map.mp member
  exact within_event (short event held)

theorem ofValue_toValue {events : List Event} (keyed : ∀ event ∈ events, event.Keyed) :
    ofValue (toValue events) = .ok events := by
  have read (path : List String) (start : Nat) :
      Checked.items Event.ofValue path start (events.map Event.toValue) = .good events :=
    Checked.items_map (fun event member path => Event.ofValue_toValue path (keyed event member))
      path start
  simp [ofValue, toValue, Checked.optional, Checked.list, read, Checked.result]

/-- A log whose entries have each tag once is read back from its record, whatever numbers are in it,
and from its JSON text, if none of them is too long for the reader. So handling the events of the
log that was read is handling those of the log that was written. -/
theorem log_read_back (events : List Event) (keyed : ∀ event ∈ events, event.Keyed) :
    ofValue (toValue events) = .ok events ∧
      ((∀ event ∈ events, event.Short) → read (render events) = .ok events) ∧
      ∀ loaded, ofValue (toValue events) = .ok loaded ∨
          (∀ event ∈ events, event.Short) ∧ read (render events) = .ok loaded →
        loaded.map Event.toCall = events.map Event.toCall ∧
          ∀ (η : Type) [Handler η] (state : η),
            Event.replay state loaded = Event.replay state events := by
  have from_record := ofValue_toValue keyed
  have from_text (short : ∀ event ∈ events, event.Short) :
      read (render events) = .ok events := by
    have within : (toValue events).Within limits limits.nesting := within_log short
    rw [read, render, Json.parseWithin?_render within]
    exact from_record
  refine ⟨from_record, from_text, ?_⟩
  rintro loaded (read | ⟨short, read⟩)
  · cases from_record.symm.trans read
    exact ⟨rfl, fun _ _ _ => rfl⟩
  · cases (from_text short).symm.trans read
    exact ⟨rfl, fun _ _ _ => rfl⟩

/-- A log with an event of every kind, in which texts need escapes and fields are missing. -/
def everyKind : List Event :=
  let entry : DocEntry :=
    { short := "Says \"all\"", long := "a\\b\n\u2028𝄞"
      tags := [("@param", ["a first", ""]), ("@since", [])], row := -3, column := 2 ^ 64 }
  [.startParsing "lib" "/tmp/lib", .startUnit "A.java", .startPackage "p.q",
    .parseError "A.java:1:1" "Missing ;",
    .startClass .publicAccess "p.q.A" 16 (some "p.B") ["p.I", "p.J"], .parsedEntry entry,
    .classDoc entry "p.q.A", .attribute .privateAccess "f" "int" (-1) none,
    .attribute .defaultAccess "g" "p.q.A" 0 (some "null"),
    .constructor .publicAccess (-2) [] [] 0 ["p.E"],
    .method .publicAccess "m" ["x"] ["int"] "void" 1 [] 7, .methodDoc entry "p.q.A.m" ["int"],
    .startClass .defaultAccess "" 0 none [], .endClass, .endClass,
    .startInterface "p.q.I" [] .publicAccess 8, .endInterface,
    .startEnumeration .publicAccess "p.q.E" ["ONE", "two"] 0 [], .endEnumeration,
    .endPackage, .endUnit, .endParsing]

theorem every_kind_read_back :
    (∀ event ∈ everyKind, event.Keyed) ∧ (∀ event ∈ everyKind, event.Short) ∧
      ofValue (toValue everyKind) = .ok everyKind ∧ read (render everyKind) = .ok everyKind := by
  have keyed : ∀ event ∈ everyKind, event.Keyed := by decide +kernel
  have short : ∀ event ∈ everyKind, event.Short := by decide +kernel
  have back := log_read_back everyKind keyed
  exact ⟨keyed, short, back.1, back.2.1 short⟩

end EventLog

end CodeFacts
