import NetDecl.Diagram.Encoding
import NetDecl.Proofs.Diagram.Kept
import NetDecl.Proofs.Json.Record

/-!
# Marks of groups

Whether a record is that of a group is not said by a field of its own.  The form of a group is tried
first, and it is the truth value among the fields, whichever it is, that makes the form fit: a
record that is read with the mark false is that of a group all the same.
-/

namespace NetDecl

open List (Forall₂)

namespace Diagram

/-- The mark of a record that is that of a group. -/
def Record.mark? (record : Record) : Option Bool :=
  record.group?.map GroupRecord.isGroup

/-- The mark that a value carries: a member of an object, the last of three items of an array. -/
def markOf? : Json → Option Bool
  | .object members => (Json.member? "isGroup" (.object members)).bind Json.bool?
  | .array [_, _, mark] => mark.bool?
  | _ => none

/-- The value of a field says the text, or leaves it out. -/
inductive SaysText : Option Json → Option String → Prop
  | absent : SaysText none none
  | null : SaysText (some .null) none
  | string (text : String) : SaysText (some (.string text)) (some text)

theorem optionalField?_eq_some_iff {field : Option Json} {text : Option String} :
    Json.optionalField? Json.string? field = some text ↔ SaysText field text := by
  constructor
  · intro decoded
    rcases field with _ | value
    · cases decoded
      exact .absent
    · cases value <;> cases decoded
      · exact .null
      · exact .string _
  · rintro (_ | _ | _) <;> rfl

theorem string?_eq_some_iff {value : Json} {text : String} :
    value.string? = some text ↔ value = .string text := by
  constructor
  · intro decoded
    cases value <;> cases decoded
    rfl
  · rintro rfl
    rfl

theorem bool?_eq_some_iff {value : Json} {mark : Bool} :
    value.bool? = some mark ↔ value = .bool mark := by
  constructor
  · intro decoded
    cases value <;> cases decoded
    rfl
  · rintro rfl
    rfl

/-! ## One record -/

/-- The record of a group has a key, a truth value for its mark and, at most, a text. -/
theorem GroupRecord.ofJson?_eq_some_iff {value : Json} {group : GroupRecord} :
    GroupRecord.ofJson? value = some group ↔
      ∃ text, SaysText text group.text ∧ value.fields? ["key", "text", "isGroup"] =
        some [some (.string group.key), text, some (.bool group.isGroup)] := by
  obtain ⟨key, text, mark⟩ := group
  constructor
  · intro decodes
    obtain ⟨fields, found, decodes⟩ := Option.bind_eq_some_iff.1 decodes
    split at decodes
    · rename_i keyValue textField markValue
      simp only [Option.bind_eq_bind, Option.bind_eq_some_iff, string?_eq_some_iff,
        optionalField?_eq_some_iff, bool?_eq_some_iff, Option.pure_def, Option.some.injEq,
        mk.injEq] at decodes
      obtain ⟨_, rfl, _, saysText, _, rfl, rfl, rfl, rfl⟩ := decodes
      exact ⟨textField, saysText, found⟩
    · cases decodes
  · rintro ⟨textField, saysText, found⟩
    rw [GroupRecord.ofJson?, found]
    simp [Json.string?, Json.bool?, optionalField?_eq_some_iff.2 saysText]

/-- The record of a node has a key and, at most, a group and a text. -/
theorem NodeRecord.ofJson?_eq_some_iff {value : Json} {node : NodeRecord} :
    NodeRecord.ofJson? value = some node ↔
      ∃ group text, SaysText group node.group ∧ SaysText text node.text ∧
        value.leadingFields? ["key", "group", "text"] =
          some [some (.string node.key), group, text] := by
  obtain ⟨key, group, text⟩ := node
  constructor
  · intro decodes
    obtain ⟨fields, found, decodes⟩ := Option.bind_eq_some_iff.1 decodes
    split at decodes
    · rename_i keyValue groupField textField
      simp only [Option.bind_eq_bind, Option.bind_eq_some_iff, string?_eq_some_iff,
        optionalField?_eq_some_iff, Option.pure_def, Option.some.injEq, mk.injEq] at decodes
      obtain ⟨_, rfl, _, saysGroup, _, saysText, rfl, rfl, rfl⟩ := decodes
      exact ⟨groupField, textField, saysGroup, saysText, found⟩
    · cases decodes
  · rintro ⟨groupField, textField, saysGroup, saysText, found⟩
    rw [NodeRecord.ofJson?, found]
    simp [Json.string?, optionalField?_eq_some_iff.2 saysGroup,
      optionalField?_eq_some_iff.2 saysText]

/-- The record of a group has the mark that its value carries. -/
theorem GroupRecord.markOf?_eq {value : Json} {group : GroupRecord}
    (decodes : GroupRecord.ofJson? value = some group) : markOf? value = some group.isGroup := by
  obtain ⟨text, -, fields⟩ := GroupRecord.ofJson?_eq_some_iff.1 decodes
  cases value with
  | object members =>
    simp only [Json.fields?, List.map_cons, List.map_nil, Option.some.injEq, List.cons.injEq,
      and_true] at fields
    rw [markOf?, fields.2.2]
    rfl
  | array items =>
    rcases items with _ | ⟨_, _ | ⟨_, _ | ⟨mark, _ | _⟩⟩⟩
    case cons.cons.cons.nil =>
      obtain ⟨-, -, rfl⟩ : _ ∧ _ ∧ mark = .bool group.isGroup := by simpa [Json.fields?] using fields
      rfl
    all_goals cases decodes
  | _ => cases fields

/-- The value of a node carries no mark, unless it is that of a group as well. -/
theorem NodeRecord.markOf?_eq {value : Json} {node : NodeRecord}
    (refused : GroupRecord.ofJson? value = none) (decodes : NodeRecord.ofJson? value = some node) :
    markOf? value = none := by
  obtain ⟨group, text, -, saysText, fields⟩ := NodeRecord.ofJson?_eq_some_iff.1 decodes
  rw [Option.eq_none_iff_forall_not_mem]
  intro mark carried
  cases value with
  | object members =>
    obtain ⟨markValue, found, isMark⟩ := Option.bind_eq_some_iff.1 carried
    rw [bool?_eq_some_iff] at isMark
    subst isMark
    simp only [Json.leadingFields?, Json.fields?, List.map_cons, List.map_nil, Option.some.injEq,
      List.cons.injEq, and_true] at fields
    have group : GroupRecord.ofJson? (.object members) = some ⟨node.key, node.text, mark⟩ := by
      refine GroupRecord.ofJson?_eq_some_iff.2 ⟨text, saysText, ?_⟩
      simp only [Json.fields?, List.map_cons, List.map_nil, fields, found]
    rw [refused] at group
    cases group
  | array items =>
    rcases items with _ | ⟨_, _ | ⟨_, _ | ⟨last, _ | _⟩⟩⟩
    case cons.cons.cons.nil =>
      obtain rfl := bool?_eq_some_iff.1 carried
      obtain ⟨-, -, rfl⟩ : _ ∧ _ ∧ some (.bool mark) = text := by
        simpa [Json.leadingFields?] using fields
      cases saysText
    all_goals cases carried
  | _ => cases carried

/-- A record is that of a group exactly if its value carries a mark, and then has that mark. -/
theorem Record.mark?_eq_markOf? {value : Json} {record : Record}
    (decodes : Record.ofJson? value = some record) : record.mark? = markOf? value := by
  cases found : GroupRecord.ofJson? value with
  | some group =>
    rw [Record.ofJson?, found] at decodes
    cases decodes
    exact (GroupRecord.markOf?_eq found).symm
  | none =>
    rw [Record.ofJson?, found] at decodes
    obtain ⟨node, isNode, rfl⟩ := Option.map_eq_some_iff.1 decodes
    exact (NodeRecord.markOf?_eq found isNode).symm

theorem Record.isGroup_eq_isSome_mark? (record : Record) :
    record.isGroup = record.mark?.isSome := by
  cases record <;> rfl

/-! ## All records -/

/-- What a diagram is read from: an array of the values of its records, and one of its links. -/
theorem exists_items_of_ofJson? {value : Json} {diagram : Diagram}
    (decodes : Diagram.ofJson? value = some diagram) :
    ∃ items links, value.fields? ["nodeDataArray", "linkDataArray"] =
        some [some (.array items), some links] ∧
      Forall₂ (fun item record => Record.ofJson? item = some record) items diagram.records := by
  obtain ⟨fields, found, decodes⟩ := Option.bind_eq_some_iff.1 decodes
  split at decodes
  · rename_i recordsValue linksValue
    obtain ⟨records, readsRecords, decodes⟩ := Option.bind_eq_some_iff.1 decodes
    obtain ⟨links, -, decodes⟩ := Option.bind_eq_some_iff.1 decodes
    cases decodes
    obtain ⟨items, rfl, read⟩ := Json.forall₂_of_list? readsRecords
    exact ⟨items, linksValue, found, read⟩
  · cases decodes

/-- The groups of a diagram have the marks that the values of its records carry. -/
theorem map_isGroup_groups {items : List Json} {diagram : Diagram}
    (read : Forall₂ (fun item record => Record.ofJson? item = some record) items diagram.records) :
    diagram.groups.map GroupRecord.isGroup = items.filterMap markOf? := by
  have marks : diagram.records.map Record.mark? = items.map markOf? :=
    map_eq_map_iff_forall₂.2 (read.flip.imp fun _ _ decodes => Record.mark?_eq_markOf? decodes)
  calc
    diagram.groups.map GroupRecord.isGroup
    _ = diagram.records.filterMap Record.mark? := List.map_filterMap
    _ = (diagram.records.map Record.mark?).filterMap id := by rw [List.filterMap_map]; rfl
    _ = items.filterMap markOf? := by rw [marks, List.filterMap_map]; rfl

/-- An object with a key, the mark true and, at most, a text is read as a group. -/
theorem Record.ofJson?_of_marked {members : List (String × Json)} {key : String}
    {text : Option String} (hasKey : Json.member? "key" (.object members) = some (.string key))
    (saysText : SaysText (Json.member? "text" (.object members)) text)
    (marked : Json.member? "isGroup" (.object members) = some (.bool true)) :
    Record.ofJson? (.object members) = some (.group (.marked key text)) := by
  have group : GroupRecord.ofJson? (.object members) = some (.marked key text) := by
    refine GroupRecord.ofJson?_eq_some_iff.2 ⟨_, saysText, ?_⟩
    simp only [Json.fields?, List.map_cons, List.map_nil, hasKey, marked, GroupRecord.marked]
  rw [Record.ofJson?, group]

/-- A decoded record is that of a group exactly if its value carries a mark, and has that mark,
whichever it is.  So all groups are marked as such exactly if no value carries the mark false.  An
object with a key, the mark true and, at most, a text is always read as a group. -/
theorem marks_of_ofJson? {value : Json} {diagram : Diagram}
    (decodes : Diagram.ofJson? value = some diagram) :
    ∃ items links, value.fields? ["nodeDataArray", "linkDataArray"] =
        some [some (.array items), some links] ∧
      Forall₂ (fun item record =>
        record.isGroup = (markOf? item).isSome ∧
          ∀ group, record = .group group → markOf? item = some group.isGroup)
        items diagram.records ∧
      ((∀ group ∈ diagram.groups, group.isGroup = true) ↔
        ∀ item ∈ items, markOf? item ≠ some false) ∧
      ∀ members key text, Json.member? "key" (.object members) = some (.string key) →
        SaysText (Json.member? "text" (.object members)) text →
        Json.member? "isGroup" (.object members) = some (.bool true) →
        Record.ofJson? (.object members) = some (.group (.marked key text)) := by
  obtain ⟨items, links, fields, read⟩ := exists_items_of_ofJson? decodes
  refine ⟨items, links, fields, ?_, ?_, fun _ _ _ => Record.ofJson?_of_marked⟩
  · refine read.imp fun item record found => ?_
    rw [← Record.mark?_eq_markOf? found]
    refine ⟨record.isGroup_eq_isSome_mark?, ?_⟩
    rintro group rfl
    rfl
  · have marks := map_isGroup_groups read
    constructor
    · intro allMarked item mem unmarked
      have among : false ∈ diagram.groups.map GroupRecord.isGroup := by
        rw [marks]
        exact List.mem_filterMap.2 ⟨item, mem, unmarked⟩
      obtain ⟨group, groupMem, isFalse⟩ := List.mem_map.1 among
      rw [allMarked group groupMem] at isFalse
      cases isFalse
    · intro noneUnmarked group mem
      have among : group.isGroup ∈ items.filterMap markOf? := by
        rw [← marks]
        exact List.mem_map_of_mem mem
      obtain ⟨item, itemMem, carried⟩ := List.mem_filterMap.1 among
      cases mark : group.isGroup with
      | true => rfl
      | false =>
        rw [mark] at carried
        exact absurd carried (noneUnmarked item itemMem)

/-- Two groups whose values carry the mark false, among a group and a node. -/
theorem marks_of_ofJson?_unmarked :
    let unmarked : Json := .object [("isGroup", .bool false), ("key", .string "a")]
    let listed : Json := .array [.string "b", .null, .bool false]
    let marked : Json := .object [("key", .string "c"), ("text", .null), ("isGroup", .bool true)]
    let node : Json := .object [("key", .string "d"), ("isGroup", .null)]
    let value : Json := .object [("nodeDataArray", .array [unmarked, listed, marked, node]),
      ("linkDataArray", .array [])]
    let diagram : Diagram := ⟨[.group ⟨"a", none, false⟩, .group ⟨"b", none, false⟩,
      .group ⟨"c", none, true⟩, .node ⟨"d", none, none⟩], []⟩
    Diagram.ofJson? value = some diagram ∧
      ¬∀ group ∈ diagram.groups, group.isGroup = true := by
  intro unmarked listed marked node value diagram
  have decodes : Diagram.ofJson? value = some diagram := rfl
  refine ⟨decodes, ?_⟩
  obtain ⟨items, links, fields, -, allMarked, -⟩ := marks_of_ofJson? decodes
  cases fields
  rw [allMarked]
  intro noneUnmarked
  exact noneUnmarked unmarked List.mem_cons_self rfl

end Diagram

end NetDecl
