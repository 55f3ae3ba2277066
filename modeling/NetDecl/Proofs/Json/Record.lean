import NetDecl.Json.Record
import NetDecl.Proofs.Json.Reader
import Mathlib.Data.List.Forall2

/-!
# Reading records

A record can be written as an object or as an array, and its fields are found in either.  What is
not nested too deeply and has only words for numbers is read from its text.
-/

namespace NetDecl.Json

/-! ## Bounds -/

/-- The numbers in a value are words, and it is nested at most so deeply. -/
structure Fits (bound : Nat) (value : Json) : Prop where
  legible : value.Legible
  depth_le : value.depth ≤ bound

section Bounds

variable {bound : Nat}

theorem fits_null : Fits bound .null :=
  ⟨.null, Nat.zero_le _⟩

theorem fits_bool (value : Bool) : Fits bound (.bool value) :=
  ⟨.bool value, Nat.zero_le _⟩

theorem fits_natural {value : Nat} (bounded : value < UInt64.size) : Fits bound (.natural value) :=
  ⟨.natural bounded, Nat.zero_le _⟩

theorem fits_string (text : String) : Fits bound (.string text) :=
  ⟨.string text, Nat.zero_le _⟩

theorem itemsDepth_le {items : List Json} (each : ∀ item ∈ items, item.depth ≤ bound) :
    itemsDepth items ≤ bound := by
  induction items with
  | nil => exact Nat.zero_le _
  | cons item items ih =>
    obtain ⟨first, others⟩ := List.forall_mem_cons.1 each
    exact Nat.max_le.2 ⟨first, ih others⟩

theorem membersDepth_le {members : List (String × Json)}
    (each : ∀ member ∈ members, member.2.depth ≤ bound) : membersDepth members ≤ bound := by
  induction members with
  | nil => exact Nat.zero_le _
  | cons member members ih =>
    obtain ⟨first, others⟩ := List.forall_mem_cons.1 each
    exact Nat.max_le.2 ⟨first, ih others⟩

theorem fits_array {items : List Json} (each : ∀ item ∈ items, Fits bound item) :
    Fits (bound + 1) (.array items) where
  legible := .array fun item mem => (each item mem).legible
  depth_le := Nat.succ_le_succ (itemsDepth_le fun item mem => (each item mem).depth_le)

theorem fits_array_of_forall₂ {α : Type} {encodes : α → Json → Prop} {items : List α}
    {values : List Json} (encoded : List.Forall₂ encodes items values)
    (each : ∀ item ∈ items, ∀ value, encodes item value → Fits bound value) :
    Fits (bound + 1) (.array values) := by
  apply fits_array
  induction encoded with
  | nil => nofun
  | cons first _ ih =>
    obtain ⟨eachFirst, eachOther⟩ := List.forall_mem_cons.1 each
    exact List.forall_mem_cons.2 ⟨eachFirst _ first, ih eachOther⟩

theorem fits_object {members : List (String × Json)}
    (each : ∀ member ∈ members, Fits bound member.2) : Fits (bound + 1) (.object members) where
  legible := .object fun member mem => (each member mem).legible
  depth_le := Nat.succ_le_succ (membersDepth_le fun member mem => (each member mem).depth_le)

end Bounds

/-! ## Decoding -/

/-- A decoder finds the item in the texts of the value, in either layout. -/
def ReadsAs {α : Type} (decode? : Json → Option α) (value : Json) (item : α) : Prop :=
  (read? value.compact).bind decode? = some item ∧ (read? value.pretty).bind decode? = some item

theorem Fits.readsAs {α : Type} {decode? : Json → Option α} {value : Json} {item : α}
    (fits : Fits maximumDepth value) (decoded : decode? value = some item) :
    ReadsAs decode? value item := by
  constructor
  · rw [compact, read?_write Layout.spaced_compact fits.legible fits.depth_le, Option.bind_some,
      decoded]
  · rw [pretty, read?_write Layout.spaced_indented fits.legible fits.depth_le, Option.bind_some,
      decoded]

section Lists

variable {α : Type} {decode? : Json → Option α} {items : List α}

/-- Items that are read from their values make up a list that is read. -/
theorem list?_of_forall₂ {encodes : α → Json → Prop} {values : List Json}
    (encoded : List.Forall₂ encodes items values)
    (decodes : ∀ item ∈ items, ∀ value, encodes item value → decode? value = some item) :
    list? decode? (.array values) = some items := by
  change values.mapM decode? = some items
  induction encoded with
  | nil => rfl
  | cons first _ ih =>
    obtain ⟨decodesFirst, decodesOthers⟩ := List.forall_mem_cons.1 decodes
    rw [List.mapM_cons, decodesFirst _ first, ih decodesOthers]
    rfl

/-- The items of a list that is read are read from the values of an array. -/
theorem forall₂_of_list? {value : Json} (decoded : list? decode? value = some items) :
    ∃ values, value = .array values ∧
      List.Forall₂ (fun found item => decode? found = some item) values items := by
  cases value with
  | array values =>
    refine ⟨values, rfl, ?_⟩
    change values.mapM decode? = some items at decoded
    induction values generalizing items with
    | nil =>
      cases decoded
      exact .nil
    | cons value values ih =>
      rw [List.mapM_cons] at decoded
      obtain ⟨item, first, decoded⟩ := Option.bind_eq_some_iff.1 decoded
      obtain ⟨others, rest, equal⟩ := Option.bind_eq_some_iff.1 decoded
      cases equal
      exact .cons first (ih rest)
  | _ => cases decoded

theorem list?_map {encode : α → Json} (decodes : ∀ item ∈ items, decode? (encode item) = some item) :
    list? decode? (.array (items.map encode)) = some items := by
  apply list?_of_forall₂ (List.forall₂_map_right_iff.2 (List.forall₂_same.2 fun _ _ => rfl))
  rintro item mem value rfl
  exact decodes item mem

end Lists

/-! ## Records -/

/-- The value is the record with the given members, as an object or as an array. -/
def IsRecord (members : List (String × Json)) (value : Json) : Prop :=
  value = .object members ∨ value = .array (members.map Prod.snd)

section Records

variable {members : List (String × Json)} {value : Json}

theorem IsRecord.fits {bound : Nat} (record : IsRecord members value)
    (each : ∀ member ∈ members, Fits bound member.2) : Fits (bound + 1) value := by
  rcases record with rfl | rfl
  · exact fits_object each
  · exact fits_array (List.forall_mem_map.2 each)

/-- A name that occurs once leads to its value. -/
theorem lookup_of_mem {name : String} (nodup : (members.map Prod.fst).Nodup)
    (mem : (name, value) ∈ members) : members.lookup name = some value := by
  induction members with
  | nil => cases mem
  | cons member members ih =>
    rw [List.map_cons, List.nodup_cons] at nodup
    rcases List.mem_cons.1 mem with rfl | mem
    · exact List.lookup_cons_self
    · have ne : (name == member.1) = false := by
        apply beq_false_of_ne
        rintro rfl
        exact nodup.1 (List.mem_map.2 ⟨(member.1, value), mem, rfl⟩)
      rw [List.lookup_cons, ne]
      exact ih nodup.2 mem

/-- All fields of a record are found. -/
theorem IsRecord.fields?_eq (record : IsRecord members value)
    (nodup : (members.map Prod.fst).Nodup) :
    value.fields? (members.map Prod.fst) = some (members.map fun member => some member.2) := by
  rcases record with rfl | rfl
  · have found : ∀ member ∈ members, member? member.1 (.object members) = some member.2 := by
      intro member mem
      have reversed : (members.reverse.map Prod.fst).Nodup :=
        ((List.reverse_perm members).map Prod.fst).nodup_iff.2 nodup
      exact lookup_of_mem reversed (List.mem_reverse.2 mem)
    rw [fields?, List.map_map]
    exact congrArg some (List.map_congr_left found)
  · rw [fields?, if_pos (by rw [List.length_map, List.length_map]), List.map_map]
    rfl

end Records

end NetDecl.Json
