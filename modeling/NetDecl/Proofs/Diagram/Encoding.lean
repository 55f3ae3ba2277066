import NetDecl.Diagram.Encoding
import NetDecl.Proofs.Json.Record
import NetDecl.Proofs.Json.Writer

/-!
# Reading diagrams

A diagram is read from its text as it was written, record by record.  That of a group is tried
first, so a record is taken for the wrong kind only if that of a node is written with a mark; it
never is.
-/

namespace NetDecl.Diagram

open Json

/-! ## Records -/

theorem GroupRecord.ofJson?_toJson (record : GroupRecord) :
    GroupRecord.ofJson? record.toJson = some record := by
  obtain ⟨key, text | text, isGroup⟩ := record <;> rfl

/-- The record of a node is written without a mark. -/
theorem GroupRecord.ofJson?_toJson_node (record : NodeRecord) :
    GroupRecord.ofJson? record.toJson = none := by
  obtain ⟨key, group | group, text | text⟩ := record <;> rfl

theorem NodeRecord.ofJson?_toJson (record : NodeRecord) :
    NodeRecord.ofJson? record.toJson = some record := by
  obtain ⟨key, group | group, text | text⟩ := record <;> rfl

theorem Record.ofJson?_toJson (record : Record) : Record.ofJson? record.toJson = some record := by
  cases record with
  | node record =>
    rw [Record.toJson, Record.ofJson?, GroupRecord.ofJson?_toJson_node,
      NodeRecord.ofJson?_toJson]
    rfl
  | group record => rw [Record.toJson, Record.ofJson?, GroupRecord.ofJson?_toJson]

theorem Link.ofJson?_toJson (link : Link) : Link.ofJson? link.toJson = some link :=
  rfl

/-- A diagram is read from its value. -/
theorem ofJson?_toJson (diagram : Diagram) : ofJson? diagram.toJson = some diagram := by
  have records : list? Record.ofJson? diagram.recordsToJson = some diagram.records :=
    list?_map fun record _ => record.ofJson?_toJson
  have links : list? Link.ofJson? diagram.linksToJson = some diagram.links :=
    list?_map fun link _ => link.ofJson?_toJson
  change (do pure (Diagram.mk (← list? Record.ofJson? diagram.recordsToJson)
    (← list? Link.ofJson? diagram.linksToJson))) = some diagram
  rw [records, links]
  rfl

/-! ## Texts -/

theorem fits_member {bound : Nat} (name : String) (text : Option String) :
    ∀ found ∈ member name text, Fits bound found.2 := by
  intro found mem
  cases text with
  | none => cases mem
  | some text =>
    cases List.mem_singleton.1 mem
    exact fits_string text

theorem Record.fits_toJson (record : Record) (bound : Nat) :
    Fits (bound + 1) record.toJson := by
  cases record with
  | node record =>
    apply fits_object
    simp only [List.forall_mem_append]
    exact ⟨⟨List.forall_mem_singleton.2 (fits_string _), fits_member _ _⟩, fits_member _ _⟩
  | group record =>
    apply fits_object
    simp only [List.forall_mem_append]
    exact ⟨⟨List.forall_mem_singleton.2 (fits_string _), fits_member _ _⟩,
      List.forall_mem_singleton.2 (fits_bool _)⟩

theorem Link.fits_toJson (link : Link) (bound : Nat) : Fits (bound + 1) link.toJson := by
  apply fits_object
  simp only [List.forall_mem_cons]
  exact ⟨fits_string _, fits_string _, nofun⟩

theorem fits_toJson (diagram : Diagram) (bound : Nat) : Fits (bound + 3) diagram.toJson := by
  have records : Fits (bound + 2) diagram.recordsToJson :=
    fits_array (List.forall_mem_map.2 fun record _ => record.fits_toJson bound)
  have links : Fits (bound + 2) diagram.linksToJson :=
    fits_array (List.forall_mem_map.2 fun link _ => link.fits_toJson bound)
  apply fits_object
  simp only [List.forall_mem_cons]
  exact ⟨records, links, nofun⟩

/-- Both texts of a diagram are read as the diagram, and the compact one has no control
characters. -/
theorem read_toJson (diagram : Diagram) :
    (read? diagram.toJson.compact).bind ofJson? = some diagram ∧
      (read? diagram.toJson.pretty).bind ofJson? = some diagram ∧
      ∀ char ∈ diagram.toJson.compact.toList, ' ' ≤ char := by
  have fits : Fits maximumDepth diagram.toJson := diagram.fits_toJson 124
  obtain ⟨compact, pretty⟩ := fits.readsAs diagram.ofJson?_toJson
  refine ⟨compact, pretty, ?_⟩
  rw [Json.compact, write, String.toList_ofList]
  exact fits.legible.uncontrolled 0

end NetDecl.Diagram
