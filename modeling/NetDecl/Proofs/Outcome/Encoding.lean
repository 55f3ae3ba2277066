import NetDecl.Net.Integrity
import NetDecl.Outcome.Encoding
import NetDecl.Proofs.Json.Record
import NetDecl.Report.Summary

/-!
# Reading outcomes

Each record of an outcome can be written as an object or as an array, by itself and without regard
to the others.  The outcome is read from any such text as it was written.  The numbers in it have to
be words of 64 bits; nothing else is asked of it, so its indices may be out of range, and its
diagnostics may be none at all or have severities that do not go with their codes.
-/

namespace NetDecl

open Json

/-! ## Numbers -/

/-- The numbers of a position are words. -/
structure Position.Bounded (position : Position) : Prop where
  line : position.line < UInt64.size
  column : position.column < UInt64.size

/-- The numbers of a diagnostic are words. -/
structure Diagnostic.Bounded (diagnostic : Diagnostic) : Prop where
  position : diagnostic.position.Bounded
  length : diagnostic.length < UInt64.size

/-- The indices in a net are words. -/
structure Net.Bounded (net : Net) : Prop where
  owners : ∀ node ∈ net.nodes, ∀ index ∈ node.group, index < UInt64.size
  sources : ∀ edge ∈ net.edges, edge.source < UInt64.size
  targets : ∀ edge ∈ net.edges, edge.target < UInt64.size
  members : ∀ group ∈ net.groups, ∀ index ∈ group.members, index < UInt64.size

/-- The numbers of an outcome are words. -/
structure Outcome.Bounded (outcome : Outcome) : Prop where
  net : outcome.net.Bounded
  diagnostics : ∀ diagnostic ∈ outcome.diagnostics, diagnostic.Bounded

/-! ## Values -/

/-- The value is a position. -/
def Position.IsEncoded (position : Position) : Json → Prop :=
  IsRecord [("line", .natural position.line), ("col", .natural position.column)]

/-- The value is a diagnostic. -/
def Diagnostic.IsEncoded (diagnostic : Diagnostic) (value : Json) : Prop :=
  ∃ position, diagnostic.position.IsEncoded position ∧
    IsRecord [("severity", .string diagnostic.severity.name),
      ("code", .string diagnostic.code.name), ("position", position),
      ("length", .natural diagnostic.length), ("message", .string diagnostic.message)] value

/-- The value is a node. -/
def Node.IsEncoded (node : Node) : Json → Prop :=
  IsRecord [("id", .string node.id), ("label", .string node.label),
    ("group", .naturalOrNull node.group)]

/-- The value is an edge. -/
def Edge.IsEncoded (edge : Edge) : Json → Prop :=
  IsRecord [("id", .string edge.id), ("source", .natural edge.source),
    ("target", .natural edge.target), ("label", .string edge.label)]

/-- The value is a group. -/
def Group.IsEncoded (group : Group) : Json → Prop :=
  IsRecord [("id", .string group.id), ("label", .string group.label),
    ("members", .array (group.members.map .natural))]

/-- The value is a net. -/
def Net.IsEncoded (net : Net) (value : Json) : Prop :=
  ∃ nodes edges groups, List.Forall₂ Node.IsEncoded net.nodes nodes ∧
    List.Forall₂ Edge.IsEncoded net.edges edges ∧
    List.Forall₂ Group.IsEncoded net.groups groups ∧
    IsRecord [("nodes", .array nodes), ("edges", .array edges), ("groups", .array groups)] value

/-- The value is an outcome. -/
def Outcome.IsEncoded (outcome : Outcome) (value : Json) : Prop :=
  ∃ net diagnostics, outcome.net.IsEncoded net ∧
    List.Forall₂ Diagnostic.IsEncoded outcome.diagnostics diagnostics ∧
    IsRecord [("net", net), ("diagnostics", .array diagnostics)] value

/-! ## Decoding -/

theorem word?_natural {number : Nat} (bounded : number < UInt64.size) :
    word? (.natural number) = some number :=
  if_pos bounded

@[simp]
theorem Severity.ofName?_name (severity : Severity) : ofName? severity.name = some severity := by
  cases severity <;> rfl

@[simp]
theorem Code.ofName?_name (code : Code) : ofName? code.name = some code := by
  cases code <;> rfl

theorem Position.ofJson?_of_isEncoded {position : Position} (bounded : position.Bounded)
    {value : Json} (encoded : position.IsEncoded value) : ofJson? value = some position := by
  have fields : value.fields? ["line", "col"] = _ := IsRecord.fields?_eq encoded (by simp)
  simp [ofJson?, fields, word?_natural, bounded.line, bounded.column]

theorem Diagnostic.ofJson?_of_isEncoded {diagnostic : Diagnostic} (bounded : diagnostic.Bounded)
    {value : Json} (encoded : diagnostic.IsEncoded value) : ofJson? value = some diagnostic := by
  obtain ⟨position, placed, record⟩ := encoded
  have fields : value.fields? ["severity", "code", "position", "length", "message"] = _ :=
    record.fields?_eq (by simp)
  have place := Position.ofJson?_of_isEncoded bounded.position placed
  simp [ofJson?, fields, Severity.ofJson?, Code.ofJson?, choice?, place, string?,
    word?_natural bounded.length]

theorem Node.ofJson?_of_isEncoded {node : Node}
    (bounded : ∀ index ∈ node.group, index < UInt64.size) {value : Json}
    (encoded : node.IsEncoded value) : ofJson? value = some node := by
  have fields : value.fields? ["id", "label", "group"] = _ :=
    IsRecord.fields?_eq encoded (by simp)
  obtain ⟨id, label, group | index⟩ := node
  · simp [ofJson?, fields, string?, optionalField?, naturalOrNull, optional?]
  · have owner : word? (.natural index) = some index := word?_natural (bounded index rfl)
    simp [ofJson?, fields, string?, optionalField?, naturalOrNull, optional?, owner]

theorem Edge.ofJson?_of_isEncoded {edge : Edge} (source : edge.source < UInt64.size)
    (target : edge.target < UInt64.size) {value : Json} (encoded : edge.IsEncoded value) :
    ofJson? value = some edge := by
  have fields : value.fields? ["id", "source", "target", "label"] = _ :=
    IsRecord.fields?_eq encoded (by simp)
  simp [ofJson?, fields, string?, word?_natural source, word?_natural target]

theorem Group.ofJson?_of_isEncoded {group : Group}
    (bounded : ∀ index ∈ group.members, index < UInt64.size) {value : Json}
    (encoded : group.IsEncoded value) : ofJson? value = some group := by
  have fields : value.fields? ["id", "label", "members"] = _ :=
    IsRecord.fields?_eq encoded (by simp)
  have members : list? word? (.array (group.members.map .natural)) = some group.members :=
    list?_map fun index mem => word?_natural (bounded index mem)
  simp [ofJson?, fields, string?, members]

theorem Net.ofJson?_of_isEncoded {net : Net} (bounded : net.Bounded) {value : Json}
    (encoded : net.IsEncoded value) : ofJson? value = some net := by
  obtain ⟨nodes, edges, groups, nodesEncoded, edgesEncoded, groupsEncoded, record⟩ := encoded
  have fields : value.fields? ["nodes", "edges", "groups"] = _ := record.fields?_eq (by simp)
  have nodes := list?_of_forall₂ nodesEncoded fun node mem _ =>
    Node.ofJson?_of_isEncoded (bounded.owners node mem)
  have edges := list?_of_forall₂ edgesEncoded fun edge mem _ =>
    Edge.ofJson?_of_isEncoded (bounded.sources edge mem) (bounded.targets edge mem)
  have groups := list?_of_forall₂ groupsEncoded fun group mem _ =>
    Group.ofJson?_of_isEncoded (bounded.members group mem)
  simp [ofJson?, fields, nodes, edges, groups]

theorem Outcome.ofJson?_of_isEncoded {outcome : Outcome} (bounded : outcome.Bounded)
    {value : Json} (encoded : outcome.IsEncoded value) : ofJson? value = some outcome := by
  obtain ⟨net, diagnostics, netEncoded, diagnosticsEncoded, record⟩ := encoded
  have fields : value.fields? ["net", "diagnostics"] = _ := record.fields?_eq (by simp)
  have net := Net.ofJson?_of_isEncoded bounded.net netEncoded
  have diagnostics := list?_of_forall₂ diagnosticsEncoded fun diagnostic mem _ =>
    Diagnostic.ofJson?_of_isEncoded (bounded.diagnostics diagnostic mem)
  simp [ofJson?, fields, net, diagnostics]

/-! ## Texts -/

section Texts

variable {bound : Nat} {value : Json}

theorem Position.IsEncoded.fits {position : Position} (encoded : position.IsEncoded value)
    (bounded : position.Bounded) : Fits (bound + 1) value := by
  apply IsRecord.fits encoded
  simp only [List.forall_mem_cons]
  exact ⟨fits_natural bounded.line, fits_natural bounded.column, nofun⟩

theorem Diagnostic.IsEncoded.fits {diagnostic : Diagnostic} (encoded : diagnostic.IsEncoded value)
    (bounded : diagnostic.Bounded) : Fits (bound + 2) value := by
  obtain ⟨position, placed, record⟩ := encoded
  apply record.fits
  simp only [List.forall_mem_cons]
  exact ⟨fits_string _, fits_string _, placed.fits bounded.position, fits_natural bounded.length,
    fits_string _, nofun⟩

theorem Node.IsEncoded.fits {node : Node} (encoded : node.IsEncoded value)
    (bounded : ∀ index ∈ node.group, index < UInt64.size) : Fits (bound + 1) value := by
  have owner : Fits bound (naturalOrNull node.group) := by
    obtain ⟨id, label, group | index⟩ := node
    · exact fits_null
    · exact fits_natural (bounded index rfl)
  apply IsRecord.fits encoded
  simp only [List.forall_mem_cons]
  exact ⟨fits_string _, fits_string _, owner, nofun⟩

theorem Edge.IsEncoded.fits {edge : Edge} (encoded : edge.IsEncoded value)
    (source : edge.source < UInt64.size) (target : edge.target < UInt64.size) :
    Fits (bound + 1) value := by
  apply IsRecord.fits encoded
  simp only [List.forall_mem_cons]
  exact ⟨fits_string _, fits_natural source, fits_natural target, fits_string _, nofun⟩

theorem Group.IsEncoded.fits {group : Group} (encoded : group.IsEncoded value)
    (bounded : ∀ index ∈ group.members, index < UInt64.size) : Fits (bound + 2) value := by
  have members : Fits (bound + 1) (.array (group.members.map .natural)) :=
    fits_array (List.forall_mem_map.2 fun index mem => fits_natural (bounded index mem))
  apply IsRecord.fits encoded
  simp only [List.forall_mem_cons]
  exact ⟨fits_string _, fits_string _, members, nofun⟩

theorem Net.IsEncoded.fits {net : Net} (encoded : net.IsEncoded value) (bounded : net.Bounded) :
    Fits (bound + 4) value := by
  obtain ⟨nodes, edges, groups, nodesEncoded, edgesEncoded, groupsEncoded, record⟩ := encoded
  have nodes : Fits (bound + 3) (.array nodes) := fits_array_of_forall₂ nodesEncoded
    fun node mem _ encoded => encoded.fits (bounded.owners node mem)
  have edges : Fits (bound + 3) (.array edges) := fits_array_of_forall₂ edgesEncoded
    fun edge mem _ encoded => encoded.fits (bounded.sources edge mem) (bounded.targets edge mem)
  have groups : Fits (bound + 3) (.array groups) := fits_array_of_forall₂ groupsEncoded
    fun group mem _ encoded => encoded.fits (bounded.members group mem)
  apply record.fits
  simp only [List.forall_mem_cons]
  exact ⟨nodes, edges, groups, nofun⟩

theorem Outcome.IsEncoded.fits {outcome : Outcome} (encoded : outcome.IsEncoded value)
    (bounded : outcome.Bounded) : Fits (bound + 5) value := by
  obtain ⟨net, diagnostics, netEncoded, diagnosticsEncoded, record⟩ := encoded
  have diagnostics : Fits (bound + 4) (.array diagnostics) :=
    fits_array_of_forall₂ diagnosticsEncoded
      fun diagnostic mem _ encoded => encoded.fits (bounded.diagnostics diagnostic mem)
  apply record.fits
  simp only [List.forall_mem_cons]
  exact ⟨netEncoded.fits bounded.net, diagnostics, nofun⟩

/-! ## Reading -/

theorem Position.IsEncoded.readsAs {position : Position} (encoded : position.IsEncoded value)
    (bounded : position.Bounded) : ReadsAs Position.ofJson? value position :=
  (encoded.fits bounded).readsAs (Position.ofJson?_of_isEncoded bounded encoded)

theorem Diagnostic.IsEncoded.readsAs {diagnostic : Diagnostic}
    (encoded : diagnostic.IsEncoded value) (bounded : diagnostic.Bounded) :
    ReadsAs Diagnostic.ofJson? value diagnostic :=
  (encoded.fits bounded).readsAs (Diagnostic.ofJson?_of_isEncoded bounded encoded)

theorem Node.IsEncoded.readsAs {node : Node} (encoded : node.IsEncoded value)
    (bounded : ∀ index ∈ node.group, index < UInt64.size) : ReadsAs Node.ofJson? value node :=
  (encoded.fits bounded).readsAs (Node.ofJson?_of_isEncoded bounded encoded)

theorem Edge.IsEncoded.readsAs {edge : Edge} (encoded : edge.IsEncoded value)
    (source : edge.source < UInt64.size) (target : edge.target < UInt64.size) :
    ReadsAs Edge.ofJson? value edge :=
  (encoded.fits source target).readsAs (Edge.ofJson?_of_isEncoded source target encoded)

theorem Group.IsEncoded.readsAs {group : Group} (encoded : group.IsEncoded value)
    (bounded : ∀ index ∈ group.members, index < UInt64.size) :
    ReadsAs Group.ofJson? value group :=
  (encoded.fits bounded).readsAs (Group.ofJson?_of_isEncoded bounded encoded)

theorem Net.IsEncoded.readsAs {net : Net} (encoded : net.IsEncoded value) (bounded : net.Bounded) :
    ReadsAs Net.ofJson? value net :=
  (encoded.fits bounded).readsAs (Net.ofJson?_of_isEncoded bounded encoded)

theorem Outcome.IsEncoded.readsAs {outcome : Outcome} (encoded : outcome.IsEncoded value)
    (bounded : outcome.Bounded) : ReadsAs Outcome.ofJson? value outcome :=
  (encoded.fits bounded).readsAs (Outcome.ofJson?_of_isEncoded bounded encoded)

end Texts

/-! ## Outcomes -/

theorem Position.isEncoded_toJson (position : Position) : position.IsEncoded position.toJson :=
  .inl rfl

theorem Diagnostic.isEncoded_toJson (diagnostic : Diagnostic) :
    diagnostic.IsEncoded diagnostic.toJson :=
  ⟨_, diagnostic.position.isEncoded_toJson, .inl rfl⟩

theorem Net.isEncoded_toJson (net : Net) : net.IsEncoded net.toJson := by
  refine ⟨_, _, _, ?_, ?_, ?_, .inl rfl⟩
  · exact List.forall₂_map_right_iff.2 (List.forall₂_same.2 fun _ _ => .inl rfl)
  · exact List.forall₂_map_right_iff.2 (List.forall₂_same.2 fun _ _ => .inl rfl)
  · exact List.forall₂_map_right_iff.2 (List.forall₂_same.2 fun _ _ => .inl rfl)

theorem Outcome.isEncoded_toJson (outcome : Outcome) : outcome.IsEncoded outcome.toJson := by
  refine ⟨_, _, outcome.net.isEncoded_toJson, ?_, .inl rfl⟩
  exact List.forall₂_map_right_iff.2 (List.forall₂_same.2 fun diagnostic _ =>
    Diagnostic.isEncoded_toJson diagnostic)

/-- An outcome is read from its texts as it was written, also if any of its records are arrays, and
all that is reported about it stays the same.  The records in it are read just so where they stand
by themselves. -/
theorem Outcome.readsAs_of_isEncoded {outcome : Outcome} (bounded : outcome.Bounded) :
    outcome.IsEncoded outcome.toJson ∧
    (∀ value, outcome.IsEncoded value → ReadsAs ofJson? value outcome) ∧
    (∀ value, outcome.net.IsEncoded value → ReadsAs Net.ofJson? value outcome.net) ∧
    (∀ node ∈ outcome.net.nodes, ∀ value, node.IsEncoded value → ReadsAs Node.ofJson? value node) ∧
    (∀ edge ∈ outcome.net.edges, ∀ value, edge.IsEncoded value → ReadsAs Edge.ofJson? value edge) ∧
    (∀ group ∈ outcome.net.groups, ∀ value,
      group.IsEncoded value → ReadsAs Group.ofJson? value group) ∧
    (∀ diagnostic ∈ outcome.diagnostics,
      (∀ value, diagnostic.IsEncoded value → ReadsAs Diagnostic.ofJson? value diagnostic) ∧
      ∀ value, diagnostic.position.IsEncoded value →
        ReadsAs Position.ofJson? value diagnostic.position) ∧
    ∀ decoded, (read? outcome.toJson.compact).bind ofJson? = some decoded →
      decoded.summary.compact = outcome.summary.compact ∧ decoded.entries = outcome.entries ∧
        decoded.display = outcome.display ∧ decoded.tally = outcome.tally ∧
        decoded.net.faults = outcome.net.faults := by
  refine ⟨outcome.isEncoded_toJson, fun value encoded => encoded.readsAs bounded,
    fun value encoded => encoded.readsAs bounded.net, ?_, ?_, ?_, ?_, ?_⟩
  · exact fun node mem value encoded => encoded.readsAs (bounded.net.owners node mem)
  · exact fun edge mem value encoded =>
      encoded.readsAs (bounded.net.sources edge mem) (bounded.net.targets edge mem)
  · exact fun group mem value encoded => encoded.readsAs (bounded.net.members group mem)
  · intro diagnostic mem
    have words := bounded.diagnostics diagnostic mem
    exact ⟨fun value encoded => encoded.readsAs words,
      fun value encoded => encoded.readsAs words.position⟩
  · intro decoded read
    rw [(outcome.isEncoded_toJson.readsAs bounded).1, Option.some.injEq] at read
    rw [← read]
    exact ⟨rfl, rfl, rfl, rfl, rfl⟩

/-- An outcome written with arrays only, with indices and numbers that are as large as they can be
and a severity that does not go with its code. -/
theorem Outcome.readsAs_arrays :
    let largest := 18446744073709551615
    let outcome : Outcome :=
      ⟨⟨[⟨"a", "", some largest⟩], [⟨"e", 0, largest, "E"⟩], [⟨"g", "\u0000", [largest, 0]⟩]⟩,
        [⟨.error, .success, ⟨largest, 0⟩, largest, "\""⟩]⟩
    outcome.Bounded ∧
      ReadsAs ofJson?
        (.array [.array [.array [.array [.string "a", .string "", .natural largest]],
            .array [.array [.string "e", .natural 0, .natural largest, .string "E"]],
            .array [.array [.string "g", .string "\u0000",
              .array [.natural largest, .natural 0]]]],
          .array [.array [.string "Error", .string "Success",
            .array [.natural largest, .natural 0], .natural largest, .string "\""]]])
        outcome := by
  intro largest outcome
  have bounded : outcome.Bounded := by
    constructor
    · constructor <;> decide
    · exact List.forall_mem_singleton.2 ⟨⟨by decide, by decide⟩, by decide⟩
  refine ⟨bounded, (readsAs_of_isEncoded bounded).2.1 _ ⟨_, _, ⟨_, _, _, ?_, ?_, ?_, .inr rfl⟩, ?_,
    .inr rfl⟩⟩
  · exact .cons (.inr rfl) .nil
  · exact .cons (.inr rfl) .nil
  · exact .cons (.inr rfl) .nil
  · exact .cons ⟨_, .inr rfl, .inr rfl⟩ .nil

end NetDecl
