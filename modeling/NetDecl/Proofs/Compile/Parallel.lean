import Mathlib.Data.Finset.Card
import Mathlib.Data.Finset.Dedup
import NetDecl.Proofs.Compile.Sound
import NetDecl.Proofs.Compile.Visits

/-!
# Edges that run beside others

An edge runs beside another if both edges leave the same node and enter the same node.  The edges of
a net that run beside an edge in front of them are exactly those that the text is warned about.  The
warnings keep step with the edges in every turn, so that a line which declares no edge matters to
neither.
-/

namespace NetDecl

open LineMachine (Turn)

/-! ## Lists of edges -/

theorem length_dedup_append {α : Type} [DecidableEq α] (items : List α) (item : α) :
    (items ++ [item]).dedup.length = items.dedup.length + if item ∈ items then 0 else 1 := by
  rw [← List.card_toFinset, ← List.card_toFinset, List.toFinset_append, List.toFinset_cons,
    List.toFinset_nil, insert_empty_eq, Finset.union_comm, ← Finset.insert_eq,
    Finset.card_insert_eq_ite]
  by_cases mem : item ∈ items <;> simp [mem]

namespace Edge

/-- The edges that run beside an edge in front of them. -/
def parallels (edges : List Edge) : List Edge :=
  (edges.zipIdx.filter fun placed => placed.1.ends ∈ (edges.take placed.2).map ends).map Prod.fst

theorem mem_parallels_iff {edges : List Edge} {edge : Edge} :
    edge ∈ parallels edges ↔
      ∃ place, edges[place]? = some edge ∧ edge.ends ∈ (edges.take place).map ends := by
  simp only [parallels, List.mem_map, List.mem_filter, Prod.exists, List.mem_zipIdx_iff_getElem?,
    decide_eq_true_eq]
  constructor
  · rintro ⟨_, place, ⟨found, beside⟩, rfl⟩
    exact ⟨place, found, beside⟩
  · rintro ⟨place, found, beside⟩
    exact ⟨edge, place, ⟨found, beside⟩, rfl⟩

/-- Where no edge is listed twice, an edge runs beside one in front of the place where it is. -/
theorem mem_parallels_iff_exists_earlier {edges : List Edge} (nodup : edges.Nodup) {edge : Edge}
    {place : Nat} (found : edges[place]? = some edge) :
    edge ∈ parallels edges ↔
      ∃ earlier other, earlier < place ∧ edges[earlier]? = some other ∧ other.ends = edge.ends := by
  rw [mem_parallels_iff]
  constructor
  · rintro ⟨position, again, beside⟩
    have same : position = place :=
      (List.getElem?_inj (List.getElem?_eq_some_iff.1 again).1 nodup).1 (again.trans found.symm)
    subst same
    rcases List.mem_map.1 beside with ⟨other, mem, ends⟩
    rcases List.mem_take_iff_getElem.1 mem with ⟨earlier, inRange, rfl⟩
    rcases Nat.lt_min.1 inRange with ⟨before, listed⟩
    exact ⟨earlier, _, before, List.getElem?_eq_getElem listed, ends⟩
  · rintro ⟨earlier, other, before, otherFound, ends⟩
    have taken : (edges.take place)[earlier]? = some other := by
      rwa [List.getElem?_take_of_lt before]
    exact ⟨place, found, ends ▸ List.mem_map_of_mem (List.mem_of_getElem? taken)⟩

theorem parallels_sublist (edges : List Edge) : (parallels edges).Sublist edges := by
  have kept : (parallels edges).Sublist (edges.zipIdx.map Prod.fst) := List.filter_sublist.map _
  rwa [List.zipIdx_map_fst] at kept

/-- One more edge changes nothing for those in front of it. -/
theorem parallels_append (edges : List Edge) (edge : Edge) :
    parallels (edges ++ [edge]) =
      parallels edges ++ if edge.ends ∈ edges.map ends then [edge] else [] := by
  have front : (edges.zipIdx.filter fun placed =>
      placed.1.ends ∈ ((edges ++ [edge]).take placed.2).map ends) =
        edges.zipIdx.filter fun placed => placed.1.ends ∈ (edges.take placed.2).map ends := by
    apply List.filter_congr
    rintro ⟨other, place⟩ mem
    have inRange : place < edges.length :=
      (List.getElem?_eq_some_iff.1 (List.mem_zipIdx_iff_getElem?.1 mem)).1
    rw [List.take_append_of_le_length (Nat.le_of_lt inRange)]
  rw [parallels, List.zipIdx_append, List.filter_append, List.map_append, front, parallels]
  congr 1
  by_cases beside : edge.ends ∈ edges.map ends <;> simp [beside]

/-- All edges run beside another but the first with its ends. -/
theorem length_parallels (edges : List Edge) :
    (parallels edges).length + (edges.map ends).dedup.length = edges.length := by
  induction edges using List.reverseRecOn with
  | nil => rfl
  | append_singleton edges edge ih =>
    rw [parallels_append, List.map_append, List.map_singleton, length_dedup_append]
    split
    · rw [List.length_append, List.length_append, List.length_singleton]
      omega
    · rw [List.length_append, List.length_append, List.length_singleton, List.length_nil]
      omega

end Edge

/-! ## Turns -/

/-- The warnings about edges that run beside others. -/
def Diagnostic.parallels (diagnostics : List Diagnostic) : List Diagnostic :=
  diagnostics.filter fun diagnostic => diagnostic.code = .duplicateSourceTarget

theorem Diagnostic.parallels_append (front back : List Diagnostic) :
    parallels (front ++ back) = parallels front ++ parallels back :=
  List.filter_append ..

namespace LineMachine

variable {mark : String} {net after : Net} {row : Row} {rows : List Row}
  {words : List Word} {used : Option Edge} {fresh : List Diagnostic}

/-- Reading an edge does not warn about others beside it. -/
theorem parallels_of_readEdge (read : readEdge net row words = (used, fresh)) :
    Diagnostic.parallels fresh = [] := by
  rw [Diagnostic.parallels, List.filter_eq_nil_iff]
  intro diagnostic mem beside
  have code := of_decide_eq_true beside
  rcases of_mem_readEdge read mem with declared | ⟨-, rfl⟩
  · rw [code] at declared
    revert declared
    decide
  · cases code

/-- Only a row that declares an edge is warned about. -/
theorem parallels_of_source {first : Word} {rest : List Word} {part : Part}
    (sources : ∀ diagnostic ∈ fresh, Source mark net row rows diagnostic)
    (split : row.words = first :: rest) (found : Part.ofKeyword? first.text = some part)
    (notEdge : part ≠ .edge) : Diagnostic.parallels fresh = [] := by
  rw [Diagnostic.parallels, List.filter_eq_nil_iff]
  intro diagnostic mem beside
  have code := of_decide_eq_true beside
  rcases (sources diagnostic mem).exists_isCausedBy (by rw [code]; rfl) with ⟨issue, caused, rfl⟩
  cases issue with
  | parallel =>
    rcases caused with ⟨_, _, _, same, isEdge, -⟩
    cases split.symm.trans same
    exact notEdge (Option.some.inj (found.symm.trans isEdge))
  | unexpected | duplicated | conflicting | notFound | insufficient | discarded | foreign
  | listedAgain | memberless => cases code

/-- A turn declares no edge and warns of none, or it declares one and warns of it if it runs beside
another. -/
theorem Turn.edges_cases (turn : Turn mark net row rows fresh after) :
    (after.edges = net.edges ∧ Diagnostic.parallels fresh = []) ∨
      ∃ edge, after.edges = net.edges ++ [edge] ∧
        (Diagnostic.parallels fresh).map Diagnostic.message =
          if edge.ends ∈ net.edges.map Edge.ends then [(Issue.parallel edge.id).message]
          else [] := by
  have sources := turn.source
  cases turn with
  | blank | comment | unexpected => exact .inl ⟨rfl, rfl⟩
  | noHeader split found notEdge =>
    exact .inl ⟨rfl, parallels_of_source sources split found notEdge⟩
  | node split found | cutOff split found | memberless split found | group split found =>
    exact .inl ⟨rfl, parallels_of_source sources split found Part.noConfusion⟩
  | noEdge _ _ read => exact .inl ⟨rfl, parallels_of_readEdge read⟩
  | @edge _ _ edge _ _ _ read apart =>
    refine .inr ⟨edge, rfl, ?_⟩
    rw [if_neg apart, parallels_of_readEdge read]
    rfl
  | @parallel _ _ edge _ _ _ read beside =>
    refine .inr ⟨edge, rfl, ?_⟩
    rw [if_pos beside, Diagnostic.parallels_append, parallels_of_readEdge read]
    rfl

end LineMachine

/-! ## Whole texts -/

/-- The warnings are those of the edges that run beside others, in the same order. -/
def Net.WarnsOfParallels (net : Net) (diagnostics : List Diagnostic) : Prop :=
  (Diagnostic.parallels diagnostics).map Diagnostic.message =
    (Edge.parallels net.edges).map fun edge => (Issue.parallel edge.id).message

theorem Net.WarnsOfParallels.turn {mark : String} {net after : Net}
    {diagnostics fresh : List Diagnostic} {row : Row} {rows : List Row}
    (warns : net.WarnsOfParallels diagnostics) (turn : Turn mark net row rows fresh after) :
    after.WarnsOfParallels (diagnostics ++ fresh) := by
  unfold WarnsOfParallels at warns ⊢
  rw [Diagnostic.parallels_append, List.map_append, warns]
  rcases turn.edges_cases with ⟨edges, none⟩ | ⟨edge, edges, added⟩
  · rw [edges, none, List.map_nil, List.append_nil]
  · rw [edges, Edge.parallels_append, List.map_append, added]
    split <;> rfl

/-- The success of a text is no warning. -/
theorem parallels_compile (options : Options) (text : String) :
    Diagnostic.parallels (compile options text).diagnostics =
      Diagnostic.parallels ((Session.start text).run options.effectiveMark).diagnostics := by
  rw [compile, Session.outcome]
  dsimp only
  split
  · rename_i empty
    rw [List.isEmpty_iff.1 empty]
    rfl
  · rfl

theorem warnsOfParallels_compile (options : Options) (text : String) :
    (compile options text).net.WarnsOfParallels (compile options text).diagnostics := by
  rw [Net.WarnsOfParallels, parallels_compile]
  have run : Net.WarnsOfParallels ((Session.start text).run options.effectiveMark).registry.net
      ((Session.start text).run options.effectiveMark).diagnostics :=
    (Session.before_start text).run_induction rfl fun _ warns turn => warns.turn turn
  exact run

theorem Issue.message_parallel_inj {edge other : String} :
    (Issue.parallel edge).message = (Issue.parallel other).message ↔ edge = other :=
  String.append_right_inj _

section Warnings

variable (options : Options) (text : String)

theorem exists_warning_iff (message : String) :
    (∃ warning ∈ Diagnostic.parallels (compile options text).diagnostics,
        warning.message = message) ↔
      ∃ edge ∈ Edge.parallels (compile options text).net.edges,
        (Issue.parallel edge.id).message = message := by
  rw [← List.mem_map, warnsOfParallels_compile options text, List.mem_map]

/-- There is a warning about an edge exactly if it runs beside an edge in front of it. -/
theorem exists_warning_iff_exists_earlier {place : Nat} {edge : Edge}
    (found : (compile options text).net.edges[place]? = some edge) :
    (∃ warning ∈ Diagnostic.parallels (compile options text).diagnostics,
        warning.message = (Issue.parallel edge.id).message) ↔
      ∃ earlier other, earlier < place ∧
        (compile options text).net.edges[earlier]? = some other ∧ other.ends = edge.ends := by
  have ids := (sound_net_compile options text).wellFormed.edgeIds
  rw [exists_warning_iff, ← Edge.mem_parallels_iff_exists_earlier ids.of_map found]
  constructor
  · rintro ⟨other, beside, message⟩
    have same : other = edge := List.inj_on_of_nodup_map ids
      ((Edge.parallels_sublist _).subset beside) (List.mem_of_getElem? found)
      (Issue.message_parallel_inj.1 message)
    exact same ▸ beside
  · intro beside
    exact ⟨edge, beside, rfl⟩

/-- No two warnings are about the same edge. -/
theorem nodup_warnings :
    ((Diagnostic.parallels (compile options text).diagnostics).map Diagnostic.message).Nodup := by
  have ids : ((Edge.parallels (compile options text).net.edges).map Edge.id).Nodup :=
    (sound_net_compile options text).wellFormed.edgeIds.sublist
      ((Edge.parallels_sublist _).map Edge.id)
  rw [warnsOfParallels_compile options text]
  have messages := ids.map fun _ _ => Issue.message_parallel_inj.1
  rwa [List.map_map] at messages

theorem length_warnings :
    (Diagnostic.parallels (compile options text).diagnostics).length +
        ((compile options text).net.edges.map Edge.ends).dedup.length =
      (compile options text).net.edges.length := by
  have lengths := congrArg List.length (warnsOfParallels_compile options text)
  rw [List.length_map, List.length_map] at lengths
  rw [lengths, Edge.length_parallels]

end Warnings

/-- What a turn of a session does to the warnings is what it does to the edges. -/
theorem Session.Before.parallels_turn {session : Session} {row : Row} {rows : List Row}
    (before : session.Before (row :: rows)) (mark : String) :
    ((session.turn mark).registry.net.edges = session.registry.net.edges ∧
        Diagnostic.parallels (session.turn mark).diagnostics =
          Diagnostic.parallels session.diagnostics) ∨
      ∃ edge fresh, (session.turn mark).registry.net.edges =
          session.registry.net.edges ++ [edge] ∧
        Diagnostic.parallels (session.turn mark).diagnostics =
          Diagnostic.parallels session.diagnostics ++ fresh ∧
        fresh.map Diagnostic.message =
          if edge.ends ∈ session.registry.net.edges.map Edge.ends then
            [(Issue.parallel edge.id).message]
          else [] := by
  rcases before.turned_turn mark with ⟨fresh, turn, added⟩
  rw [added, Diagnostic.parallels_append]
  rcases turn.edges_cases with ⟨edges, none⟩ | ⟨edge, edges, messages⟩
  · left
    rw [none, List.append_nil]
    exact ⟨edges, rfl⟩
  · right
    exact ⟨edge, _, edges, rfl, messages⟩

/-- Whatever the text, it is warned about an edge of its net exactly if an edge in front of it
leaves the same node and enters the same node.  No other edges are warned about and none twice, so
that there are as many warnings as edges beyond the distinct pairs of ends.  Before each turn the
pairs that are looked up are those of the edges, and a turn that declares no edge changes neither
the edges nor the warnings. -/
theorem warns_of_parallels (options : Options) (text : String) :
    let outcome := compile options text
    let warnings := Diagnostic.parallels outcome.diagnostics
    (∀ (place : Nat) (edge : Edge), outcome.net.edges[place]? = some edge →
      ((∃ warning ∈ warnings, warning.message =
          "edge with same source and target already exist " ++ edge.id) ↔
        ∃ (earlier : Nat) (other : Edge), earlier < place ∧
          outcome.net.edges[earlier]? = some other ∧
          other.source = edge.source ∧ other.target = edge.target)) ∧
      (∀ warning ∈ warnings, ∃ edge ∈ outcome.net.edges,
        warning.message = "edge with same source and target already exist " ++ edge.id) ∧
      (warnings.map Diagnostic.message).Nodup ∧
      warnings.length + (outcome.net.edges.map Edge.ends).dedup.length =
        outcome.net.edges.length ∧
      ∀ session ∈ (Session.start text).turns options.effectiveMark,
        let after := session.turn options.effectiveMark
        (∀ source target, session.registry.connects source target = true ↔
          (source, target) ∈ session.registry.net.edges.map Edge.ends) ∧
        ((after.registry.net.edges = session.registry.net.edges ∧
            Diagnostic.parallels after.diagnostics = Diagnostic.parallels session.diagnostics) ∨
          ∃ edge fresh, after.registry.net.edges = session.registry.net.edges ++ [edge] ∧
            Diagnostic.parallels after.diagnostics =
              Diagnostic.parallels session.diagnostics ++ fresh ∧
            fresh.map Diagnostic.message =
              if edge.ends ∈ session.registry.net.edges.map Edge.ends then
                ["edge with same source and target already exist " ++ edge.id]
              else []) := by
  intro outcome warnings
  constructor
  · intro place edge found
    have warned := exists_warning_iff_exists_earlier options text found
    simp only [Edge.ends, Prod.mk.injEq] at warned
    exact warned
  constructor
  · intro warning mem
    rcases (exists_warning_iff options text warning.message).1 ⟨warning, mem, rfl⟩ with
      ⟨edge, beside, message⟩
    exact ⟨edge, (Edge.parallels_sublist _).subset beside, message.symm⟩
  constructor
  · exact nodup_warnings options text
  constructor
  · exact length_warnings options text
  · intro session visited after
    rcases (Session.before_start text).exists_row_of_mem_turns visited with
      ⟨row, rest, before, -⟩
    constructor
    · intro source target
      rw [before.indexed.connections, List.mem_map]
      simp only [Edge.ends, Prod.mk.injEq]
    · exact before.parallels_turn options.effectiveMark

/-- The second of two loops at a node is warned about. -/
theorem warns_of_parallels_at_loop :
    let outcome := compile .standard "node a\nedge l a a\nedge m a a"
    outcome.net.edges[1]? = some ⟨"m", 0, 0, ""⟩ ∧
      ∃ warning ∈ Diagnostic.parallels outcome.diagnostics,
        warning.message = "edge with same source and target already exist m" := by
  intro outcome
  have found : outcome.net.edges[1]? = some ⟨"m", 0, 0, ""⟩ := by decide +kernel
  have earlier : outcome.net.edges[0]? = some ⟨"l", 0, 0, ""⟩ := by decide +kernel
  constructor
  · exact found
  · exact ((warns_of_parallels .standard _).1 1 _ found).2
      ⟨0, _, Nat.zero_lt_one, earlier, rfl, rfl⟩

end NetDecl
