import NetDecl.Proofs.Compile.Refinement
import NetDecl.Proofs.LineMachine.Spelled

/-!
# The nets of texts

The net that a text declares is well-formed, whatever the text.  Its groups have members, its names
are words of the text, and no member of a group has the name of the keyword that ends groups.
-/

namespace NetDecl

theorem sound_net_compile (options : Options) (text : String) :
    (compile options text).net.Sound := by
  rw [net_compile]
  exact LineMachine.sound_run _ _

theorem spelled_net_compile (options : Options) (text : String) :
    (compile options text).net.Spelled := by
  rw [net_compile]
  exact LineMachine.spelled_run _ _

/-- Members of groups in a sound net do not have the name of the keyword that ends groups. -/
theorem Net.Sound.sameWord_eq_false {net : Net} (sound : net.Sound) {group : Group}
    (groupMem : group ∈ net.groups) {member : Node} (mem : member ∈ net.members group) :
    Text.sameWord member.id groupEnd = false := by
  obtain ⟨index, listed, found⟩ := List.mem_filterMap.1 mem
  exact sound.named group groupMem index listed member found

/-- The net of a text has no faults: it is well-formed.  Its groups have members, none of which is
named like the keyword that ends groups, and its names and labels are words of the text. -/
theorem faults_compile_eq_nil (options : Options) (text : String) :
    (compile options text).net.faults = [] ∧
      (compile options text).net.WellFormed ∧
      (∀ group ∈ (compile options text).net.groups, group.members ≠ [] ∧
        ∀ member ∈ (compile options text).net.members group,
          Text.sameWord member.id groupEnd = false) ∧
      (compile options text).net.Spelled := by
  have sound := sound_net_compile options text
  have groups : ∀ group ∈ (compile options text).net.groups, group.members ≠ [] ∧
      ∀ member ∈ (compile options text).net.members group,
        Text.sameWord member.id groupEnd = false := by
    intro group groupMem
    constructor
    · exact sound.filled group groupMem
    · intro member mem
      exact sound.sameWord_eq_false groupMem mem
  have faultless := Net.faults_eq_nil_iff_wellFormed.2 sound.wellFormed
  exact ⟨faultless, sound.wellFormed, groups, spelled_net_compile options text⟩

end NetDecl
