import NetDecl.Files

/-!
# Writing files

What is documented of writing to a path is the same in every system, and stated here as its laws: a
text that is written to a file takes the place of all that was in the file, a text that is written
to the standard output is printed, and nothing else is touched.  Whether a text can be written is
left to the system.
-/

namespace NetDecl.Files

theorem text?_toUTF8 (text : String) : text? text.toUTF8 = .ok text := by
  have valid : String.fromUTF8? text.toUTF8 = some text := dif_pos text.isValidUTF8
  rw [text?, valid]

namespace System

/-! ## Laws -/

/-- What holds of writing in every system. -/
structure Lawful (system : System) : Prop where
  /-- Writing to a path changes no file but the one that the path leads to, even if it fails. -/
  target_of_changed : ∀ files path text file,
    system.content? (system.write files path text).files file ≠ system.content? files file →
      system.target files path = .file file
  /-- A text that has been written to a file is all that is in the file. -/
  content?_of_written : ∀ files path text file,
    system.target files path = .file file → (system.write files path text).obstacle? = none →
      system.content? (system.write files path text).files file = some text.toUTF8
  /-- It is all that is read at the path, if the path can be read. -/
  find_of_written : ∀ files path text file source,
    system.target files path = .file file → (system.write files path text).obstacle? = none →
      system.find (system.write files path text).files path = .ok source →
        source = .content text.toUTF8
  /-- A text that has been written to the standard output is printed. -/
  printed_of_written : ∀ files path text,
    system.target files path = .standardOutput → (system.write files path text).obstacle? = none →
      (system.write files path text).printed = text
  /-- Nothing is printed by writing anywhere else. -/
  printed_eq_empty : ∀ files path text,
    system.target files path ≠ .standardOutput → (system.write files path text).printed = ""

theorem Lawful.content?_write_of_ne {system : System} (lawful : system.Lawful)
    {files : system.State} {path text : String} {file : system.File}
    (other : system.target files path ≠ .file file) :
    system.content? (system.write files path text).files file = system.content? files file :=
  Classical.byContradiction fun changed => other (lawful.target_of_changed _ _ _ _ changed)

/-! ## Files that are gained -/

/-- The file has the content afterwards, and had not before. -/
def Gains (system : System) (before after : system.State) (file : system.File)
    (content : ByteArray) : Prop :=
  system.content? after file = some content ∧ system.content? before file ≠ some content

theorem not_gains_self (system : System) (files : system.State) (file : system.File)
    (content : ByteArray) : ¬system.Gains files files file content :=
  fun gains => gains.2 gains.1

/-- Among both files a text can be written to a path, which leads to the same place, with the same
content if that is a file. -/
structure AlikeAt (system : System) (first second : system.State) (path text : String) : Prop where
  target_eq : system.target first path = system.target second path
  content?_eq : ∀ file, system.target first path = .file file →
    system.content? first file = system.content? second file
  first_written : (system.write first path text).obstacle? = none
  second_written : (system.write second path text).obstacle? = none

namespace AlikeAt

variable {system : System} {first second : system.State} {path text : String}
  (lawful : system.Lawful) (alike : system.AlikeAt first second path text)
include lawful alike

theorem printed_eq :
    (system.write first path text).printed = (system.write second path text).printed := by
  by_cases output : system.target first path = .standardOutput
  · rw [lawful.printed_of_written _ _ _ output alike.first_written,
      lawful.printed_of_written _ _ _ (alike.target_eq ▸ output) alike.second_written]
  · rw [lawful.printed_eq_empty _ _ _ output,
      lawful.printed_eq_empty _ _ _ (alike.target_eq ▸ output)]

theorem gains_iff (file : system.File) (content : ByteArray) :
    system.Gains first (system.write first path text).files file content ↔
      system.Gains second (system.write second path text).files file content := by
  by_cases led : system.target first path = .file file
  · rw [Gains, Gains, alike.content?_eq file led,
      lawful.content?_of_written _ _ _ _ led alike.first_written,
      lawful.content?_of_written _ _ _ _ (alike.target_eq ▸ led) alike.second_written]
  · rw [Gains, Gains, lawful.content?_write_of_ne led,
      lawful.content?_write_of_ne (alike.target_eq ▸ led)]
    exact iff_of_false (system.not_gains_self first file content)
      (system.not_gains_self second file content)

end AlikeAt

end System

end NetDecl.Files
