import NetDecl.Files.Tree
import NetDecl.Proofs.Files.Written

/-!
# Trees are lawful

A file that is put into a tree is found at every path that led to it before.  On the way to the file
there are only directories, and they stay what they are.
-/

namespace NetDecl.Files

theorem bind_eq_ok_iff {ε α β : Type} {first : Except ε α} {next : α → Except ε β} {value : β} :
    first >>= next = .ok value ↔ ∃ between, first = .ok between ∧ next between = .ok value := by
  cases first with
  | error obstacle => exact ⟨nofun, nofun⟩
  | ok between => simp [bind, Except.bind]

/-! ## Names -/

theorem singleton_append_ne_empty (char : Char) (text : String) :
    String.singleton char ++ text ≠ "" := by
  intro empty
  have chars := congrArg String.toList empty
  simp [String.toList_append] at chars

/-- The last name of a path that does not end with a slash is not empty. -/
theorem names_go_eq_append {chars : List Char} (ne : chars ≠ [])
    (named : chars.getLast? ≠ some '/') :
    ∃ front last, last ≠ "" ∧ names.go chars = front ++ [last] := by
  induction chars with
  | nil => exact absurd rfl ne
  | cons char rest ih =>
      by_cases slash : char = '/'
      · have more : rest ≠ [] := by
          rintro rfl
          exact named (congrArg some slash)
        rw [List.getLast?_cons_of_ne_nil more] at named
        obtain ⟨front, last, nonempty, split⟩ := ih more named
        exact ⟨"" :: front, last, nonempty, by rw [names.go, if_pos slash, split]; rfl⟩
      · rw [names.go, if_neg slash]
        by_cases more : rest = []
        · subst more
          exact ⟨[], _, singleton_append_ne_empty char "", rfl⟩
        · rw [List.getLast?_cons_of_ne_nil more] at named
          obtain ⟨front, last, nonempty, split⟩ := ih more named
          rw [split]
          cases front with
          | nil => exact ⟨[], _, singleton_append_ne_empty char last, rfl⟩
          | cons name front =>
              exact ⟨(String.singleton char ++ name) :: front, last, nonempty, rfl⟩

theorem exists_names_eq_append {path : String} (ne : path ≠ "")
    (named : path.endsWith '/' = false) :
    ∃ front last, last ≠ "" ∧ names path = front ++ [last] := by
  rw [String.endsWith_char_eq_getLast?] at named
  exact names_go_eq_append (fun empty => ne (String.toList_eq_nil_iff.1 empty))
    (ne_of_beq_false named)

theorem dropTrailing_append {front : List String} {last : String} (nonempty : last ≠ "") :
    ((front ++ [last]).reverse.dropWhile (· = "")).reverse = front ++ [last] := by
  simp [nonempty]

namespace Tree

/-! ## Paths -/

section Paths
variable {tree : Tree} {path : String} {place next : Place}

/-- A path that can be followed is neither empty nor too long. -/
theorem follow_eq_ok_iff {steps : List String} :
    tree.follow path steps = .ok place ↔
      (path ≠ "" ∧ path.utf8ByteSize < pathLimit) ∧
        steps.foldlM tree.enter (if path.startsWith '/' then [] else tree.workingDirectory) =
          .ok place := by
  unfold follow
  split
  case isTrue empty => simp [empty]
  case isFalse notEmpty =>
    split
    case isTrue long => simp [Nat.not_lt.2 long]
    case isFalse short => simp [notEmpty, Nat.lt_of_not_le short]

theorem follow_concat {front : List String} {last : String} {upper : Place}
    (followed : tree.follow path front = .ok upper) (entered : tree.enter upper last = .ok place) :
    tree.follow path (front ++ [last]) = .ok place := by
  rw [follow_eq_ok_iff] at followed ⊢
  refine ⟨followed.1, ?_⟩
  rw [List.foldlM_append, bind_eq_ok_iff]
  refine ⟨upper, followed.2, ?_⟩
  rw [List.foldlM_cons, entered]
  rfl

/-- A step is made from a directory. -/
theorem exists_directory_of_enter {name : String} (entered : tree.enter place name = .ok next) :
    ∃ barrier?, tree.item? place = some (.directory barrier?) := by
  unfold enter at entered
  split at entered
  case h_1 => cases entered
  case h_2 => cases entered
  case h_3 => cases entered
  case h_4 barrier? directory => exact ⟨barrier?, directory⟩

theorem eq_of_enter_dot (entered : tree.enter place "." = .ok next) : next = place := by
  obtain ⟨barrier?, directory⟩ := exists_directory_of_enter entered
  rw [enter, directory] at entered
  exact (Except.ok.inj entered).symm

theorem eq_of_makeFile {made : Place} (makes : tree.makeFile place = .ok (.file made)) :
    made = place := by
  unfold makeFile at makes
  split at makes
  case h_5 => cases makes; rfl
  all_goals cases makes

theorem ne_file_of_device (device : Device) (file : Place) : device.target ≠ .ok (.file file) := by
  cases device <;> exact nofun

/-- What leads to a file: the directory that the file is in, and its name there. -/
theorem destination_eq_file (led : tree.destination path = .ok (.file place)) :
    ∃ front last upper, names path = front ++ [last] ∧ tree.follow path front = .ok upper ∧
      tree.enter upper last = .ok place ∧
      ∀ barrier?, tree.item? place ≠ some (.directory barrier?) := by
  simp only [destination, bind_eq_ok_iff] at led
  obtain ⟨upper, followed, same, entered, led⟩ := led
  obtain rfl := eq_of_enter_dot entered
  have ne : path ≠ "" := (follow_eq_ok_iff.1 followed).1.1
  split at led
  case isTrue => cases led
  case isFalse named =>
    obtain ⟨front, last, nonempty, divided⟩ :=
      exists_names_eq_append ne (eq_false_of_ne_true named)
    -- Without a slash at its end, the path has no empty names at its end either.
    rw [divided, dropTrailing_append nonempty, List.dropLast_concat] at followed
    rw [divided, dropTrailing_append nonempty, List.getLast?_concat, Option.getD_some,
      bind_eq_ok_iff] at led
    obtain ⟨reached, lastEntered, led⟩ := led
    refine ⟨front, last, same, divided, followed, ?_⟩
    split at led
    case h_1 missing =>
      obtain rfl := eq_of_makeFile led
      exact ⟨lastEntered, fun barrier? directory => nomatch missing.symm.trans directory⟩
    case h_2 => cases led
    case h_3 content found =>
      cases led
      exact ⟨lastEntered, fun barrier? directory => nomatch found.symm.trans directory⟩
    case h_4 device _ => exact absurd led (ne_file_of_device device place)

end Paths

/-! ## Content and directories -/

section Put
variable {tree : Tree} {place : Place} {content : ByteArray}
  (notDirectory : ∀ barrier?, tree.item? place ≠ some (.directory barrier?))
include notDirectory

/-- What was put at a place is there, and everything else is as it was. -/
theorem item?_put (other : Place) :
    (tree.put place content).item? other =
      if other = place then some (.file content) else tree.item? other := by
  have notRoot : place ≠ [] := by
    rintro rfl
    exact notDirectory none rfl
  by_cases same : other = place
  · subst same
    rw [item?, if_neg notRoot, if_pos rfl, put, List.lookup_cons_self]
  · have apart : (other == place) = false := beq_false_of_ne same
    simp only [item?, put, List.lookup_cons, apart, if_neg same]

theorem content?_put (other : Place) :
    (tree.put place content).content? other =
      if other = place then some content else tree.content? other := by
  by_cases same : other = place
  · simp only [Tree.content?, item?_put notDirectory, if_pos same]
  · simp only [Tree.content?, item?_put notDirectory, if_neg same]

/-- A directory stays one. -/
theorem item?_put_of_directory {other : Place} {barrier? : Option Obstacle}
    (directory : tree.item? other = some (.directory barrier?)) :
    (tree.put place content).item? other = some (.directory barrier?) := by
  have ne : other ≠ place := by
    rintro rfl
    exact notDirectory barrier? directory
  rw [item?_put notDirectory, if_neg ne, directory]

/-- A step that can be made can be made after something was put anywhere but at a directory. -/
theorem enter_put {start next : Place} {name : String}
    (entered : tree.enter start name = .ok next) :
    (tree.put place content).enter start name = .ok next := by
  obtain ⟨barrier?, directory⟩ := exists_directory_of_enter entered
  rw [enter, directory] at entered
  rw [enter, item?_put_of_directory notDirectory directory]
  exact entered

theorem foldlM_enter_put {steps : List String} {first last : Place}
    (followed : steps.foldlM tree.enter first = .ok last) :
    steps.foldlM (tree.put place content).enter first = .ok last := by
  induction steps generalizing first with
  | nil => exact followed
  | cons name steps ih =>
      rw [List.foldlM_cons, bind_eq_ok_iff] at followed ⊢
      obtain ⟨next, entered, followed⟩ := followed
      exact ⟨next, enter_put notDirectory entered, ih followed⟩

theorem follow_put {path : String} {steps : List String} {last : Place}
    (followed : tree.follow path steps = .ok last) :
    (tree.put place content).follow path steps = .ok last := by
  rw [follow_eq_ok_iff] at followed ⊢
  exact followed.imp_right (foldlM_enter_put notDirectory)

end Put

/-! ## Writing -/

section Writing
variable {tree : Tree} {path text : String} {place : Place}

/-- What is put where a path leads to is found at the path. -/
theorem find_put {content : ByteArray} (led : tree.destination path = .ok (.file place)) :
    (tree.put place content).find path = .ok (.content content) := by
  obtain ⟨front, last, upper, divided, followed, entered, notDirectory⟩ := destination_eq_file led
  have reached : (tree.put place content).follow path (names path) = .ok place := by
    rw [divided]
    exact follow_concat (follow_put notDirectory followed) (enter_put notDirectory entered)
  have found : (tree.put place content).item? place = some (.file content) := by
    rw [item?_put notDirectory, if_pos rfl]
  simp only [find, reached, bind, Except.bind, found]
  rfl

theorem write_of_file (led : tree.destination path = .ok (.file place)) :
    tree.write path text = ⟨none, "", tree.put place text.toUTF8⟩ := by
  rw [write, led]

theorem write_of_standardOutput (led : tree.destination path = .ok .standardOutput) :
    tree.write path text = ⟨none, text, tree⟩ := by
  rw [write, led]

/-- What is not written to a file leaves the tree as it is. -/
theorem files_write_of_ne (other : ∀ place, tree.destination path ≠ .ok (.file place)) :
    (tree.write path text).files = tree := by
  unfold write
  split
  case h_2 place led => exact absurd led (other place)
  all_goals rfl

/-- What is written to a file takes the place of its content, and of no other. -/
theorem content?_write_of_file (led : tree.destination path = .ok (.file place)) (other : Place) :
    (tree.write path text).files.content? other =
      if other = place then some text.toUTF8 else tree.content? other := by
  obtain ⟨_, _, _, _, _, _, notDirectory⟩ := destination_eq_file led
  rw [write_of_file led]
  exact content?_put notDirectory other

theorem destination_of_changed
    (changed : (tree.write path text).files.content? place ≠ tree.content? place) :
    tree.destination path = .ok (.file place) := by
  by_cases led : ∃ file, tree.destination path = .ok (.file file)
  · obtain ⟨file, led⟩ := led
    rw [content?_write_of_file led] at changed
    have same : place = file := Decidable.byContradiction fun other => changed (if_neg other)
    rw [same, led]
  · rw [files_write_of_ne fun file is => led ⟨file, is⟩] at changed
    exact absurd rfl changed

theorem find_write_of_file (led : tree.destination path = .ok (.file place)) :
    (tree.write path text).files.find path = .ok (.content text.toUTF8) := by
  rw [write_of_file led]
  exact find_put led

theorem printed_write_of_ne (other : tree.destination path ≠ .ok .standardOutput) :
    (tree.write path text).printed = "" := by
  unfold write
  split
  case h_3 led => exact absurd led other
  all_goals rfl

theorem target_eq_file_iff :
    tree.target path = .file place ↔ tree.destination path = .ok (.file place) := by
  unfold target
  cases tree.destination path <;> simp

theorem target_eq_standardOutput_iff :
    tree.target path = .standardOutput ↔ tree.destination path = .ok .standardOutput := by
  unfold target
  cases tree.destination path <;> simp

/-- Trees have the laws of writing. -/
theorem lawful_system : system.Lawful where
  target_of_changed _ _ _ _ changed := target_eq_file_iff.2 (destination_of_changed changed)
  content?_of_written _ _ _ _ led _ :=
    (content?_write_of_file (target_eq_file_iff.1 led) _).trans (if_pos rfl)
  find_of_written _ _ _ _ _ led _ found :=
    Except.ok.inj (found.symm.trans (find_write_of_file (target_eq_file_iff.1 led)))
  printed_of_written _ _ _ led _ :=
    congrArg Written.printed (write_of_standardOutput (target_eq_standardOutput_iff.1 led))
  printed_eq_empty _ _ _ other := printed_write_of_ne (mt target_eq_standardOutput_iff.2 other)

end Writing

end Tree

end NetDecl.Files
