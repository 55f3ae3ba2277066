import NetDecl.Proofs.Json.Reader

/-!
# The characters of a JSON text

The compact text of a value has no control characters, whatever the texts in the value hold.  So it
is a single line.
-/

namespace NetDecl.Json

@[simp]
theorem Layout.lineStart_compact (depth : Nat) : Layout.compact.lineStart depth = [] :=
  rfl

@[simp]
theorem Layout.colon_compact : Layout.compact.colon = [':'] :=
  rfl

/-- There are no control characters in a text. -/
def Uncontrolled (text : List Char) : Prop :=
  ∀ char ∈ text, ' ' ≤ char

instance (text : List Char) : Decidable (Uncontrolled text) :=
  inferInstanceAs (Decidable (∀ char ∈ text, ' ' ≤ char))

@[simp]
theorem uncontrolled_nil : Uncontrolled [] :=
  nofun

@[simp]
theorem uncontrolled_cons {char : Char} {text : List Char} :
    Uncontrolled (char :: text) ↔ ' ' ≤ char ∧ Uncontrolled text :=
  List.forall_mem_cons

@[simp]
theorem uncontrolled_append {front back : List Char} :
    Uncontrolled (front ++ back) ↔ Uncontrolled front ∧ Uncontrolled back :=
  List.forall_mem_append

theorem uncontrolled_literal (text : String) : Uncontrolled (literal text) :=
  fun _ mem => space_le_of_mem_literal mem

theorem uncontrolled_toDigits (value : Nat) : Uncontrolled (Nat.toDigits 10 value) := by
  intro digit mem
  have isDigit := Nat.isDigit_of_mem_toDigits (by decide) (by decide) mem
  simp only [Char.isDigit, Bool.and_eq_true, decide_eq_true_eq] at isDigit
  exact Nat.le_trans (by decide) isDigit.1

theorem uncontrolled_writeItems {depth : Nat} {items : List Json}
    (each : ∀ item ∈ items, Uncontrolled (writeAt .compact depth item)) :
    Uncontrolled (writeItems .compact depth items) := by
  induction items with
  | nil => simp [writeItems]
  | cons item items ih =>
    obtain ⟨first, others⟩ := List.forall_mem_cons.1 each
    simp [writeItems, first, ih others]

theorem uncontrolled_writeMembers {depth : Nat} {members : List (String × Json)}
    (each : ∀ member ∈ members, Uncontrolled (writeAt .compact depth member.2)) :
    Uncontrolled (writeMembers .compact depth members) := by
  induction members with
  | nil => simp [writeMembers]
  | cons member members ih =>
    obtain ⟨first, others⟩ := List.forall_mem_cons.1 each
    simp [writeMembers, uncontrolled_literal, first, ih others]

/-- The compact text of a value has no control characters. -/
theorem Legible.uncontrolled {value : Json} (legible : value.Legible) (depth : Nat) :
    Uncontrolled (writeAt .compact depth value) := by
  induction legible generalizing depth with
  | null =>
    rw [writeAt]
    simp [Uncontrolled]
  | bool value => cases value <;> rw [writeAt] <;> simp [Uncontrolled]
  | natural bounded =>
    rw [writeAt]
    exact uncontrolled_toDigits _
  | string text =>
    rw [writeAt]
    exact uncontrolled_literal text
  | @array items _ ih =>
    cases items with
    | nil =>
      rw [writeAt]
      simp [Uncontrolled]
    | cons item items =>
      obtain ⟨first, others⟩ := List.forall_mem_cons.1 ih
      have behind : Uncontrolled (writeItems .compact (depth + 1) items) :=
        uncontrolled_writeItems fun item mem => others item mem _
      simp [writeAt, first, behind]
  | @object members _ ih =>
    cases members with
    | nil =>
      rw [writeAt]
      simp [Uncontrolled]
    | cons member members =>
      obtain ⟨first, others⟩ := List.forall_mem_cons.1 ih
      have behind : Uncontrolled (writeMembers .compact (depth + 1) members) :=
        uncontrolled_writeMembers fun member mem => others member mem _
      simp [writeAt, uncontrolled_literal, first, behind]

end NetDecl.Json
