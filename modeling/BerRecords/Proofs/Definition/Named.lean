import BerRecords.Definition

/-! Definitions all of whose names show in a path select only definitions like them. -/

set_option autoImplicit false

namespace BerRecords

namespace Definition

mutual

/-- The definition and everything inside it has a name that a path can show. -/
def Named : Definition → Prop
  | scalar head _ | any head _ => head.name ≠ ""
  | record head _ components => head.name ≠ "" ∧ NamedAll components
  | collection head _ element => head.name ≠ "" ∧ Named element
  | choice head alternatives => head.name ≠ "" ∧ NamedAll alternatives

def NamedAll : List Definition → Prop
  | [] => True
  | definition :: rest => Named definition ∧ NamedAll rest

end

theorem Named.name_ne {definition : Definition} (named : definition.Named) :
    definition.name ≠ "" := by
  cases definition with
  | scalar | any =>
      rw [Named] at named
      exact named
  | record | collection | choice =>
      rw [Named] at named
      exact named.1

mutual

theorem Named.claim {definition found : Definition} {tag : Tag} (named : definition.Named)
    (claimed : definition.claim? tag = some found) : found.Named := by
  match definition with
  | .choice head alternatives =>
      rw [claim?] at claimed
      split at claimed
      · split at claimed
        · cases claimed
          exact named
        · cases claimed
      · rw [Named] at named
        exact NamedAll.claim named.2 claimed
  | .scalar head type | .record head grouping components | .collection head grouping element
  | .any head definedBy =>
      rw [claim?] at claimed
      · split at claimed
        · split at claimed
          · cases claimed
            exact named
          · cases claimed
        · cases claimed
      · simp

theorem NamedAll.claim {definitions : List Definition} {found : Definition} {tag : Tag}
    (named : NamedAll definitions) (claimed : claimAmong? tag definitions = some found) :
    found.Named := by
  match definitions with
  | [] => cases claimed
  | definition :: rest =>
      rw [NamedAll] at named
      rw [claimAmong?] at claimed
      split at claimed
      · rename_i other own
        cases claimed
        exact named.1.claim own
      · exact NamedAll.claim named.2 claimed

end

theorem NamedAll.claimingComponent {components : List Definition} {place : Nat} {tag : Tag}
    {selection : Selection} (named : NamedAll components)
    (claimed : claimingComponent? tag place components = some selection) :
    selection.definition.Named := by
  induction components generalizing place with
  | nil => cases claimed
  | cons component rest ih =>
      rw [NamedAll] at named
      rw [claimingComponent?] at claimed
      split at claimed
      · rename_i found own
        cases claimed
        exact named.1.claim own
      · exact ih named.2 claimed

theorem NamedAll.anyComponent {components : List Definition} {place : Nat}
    {selection : Selection} (named : NamedAll components)
    (claimed : anyComponent? place components = some selection) : selection.definition.Named := by
  induction components generalizing place with
  | nil => cases claimed
  | cons component rest ih =>
      rw [NamedAll] at named
      rw [anyComponent?] at claimed
      split at claimed
      · cases claimed
        exact named.1
      · exact ih named.2 claimed

theorem Named.select {definition : Definition} {tag : Tag} {selection : Selection}
    (named : definition.Named) (selected : definition.select tag = .ok (some selection)) :
    selection.definition.Named := by
  cases definition with
  | scalar | any => cases selected
  | record head grouping components =>
      rw [Named] at named
      simp only [Definition.select, Except.ok.injEq, Option.or_eq_some_iff] at selected
      rcases selected with claimed | ⟨-, anything⟩
      · exact named.2.claimingComponent claimed
      · exact named.2.anyComponent anything
  | collection head grouping element =>
      rw [Named] at named
      simp only [Definition.select, Except.ok.injEq, Option.map_eq_some_iff,
        Option.or_eq_some_iff] at selected
      obtain ⟨found, claimed | ⟨-, anything⟩, rfl⟩ := selected
      · exact named.2.claim claimed
      · split at anything
        · cases anything
          exact named.2
        · cases anything
  | choice head alternatives =>
      rw [Named] at named
      simp only [Definition.select, Except.ok.injEq, Option.map_eq_some_iff] at selected
      obtain ⟨found, claimed, rfl⟩ := selected
      exact named.2.claim claimed

end Definition

end BerRecords
