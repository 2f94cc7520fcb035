import BerRecords.Element.Drive
import BerRecords.Proofs.Reader.Faults

/-!
A reader finds broken structure or a failing source, and no other fault. What is broken lies
inside the innermost open element; its path is not known to the reader.
-/

set_option autoImplicit false

namespace BerRecords

/-- The error is one of the source, or one of structure inside the element that starts there. -/
def DecodeError.BreaksIn (element : Option Nat) : DecodeError → Prop
  | corrupt _ inside path _ => inside = element ∧ path = ""
  | source _ => True
  | mismatch _ | unbalanced .. | schema _ => False

theorem DecodeError.BreaksIn.isFatal_eq {error : DecodeError} {element : Option Nat}
    (breaks : error.BreaksIn element) : error.isFatal = false := by
  cases error with
  | corrupt => rfl
  | source => rfl
  | mismatch => cases breaks
  | unbalanced => cases breaks
  | schema => cases breaks

namespace Reader

def Structural {α : Type} (element : Option Nat) (reading : Reading α) : Prop :=
  ∀ reader error, (reading.on reader).1 = .error error → error.BreaksIn element

theorem HeaderFault.breaksIn {parent : Option Header} {start position : Nat} {error : DecodeError}
    (fault : HeaderFault parent start position error) : error.BreaksIn (parent.map (·.offset)) := by
  cases fault with
  | source => trivial
  | past member => exact ⟨by rw [Option.mem_def.1 member, Option.map_some], rfl⟩
  | ended | identifier | indefinite | long => exact ⟨rfl, rfl⟩

theorem OpeningFault.breaksIn {parent : Option Header} {start position : Nat} {error : DecodeError}
    (fault : OpeningFault parent start position error) :
    error.BreaksIn (parent.map (·.offset)) := by
  cases fault with
  | header fault => exact fault.breaksIn
  | overrun member => exact ⟨by rw [Option.mem_def.1 member, Option.map_some], rfl⟩
  | tooDeep => exact ⟨rfl, rfl⟩

theorem structural_openElement (parent : Option Header) (depth : Nat) :
    Structural (parent.map (·.offset)) (openElement parent depth) :=
  fun _ _ failed => (openingFault (Prod.ext failed rfl)).breaksIn

theorem structural_step (top : Open) (outer : List Open) :
    Structural (some top.header.offset) (step top outer) := by
  intro reader error failed
  cases stepFault (Prod.ext failed rfl) with
  | opening _ _ fault => exact fault.breaksIn
  | astray | valueCut => exact ⟨rfl, rfl⟩
  | source => trivial

end Reader

end BerRecords
