import BerRecords.Line
import BerRecords.Settings

/-!
# Decoding one input

The lines that one input gives, which depend on nothing but its octets, the schema
and the settings.
-/

set_option autoImplicit false

namespace BerRecords.Run

structure Decoding where
  lines : List String
  dropped : List DroppedRecord
  ending : Except DecodeError Summary

namespace Decoding

def line? {β : Type} (line : Nat → Nat → β → List Issue → Json) : Outcome β → Option String
  | .decoded index offset content issues => some (line index offset content issues).render
  | _ => none

def ofOutcomes {β : Type} (line : Nat → Nat → β → List Issue → Json)
    (outcomes : List (Outcome β)) : Decoding where
  lines := outcomes.filterMap (line? line)
  dropped := outcomes.filterMap Outcome.dropped?
  ending :=
    match outcomes.findSome? Outcome.failure? with
    | some error => .error error
    | none => .ok (.ofOutcomes outcomes)

def outcomes {σ β : Type} (schema : Schema) (options : DecodeOptions)
    (assembler : Assembler σ β) (state : σ) (octets : Octets) : List (Outcome β) :=
  let records := Records.ofSource schema options state (.ofOctets octets)
  (records.finish schema assembler options).1.map (·.outcome)

def ofOctets (settings : Settings) (schema : Schema) (octets : Octets) : Decoding :=
  match settings.format with
  | .fields =>
    ofOutcomes Line.ofFields (outcomes schema settings.decode .fields .empty octets)
  | .tree => ofOutcomes Line.ofTree (outcomes schema settings.decode .trees .empty octets)

def content (decoding : Decoding) : Octets :=
  decoding.lines.flatMap fun line => line.toUTF8.toList ++ [10]

end Decoding

end BerRecords.Run
