import BerRecords.Octets

/-!
# Sources

A source delivers octets in pieces of any size. Between pieces it may ask to be
asked again, or fail; after its last delivery it is exhausted or keeps failing.
Readers see only the next octet, so the cut into pieces never shows.
-/

set_option autoImplicit false

namespace BerRecords

inductive Delivery where
  | piece (first : UInt8) (rest : Octets)
  | interrupted
  | failure (reason : String)
  deriving DecidableEq, Repr

def Delivery.size : Delivery → Nat
  | .piece _ rest => rest.length + 1
  | _ => 0

/-- What a source answers after its last delivery. -/
inductive Ending where
  | exhausted
  | failing (reason : String)
  deriving DecidableEq, Repr

/-- A finite script of deliveries and what follows them. -/
structure Source where
  deliveries : List Delivery
  ending : Ending
  deriving DecidableEq, Repr

inductive Source.Next where
  | octet (octet : UInt8) (rest : Source)
  | exhausted (rest : Source)
  | failed (reason : String) (rest : Source)

inductive Source.Halt where
  | filled
  | exhausted
  | failed (reason : String)
  deriving DecidableEq, Repr

structure Source.Taken where
  octets : Octets
  halt : Source.Halt
  rest : Source

namespace Source

def ofOctets : Octets → Source
  | [] => ⟨[], .exhausted⟩
  | first :: rest => ⟨[.piece first rest], .exhausted⟩

def nextFrom (ending : Ending) : List Delivery → Next
  | [] =>
    match ending with
    | .exhausted => .exhausted ⟨[], ending⟩
    | .failing reason => .failed reason ⟨[], ending⟩
  | .interrupted :: rest => nextFrom ending rest
  | .failure reason :: rest => .failed reason ⟨rest, ending⟩
  | .piece octet [] :: rest => .octet octet ⟨rest, ending⟩
  | .piece octet (first :: more) :: rest => .octet octet ⟨.piece first more :: rest, ending⟩

def next (source : Source) : Next :=
  nextFrom source.ending source.deliveries

/-- Takes `count` more octets; `done` holds those taken before, reversed. -/
def takeOnto (done : Octets) : Nat → Source → Taken
  | 0, source => ⟨done.reverse, .filled, source⟩
  | count + 1, source =>
    match source.next with
    | .octet octet rest => takeOnto (octet :: done) count rest
    | .exhausted rest => ⟨done.reverse, .exhausted, rest⟩
    | .failed reason rest => ⟨done.reverse, .failed reason, rest⟩

def take (count : Nat) (source : Source) : Taken :=
  takeOnto [] count source

def heldBy : List Delivery → Nat
  | [] => 0
  | delivery :: rest => delivery.size + heldBy rest

def remaining (source : Source) : Nat :=
  heldBy source.deliveries

def Next.rest : Next → Source
  | .octet _ rest | .exhausted rest | .failed _ rest => rest

theorem remaining_nextFrom_octet {ending : Ending} {deliveries : List Delivery} {octet : UInt8}
    {rest : Source} (found : nextFrom ending deliveries = .octet octet rest) :
    rest.remaining + 1 = (⟨deliveries, ending⟩ : Source).remaining := by
  fun_induction nextFrom ending deliveries with
  | case1 => simp at found
  | case2 => simp at found
  | case3 _ ih => simpa [remaining, heldBy, Delivery.size] using ih found
  | case4 => simp at found
  | case5 octet' tail =>
    simp only [Next.octet.injEq] at found
    obtain ⟨-, rfl⟩ := found
    simp [remaining, heldBy, Delivery.size]; omega
  | case6 octet' first more tail =>
    simp only [Next.octet.injEq] at found
    obtain ⟨-, rfl⟩ := found
    simp [remaining, heldBy, Delivery.size]; omega

theorem remaining_nextFrom_le (ending : Ending) (deliveries : List Delivery) :
    (nextFrom ending deliveries).rest.remaining ≤ (⟨deliveries, ending⟩ : Source).remaining := by
  fun_induction nextFrom ending deliveries with
  | case1 => simp [Next.rest, remaining]
  | case2 => simp [Next.rest, remaining]
  | case3 _ ih => simpa [remaining, heldBy, Delivery.size] using ih
  | case4 => simp [Next.rest, remaining, heldBy, Delivery.size]
  | case5 => simp [Next.rest, remaining, heldBy, Delivery.size]
  | case6 => simp [Next.rest, remaining, heldBy, Delivery.size]

theorem remaining_next_octet {source rest : Source} {octet : UInt8}
    (found : source.next = .octet octet rest) : rest.remaining + 1 = source.remaining :=
  remaining_nextFrom_octet found

theorem remaining_next_le (source : Source) : source.next.rest.remaining ≤ source.remaining :=
  remaining_nextFrom_le source.ending source.deliveries

theorem remaining_takeOnto_le (done : Octets) (count : Nat) (source : Source) :
    (takeOnto done count source).rest.remaining ≤ source.remaining := by
  induction count generalizing done source with
  | zero => simp [takeOnto]
  | succ count ih =>
    have bound := remaining_next_le source
    simp only [takeOnto]
    split
    · rename_i octet rest found
      have := remaining_next_octet found
      have := ih (octet :: done) rest
      omega
    · rename_i rest found
      simpa [found, Next.rest] using bound
    · rename_i reason rest found
      simpa [found, Next.rest] using bound

theorem remaining_take_le (count : Nat) (source : Source) :
    (source.take count).rest.remaining ≤ source.remaining :=
  remaining_takeOnto_le [] count source

end Source

end BerRecords
