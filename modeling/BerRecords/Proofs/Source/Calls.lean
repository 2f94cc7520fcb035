import BerRecords.Proofs.Source.Passing

/-!
# Read calls

A source answers a read call with at most as many octets as it was asked for: with some of
a piece, with none at its end, or not at all. Loops of read calls get what asking for one
octet after another gets, wherever the pieces are cut.
-/

set_option autoImplicit false

namespace BerRecords.Source

/-- What one read call answers, with what the source still holds. No octets mean that it is
exhausted. -/
inductive Answer where
  | octets (octets : Octets) (rest : Source)
  | interrupted (rest : Source)
  | failed (reason : String) (rest : Source)

def withFront : Octets → List Delivery → List Delivery
  | [], deliveries => deliveries
  | first :: more, deliveries => .piece first more :: deliveries

/-- One read call into a buffer of `limit` octets. -/
def call (limit : Nat) (source : Source) : Answer :=
  match source.deliveries with
  | [] =>
    match source.ending with
    | .exhausted => .octets [] source
    | .failing reason => .failed reason source
  | .interrupted :: rest => .interrupted ⟨rest, source.ending⟩
  | .failure reason :: rest => .failed reason ⟨rest, source.ending⟩
  | .piece first more :: rest =>
    let piece := first :: more
    .octets (piece.take limit) ⟨withFront (piece.drop limit) rest, source.ending⟩

theorem call_interrupted {limit : Nat} {source rest : Source}
    (answered : source.call limit = .interrupted rest) :
    source.deliveries = .interrupted :: rest.deliveries ∧ rest.ending = source.ending := by
  obtain ⟨deliveries, ending⟩ := source
  match deliveries with
  | [] => cases ending <;> cases answered
  | .interrupted :: _ => cases answered; exact ⟨rfl, rfl⟩
  | .failure _ :: _ => cases answered
  | .piece _ _ :: _ => cases answered

def readSome (limit : Nat) (source : Source) : Except String Octets × Source :=
  match _answered : source.call limit with
  | .octets octets rest => (.ok octets, rest)
  | .interrupted rest => readSome limit rest
  | .failed reason rest => (.error reason, rest)
termination_by source.deliveries.length
decreasing_by simp [(call_interrupted _answered).1]

/-- Reading on until `limit` octets have come or the source has ended, with read calls that
each ask for any number of octets up to those that are missing. -/
inductive ReadsToEnd : Nat → Source → Taken → Prop where
  | filled (source : Source) : ReadsToEnd 0 source ⟨[], .filled, source⟩
  | exhausted {limit want : Nat} {source rest : Source} : 0 < want → want ≤ limit →
      source.readSome want = (.ok [], rest) → ReadsToEnd limit source ⟨[], .exhausted, rest⟩
  | failed {limit want : Nat} {source rest : Source} {reason : String} : 0 < want → want ≤ limit →
      source.readSome want = (.error reason, rest) →
      ReadsToEnd limit source ⟨[], .failed reason, rest⟩
  | more {limit want : Nat} {source rest : Source} {octets : Octets} {taken : Taken} : 0 < want →
      want ≤ limit → source.readSome want = (.ok octets, rest) → octets ≠ [] →
      ReadsToEnd (limit - octets.length) rest taken →
      ReadsToEnd limit source ⟨octets ++ taken.octets, taken.halt, taken.rest⟩

variable {source rest : Source} {octets : Octets} {limit : Nat}

/-! ## One call -/

inductive Gives (limit : Nat) (source : Source) : Except String Octets × Source → Prop where
  | some {octets : Octets} {rest : Source} : octets ≠ [] → octets.length ≤ limit →
      Passes source octets rest → Gives limit source (.ok octets, rest)
  | none {rest : Source} : source.next = .exhausted rest → Gives limit source (.ok [], rest)
  | failed {reason : String} {rest : Source} : source.next = .failed reason rest →
      Gives limit source (.error reason, rest)

theorem Passes.of_next_eq {other : Source} (same : source.next = other.next)
    (some : octets ≠ []) (passes : Passes other octets rest) : Passes source octets rest := by
  cases passes with
  | nil => exact absurd rfl some
  | cons next later => exact .cons (same.trans next) later

theorem Gives.of_next_eq {other : Source} {given : Except String Octets × Source}
    (same : source.next = other.next) (gives : Gives limit other given) :
    Gives limit source given := by
  cases gives with
  | some nonempty few passes => exact .some nonempty few (passes.of_next_eq same nonempty)
  | none ends => exact .none (same.trans ends)
  | failed fails => exact .failed (same.trans fails)

theorem next_withFront (octet : UInt8) (more : Octets) (deliveries : List Delivery)
    (ending : Ending) :
    (⟨withFront (octet :: more) deliveries, ending⟩ : Source).next =
      .octet octet ⟨withFront more deliveries, ending⟩ := by
  cases more with
  | nil => rfl
  | cons => rfl

/-- A piece gives its first octets and keeps the others. -/
theorem passes_front (ending : Ending) (deliveries : List Delivery) (front back : Octets) :
    Passes ⟨withFront (front ++ back) deliveries, ending⟩ front
      ⟨withFront back deliveries, ending⟩ := by
  induction front with
  | nil => exact .nil
  | cons octet front ih => exact .cons (next_withFront octet (front ++ back) deliveries ending) ih

theorem gives_readSome (some : 0 < limit) (source : Source) :
    Gives limit source (source.readSome limit) := by
  fun_induction readSome limit source with
  | case1 source octets rest answered =>
      obtain ⟨deliveries, ending⟩ := source
      cases deliveries with
      | nil =>
          cases ending with
          | exhausted => cases answered; exact .none rfl
          | failing => cases answered
      | cons delivery later =>
          cases delivery with
          | interrupted | failure => cases answered
          | piece first more =>
              cases answered
              have passes := passes_front ending later ((first :: more).take limit)
                ((first :: more).drop limit)
              rw [List.take_append_drop] at passes
              refine .some ?_ (List.length_take_le _ _) passes
              simp [Nat.ne_of_gt some]
  | case2 source rest answered ih =>
      obtain ⟨front, same⟩ := call_interrupted answered
      refine ih.of_next_eq ?_
      rw [next, next, front, same, nextFrom]
  | case3 source reason rest answered =>
      obtain ⟨deliveries, ending⟩ := source
      cases deliveries with
      | nil =>
          cases ending with
          | exhausted => cases answered
          | failing => cases answered; exact .failed rfl
      | cons delivery =>
          cases delivery with
          | interrupted | piece => cases answered
          | failure => cases answered; exact .failed rfl

/-- A call for one octet is what asks for the next octet. -/
theorem readSome_one (source : Source) :
    source.readSome 1 =
      match source.next with
      | .octet octet rest => (.ok [octet], rest)
      | .exhausted rest => (.ok [], rest)
      | .failed reason rest => (.error reason, rest) := by
  have gives := gives_readSome Nat.one_pos source
  generalize source.readSome 1 = given at gives
  cases gives with
  | none ends => rw [ends]
  | failed fails => rw [fails]
  | some nonempty few passes =>
      cases passes with
      | nil => exact absurd rfl nonempty
      | cons next later =>
          cases later with
          | nil => rw [next]
          | cons => simp at few

/-! ## Calls until a limit -/

theorem takeOnto_eq (done : Octets) (count : Nat) (source : Source) :
    takeOnto done count source =
      ⟨done.reverse ++ (source.take count).octets, (source.take count).halt,
        (source.take count).rest⟩ := by
  rw [take]
  induction count generalizing done source with
  | zero => simp [takeOnto]
  | succ count ih =>
      rw [takeOnto, takeOnto]
      cases source.next with
      | octet octet rest =>
          dsimp only
          rw [ih, ih [octet]]
          simp
      | exhausted | failed => simp

/-- What has come already is the beginning of what is taken. -/
theorem Passes.take_eq (passes : Passes source octets rest) (few : octets.length ≤ limit) :
    source.take limit =
      ⟨octets ++ (rest.take (limit - octets.length)).octets,
        (rest.take (limit - octets.length)).halt, (rest.take (limit - octets.length)).rest⟩ := by
  induction passes generalizing limit with
  | nil => rfl
  | @cons source middle after octet octets next _ ih =>
      obtain ⟨limit, rfl⟩ := Nat.exists_eq_succ_of_ne_zero (Nat.ne_zero_of_lt few)
      rw [List.length_cons] at few
      rw [Source.take, takeOnto, next]
      dsimp only
      rw [takeOnto_eq, ih (Nat.le_of_succ_le_succ few), List.length_cons, Nat.succ_sub_succ]
      rfl

theorem take_of_exhausted (some : 0 < limit) (ends : source.next = .exhausted rest) :
    source.take limit = ⟨[], .exhausted, rest⟩ := by
  cases limit with
  | zero => cases some
  | succ => rw [take, takeOnto, ends]; rfl

theorem take_of_failed {reason : String} (some : 0 < limit)
    (fails : source.next = .failed reason rest) :
    source.take limit = ⟨[], .failed reason, rest⟩ := by
  cases limit with
  | zero => cases some
  | succ => rw [take, takeOnto, fails]; rfl

private theorem length_lt_of_exhausted_onto (done : Octets) (count : Nat) (source : Source)
    (ended : (takeOnto done count source).halt = .exhausted) :
    (takeOnto done count source).octets.length < done.length + count := by
  induction count generalizing done source with
  | zero => cases ended
  | succ count ih =>
      rw [takeOnto] at ended ⊢
      cases next : source.next with
      | octet octet rest =>
          rw [next] at ended
          have fewer := ih (octet :: done) rest ended
          dsimp only
          rw [List.length_cons] at fewer
          omega
      | exhausted => simp
      | failed => rw [next] at ended; cases ended

/-- A request that the end of the source stops got fewer octets than it asked for. -/
theorem length_lt_of_exhausted {count : Nat} (ended : (source.take count).halt = .exhausted) :
    (source.take count).octets.length < count := by
  simpa [take] using length_lt_of_exhausted_onto [] count source ended

theorem ReadsToEnd.eq_take {taken : Taken} (reads : ReadsToEnd limit source taken) :
    taken = source.take limit := by
  induction reads with
  | filled => rfl
  | @exhausted _ _ source _ some bound given =>
      have gives := gives_readSome some source
      rw [given] at gives
      cases gives with
      | some nonempty => exact absurd rfl nonempty
      | none ends => exact (take_of_exhausted (Nat.lt_of_lt_of_le some bound) ends).symm
  | @failed _ _ source _ _ some bound given =>
      have gives := gives_readSome some source
      rw [given] at gives
      cases gives with
      | failed fails => exact (take_of_failed (Nat.lt_of_lt_of_le some bound) fails).symm
  | @more _ _ source _ _ _ some bound given nonempty _ ih =>
      have gives := gives_readSome some source
      rw [given] at gives
      cases gives with
      | none => exact absurd rfl nonempty
      | some _ few passes => rw [ih, passes.take_eq (Nat.le_trans few bound)]

/-- Reading on can be done, in any way that asks for something each time. -/
theorem readsToEnd_take (limit : Nat) (source : Source) :
    ReadsToEnd limit source (source.take limit) := by
  induction limit using Nat.strongRecOn generalizing source with
  | ind limit ih =>
      rcases Nat.eq_zero_or_pos limit with rfl | some
      · exact .filled source
      · have gives := gives_readSome some source
        cases given : source.readSome limit with
        | mk result rest =>
            rw [given] at gives
            cases gives with
            | none ends =>
                rw [take_of_exhausted some ends]
                exact .exhausted some (Nat.le_refl _) given
            | failed fails =>
                rw [take_of_failed some fails]
                exact .failed some (Nat.le_refl _) given
            | some nonempty few passes =>
                rw [passes.take_eq few]
                have length := List.length_pos_iff.2 nonempty
                exact .more some (Nat.le_refl _) given nonempty (ih _ (by omega) rest)

/-- However many octets the calls ask for, what they get together is the same. -/
theorem readsToEnd_iff {taken : Taken} :
    ReadsToEnd limit source taken ↔ taken = source.take limit :=
  ⟨ReadsToEnd.eq_take, fun same => same ▸ readsToEnd_take limit source⟩

end BerRecords.Source
