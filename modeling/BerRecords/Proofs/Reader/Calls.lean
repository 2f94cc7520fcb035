import BerRecords.Proofs.Reader.Progress

/-!
# How a reader calls its visitor

Whatever the source is and whatever the visitor refuses, the visitor is told the beginning of a
series of elements that nest. When the source has been read to its end, the series is complete.
-/

set_option autoImplicit false

namespace BerRecords

variable {σ : Type}

namespace Header

def LiesIn (parent : Option Header) (header : Header) : Prop :=
  ∀ outer ∈ parent, outer.contentStart ≤ header.offset ∧ header.stop ≤ outer.stop

end Header

namespace Signal

def startOffset? : Signal → Option Nat
  | start header => some header.offset
  | _ => none

def startOffsets (signals : List Signal) : List Nat :=
  signals.filterMap startOffset?

/-- The signals tell of elements one after another inside `parent`, with at most `levels` of
them one inside the other. Inside a primitive element stands its value and nothing else. -/
inductive Nested : Nat → Option Header → List Signal → Prop where
  | nil {levels : Nat} {parent : Option Header} : Nested levels parent []
  | leaf {levels : Nat} {parent : Option Header} {header : Header} (octets : Octets)
      {rest : List Signal} : header.constructed = false → header.LiesIn parent →
      Nested (levels + 1) parent rest →
      Nested (levels + 1) parent (.start header :: .value octets :: .stop header.tag :: rest)
  | branch {levels : Nat} {parent : Option Header} {header : Header} {inside rest : List Signal} :
      header.constructed = true → header.LiesIn parent → Nested levels (some header) inside →
      Nested (levels + 1) parent rest →
      Nested (levels + 1) parent (.start header :: (inside ++ .stop header.tag :: rest))

/-- The signals tell of top-level elements, and each element starts after the one told before. -/
structure WellNested (limit : Nat) (signals : List Signal) : Prop where
  nested : Nested limit none signals
  increasing : (startOffsets signals).Pairwise (· < ·)

/-- The signals can be continued to a well-nested series. -/
def Begins (limit : Nat) (signals : List Signal) : Prop :=
  ∃ whole, WellNested limit whole ∧ signals <+: whole

variable {levels : Nat} {parent : Option Header} {front back : List Signal}

theorem Nested.append (first : Nested levels parent front) (second : Nested levels parent back) :
    Nested levels parent (front ++ back) := by
  induction first with
  | nil => exact second
  | leaf octets primitive lies _ ih => exact .leaf octets primitive lies (ih second)
  | branch constructed lies inside _ _ ih =>
      rw [List.cons_append, List.append_assoc, List.cons_append]
      exact .branch constructed lies inside (ih second)

theorem startOffsets_append :
    startOffsets (front ++ back) = startOffsets front ++ startOffsets back :=
  List.filterMap_append

end Signal

namespace Visitor

def noted (visitor : Visitor σ) : Visitor (σ × List Signal) := fun signal (state, told) =>
  let (result, after) := (visitor signal).on state
  (result, after, told ++ [signal])

variable {visitor : Visitor σ}

theorem noted_on (signal : Signal) (state : σ) (told : List Signal) :
    (visitor.noted signal).on (state, told) =
      (((visitor signal).on state).1, ((visitor signal).on state).2, told ++ [signal]) :=
  rfl

theorem told_of_tell {signals : List Signal} {before after : σ × List Signal}
    (told : (visitor.noted.tell signals).on before = (.ok (), after)) :
    after.2 = before.2 ++ signals := by
  induction signals generalizing before with
  | nil =>
      cases told
      exact (List.append_nil _).symm
  | cons signal signals ih =>
      rw [tell_cons, noted_on] at told
      rcases accepted : (visitor signal).on before.1 with ⟨error | ⟨⟩, state⟩
      · simp [accepted] at told
      · simp only [accepted] at told
        rw [ih told, List.append_assoc, List.singleton_append]

end Visitor

namespace Reader

open Signal (Nested WellNested Begins startOffsets startOffsets_append)

def Noted {α : Type} (told : List Signal) (ran : Except DecodeError α × Reader × σ)
    (ran' : Except DecodeError α × Reader × σ × List Signal) : Prop :=
  ∃ more, ran' = (ran.1, ran.2.1, ran.2.2, told ++ more)

theorem noted_drive (visitor : Visitor σ) (reader : Reader) (state : σ) (told : List Signal)
    (stack : List Open) :
    Noted told (drive visitor reader state stack) (drive visitor.noted reader (state, told) stack) := by
  fun_induction drive visitor reader state stack generalizing told with
  | case1 reader state => exact ⟨[], by simp [drive]⟩
  | case2 reader state top outer error after stuck =>
      refine ⟨[], ?_⟩
      rw [drive_cons, stuck, List.append_nil]
  | case3 reader state top outer signal stack after stepped error state' refused =>
      refine ⟨[signal], ?_⟩
      rw [drive_cons, stepped]
      simp only [Visitor.noted_on, refused]
  | case4 reader state top outer signal stack after stepped state' accepted ih =>
      obtain ⟨more, later⟩ := ih (told ++ [signal])
      refine ⟨signal :: more, ?_⟩
      rw [drive_cons, stepped]
      simp only [Visitor.noted_on, accepted]
      rw [later, List.append_assoc, List.singleton_append]

theorem noted_nextElement (visitor : Visitor σ) (reader : Reader) (state : σ)
    (told : List Signal) :
    Noted told ((nextElement visitor).on (reader, state))
      ((nextElement visitor.noted).on (reader, state, told)) := by
  rw [nextElement_on, nextElement_on]
  rcases (openElement none 0).on reader.between with ⟨error | none | header, opened⟩
  · exact ⟨[], by simp⟩
  · exact ⟨[], by simp⟩
  · simp only [Visitor.noted_on]
    rcases (visitor (.start header)).on state with ⟨error | ⟨⟩, entered⟩
    · exact ⟨[.start header], rfl⟩
    · obtain ⟨more, driven⟩ :=
        noted_drive visitor opened entered (told ++ [.start header]) [⟨header, false⟩]
      refine ⟨.start header :: more, ?_⟩
      simp only [driven, List.append_assoc, List.singleton_append]
      rcases drive visitor opened entered [⟨header, false⟩] with ⟨error | ⟨⟩, reader, state⟩
      · rfl
      · rfl

/-- Writing down what a visitor is told changes nothing else. -/
theorem noted_process (visitor : Visitor σ) (reader : Reader) (state : σ) (told : List Signal) :
    Noted told (process visitor reader state) (process visitor.noted reader (state, told)) := by
  fun_induction process visitor reader state generalizing told with
  | case1 reader state error after state' read =>
      obtain ⟨more, noted⟩ := noted_nextElement visitor reader state told
      refine ⟨more, ?_⟩
      rw [process_on, noted, read]
  | case2 reader state after state' read =>
      obtain ⟨more, noted⟩ := noted_nextElement visitor reader state told
      refine ⟨more, ?_⟩
      rw [process_on, noted, read]
  | case3 reader state header after state' read ih =>
      obtain ⟨more, noted⟩ := noted_nextElement visitor reader state told
      obtain ⟨others, later⟩ := ih (told ++ more)
      refine ⟨more ++ others, ?_⟩
      rw [process_on, noted, read]
      dsimp only
      rw [later, List.append_assoc]

def innermost (stack : List Open) : Option Header :=
  stack.head?.map (·.header)

structure Fits (limit : Nat) (stack : List Open) (header : Header) : Prop where
  around : ∀ outer ∈ innermost stack, outer.constructed = true
  shallow : stack.length < limit
  lies : header.LiesIn (innermost stack)

/-- What has been told of elements when these are open. -/
inductive Hanging (limit : Nat) : List Open → List Signal → Prop where
  | closed {script : List Signal} : Nested limit none script → Hanging limit [] script
  | branch {outer : List Open} {header : Header} {script inside : List Signal} :
      Hanging limit outer script → Fits limit outer header → header.constructed = true →
      Nested (limit - (outer.length + 1)) (some header) inside →
      Hanging limit (⟨header, false⟩ :: outer) (script ++ .start header :: inside)
  | leaf {outer : List Open} {header : Header} {script : List Signal} :
      Hanging limit outer script → Fits limit outer header → header.constructed = false →
      Hanging limit (⟨header, false⟩ :: outer) (script ++ [.start header])
  | valued {outer : List Open} {header : Header} {script : List Signal} (octets : Octets) :
      Hanging limit outer script → Fits limit outer header → header.constructed = false →
      Hanging limit (⟨header, true⟩ :: outer) (script ++ [.start header, .value octets])

namespace Hanging

variable {limit : Nat} {stack outer : List Open} {top : Open} {header : Header}
  {script more : List Signal}

/-- Complete elements may be told of inside the innermost open one. -/
theorem inside (hanging : Hanging limit stack script)
    (around : ∀ outer ∈ innermost stack, outer.constructed = true)
    (nested : Nested (limit - stack.length) (innermost stack) more) :
    Hanging limit stack (script ++ more) := by
  cases hanging with
  | closed before => exact .closed (before.append nested)
  | branch hanging fits constructed before =>
      rw [List.append_assoc, List.cons_append]
      exact .branch hanging fits constructed (before.append nested)
  | leaf _ _ primitive =>
      have constructed := around _ rfl
      rw [primitive] at constructed
      cases constructed
  | valued _ _ _ primitive =>
      have constructed := around _ rfl
      rw [primitive] at constructed
      cases constructed

theorem start (hanging : Hanging limit stack script) (fits : Fits limit stack header) :
    Hanging limit (⟨header, false⟩ :: stack) (script ++ [.start header]) := by
  cases constructed : header.constructed with
  | true => exact .branch hanging fits constructed .nil
  | false => exact .leaf hanging fits constructed

theorem value (hanging : Hanging limit (⟨header, false⟩ :: outer) script)
    (primitive : header.constructed = false) (octets : Octets) :
    Hanging limit (⟨header, true⟩ :: outer) (script ++ [.value octets]) := by
  cases hanging with
  | branch _ _ constructed =>
      rw [primitive] at constructed
      cases constructed
  | leaf hanging fits =>
      rw [List.append_assoc]
      exact .valued octets hanging fits primitive

/-- An element whose content has been told may end, and is then complete. -/
theorem stop (hanging : Hanging limit (top :: outer) script)
    (settled : top.header.constructed = true ∨ top.valueRead = true) :
    Hanging limit outer (script ++ [.stop top.header.tag]) := by
  cases hanging with
  | branch hanging fits constructed nested =>
      have levels : limit - outer.length = limit - (outer.length + 1) + 1 := by
        have := fits.shallow
        omega
      rw [List.append_assoc, List.cons_append]
      refine hanging.inside fits.around ?_
      rw [levels]
      exact .branch constructed fits.lies nested .nil
  | leaf _ _ primitive => simp [primitive] at settled
  | valued octets hanging fits primitive =>
      have levels : limit - outer.length = limit - (outer.length + 1) + 1 := by
        have := fits.shallow
        omega
      rw [List.append_assoc]
      refine hanging.inside fits.around ?_
      rw [levels]
      exact .leaf octets primitive fits.lies .nil

/-- Open elements can be brought to their ends, without another element. -/
theorem complete (hanging : Hanging limit stack script) :
    ∃ rest, Nested limit none (script ++ rest) ∧ startOffsets rest = [] := by
  induction stack generalizing script with
  | nil =>
      cases hanging with
      | closed nested => exact ⟨[], by rwa [List.append_nil], rfl⟩
  | cons top outer ih =>
      -- A primitive element still without its value is given one first.
      by_cases settled : top.header.constructed = true ∨ top.valueRead = true
      · obtain ⟨rest, nested, silent⟩ := ih (hanging.stop settled)
        rw [List.append_assoc] at nested
        exact ⟨_, nested, silent⟩
      · obtain ⟨header, valueRead⟩ := top
        simp only [not_or, Bool.not_eq_true] at settled
        obtain ⟨primitive, rfl⟩ := settled
        obtain ⟨rest, nested, silent⟩ := ih ((hanging.value primitive []).stop (.inr rfl))
        rw [List.append_assoc, List.append_assoc] at nested
        exact ⟨_, nested, silent⟩

end Hanging

/-- What has been told agrees with where the reader is and with the elements that it has open. -/
structure Abides (limit : Nat) (told : List Signal) (reader : Reader) (stack : List Open) :
    Prop where
  maxDepth_eq : reader.maxDepth = limit
  hanging : Hanging limit stack told
  passed : ∀ element ∈ stack, element.header.contentStart ≤ reader.offset
  started : ∀ offset ∈ startOffsets told, offset < reader.offset
  increasing : (startOffsets told).Pairwise (· < ·)

namespace Abides

variable {limit : Nat} {told signals : List Signal} {signal : Signal} {reader after : Reader}
  {stack rest outer : List Open}

theorem innermost_passed (abides : Abides limit told reader stack) :
    ∀ outer ∈ innermost stack, outer.contentStart ≤ reader.offset := by
  cases stack with
  | nil => simp [innermost]
  | cons top outer =>
      rintro _ ⟨⟩
      exact abides.passed top List.mem_cons_self

/-- Only the position and the nesting limit of a reader matter, and it may have moved on. -/
theorem onward (abides : Abides limit told reader stack)
    (maxDepth_eq : after.maxDepth = reader.maxDepth) (further : reader.offset ≤ after.offset) :
    Abides limit told after stack := by
  refine ⟨maxDepth_eq.trans abides.maxDepth_eq, abides.hanging, ?_, ?_, abides.increasing⟩
  · exact fun element member => Nat.le_trans (abides.passed element member) further
  · exact fun offset member => Nat.lt_of_lt_of_le (abides.started offset member) further

/-- A value or an end may be told; no other elements are open after it. -/
theorem silent (abides : Abides limit told reader stack)
    (hanging : Hanging limit rest (told ++ [signal])) (silent : signal.startOffset? = none)
    (fewer : ∀ element ∈ rest, ∃ other ∈ stack, other.header = element.header) :
    Abides limit (told ++ [signal]) reader rest := by
  have same : startOffsets (told ++ [signal]) = startOffsets told := by
    simp [startOffsets, silent]
  refine ⟨abides.maxDepth_eq, hanging, ?_, ?_, ?_⟩
  · intro element member
    obtain ⟨other, member, header_eq⟩ := fewer element member
    rw [← header_eq]
    exact abides.passed other member
  · rw [same]
    exact abides.started
  · rw [same]
    exact abides.increasing

theorem start (abides : Abides limit told reader stack) (heading : Heading reader.encoding)
    (source : Source)
    (around : ∀ outer ∈ innermost stack, outer.constructed = true)
    (shallow : stack.length < reader.maxDepth)
    (within : ∀ outer ∈ innermost stack, (heading.header reader.offset).stop ≤ outer.stop) :
    Abides limit (told ++ [.start (heading.header reader.offset)])
      (reader.advance heading.octets.length source) (⟨heading.header reader.offset, false⟩ :: stack) := by
  have longer : 0 < heading.octets.length := List.length_pos_iff.2 heading.octets_ne_nil
  have offsets : startOffsets (told ++ [.start (heading.header reader.offset)]) =
      startOffsets told ++ [reader.offset] := startOffsets_append
  have fits : Fits limit stack (heading.header reader.offset) := by
    refine ⟨around, abides.maxDepth_eq ▸ shallow, fun outer member => ?_⟩
    exact ⟨abides.innermost_passed outer member, within outer member⟩
  refine ⟨abides.maxDepth_eq, abides.hanging.start fits, ?_, ?_, ?_⟩
  · rintro element (_ | ⟨_, member⟩)
    · exact Nat.le_refl _
    · exact Nat.le_add_right_of_le (abides.passed element member)
  · rw [offsets]
    intro offset member
    rw [advance_offset]
    rcases List.mem_append.1 member with earlier | last
    · exact Nat.lt_add_right _ (abides.started offset earlier)
    · rw [List.mem_singleton.1 last]
      omega
  · rw [offsets, List.pairwise_append]
    refine ⟨abides.increasing, List.pairwise_singleton _ _, ?_⟩
    intro offset earlier last member
    rw [List.mem_singleton.1 member]
    exact abides.started offset earlier

theorem step (abides : Abides limit told reader stack) (step : Step reader stack signal after rest) :
    Abides limit (told ++ [signal]) after rest := by
  cases step with
  | start constructed within shallow passes =>
      refine abides.start _ _ ?_ shallow ?_
      · rintro _ ⟨⟩
        exact constructed
      · rintro _ ⟨⟩
        exact within
  | @value top outer octets source primitive unread counted passes =>
      obtain ⟨header, valueRead⟩ := top
      subst unread
      have told := abides.silent (abides.hanging.value primitive octets) rfl (by
        rintro element (_ | ⟨_, member⟩)
        · exact ⟨_, List.mem_cons_self, rfl⟩
        · exact ⟨element, List.mem_cons_of_mem _ member, rfl⟩)
      exact told.onward rfl (Nat.le_add_right _ _)
  | stopBranch constructed ended =>
      refine abides.silent (abides.hanging.stop (.inl constructed)) rfl ?_
      exact fun element member => ⟨element, List.mem_cons_of_mem _ member, rfl⟩
  | stopLeaf primitive valueRead =>
      refine abides.silent (abides.hanging.stop (.inr valueRead)) rfl ?_
      exact fun element member => ⟨element, List.mem_cons_of_mem _ member, rfl⟩

theorem steps (steps : Steps reader stack signals after rest)
    (abides : Abides limit told reader stack) : Abides limit (told ++ signals) after rest := by
  induction steps generalizing told with
  | refl => rwa [List.append_nil]
  | head step _ ih =>
      have later := ih (abides.step step)
      rwa [List.append_assoc, List.singleton_append] at later

theorem tells (tells : Tells reader signals after rest) (abides : Abides limit told reader []) :
    Abides limit (told ++ signals) after rest := by
  cases tells with
  | opened opened steps =>
      obtain ⟨heading, rfl, -, shallow, source, -, rfl⟩ := openElement_some_iff.1 opened
      have between : Abides limit told reader.between [] := abides.onward rfl (Nat.le_refl _)
      have started := between.start heading source (by simp [innermost]) shallow
        (by simp [innermost])
      have later := Abides.steps steps (started.onward rfl (Nat.le_refl _))
      rwa [List.append_assoc, List.singleton_append] at later

theorem wellNested (abides : Abides limit told reader []) : WellNested limit told := by
  cases abides.hanging with
  | closed nested => exact ⟨nested, abides.increasing⟩

theorem begins (abides : Abides limit told reader stack) : Begins limit told := by
  obtain ⟨rest, nested, silent⟩ := abides.hanging.complete
  refine ⟨told ++ rest, ⟨nested, ?_⟩, List.prefix_append told rest⟩
  rw [startOffsets_append, silent, List.append_nil]
  exact abides.increasing

/-- Where an element has been read well, what has been told is complete again; and it always is
the beginning of something complete. -/
theorem nextElement (abides : Abides limit told reader []) (visitor : Visitor σ) (state : σ) :
    let ran := (nextElement visitor.noted).on (reader, state, told)
    (∀ header?, ran.1 = .ok header? → Abides limit ran.2.2.2 ran.2.1 []) ∧
      Begins limit ran.2.2.2 := by
  intro ran
  have attends := attends visitor.noted reader (state, told)
  change Attends _ _ _ ran at attends
  generalize ran = ran at attends ⊢
  cases attends with
  | absent opened =>
      obtain ⟨-, source, -, rfl⟩ := openElement_none_iff.1 opened
      exact ⟨fun _ _ => abides.onward rfl (Nat.le_refl _), abides.begins⟩
  | complete tells accepted =>
      have later := Abides.tells tells abides
      rw [Visitor.told_of_tell accepted]
      exact ⟨fun _ _ => later.onward rfl (Nat.le_refl _), later.begins⟩
  | raised raises accepted =>
      refine ⟨by rintro _ ⟨⟩, ?_⟩
      rw [Visitor.told_of_tell accepted]
      cases raises with
      | heading =>
          rw [List.append_nil]
          exact abides.begins
      | inside tells stuck => exact (Abides.tells tells abides).begins
  | @refused signals signal _ _ _ before after tells accepted refused =>
      have last : before.2 ++ [signal] = after.2 := congrArg (·.2.2) refused
      rw [Visitor.told_of_tell accepted, List.append_assoc] at last
      refine ⟨by rintro _ ⟨⟩, ?_⟩
      rw [← last]
      exact (Abides.tells tells abides).begins

theorem process (abides : Abides limit told reader []) (visitor : Visitor σ) (state : σ) :
    let ran := process visitor.noted reader (state, told)
    (ran.1 = .ok () → WellNested limit ran.2.2.2) ∧ Begins limit ran.2.2.2 := by
  generalize seen : (state, told) = before
  fun_induction Reader.process visitor.noted reader before generalizing state told with
  | case1 reader before error after state' read =>
      subst seen
      have next := abides.nextElement visitor state
      rw [read] at next
      exact ⟨by rintro ⟨⟩, next.2⟩
  | case2 reader before after state' read =>
      subst seen
      have next := abides.nextElement visitor state
      rw [read] at next
      exact ⟨fun _ => (next.1 none rfl).wellNested, next.2⟩
  | case3 reader before header after state' read ih =>
      subst seen
      have next := abides.nextElement visitor state
      rw [read] at next
      exact ih (next.1 (some header) rfl) state'.1 rfl

end Abides

/-- Whatever the source is and whatever a visitor refuses with which error, what the visitor is
told is the beginning of a well-nested series within the nesting limit, and the whole of one where
no error occurs. A visitor does the same whether it writes down what it is told or not. -/
theorem process_nests (visitor : Visitor σ) (reader : Reader) (state : σ) :
    let ran := process visitor.noted reader (state, [])
    (ran.1, ran.2.1, ran.2.2.1) = process visitor reader state ∧
      (ran.1 = .ok () → WellNested reader.maxDepth ran.2.2.2) ∧
        Begins reader.maxDepth ran.2.2.2 := by
  obtain ⟨told, noted⟩ := noted_process visitor reader state []
  refine ⟨by rw [noted], ?_⟩
  have abides : Abides reader.maxDepth [] reader [] :=
    ⟨rfl, .closed .nil, by simp, by simp [startOffsets], .nil⟩
  exact abides.process visitor state

/-- The second number inside a sequence cannot be read, so that sequence and number stay open. -/
example :
    let source : Source :=
      ⟨[.piece 0x30 [0x06, 0x02, 0x01, 0x05, 0x02], .piece 0x01 []], .failing "lost"⟩
    let accepting : Visitor Unit := fun _ => return ()
    let ran := process accepting.noted (.ofSource .singleOctet 2 source) ((), [])
    ran.2.2.2.map Signal.event = [.start .sequence 6 true 0, .start .integer 1 false 2, .value [5],
      .stop .integer, .start .integer 1 false 5] := by
  decide +kernel

end Reader

end BerRecords
