import BerRecords.Proofs.Displacement.Reader
import BerRecords.Proofs.Reader.AtHand

/-! Driving a visitor further on in a longer stream. -/

set_option autoImplicit false

namespace BerRecords.Reader

variable {distance stop : Nat} {beyond : Octets} {near far : Reader}

theorem reads_step {top : Open} {outer : List Open} (beside : Beside distance beyond stop near far)
    (contained : beyond = [] ∨ Contained stop near.offset (top :: outer)) :
    Reads distance beyond stop
      (fun given => (given.1.displace distance, given.2.map (Open.displace distance)))
      ((step top outer).on near)
      ((step (top.displace distance) (outer.map (Open.displace distance))).on far) := by
  rw [step, step]
  have read : (top.displace distance).valueRead = top.valueRead := rfl
  have head : (top.displace distance).header = top.header.displace distance := rfl
  simp only [read, head, List.length_map, Header.displace_constructed]
  cases constructed : top.header.constructed with
  | true =>
      have bounded : Bounded beyond stop (some top.header) :=
        contained.imp_right fun contained => ⟨top.header, rfl, contained.1⟩
      simp only [↓reduceIte]
      refine Reads.get ?_
      simp only [beside.offset_eq, Header.displace_stop, Nat.add_lt_add_iff_right,
        Nat.add_right_cancel_iff, Header.displace_contentStart, Nat.add_sub_add_right]
      split
      · refine (reads_openElement (reads_readHeader beside bounded)).bind
          fun child? near far beside => ?_
        cases child? with
        | some child => exact .ok ⟨rfl, beside⟩
        | none => exact .error ⟨rfl, beside⟩
      · split
        · exact .ok ⟨rfl, beside⟩
        · exact .error ⟨rfl, beside⟩
  | false =>
      simp only [Bool.false_eq_true, ↓reduceIte]
      cases valueRead : top.valueRead with
      | true => exact .ok ⟨rfl, beside⟩
      | false =>
          have inside : beyond = [] ∨ near.offset + top.header.length ≤ stop :=
            contained.imp_right fun contained => contained.2.1 constructed valueRead
          refine (reads_readValue beside inside).bind fun value near far beside => ?_
          exact .ok ⟨rfl, beside⟩

variable {σ : Type} {visitor : Visitor σ} {move : σ → σ}

abbrev Drives {α : Type} (distance : Nat) (beyond : Octets) (stop : Nat) (move : σ → σ)
    (shift : α → α) :
    Except DecodeError α × Reader × σ → Except DecodeError α × Reader × σ → Prop :=
  Attempt.Linked
    (fun error near error' far => error' = error.displace distance ∧
      Beside distance beyond stop near.1 far.1 ∧ far.2 = move near.2)
    (fun value near value' far => value' = shift value ∧
      Beside distance beyond stop near.1 far.1 ∧ far.2 = move near.2)

theorem drives_drive (moves : visitor.Moves distance move) {state : σ} {stack : List Open}
    (beside : Beside distance beyond stop near far)
    (contained : beyond = [] ∨ Contained stop near.offset stack) :
    Drives distance beyond stop move id (drive visitor near state stack)
      (drive visitor far (move state) (stack.map (Open.displace distance))) := by
  fun_induction drive visitor near state stack generalizing far with
  | case1 reader state =>
      rw [List.map_nil, drive]
      exact .ok ⟨rfl, beside, rfl⟩
  | case2 reader state top outer error after stuck =>
      have read := reads_step beside contained
      rw [stuck] at read
      rw [List.map_cons, drive_cons]
      generalize (step (top.displace _) _).on far = ran at read ⊢
      cases read with
      | error related => exact .error ⟨related.1, related.2, rfl⟩
  | case3 reader state top outer signal stack after stepped error state' refused =>
      have read := reads_step beside contained
      rw [stepped] at read
      rw [List.map_cons, drive_cons]
      generalize (step (top.displace _) _).on far = ran at read ⊢
      cases read with
      | ok related =>
          obtain ⟨rfl, beside⟩ := related
          simp only [moves signal state, refused, Attempt.displace]
          exact .error ⟨rfl, beside, rfl⟩
  | case4 reader state top outer signal stack after stepped state' accepted ih =>
      have read := reads_step beside contained
      rw [stepped] at read
      rw [List.map_cons, drive_cons]
      generalize (step (top.displace _) _).on far = ran at read ⊢
      cases read with
      | ok related =>
          obtain ⟨rfl, beside⟩ := related
          simp only [moves signal state, accepted, Attempt.displace]
          exact ih beside (contained.imp_right (.step (step_ok_iff.1 stepped)))

theorem Beside.between (beside : Beside distance beyond stop near far) :
    Beside distance beyond stop near.between far.between :=
  ⟨beside.ahead, beside.offset_eq, beside.encoding_eq, beside.maxDepth_eq, rfl⟩

theorem reads_openElement_none {depth : Nat} (beside : Beside distance beyond stop near far)
    (headed : beyond = [] ∨ Headed stop near) :
    Reads distance beyond stop (Option.map (Header.displace distance))
      ((openElement none depth).on near) ((openElement none depth).on far) := by
  refine @reads_openElement distance stop beyond near far none depth ?_
  rcases headed with nothing | ⟨heading, source, passes, -⟩
  · exact @reads_readHeader distance stop beyond near far none beside (.inl nothing)
  · exact reads_readHeader_of_heading heading beside rfl passes

theorem drives_nextElement (moves : visitor.Moves distance move) (state : σ)
    (beside : Beside distance beyond stop near far) (headed : beyond = [] ∨ Headed stop near) :
    Drives distance beyond stop move (Option.map (Header.displace distance))
      ((nextElement visitor).on (near, state)) ((nextElement visitor).on (far, move state)) := by
  have opens := @reads_openElement_none _ _ _ _ _ 0 beside.between headed
  have started (header : Header) (after : Reader)
      (opened : (openElement none 0).on near.between = (.ok (some header), after)) :
      beyond = [] ∨ Contained stop after.offset [⟨header, false⟩] := by
    refine headed.imp_right ?_
    rintro ⟨heading, source, passes, ends⟩
    rcases opens_heading passes 0 with found | ⟨error, found⟩
    · rw [opened] at found
      cases found
      have ends' : (near.offset + heading.octets.length) + heading.length = stop := ends
      exact ⟨Nat.le_of_eq ends, fun _ _ => Nat.le_of_eq ends', by simp⟩
    · rw [opened] at found
      cases found
  rw [nextElement_on, nextElement_on]
  generalize (openElement none 0).on near.between = ran at opens started ⊢
  generalize (openElement none 0).on far.between = ran' at opens ⊢
  cases opens with
  | error related => exact .error ⟨related.1, related.2, rfl⟩
  | @ok header? near _ far related =>
      obtain ⟨rfl, beside⟩ := related
      cases header? with
      | none => exact .ok ⟨rfl, beside, rfl⟩
      | some header =>
          have told := moves (.start header) state
          simp only [Signal.displace] at told
          simp only [Option.map_some, told]
          rcases (visitor (.start header)).on state with ⟨error | ⟨⟩, state⟩
          · exact .error ⟨rfl, beside, rfl⟩
          · have ran := @drives_drive _ _ _ _ _ _ visitor move moves state [⟨header, false⟩] beside
              (started header near rfl)
            simp only [List.map_cons, List.map_nil, Open.displace] at ran
            simp only [Attempt.displace]
            generalize drive visitor near state _ = ran₁ at ran ⊢
            generalize drive visitor far (move state) _ = ran₂ at ran ⊢
            cases ran with
            | error related => exact .error related
            | ok related => exact .ok ⟨rfl, related.2.1.between, related.2.2⟩

theorem reads_skipCurrent (beside : Beside distance beyond stop near far)
    (bounded : beyond = [] ∨ ∀ header ∈ near.current, header.stop ≤ stop) :
    Reads distance beyond stop id (skipCurrent.on near) (skipCurrent.on far) := by
  obtain ⟨ahead, delivers, delivers', counted⟩ := beside.ahead
  have current_eq := beside.current_eq
  cases hand : near.current with
  | none =>
      have hand' : far.current = none := by rw [current_eq, hand]; rfl
      rw [skipCurrent_idle hand, skipCurrent_idle hand']
      exact .ok ⟨rfl, beside⟩
  | some header =>
      have hand' : far.current = some (header.displace distance) := by rw [current_eq, hand]; rfl
      rcases Nat.lt_or_ge header.stop near.offset with past | behind
      · have past' : (header.displace distance).stop < far.offset := by
          simpa [beside.offset_eq] using past
        rw [skipCurrent_past hand past, skipCurrent_past hand' past']
        exact .ok ⟨rfl, beside.between⟩
      · rcases Nat.lt_or_ge stop header.stop with short | enough
        · have nothing : beyond = [] := by
            refine bounded.resolve_right fun bounded => ?_
            have ends := bounded header hand
            omega
          subst nothing
          rw [List.append_nil] at delivers'
          have short' : far.offset + ahead.length < (header.displace distance).stop := by
            simp only [beside.offset_eq, Header.displace_stop]
            omega
          rw [skipCurrent_short hand (counted ▸ short) delivers,
            skipCurrent_short hand' short' delivers']
          have ended := @Beside.advance distance stop [] near far _ _ ahead [] beside
            Source.delivers_nil Source.delivers_nil counted
          exact .ok ⟨rfl, ended.between⟩
        · obtain ⟨inside, rest, rfl, length⟩ : ∃ inside rest, ahead = inside ++ rest ∧
              inside.length = header.stop - near.offset :=
            ⟨ahead.take _, ahead.drop _, (List.take_append_drop _ _).symm,
              List.length_take_of_le (by omega)⟩
          obtain ⟨source, passes, left⟩ := delivers.split
          rw [List.append_assoc] at delivers'
          obtain ⟨source', passes', left'⟩ := delivers'.split
          have ends : near.offset + inside.length = header.stop := by omega
          have ends' : far.offset + inside.length = (header.displace distance).stop := by
            rw [beside.offset_eq, Header.displace_stop, Nat.add_right_comm, ends]
          rw [skipCurrent_filled hand ends passes, skipCurrent_filled hand' ends' passes']
          have moved := beside.advance left left' (by simpa [Nat.add_assoc] using counted)
          exact .ok ⟨rfl, moved.between⟩

end BerRecords.Reader
