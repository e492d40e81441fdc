import SimdNetwork.Proofs.Compare
import SimdNetwork.Proofs.Stage.Exchange

/-! What a compare leaves in every lane of a register, whether it is native or emulated. -/

namespace SimdNetwork

section Lanes

variable {element : Element} {lane : Nat}

/-- What a side keeps of two lanes is one of the two as a whole. -/
theorem Register.laneBits_kept {first second : Register} (side : Side)
    (inside : lane < first.shape.lanes element.width) :
    (first.kept second element side).laneBits element.width lane =
      if keepsSecond side (element.value (second.laneBits element.width lane) <
        element.value (first.laneBits element.width lane))
      then second.laneBits element.width lane else first.laneBits element.width lane := by
  -- All bytes of the lane are chosen by the same comparison.
  have chosen : ∀ offset < element.width.bytes,
      (first.kept second element side).byte (lane * element.width.bytes + offset) =
        if keepsSecond side (element.value (second.laneBits element.width lane) <
          element.value (first.laneBits element.width lane))
        then second.byte (lane * element.width.bytes + offset)
        else first.byte (lane * element.width.bytes + offset) := by
    intro offset within
    rw [kept, byte_build _ _ _ (byte_inside inside within), Element.bytes,
      (block_of_place lane within).1]
  -- Whichever register the comparison names gives the lane all of its bytes.
  split
  · rename_i second_kept
    refine laneBits_congr fun offset within => ?_
    rw [chosen offset within, if_pos second_kept]
  · rename_i first_kept
    refine laneBits_congr fun offset within => ?_
    rw [chosen offset within, if_neg first_kept]

/-- A side keeps the smaller or the larger of two values. -/
theorem Register.value_kept {first second : Register} (side : Side)
    (inside : lane < first.shape.lanes element.width) :
    element.value ((first.kept second element side).laneBits element.width lane) =
      side.kept (element.value (first.laneBits element.width lane))
        (element.value (second.laneBits element.width lane)) := by
  -- The second value is kept where it is smaller on the low side, and where not on the high side.
  rw [laneBits_kept side inside]
  cases side with
  | low =>
    simp only [keepsSecond, decide_eq_true_eq, Side.kept]
    split <;> omega
  | high =>
    simp only [keepsSecond, Bool.not_eq_true', decide_eq_false_iff_not, Side.kept]
    split <;> omega

/-- No third value appears in a lane that was compared. -/
theorem Register.laneBits_kept_eq {first second : Register} (side : Side)
    (inside : lane < first.shape.lanes element.width) :
    (first.kept second element side).laneBits element.width lane =
        first.laneBits element.width lane ∨
      (first.kept second element side).laneBits element.width lane =
        second.laneBits element.width lane := by
  -- Either the comparison picks the second lane or it leaves the first.
  rw [laneBits_kept side inside]
  split
  · exact .inr rfl
  · exact .inl rfl

end Lanes

/--
An emulated compare of qwords is the native one.

On two registers of one shape both leave the same register, for signed qwords without and for
unsigned ones with their signs flipped. In each of its lanes stands one of the two qwords compared
there: the smaller one on the low side and the larger one on the high side, in the order of the
element type.
-/
theorem Register.keep_emulated_eq_native (first second : Register)
    (shapes : second.shape = first.shape) (signed : Bool) (side : Side) :
    first.keep second ⟨.b8, signed⟩ (.emulated !signed) side =
        first.keep second ⟨.b8, signed⟩ .native side ∧
      ∃ kept, first.keep second ⟨.b8, signed⟩ .native side = .ok kept ∧
        kept.shape = first.shape ∧
          ∀ lane < first.lanes .b8, ∃ own other result,
            first.lane .b8 lane = .ok own ∧ second.lane .b8 lane = .ok other ∧
              kept.lane .b8 lane = .ok result ∧ (result = own ∨ result = other) ∧
                Element.value ⟨.b8, signed⟩ result =
                  side.kept (Element.value ⟨.b8, signed⟩ own)
                    (Element.value ⟨.b8, signed⟩ other) := by
  -- Both ways suit the qwords, and every way that suits them keeps what the side keeps.
  have native : first.keep second ⟨.b8, signed⟩ .native side =
      .ok (first.kept second ⟨.b8, signed⟩ side) := keep_eq_ok (.inl rfl) shapes
  have emulated : first.keep second ⟨.b8, signed⟩ (.emulated !signed) side =
      .ok (first.kept second ⟨.b8, signed⟩ side) := keep_eq_ok (.inr ⟨rfl, rfl⟩) shapes
  refine ⟨emulated.trans native.symm, _, native, rfl, ?_⟩
  intro lane inside
  -- The three registers have the same lanes, so all three readings succeed.
  have otherInside : lane < second.shape.lanes .b8 := by
    rw [shapes]
    exact inside
  refine ⟨_, _, _, lane_eq_ok inside, lane_eq_ok otherInside, lane_eq_ok inside, ?_, ?_⟩
  · exact laneBits_kept_eq side inside
  · exact value_kept side inside

/-- All ones are the greatest unsigned qword but less than one as a signed qword. -/
theorem Register.keep_emulated_eq_native_all_ones :
    shape (build .xmm fun position => if position % 8 = 0 then 1 else 0) =
        shape (build .xmm fun _ => 0xff) ∧
      (∃ kept, (build .xmm fun _ => 0xff).keep
          (build .xmm fun position => if position % 8 = 0 then 1 else 0) ⟨.b8, false⟩
          (.emulated true) .low = .ok kept ∧ kept.lane .b8 1 = .ok 1) ∧
      ∃ kept, (build .xmm fun _ => 0xff).keep
          (build .xmm fun position => if position % 8 = 0 then 1 else 0) ⟨.b8, true⟩
          (.emulated false) .low = .ok kept ∧ kept.lane .b8 1 = .ok 0xffffffffffffffff := by
  -- The kept lane is one of two known ones, and its value tells which.
  have ones : (build .xmm fun _ => 0xff).lane .b8 1 = .ok 0xffffffffffffffff :=
    (lane_eq_ok (by decide)).trans (congrArg Except.ok (by decide +kernel))
  have one : (build .xmm fun position => if position % 8 = 0 then 1 else 0).lane .b8 1 = .ok 1 :=
    (lane_eq_ok (by decide)).trans (congrArg Except.ok (by decide +kernel))
  refine ⟨rfl, ?_, ?_⟩
  · obtain ⟨emulated, kept, native, _, lanewise⟩ := keep_emulated_eq_native
      (build .xmm fun _ => 0xff) (build .xmm fun position => if position % 8 = 0 then 1 else 0)
      rfl false .low
    obtain ⟨own, other, result, ownRead, otherRead, read, oneOf, least⟩ := lanewise 1 (by decide)
    cases ones.symm.trans ownRead
    cases one.symm.trans otherRead
    rcases oneOf with rfl | rfl
    · -- The greatest qword is not the smaller of the two.
      exact absurd least (by decide)
    · exact ⟨kept, emulated.trans native, read⟩
  · obtain ⟨emulated, kept, native, _, lanewise⟩ := keep_emulated_eq_native
      (build .xmm fun _ => 0xff) (build .xmm fun position => if position % 8 = 0 then 1 else 0)
      rfl true .low
    obtain ⟨own, other, result, ownRead, otherRead, read, oneOf, least⟩ := lanewise 1 (by decide)
    cases ones.symm.trans ownRead
    cases one.symm.trans otherRead
    rcases oneOf with rfl | rfl
    · exact ⟨kept, emulated.trans native, read⟩
    · -- One is not less than minus one.
      exact absurd least (by decide)

end SimdNetwork
