import BackendFuzz.Call.Planner
import BackendFuzz.Proofs.Session.Run
import Mathlib

/-!
# Drawn values

An unsigned value is the bits that are drawn for it. A signed one is drawn as a
magnitude and a sign: the magnitude itself, or one less than its negative. So the
two signs share no zero and leave out no least value, and each value of a type
has just one way to be drawn.
-/

namespace BackendFuzz

open Session

def signedValue (magnitude sign : Int) : Int := if sign = 0 then magnitude else -magnitude - 1

theorem run_drawInteger_signed (bits : Nat) (o : Outside) (b : Bench) :
    (drawInteger ⟨true, bits⟩).run o b =
      (.ok (signedValue (o.callBits b.asked (bits - 1))
        (o.callBits (b.asked ++ [.callBits (bits - 1)]) 1)),
      { b with asked := b.asked ++ [.callBits (bits - 1)] ++ [.callBits 1] }) := rfl

theorem run_drawInteger_unsigned (bits : Nat) (o : Outside) (b : Bench) :
    (drawInteger ⟨false, bits⟩).run o b =
      (.ok (o.callBits b.asked bits), { b with asked := b.asked ++ [.callBits bits] }) := rfl

/-! ## Magnitudes and signs -/

section
variable {m : Int}

theorem signedValue_mapsTo : Set.MapsTo (fun d : Int × Int => signedValue d.1 d.2)
    (Set.Ico 0 m ×ˢ {0, 1}) (Set.Ico (-m) m) := by
  rintro ⟨magnitude, sign⟩ ⟨⟨hzero, hm⟩, hsign⟩
  dsimp only at hzero hm
  rcases hsign with rfl | rfl
  · exact ⟨by dsimp only [signedValue]; omega, by dsimp only [signedValue]; omega⟩
  · exact ⟨by dsimp only [signedValue]; omega, by dsimp only [signedValue]; omega⟩

theorem signedValue_injOn : Set.InjOn (fun d : Int × Int => signedValue d.1 d.2)
    (Set.Ico 0 m ×ˢ {0, 1}) := by
  rintro ⟨magnitude, sign⟩ ⟨⟨hzero, -⟩, hsign⟩ ⟨magnitude', sign'⟩ ⟨⟨hzero', -⟩, hsign'⟩ h
  dsimp only [signedValue] at hzero hzero' h
  rw [Prod.mk.injEq]
  -- The signs give values on either side of zero, so those of different signs are not equal.
  rcases hsign with rfl | rfl <;> rcases hsign' with rfl | rfl <;> omega

theorem signedValue_surjOn : Set.SurjOn (fun d : Int × Int => signedValue d.1 d.2)
    (Set.Ico 0 m ×ˢ {0, 1}) (Set.Ico (-m) m) := by
  rintro value ⟨hlow, hhigh⟩
  by_cases hsign : 0 ≤ value
  · exact ⟨(value, 0), ⟨⟨hsign, hhigh⟩, Or.inl rfl⟩, rfl⟩
  · refine ⟨(-value - 1, 1), ⟨⟨?_, ?_⟩, Or.inr rfl⟩, ?_⟩ <;> dsimp only [signedValue] <;> omega

end

/-- What is drawn for a value of some width is mapped one to one onto the values of the width:
magnitude and sign onto those in two's complement, and bits onto the unsigned ones. -/
theorem each_value_drawn_once (bits : Nat) :
    (∃ value : Int × Int → Int,
      (∀ o b, ((drawInteger ⟨true, bits⟩).run o b).1 = .ok (value
        (o.callBits b.asked (bits - 1), o.callBits (b.asked ++ [.callBits (bits - 1)]) 1))) ∧
      Set.BijOn value (Set.Ico 0 (2 ^ (bits - 1)) ×ˢ {0, 1})
        (Set.Ico (-2 ^ (bits - 1)) (2 ^ (bits - 1)))) ∧
    ∃ value : Int → Int,
      (∀ o b, ((drawInteger ⟨false, bits⟩).run o b).1 = .ok (value (o.callBits b.asked bits))) ∧
      Set.BijOn value (Set.Ico 0 (2 ^ bits)) (Set.Ico 0 (2 ^ bits)) := by
  refine ⟨⟨fun d => signedValue d.1 d.2, fun o b => ?_, ?_⟩, ⟨id, fun o b => ?_, ?_⟩⟩
  · rw [run_drawInteger_signed]
  · exact ⟨signedValue_mapsTo, signedValue_injOn, signedValue_surjOn⟩
  · rw [run_drawInteger_unsigned]
    rfl
  · exact Set.bijOn_id _

example : signedValue 127 1 = -128 := rfl

end BackendFuzz
