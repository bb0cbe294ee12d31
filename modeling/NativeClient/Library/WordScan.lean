import NativeClient.Library.WordBits

/-!
# The next bit that is set

A cursor into an array of words is a word number and a shift within the word.
The scan moves it forward to the next bit that is set, in larger steps where
the low half or the low byte of what is left of the word is empty.
-/

namespace NativeClient.Library

/-- `word` is what is left of a word after shifting out `shift` bits. -/
def scanWord : Nat → BitVec 32 → Nat → Option Nat
  | 0, _, _ => none
  | fuel + 1, word, shift =>
      if word = 0 then none
      else if word.getLsbD 0 then some shift
      else if word &&& 0xFFFF = 0 then scanWord fuel (word >>> 16) (shift + 16)
      else if word &&& 0xFF = 0 then scanWord fuel (word >>> 8) (shift + 8)
      else scanWord fuel (word >>> 1) (shift + 1)

def scanWords (words : Words) : Nat → Nat → Nat → Nat × Nat
  | 0, index, shift => (index, shift)
  | fuel + 1, index, shift =>
      match scanWord 33 (if 31 < shift then 0 else words index >>> shift)
          shift with
      | some found => (index, found)
      | none => scanWords words fuel (index + 1) 0

private theorem low_clear
    {word mask : BitVec 32} {step bit : Nat}
    (ones : ∀ place < step, mask.getLsbD place = true)
    (clear : word &&& mask = 0) (below : bit < step) :
    word.getLsbD bit = false := by
  have both : (word &&& mask).getLsbD bit = false := by
    rw [clear]
    exact BitVec.getLsbD_zero
  rw [BitVec.getLsbD_and, ones bit below, Bool.and_true] at both
  exact both

private theorem ones_half : ∀ place < 16, (0xFFFF#32).getLsbD place = true := by
  decide

private theorem ones_byte : ∀ place < 8, (0xFF#32).getLsbD place = true := by
  decide

private theorem first_of_shifted
    {word : BitVec 32} {step bit : Nat}
    (low : ∀ place < step, word.getLsbD place = false)
    (set : (word >>> step).getLsbD bit = true)
    (first : ∀ place < bit, (word >>> step).getLsbD place = false) :
    word.getLsbD (step + bit) = true ∧
      ∀ place < step + bit, word.getLsbD place = false := by
  rw [BitVec.getLsbD_ushiftRight] at set
  refine ⟨set, ?_⟩
  intro place below
  by_cases inside : place < step
  · exact low place inside
  · have shifted := first (place - step) (by omega)
    rw [BitVec.getLsbD_ushiftRight] at shifted
    rw [show place = step + (place - step) by omega]
    exact shifted

private theorem shifted_lt
    {word : BitVec 32} {step room : Nat} (above : 0 < step)
    (small : word.toNat < 2 ^ (room + 1)) :
    (word >>> step).toNat < 2 ^ room := by
  rw [BitVec.toNat_ushiftRight, Nat.shiftRight_eq_div_pow]
  apply Nat.div_lt_of_lt_mul
  calc
    word.toNat < 2 ^ (room + 1) := small
    _ ≤ 2 ^ (step + room) := Nat.pow_le_pow_right (by decide) (by omega)
    _ = 2 ^ step * 2 ^ room := Nat.pow_add 2 step room

theorem scanWord_spec
    {fuel : Nat} {word : BitVec 32} (shift : Nat)
    (enough : word.toNat < 2 ^ fuel) :
    (scanWord (fuel + 1) word shift = none ∧
        ∀ bit, word.getLsbD bit = false) ∨
      ∃ bit, scanWord (fuel + 1) word shift = some (shift + bit) ∧
        word.getLsbD bit = true ∧
        ∀ lower < bit, word.getLsbD lower = false := by
  induction fuel generalizing word shift with
  | zero =>
      have zero : word = 0 := by
        apply BitVec.eq_of_toNat_eq
        simpa using enough
      left
      rw [scanWord, if_pos zero, zero]
      exact ⟨rfl, fun bit => BitVec.getLsbD_zero⟩
  | succ fuel ih =>
      by_cases zero : word = 0
      · left
        rw [scanWord, if_pos zero, zero]
        exact ⟨rfl, fun bit => BitVec.getLsbD_zero⟩
      · by_cases odd : word.getLsbD 0 = true
        · right
          refine ⟨0, ?_, odd, ?_⟩
          · rw [scanWord, if_neg zero, if_pos odd, Nat.add_zero]
          · intro lower below
            exact absurd below (Nat.not_lt_zero lower)
        · -- Each of the three steps skips bits that are all clear.
          have skip : ∀ step, 0 < step →
              (∀ place < step, word.getLsbD place = false) →
              scanWord (fuel + 2) word shift =
                scanWord (fuel + 1) (word >>> step) (shift + step) →
              (scanWord (fuel + 2) word shift = none ∧
                  ∀ bit, word.getLsbD bit = false) ∨
                ∃ bit, scanWord (fuel + 2) word shift = some (shift + bit) ∧
                  word.getLsbD bit = true ∧
                  ∀ lower < bit, word.getLsbD lower = false := by
            intro step above low same
            rw [same]
            rcases ih (shift + step) (shifted_lt above enough) with
              ⟨missed, clear⟩ | ⟨bit, found, set, first⟩
            · left
              refine ⟨missed, ?_⟩
              intro bit
              by_cases inside : bit < step
              · exact low bit inside
              · have shifted := clear (bit - step)
                rw [BitVec.getLsbD_ushiftRight] at shifted
                rw [show bit = step + (bit - step) by omega]
                exact shifted
            · right
              obtain ⟨setHere, firstHere⟩ := first_of_shifted low set first
              refine ⟨step + bit, ?_, setHere, firstHere⟩
              rw [found, Nat.add_assoc]
          by_cases half : word &&& 0xFFFF = 0
          · apply skip 16 (by decide)
              (fun place below => low_clear ones_half half below)
            rw [scanWord, if_neg zero, if_neg odd, if_pos half]
          · by_cases byte : word &&& 0xFF = 0
            · apply skip 8 (by decide)
                (fun place below => low_clear ones_byte byte below)
              rw [scanWord, if_neg zero, if_neg odd, if_neg half, if_pos byte]
            · apply skip 1 (by decide)
              · intro place below
                rw [show place = 0 by omega]
                simpa using odd
              · rw [scanWord, if_neg zero, if_neg odd, if_neg half,
                  if_neg byte]

private theorem get_place
    (words : Words) {index bit : Nat} (below : bit < 32) :
    words.get (32 * index + bit) = (words index).getLsbD bit := by
  rw [Words.get, Nat.mul_add_div (by decide), Nat.div_eq_of_lt below,
    Nat.add_zero, Nat.mul_add_mod, Nat.mod_eq_of_lt below]

private theorem getLsbD_rest
    (words : Words) {index shift : Nat} (place : Nat) (small : shift ≤ 32)
    (below : shift + place < 32) :
    (if 31 < shift then 0 else words index >>> shift).getLsbD place =
      words.get (32 * index + (shift + place)) := by
  rw [if_neg (by omega), get_place words below, BitVec.getLsbD_ushiftRight]

private theorem rest_lt_of_set
    {word : BitVec 32} {shift bit : Nat}
    (set : (if 31 < shift then 0 else word >>> shift).getLsbD bit = true) :
    shift + bit < 32 := by
  by_cases high : 31 < shift
  · rw [if_pos high] at set
    exact absurd set (by simp)
  · rw [if_neg high, BitVec.getLsbD_ushiftRight] at set
    exact BitVec.lt_of_getLsbD set

theorem scanWords_spec
    (words : Words) {fuel index shift : Nat} (small : shift ≤ 32)
    (edge : fuel = 0 → shift = 0) :
    ∃ index' shift', scanWords words fuel index shift = (index', shift') ∧
      (∀ place, 32 * index + shift ≤ place → place < 32 * index' + shift' →
        words.get place = false) ∧
      ((index' = index + fuel ∧ shift' = 0) ∨
        (index' < index + fuel ∧ shift' < 32 ∧
          32 * index + shift ≤ 32 * index' + shift' ∧
          words.get (32 * index' + shift') = true)) := by
  induction fuel generalizing index shift with
  | zero =>
      refine ⟨index, shift, rfl, ?_, .inl ⟨rfl, edge rfl⟩⟩
      intro place above below
      omega
  | succ fuel ih =>
      have bound : (if 31 < shift then 0 else words index >>> shift).toNat <
          2 ^ 32 := BitVec.isLt _
      rcases scanWord_spec shift bound with
        ⟨missed, clear⟩ | ⟨bit, found, set, first⟩
      · obtain ⟨index', shift', run, between, stop⟩ :=
          @ih (index + 1) 0 (by omega) (fun _ => rfl)
        refine ⟨index', shift', ?_, ?_, ?_⟩
        · rw [scanWords, missed]
          exact run
        · intro place above below
          by_cases here : place < 32 * (index + 1)
          · have empty := clear (place - (32 * index + shift))
            rw [getLsbD_rest words _ small (by omega)] at empty
            rw [show place = 32 * index +
              (shift + (place - (32 * index + shift))) by omega]
            exact empty
          · exact between place (by omega) below
        · rcases stop with ⟨last, zero⟩ | ⟨inside, low, after, member⟩
          · exact .inl ⟨by omega, zero⟩
          · exact .inr ⟨by omega, low, by omega, member⟩
      · have low := rest_lt_of_set set
        refine ⟨index, shift + bit, ?_, ?_, ?_⟩
        · rw [scanWords, found]
        · intro place above below
          have empty := first (place - (32 * index + shift)) (by omega)
          rw [getLsbD_rest words _ small (by omega)] at empty
          rw [show place = 32 * index +
            (shift + (place - (32 * index + shift))) by omega]
          exact empty
        · refine .inr ⟨by omega, low, by omega, ?_⟩
          rw [← getLsbD_rest words bit small low]
          exact set

end NativeClient.Library
