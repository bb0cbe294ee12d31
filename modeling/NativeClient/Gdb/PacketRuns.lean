import NativeClient.Gdb.PacketContents

/-!
# Runs in packets

`expand` is what a sequence of characters with runs stands for, up to the first
run that is malformed.  Reading a packet character by character yields exactly
that, although the packet is rewritten on the way.
-/

namespace NativeClient.Gdb

namespace Packet

variable (char : CharType)

/-- What the characters behind `last` stand for: `X*N` is `X`, `N - 28` times. -/
def expand : (last : Option UInt8) → List UInt8 → List UInt8
  | _, [] => []
  | last, ch :: rest =>
      if ch = ascii '*' then
        match last, rest with
        | some before, length :: rest =>
            if char.value length - 28 < 3 then []
            else
              List.replicate ((char.value length - 28).toNat - 1) before ++
                expand (some before) rest
        | _, _ => []
      else ch :: expand (some ch) rest

/-- `count` calls of `GetRawChar` that all succeed. -/
def getRawChars : (count : Nat) → Packet → Option (List UInt8 × Packet)
  | 0, pkt => some ([], pkt)
  | count + 1, pkt =>
      let first := pkt.getRawChar char 0
      if first.ok then
        (getRawChars count first.packet).map fun rest =>
          (first.ch :: rest.1, rest.2)
      else none

def filling : (last : Option UInt8) → (count : Nat) → List UInt8
  | none, _ => []
  | some ch, count => List.replicate count ch

/-- The packet in the course of reading `chars`: a part of a run is filled in,
the characters from `place` on are as they were, and `left` is what all of it
stands for. -/
structure Reading (chars left : List UInt8) (pkt : Packet) : Prop where
  state : ∃ before count place,
    pkt.Holds before (filling before.getLast? count ++ chars.drop place) ∧
      before.getLast? ≠ some (ascii '*') ∧
      left = expand char before.getLast?
        (filling before.getLast? count ++ chars.drop place)

variable {char} {pkt : Packet} {chars : List UInt8} {ch : UInt8}
  {left : List UInt8}

theorem expand_plain
    (plain : ch ≠ ascii '*') (last : Option UInt8)
    (rest : List UInt8) :
    expand char last (ch :: rest) = ch :: expand char (some ch) rest := by
  conv => lhs; unfold expand
  rw [if_neg plain]

theorem expand_star (last : Option UInt8) (rest : List UInt8) :
    expand char last (ascii '*' :: rest) =
      match last, rest with
      | some before, length :: rest =>
          if char.value length - 28 < 3 then []
          else
            List.replicate ((char.value length - 28).toNat - 1) before ++
              expand char (some before) rest
      | _, _ => [] := by
  conv => lhs; unfold expand
  rw [if_pos rfl]

theorem expand_replicate
    (plain : ch ≠ ascii '*') (count : Nat) (rest : List UInt8) :
    expand char (some ch) (List.replicate count ch ++ rest) =
      List.replicate count ch ++ expand char (some ch) rest := by
  induction count with
  | zero => rfl
  | succ count ih =>
      rw [List.replicate_succ, List.cons_append, expand_plain plain, ih]
      rfl

theorem reading_plain
    {before rest : List UInt8} {ch : UInt8} {count place : Nat}
    (holds : pkt.Holds before (ch :: rest)) (plain : ch ≠ ascii '*')
    (restEq : rest = filling (some ch) count ++ chars.drop place)
    (old : UInt8) :
    ∃ next, pkt.getRawChar char old = ⟨true, ch, next⟩ ∧
      Reading char chars (expand char (some ch) rest) next := by
  obtain ⟨next, read, after, -⟩ := holds.getRawChar_plain char plain old
  have last : (before ++ [ch]).getLast? = some ch := List.getLast?_concat
  refine ⟨next, read, ⟨⟨before ++ [ch], count, place, ?_, ?_, ?_⟩⟩⟩
  · rw [last, ← restEq]
    exact after
  · rw [last]
    exact fun same => plain (Option.some.inj same)
  · rw [last, ← restEq]

theorem reading_run
    {before rest : List UInt8} {length : UInt8} {place : Nat}
    (holds : pkt.Holds (before ++ [ch]) (ascii '*' :: length :: rest))
    (plain : ch ≠ ascii '*') (enough : 3 ≤ char.value length - 28)
    (restEq : rest = chars.drop place) (old : UInt8) :
    ∃ next, pkt.getRawChar char old = ⟨true, ch, next⟩ ∧
      Reading char chars
        (List.replicate ((char.value length - 28).toNat - 2) ch ++
          expand char (some ch) rest) next := by
  obtain ⟨next, read, after, -⟩ := holds.getRawChar_run enough old
  have last : (before ++ [ch] ++ [ch]).getLast? = some ch :=
    List.getLast?_concat
  refine ⟨next, read, ⟨⟨before ++ [ch] ++ [ch],
    (char.value length - 28).toNat - 2, place, ?_, ?_, ?_⟩⟩⟩
  · rw [last, ← restEq]
    exact after
  · rw [last]
    exact fun same => plain (Option.some.inj same)
  · rw [last, ← restEq, filling, expand_replicate plain]

theorem drop_succ_of_drop
    {place : Nat} {first : UInt8} {rest : List UInt8}
    (here : chars.drop place = first :: rest) :
    rest = chars.drop (place + 1) := by
  rw [← List.drop_drop, here]
  rfl

theorem Reading.next
    (reading : Reading char chars (ch :: left) pkt) (old : UInt8) :
    ∃ next, pkt.getRawChar char old = ⟨true, ch, next⟩ ∧
      Reading char chars left next := by
  obtain ⟨before, count, place, holds, noStar, stands⟩ := reading.state
  have notStar : ∀ last, before.getLast? = some last → last ≠ ascii '*' :=
    fun last known star => noStar (star ▸ known)
  cases filled : filling before.getLast? count with
  | cons first run =>
      -- The next character belongs to a run.
      obtain ⟨last, known⟩ : ∃ last, before.getLast? = some last := by
        cases known : before.getLast? with
        | none =>
            rw [known] at filled
            cases filled
        | some last => exact ⟨last, rfl⟩
      obtain ⟨more, rfl⟩ : ∃ more, count = more + 1 := by
        cases count with
        | zero =>
            rw [known] at filled
            cases filled
        | succ more => exact ⟨more, rfl⟩
      have list : filling before.getLast? (more + 1) ++ chars.drop place =
          last :: (filling (some last) more ++ chars.drop place) := by
        rw [known]
        rfl
      rw [list] at holds stands
      rw [expand_plain (notStar last known)] at stands
      obtain ⟨rfl, rfl⟩ := List.cons.inj stands
      exact reading_plain holds (notStar ch known) rfl old
  | nil =>
      rw [filled, List.nil_append] at holds stands
      cases here : chars.drop place with
      | nil =>
          rw [here] at stands
          cases stands
      | cons first rest =>
          have restEq := drop_succ_of_drop here
          rw [here] at holds stands
          by_cases star : first = ascii '*'
          · subst star
            rw [expand_star] at stands
            split at stands
            next x length rest known =>
              split at stands
              next => cases stands
              next long =>
                obtain ⟨front, rfl⟩ := List.getLast?_eq_some_iff.mp known
                have count : (char.value length - 28).toNat - 1 =
                    (char.value length - 28).toNat - 2 + 1 := by omega
                rw [count, List.replicate_succ, List.cons_append] at stands
                obtain ⟨rfl, rfl⟩ := List.cons.inj stands
                exact reading_run holds (notStar ch known)
                  (Int.not_lt.mp long) (drop_succ_of_drop restEq.symm) old
            next => cases stands
          · rw [expand_plain star] at stands
            obtain ⟨rfl, rfl⟩ := List.cons.inj stands
            exact @reading_plain char pkt chars before rest ch 0 _ holds star
              restEq old

theorem Reading.stop
    (reading : Reading char chars [] pkt) (old : UInt8) :
    (pkt.getRawChar char old).ok = false := by
  obtain ⟨before, count, place, holds, noStar, stands⟩ := reading.state
  generalize filling before.getLast? count ++ chars.drop place = after
    at holds stands
  cases after with
  | nil => rw [holds.getRawChar_end]
  | cons ch rest =>
      by_cases star : ch = ascii '*'
      · subst star
        rw [expand_star] at stands
        apply holds.getRawChar_malformed
        cases rest with
        | nil => exact .inr (.inl rfl)
        | cons length rest =>
            cases last : before.getLast? with
            | none => exact .inl (List.getLast?_eq_none_iff.mp last)
            | some ch =>
                rw [last] at stands
                dsimp only at stands
                split at stands
                next short => exact .inr (.inr ⟨length, rest, rfl, short⟩)
                next long =>
                  have count := congrArg List.length stands
                  rw [List.length_append, List.length_replicate,
                    List.length_nil] at count
                  omega
      · rw [expand_plain star] at stands
        cases stands

theorem Reading.valid
    (reading : Reading char chars left pkt) :
    pkt.Valid := by
  obtain ⟨before, count, place, holds, -⟩ := reading.state
  exact holds.valid

theorem Reading.unread
    (reading : Reading char chars left pkt) :
    ∃ last count place,
      pkt.unread = filling last count ++ chars.drop place ∧
      left = filling last count ++ expand char last (chars.drop place) := by
  obtain ⟨before, count, place, holds, noStar, stands⟩ := reading.state
  refine ⟨before.getLast?, count, place, holds.unread_eq, ?_⟩
  rw [stands]
  cases last : before.getLast? with
  | none => rfl
  | some ch =>
      rw [last] at noStar
      exact expand_replicate (fun star => noStar (congrArg some star)) _ _

theorem Reading.getRawChars
    (reading : Reading char chars left pkt)
    {count : Nat} (enough : count ≤ left.length) :
    ∃ next, pkt.getRawChars char count = some (left.take count, next) ∧
      Reading char chars (left.drop count) next := by
  induction count generalizing pkt left with
  | zero => exact ⟨pkt, rfl, reading⟩
  | succ count ih =>
      cases left with
      | nil => exact absurd enough (Nat.not_succ_le_zero _)
      | cons ch left =>
          obtain ⟨next, read, after⟩ := reading.next 0
          obtain ⟨final, rest, done⟩ :=
            ih after (Nat.le_of_succ_le_succ enough)
          refine ⟨final, ?_, done⟩
          rw [Packet.getRawChars, read]
          simp only [if_true, rest, Option.map_some, List.take_succ_cons]

theorem reading_start (pkt : Packet) (chars : List UInt8) :
    Reading char chars (expand char none chars)
      (pkt.clear.addString chars) := by
  have holds := (holds_clear pkt).addString chars
  exact ⟨⟨[], 0, 0, holds, nofun, rfl⟩⟩

end Packet

end NativeClient.Gdb
