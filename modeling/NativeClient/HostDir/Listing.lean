import NativeClient.HostDir.Records

/-!
# Listings

What the calls of `NaClHostDirGetdents` deliver together.  A call gets what
the buffer holds before it, and answers with its stores; addresses are counted
from the beginning of the buffer, and no buffer reaches the end of the address
space.
-/

namespace NativeClient.HostDir

open NativeClient.Library

structure Request where
  length : Nat
  memory : Buffer

structure Reply (Dir : Type) where
  result : Int
  stores : List Store
  dir : Dir

def Reply.after {Dir : Type} (stores : List Store) (reply : Reply Dir) :
    Reply Dir :=
  { reply with stores := stores ++ reply.stores }

def Reply.memory {Dir : Type} (reply : Reply Dir) (request : Request) : Buffer :=
  applyStores reply.stores request.memory

def Reply.Inside {Dir : Type} (reply : Reply Dir) (length : Nat) : Prop :=
  (∀ store ∈ reply.stores, store.address + store.bytes.length ≤ length) ∧
    reply.result ≤ length

/-- The next name has no record of at most `length` bytes. -/
def NextTooLong (length : Nat) : List (Option Name) → Prop
  | [] => True
  | none :: _ => False
  | some name :: _ => length < recordLength name

def Lists {Dir : Type} (getdents : Dir → Request → Reply Dir) :
    List (Option Name) → List Int → Dir → List Request → Prop
  | _, _, _, [] => True
  | names, seen, dir, request :: requests =>
      ∃ records later,
        (getdents dir request).Inside request.length ∧
        Chain ((getdents dir request).memory request) 0
          (getdents dir request).result records ∧
        names = records.map (fun record => some record.name) ++ later ∧
        (seen ++ records.map Record.off).Pairwise (· < ·) ∧
        ((getdents dir request).result = 0 → NextTooLong request.length later) ∧
        Lists getdents later (seen ++ records.map Record.off)
          (getdents dir request).dir requests

variable {Dir : Type} {getdents : Dir → Request → Reply Dir}

theorem lists_cons_iff
    {names later : List (Option Name)} {seen : List Int} {dir : Dir}
    {request : Request} {requests : List Request} {records : List Record}
    (chain : Chain ((getdents dir request).memory request) 0
      (getdents dir request).result records)
    (parts : names = records.map (fun record => some record.name) ++ later) :
    Lists getdents names seen dir (request :: requests) ↔
      (getdents dir request).Inside request.length ∧
        (seen ++ records.map Record.off).Pairwise (· < ·) ∧
        ((getdents dir request).result = 0 → NextTooLong request.length later) ∧
        Lists getdents later (seen ++ records.map Record.off)
          (getdents dir request).dir requests := by
  constructor
  · rintro ⟨others, rest, inside, other, otherParts, increasing, zero, more⟩
    obtain rfl : records = others := chain.unique other
    obtain rfl : later = rest :=
      List.append_cancel_left (parts.symm.trans otherParts)
    exact ⟨inside, increasing, zero, more⟩
  · rintro ⟨inside, increasing, zero, more⟩
    exact ⟨records, later, inside, chain, parts, increasing, zero, more⟩

def increment (off : Int) : Int :=
  Int.bmod (off + 1) (2 ^ 32)

def numbers : Int → Nat → List Int
  | _, 0 => []
  | off, count + 1 => increment off :: numbers (increment off) count

theorem increment_range (off : Int) :
    -2 ^ 31 ≤ increment off ∧ increment off < 2 ^ 31 := by
  have lower : -(2 ^ 32 / 2 : Int) ≤ increment off :=
    Int.le_bmod (by decide)
  have upper : increment off < ((2 ^ 32 + 1) / 2 : Int) :=
    Int.bmod_lt (by decide)
  omega

theorem increment_small
    {off : Nat} (small : off + 1 < 2 ^ 31) :
    increment off = ((off + 1 : Nat) : Int) := by
  unfold increment
  rw [Int.bmod_def]
  split <;> omega

theorem increment_largest :
    increment ((2 ^ 31 - 1 : Nat) : Int) = -2 ^ 31 := by
  decide

def numbered (names : List Name) (off : Int) : List Record :=
  List.zipWith Record.mk names (numbers off names.length)

theorem numbered_cons (name : Name) (names : List Name) (off : Int) :
    numbered (name :: names) off =
      ⟨name, increment off⟩ :: numbered names (increment off) := rfl

theorem numbered_off (names : List Name) (off : Int) :
    (numbered names off).map Record.off = numbers off names.length := by
  induction names generalizing off with
  | nil => rfl
  | cons name names ih =>
      rw [numbered_cons, List.map_cons, ih]
      rfl

theorem numbered_name (names : List Name) (off : Int) :
    (numbered names off).map (fun record => some record.name) =
      names.map some := by
  induction names generalizing off with
  | nil => rfl
  | cons name names ih =>
      rw [numbered_cons, List.map_cons, ih, List.map_cons]

def counted (count : Nat) : List Int :=
  (List.range count).map fun index : Nat => (index : Int) + 1

theorem counted_succ (count : Nat) :
    counted (count + 1) = counted count ++ [((count + 1 : Nat) : Int)] := by
  rw [counted, counted, List.range_succ, List.map_append]
  rfl

theorem increasing_counted (count : Nat) :
    (counted count).Pairwise (· < ·) := by
  rw [counted, List.pairwise_map]
  refine List.pairwise_lt_range.imp ?_
  intro first second less
  omega

theorem one_mem_counted {count : Nat} (positive : 0 < count) :
    1 ∈ counted count :=
  List.mem_map.mpr ⟨0, List.mem_range.mpr positive, rfl⟩

theorem counted_append_numbers
    {done count : Nat} (small : done + count < 2 ^ 31) :
    counted done ++ numbers done count = counted (done + count) := by
  induction count generalizing done with
  | zero => rw [numbers, List.append_nil, Nat.add_zero]
  | succ count ih =>
      have rest := @ih (done + 1) (by omega)
      rw [numbers, increment_small (by omega), List.append_cons, ← counted_succ,
        rest]
      congr 1
      omega

theorem increasing_iff
    {done : Nat} (small : done < 2 ^ 31) (count : Nat) :
    (counted done ++ numbers done count).Pairwise (· < ·) ↔
      done + count < 2 ^ 31 := by
  constructor
  · intro increasing
    by_contra large
    -- The number after the largest `int` is negative.
    obtain ⟨front, back, rfl, full⟩ : ∃ front back, count = front + (back + 1) ∧
        done + front = 2 ^ 31 - 1 :=
      ⟨2 ^ 31 - 1 - done, done + count - 2 ^ 31, by omega, by omega⟩
    have split : ∀ (front done : Nat), done + front = 2 ^ 31 - 1 →
        numbers done (front + (back + 1)) =
          numbers done front ++ numbers ((2 ^ 31 - 1 : Nat) : Int) (back + 1) := by
      intro front
      induction front with
      | zero =>
          intro done whole
          rw [Nat.zero_add, ← whole, Nat.add_zero]
          rfl
      | succ front ih =>
          intro done whole
          rw [show front + 1 + (back + 1) = front + (back + 1) + 1 by omega,
            numbers, numbers, increment_small (by omega), ih (done + 1) (by omega)]
          rfl
    rw [split front done full, ← List.append_assoc,
      counted_append_numbers (by omega), full, numbers, increment_largest]
      at increasing
    have less := (List.pairwise_append.mp increasing).2.2 1
      (one_mem_counted (by omega)) (-2 ^ 31) List.mem_cons_self
    omega
  · intro below
    rw [counted_append_numbers below]
    exact increasing_counted _

theorem increasing_again_iff
    {done : Nat} (count : Nat) :
    (counted done ++ numbers 0 count).Pairwise (· < ·) ↔
      count = 0 ∨ done = 0 ∧ count < 2 ^ 31 := by
  cases done with
  | zero =>
      have alone := increasing_iff (show 0 < 2 ^ 31 by omega) count
      rw [show ((0 : Nat) : Int) = 0 from rfl] at alone
      rw [alone]
      omega
  | succ done =>
      cases count with
      | zero =>
          rw [numbers, List.append_nil]
          exact ⟨fun _ => .inl rfl, fun _ => increasing_counted _⟩
      | succ count =>
          refine ⟨fun increasing => ?_, fun either => by omega⟩
          rw [numbers] at increasing
          have less := (List.pairwise_append.mp increasing).2.2 1
            (one_mem_counted (Nat.succ_pos done)) (increment 0)
            List.mem_cons_self
          exact absurd less (by decide)

end NativeClient.HostDir
