import Mathlib.Data.List.Basic
import Mathlib.Data.List.Nodup
import Mathlib.Algebra.Group.Nat.Defs

/-!
# Messages with wrapped descriptors

`DescWrapper::SendMsg` and `DescWrapper::RecvMsg` copy the vectors of a message
into memory of their own, which they free at one label.  The receiver puts a
wrapper around each descriptor, which then owns it.  A pointer is a number, and
the null pointer is zero.
-/

namespace NativeClient.Desc.Wrapper

inductive Width where
  | bits32
  | bits64

def Width.sizeMax : Width → Nat
  | bits32 => 2 ^ 32 - 1
  | bits64 => 2 ^ 64 - 1

def Width.pointerSize : Width → Nat
  | bits32 => 4
  | bits64 => 8

/-- `sizeof(NaClImcMsgIoVec)`, a pointer and a length of 32 bits. -/
def Width.iovecSize (width : Width) : Nat := 2 * width.pointerSize

def handleCountMax : Nat := 8

def noMemory : Int := -12

structure IoVec where
  base : Nat
  length : Nat

/-- What the memory gives in a call: the pointer that `header.iov` happens to
hold at first, the two vectors, and whether there is room for each wrapper. -/
structure Memory where
  stale : Nat
  iov : Nat
  ndescv : Nat
  wrapper : Nat → Bool

def FreesOwn (allocated freed : List Nat) : Prop :=
  (freed.filter (· ≠ 0)).Perm (allocated.filter (· ≠ 0))

variable {δ : Type} (width : Width) (memory : Memory)

section Send

structure SendHeader (δ : Type) where
  iov : List IoVec
  ndescv : List δ

structure Sent where
  result : Int
  allocated : List Nat
  freed : List Nat

variable (send : List IoVec → List δ → Int → Int)

/-- `DescWrapper::SendMsg`; it has no result if it stores through a null
pointer. -/
def sendMsg (dgram : SendHeader δ) (flags : Int) : Option Sent :=
  if width.sizeMax / width.iovecSize ≤ dgram.iov.length then
    some ⟨noMemory, [], [0, memory.stale]⟩
  else if memory.iov = 0 then
    some ⟨noMemory, [], [0, memory.iov]⟩
  else if handleCountMax < dgram.ndescv.length then
    some ⟨noMemory, [memory.iov], [0, memory.iov]⟩
  else if width.sizeMax / width.pointerSize ≤ dgram.ndescv.length then
    some ⟨noMemory, [memory.iov], [0, memory.iov]⟩
  -- The test after the second allocation asks about the first.
  else if memory.iov = 0 then
    some ⟨noMemory, [memory.iov, memory.ndescv], [memory.ndescv, memory.iov]⟩
  else if memory.ndescv = 0 ∧ dgram.ndescv ≠ [] then
    none
  else
    some ⟨send dgram.iov dgram.ndescv flags, [memory.iov, memory.ndescv],
      [memory.ndescv, memory.iov]⟩

end Send

section Receive

structure RecvHeader where
  iov : List IoVec
  room : Nat

/-- What `NaClImcRecvTypedMessage` gives, no more descriptors than there is
room for. -/
structure Typed (δ : Type) (room : Nat) where
  count : Nat
  flags : Int
  ndescv : List δ
  fits : ndescv.length ≤ room

/-- What a receiver leaves.  A slot holds a wrapper by its number, in the order
in which they are made; `desc` are the descriptors of the wrappers. -/
structure Received (δ : Type) where
  result : Int
  allocated : List Nat
  freed : List Nat
  received : List δ
  length : Nat
  slots : List (Option Nat)
  desc : List δ
  deleted : List Nat

def Received.released (reply : Received δ) : List δ :=
  reply.deleted.filterMap fun number => reply.desc[number]?

def wrapLoop (wrapper : Nat → Bool) :
    Nat → Nat → List (Option Nat) → List (Option Nat) × Nat × Bool
  | 0, index, slots => (slots, index, true)
  | rest + 1, index, slots =>
      if wrapper index then
        wrapLoop wrapper rest (index + 1) (slots.set index (some index))
      else
        (slots.set index none, index, false)

variable (receive : List IoVec → (room : Nat) → Int →
  Except {value : Int // value < 0} (Typed δ room))

/-- The label `cleanup` deletes what is in the slots. -/
def cleanup (result : Int) (allocated freed : List Nat) (received : List δ)
    (length : Nat) (slots : List (Option Nat)) (desc : List δ) : Received δ :=
  ⟨result, allocated, freed, received, length, slots, desc, slots.filterMap id⟩

def recvMsg (dgram : RecvHeader) (flags : Int) : Received δ :=
  let slots := List.replicate dgram.room none
  if width.sizeMax / width.iovecSize ≤ dgram.iov.length then
    cleanup noMemory [] [0, memory.stale] [] dgram.room slots []
  else if memory.iov = 0 then
    cleanup noMemory [] [0, memory.iov] [] dgram.room slots []
  else if handleCountMax < dgram.room then
    cleanup noMemory [memory.iov] [0, memory.iov] [] dgram.room slots []
  else if width.sizeMax / width.pointerSize ≤ dgram.room then
    cleanup noMemory [memory.iov] [0, memory.iov] [] dgram.room slots []
  else if memory.ndescv = 0 then
    cleanup noMemory [memory.iov, memory.ndescv] [memory.ndescv, memory.iov] []
      dgram.room slots []
  else
    match receive dgram.iov dgram.room flags with
    | .error ret =>
        cleanup ret [memory.iov, memory.ndescv] [memory.ndescv, memory.iov] []
          dgram.room slots []
    | .ok typed =>
        match wrapLoop memory.wrapper typed.ndescv.length 0 slots with
        | (slots, _, true) =>
            ⟨typed.count, [memory.iov, memory.ndescv],
              [memory.ndescv, memory.iov], typed.ndescv, typed.ndescv.length,
              slots, typed.ndescv, []⟩
        | (slots, made, false) =>
            cleanup typed.count [memory.iov, memory.ndescv]
              [memory.ndescv, memory.iov] typed.ndescv typed.ndescv.length slots
              (typed.ndescv.take made)

structure Received.HeldOnce (reply : Received δ) : Prop where
  counted : reply.length = reply.received.length
  wrapped : reply.desc.length = reply.received.length
  live : ∀ index < reply.received.length, ∃ number,
    reply.slots[index]? = some (some number) ∧ number ∉ reply.deleted ∧
      reply.desc[number]? = reply.received[index]?
  once : ∀ (first second number : Nat), reply.slots[first]? = some (some number) →
    reply.slots[second]? = some (some number) → first = second

structure Received.GivenUp (reply : Received δ) : Prop where
  released : reply.released.Perm reply.received
  cleared : ∀ number ∈ reply.deleted, some number ∉ reply.slots

structure Received.OwnsOnce (reply : Received δ) : Prop where
  frees : FreesOwn reply.allocated reply.freed
  success : 0 ≤ reply.result → reply.HeldOnce
  failure : reply.result < 0 → reply.GivenUp

theorem wrapLoop_all
    {wrapper : Nat → Bool} {rest index : Nat} {slots : List (Option Nat)}
    (room : index + rest ≤ slots.length)
    (all : ∀ place, index ≤ place → place < index + rest → wrapper place = true) :
    ∃ filled, wrapLoop wrapper rest index slots = (filled, index + rest, true) ∧
      ∀ place : Nat, filled[place]? =
        if index ≤ place ∧ place < index + rest then some (some place)
        else slots[place]? := by
  induction rest generalizing index slots with
  | zero =>
      refine ⟨slots, rfl, fun place => ?_⟩
      rw [if_neg (by omega)]
  | succ rest ih =>
      have here := all index (Nat.le_refl _) (by omega)
      obtain ⟨filled, same, values⟩ := @ih (index + 1)
        (slots.set index (some index)) (by rw [List.length_set]; omega)
        fun place above below => all place (by omega) (by omega)
      refine ⟨filled, ?_, fun place => ?_⟩
      · rw [wrapLoop, if_pos here, same]
        congr 2
        omega
      · rw [values, List.getElem?_set]
        by_cases first : index = place
        · subst first
          rw [if_neg (by omega), if_pos rfl, if_pos (by omega),
            if_pos (by omega)]
        · rw [if_neg first]
          by_cases inside : index ≤ place ∧ place < index + (rest + 1)
          · rw [if_pos inside, if_pos (by omega)]
          · rw [if_neg inside, if_neg (by omega)]

theorem wrapLoop_fails
    {wrapper : Nat → Bool} {rest index : Nat} {slots : List (Option Nat)}
    (fails : ¬ ∀ place, index ≤ place → place < index + rest →
      wrapper place = true) :
    ∃ left made, wrapLoop wrapper rest index slots = (left, made, false) ∧
      made < index + rest := by
  induction rest generalizing index slots with
  | zero => exact absurd (fun place above below => by omega) fails
  | succ rest ih =>
      rw [wrapLoop]
      by_cases here : wrapper index = true
      · rw [if_pos here]
        obtain ⟨left, made, same, below⟩ := @ih (index + 1)
          (slots.set index (some index)) fun all => fails fun place above below => by
            rcases Nat.eq_or_lt_of_le above with rfl | later
            · exact here
            · exact all place later (by omega)
        exact ⟨left, made, same, by omega⟩
      · rw [if_neg here]
        exact ⟨_, index, rfl, by omega⟩

variable {width memory}

theorem freesOwn_nothing {stale : Nat} :
    FreesOwn [] [0, stale] ↔ stale = 0 := by
  unfold FreesOwn
  by_cases null : stale = 0
  · simp [null]
  · simp [null]

theorem freesOwn_iov (iov : Nat) : FreesOwn [iov] [0, iov] := by
  unfold FreesOwn
  rw [List.filter_cons_of_neg (by decide)]

theorem freesOwn_both (iov ndescv : Nat) :
    FreesOwn [iov, ndescv] [ndescv, iov] :=
  (List.Perm.swap _ _ []).filter _

/-- The pointer `header.iov` has been set before it is freed, or is null. -/
def Freed (width : Width) (memory : Memory) (iov : List IoVec) : Prop :=
  iov.length < width.sizeMax / width.iovecSize ∨ memory.stale = 0

structure Reaches (width : Width) (memory : Memory) (iov : List IoVec)
    (count : Nat) : Prop where
  short : iov.length < width.sizeMax / width.iovecSize
  copied : memory.iov ≠ 0
  few : count ≤ handleCountMax

theorem Reaches.room {iov : List IoVec} {count : Nat}
    (reaches : Reaches width memory iov count) :
    count < width.sizeMax / width.pointerSize := by
  have few := reaches.few
  cases width <;> simp only [Width.sizeMax, Width.pointerSize, handleCountMax] at * <;>
    omega

theorem cleanup_owns
    {result : Int} {allocated freed : List Nat} (room length : Nat)
    (negative : result < 0) :
    (cleanup (δ := δ) result allocated freed [] length (List.replicate room none)
      []).OwnsOnce ↔ FreesOwn allocated freed := by
  refine ⟨fun owns => owns.frees, fun frees => ⟨frees, ?_, fun _ => ⟨?_, ?_⟩⟩⟩
  · intro success
    exact absurd negative (Int.not_lt.mpr success)
  · unfold Received.released cleanup
    simp
  · intro number member
    unfold cleanup at member
    simp at member

theorem wrapped_owns
    {room : Nat} (typed : Typed δ room) (iov ndescv : Nat)
    {slots : List (Option Nat)}
    (values : ∀ place : Nat, slots[place]? =
      if 0 ≤ place ∧ place < 0 + typed.ndescv.length then some (some place)
      else (List.replicate room none)[place]?) :
    (⟨typed.count, [iov, ndescv], [ndescv, iov], typed.ndescv,
      typed.ndescv.length, slots, typed.ndescv, []⟩ : Received δ).OwnsOnce := by
  have number_eq : ∀ place number : Nat, slots[place]? = some (some number) →
      number = place := by
    intro place number held
    rw [values] at held
    split at held
    · cases held
      rfl
    · rw [List.getElem?_replicate] at held
      split at held <;> cases held
  refine ⟨freesOwn_both iov ndescv, fun _ => ⟨rfl, rfl, ?_, ?_⟩, fun negative => ?_⟩
  · intro index inside
    refine ⟨index, ?_, List.not_mem_nil, rfl⟩
    dsimp only at inside ⊢
    rw [values, if_pos (by omega)]
  · intro first second number held also
    exact (number_eq first number held).symm.trans (number_eq second number also)
  · exact absurd negative (Int.not_lt.mpr (Int.natCast_nonneg _))

theorem not_owns_partly
    {room : Nat} (typed : Typed δ room) {allocated freed : List Nat}
    {slots : List (Option Nat)} {made : Nat} (fewer : made < typed.ndescv.length) :
    ¬ (cleanup typed.count allocated freed typed.ndescv typed.ndescv.length slots
      (typed.ndescv.take made)).OwnsOnce := by
  intro owns
  have wrapped : (typed.ndescv.take made).length = typed.ndescv.length :=
    (owns.success (Int.natCast_nonneg _)).wrapped
  rw [List.length_take] at wrapped
  omega

end Receive

section Calls

variable {width memory}

theorem sendMsg_frees_iff
    (send : List IoVec → List δ → Int → Int) (dgram : SendHeader δ) (flags : Int) :
    (∀ reply, sendMsg width memory send dgram flags = some reply →
      FreesOwn reply.allocated reply.freed) ↔ Freed width memory dgram.iov := by
  unfold sendMsg Freed
  split
  next long =>
    constructor
    · intro frees
      exact .inr (freesOwn_nothing.mp (frees _ rfl))
    · rintro (short | stale) reply same
      · omega
      · cases same
        exact freesOwn_nothing.mpr stale
  next short =>
    refine ⟨fun _ => .inl (Nat.not_le.mp short), fun _ reply same => ?_⟩
    split at same
    next null =>
      cases same
      exact freesOwn_nothing.mpr null
    next =>
      split at same
      next =>
        cases same
        exact freesOwn_iov memory.iov
      next =>
        split at same
        next =>
          cases same
          exact freesOwn_iov memory.iov
        next =>
          split at same
          next => cases same
          next =>
            cases same
            exact freesOwn_both _ _

theorem sendMsg_returns_iff
    (send : List IoVec → List δ → Int → Int) (dgram : SendHeader δ) (flags : Int) :
    (∃ reply, sendMsg width memory send dgram flags = some reply) ↔
      (Reaches width memory dgram.iov dgram.ndescv.length →
        memory.ndescv ≠ 0 ∨ dgram.ndescv = []) := by
  by_cases reaches : Reaches width memory dgram.iov dgram.ndescv.length
  · have room := reaches.room
    unfold sendMsg
    rw [if_neg (Nat.not_le.mpr reaches.short), if_neg reaches.copied,
      if_neg (Nat.not_lt.mpr reaches.few), if_neg (Nat.not_le.mpr room),
      if_neg reaches.copied]
    split
    next crashes =>
      constructor
      · rintro ⟨reply, same⟩
        cases same
      · intro either
        exact absurd crashes (not_and_or.mpr ((either reaches).imp id
          fun empty some => some empty))
    next returns =>
      refine ⟨fun _ _ => ?_, fun _ => ⟨_, rfl⟩⟩
      exact (not_and_or.mp returns).imp id not_not.mp
  · refine ⟨fun _ here => absurd here reaches, fun _ => ?_⟩
    unfold sendMsg
    split
    next => exact ⟨_, rfl⟩
    next short =>
      split
      next => exact ⟨_, rfl⟩
      next copied =>
        split
        next => exact ⟨_, rfl⟩
        next few =>
          exact absurd ⟨Nat.not_le.mp short, copied, Nat.not_lt.mp few⟩ reaches

theorem recvMsg_owns_iff
    (receive : List IoVec → (room : Nat) → Int →
      Except {value : Int // value < 0} (Typed δ room))
    (dgram : RecvHeader) (flags : Int) :
    (recvMsg width memory receive dgram flags).OwnsOnce ↔
      Freed width memory dgram.iov ∧
        (Reaches width memory dgram.iov dgram.room → memory.ndescv ≠ 0 →
          ∀ typed, receive dgram.iov dgram.room flags = .ok typed →
            ∀ index < typed.ndescv.length, memory.wrapper index = true) := by
  have negative : noMemory < 0 := by decide
  unfold recvMsg
  dsimp only
  split
  next long =>
    have beyond : ¬ Reaches width memory dgram.iov dgram.room := fun reaches =>
      Nat.not_le.mpr reaches.short long
    rw [cleanup_owns _ _ negative, freesOwn_nothing]
    constructor
    · intro stale
      exact ⟨.inr stale, fun reaches => absurd reaches beyond⟩
    · rintro ⟨short | stale, -⟩
      · omega
      · exact stale
  next notLong =>
    have short := Nat.not_le.mp notLong
    have freed : Freed width memory dgram.iov := .inl short
    split
    next null =>
      rw [cleanup_owns _ _ negative, freesOwn_nothing]
      exact ⟨fun _ => ⟨freed, fun reaches => absurd null reaches.copied⟩,
        fun _ => null⟩
    next copied =>
      split
      next many =>
        rw [cleanup_owns _ _ negative]
        exact ⟨fun _ => ⟨freed, fun reaches =>
          absurd reaches.few (Nat.not_le.mpr many)⟩, fun _ => freesOwn_iov _⟩
      next notMany =>
        have reaches : Reaches width memory dgram.iov dgram.room :=
          ⟨short, copied, Nat.not_lt.mp notMany⟩
        rw [if_neg (Nat.not_le.mpr reaches.room)]
        split
        next null =>
          rw [cleanup_owns _ _ negative]
          exact ⟨fun _ => ⟨freed, fun _ some => absurd null some⟩,
            fun _ => freesOwn_both _ _⟩
        next allocated =>
          cases given : receive dgram.iov dgram.room flags with
          | error ret =>
              dsimp only
              rw [cleanup_owns _ _ ret.property]
              exact ⟨fun _ => ⟨freed, fun _ _ typed same => by cases same⟩,
                fun _ => freesOwn_both _ _⟩
          | ok typed =>
              dsimp only
              by_cases all : ∀ index < typed.ndescv.length,
                  memory.wrapper index = true
              · obtain ⟨slots, same, values⟩ := @wrapLoop_all memory.wrapper
                  typed.ndescv.length 0 (List.replicate dgram.room none)
                  (by
                    rw [List.length_replicate, Nat.zero_add]
                    exact typed.fits)
                  fun place _ below => all place (by omega)
                rw [same]
                refine iff_of_true (wrapped_owns typed _ _ values) ⟨freed, ?_⟩
                intro _ _ other sameTyped
                cases sameTyped
                exact all
              · obtain ⟨slots, made, same, fewer⟩ := @wrapLoop_fails memory.wrapper
                  typed.ndescv.length 0 (List.replicate dgram.room none)
                  fun every => all fun index below =>
                    every index (Nat.zero_le _) (by omega)
                rw [same]
                refine iff_of_false (not_owns_partly typed (by omega)) ?_
                rintro ⟨-, every⟩
                exact all (every reaches allocated typed rfl)

/-- The sender frees what it allocated just if its first check passes or the
pointer that it has not set is null, and returns just if it does not fill a
vector that it did not get.  The receiver keeps its promises just if, besides
the former, there is room for all wrappers. -/
theorem wrappedMessages_iff
    (width : Width) (memory : Memory) (flags : Int)
    (send : List IoVec → List δ → Int → Int) (dgram : SendHeader δ)
    (receive : List IoVec → (room : Nat) → Int →
      Except {value : Int // value < 0} (Typed δ room))
    (empty : RecvHeader) :
    ((∀ reply, sendMsg width memory send dgram flags = some reply →
      FreesOwn reply.allocated reply.freed) ↔ Freed width memory dgram.iov) ∧
    ((∃ reply, sendMsg width memory send dgram flags = some reply) ↔
      (Reaches width memory dgram.iov dgram.ndescv.length →
        memory.ndescv ≠ 0 ∨ dgram.ndescv = [])) ∧
    ((recvMsg width memory receive empty flags).OwnsOnce ↔
      Freed width memory empty.iov ∧
        (Reaches width memory empty.iov empty.room → memory.ndescv ≠ 0 →
          ∀ typed, receive empty.iov empty.room flags = .ok typed →
            ∀ index < typed.ndescv.length, memory.wrapper index = true)) :=
  ⟨sendMsg_frees_iff send dgram flags, sendMsg_returns_iff send dgram flags,
    recvMsg_owns_iff receive empty flags⟩

/-- The descriptor of a message of four bytes arrives, and there is no room for
its wrapper. -/
theorem noWrapper_lost :
    ¬ (recvMsg .bits64 ⟨0, 16, 32, fun _ => false⟩
      (fun _ room _ => if one : 1 ≤ room then .ok ⟨4, 0, ["desc"], one⟩
        else .error ⟨-1, by decide⟩) ⟨[⟨64, 4⟩], 1⟩ 0).OwnsOnce := by
  intro owns
  have wrapped := (owns.success (by decide)).wrapped
  exact absurd wrapped (by decide)

end Calls

end NativeClient.Desc.Wrapper
