import NativeClient.Library.Masks
import NativeClient.Runtime.HaltedText

/-!
# Translation of addresses

User addresses are offsets from the start of the sandbox, and code addresses
are masked before the service runtime returns to them.  Where a segment of the
machine bounds the code, the mask only makes the address one of a bundle.
-/

namespace NativeClient.Runtime

open NativeClient.Library

inductive SandboxBuild where
  | x86_32
  | x86_64
  | arm
  deriving DecidableEq

def bundleBits (layout : AppLayout) : BitVec layout.wordBits :=
  ~~~ (BitVec.ofNat layout.wordBits layout.bundleSize - 1)

def naClSandboxCodeAddr (build : SandboxBuild) (layout : AppLayout)
    (addr : BitVec layout.wordBits) : BitVec layout.wordBits :=
  match build with
  | .x86_32 => addr &&& bundleBits layout
  | .x86_64 =>
      ((addr &&& bundleBits layout) &&&
          (BitVec.ofNat layout.wordBits 1 <<< 32 - 1)) +
        BitVec.ofNat layout.wordBits layout.memStart
  | .arm =>
      (addr &&& bundleBits layout) &&&
        ~~~ BitVec.ofNat layout.wordBits 0xF0000000

def BuiltFor (build : SandboxBuild) (layout : AppLayout) : Prop :=
  match build with
  | .x86_32 => layout.wordBits = 32 ∧ layout.addrBits = 30
  | .x86_64 => layout.wordBits = 64 ∧ layout.addrBits = 32 ∧
      2 ^ 32 ∣ layout.memStart
  | .arm => layout.wordBits = 32 ∧ layout.addrBits = 30 ∧ layout.memStart = 0

def CodeInside (build : SandboxBuild) (layout : AppLayout) (addr : Nat) :
    Prop :=
  match build with
  | .x86_64 => layout.memStart ≤ addr ∧
      addr < layout.memStart + 2 ^ layout.addrBits
  | _ => addr < 2 ^ layout.addrBits

def RangeInside (layout : AppLayout) (uaddr count : Nat) : Prop :=
  uaddr + count < 2 ^ layout.wordBits ∧ uaddr + count ≤ 2 ^ layout.addrBits

section Ranges

variable {layout : AppLayout} {uaddr count : Nat}

theorem naClSysToUser_inverts_iff
    (positive : uaddr ≠ 0) (small : uaddr < 2 ^ layout.addrBits) :
    (layout.naClUserToSys uaddr).bind layout.naClSysToUser = some uaddr ↔
      layout.memStart + 2 ^ layout.addrBits ≠ 2 ^ layout.wordBits := by
  have memory := layout.memory
  rw [AddressSpace.naClUserToSys_eq memory (Nat.pos_of_ne_zero positive) small,
    Option.bind_some, AddressSpace.naClSysToUser]
  by_cases last : layout.memStart + 2 ^ layout.addrBits = 2 ^ layout.wordBits
  · have wrapped : wrapWord layout.wordBits
        (layout.memStart + 2 ^ layout.addrBits) = 0 := by
      rw [last, wrapWord, Nat.mod_self]
    rw [wrapped, if_pos (.inr (Nat.zero_le _))]
    exact iff_of_false (Option.some_ne_none uaddr).symm
      (fun differs => differs last)
  · rw [wrapWord_of_lt (by omega), if_neg (by omega)]
    refine iff_of_true ?_ last
    rw [Nat.add_sub_cancel_left]

end Ranges

section CodeAddresses

variable {build : SandboxBuild} {layout : AppLayout}

theorem bundle_mask
    {bits bundle : Nat} (word : bits = 32 ∨ bits = 64)
    (size : bundle = 16 ∨ bundle = 32) :
    ∃ shift, bundle = 2 ^ shift ∧ shift ≤ 5 ∧
      (BitVec.ofNat bits bundle - 1).toNat = 2 ^ shift - 1 := by
  rcases size with rfl | rfl
  · refine ⟨4, rfl, by decide, ?_⟩
    rcases word with rfl | rfl <;> rfl
  · refine ⟨5, rfl, by decide, ?_⟩
    rcases word with rfl | rfl <;> rfl

theorem toNat_and_bundleBits (addr : BitVec layout.wordBits) :
    (addr &&& bundleBits layout).toNat =
      addr.toNat - addr.toNat % layout.bundleSize := by
  obtain ⟨shift, size, -, mask⟩ := bundle_mask layout.word layout.bundle
  rw [bundleBits, toNat_and_not_low addr mask, ← size]

def maskedAddr (build : SandboxBuild) (layout : AppLayout) (addr : Nat) : Nat :=
  match build with
  | .x86_32 => layout.roundDown addr
  | .x86_64 => layout.memStart + layout.roundDown addr % 2 ^ 32
  | .arm => layout.roundDown addr % 2 ^ 28

theorem toNat_sandboxCodeAddr
    (built : BuiltFor build layout) (addr : BitVec layout.wordBits) :
    (naClSandboxCodeAddr build layout addr).toNat =
      maskedAddr build layout addr.toNat := by
  cases build with
  | x86_32 => exact toNat_and_bundleBits addr
  | x86_64 =>
      obtain ⟨wide, addrBits, aligned⟩ := built
      have mask : (BitVec.ofNat layout.wordBits 1 <<< 32 - 1).toNat =
          2 ^ 32 - 1 := by
        rw [wide]
        rfl
      have memory := layout.memory
      rw [addrBits] at memory
      have start : (BitVec.ofNat layout.wordBits layout.memStart).toNat =
          layout.memStart := by
        rw [BitVec.toNat_ofNat]
        exact Nat.mod_eq_of_lt (by omega)
      have low := Nat.mod_lt (layout.roundDown addr.toNat) (Nat.two_pow_pos 32)
      rw [naClSandboxCodeAddr, BitVec.toNat_add, toNat_and_low _ mask,
        toNat_and_bundleBits, start, Nat.add_comm]
      exact Nat.mod_eq_of_lt (by
        rw [AppLayout.roundDown] at low
        omega)
  | arm =>
      obtain ⟨narrow, -, -⟩ := built
      have mask : (~~~ BitVec.ofNat layout.wordBits 0xF0000000).toNat =
          2 ^ 28 - 1 := by
        rw [narrow]
        rfl
      rw [naClSandboxCodeAddr, toNat_and_low _ mask, toNat_and_bundleBits]
      rfl

theorem dvd_roundDown (addr : Nat) :
    layout.bundleSize ∣ layout.roundDown addr :=
  Nat.dvd_sub_mod addr

private theorem bundle_dvd_pow
    (layout : AppLayout) {power : Nat} (large : 5 ≤ power) :
    layout.bundleSize ∣ 2 ^ power := by
  obtain ⟨shift, size, small, -⟩ := bundle_mask layout.word layout.bundle
  rw [size]
  exact Nat.pow_dvd_pow 2 (Nat.le_trans small large)

theorem dvd_maskedAddr (addr : Nat) :
    layout.bundleSize ∣ maskedAddr build layout addr := by
  have multiple := @dvd_roundDown layout addr
  cases build with
  | x86_32 => exact multiple
  | x86_64 =>
      exact Nat.dvd_add layout.memAligned
        ((Nat.dvd_mod_iff (bundle_dvd_pow layout (by decide))).mpr multiple)
  | arm =>
      exact (Nat.dvd_mod_iff (bundle_dvd_pow layout (by decide))).mpr multiple

theorem roundDown_of_dvd
    {addr : Nat} (multiple : layout.bundleSize ∣ addr) :
    layout.roundDown addr = addr := by
  rw [AppLayout.roundDown, Nat.mod_eq_zero_of_dvd multiple, Nat.sub_zero]

theorem maskedAddr_idempotent (built : BuiltFor build layout) (addr : Nat) :
    maskedAddr build layout (maskedAddr build layout addr) =
      maskedAddr build layout addr := by
  have multiple := @dvd_maskedAddr build layout addr
  have round := roundDown_of_dvd multiple
  cases build with
  | x86_32 => exact round
  | x86_64 =>
      obtain ⟨-, -, aligned⟩ := built
      rw [maskedAddr, round, maskedAddr]
      omega
  | arm =>
      rw [maskedAddr, round]
      exact Nat.mod_mod _ _

theorem codeInside_maskedAddr_iff
    (built : BuiltFor build layout) (addr : Nat) :
    CodeInside build layout (maskedAddr build layout addr) ↔
      build ≠ .x86_32 ∨ addr < 2 ^ 30 := by
  cases build with
  | x86_32 =>
      obtain ⟨-, addrBits⟩ := built
      show layout.roundDown addr < 2 ^ layout.addrBits ↔ _
      have bounds : addr - addr % layout.bundleSize < 2 ^ 30 ↔ addr < 2 ^ 30 := by
        rcases layout.bundle with size | size
        · rw [size]
          omega
        · rw [size]
          omega
      rw [AppLayout.roundDown, addrBits, bounds]
      refine ⟨.inr, ?_⟩
      rintro (differs | small)
      · exact absurd rfl differs
      · exact small
  | x86_64 =>
      obtain ⟨-, addrBits, -⟩ := built
      refine iff_of_true ⟨Nat.le_add_right _ _, ?_⟩ (.inl (by decide))
      rw [addrBits]
      exact Nat.add_lt_add_left (Nat.mod_lt _ (Nat.two_pow_pos 32)) _
  | arm =>
      obtain ⟨-, addrBits, -⟩ := built
      refine iff_of_true ?_ (.inl (by decide))
      show layout.roundDown addr % 2 ^ 28 < 2 ^ layout.addrBits
      rw [addrBits]
      have low := Nat.mod_lt (layout.roundDown addr) (Nat.two_pow_pos 28)
      omega

end CodeAddresses

/-- The translations, over the full range of the machine word. -/
theorem translation_exact
    {build : SandboxBuild} {layout : AppLayout} (built : BuiltFor build layout) :
    (∀ uaddr count, uaddr < 2 ^ layout.wordBits → count < 2 ^ layout.wordBits →
      layout.naClUserToSysAddrRange uaddr count ≠ layout.kNaClBadAddress →
        RangeInside layout uaddr count ∧
          ∀ address, uaddr ≤ address → address < uaddr + count →
            layout.memStart + 2 ^ layout.addrBits ≠ 2 ^ layout.wordBits →
              (layout.naClUserToSys address).bind layout.naClSysToUser =
                some address) ∧
      ∀ addr : BitVec layout.wordBits,
        layout.bundleSize ∣ (naClSandboxCodeAddr build layout addr).toNat ∧
          naClSandboxCodeAddr build layout
              (naClSandboxCodeAddr build layout addr) =
            naClSandboxCodeAddr build layout addr ∧
          (CodeInside build layout
              (naClSandboxCodeAddr build layout addr).toNat ↔
            build ≠ .x86_32 ∨ addr.toNat < 2 ^ 30) := by
  constructor
  · intro uaddr count uaddrSmall countSmall good
    obtain ⟨-, positive, inside⟩ :=
      AddressSpace.naClUserToSysAddrRange_good layout.memory countSmall good
    have memory := layout.memory
    refine ⟨⟨by omega, Nat.le_of_lt inside⟩, ?_⟩
    intro address above below notLast
    exact (naClSysToUser_inverts_iff (by omega) (by omega)).mpr notLast
  · intro addr
    refine ⟨?_, ?_, ?_⟩
    · rw [toNat_sandboxCodeAddr built]
      exact dvd_maskedAddr _
    · apply BitVec.eq_of_toNat_eq
      rw [toNat_sandboxCodeAddr built, toNat_sandboxCodeAddr built,
        maskedAddr_idempotent built]
    · rw [toNat_sandboxCodeAddr built]
      exact codeInside_maskedAddr_iff built _

/-- A range and a code address of x86-32 that are in the sandbox. -/
theorem translation_exact_narrow :
    (RangeInside narrowLayout 0x20000 0x1000 ∧
        (narrowLayout.naClUserToSys 0x20010).bind narrowLayout.naClSysToUser =
          some 0x20010) ∧
      CodeInside .x86_32 narrowLayout
        (naClSandboxCodeAddr .x86_32 narrowLayout 0x20021#32).toNat := by
  obtain ⟨ranges, codeAddrs⟩ :=
    @translation_exact .x86_32 narrowLayout ⟨rfl, rfl⟩
  obtain ⟨inside, back⟩ :=
    ranges 0x20000 0x1000 (by decide) (by decide) (by decide)
  refine ⟨⟨inside, back 0x20010 (by decide) (by decide) (by decide)⟩, ?_⟩
  exact (codeAddrs 0x20021#32).2.2.mpr (.inr (by decide))

/-- The last bundle of the machine stays where it is. -/
theorem not_codeInside_last :
    ¬ ∀ (build : SandboxBuild) (layout : AppLayout), BuiltFor build layout →
      ∀ addr, CodeInside build layout
        (naClSandboxCodeAddr build layout addr).toNat := by
  intro inside
  have last := inside .x86_32 narrowLayout ⟨rfl, rfl⟩ 0xFFFFFFFF#32
  revert last
  show ¬ _ < 2 ^ 30
  decide

end NativeClient.Runtime
