import NativeClient.Validator64.Jumps

/-!
# The reports of the jump validator

`NaClJumpValidatorSummarize` looks at the address sets eight addresses at a
time, in place of a loop over the addresses that is left as a comment.  Here
the addresses are collected that the messages of either loop name; the states
of the validator follow from them, since no message changes a set.
-/

namespace NativeClient.Validator64

open NativeClient.Library

abbrev JumpSets := TargetSet → AddressTable

def reported (config : NaClValidatorConfig) (addresses : List Nat)
    (state : NaClValidatorState) : NaClValidatorState :=
  addresses.foldl (fun current _ => naClValidatorMessage config current) state

section Reports

variable (config : NaClValidatorConfig) (sets : JumpSets)

/-- `NaClAddressSetContains`, with the address of its message if there is
one. -/
def containsReports (set : TargetSet) (address : Nat) : Bool × List Nat :=
  if address < config.vbase ∨ config.vlimit ≤ address then
    (false, [address])
  else
    ((sets set).get (address - config.vbase), [])

def isReachableReports (address : Nat) : Bool × List Nat :=
  match containsReports config sets .possibleTargets address with
  | (true, reports) =>
      match containsReports config sets .removedTargets address with
      | (removed, later) => (!removed, reports ++ later)
  | (false, reports) => (false, reports)

def reachableReports (address : Nat) : List Nat :=
  match isReachableReports config sets address with
  | (true, reports) => reports
  | (false, reports) => reports ++ [address]

def targetReports (address : Nat) : List Nat :=
  match containsReports config sets .actualTargets address with
  | (true, reports) => reports ++ reachableReports config sets address
  | (false, reports) => reports

def naiveReports : List Nat :=
  (List.range config.size).flatMap fun offset =>
    targetReports config sets (config.vbase + offset)

def isProblemByte (byte : Nat) : Bool :=
  (sets .actualTargets byte) &&&
    (~~~ (sets .possibleTargets byte) ||| (sets .removedTargets byte)) != 0

def bitReports (byte bit : Nat) : List Nat :=
  let address := (byte <<< 3 + config.vbase + bit) % 2 ^ 64
  if address < config.vlimit then targetReports config sets address else []

def byteReports (byte : Nat) : List Nat :=
  if isProblemByte sets byte then
    (List.range 8).flatMap (bitReports config sets byte)
  else
    []

def fastReports : List Nat :=
  (List.range (setArraySize config)).flatMap (byteReports config sets)

def bundleReportTurn (turned : Nat × List Nat) :
    Turn (Nat × List Nat) (List Nat) :=
  if turned.1 < config.vlimit then
    .again ((turned.1 + config.alignment) % 2 ^ 64,
      turned.2 ++ reachableReports config sets turned.1)
  else
    .leave turned.2

end Reports

section States

variable (config : NaClValidatorConfig)

theorem reported_append (first second : List Nat) (state : NaClValidatorState) :
    reported config (first ++ second) state =
      reported config second (reported config first state) :=
  List.foldl_append

@[simp] theorem reported_jumpSets
    (addresses : List Nat) (state : NaClValidatorState) :
    (reported config addresses state).jumpSets = state.jumpSets := by
  induction addresses generalizing state with
  | nil => rfl
  | cons address addresses ih =>
      exact (ih _).trans (naClValidatorMessage_fields config state).2.1

theorem naClAddressSetContains_reported
    (set : TargetSet) (address : Nat) (state : NaClValidatorState) :
    naClAddressSetContains config set address state =
      ((containsReports config state.jumpSets set address).1,
        reported config (containsReports config state.jumpSets set address).2
          state) := by
  unfold naClAddressSetContains naClCheckAddressRange containsReports
  by_cases before : address < config.vbase
  · rw [if_pos before, if_pos (.inl before)]
    rfl
  · rw [if_neg before]
    by_cases behind : config.vlimit ≤ address
    · rw [if_pos behind, if_pos (.inr behind)]
      rfl
    · rw [if_neg behind, if_neg (not_or.mpr ⟨before, behind⟩)]
      rfl

theorem isNaClReachableAddress_reported
    (address : Nat) (state : NaClValidatorState) :
    isNaClReachableAddress config address state =
      ((isReachableReports config state.jumpSets address).1,
        reported config (isReachableReports config state.jumpSets address).2
          state) := by
  unfold isNaClReachableAddress isReachableReports
  rw [naClAddressSetContains_reported]
  cases possible : containsReports config state.jumpSets .possibleTargets address with
  | mk found reports =>
      cases found with
      | false => rfl
      | true =>
          dsimp only
          rw [naClAddressSetContains_reported, reported_jumpSets]
          cases containsReports config state.jumpSets .removedTargets address with
          | mk removed later => rw [reported_append]

theorem checkReachable_reported (address : Nat) (state : NaClValidatorState) :
    checkReachable config address state =
      reported config (reachableReports config state.jumpSets address) state := by
  unfold checkReachable reachableReports
  rw [isNaClReachableAddress_reported]
  cases isReachableReports config state.jumpSets address with
  | mk reachable reports =>
      cases reachable with
      | true => rfl
      | false =>
          dsimp only
          rw [reported_append]
          rfl

theorem checkTarget_reported
    (byte bit : Nat) (state : NaClValidatorState) :
    checkTarget config byte state bit =
      reported config (bitReports config state.jumpSets byte bit) state := by
  unfold checkTarget bitReports targetReports
  dsimp only
  split
  · rw [naClAddressSetContains_reported]
    cases containsReports config state.jumpSets .actualTargets
        ((byte <<< 3 + config.vbase + bit) % 2 ^ 64) with
    | mk found reports =>
        cases found with
        | false => rfl
        | true =>
            dsimp only
            rw [checkReachable_reported, reported_jumpSets, reported_append]
  · rfl

theorem foldl_reported
    {check : NaClValidatorState → Nat → NaClValidatorState}
    {reports : JumpSets → Nat → List Nat}
    (each : ∀ state index,
      check state index = reported config (reports state.jumpSets index) state)
    (indices : List Nat) (state : NaClValidatorState) :
    indices.foldl check state =
      reported config (indices.flatMap (reports state.jumpSets)) state := by
  induction indices generalizing state with
  | nil => rfl
  | cons index indices ih =>
      rw [List.foldl_cons, each, ih, reported_jumpSets, List.flatMap_cons,
        reported_append]

theorem checkTargetByte_reported (state : NaClValidatorState) (byte : Nat) :
    checkTargetByte config state byte =
      reported config (byteReports config state.jumpSets byte) state := by
  unfold checkTargetByte byteReports
  rw [show isProblem state byte = isProblemByte state.jumpSets byte from rfl]
  split
  · exact @foldl_reported config (checkTarget config byte)
      (fun sets => bitReports config sets byte)
      (fun current bit => checkTarget_reported config byte bit current) _ state
  · rfl

theorem checkTargets_reported (state : NaClValidatorState) :
    checkTargets config state =
      reported config (fastReports config state.jumpSets) state :=
  foldl_reported config (checkTargetByte_reported config) _ state

theorem bundleTurn_reported
    (fuel address : Nat) (reports : List Nat) (state : NaClValidatorState) :
    runLoop (bundleTurn config) fuel (address, reported config reports state) =
      (runLoop (bundleReportTurn config state.jumpSets) fuel
        (address, reports)).map fun all => reported config all state := by
  induction fuel generalizing address reports with
  | zero => rfl
  | succ fuel ih =>
      rw [runLoop, runLoop, bundleTurn, bundleReportTurn]
      dsimp only
      by_cases more : address < config.vlimit
      · rw [if_pos more, if_pos more]
        dsimp only
        rw [checkReachable_reported, reported_jumpSets, ← reported_append]
        exact ih _ _
      · rw [if_neg more, if_neg more]
        rfl

end States

section Addresses

variable (config : NaClValidatorConfig) (sets : JumpSets)

def Allowed (address : Nat) : Prop :=
  (sets .possibleTargets).get (address - config.vbase) = true ∧
    (sets .removedTargets).get (address - config.vbase) = false

def InCode (address : Nat) : Prop :=
  config.vbase ≤ address ∧ address < config.vlimit

def Targeted (address : Nat) : Prop :=
  (sets .actualTargets).get (address - config.vbase) = true

variable {config sets}

theorem containsReports_inside
    {address : Nat} (inside : InCode config address) (set : TargetSet) :
    containsReports config sets set address =
      ((sets set).get (address - config.vbase), []) := by
  unfold containsReports
  rw [if_neg (not_or.mpr ⟨Nat.not_lt.mpr inside.1, Nat.not_le.mpr inside.2⟩)]

theorem mem_reachableReports
    {address : Nat} (inside : InCode config address) (other : Nat) :
    other ∈ reachableReports config sets address ↔
      other = address ∧ ¬ Allowed config sets address := by
  unfold reachableReports isReachableReports Allowed
  rw [containsReports_inside inside, containsReports_inside inside]
  cases (sets .possibleTargets).get (address - config.vbase) <;>
    cases (sets .removedTargets).get (address - config.vbase) <;>
    simp

theorem mem_targetReports
    {address : Nat} (inside : InCode config address) (other : Nat) :
    other ∈ targetReports config sets address ↔
      other = address ∧ Targeted config sets address ∧
        ¬ Allowed config sets address := by
  unfold targetReports Targeted
  rw [containsReports_inside inside]
  cases (sets .actualTargets).get (address - config.vbase) with
  | false => simp
  | true =>
      dsimp only
      rw [List.nil_append, mem_reachableReports inside]
      simp

theorem targetReports_before
    {address : Nat} (before : address < config.vbase) :
    targetReports config sets address = [address] := by
  unfold targetReports containsReports
  rw [if_pos (.inl before)]

theorem mem_naiveReports (address : Nat) :
    address ∈ naiveReports config sets ↔
      InCode config address ∧ Targeted config sets address ∧
        ¬ Allowed config sets address := by
  unfold naiveReports
  rw [List.mem_flatMap]
  constructor
  · rintro ⟨offset, member, found⟩
    have inside : InCode config (config.vbase + offset) :=
      ⟨Nat.le_add_right _ _,
        Nat.add_lt_add_left (List.mem_range.mp member) _⟩
    obtain ⟨rfl, targeted, refused⟩ := (mem_targetReports inside _).mp found
    exact ⟨inside, targeted, refused⟩
  · rintro ⟨inside, targeted, refused⟩
    have above := inside.1
    have below := inside.2
    unfold NaClValidatorConfig.vlimit at below
    refine ⟨address - config.vbase, List.mem_range.mpr (by omega), ?_⟩
    rw [Nat.add_sub_of_le inside.1]
    exact (mem_targetReports inside _).mpr ⟨rfl, targeted, refused⟩

theorem byte_eq_zero_iff (byte : UInt8) :
    byte = 0 ↔ ∀ bit < 8, byte.toBitVec.getLsbD bit = false := by
  rw [← UInt8.toBitVec_inj]
  constructor
  · intro zero bit _
    rw [zero]
    simp
  · intro all
    apply BitVec.eq_of_getLsbD_eq
    intro bit small
    rw [all bit small]
    simp

theorem isProblemByte_iff (byte : Nat) :
    isProblemByte sets byte = true ↔ ∃ bit < 8,
      (sets .actualTargets).get (8 * byte + bit) = true ∧
        ¬ ((sets .possibleTargets).get (8 * byte + bit) = true ∧
          (sets .removedTargets).get (8 * byte + bit) = false) := by
  unfold isProblemByte
  rw [bne_iff_ne, ne_eq, byte_eq_zero_iff]
  push Not
  refine exists_congr fun bit => and_congr_right fun small => ?_
  rw [AddressTable.get_eq_bit, AddressTable.get_eq_bit, AddressTable.get_eq_bit,
    show (8 * byte + bit) / 8 = byte by omega,
    show (8 * byte + bit) % 8 = bit by omega]
  simp only [UInt8.toBitVec_and, UInt8.toBitVec_or, UInt8.toBitVec_not,
    BitVec.getLsbD_and, BitVec.getLsbD_or, BitVec.getLsbD_not, small]
  cases (sets .actualTargets byte).toBitVec.getLsbD bit <;>
    cases (sets .possibleTargets byte).toBitVec.getLsbD bit <;>
    cases (sets .removedTargets byte).toBitVec.getLsbD bit <;>
    simp

theorem setArraySize_bounds (config : NaClValidatorConfig) :
    config.size / 8 < setArraySize config ∧
      8 * (setArraySize config - 1) ≤ config.vlimit := by
  rw [setArraySize, NaClValidatorConfig.vlimit, Nat.shiftRight_eq_div_pow]
  omega

theorem mem_bitReports (byte bit address : Nat) :
    address ∈ bitReports config sets byte bit ↔
      (8 * byte + config.vbase + bit) % 2 ^ 64 < config.vlimit ∧
        address ∈ targetReports config sets
          ((8 * byte + config.vbase + bit) % 2 ^ 64) := by
  unfold bitReports
  rw [Nat.shiftLeft_eq, Nat.mul_comm byte]
  dsimp only
  split
  next below => exact (and_iff_right below).symm
  next beyond => exact iff_of_false List.not_mem_nil fun found => beyond found.1

theorem mem_fastReports (address : Nat) :
    address ∈ fastReports config sets ↔
      ∃ byte < setArraySize config, isProblemByte sets byte = true ∧
        ∃ bit < 8, address ∈ bitReports config sets byte bit := by
  unfold fastReports byteReports
  simp only [List.mem_flatMap, List.mem_range]
  refine exists_congr fun byte => and_congr_right fun _ => ?_
  split
  next problem =>
    rw [List.mem_flatMap]
    simp only [List.mem_range, problem, true_and]
  next fine => exact iff_of_false List.not_mem_nil fun found => fine found.1

def StaysInside (config : NaClValidatorConfig) (sets : JumpSets) : Prop :=
  ∀ byte < setArraySize config, isProblemByte sets byte = true →
    config.vbase + 8 * byte + 7 < 2 ^ 64

theorem fast_iff_naive :
    (∀ address, address ∈ fastReports config sets ↔
      address ∈ naiveReports config sets) ↔ StaysInside config sets := by
  have bounded := config.bounded
  have bounds := setArraySize_bounds config
  constructor
  · intro same byte small problem
    by_contra wraps
    -- The last address of the byte wraps around to one before the segment.
    have wrapped : (8 * byte + config.vbase + 7) % 2 ^ 64 < config.vbase := by
      unfold NaClValidatorConfig.vlimit at bounds
      omega
    have found : (8 * byte + config.vbase + 7) % 2 ^ 64 ∈
        fastReports config sets := by
      rw [mem_fastReports]
      refine ⟨byte, small, problem, 7, by omega, ?_⟩
      rw [mem_bitReports, targetReports_before wrapped]
      exact ⟨wrapped.trans_le (Nat.le_add_right _ _), List.mem_singleton_self _⟩
    have inside := ((mem_naiveReports _).mp ((same _).mp found)).1
    exact absurd inside.1 (Nat.not_le.mpr wrapped)
  · intro stays address
    rw [mem_fastReports, mem_naiveReports]
    constructor
    · rintro ⟨byte, small, problem, bit, bitSmall, found⟩
      have within := stays byte small problem
      rw [mem_bitReports, Nat.mod_eq_of_lt (by omega)] at found
      have inside : InCode config (8 * byte + config.vbase + bit) :=
        ⟨by omega, found.1⟩
      obtain ⟨rfl, targeted, refused⟩ := (mem_targetReports inside _).mp found.2
      exact ⟨inside, targeted, refused⟩
    · rintro ⟨inside, targeted, refused⟩
      have above := inside.1
      have below := inside.2
      have position : 8 * ((address - config.vbase) / 8) +
          (address - config.vbase) % 8 = address - config.vbase := by
        omega
      have small : (address - config.vbase) / 8 < setArraySize config := by
        unfold NaClValidatorConfig.vlimit at below
        omega
      refine ⟨(address - config.vbase) / 8, small, ?_,
        (address - config.vbase) % 8, by omega, ?_⟩
      · rw [isProblemByte_iff]
        refine ⟨(address - config.vbase) % 8, by omega, ?_⟩
        rw [position]
        exact ⟨targeted, refused⟩
      · have here : 8 * ((address - config.vbase) / 8) + config.vbase +
            (address - config.vbase) % 8 = address := by
          omega
        have noWrap : address % 2 ^ 64 = address :=
          Nat.mod_eq_of_lt (below.trans bounded)
        rw [mem_bitReports, here, noWrap]
        exact ⟨below, (mem_targetReports inside _).mpr ⟨rfl, targeted, refused⟩⟩

theorem bundles_reported
    (room : config.vlimit + config.alignment ≤ 2 ^ 64)
    {address : Nat} (inCode : config.vbase ≤ address)
    (aligned : address % config.alignment = 0)
    (done : List Nat) (rest : Nat) (counted : config.vlimit ≤ address + rest) :
    ∃ reports, Returns (bundleReportTurn config sets) (address, done)
        (done ++ reports) ∧
      ∀ other, other ∈ reports ↔
        address ≤ other ∧ other < config.vlimit ∧
          other % config.alignment = 0 ∧ ¬ Allowed config sets other := by
  have positive : 0 < config.alignment := by
    rcases config.bundles with sixteen | thirtyTwo <;> omega
  induction rest using Nat.strong_induction_on generalizing address done with
  | _ rest ih =>
      by_cases more : address < config.vlimit
      · have action : bundleReportTurn config sets (address, done) =
            .again (address + config.alignment,
              done ++ reachableReports config sets address) := by
          rw [bundleReportTurn, if_pos more, Nat.mod_eq_of_lt (by omega)]
        obtain ⟨reports, returns, values⟩ := ih (rest - config.alignment)
          (by omega) (inCode.trans (Nat.le_add_right _ _))
          (by rw [Nat.add_mod_right]; exact aligned)
          (done ++ reachableReports config sets address) (by omega)
        refine ⟨reachableReports config sets address ++ reports, ?_,
          fun other => ?_⟩
        · rw [← List.append_assoc]
          exact (returns_again action).mpr returns
        · rw [List.mem_append, mem_reachableReports ⟨inCode, more⟩, values]
          have next : other % config.alignment = 0 → address < other →
              address + config.alignment ≤ other := by
            intro otherAligned later
            rcases config.bundles with size | size <;>
              rw [size] at aligned otherAligned ⊢ <;>
              omega
          constructor
          · rintro (⟨rfl, refused⟩ | ⟨later, below, otherAligned, refused⟩)
            · exact ⟨le_refl _, more, aligned, refused⟩
            · exact ⟨by omega, below, otherAligned, refused⟩
          · rintro ⟨above, below, otherAligned, refused⟩
            rcases Nat.eq_or_lt_of_le above with rfl | later
            · exact .inl ⟨rfl, refused⟩
            · exact .inr ⟨next otherAligned later, below, otherAligned, refused⟩
      · have action : bundleReportTurn config sets (address, done) = .leave done := by
          rw [bundleReportTurn, if_neg more]
        refine ⟨[], ?_, fun other => ?_⟩
        · rw [List.append_nil]
          exact (returns_leave action).mpr rfl
        · exact iff_of_false List.not_mem_nil fun found => by omega

end Addresses

theorem naClJumpValidatorSummarize_reported
    (config : NaClValidatorConfig) (fuel : Nat) {state : NaClValidatorState}
    (running : state.quit = false)
    (aligned : config.vbase &&& config.alignmentMask = 0) :
    naClJumpValidatorSummarize config fuel state =
      (runLoop (bundleReportTurn config state.jumpSets) fuel
        (config.vbase, fastReports config state.jumpSets)).map fun all =>
          reported config all state := by
  unfold naClJumpValidatorSummarize checkBundles
  rw [if_neg (Bool.eq_false_iff.mp running), if_neg (not_not.mpr aligned),
    checkTargets_reported]
  exact bundleTurn_reported config fuel config.vbase _ state

/-- The loop over the bytes reports an address just if the loop over the
addresses does, unless a byte with a problem goes on behind the last address
that there is.  Then, if the segment ends a bundle before that, all loops
together report the targets and the starts of bundles that are not allowed. -/
theorem jumpReports_iff (config : NaClValidatorConfig) (sets : JumpSets) :
    ((∀ address, address ∈ fastReports config sets ↔
      address ∈ naiveReports config sets) ↔ StaysInside config sets) ∧
    (StaysInside config sets → config.vbase &&& config.alignmentMask = 0 →
      config.vlimit + config.alignment ≤ 2 ^ 64 →
      ∃ reports, Returns (bundleReportTurn config sets)
          (config.vbase, fastReports config sets) reports ∧
        ∀ address, address ∈ reports ↔
          InCode config address ∧
            (Targeted config sets address ∨ address % config.alignment = 0) ∧
            ¬ Allowed config sets address) := by
  refine ⟨fast_iff_naive, ?_⟩
  intro stays aligned room
  rw [and_alignmentMask] at aligned
  obtain ⟨bundles, returns, values⟩ := bundles_reported room (le_refl _) aligned
    (fastReports config sets) config.size (le_refl _)
  refine ⟨_, returns, fun address => ?_⟩
  rw [List.mem_append, values, fast_iff_naive.mpr stays, mem_naiveReports]
  unfold InCode
  tauto

def highSegment : NaClValidatorConfig where
  vbase := 2 ^ 64 - 29
  size := 28
  alignment := 32
  baseRegister := .regR15
  cpuFeatures := { toCPUFeatures := {} }
  doStubOut := false
  logsErrors := true
  naclFlagsMaxReportedErrors := 100
  naclFlagsReadSandbox := false
  naclFlagsIdentityMask := false
  pastRegTable64 := fun _ => 0
  nonempty := by decide
  bounded := by decide
  bundles := bundle32
  reserved := regR15_reserved

def lastTarget : JumpSets
  | .actualTargets => AddressTable.empty.set 24
  | _ => AddressTable.empty

/-- The byte of that address reaches the addresses 0, 1 and 2. -/
theorem highSegment_differs :
    ¬ ∀ address, address ∈ fastReports highSegment lastTarget ↔
      address ∈ naiveReports highSegment lastTarget := by
  rw [fast_iff_naive]
  intro stays
  exact absurd (stays 3 (by decide) (by decide)) (by decide)

end NativeClient.Validator64
