import NativeClient.OuterSandbox.TracedThreads

/-!
# What the outer sandbox enforces

The rule for `kill` looks at the right register, and the table and the one
`execve` are kept.  The rule for `fcntl` reads its arguments one register too
early, the rule for `clone` writes its flags one register too late, and the
permission for `execve` is used up when the call is left.
-/

namespace NativeClient.OuterSandbox

open NativeClient.Library

variable {filter : SyscallFilter} {regs : UserRegs} {call pid : Nat}
  {entering : Bool}

section Flags

theorem twoPow_ne_zero {bit : Nat} (small : bit < 32) :
    BitVec.twoPow 32 bit ≠ 0 := by
  intro zero
  have set := congrArg (fun word => BitVec.getLsbD word bit) zero
  simp [small] at set

theorem lacks_twoPow {flags : Word} {bit : Nat} (small : bit < 32) :
    Lacks flags (BitVec.twoPow 32 bit) ↔ flags.getLsbD bit = false := by
  rw [Lacks, BitVec.and_twoPow]
  split
  · next set => exact iff_of_false (twoPow_ne_zero small) (by simp [set])
  · next unset => exact iff_of_true rfl (Bool.not_eq_true _ ▸ unset)

theorem has_iff_not_lacks {flags : Word} {bit : Nat} (small : bit < 32) :
    Has flags (BitVec.twoPow 32 bit) ↔ ¬ Lacks flags (BitVec.twoPow 32 bit) := by
  rw [lacks_twoPow small, Has, BitVec.and_twoPow]
  split
  · next set => exact iff_of_true rfl (by simp [set])
  · next unset =>
      exact iff_of_false (Ne.symm (twoPow_ne_zero small)) (by simp [unset])

theorem lacks_or_clonePtrace
    {flags : Word} (bit : Nat) (small : bit < 32)
    (other : clonePtrace.getLsbD bit = false) :
    Lacks (flags ||| clonePtrace) (BitVec.twoPow 32 bit) ↔
      Lacks flags (BitVec.twoPow 32 bit) := by
  rw [lacks_twoPow small, lacks_twoPow small, BitVec.getLsbD_or, other,
    Bool.or_false]

theorem clonePasses_iff {flags : Word} :
    ClonePasses flags ↔ Has flags cloneThread ∧ Lacks flags cloneVfork ∧
      Lacks flags cloneStopped ∧ Lacks flags cloneNewns := by
  have thread : Has flags cloneThread ↔
      ¬ Lacks (flags ||| clonePtrace) cloneThread := by
    rw [show cloneThread = BitVec.twoPow 32 16 from rfl,
      has_iff_not_lacks (by decide), lacks_or_clonePtrace 16 (by decide) rfl]
  have vfork : Lacks (flags ||| clonePtrace) cloneVfork ↔
      Lacks flags cloneVfork :=
    lacks_or_clonePtrace 14 (by decide) rfl
  have stopped : Lacks (flags ||| clonePtrace) cloneStopped ↔
      Lacks flags cloneStopped :=
    lacks_or_clonePtrace 25 (by decide) rfl
  have newns : Lacks (flags ||| clonePtrace) cloneNewns ↔
      Lacks flags cloneNewns :=
    lacks_or_clonePtrace 17 (by decide) rfl
  rw [ClonePasses, thread, vfork, stopped, newns]

/-- The flags that `CloneChecker` stores. -/
def cloneFlags (flags : Word) : Word :=
  (flags ||| clonePtrace) &&&
    ~~~(cloneUntraced ||| cloneStopped ||| cloneVfork ||| cloneNewns)

theorem cloneFlags_eq {flags : Word} (traced : TracedThread flags) :
    cloneFlags flags = flags := by
  have ptrace : flags &&& clonePtrace = clonePtrace := traced.ptrace
  have without : flags &&&
      (cloneUntraced ||| cloneStopped ||| cloneVfork ||| cloneNewns) = 0 := by
    rw [BitVec.and_or_distrib_left, BitVec.and_or_distrib_left,
      BitVec.and_or_distrib_left,
      show flags &&& cloneUntraced = 0 from traced.untraced,
      show flags &&& cloneStopped = 0 from traced.stopped,
      show flags &&& cloneVfork = 0 from traced.vfork,
      show flags &&& cloneNewns = 0 from traced.newns]
    rfl
  unfold cloneFlags
  generalize cloneUntraced ||| cloneStopped ||| cloneVfork ||| cloneNewns = removed
    at without
  refine BitVec.eq_of_getLsbD_eq fun bit small => ?_
  have added := congrArg (fun word => BitVec.getLsbD word bit) ptrace
  have left := congrArg (fun word => BitVec.getLsbD word bit) without
  simp only [BitVec.getLsbD_and] at added left
  simp only [BitVec.getLsbD_and, BitVec.getLsbD_or, BitVec.getLsbD_not, small,
    decide_true, Bool.true_and]
  cases flag : flags.getLsbD bit <;> simp_all

theorem traced_iff {flags other : Word} (passes : ClonePasses flags) :
    (TracedThread flags ∧ cloneFlags flags = other) ↔
      Has flags clonePtrace ∧ Lacks flags cloneUntraced ∧ other = flags := by
  obtain ⟨thread, vfork, stopped, newns⟩ := clonePasses_iff.mp passes
  constructor
  · rintro ⟨traced, rfl⟩
    exact ⟨traced.ptrace, traced.untraced, cloneFlags_eq traced⟩
  · rintro ⟨ptrace, untraced, rfl⟩
    have traced : TracedThread other :=
      ⟨thread, ptrace, untraced, stopped, vfork, newns⟩
    exact ⟨traced, cloneFlags_eq traced⟩

end Flags

section Rules

theorem cloneRule_passes : (cloneRule regs).1 = true ↔ ClonePasses (getReg1 regs) := by
  unfold cloneRule ClonePasses Lacks
  dsimp only
  split
  · next unset => exact iff_of_false nofun fun passes => passes.1 unset
  · next thread =>
      split
      · next vfork => exact iff_of_false nofun fun passes => vfork passes.2.1
      · next vfork =>
          split
          · next stopped =>
              exact iff_of_false nofun fun passes => stopped passes.2.2.1
          · next stopped =>
              split
              · next newns =>
                  exact iff_of_false nofun fun passes => newns passes.2.2.2
              · next newns =>
                  exact iff_of_true rfl ⟨thread, not_not.mp vfork,
                    not_not.mp stopped, not_not.mp newns⟩

theorem cloneRule_after (passed : (cloneRule regs).1 = true) :
    (cloneRule regs).2 = setReg2 regs (cloneFlags (getReg1 regs)) := by
  unfold cloneRule at passed ⊢
  dsimp only at passed ⊢
  split at passed
  · cases passed
  split at passed
  · cases passed
  split at passed
  · cases passed
  split at passed
  · cases passed
  · next thread vfork stopped newns =>
      rw [if_neg thread, if_neg vfork, if_neg stopped, if_neg newns]
      rfl

theorem fcntlRule_passes :
    fcntlRule regs = true ↔ ¬ Forbidden (getReg1 regs) (getReg2 regs) := by
  unfold fcntlRule Forbidden Lacks
  dsimp only
  split
  · next isSetfd => simp [isSetfd]
  · next notSetfd =>
      split
      · next isSetsig =>
          rw [isSetsig]
          exact iff_of_true rfl (by simp [fSetsig, fSetfd, fSetfl])
      · split
        · next isSetfl => simp [isSetfl, fSetfd, fSetfl]
        · next notSetfl => simp [notSetfd, notSetfl]

end Rules

section Filter

theorem runRule_permitted
    (called : Calls regs call) (small : call < syscallTableSize) :
    (runRule filter pid regs entering).1 =
      ((filter.syscallRules call).allowed &&
        ((filter.syscallRules call).kind.runRule regs).1) := by
  have inside : ¬ (0 > getSyscall regs ∨ getSyscall regs ≥ syscallTableSize) := by
    rw [called]
    omega
  have index : (getSyscall regs).toNat = call := by
    rw [called]
    exact Int.toNat_natCast call
  simp only [runRule, if_neg inside, index]
  cases (filter.syscallRules call).allowed with
  | false => rfl
  | true => cases passed : ((filter.syscallRules call).kind.runRule regs).1 <;> simp

theorem runRule_after
    (called : Calls regs call)
    (permitted : (runRule filter pid regs entering).1 = true) :
    (runRule filter pid regs entering).2.1 =
      ((filter.syscallRules call).kind.runRule regs).2 := by
  have index : (getSyscall regs).toNat = call := by
    rw [called]
    exact Int.toNat_natCast call
  unfold runRule at permitted ⊢
  dsimp only at permitted ⊢
  rw [index] at permitted ⊢
  split at permitted
  · cases permitted
  split at permitted
  · cases permitted
  split at permitted
  · cases permitted
  · next inside allowed passed => rw [if_neg inside, if_neg allowed, if_neg passed]

theorem exists_call
    (permitted : (runRule filter pid regs entering).1 = true) :
    ∃ call < syscallTableSize, Calls regs call ∧
      (filter.syscallRules call).allowed = true := by
  have inside : ¬ (0 > getSyscall regs ∨ getSyscall regs ≥ syscallTableSize) := by
    intro outside
    simp only [runRule, if_pos outside] at permitted
    cases permitted
  have called : Calls regs (getSyscall regs).toNat := by
    unfold Calls
    omega
  have small : (getSyscall regs).toNat < syscallTableSize := by
    omega
  rw [runRule_permitted called small, Bool.and_eq_true] at permitted
  exact ⟨_, small, called, permitted.1⟩

theorem runRule_rules
    (filter : SyscallFilter) (pid : Nat) (regs : UserRegs) (entering : Bool) :
    ((runRule filter pid regs entering).1 = false ∧
      (runRule filter pid regs entering).2.2.syscallRules =
        filter.syscallRules) ∨
    ∃ call, Calls regs call ∧ (filter.syscallRules call).allowed = true ∧
      (runRule filter pid regs entering).2.2.syscallRules =
        Function.update filter.syscallRules call
          { filter.syscallRules call with
            allowed := !(filter.syscallRules call).once } := by
  unfold runRule
  dsimp only
  split
  · exact .inl ⟨rfl, rfl⟩
  · next inside =>
      have called : Calls regs (getSyscall regs).toNat := by
        unfold Calls
        omega
      split
      · exact .inl ⟨rfl, rfl⟩
      · next allowed =>
          have was : (filter.syscallRules (getSyscall regs).toNat).allowed =
              true := by
            simpa using allowed
          split <;> exact .inr ⟨_, called, was, rfl⟩

end Filter

section Configuration

structure Configured (filter : SyscallFilter) : Prop where
  table : ∀ call, (filter.syscallRules call).allowed = true → call ∈ tableCalls
  execve : (filter.syscallRules nrExecve).kind = .syscallChecker
  once : (filter.syscallRules nrExecve).once = true
  kill : (filter.syscallRules nrKill).kind = .killChecker
  clone : (filter.syscallRules nrClone).kind = .cloneChecker
  fcntl : (filter.syscallRules nrFcntl).kind = .fcntlChecker
  fcntl64 : (filter.syscallRules nrFcntl64).kind = .fcntlChecker

theorem foldl_update_of_notMem
    {α : Type} (target : α → Nat)
    (change : (Nat → SyscallChecker) → α → SyscallChecker) {items : List α}
    {rules : Nat → SyscallChecker} (outside : call ∉ items.map target) :
    items.foldl (fun rules item =>
      Function.update rules (target item) (change rules item)) rules call =
        rules call := by
  induction items generalizing rules with
  | nil => rfl
  | cons item items ih =>
      obtain ⟨distinct, rest⟩ := List.ne_and_not_mem_of_not_mem_cons outside
      exact (ih rest).trans (Function.update_of_ne distinct _ _)

theorem initSyscallRules_of_notMem
    {once : Nat → Bool} (outside : call ∉ tableCalls) :
    initSyscallRules once call = ⟨.syscallChecker, false, false⟩ := by
  obtain ⟨notExecve, rest⟩ := List.ne_and_not_mem_of_not_mem_cons outside
  obtain ⟨notChecked, notPlain⟩ := not_or.mp (mt List.mem_append.mpr rest)
  have plain : call ∉ plainCalls.map id := by
    rwa [List.map_id]
  refine (foldl_update_of_notMem id
    (fun rules call => { rules call with allowed := true }) plain).trans ?_
  refine (foldl_update_of_notMem Prod.fst
    (fun _ item => ⟨item.2, true, once item.1⟩) notChecked).trans ?_
  exact Function.update_of_ne notExecve _ _

theorem configured_syscallFilter (once : Nat → Bool) :
    Configured (syscallFilter once pid) := by
  refine ⟨?_, rfl, rfl, rfl, rfl, rfl, rfl⟩
  intro call allowed
  by_contra outside
  have rule : (syscallFilter once pid).syscallRules call =
      ⟨.syscallChecker, false, false⟩ :=
    initSyscallRules_of_notMem outside
  rw [rule] at allowed
  cases allowed

theorem runRule_keeps
    (filter : SyscallFilter) (pid : Nat) (regs : UserRegs) (entering : Bool)
    (number : Nat) :
    ((runRule filter pid regs entering).2.2.syscallRules number).kind =
        (filter.syscallRules number).kind ∧
      ((runRule filter pid regs entering).2.2.syscallRules number).once =
        (filter.syscallRules number).once ∧
      (((runRule filter pid regs entering).2.2.syscallRules number).allowed =
        true → (filter.syscallRules number).allowed = true) := by
  rcases runRule_rules filter pid regs entering with
    ⟨-, same⟩ | ⟨call, -, allowed, changed⟩
  · rw [same]
    exact ⟨rfl, rfl, id⟩
  · rw [changed]
    by_cases own : number = call
    · rw [own, Function.update_self]
      exact ⟨rfl, rfl, fun _ => allowed⟩
    · rw [Function.update_of_ne own]
      exact ⟨rfl, rfl, id⟩

theorem Configured.runRule
    (configured : Configured filter) :
    Configured (runRule filter pid regs entering).2.2 := by
  have kept := runRule_keeps filter pid regs entering
  exact ⟨fun call allowed => configured.table call ((kept call).2.2 allowed),
    (kept _).1.trans configured.execve, (kept _).2.1.trans configured.once,
    (kept _).1.trans configured.kill, (kept _).1.trans configured.clone,
    (kept _).1.trans configured.fcntl, (kept _).1.trans configured.fcntl64⟩

theorem execve_used
    (configured : Configured filter) (called : Calls regs nrExecve)
    (permitted : (runRule filter pid regs entering).1 = true) :
    ((OuterSandbox.runRule filter pid regs entering).2.2.syscallRules
      nrExecve).allowed = false := by
  rcases runRule_rules filter pid regs entering with
    ⟨denied, -⟩ | ⟨call, calledToo, -, changed⟩
  · rw [denied] at permitted
    cases permitted
  · have same : nrExecve = call := Int.ofNat.inj (called.symm.trans calledToo)
    rw [changed, ← same, Function.update_self]
    simp [configured.once]

end Configuration

section Judgements

theorem fcntl_iff
    (small : call < syscallTableSize) (called : Calls regs call)
    (kind : (filter.syscallRules call).kind = .fcntlChecker) :
    ((runRule filter pid regs entering).1 = true →
      ¬ Forbidden (getReg2 regs) (getReg3 regs)) ↔
    ((filter.syscallRules call).allowed = true →
      Forbidden (getReg2 regs) (getReg3 regs) →
      Forbidden (getReg1 regs) (getReg2 regs)) := by
  have passes : ((filter.syscallRules call).kind.runRule regs).1 = true ↔
      ¬ Forbidden (getReg1 regs) (getReg2 regs) := by
    rw [kind]
    exact fcntlRule_passes
  rw [runRule_permitted called small, Bool.and_eq_true, passes, and_imp]
  exact imp_congr_right fun _ => not_imp_not

theorem clone_iff
    (called : Calls regs nrClone)
    (kind : (filter.syscallRules nrClone).kind = .cloneChecker) :
    ((runRule filter pid regs entering).1 = true →
      TracedThread (getReg1 (runRule filter pid regs entering).2.1) ∧
        (runRule filter pid regs entering).2.1 =
          setReg1 regs (getReg1 (runRule filter pid regs entering).2.1)) ↔
    ((filter.syscallRules nrClone).allowed = true →
      ClonePasses (getReg1 regs) →
      Has (getReg1 regs) clonePtrace ∧ Lacks (getReg1 regs) cloneUntraced ∧
        getReg2 regs = getReg1 regs) := by
  have permitted : (runRule filter pid regs entering).1 = true ↔
      (filter.syscallRules nrClone).allowed = true ∧
        ClonePasses (getReg1 regs) := by
    rw [runRule_permitted called (by decide), kind, Bool.and_eq_true,
      ← cloneRule_passes]
    rfl
  have same (passes : ClonePasses (getReg1 regs))
      (granted : (runRule filter pid regs entering).1 = true) :
      (TracedThread (getReg1 (runRule filter pid regs entering).2.1) ∧
        (runRule filter pid regs entering).2.1 =
          setReg1 regs (getReg1 (runRule filter pid regs entering).2.1)) ↔
      Has (getReg1 regs) clonePtrace ∧ Lacks (getReg1 regs) cloneUntraced ∧
        getReg2 regs = getReg1 regs := by
    have after : (runRule filter pid regs entering).2.1 =
        setReg2 regs (cloneFlags (getReg1 regs)) := by
      rw [runRule_after called granted, kind]
      exact cloneRule_after (cloneRule_passes.mpr passes)
    have unchanged : setReg2 regs (cloneFlags (getReg1 regs)) =
        setReg1 regs (getReg1 regs) ↔
        cloneFlags (getReg1 regs) = getReg2 regs := by
      cases regs
      simp [setReg1, setReg2, getReg1, getReg2]
    rw [after, ← traced_iff passes, ← unchanged]
    rfl
  constructor
  · intro traced allowed passes
    have granted := permitted.mpr ⟨allowed, passes⟩
    exact (same passes granted).mp (traced granted)
  · intro harmless granted
    obtain ⟨allowed, passes⟩ := permitted.mp granted
    exact (same passes granted).mpr (harmless allowed passes)

/-- The rules of the filter read the right registers exactly at the harmless
stops.  The permission to leave `execve` has been used up before. -/
theorem enforced_iff
    {sandbox : Sandbox} (configured : Configured sandbox.filter)
    (used : entering = false → Calls regs nrExecve →
      (sandbox.filter.syscallRules nrExecve).allowed = false) :
    Enforced regs ⟨entering, (runRule sandbox.filter pid regs entering).1,
        (runRule sandbox.filter pid regs entering).2.1,
        (runRule sandbox.filter pid regs entering).2.2⟩ ↔
      Harmless sandbox entering regs := by
  have small : nrFcntl < syscallTableSize ∧ nrFcntl64 < syscallTableSize := by
    decide
  constructor
  · intro enforced
    refine ⟨?_, ?_, ?_⟩
    · intro leaving called
      have permitted := enforced.execveLeft leaving called
      rw [runRule_permitted called (by decide), used leaving called] at permitted
      cases permitted
    · rintro call (rfl | rfl) called
      · exact (fcntl_iff small.1 called configured.fcntl).mp
          fun permitted => enforced.fcntl permitted (.inl called)
      · exact (fcntl_iff small.2 called configured.fcntl64).mp
          fun permitted => enforced.fcntl permitted (.inr called)
    · intro enters called
      exact (clone_iff called configured.clone).mp
        fun permitted => enforced.clone enters permitted called
  · intro harmless
    refine ⟨?_, ?_, ?_, ?_, ?_⟩
    · intro permitted
      obtain ⟨call, -, called, allowed⟩ := exists_call permitted
      exact ⟨call, configured.table call allowed, called⟩
    · intro leaving called
      exact absurd called (harmless.execve leaving)
    · intro permitted called
      dsimp only at permitted
      rw [runRule_permitted called (by decide), configured.kill,
        Bool.and_eq_true] at permitted
      exact of_decide_eq_true permitted.2
    · rintro permitted (called | called)
      · exact (fcntl_iff small.1 called configured.fcntl).mpr
          (harmless.fcntl _ (.inl rfl) called) permitted
      · exact (fcntl_iff small.2 called configured.fcntl64).mpr
          (harmless.fcntl _ (.inr rfl) called) permitted
    · intro enters permitted called
      exact (clone_iff called configured.clone).mpr
        (harmless.clone enters called) permitted

end Judgements

section Runs

variable {sandbox next : Sandbox} {tid : Nat}

/-- The rules are as they were made, and whoever is inside `execve` has used up
its permission. -/
structure Invariant (sandbox : Sandbox) : Prop where
  configured : Configured sandbox.filter
  used : ∀ tid child, sandbox.threadState tid = some child →
    child.inSyscall = true → child.currentSyscall.toInt = (nrExecve : Int) →
    (sandbox.filter.syscallRules nrExecve).allowed = false

theorem judge_cases
    {judgement : Judgement} (judged : judge sandbox tid regs = some judgement) :
    ∃ child entering, sandbox.threadState tid = some child ∧
      entering = !child.inSyscall ∧
      (entering = false → regs.origEax = child.currentSyscall) ∧
      judgement = ⟨entering, (runRule sandbox.filter tid regs entering).1,
        (runRule sandbox.filter tid regs entering).2.1,
        (runRule sandbox.filter tid regs entering).2.2⟩ := by
  unfold judge threadEnteringSyscall at judged
  split at judged
  · cases judged
  · next child known =>
      dsimp only at judged
      split at judged
      · cases judged
      split at judged
      · cases judged
      · next noError _ =>
          obtain ⟨⟨settled, -⟩, current⟩ :
              (child.needsSetup = false ∧ _) ∧
                (child.inSyscall = true → regs.origEax = child.currentSyscall) := by
            simpa [not_or] using noError
          cases judged
          refine ⟨child, _, known, ?_, ?_, rfl⟩
          · rw [settled]
            rfl
          · rw [settled]
            intro leaving
            exact current (by simpa using leaving)

theorem runRule_origEax :
    (runRule filter pid regs entering).2.1.origEax = regs.origEax := by
  have rule (kind : CheckerClass) : (kind.runRule regs).2.origEax = regs.origEax := by
    cases kind with
    | cloneChecker =>
        unfold CheckerClass.runRule cloneRule
        dsimp only
        split
        · rfl
        split
        · rfl
        split
        · rfl
        split
        · rfl
        · rfl
    | _ => rfl
  unfold runRule
  dsimp only
  split
  · rfl
  split
  · rfl
  split <;> exact rule _

theorem Invariant.setChild
    (inv : Invariant sandbox) {child : Option TracedChild}
    (used : ∀ found, child = some found → found.inSyscall = true →
      found.currentSyscall.toInt = (nrExecve : Int) →
      (sandbox.filter.syscallRules nrExecve).allowed = false) :
    Invariant (sandbox.setChild tid child) := by
  refine ⟨inv.configured, ?_⟩
  intro other found known
  change Function.update sandbox.threadState tid child other = some found at known
  by_cases own : other = tid
  · rw [own, Function.update_self] at known
    exact used found known
  · rw [Function.update_of_ne own] at known
    exact inv.used other found known

theorem Invariant.judged
    (inv : Invariant sandbox) (tid : Nat) (regs : UserRegs) (entering : Bool) :
    Invariant { sandbox with
      filter := (runRule sandbox.filter tid regs entering).2.2 } := by
  refine ⟨inv.configured.runRule, ?_⟩
  intro other child known inside current
  have before := inv.used other child known inside current
  by_contra allowed
  have kept := (runRule_keeps sandbox.filter tid regs entering nrExecve).2.2
    (Bool.not_eq_false _ ▸ allowed)
  rw [before] at kept
  cases kept

theorem step_keeps
    (inv : Invariant sandbox) {event : Event}
    (stepped : step sandbox event = some next) : Invariant next := by
  unfold step at stepped
  split at stepped
  · cases stepped
  have killed : Invariant { sandbox with killed := true } :=
    ⟨inv.configured, inv.used⟩
  cases event with
  | addThread tid =>
      dsimp only at stepped
      split at stepped
      · cases stepped
        refine inv.setChild ?_
        rintro found same inside
        cases same
        cases inside
      · cases stepped
        exact inv
  | setupThread tid =>
      dsimp only at stepped
      split at stepped
      · cases stepped
        exact killed
      · next child known =>
          cases stepped
          refine inv.setChild ?_
          rintro found same inside current
          cases same
          exact inv.used tid child known inside current
  | removeThread tid =>
      dsimp only at stepped
      split at stepped
      · cases stepped
        exact killed
      · cases stepped
        exact inv.setChild nofun
  | stop tid regs =>
      dsimp only at stepped
      split at stepped
      · cases stepped
        exact killed
      · next judgement judged =>
          obtain ⟨child, entering, known, enters, -, rfl⟩ := judge_cases judged
          have after := inv.judged tid regs entering
          split at stepped
          · cases stepped
            exact ⟨after.configured, after.used⟩
          · next permitted =>
              have granted : (runRule sandbox.filter tid regs entering).1 =
                  true := by
                simpa using permitted
              cases stepped
              refine after.setChild ?_
              intro found same inside current
              rw [known] at same
              cases same
              unfold changeThreadSyscallStatus at inside current
              dsimp only at inside current
              split at inside
              · next outside =>
                  rw [if_pos outside, runRule_origEax] at current
                  exact execve_used inv.configured current granted
              · cases inside

theorem enforces_iff
    (inv : Invariant sandbox) (event : Event) :
    Enforces sandbox event ↔ HarmlessStop sandbox event := by
  refine forall_congr' fun tid => forall_congr' fun regs =>
    forall_congr' fun _ => forall_congr' fun judgement =>
    forall_congr' fun judged => ?_
  obtain ⟨child, entering, known, enters, current, rfl⟩ := judge_cases judged
  refine enforced_iff inv.configured ?_
  intro leaving called
  have inside : child.inSyscall = true := by
    rw [leaving] at enters
    simpa using enters
  refine inv.used tid child known inside ?_
  rw [← current leaving]
  exact called

theorem entersExecve_used
    (inv : Invariant sandbox) {event : Event}
    (stepped : step sandbox event = some next)
    (enters : entersExecve sandbox event = true) :
    (sandbox.filter.syscallRules nrExecve).allowed = true ∧
      (next.filter.syscallRules nrExecve).allowed = false := by
  cases event with
  | stop tid regs =>
      unfold entersExecve at enters
      unfold step at stepped
      split at stepped
      · cases stepped
      dsimp only at enters stepped
      split at enters
      · cases enters
      · next judgement judged =>
          rw [judged] at stepped
          obtain ⟨child, entering, -, -, -, rfl⟩ := judge_cases judged
          dsimp only at enters stepped
          obtain ⟨⟨-, permitted⟩, called⟩ :
              (entering = true ∧
                (runRule sandbox.filter tid regs entering).1 = true) ∧
              Calls regs nrExecve := by
            simpa using enters
          have used := execve_used inv.configured called permitted
          have answer := permitted
          rw [runRule_permitted called (by decide), Bool.and_eq_true] at answer
          rw [permitted] at stepped
          cases stepped
          exact ⟨answer.1, used⟩
  | addThread => cases enters
  | setupThread => cases enters
  | removeThread => cases enters

theorem allowed_of_step
    {event : Event} (stepped : step sandbox event = some next)
    (allowed : (next.filter.syscallRules nrExecve).allowed = true) :
    (sandbox.filter.syscallRules nrExecve).allowed = true := by
  unfold step at stepped
  split at stepped
  · cases stepped
  cases event with
  | stop tid regs =>
      dsimp only at stepped
      split at stepped
      · cases stepped
        exact allowed
      · next judgement judged =>
          obtain ⟨child, entering, -, -, -, rfl⟩ := judge_cases judged
          refine (runRule_keeps sandbox.filter tid regs entering nrExecve).2.2 ?_
          split at stepped
          · cases stepped
            exact allowed
          · cases stepped
            exact allowed
  | addThread tid =>
      dsimp only at stepped
      split at stepped <;> cases stepped <;> exact allowed
  | setupThread tid =>
      dsimp only at stepped
      split at stepped <;> cases stepped <;> exact allowed
  | removeThread tid =>
      dsimp only at stepped
      split at stepped <;> cases stepped <;> exact allowed

theorem execveEntries_le
    (inv : Invariant sandbox) (events : List Event) :
    execveEntries sandbox events ≤
      if (sandbox.filter.syscallRules nrExecve).allowed then 1 else 0 := by
  induction events generalizing sandbox with
  | nil => exact Nat.zero_le _
  | cons event events ih =>
      unfold execveEntries
      split
      · exact Nat.zero_le _
      · next after stepped =>
          have later := ih (step_keeps inv stepped)
          by_cases enters : entersExecve sandbox event = true
          · obtain ⟨allowed, used⟩ := entersExecve_used inv stepped enters
            rw [used, if_neg Bool.false_ne_true] at later
            rw [allowed, if_pos enters, if_pos rfl]
            omega
          · rw [if_neg enters, Nat.zero_add]
            refine Nat.le_trans later ?_
            split
            · next allowed =>
                exact Nat.le_of_eq
                  (if_pos (allowed_of_step stepped allowed)).symm
            · exact Nat.zero_le _

theorem invariant_startedSandbox (once : Nat → Bool) (pid : Nat) (cs : Word) :
    Invariant (startedSandbox once pid cs) := by
  refine ⟨configured_syscallFilter once, ?_⟩
  intro tid child known inside
  change Function.update (fun _ => none) pid (some ⟨false, false, -1⟩) tid =
    some child at known
  rw [Function.update_apply] at known
  split at known
  · cases known
    cases inside
  · cases known

/-- The sandbox enforces its rules in a run if and only if all stops of the run
are harmless. -/
theorem outer_sandbox
    (once : Nat → Bool) (pid : Nat) (cs : Word) (events : List Event) :
    (AllSteps step Enforces (startedSandbox once pid cs) events ∧
      execveEntries (startedSandbox once pid cs) events ≤ 1) ↔
    AllSteps step HarmlessStop (startedSandbox once pid cs) events := by
  have inv := invariant_startedSandbox once pid cs
  have same : AllSteps step Enforces (startedSandbox once pid cs) events ↔
      AllSteps step HarmlessStop (startedSandbox once pid cs) events :=
    allSteps_iff (fun _ _ _ inv stepped => step_keeps inv stepped)
      (fun _ event _ inv _ => enforces_iff inv event) inv
  have entries := execveEntries_le inv events
  rw [same]
  constructor
  · exact fun both => both.1
  · intro harmless
    refine ⟨harmless, Nat.le_trans entries ?_⟩
    split <;> omega

/-- The registers when `fcntl(3, F_SETFD, 0)` is entered. -/
def setfdRegs : UserRegs where
  ebx := 3
  ecx := fSetfd
  edx := 0
  esi := 0
  edi := 0
  ebp := 0
  eax := minusEnosys
  xds := 0
  xes := 0
  xfs := 0
  xgs := 0
  origEax := 55
  eip := 0
  xcs := 0x23
  eflags := 0
  esp := 0
  xss := 0

/-- The command of `fcntl` is not looked at. -/
theorem setfd_permitted :
    ¬ ∀ once pid cs events,
      AllSteps step Enforces (startedSandbox once pid cs) events ∧
        execveEntries (startedSandbox once pid cs) events ≤ 1 := by
  intro all
  obtain ⟨enforces, -⟩ := all (fun _ => false) 1 0x23 [.stop 1 setfdRegs]
  obtain ⟨next, stepped⟩ : ∃ next,
      step (startedSandbox (fun _ => false) 1 0x23) (.stop 1 setfdRegs) =
        some next := ⟨_, rfl⟩
  obtain ⟨judgement, judged, permitted⟩ : ∃ judgement,
      judge (startedSandbox (fun _ => false) 1 0x23) 1 setfdRegs =
        some judgement ∧ judgement.permitted = true := ⟨_, rfl, rfl⟩
  have enforced := (enforces next stepped).1 1 setfdRegs rfl judgement judged
  exact enforced.fcntl permitted (.inl rfl) (.inl rfl)

end Runs

end NativeClient.OuterSandbox
