import NativeClient.Validator32.InstructionRules

/-!
# The final pass

`NCValidateFinish` goes over the tables twice: every jump target, and every
basic block boundary, must be the address of an instruction.  Its loops count
in 32 bit arithmetic, so that it returns only if a whole bundle fits between
the size of the segment and `2 ^ 32`.
-/

namespace NativeClient.Validator32

open NativeClient.Library

/-- A pass over some offsets that left the tables alone and is clean exactly
when it started clean and found every offset `good`. -/
structure Scanned (good : NCValidatorState → Nat → Prop)
    (offsets : Nat → Prop) (before after : NCValidatorState) : Prop where
  keeps : Keeps before after
  vttable : after.vttable = before.vttable
  kttable : after.kttable = before.kttable
  clean : after.stats.sawfailure = 0 ↔
    before.stats.sawfailure = 0 ∧ ∀ offset, offsets offset → good before offset

def TargetGood (vstate : NCValidatorState) (offset : Nat) : Prop :=
  vstate.kttable.get offset = true → vstate.vttable.get offset = true

def BlockGood (vstate : NCValidatorState) (offset : Nat) : Prop :=
  vstate.vttable.get offset = true

def ReadsTables (good : NCValidatorState → Nat → Prop) : Prop :=
  ∀ before after, after.vttable = before.vttable →
    after.kttable = before.kttable →
    ∀ offset, good before offset ↔ good after offset

theorem targetGood_readsTables : ReadsTables TargetGood := by
  intro before after starts targets offset
  unfold TargetGood
  rw [starts, targets]

theorem blockGood_readsTables : ReadsTables BlockGood := by
  intro before after starts targets offset
  unfold BlockGood
  rw [starts]

theorem checkTarget_scanned (offset : Nat) (vstate : NCValidatorState) :
    Scanned TargetGood (· = offset) vstate (checkTarget offset vstate) := by
  have counted := keeps_tally tallies_statsCheckTarget vstate
  unfold checkTarget
  split_ifs with target start
  · exact ⟨counted, rfl, rfl, by simp [TargetGood, start,
      NCValidatorState.tally, statsCheckTarget]⟩
  · refine ⟨counted.trans (keeps_tally fails_statsBadTarget.tallies _), rfl,
      rfl, ?_⟩
    simp [TargetGood, target, start, NCValidatorState.tally, statsBadTarget,
      statsSawFailure]
  · exact ⟨.refl vstate, rfl, rfl, by simp [TargetGood, target]⟩

theorem checkBlock_scanned (offset : Nat) (vstate : NCValidatorState) :
    Scanned BlockGood (· = offset) vstate (checkBlock offset vstate) := by
  unfold checkBlock
  split_ifs with start
  · exact ⟨.refl vstate, rfl, rfl, by simp [BlockGood, start]⟩
  · refine ⟨keeps_tally fails_statsBadAlignment.tallies _, rfl, rfl, ?_⟩
    simp [BlockGood, start, NCValidatorState.tally, statsBadAlignment,
      statsSawFailure]

theorem SameConfig.size {before after : NCValidatorState}
    (same : SameConfig before after) : after.size = before.size := by
  unfold NCValidatorState.size
  rw [same.iadrbase, same.iadrlimit]

theorem add_le_of_dvd_of_lt {step first second : Nat}
    (left : step ∣ first) (right : step ∣ second) (less : first < second) :
    first + step ≤ second := by
  have gap : step ≤ second - first :=
    Nat.le_of_dvd (by omega) (Nat.dvd_sub right left)
  omega

private theorem Scanned.step
    {good : NCValidatorState → Nat → Prop} (reads : ReadsTables good)
    {start middle final : NCValidatorState} {step offset : Nat}
    (multiple : step ∣ offset) (positive : 0 < step)
    (scanned : Scanned good (fun seen => seen < offset ∧ step ∣ seen) start
      middle)
    (one : Scanned good (· = offset) middle final) :
    Scanned good (fun seen => seen < offset + step ∧ step ∣ seen) start
      final := by
  refine ⟨scanned.keeps.trans one.keeps, one.vttable.trans scanned.vttable,
    one.kttable.trans scanned.kttable, ?_⟩
  rw [one.clean, scanned.clean]
  simp only [forall_eq, ← reads start middle scanned.vttable scanned.kttable]
  constructor
  · rintro ⟨⟨clean, earlier⟩, last⟩
    refine ⟨clean, ?_⟩
    rintro seen ⟨below, divides⟩
    rcases Nat.lt_trichotomy seen offset with before | rfl | after
    · exact earlier seen ⟨before, divides⟩
    · exact last
    · have past := add_le_of_dvd_of_lt multiple divides after
      omega
  · rintro ⟨clean, all⟩
    refine ⟨⟨clean, ?_⟩, all offset ⟨by omega, multiple⟩⟩
    rintro seen ⟨below, divides⟩
    exact all seen ⟨by omega, divides⟩

theorem scan_returns
    {good : NCValidatorState → Nat → Prop} (reads : ReadsTables good)
    {body : Nat → NCValidatorState → NCValidatorState}
    (checks : ∀ offset vstate,
      Scanned good (· = offset) vstate (body offset vstate))
    (stride : NCValidatorState → Nat) {step : Nat} (positive : 0 < step)
    (start : NCValidatorState)
    (fixed : ∀ vstate, SameConfig start vstate → stride vstate = step)
    (room : start.size + step ≤ 2 ^ 32) :
    ∃ result,
      Returns (countedTurn NCValidatorState.size stride body) (0, start)
        result ∧
      Scanned good (fun offset => offset < start.size ∧ step ∣ offset) start
        result := by
  -- The invariant: the offsets below the current one were scanned.
  let invariant := fun offset vstate =>
    Scanned good (fun seen => seen < offset ∧ step ∣ seen) start vstate ∧
      step ∣ offset
  have same : ∀ offset vstate, invariant offset vstate →
      vstate.size = start.size ∧ stride vstate = step := by
    intro offset vstate holds
    exact ⟨holds.1.keeps.config.size, fixed vstate holds.1.keeps.config⟩
  have keeps : ∀ offset vstate, offset < start.size →
      invariant offset vstate →
      invariant (offset + step) (body offset vstate) := by
    rintro offset vstate - ⟨scanned, multiple⟩
    exact ⟨scanned.step reads multiple positive (checks offset vstate),
      Nat.dvd_add_self_right.mpr multiple⟩
  have first : invariant 0 start :=
    ⟨⟨.refl start, rfl, rfl, by simp⟩, Nat.dvd_zero step⟩
  obtain ⟨result, stop, returned, ⟨scanned, multiple⟩, past, near⟩ :=
    counted_returns positive room invariant same keeps first
  refine ⟨result, returned, scanned.keeps, scanned.vttable, scanned.kttable, ?_⟩
  rw [scanned.clean]
  refine and_congr_right fun _ => forall_congr' fun offset =>
    imp_congr_left (and_congr_left fun divides => ?_)
  constructor
  · intro below
    have next := add_le_of_dvd_of_lt divides multiple below
    omega
  · intro below
    omega

/-! ## The verdict -/

variable {vstate : NCValidatorState}

theorem checkBaseAlignment_of_aligned
    (aligned : vstate.iadrbase &&& vstate.alignmask = 0) :
    checkBaseAlignment vstate = vstate := by
  unfold checkBaseAlignment
  rw [if_neg (not_not.mpr aligned)]

/-- Some number of turns is enough for `NCValidateFinish`. -/
def Finishes (vstate : NCValidatorState) (verdict : Nat) : Prop :=
  ∃ fuel, ncValidateFinish (some vstate) fuel = some verdict

theorem finishes_iff {verdict : Nat} :
    Finishes vstate verdict ↔
      ∃ middle final,
        Returns (countedTurn NCValidatorState.size (fun _ => 1) checkTarget)
          (0, vstate) middle ∧
        Returns (countedTurn NCValidatorState.size NCValidatorState.alignment
          checkBlock) (0, checkBaseAlignment middle) final ∧
        final.stats.sawfailure = verdict := by
  constructor
  · rintro ⟨fuel, run⟩
    simp only [ncValidateFinish, Option.bind_eq_bind, Option.bind_eq_some_iff]
      at run
    obtain ⟨middle, first, final, second, result⟩ := run
    exact ⟨middle, final, ⟨fuel, first⟩, ⟨fuel, second⟩, by simpa using result⟩
  · rintro ⟨middle, final, ⟨few, first⟩, ⟨more, second⟩, rfl⟩
    refine ⟨max few more, ?_⟩
    simp only [ncValidateFinish,
      runLoop_mono first (Nat.le_max_left few more), Option.bind_eq_bind,
      Option.bind_some, runLoop_mono second (Nat.le_max_right few more)]
    rfl

theorem Finishes.unique {first second : Nat}
    (left : Finishes vstate first) (right : Finishes vstate second) :
    first = second := by
  obtain ⟨middle, final, targets, blocks, rfl⟩ := finishes_iff.mp left
  obtain ⟨middle', final', targets', blocks', rfl⟩ := finishes_iff.mp right
  obtain rfl := targets.unique targets'
  rw [blocks.unique blocks']

theorem Finishes.mono {verdict few more : Nat}
    (run : ncValidateFinish (some vstate) few = some verdict)
    (enough : few ≤ more) :
    ncValidateFinish (some vstate) more = some verdict := by
  simp only [ncValidateFinish, Option.bind_eq_bind, Option.bind_eq_some_iff]
    at run ⊢
  obtain ⟨middle, first, final, second, result⟩ := run
  exact ⟨middle, runLoop_mono first enough, final, runLoop_mono second enough,
    result⟩

section Verdict

variable (vstate : NCValidatorState)
  (bundle : vstate.alignment = 16 ∨ vstate.alignment = 32)

include bundle

theorem finishes_of_room
    (aligned : vstate.iadrbase &&& vstate.alignmask = 0)
    (room : vstate.size + vstate.alignment ≤ 2 ^ 32) :
    ∃ verdict, Finishes vstate verdict ∧
      (verdict = 1 ∨ verdict = vstate.stats.sawfailure) ∧
      (verdict = 0 ↔ vstate.stats.sawfailure = 0 ∧
        (∀ offset < vstate.size, TargetGood vstate offset) ∧
        ∀ offset < vstate.size, vstate.alignment ∣ offset →
          BlockGood vstate offset) := by
  have positive : 0 < vstate.alignment := by
    rcases bundle with narrow | wide <;> omega
  obtain ⟨middle, firstRun, first⟩ :=
    scan_returns targetGood_readsTables checkTarget_scanned (fun _ => 1)
      Nat.one_pos vstate (fun _ _ => rfl) (by omega)
  have firstConfig := first.keeps.config
  obtain ⟨final, secondRun, second⟩ :=
    scan_returns blockGood_readsTables checkBlock_scanned
      NCValidatorState.alignment positive middle
      (fun later same => same.alignment.trans firstConfig.alignment)
      (by rw [firstConfig.size]; exact room)
  have base : checkBaseAlignment middle = middle := by
    apply checkBaseAlignment_of_aligned
    rw [firstConfig.iadrbase, firstConfig.alignmask, aligned]
  refine ⟨final.stats.sawfailure, ?_,
    (first.keeps.trans second.keeps).flag, ?_⟩
  · exact finishes_iff.mpr ⟨middle, final, firstRun, by rwa [base], rfl⟩
  · rw [second.clean, first.clean, firstConfig.size]
    simp only [Nat.one_dvd, and_true, and_imp, and_assoc,
      ← blockGood_readsTables vstate middle first.vttable first.kttable]

theorem not_finishes_of_full
    (full : 2 ^ 32 < vstate.size + vstate.alignment) (verdict : Nat) :
    ¬ Finishes vstate verdict := by
  intro finishes
  obtain ⟨middle, final, firstRun, secondRun, -⟩ := finishes_iff.mp finishes
  have config : SameConfig vstate middle := by
    refine Returns.invariant (fun state => SameConfig vstate state.2)
      (SameConfig vstate) ?_ ?_ (SameConfig.refl vstate) firstRun
    · rintro ⟨offset, current⟩ next same action
      unfold countedTurn at action
      split_ifs at action
      cases action
      exact same.trans (checkTarget_scanned offset current).keeps.config
    · rintro ⟨offset, current⟩ result same action
      unfold countedTurn at action
      split_ifs at action
      cases action
      exact same
  have base : SameConfig middle (checkBaseAlignment middle) := by
    unfold checkBaseAlignment
    split_ifs
    · exact (keeps_tally fails_statsBadAlignment.tallies middle).config
    · exact .refl middle
  refine counted_diverges (?_ : vstate.alignment ∣ 2 ^ 32) full
    (SameConfig vstate) ?_ ?_ (config.trans base) secondRun
  · rcases bundle with narrow | wide
    · rw [narrow]
      decide
    · rw [wide]
      decide
  · exact fun current same => ⟨same.size, same.alignment⟩
  · exact fun offset current same =>
      same.trans (checkBlock_scanned offset current).keeps.config

end Verdict

end NativeClient.Validator32
