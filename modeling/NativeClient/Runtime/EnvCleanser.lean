import NativeClient.Library.BinarySearch
import Mathlib.Data.List.Basic
import Mathlib.Data.List.GetD
import Mathlib.Algebra.Group.Nat.Defs

/-!
# The environment that is passed on

`envCleanserInit` keeps the entries of an environment whose name is in a sorted
table.  The comparison of the search takes `=` in an entry for its end, but
only where a name ends.
-/

namespace NativeClient.Runtime

open NativeClient.Library

structure CString where
  val : List UInt8
  property : (0 : UInt8) ∉ val

def codes (text : String) : List UInt8 :=
  text.toList.map fun character => character.toNat.toUInt8

/-- `kNaClEnvWhitelist`, without the NULL at its end. -/
def envWhitelist : List (List UInt8) :=
  ["LANG", "LC_ADDRESS", "LC_ALL", "LC_COLLATE", "LC_CTYPE",
    "LC_IDENTIFICATION", "LC_MEASUREMENT", "LC_MESSAGES", "LC_MONETARY",
    "LC_NAME", "LC_NUMERIC", "LC_PAPER", "LC_TELEPHONE", "LC_TIME",
    "NACL_NPAPI_DEBUG", "NACL_PLUGIN_DEBUG", "NACL_SRPC_DEBUG",
    "NACL_SRPC_STANDALONE"].map codes

/-- The code of `=`. -/
def equalSign : UInt8 := 61

/-- What `EnvCmp` makes of the first characters that differ. -/
def charCmp (cleft cright : UInt8) : Int :=
  if cleft = equalSign ∧ cright = 0 then 0
  else (cleft.toNat : Int) - cright.toNat

/-- `EnvCmp`, of an entry and a name. -/
def envCmp : List UInt8 → List UInt8 → Int
  | cleft :: left, cright :: right =>
      if cleft = cright then envCmp left right else charCmp cleft cright
  | left, right => charCmp (left.headD 0) (right.headD 0)

def envInWhitelist (entry : List UInt8) : Bool :=
  (bsearch (fun index => envCmp entry (envWhitelist.getD index []))
    0 envWhitelist.length).isSome

/-- `cleansedEnviron` is NULL or an array of entries with a NULL at its end. -/
structure EnvCleanser where
  cleansedEnviron : Option (List CString)

/-- The size of a pointer, the largest `size_t`, and whether `malloc` finds a
block of a size. -/
structure Machine where
  ptrSize : Nat
  maxSize : Nat
  malloc : Nat → Bool

def countEnv (machine : Machine) : (numEnv : Nat) → List CString → Option Nat
  | numEnv, [] => some numEnv
  | numEnv, entry :: envp =>
      if !envInWhitelist entry.val then countEnv machine numEnv envp
      else if numEnv = machine.maxSize then none
      else countEnv machine (numEnv + 1) envp

/-- The second loop of `NaClEnvCleanserInit`. -/
def fillEnv : List CString → List CString
  | [] => []
  | entry :: envp =>
      if !envInWhitelist entry.val then fillEnv envp
      else entry :: fillEnv envp

/-- `NaClEnvCleanserInit`: whether it succeeds, and the object. -/
def envCleanserInit
    (machine : Machine) (cleanser : EnvCleanser)
    (envp : Option (List CString)) : Bool × EnvCleanser :=
  match envp with
  | none => (true, ⟨none⟩)
  | some [] => (true, ⟨none⟩)
  | some envp =>
      match countEnv machine 0 envp with
      | none => (false, cleanser)
      | some numEnv =>
          let mask := machine.maxSize - machine.maxSize / machine.ptrSize
          let entries := (1 + numEnv) % (machine.maxSize + 1)
          if entries &&& mask ≠ 0 then (false, cleanser)
          else if !machine.malloc
              (entries * machine.ptrSize % (machine.maxSize + 1)) then
            (false, cleanser)
          else
            let ptrTbl := fillEnv envp
            if numEnv ≠ ptrTbl.length then (false, cleanser)
            else (true, ⟨some ptrTbl⟩)

section Comparison

def precedes : List UInt8 → List UInt8 → Bool
  | _, [] => false
  | [], _ :: _ => true
  | first :: left, second :: right =>
      decide (first < second) || (first == second && precedes left right)

/-- The characters of names come behind `=`. -/
def Named (name : List UInt8) : Prop := ∀ ch ∈ name, equalSign < ch

instance (name : List UInt8) : Decidable (Named name) :=
  inferInstanceAs (Decidable (∀ ch ∈ name, equalSign < ch))

theorem envCmp_nil (entry : List UInt8) :
    envCmp entry [] = charCmp (entry.headD 0) 0 := by
  cases entry with
  | nil => rfl
  | cons ch entry => rfl

theorem charCmp_of_ne_zero {cright : UInt8} (some : cright ≠ 0) (cleft : UInt8) :
    charCmp cleft cright = (cleft.toNat : Int) - cright.toNat := by
  unfold charCmp
  rw [if_neg (fun both => some both.2)]

theorem ne_zero_of_named {ch : UInt8} (behind : equalSign < ch) : ch ≠ 0 := by
  rintro rfl
  exact absurd behind (by decide)

def Names (name entry : List UInt8) : Prop :=
  entry = name ∨ ∃ value, entry = name ++ equalSign :: value

theorem envCmp_eq_zero
    {name : List UInt8} (named : Named name) {entry : List UInt8}
    (noNul : (0 : UInt8) ∉ entry) :
    envCmp entry name = 0 ↔ Names name entry := by
  induction name generalizing entry with
  | nil =>
      rw [envCmp_nil]
      cases entry with
      | nil => exact iff_of_true rfl (.inl rfl)
      | cons ch entry =>
          have notNul : ch ≠ 0 := fun same => noNul (same ▸ List.mem_cons_self)
          have positive : ch.toNat ≠ 0 :=
            fun zero => notNul (UInt8.toNat_inj.mp zero)
          rw [List.headD_cons]
          unfold charCmp
          by_cases equal : ch = equalSign
          · rw [if_pos ⟨equal, rfl⟩, equal]
            exact iff_of_true rfl (.inr ⟨entry, rfl⟩)
          · rw [if_neg (fun both => equal both.1)]
            refine iff_of_false ?_ ?_
            · have zero : (0 : UInt8).toNat = 0 := rfl
              omega
            · rintro (same | ⟨value, same⟩)
              · cases same
              · exact equal (List.cons.inj same).1
  | cons first name ih =>
      obtain ⟨behind, rest⟩ := List.forall_mem_cons.mp named
      have notNul := ne_zero_of_named behind
      cases entry with
      | nil =>
          have positive : first.toNat ≠ 0 :=
            fun zero => notNul (UInt8.toNat_inj.mp zero)
          rw [envCmp, List.headD_nil, List.headD_cons,
            charCmp_of_ne_zero notNul]
          · refine iff_of_false ?_ ?_
            · have zero : (0 : UInt8).toNat = 0 := rfl
              omega
            · rintro (same | ⟨value, same⟩)
              · cases same
              · cases same
          · exact fun _ _ _ _ => nofun
      | cons ch entry =>
          rw [envCmp]
          by_cases same : ch = first
          · subst same
            rw [if_pos rfl, ih rest (fun inside =>
              noNul (List.mem_cons_of_mem _ inside))]
            simp only [Names, List.cons_append, List.cons.injEq, true_and]
          · rw [if_neg same, charCmp_of_ne_zero notNul]
            refine iff_of_false ?_ ?_
            · have differ : ch.toNat ≠ first.toNat :=
                fun equal => same (UInt8.toNat_inj.mp equal)
              omega
            · rintro (equal | ⟨value, equal⟩)
              · exact same (List.cons.inj equal).1
              · exact same (List.cons.inj equal).1

theorem envCmp_cons
    {first : UInt8} (behind : equalSign < first) (name entry : List UInt8) :
    envCmp entry (first :: name) =
      if entry.head? = some first then envCmp entry.tail name
      else ((entry.headD 0).toNat : Int) - first.toNat := by
  have notNul := ne_zero_of_named behind
  cases entry with
  | nil =>
      rw [envCmp]
      · rw [List.headD_cons, charCmp_of_ne_zero notNul]
        rfl
      · exact fun _ _ _ _ => nofun
  | cons ch entry =>
      rw [envCmp, List.head?_cons, List.tail_cons, List.headD_cons,
        charCmp_of_ne_zero notNul]
      simp only [Option.some.injEq]

theorem envCmp_precedes
    {first second : List UInt8} (order : precedes first second = true)
    (named : Named first) (named' : Named second) {entry : List UInt8}
    (noNul : (0 : UInt8) ∉ entry) (notBehind : envCmp entry first ≤ 0) :
    envCmp entry second < 0 := by
  induction second generalizing first entry with
  | nil =>
      unfold precedes at order
      cases order
  | cons next second ih =>
      obtain ⟨nextNamed, secondNamed⟩ := List.forall_mem_cons.mp named'
      have nextBehind : 61 < next.toNat := UInt8.lt_iff_toNat_lt.mp nextNamed
      rw [envCmp_cons nextNamed]
      cases first with
      | nil =>
          -- The entry ends, or goes on with `=`.
          rw [envCmp_nil] at notBehind
          have early : (entry.headD 0).toNat ≤ 61 := by
            unfold charCmp at notBehind
            split at notBehind
            next both =>
              rw [both.1]
              exact Nat.le_refl _
            next =>
              have zero : (0 : UInt8).toNat = 0 := rfl
              omega
          have differ : entry.head? ≠ some next := by
            intro same
            cases entry with
            | nil => cases same
            | cons ch entry =>
                cases same
                rw [List.headD_cons] at early
                omega
          rw [if_neg differ]
          omega
      | cons here first =>
          obtain ⟨hereNamed, firstNamed⟩ := List.forall_mem_cons.mp named
          rw [envCmp_cons hereNamed] at notBehind
          rw [precedes, Bool.or_eq_true, Bool.and_eq_true, decide_eq_true_iff,
            beq_iff_eq] at order
          rcases order with less | ⟨rfl, later⟩
          · have lessNat : here.toNat < next.toNat :=
              UInt8.lt_iff_toNat_lt.mp less
            have early : (entry.headD 0).toNat ≤ here.toNat := by
              split at notBehind
              next same =>
                cases entry with
                | nil => cases same
                | cons ch entry =>
                    cases same
                    exact Nat.le_refl _
              next => omega
            have differ : entry.head? ≠ some next := by
              intro same
              cases entry with
              | nil => cases same
              | cons ch entry =>
                  cases same
                  rw [List.headD_cons] at early
                  omega
            rw [if_neg differ]
            omega
          · by_cases same : entry.head? = some here
            · rw [if_pos same] at notBehind ⊢
              exact ih later firstNamed secondNamed
                (fun inside => noNul (List.mem_of_mem_tail inside)) notBehind
            · rw [if_neg same] at notBehind ⊢
              have differ : (entry.headD 0).toNat ≠ here.toNat := by
                intro equal
                cases entry with
                | nil =>
                    have zero : (0 : UInt8).toNat = 0 := rfl
                    rw [List.headD_nil, zero] at equal
                    omega
                | cons ch entry =>
                    exact same (congrArg some (UInt8.toNat_inj.mp equal))
              omega

end Comparison

section Cleansing

instance (name entry : List UInt8) : Decidable (Names name entry) :=
  decidable_of_iff (entry = name ∨ (name ++ [equalSign]) <+: entry) <| by
    refine or_congr_right (exists_congr fun value => ?_)
    rw [List.append_assoc, List.singleton_append, eq_comm]

def Listed (entry : CString) : Prop :=
  ∃ name ∈ envWhitelist, Names name entry.val

instance (entry : CString) : Decidable (Listed entry) :=
  inferInstanceAs (Decidable (∃ name ∈ envWhitelist, Names name entry.val))

theorem named_envWhitelist : ∀ name ∈ envWhitelist, Named name := by
  decide +kernel

theorem sorted_envWhitelist :
    envWhitelist.Pairwise fun first second => precedes first second = true := by
  decide

theorem envCmp_falls (entry : CString) :
    Falls (fun index => envCmp entry.val (envWhitelist.getD index []))
      envWhitelist.length := by
  intro first second order inside notBehind
  have inside' : first < envWhitelist.length := Nat.lt_trans order inside
  dsimp only at notBehind ⊢
  rw [List.getD_eq_getElem _ _ inside'] at notBehind
  rw [List.getD_eq_getElem _ _ inside]
  exact envCmp_precedes
    (List.pairwise_iff_getElem.mp sorted_envWhitelist first second inside'
      inside order)
    (named_envWhitelist _ (List.getElem_mem _))
    (named_envWhitelist _ (List.getElem_mem _)) entry.property notBehind

theorem envInWhitelist_iff (entry : CString) :
    envInWhitelist entry.val = true ↔ Listed entry := by
  unfold envInWhitelist
  rw [bsearch_isSome_iff (envCmp_falls entry)]
  constructor
  · rintro ⟨index, inside, zero⟩
    rw [List.getD_eq_getElem _ _ inside] at zero
    have member := List.getElem_mem inside
    exact ⟨_, member, (envCmp_eq_zero (named_envWhitelist _ member)
      entry.property).mp zero⟩
  · rintro ⟨name, member, names⟩
    obtain ⟨index, inside, found⟩ := List.getElem_of_mem member
    refine ⟨index, inside, ?_⟩
    rw [List.getD_eq_getElem _ _ inside, found]
    exact (envCmp_eq_zero (named_envWhitelist _ member) entry.property).mpr names

theorem fillEnv_eq (envp : List CString) :
    fillEnv envp = envp.filter fun entry => decide (Listed entry) := by
  induction envp with
  | nil => rfl
  | cons entry envp ih =>
      have listed := envInWhitelist_iff entry
      rw [fillEnv, List.filter_cons, ih]
      by_cases member : Listed entry
      · rw [listed.mpr member, if_pos (decide_eq_true member)]
        rfl
      · have unlisted : envInWhitelist entry.val = false :=
          Bool.eq_false_iff.mpr fun found => member (listed.mp found)
        rw [unlisted, if_neg (fun found => member (of_decide_eq_true found))]
        rfl

theorem envCleanserInit_true
    {machine : Machine} {cleanser after : EnvCleanser} {entry : CString}
    {envp : List CString}
    (success : envCleanserInit machine cleanser (some (entry :: envp)) =
      (true, after)) :
    after.cleansedEnviron = some (fillEnv (entry :: envp)) := by
  unfold envCleanserInit at success
  dsimp only at success
  split at success
  next => cases success
  next numEnv counted =>
    split at success
    next => cases success
    next =>
      split at success
      next => cases success
      next =>
        split at success
        next => cases success
        next =>
          cases success
          rfl

/-- The environment is cleansed exactly, and the comparison falls along the
table; an environment without entries yields NULL. -/
theorem envCleanserInit_exact (machine : Machine) (cleanser : EnvCleanser) :
    (∀ entry : CString,
      Falls (fun index => envCmp entry.val (envWhitelist.getD index []))
        envWhitelist.length) ∧
    (∀ entry envp after,
      envCleanserInit machine cleanser (some (entry :: envp)) =
        (true, after) →
      after.cleansedEnviron =
        some ((entry :: envp).filter fun entry => decide (Listed entry))) ∧
    ∀ envp, envp = none ∨ envp = some [] →
      envCleanserInit machine cleanser envp = (true, ⟨none⟩) := by
  refine ⟨envCmp_falls, ?_, ?_⟩
  · intro entry envp after success
    rw [envCleanserInit_true success, fillEnv_eq]
  · rintro envp (rfl | rfl)
    · rfl
    · rfl

/-- For an environment without entries there is no array with a NULL. -/
theorem emptyEnvironment_null :
    (envCleanserInit ⟨8, 2 ^ 64 - 1, fun _ => true⟩ ⟨none⟩ (some [])).1 =
        true ∧
      (envCleanserInit ⟨8, 2 ^ 64 - 1, fun _ => true⟩ ⟨none⟩
        (some [])).2.cleansedEnviron ≠
        some (([] : List CString).filter fun entry => decide (Listed entry)) :=
  ⟨rfl, nofun⟩

end Cleansing

end NativeClient.Runtime
