import NativeClient.Plugin.StringEncoding
import Mathlib.Data.List.DropRight

/-!
# The nexes attribute

`FindNexeForSandbox` looks for the line of an attribute that names a sandbox.
A position that `substr` does not accept throws an exception.
-/

namespace NativeClient.Plugin

open NativeClient.Library

section Strings

/-- `find(ch, pos)`; `none` is `npos`. -/
def find (text : List UInt8) (ch : UInt8) (pos : Nat) : Option Nat :=
  ((text.drop pos).findIdx? fun other => other == ch).map fun index =>
    pos + index

/-- `find_first_not_of(" \t")` and `find_last_not_of(" \t")`. -/
def isBlank (ch : UInt8) : Bool := ch == 32 || ch == 9

def findFirstNotOf (text : List UInt8) : Option Nat :=
  text.findIdx? fun ch => !isBlank ch

def findLastNotOf (text : List UInt8) : Option Nat :=
  (text.reverse.findIdx? fun ch => !isBlank ch).map fun index =>
    text.length - 1 - index

/-- `substr(pos, count)`, where `none` stands for `out_of_range`. -/
def substr (text : List UInt8) (pos count : Nat) : Option (List UInt8) :=
  if pos ≤ text.length then some ((text.drop pos).take count) else none

def substrFrom (text : List UInt8) (pos : Nat) : Option (List UInt8) :=
  substr text pos (text.length - pos)

end Strings

def colon : UInt8 := 58

def newline : UInt8 := 10

def trimWhitespace (s : List UInt8) : Option (List UInt8) :=
  match findFirstNotOf s with
  | none => some []
  | some start =>
      match findLastNotOf s with
      | none => none
      | some last => substr s start (last + 1 - start)

/-- The URL if the line is a match; `none` if it throws. -/
def parseOneNexeLine (nexeLine sandbox : List UInt8) :
    Option (Option (List UInt8)) :=
  match find nexeLine colon 0 with
  | none => some none
  | some semi => do
      let attrSandbox ← trimWhitespace (← substr nexeLine 0 semi)
      let attrUrl ← trimWhitespace (← substrFrom nexeLine (semi + 1))
      return if sandbox = attrSandbox then some attrUrl else none

/-- The variables of the loop of `FindNexeForSandbox`. -/
structure LineState where
  oldpos : Nat
  pos : Option Nat

def lineTurn {sizeBits : Nat} (nexesAttr : ByteString sizeBits)
    (sandbox : List UInt8) (state : LineState) :
    Turn LineState (Option (Option (List UInt8))) :=
  match state.pos with
  | some pos =>
      match (substr nexesAttr.bytes state.oldpos (pos - state.oldpos)).bind
          fun line => parseOneNexeLine line sandbox with
      | none => .leave none
      | some (some url) => .leave (some (some url))
      | some none => .again ⟨pos + 1, find nexesAttr.bytes newline (pos + 1)⟩
  | none =>
      -- `size() - 1` is the largest `size_t` for the empty string.
      if state.oldpos <
          (nexesAttr.bytes.length + (2 ^ sizeBits - 1)) % 2 ^ sizeBits then
        .leave ((substrFrom nexesAttr.bytes state.oldpos).bind fun line =>
          parseOneNexeLine line sandbox)
      else .leave (some none)

def findNexeForSandbox {sizeBits : Nat} (nexesAttr : ByteString sizeBits)
    (sandbox : List UInt8) : Option (Option (List UInt8)) :=
  (runLoop (lineTurn nexesAttr sandbox) (nexesAttr.bytes.length + 1)
    ⟨0, find nexesAttr.bytes newline 0⟩).getD none

section Grammar

def lines (text : List UInt8) : List (List UInt8) := text.splitOn newline

def strip (text : List UInt8) : List UInt8 :=
  (text.dropWhile isBlank).rdropWhile isBlank

/-- A line that names `sandbox` and has `url` behind its first colon. -/
def NexeLine (sandbox line url : List UInt8) : Prop :=
  ∃ name rest, line = name ++ colon :: rest ∧ colon ∉ name ∧
    strip name = sandbox ∧ strip rest = url

def FirstNexe (sandbox : List UInt8) (lines : List (List UInt8))
    (url : List UInt8) : Prop :=
  ∃ earlier line later, lines = earlier ++ line :: later ∧
    (∀ other ∈ earlier, ∀ url, ¬ NexeLine sandbox other url) ∧
    NexeLine sandbox line url

end Grammar

section Strip

theorem exists_notBlank
    {text : List UInt8} (notAll : ¬ ∀ ch ∈ text, isBlank ch = true) :
    ∃ left first rest, text = left ++ first :: rest ∧
      text.dropWhile isBlank = first :: rest ∧
      ∀ more, (text ++ more).findIdx? (fun ch => !isBlank ch) =
        some left.length := by
  induction text with
  | nil => exact absurd nofun notAll
  | cons ch text ih =>
      cases blank : isBlank ch with
      | false =>
          refine ⟨[], ch, text, rfl, ?_, fun more => ?_⟩
          · rw [List.dropWhile_cons_of_neg (by rw [blank]; decide)]
          · rw [List.cons_append, List.findIdx?_cons, blank]
            rfl
      | true =>
          obtain ⟨left, first, rest, rfl, dropped, found⟩ := ih fun all =>
            notAll (List.forall_mem_cons.mpr ⟨blank, all⟩)
          refine ⟨ch :: left, first, rest, rfl, ?_, fun more => ?_⟩
          · rw [List.dropWhile_cons_of_pos blank, dropped]
          · rw [List.cons_append, List.findIdx?_cons, blank, found]
            rfl

theorem trimWhitespace_eq (text : List UInt8) :
    trimWhitespace text = some (strip text) := by
  unfold trimWhitespace findFirstNotOf strip
  by_cases all : ∀ ch ∈ text, isBlank ch = true
  · have none : (text.findIdx? fun ch => !isBlank ch) = none :=
      List.findIdx?_eq_none_iff.mpr fun ch member => by rw [all ch member]; rfl
    rw [none, List.dropWhile_eq_nil_iff.mpr all, List.rdropWhile_nil]
  · obtain ⟨left, first, rest, parts, dropped, start⟩ := exists_notBlank all
    have notBlank : ¬ ∀ ch ∈ (first :: rest).reverse, isBlank ch = true := by
      intro blanks
      have here := blanks first (List.mem_reverse.mpr List.mem_cons_self)
      have dropsFirst := List.head_dropWhile_not isBlank
        (show text.dropWhile isBlank ≠ [] by rw [dropped]; nofun)
      simp only [dropped, List.head_cons] at dropsFirst
      rw [here] at dropsFirst
      cases dropsFirst
    obtain ⟨right, last, back, ends, dropsBack, found⟩ :=
      exists_notBlank notBlank
    have first_start := start []
    rw [List.append_nil] at first_start
    have tail : first :: rest = (last :: back).reverse ++ right.reverse := by
      rw [← List.reverse_append, ← ends, List.reverse_reverse]
    have reversed : text.reverse = (first :: rest).reverse ++ left.reverse := by
      rw [parts, List.reverse_append]
    have length : text.length =
        left.length + ((last :: back).length + right.length) := by
      rw [parts, List.length_append, tail, List.length_append,
        List.length_reverse, List.length_reverse]
    have positive : 0 < (last :: back).length := Nat.succ_pos _
    unfold findLastNotOf
    rw [first_start, reversed, found]
    dsimp only
    rw [Option.map_some]
    dsimp only
    unfold substr List.rdropWhile
    rw [if_pos (by omega), dropped, dropsBack]
    congr 1
    have count : text.length - 1 - right.length + 1 - left.length =
        (last :: back).reverse.length := by
      rw [List.length_reverse]
      omega
    rw [count, parts, List.drop_left, tail, List.take_left]

end Strip

section Line

theorem find_eq
    {text before line rest : List UInt8} {ch : UInt8}
    (parts : text = before ++ (line ++ ch :: rest)) (notIn : ch ∉ line) :
    find text ch before.length = some (before.length + line.length) := by
  have noneBefore : (line.findIdx? fun other => other == ch) = none :=
    List.findIdx?_eq_none_iff.mpr fun other member =>
      beq_eq_false_iff_ne.mpr fun same => notIn (same ▸ member)
  unfold find
  rw [parts, List.drop_left, List.findIdx?_append, noneBefore,
    List.findIdx?_cons, beq_self_eq_true]
  rw [if_pos rfl, Option.map_some, Option.none_or, Option.map_some, Nat.zero_add]

theorem find_eq_none
    {text before rest : List UInt8} {ch : UInt8}
    (parts : text = before ++ rest) (notIn : ch ∉ rest) :
    find text ch before.length = none := by
  unfold find
  rw [parts, List.drop_left, Option.map_eq_none_iff]
  exact List.findIdx?_eq_none_iff.mpr fun other member =>
    beq_eq_false_iff_ne.mpr fun same => notIn (same ▸ member)

theorem substr_eq
    {text before line rest : List UInt8}
    (parts : text = before ++ (line ++ rest)) :
    substr text before.length line.length = some line := by
  unfold substr
  rw [if_pos (by rw [parts, List.length_append]; omega), parts, List.drop_left,
    List.take_left]

theorem substrFrom_eq
    {text before rest : List UInt8} (parts : text = before ++ rest) :
    substrFrom text before.length = some rest := by
  have count : text.length - before.length = rest.length := by
    rw [parts, List.length_append]
    omega
  unfold substrFrom
  rw [count]
  exact substr_eq (show text = before ++ (rest ++ []) by
    rw [parts, List.append_nil])

theorem NexeLine.unique
    {sandbox other line url name rest : List UInt8}
    (matching : NexeLine sandbox line url) (parts : line = name ++ colon :: rest)
    (first : colon ∉ name) (same : strip name = other) :
    sandbox = other ∧ strip rest = url := by
  obtain ⟨name', rest', parts', first', rfl, rfl⟩ := matching
  have split := List.append_eq_append_iff.mp (parts.symm.trans parts')
  rcases split with ⟨between, long, short⟩ | ⟨between, long, short⟩
  · cases between with
    | nil =>
        rw [List.append_nil] at long
        cases short
        exact ⟨long ▸ same, rfl⟩
    | cons ch between =>
        rw [List.cons_append, List.cons.injEq] at short
        exact absurd (by rw [long, ← short.1]; simp) first'
  · cases between with
    | nil =>
        rw [List.append_nil] at long
        cases short
        exact ⟨long ▸ same, rfl⟩
    | cons ch between =>
        rw [List.cons_append, List.cons.injEq] at short
        exact absurd (by rw [long, ← short.1]; simp) first

theorem parseOneNexeLine_spec (line sandbox : List UInt8) :
    ∃ result, parseOneNexeLine line sandbox = some result ∧
      ∀ url, result = some url ↔ NexeLine sandbox line url := by
  unfold parseOneNexeLine
  by_cases member : colon ∈ line
  · obtain ⟨name, rest, parts, first⟩ := List.eq_append_cons_of_mem member
    have semi := @find_eq line [] name rest colon parts first
    have before := @substr_eq line [] name (colon :: rest) parts
    have behind := @substrFrom_eq line (name ++ [colon]) rest (by
      rw [parts, List.append_assoc]
      rfl)
    rw [List.length_append, List.length_singleton] at behind
    rw [List.length_nil] at semi before
    rw [Nat.zero_add] at semi
    rw [semi]
    dsimp only
    rw [before, behind]
    simp only [Option.bind_eq_bind, Option.bind_some, trimWhitespace_eq]
    refine ⟨_, rfl, fun url => ?_⟩
    constructor
    · intro found
      split at found
      next same =>
        cases found
        exact ⟨name, rest, parts, first, same.symm, rfl⟩
      next => cases found
    · intro matching
      obtain ⟨same, rfl⟩ := matching.unique parts first rfl
      rw [if_pos same]
  · have semi := @find_eq_none line [] line colon rfl member
    rw [List.length_nil] at semi
    rw [semi]
    refine ⟨none, rfl, fun url => iff_of_false nofun ?_⟩
    rintro ⟨name, rest, rfl, -⟩
    exact member (by simp)

end Line

section Lines

def LostLine (sandbox : List UInt8) (lines : List (List UInt8)) : Prop :=
  sandbox = [] ∧ ∃ earlier, lines = earlier ++ [[colon]] ∧
    ∀ other ∈ earlier, ∀ url, ¬ NexeLine sandbox other url

structure Looks (sandbox : List UInt8) (lines : List (List UInt8))
    (result : Option (List UInt8)) : Prop where
  found : ∀ url, result = some url → FirstNexe sandbox lines url
  missed : result = none →
    (∀ line ∈ lines, ∀ url, ¬ NexeLine sandbox line url) ∨
      LostLine sandbox lines
  lost : LostLine sandbox lines → result = none

theorem nexeLine_single {sandbox url : List UInt8} {ch : UInt8}
    (matching : NexeLine sandbox [ch] url) : ch = colon ∧ sandbox = [] := by
  obtain ⟨name, rest, parts, -, rfl, -⟩ := matching
  cases name with
  | nil => exact ⟨(List.cons.inj parts).1, rfl⟩
  | cons first name =>
      have later := (List.cons.inj parts).2
      exact absurd later.symm (List.append_ne_nil_of_right_ne_nil _ nofun)

theorem Looks.last
    {sandbox line : List UInt8} {result : Option (List UInt8)}
    (parsed : ∀ url, result = some url ↔ NexeLine sandbox line url)
    (notOne : line.length ≠ 1) : Looks sandbox [line] result := by
  refine ⟨fun url found => ?_, fun missed => .inl ?_, ?_⟩
  · exact ⟨[], line, [], rfl, nofun, (parsed url).mp found⟩
  · intro other member url matching
    rw [List.mem_singleton.mp member, ← parsed url, missed] at matching
    cases matching
  · rintro ⟨-, earlier, parts, -⟩
    have ends := congrArg List.getLast? parts
    rw [List.getLast?_concat, List.getLast?_singleton, Option.some_inj] at ends
    exact absurd (by rw [ends]; rfl) notOne

theorem Looks.short
    {sandbox line : List UInt8} (one : line.length = 1) :
    Looks sandbox [line] none := by
  obtain ⟨ch, rfl⟩ := List.length_eq_one_iff.mp one
  refine ⟨nofun, fun _ => ?_, fun _ => rfl⟩
  by_cases names : ch = colon ∧ sandbox = []
  · obtain ⟨rfl, rfl⟩ := names
    exact .inr ⟨rfl, [], rfl, nofun⟩
  · refine .inl fun other member url matching => ?_
    rw [List.mem_singleton.mp member] at matching
    exact names (nexeLine_single matching)

theorem lostLine_cons
    {sandbox line : List UInt8} {later : List (List UInt8)}
    (more : later ≠ []) :
    LostLine sandbox (line :: later) ↔
      (∀ url, ¬ NexeLine sandbox line url) ∧ LostLine sandbox later := by
  constructor
  · rintro ⟨unnamed, earlier, parts, none⟩
    cases earlier with
    | nil => exact absurd (List.cons.inj parts).2 more
    | cons first earlier =>
        obtain ⟨rfl, rest⟩ := List.cons.inj parts
        obtain ⟨here, before⟩ := List.forall_mem_cons.mp none
        exact ⟨here, unnamed, earlier, rest, before⟩
  · rintro ⟨here, unnamed, earlier, rfl, none⟩
    exact ⟨unnamed, line :: earlier, rfl,
      List.forall_mem_cons.mpr ⟨here, none⟩⟩

theorem Looks.here
    {sandbox line url : List UInt8} {later : List (List UInt8)}
    (matching : NexeLine sandbox line url) (more : later ≠ []) :
    Looks sandbox (line :: later) (some url) := by
  refine ⟨fun other same => ?_, nofun, fun lost => ?_⟩
  · cases same
    exact ⟨[], line, later, rfl, nofun, matching⟩
  · exact absurd matching (((lostLine_cons more).mp lost).1 url)

theorem Looks.later
    {sandbox line : List UInt8} {later : List (List UInt8)}
    {result : Option (List UInt8)} (looks : Looks sandbox later result)
    (none : ∀ url, ¬ NexeLine sandbox line url) (more : later ≠ []) :
    Looks sandbox (line :: later) result := by
  refine ⟨fun url found => ?_, fun missed => ?_, fun lost => ?_⟩
  · obtain ⟨earlier, first, rest, rfl, before, matching⟩ := looks.found url found
    exact ⟨line :: earlier, first, rest, rfl,
      List.forall_mem_cons.mpr ⟨none, before⟩, matching⟩
  · rcases looks.missed missed with notThere | lost
    · exact .inl (List.forall_mem_cons.mpr ⟨none, notThere⟩)
    · exact .inr ((lostLine_cons more).mpr ⟨none, lost⟩)
  · exact looks.lost ((lostLine_cons more).mp lost).2

theorem lineLoop_spec
    {sizeBits : Nat} {nexesAttr : ByteString sizeBits} (sandbox : List UInt8)
    {before rest : List UInt8} (parts : nexesAttr.bytes = before ++ rest)
    {fuel : Nat} (enough : rest.length < fuel) :
    ∃ result, runLoop (lineTurn nexesAttr sandbox) fuel
        ⟨before.length, find nexesAttr.bytes newline before.length⟩ =
          some (some result) ∧
      Looks sandbox (lines rest) result := by
  induction fuel generalizing before rest with
  | zero => omega
  | succ fuel ih =>
      rw [runLoop]
      by_cases member : newline ∈ rest
      · obtain ⟨line, later, rfl, first⟩ := List.eq_append_cons_of_mem member
        have split : lines (line ++ newline :: later) = line :: lines later :=
          List.splitOn_append_cons_self_of_not_mem first later
        have more : lines later ≠ [] := List.splitOn_ne_nil _ _
        obtain ⟨result, parse, parsed⟩ := parseOneNexeLine_spec line sandbox
        rw [split, find_eq parts first, lineTurn]
        dsimp only
        rw [Nat.add_sub_cancel_left, substr_eq parts, Option.bind_some, parse]
        cases result with
        | some url =>
            exact ⟨some url, rfl, .here ((parsed url).mp rfl) more⟩
        | none =>
            dsimp only
            have next : nexesAttr.bytes = (before ++ line ++ [newline]) ++ later := by
              rw [parts]
              simp
            have length : (before ++ line ++ [newline]).length =
                before.length + line.length + 1 := by
              rw [List.length_append, List.length_append]
              rfl
            rw [List.length_append, List.length_cons] at enough
            obtain ⟨result, run, looks⟩ := ih next (by omega)
            rw [length] at run
            refine ⟨result, run, looks.later (fun url matching => ?_) more⟩
            cases (parsed url).mpr matching
      · have one : lines rest = [rest] := List.splitOn_eq_singleton member
        have fits := nexesAttr.fits
        have length : nexesAttr.bytes.length = before.length + rest.length := by
          rw [parts, List.length_append]
        obtain ⟨result, parse, parsed⟩ := parseOneNexeLine_spec rest sandbox
        rw [one, find_eq_none parts member, lineTurn]
        dsimp only
        rw [substrFrom_eq parts, Option.bind_some, parse]
        by_cases empty : nexesAttr.bytes.length = 0
        · rw [empty, Nat.zero_add, Nat.mod_eq_of_lt (by omega),
            if_pos (by omega)]
          exact ⟨result, rfl, .last parsed (by omega)⟩
        · have least : (nexesAttr.bytes.length + (2 ^ sizeBits - 1)) %
              2 ^ sizeBits = nexesAttr.bytes.length - 1 := by
            rw [Nat.mod_eq_sub_mod (by omega), Nat.mod_eq_of_lt (by omega)]
            omega
          rw [least]
          by_cases two : before.length < nexesAttr.bytes.length - 1
          · rw [if_pos two]
            exact ⟨result, rfl, .last parsed (by omega)⟩
          · rw [if_neg two]
            by_cases none : rest.length = 1
            · exact ⟨_, rfl, .short none⟩
            · have nil : rest = [] := List.eq_nil_of_length_eq_zero (by omega)
              subst nil
              refine ⟨_, rfl, .last (fun url => iff_of_false (Option.some_ne_none url).symm ?_)
                  none⟩
              rintro ⟨name, back, impossible, -⟩
              exact absurd impossible.symm
                (List.append_ne_nil_of_right_ne_nil _ (List.cons_ne_nil _ _))

theorem findNexeForSandbox_spec
    {sizeBits : Nat} (nexesAttr : ByteString sizeBits)
    (sandbox : List UInt8) :
    ∃ result, findNexeForSandbox nexesAttr sandbox = some result ∧
      Looks sandbox (lines nexesAttr.bytes) result := by
  obtain ⟨result, run, looks⟩ := @lineLoop_spec sizeBits nexesAttr sandbox []
    nexesAttr.bytes rfl _ (Nat.lt_succ_self _)
  refine ⟨result, ?_, looks⟩
  unfold findNexeForSandbox
  rw [List.length_nil] at run
  rw [run]
  rfl

structure FollowsGrammar {sizeBits : Nat} (nexesAttr : ByteString sizeBits)
    (sandbox : List UInt8) : Prop where
  noException : findNexeForSandbox nexesAttr sandbox ≠ none
  returns : (∃ url, findNexeForSandbox nexesAttr sandbox = some (some url)) ↔
    ∃ line ∈ lines nexesAttr.bytes, ∃ url, NexeLine sandbox line url
  assigns : ∀ url, findNexeForSandbox nexesAttr sandbox = some (some url) →
    FirstNexe sandbox (lines nexesAttr.bytes) url

/-- Only a colon alone on the last line, for a sandbox without a name that no
other line names, is overlooked. -/
theorem followsGrammar_iff
    {sizeBits : Nat} (nexesAttr : ByteString sizeBits) (sandbox : List UInt8) :
    FollowsGrammar nexesAttr sandbox ↔
      ¬ LostLine sandbox (lines nexesAttr.bytes) := by
  obtain ⟨result, run, looks⟩ := findNexeForSandbox_spec nexesAttr sandbox
  constructor
  · intro follows lost
    obtain ⟨rfl, earlier, parts, -⟩ := id lost
    have member : [colon] ∈ lines nexesAttr.bytes := by
      rw [parts]
      exact List.mem_append_right _ (List.mem_singleton.mpr rfl)
    obtain ⟨url, found⟩ := follows.returns.mpr
      ⟨_, member, [], [], [], rfl, nofun, rfl, rfl⟩
    rw [run, looks.lost lost] at found
    cases found
  · intro notLost
    refine ⟨by rw [run]; nofun, ?_, fun url found => ?_⟩
    · constructor
      · rintro ⟨url, found⟩
        rw [run, Option.some_inj] at found
        obtain ⟨earlier, line, later, parts, -, matching⟩ := looks.found url found
        exact ⟨line, parts ▸ (by simp), url, matching⟩
      · rintro ⟨line, member, url, matching⟩
        cases result with
        | some url => exact ⟨url, run⟩
        | none =>
            rcases looks.missed rfl with notThere | lost
            · exact absurd matching (notThere line member url)
            · exact absurd lost notLost
    · rw [run, Option.some_inj] at found
      exact looks.found url found

/-- The name that `GetSandboxISA` gives is not empty. -/
theorem followsGrammar_of_name
    {sizeBits : Nat} (nexesAttr : ByteString sizeBits) {sandbox : List UInt8}
    (name : sandbox ≠ []) : FollowsGrammar nexesAttr sandbox := by
  rw [followsGrammar_iff]
  rintro ⟨unnamed, -⟩
  exact name unnamed

/-- The attribute `arm:a` with a second line ` x86-32 :b`. -/
theorem followsGrammar_of_name_second :
    FollowsGrammar
      (⟨[97, 114, 109, 58, 97, 10, 32, 120, 56, 54, 45, 51, 50, 32, 58, 98],
        by decide⟩ : ByteString 32)
      [120, 56, 54, 45, 51, 50] :=
  followsGrammar_of_name _ (by decide)

/-- An attribute that is a colon, for a sandbox without a name. -/
theorem colon_overlooked :
    findNexeForSandbox (⟨[colon], by decide⟩ : ByteString 32) [] = some none ∧
      ¬ FollowsGrammar (⟨[colon], by decide⟩ : ByteString 32) [] := by
  have misses : findNexeForSandbox
      (⟨[colon], by decide⟩ : ByteString 32) [] = some none := by
    decide +kernel
  refine ⟨misses, fun follows => ?_⟩
  obtain ⟨url, found⟩ := follows.returns.mpr
    ⟨[colon], by decide +kernel, [], [], [], rfl, nofun, rfl, rfl⟩
  rw [misses] at found
  cases found

end Lines

end NativeClient.Plugin
