import NativeClient.Library.Merging
import Mathlib.Data.List.Basic

/-!
# The tables of the decoder generator

A table has rows of bit patterns, one for each column, and a row has an action
for the words that all of its patterns match.  Before the generator turns a
table into code it merges rows with the same action, two at a time, drops the
columns that nothing depends on, and sorts the rows that are left.
-/

namespace NativeClient.DecoderGenerator

open NativeClient.Library

def popcount (bits : BitVec 32) : Nat :=
  ((List.range 32).filter fun bit => bits.getLsbD bit).length

/-- `'=='` or `'!='`. -/
inductive Op where
  | eq
  | ne
deriving DecidableEq

structure BitPattern where
  mask : BitVec 32
  value : BitVec 32
  op : Op
  within : value &&& mask = value
deriving DecidableEq

namespace BitPattern

def significantBits (pattern : BitPattern) : Nat := popcount pattern.mask

def conflicts (pattern other : BitPattern) : BitVec 32 :=
  (pattern.mask &&& pattern.value) ^^^ (other.mask &&& other.value)

def isComplement (pattern other : BitPattern) : Bool :=
  pattern.op != other.op && pattern.mask == other.mask &&
    pattern.value == other.value

/-- Safe to merge using `+`, but not equal. -/
def isStrictlyCompatible (pattern other : BitPattern) : Bool :=
  if pattern.isComplement other then true
  else if pattern.op = other.op then
    pattern.mask == other.mask && popcount (pattern.conflicts other) == 1
  else false

private theorem add_within (pattern other : BitPattern) :
    ((pattern.value ||| other.value) ^^^ pattern.conflicts other) &&&
        ((pattern.mask ||| other.mask) ^^^ pattern.conflicts other) =
      (pattern.value ||| other.value) ^^^ pattern.conflicts other := by
  have left := pattern.within
  have right := other.within
  apply BitVec.eq_of_getLsbD_eq
  intro place below
  have leftBit := congrArg (BitVec.getLsbD · place) left
  have rightBit := congrArg (BitVec.getLsbD · place) right
  unfold conflicts
  simp only [BitVec.getLsbD_and, BitVec.getLsbD_or, BitVec.getLsbD_xor]
    at leftBit rightBit ⊢
  revert leftBit rightBit
  generalize pattern.value.getLsbD place = leftValue
  generalize pattern.mask.getLsbD place = leftMask
  generalize other.value.getLsbD place = rightValue
  generalize other.mask.getLsbD place = rightMask
  revert leftValue leftMask rightValue rightMask
  decide

def add (pattern other : BitPattern) : BitPattern :=
  if pattern.op = other.op then
    { mask := (pattern.mask ||| other.mask) ^^^ pattern.conflicts other
      value := (pattern.value ||| other.value) ^^^ pattern.conflicts other
      op := pattern.op
      within := add_within pattern other }
  else
    { mask := 0
      value := 0
      op := .eq
      within := rfl }

def matchesWord (pattern : BitPattern) (word : BitVec 32) : Bool :=
  if pattern.mask = 0#32 then true
  else
    match pattern.op with
    | .eq => word &&& pattern.mask == pattern.value
    | .ne => word &&& pattern.mask != pattern.value

/-- `'!='` comes before `'=='`. -/
def cmpOp : Op → Op → Ordering
  | .ne, .eq => .lt
  | .eq, .ne => .gt
  | _, _ => .eq

def cmp (pattern other : BitPattern) : Ordering :=
  (compare other.significantBits pattern.significantBits).then
    ((compare pattern.mask.toNat other.mask.toNat).then
      ((compare pattern.value.toNat other.value.toNat).then
        (cmpOp pattern.op other.op)))

end BitPattern

structure Row where
  patterns : List BitPattern
  action : String
  arch : Option String
deriving DecidableEq

namespace Row

def canMerge (row other : Row) : Bool :=
  if row.action ≠ other.action ∨ row.arch ≠ other.arch then false
  else
    let pairs := row.patterns.zip other.patterns
    let equalColumns := pairs.countP fun pair => pair.1 = pair.2
    let compatColumns :=
      pairs.countP fun pair => pair.1.isStrictlyCompatible pair.2
    let cols := row.patterns.length
    equalColumns == cols || (equalColumns == cols - 1 && compatColumns == 1)

def add (row other : Row) : Row where
  patterns := List.zipWith BitPattern.add row.patterns other.patterns
  action := row.action
  arch := row.arch

/-- The condition of the `if` of a row. -/
def matchesWord (row : Row) (word : BitVec 32) : Bool :=
  row.patterns.all fun pattern => pattern.matchesWord word

def cmpPatterns : List BitPattern → List BitPattern → Ordering
  | [], [] => .eq
  | [], _ :: _ => .lt
  | _ :: _, [] => .gt
  | pattern :: patterns, other :: others =>
      (pattern.cmp other).then (cmpPatterns patterns others)

def cmp (row other : Row) : Ordering :=
  (cmpPatterns row.patterns other.patterns).then
    (compare row.action other.action)

def key (row : Row) : String × Option String := (row.action, row.arch)

end Row

/-- The first row that can be merged with `row`, and the others. -/
def partner (row : Row) : List Row → Option (Row × List Row)
  | [] => none
  | other :: rest =>
      if row.canMerge other then some (other, rest)
      else
        match partner row rest with
        | none => none
        | some (found, others) => some (found, other :: others)

def mergeablePair : List Row → Option (Row × Row × List Row)
  | [] => none
  | row :: rest =>
      match partner row rest with
      | some (other, others) => some (row, other, others)
      | none =>
          match mergeablePair rest with
          | none => none
          | some (first, second, others) => some (first, second, row :: others)

def mergeStep (rows : List Row) : Option (List Row) :=
  match mergeablePair rows with
  | none => none
  | some (first, second, others) => some (others ++ [first.add second])

def optimizeRowsForSingleAction (rows : List Row) : List Row :=
  mergeRun mergeStep rows.length rows

abbrev Groups := List ((String × Option String) × List Row)

def addToGroup (groups : Groups) (row : Row) : Groups :=
  match groups with
  | [] => [(row.key, [row])]
  | group :: groups =>
      if row.key = group.1 then (group.1, group.2 ++ [row]) :: groups
      else group :: addToGroup groups row

def rowsByAction (rows : List Row) : Groups :=
  rows.foldl addToGroup []

def columnUsed (rows : List Row) (col : Nat) : Bool :=
  rows.any fun row =>
    match row.patterns[col]? with
    | some pattern => pattern.mask != 0#32
    | none => false

def columnKept (rows : List Row) (numCols col : Nat) : Bool :=
  columnUsed rows col || numCols ≤ col ||
    (col == 0 && (List.range numCols).all fun other => !columnUsed rows other)

def keepColumns (kept : Nat → Bool) (patterns : List BitPattern) :
    List BitPattern :=
  (patterns.zipIdx.filter fun entry => kept entry.2).map Prod.fst

/-- An index out of range is an error: there is no first row or no column, or
some row is too short. -/
def removeUnusedColumns (rows : List Row) : Option (List Row) :=
  match rows with
  | [] => none
  | first :: _ =>
      let numCols := first.patterns.length
      if numCols = 0 ∨ ¬ rows.all fun row => numCols ≤ row.patterns.length then
        none
      else
        some (rows.map fun row =>
          { row with
            patterns := keepColumns (columnKept rows numCols) row.patterns })

/-- `itervalues` is the order in which the groups are taken out of the
dictionary. -/
def optimizeRows (itervalues : List (List Row) → List (List Row))
    (rows : List Row) : Option (List Row) :=
  removeUnusedColumns
    ((itervalues ((rowsByAction rows).map Prod.snd)).flatMap
      optimizeRowsForSingleAction)

def sortedRows (rows : List Row) : List Row :=
  rows.mergeSort fun row other => row.cmp other != .gt

structure Table where
  columns : Nat
  rows : List Row
  someColumn : 0 < columns
  someRow : rows ≠ []
  width : ∀ row ∈ rows, row.patterns.length = columns

def generateTable (itervalues : List (List Row) → List (List Row))
    (table : Table) : Option (List Row) :=
  (optimizeRows itervalues table.rows).map sortedRows

def firstMatch (rows : List Row) (word : BitVec 32) :
    Option (String × Option String) :=
  (rows.find? fun row => row.matchesWord word).map Row.key

end NativeClient.DecoderGenerator
