import NativeClient.Library.Holding
import NativeClient.Runtime.AddressTranslation

/-!
# The stack of the main thread

`NaClCreateMainThread` computes the size of a stack image and then writes it:
`argc`, the pointers to the arguments and to the environment, an empty `auxv`,
and behind these the strings.  The image is a list of stores, which has to fill
the computed size without writing a byte twice.
-/

namespace NativeClient.Runtime

open NativeClient.Library

namespace SandboxBuild

def regBytes : SandboxBuild → Nat
  | .x86_32 => 4
  | .x86_64 => 8
  | .arm => 4

def stackAlignMask : SandboxBuild → Nat
  | .x86_32 => 0xf
  | .x86_64 => 0xf
  | .arm => 0x3

/-- The alignment that the comments on the masks call for: of code with SSE
instructions, and of a public stack on ARM. -/
def stackAlignment : SandboxBuild → Nat
  | .x86_32 => 16
  | .x86_64 => 16
  | .arm => 8

end SandboxBuild

structure HostString where
  chars : List UInt8
  noNul : 0 ∉ chars

def HostString.size (string : HostString) : Nat := string.chars.length + 1

def HostString.bytes (string : HostString) : List UInt8 := string.chars ++ [0]

/-- `p` and `strp` in the source, and what has been written. -/
structure StackWriter where
  p : Nat
  strp : Nat
  stores : List Store

/-- The macro `BLAT`. -/
def StackWriter.blat (writer : StackWriter) (width value : Nat) : StackWriter :=
  { writer with
    p := writer.p + width
    stores := writer.stores ++ [⟨writer.p, littleEndian width value⟩] }

def StackWriter.strcpy (writer : StackWriter) (string : HostString) :
    StackWriter :=
  { writer with
    strp := writer.strp + string.size
    stores := writer.stores ++ [⟨writer.strp, string.bytes⟩] }

/-- One of the two loops.  `NaClSysToUser` may stop the process. -/
def writeStrings (layout : AppLayout) :
    List HostString → StackWriter → Option StackWriter
  | [], writer => some writer
  | string :: rest, writer => do
      let uaddr ← layout.naClSysToUser writer.strp
      writeStrings layout rest
        ((writer.blat 4 (uaddr % 2 ^ 32)).strcpy string)

structure StackImage where
  stackPtr : Nat
  /-- What the new thread gets as its stack pointer. -/
  userStackPtr : Nat
  stores : List Store

inductive MainThreadFailure where
  | refused
  | fatal
  deriving DecidableEq

structure LengthAllocations where
  argvLen : Bool
  envvLen : Bool

section Calls

variable (build : SandboxBuild) (layout : AppLayout)

/-- The sum of the sizes, as a `size_t`. -/
def addSizes : List HostString → Nat → Nat
  | [], size => size
  | string :: rest, size =>
      addSizes rest (wrapWord layout.wordBits (size + string.size))

/-- The sum of the counts is an `int`. -/
def ptrTblSize (argc envc : Nat) : Nat :=
  let words := Int.bmod (argc + envc + 6) (2 ^ 32) % 2 ^ layout.wordBits
  wrapWord layout.wordBits (words.toNat * 4 + 4)

def roundStackSize (size : Nat) : Nat :=
  let mask := BitVec.ofNat layout.wordBits build.stackAlignMask
  ((BitVec.ofNat layout.wordBits size + mask) &&& ~~~ mask).toNat

def naClSysToUserStackAddr (stackaddr : Nat) : Option Nat :=
  match build with
  | .x86_64 => some stackaddr
  | _ => layout.naClSysToUser stackaddr

/-- The stores of the image from `stack_ptr` on. -/
def writeImage (stackPtr tableSize : Nat) (argv envv : List HostString) :
    Option StackWriter := do
  let writer : StackWriter := ⟨stackPtr, stackPtr + tableSize, []⟩
  let writer := writer.blat build.regBytes argv.length
  let writer ← writeStrings layout argv writer
  let writer := writer.blat 4 0
  let writer ← writeStrings layout envv writer
  some (((writer.blat 4 0).blat 4 0).blat 4 0)

def stopUnless (holds : Bool) (failure : MainThreadFailure) :
    Except MainThreadFailure Unit :=
  if holds then .ok () else .error failure

def naClCreateMainThread (allocations : LengthAllocations) (stackSize : Nat)
    (argv envv : List HostString) : Except MainThreadFailure StackImage := do
  stopUnless (0 < argv.length) .fatal
  stopUnless allocations.argvLen .refused
  stopUnless (allocations.envvLen || envv.length = 0) .refused
  let size := addSizes layout envv (addSizes layout argv 0)
  let tableSize := ptrTblSize layout argv.length envv.length
  stopUnless (tableSize ≤ 2 ^ layout.wordBits - 1 - size) .refused
  let size := roundStackSize build layout (size + tableSize)
  stopUnless (size ≤ stackSize) .refused
  let stackPtr := wrapWord layout.wordBits
    (layout.memStart + 2 ^ layout.addrBits + 2 ^ layout.wordBits - size)
  stopUnless
    (BitVec.ofNat layout.wordBits stackPtr &&&
      BitVec.ofNat layout.wordBits build.stackAlignMask = 0) .fatal
  match writeImage build layout stackPtr tableSize argv envv,
    naClSysToUserStackAddr build layout stackPtr with
  | some writer, some userStackPtr =>
      .ok ⟨stackPtr, userStackPtr, writer.stores⟩
  | _, _ => .error .fatal

end Calls

/-! ## What the image is to be -/

def stringBytes (strings : List HostString) : Nat :=
  (strings.map HostString.size).sum

def StoresApart (left right : Store) : Prop :=
  left.Beside right.address right.bytes.length

def HoldsTable (layout : AppLayout) (memory : Buffer) (start : Nat)
    (strings : List HostString) : Prop :=
  ∀ index (inside : index < strings.length),
    Holds memory
      (layout.memStart + numberAt memory (start + 4 * index) 4)
      strings[index].bytes

/-- Every byte that is written is in the part of the stack that was computed,
none twice, and what is written can be read. -/
structure ImageFits (build : SandboxBuild) (layout : AppLayout)
    (argv envv : List HostString) (image : StackImage) : Prop where
  inside : ∀ store ∈ image.stores, image.stackPtr ≤ store.address ∧
    store.address + store.bytes.length ≤
      layout.memStart + 2 ^ layout.addrBits
  apart : image.stores.Pairwise StoresApart
  count : ∀ memory, numberAt (applyStores image.stores memory) image.stackPtr
    build.regBytes = argv.length
  arguments : ∀ memory, HoldsTable layout (applyStores image.stores memory)
    (image.stackPtr + build.regBytes) argv
  argumentsEnd : ∀ memory, numberAt (applyStores image.stores memory)
    (image.stackPtr + build.regBytes + 4 * argv.length) 4 = 0
  environment : ∀ memory, HoldsTable layout (applyStores image.stores memory)
    (image.stackPtr + build.regBytes + 4 * (argv.length + 1)) envv
  empty : ∀ memory, ∀ word < 3, numberAt (applyStores image.stores memory)
    (image.stackPtr + build.regBytes +
      4 * (argv.length + 1 + envv.length + word)) 4 = 0

structure StackLayout (layout : AppLayout) (stackSize : Nat) : Prop where
  start : 2 ^ 16 ∣ layout.memStart
  last : layout.memStart + 2 ^ layout.addrBits < 2 ^ layout.wordBits
  stack : stackSize ≤ 2 ^ layout.addrBits

def imageBytes (argv envv : List HostString) : Nat :=
  stringBytes argv + stringBytes envv + 4 * (argv.length + envv.length + 7)

def imageSize (build : SandboxBuild) (argv envv : List HostString) : Nat :=
  (imageBytes argv envv + build.stackAlignMask) /
    (build.stackAlignMask + 1) * (build.stackAlignMask + 1)

structure Admitted (build : SandboxBuild) (layout : AppLayout) (stackSize : Nat)
    (argv envv : List HostString) : Prop where
  some' : 0 < argv.length
  counts : argv.length + envv.length + 6 < 2 ^ 31
  sizes : imageBytes argv envv + build.stackAlignMask < 2 ^ layout.wordBits
  fits : imageSize build argv envv ≤ stackSize

section Stores

def StoreWithin (low high : Nat) (store : Store) : Prop :=
  low ≤ store.address ∧ store.address + store.bytes.length ≤ high

def stringStores (layout : AppLayout) : List HostString → Nat → Nat → List Store
  | [], _, _ => []
  | string :: rest, p, strp =>
      ⟨p, littleEndian 4 ((strp - layout.memStart) % 2 ^ 32)⟩ ::
        ⟨strp, string.bytes⟩ ::
          stringStores layout rest (p + 4) (strp + string.size)

variable {layout : AppLayout} {strings : List HostString} {p strp : Nat}

theorem length_bytes (string : HostString) :
    string.bytes.length = string.size := by
  rw [HostString.bytes, List.length_append]
  rfl

theorem stringBytes_cons (string : HostString) (rest : List HostString) :
    stringBytes (string :: rest) = string.size + stringBytes rest := by
  rw [stringBytes, List.map_cons, List.sum_cons]
  rfl

theorem size_pos (string : HostString) : 0 < string.size := Nat.succ_pos _

theorem writeStrings_eq
    (last : layout.memStart + 2 ^ layout.addrBits < 2 ^ layout.wordBits)
    {writer : StackWriter} (above : layout.memStart ≤ writer.strp)
    (fits : writer.strp + stringBytes strings ≤
      layout.memStart + 2 ^ layout.addrBits) :
    writeStrings layout strings writer =
      some ⟨writer.p + 4 * strings.length,
        writer.strp + stringBytes strings,
        writer.stores ++
          stringStores layout strings writer.p writer.strp⟩ := by
  induction strings generalizing writer with
  | nil =>
      rw [writeStrings, stringStores, List.append_nil]
      rfl
  | cons string rest ih =>
      rw [stringBytes_cons] at fits
      have positive := size_pos string
      rw [writeStrings, AddressSpace.naClSysToUser_eq above (by omega) last,
        Option.bind_eq_bind, Option.bind_some, ih]
      · simp only [StackWriter.blat, StackWriter.strcpy, stringStores,
          stringBytes_cons, List.length_cons, List.append_assoc,
          List.cons_append, List.nil_append, Option.some.injEq,
          StackWriter.mk.injEq, and_true]
        omega
      · exact Nat.le_add_right_of_le above
      · show writer.strp + string.size + stringBytes rest ≤ _
        omega

theorem apart_of_within
    {low middle middle' high : Nat} {left right : Store}
    (leftWithin : StoreWithin low middle left)
    (rightWithin : StoreWithin middle' high right)
    (ordered : middle ≤ middle') :
    StoresApart left right ∧ StoresApart right left := by
  obtain ⟨-, leftEnd⟩ := leftWithin
  obtain ⟨rightStart, -⟩ := rightWithin
  exact ⟨.inr (by omega), .inl (by omega)⟩

structure StorePart (low high strLow strHigh : Nat) (stores : List Store) :
    Prop where
  within : ∀ store ∈ stores,
    StoreWithin low high store ∨ StoreWithin strLow strHigh store
  apart : stores.Pairwise StoresApart
  table : low ≤ high
  chars : strLow ≤ strHigh

theorem StorePart.append
    {low middle high strLow strMiddle strHigh : Nat} {left right : List Store}
    (front : StorePart low middle strLow strMiddle left)
    (back : StorePart middle high strMiddle strHigh right)
    (room : high ≤ strLow) :
    StorePart low high strLow strHigh (left ++ right) := by
  have frontTable := front.table
  have frontChars := front.chars
  have backTable := back.table
  have backChars := back.chars
  refine ⟨?_, List.pairwise_append.mpr ⟨front.apart, back.apart, ?_⟩,
    Nat.le_trans frontTable backTable, Nat.le_trans frontChars backChars⟩
  · intro store member
    rcases List.mem_append.mp member with inFront | inBack
    · rcases front.within store inFront with ⟨above, below⟩ | ⟨above, below⟩
      · exact .inl ⟨above, by omega⟩
      · exact .inr ⟨above, by omega⟩
    · rcases back.within store inBack with ⟨above, below⟩ | ⟨above, below⟩
      · exact .inl ⟨by omega, below⟩
      · exact .inr ⟨by omega, below⟩
  · intro left inFront right inBack
    rcases front.within left inFront with leftTable | leftChars <;>
      rcases back.within right inBack with rightTable | rightChars
    · exact (apart_of_within leftTable rightTable (Nat.le_refl _)).1
    · exact (apart_of_within leftTable rightChars (by omega)).1
    · exact (apart_of_within rightTable leftChars (by omega)).2
    · exact (apart_of_within leftChars rightChars (Nat.le_refl _)).1

theorem storePart_word (p width value strings : Nat) :
    StorePart p (p + width) strings strings [⟨p, littleEndian width value⟩] where
  within store member := by
    rw [List.mem_singleton.mp member]
    refine .inl ⟨Nat.le_refl _, ?_⟩
    rw [length_littleEndian]
  apart := List.pairwise_singleton _ _
  table := Nat.le_add_right _ _
  chars := Nat.le_refl _

theorem storePart_string (strp table : Nat) (string : HostString) :
    StorePart table table strp (strp + string.size)
      [⟨strp, string.bytes⟩] where
  within store member := by
    rw [List.mem_singleton.mp member]
    refine .inr ⟨Nat.le_refl _, ?_⟩
    rw [length_bytes]
  apart := List.pairwise_singleton _ _
  table := Nat.le_refl _
  chars := Nat.le_add_right _ _

theorem stringStores_part (room : p + 4 * strings.length ≤ strp) :
    StorePart p (p + 4 * strings.length) strp (strp + stringBytes strings)
      (stringStores layout strings p strp) := by
  induction strings generalizing p strp with
  | nil =>
      exact ⟨fun store member => absurd member List.not_mem_nil,
        List.Pairwise.nil, Nat.le_refl _, Nat.le_refl _⟩
  | cons string rest ih =>
      rw [List.length_cons] at room ⊢
      have pointer := storePart_word p 4 ((strp - layout.memStart) % 2 ^ 32) strp
      have chars := storePart_string strp (p + 4) string
      have later := @ih (p + 4) (strp + string.size) (by omega)
      have both := (pointer.append chars (by omega)).append later (by omega)
      have tableEnd : p + 4 * (rest.length + 1) = p + 4 + 4 * rest.length := by
        omega
      rw [stringBytes_cons, tableEnd, ← Nat.add_assoc]
      exact both

theorem stringStores_getElem
    {index : Nat} (inside : index < strings.length) :
    ∃ address, strp ≤ address ∧ address < strp + stringBytes strings ∧
      ⟨p + 4 * index, littleEndian 4 ((address - layout.memStart) % 2 ^ 32)⟩ ∈
        stringStores layout strings p strp ∧
      ⟨address, strings[index].bytes⟩ ∈ stringStores layout strings p strp := by
  induction strings generalizing index p strp with
  | nil => exact absurd inside (Nat.not_lt_zero _)
  | cons string rest ih =>
      rw [stringBytes_cons]
      have positive := size_pos string
      cases index with
      | zero =>
          exact ⟨strp, Nat.le_refl _, by omega, List.mem_cons_self,
            List.mem_cons_of_mem _ List.mem_cons_self⟩
      | succ index =>
          rw [List.length_cons] at inside
          obtain ⟨address, above, below, pointer, chars⟩ :=
            @ih (p + 4) (strp + string.size) index (by omega)
          refine ⟨address, by omega, by omega, ?_, ?_⟩
          · have place : p + 4 * (index + 1) = p + 4 + 4 * index := by omega
            rw [place]
            exact List.mem_cons_of_mem _ (List.mem_cons_of_mem _ pointer)
          · exact List.mem_cons_of_mem _ (List.mem_cons_of_mem _ chars)

theorem holds_of_apart
    {stores : List Store} (apart : stores.Pairwise StoresApart) {store : Store}
    (member : store ∈ stores) (memory : Buffer) :
    Holds (applyStores stores memory) store.address store.bytes := by
  obtain ⟨front, back, rfl⟩ := List.append_of_mem member
  refine holds_applyStores ?_ memory
  intro later inBack
  have beside := (List.pairwise_append.mp apart).2.1
  have after := (List.pairwise_cons.mp beside).1 later inBack
  rcases after with before | behind
  · exact .inr before
  · exact .inl behind

end Stores

section Image

variable {build : SandboxBuild} {layout : AppLayout} {stackSize : Nat}
  {argv envv : List HostString} {sp tableSize : Nat}

def imageStores (build : SandboxBuild) (layout : AppLayout) (sp tableSize : Nat)
    (argv envv : List HostString) : List Store :=
  let pointers := sp + build.regBytes
  let environment := pointers + 4 * argv.length + 4
  let auxv := environment + 4 * envv.length
  [⟨sp, littleEndian build.regBytes argv.length⟩] ++
    stringStores layout argv pointers (sp + tableSize) ++
    [⟨pointers + 4 * argv.length, littleEndian 4 0⟩] ++
    stringStores layout envv environment
      (sp + tableSize + stringBytes argv) ++
    [⟨auxv, littleEndian 4 0⟩] ++ [⟨auxv + 4, littleEndian 4 0⟩] ++
    [⟨auxv + 4 + 4, littleEndian 4 0⟩]

theorem writeImage_eq
    (last : layout.memStart + 2 ^ layout.addrBits < 2 ^ layout.wordBits)
    (above : layout.memStart ≤ sp)
    (fits : sp + tableSize + stringBytes argv + stringBytes envv ≤
      layout.memStart + 2 ^ layout.addrBits) :
    (writeImage build layout sp tableSize argv envv).map StackWriter.stores =
      some (imageStores build layout sp tableSize argv envv) := by
  rw [writeImage]
  dsimp only
  rw [writeStrings_eq last (Nat.le_add_right_of_le above) (by
    show sp + tableSize + stringBytes argv ≤ _
    omega), Option.bind_eq_bind, Option.bind_some,
    writeStrings_eq last (by
      show layout.memStart ≤ sp + tableSize + stringBytes argv
      omega) (by
      show sp + tableSize + stringBytes argv + stringBytes envv ≤ _
      exact fits), Option.bind_some, Option.map_some]
  rfl

theorem table_room (build : SandboxBuild) (argv envv : List HostString) :
    build.regBytes + 4 * (argv.length + 1) + 4 * (envv.length + 3) ≤
      4 * (argv.length + envv.length + 7) := by
  cases build <;> simp only [SandboxBuild.regBytes] <;> omega

theorem imageStores_part
    (room : build.regBytes + 4 * (argv.length + 1) + 4 * (envv.length + 3) ≤
      tableSize) :
    StorePart sp (sp + build.regBytes + 4 * argv.length + 4 +
        4 * envv.length + 4 + 4 + 4)
      (sp + tableSize)
      (sp + tableSize + stringBytes argv + stringBytes envv)
      (imageStores build layout sp tableSize argv envv) := by
  have argc := storePart_word sp build.regBytes argv.length (sp + tableSize)
  have arguments := @stringStores_part layout argv (sp + build.regBytes)
    (sp + tableSize) (by omega)
  have argumentsEnd := storePart_word (sp + build.regBytes + 4 * argv.length) 4
    0 (sp + tableSize + stringBytes argv)
  have environment := @stringStores_part layout envv
    (sp + build.regBytes + 4 * argv.length + 4)
    (sp + tableSize + stringBytes argv) (by omega)
  have first := storePart_word
    (sp + build.regBytes + 4 * argv.length + 4 + 4 * envv.length) 4 0
    (sp + tableSize + stringBytes argv + stringBytes envv)
  have second := storePart_word
    (sp + build.regBytes + 4 * argv.length + 4 + 4 * envv.length + 4) 4 0
    (sp + tableSize + stringBytes argv + stringBytes envv)
  have third := storePart_word
    (sp + build.regBytes + 4 * argv.length + 4 + 4 * envv.length + 4 + 4) 4 0
    (sp + tableSize + stringBytes argv + stringBytes envv)
  exact (((((argc.append arguments (by omega)).append argumentsEnd
    (by omega)).append environment (by omega)).append first
    (by omega)).append second (by omega)).append third (by omega)

theorem holdsTable_of_apart
    {stores : List Store} (apart : stores.Pairwise StoresApart)
    {strings : List HostString} {p strp : Nat}
    (written : ∀ store ∈ stringStores layout strings p strp, store ∈ stores)
    (above : layout.memStart ≤ strp)
    (fits : strp + stringBytes strings ≤
      layout.memStart + 2 ^ layout.addrBits) (memory : Buffer) :
    HoldsTable layout (applyStores stores memory) p strings := by
  intro index inside
  obtain ⟨address, least, below, pointer, chars⟩ :=
    @stringStores_getElem layout strings p strp index inside
  have addressBits : 2 ^ layout.addrBits ≤ 2 ^ 32 :=
    Nat.pow_le_pow_right (by decide) layout.address
  have narrow : (address - layout.memStart) % 2 ^ 32 =
      address - layout.memStart := Nat.mod_eq_of_lt (by omega)
  have read : numberAt (applyStores stores memory) (p + 4 * index) 4 =
      (address - layout.memStart) % 2 ^ 32 :=
    numberAt_of_holds (Nat.mod_lt _ (by decide))
      (holds_of_apart apart (written _ pointer) memory)
  have back : layout.memStart + (address - layout.memStart) = address := by
    omega
  rw [read, narrow, back]
  exact holds_of_apart apart (written _ chars) memory

theorem imageFits
    {userStackPtr : Nat}
    (room : build.regBytes + 4 * (argv.length + 1) + 4 * (envv.length + 3) ≤
      tableSize)
    (count : argv.length < 2 ^ 31) (above : layout.memStart ≤ sp)
    (fits : sp + tableSize + stringBytes argv + stringBytes envv ≤
      layout.memStart + 2 ^ layout.addrBits) :
    ImageFits build layout argv envv
      ⟨sp, userStackPtr, imageStores build layout sp tableSize argv envv⟩ := by
  have part := @imageStores_part build layout argv envv sp tableSize room
  have read {address width value : Nat} (small : value < 256 ^ width)
      (member : ⟨address, littleEndian width value⟩ ∈
        imageStores build layout sp tableSize argv envv) (memory : Buffer) :
      numberAt (applyStores (imageStores build layout sp tableSize argv envv)
        memory) address width = value :=
    numberAt_of_holds small (holds_of_apart part.apart member memory)
  constructor
  case inside =>
    intro store member
    rcases part.within store member with ⟨low, high⟩ | ⟨low, high⟩
    · exact ⟨low, by omega⟩
    · refine ⟨?_, by omega⟩
      show sp ≤ store.address
      omega
  case apart => exact part.apart
  case count =>
    refine read ?_ (by simp [imageStores])
    cases build <;> simp only [SandboxBuild.regBytes] <;> omega
  case arguments =>
    refine holdsTable_of_apart part.apart ?_
      (show layout.memStart ≤ sp + tableSize by omega) (by omega)
    intro store member
    simp only [imageStores, List.mem_append]
    exact .inl (.inl (.inl (.inl (.inl (.inr member)))))
  case argumentsEnd =>
    refine read (by decide) (by simp [imageStores])
  case environment =>
    have place : sp + build.regBytes + 4 * (argv.length + 1) =
        sp + build.regBytes + 4 * argv.length + 4 := by
      omega
    intro memory
    show HoldsTable layout _ (sp + build.regBytes + 4 * (argv.length + 1)) envv
    rw [place]
    refine holdsTable_of_apart part.apart ?_
      (show layout.memStart ≤ sp + tableSize + stringBytes argv by omega)
      (by omega) memory
    intro store member
    simp only [imageStores, List.mem_append]
    exact .inl (.inl (.inl (.inr member)))
  case empty =>
    intro memory word small
    have place : sp + build.regBytes +
        4 * (argv.length + 1 + envv.length + word) =
        sp + build.regBytes + 4 * argv.length + 4 + 4 * envv.length +
          4 * word := by
      omega
    show numberAt _ (sp + build.regBytes +
      4 * (argv.length + 1 + envv.length + word)) 4 = 0
    rw [place]
    refine read (by decide) ?_ memory
    have words : word = 0 ∨ word = 1 ∨ word = 2 := by omega
    rcases words with rfl | rfl | rfl <;> simp [imageStores]

end Image

section Sizes

variable {build : SandboxBuild} {layout : AppLayout} {stackSize : Nat}
  {argv envv : List HostString}

theorem addSizes_eq
    {strings : List HostString} {size : Nat}
    (small : size + stringBytes strings < 2 ^ layout.wordBits) :
    addSizes layout strings size = size + stringBytes strings := by
  induction strings generalizing size with
  | nil => rfl
  | cons string rest ih =>
      rw [stringBytes_cons] at small ⊢
      rw [addSizes, wrapWord_of_lt (by omega), ih (by omega), Nat.add_assoc]

theorem ptrTblSize_eq
    {argc envc : Nat} (counts : argc + envc + 6 < 2 ^ 31)
    (small : 4 * (argc + envc + 7) < 2 ^ layout.wordBits) :
    ptrTblSize layout argc envc = 4 * (argc + envc + 7) := by
  have words : Int.bmod (argc + envc + 6) (2 ^ 32) = (argc + envc + 6 : Nat) := by
    rw [Int.bmod_eq_of_le] <;> omega
  have fits : ((argc + envc + 6 : Nat) : Int) % 2 ^ layout.wordBits =
      (argc + envc + 6 : Nat) := by
    refine Int.emod_eq_of_lt (by omega) ?_
    exact_mod_cast (show argc + envc + 6 < 2 ^ layout.wordBits by omega)
  rw [ptrTblSize, words, fits, Int.toNat_natCast, wrapWord_of_lt (by omega)]
  omega

theorem stackAlignMask_eq (build : SandboxBuild) :
    ∃ shift, build.stackAlignMask + 1 = 2 ^ shift ∧ shift ≤ 4 := by
  cases build with
  | x86_32 => exact ⟨4, rfl, Nat.le_refl _⟩
  | x86_64 => exact ⟨4, rfl, Nat.le_refl _⟩
  | arm => exact ⟨2, rfl, by decide⟩

theorem roundStackSize_eq
    (small : imageBytes argv envv + build.stackAlignMask <
      2 ^ layout.wordBits) :
    roundStackSize build layout (imageBytes argv envv) =
      imageSize build argv envv := by
  obtain ⟨shift, unit, -⟩ := stackAlignMask_eq build
  have maskSmall : build.stackAlignMask < 2 ^ layout.wordBits := by omega
  have mask : (BitVec.ofNat layout.wordBits build.stackAlignMask).toNat =
      2 ^ shift - 1 := by
    rw [BitVec.toNat_ofNat, Nat.mod_eq_of_lt maskSmall]
    omega
  have sum : (BitVec.ofNat layout.wordBits (imageBytes argv envv) +
      BitVec.ofNat layout.wordBits build.stackAlignMask).toNat =
        imageBytes argv envv + build.stackAlignMask := by
    rw [← BitVec.ofNat_add, BitVec.toNat_ofNat]
    exact Nat.mod_eq_of_lt small
  rw [roundStackSize, toNat_and_not_low _ mask, sum, imageSize, unit]
  have parts := Nat.div_add_mod (imageBytes argv envv + build.stackAlignMask)
    (2 ^ shift)
  rw [Nat.mul_comm] at parts
  omega

theorem imageSize_bounds (build : SandboxBuild) (argv envv : List HostString) :
    imageBytes argv envv ≤ imageSize build argv envv ∧
      imageSize build argv envv ≤
        imageBytes argv envv + build.stackAlignMask ∧
      build.stackAlignMask + 1 ∣ imageSize build argv envv := by
  refine ⟨?_, Nat.div_mul_le_self _ _, Nat.dvd_mul_left _ _⟩
  rw [imageSize]
  have parts := Nat.div_add_mod (imageBytes argv envv + build.stackAlignMask)
    (build.stackAlignMask + 1)
  have rest := Nat.mod_lt (imageBytes argv envv + build.stackAlignMask)
    (show 0 < build.stackAlignMask + 1 by omega)
  rw [Nat.mul_comm] at parts
  omega

theorem aligned_check
    {stackPtr : Nat} (small : stackPtr < 2 ^ layout.wordBits)
    (aligned : build.stackAlignMask + 1 ∣ stackPtr)
    (word : build.stackAlignMask < 2 ^ layout.wordBits) :
    BitVec.ofNat layout.wordBits stackPtr &&&
      BitVec.ofNat layout.wordBits build.stackAlignMask = 0 := by
  obtain ⟨shift, unit, -⟩ := stackAlignMask_eq build
  have mask : (BitVec.ofNat layout.wordBits build.stackAlignMask).toNat =
      2 ^ shift - 1 := by
    rw [BitVec.toNat_ofNat, Nat.mod_eq_of_lt word]
    omega
  apply BitVec.eq_of_toNat_eq
  rw [toNat_and_low _ mask, BitVec.toNat_ofNat, Nat.mod_eq_of_lt small, ← unit]
  exact Nat.mod_eq_zero_of_dvd aligned

theorem addrBits_ge
    (built : BuiltFor build layout) : 2 ^ 16 ∣ 2 ^ layout.addrBits := by
  refine Nat.pow_dvd_pow 2 ?_
  cases build with
  | x86_32 =>
      rw [built.2]
      decide
  | x86_64 =>
      rw [built.2.1]
      decide
  | arm =>
      rw [built.2.1]
      decide

theorem userStackPtr_eq
    (built : BuiltFor build layout) (stack : StackLayout layout stackSize)
    {size : Nat} (positive : 0 < size) (fits : size ≤ 2 ^ layout.addrBits) :
    ∃ userStackPtr, naClSysToUserStackAddr build layout
        (layout.memStart + 2 ^ layout.addrBits - size) = some userStackPtr ∧
      2 ^ 16 ∣ userStackPtr + size := by
  have start := stack.start
  have bits := addrBits_ge built
  have user : layout.naClSysToUser
      (layout.memStart + 2 ^ layout.addrBits - size) =
        some (2 ^ layout.addrBits - size) := by
    rw [AddressSpace.naClSysToUser_eq (by omega) (by omega) stack.last]
    congr 1
    omega
  have restUser : 2 ^ layout.addrBits - size + size = 2 ^ layout.addrBits := by
    omega
  cases build with
  | x86_32 =>
      refine ⟨_, user, ?_⟩
      rw [restUser]
      exact bits
  | x86_64 =>
      refine ⟨_, rfl, ?_⟩
      have rest : layout.memStart + 2 ^ layout.addrBits - size + size =
          layout.memStart + 2 ^ layout.addrBits := by
        omega
      rw [rest]
      exact Nat.dvd_add start bits
  | arm =>
      refine ⟨_, user, ?_⟩
      rw [restUser]
      exact bits

private theorem stopUnless_of
    {holds : Bool} (passed : holds = true) (failure : MainThreadFailure) :
    stopUnless holds failure = .ok () :=
  if_pos passed

theorem naClCreateMainThread_image
    (built : BuiltFor build layout) (stack : StackLayout layout stackSize)
    (admitted : Admitted build layout stackSize argv envv) :
    ∃ image, naClCreateMainThread build layout ⟨true, true⟩ stackSize argv envv =
        .ok image ∧
      ImageFits build layout argv envv image ∧
      2 ^ 16 ∣ image.userStackPtr + imageSize build argv envv := by
  have counts := admitted.counts
  have small := admitted.sizes
  have fits := admitted.fits
  have stackFits := stack.stack
  have last := stack.last
  obtain ⟨least, -, units⟩ := imageSize_bounds build argv envv
  have bytes : imageBytes argv envv = stringBytes argv + stringBytes envv +
      4 * (argv.length + envv.length + 7) := rfl
  have table : ptrTblSize layout argv.length envv.length =
      4 * (argv.length + envv.length + 7) := ptrTblSize_eq counts (by omega)
  have sizes : addSizes layout envv (addSizes layout argv 0) =
      stringBytes argv + stringBytes envv := by
    have first : addSizes layout argv 0 = stringBytes argv := by
      rw [addSizes_eq (by omega), Nat.zero_add]
    rw [first, addSizes_eq (by omega)]
  obtain ⟨sp, spEq⟩ : ∃ sp, sp =
      layout.memStart + 2 ^ layout.addrBits - imageSize build argv envv :=
    ⟨_, rfl⟩
  have wrapped : wrapWord layout.wordBits (layout.memStart +
      2 ^ layout.addrBits + 2 ^ layout.wordBits - imageSize build argv envv) =
        sp := by
    have apart : layout.memStart + 2 ^ layout.addrBits + 2 ^ layout.wordBits -
        imageSize build argv envv = sp + 2 ^ layout.wordBits := by
      omega
    rw [apart, wrapWord, Nat.add_mod_right]
    exact Nat.mod_eq_of_lt (by omega)
  have aligned : build.stackAlignMask + 1 ∣ sp := by
    obtain ⟨shift, unit, shiftSmall⟩ := stackAlignMask_eq build
    have coarse : build.stackAlignMask + 1 ∣ 2 ^ 16 := by
      rw [unit]
      exact Nat.pow_dvd_pow 2 (by omega)
    rw [spEq]
    exact Nat.dvd_sub (Nat.dvd_add (coarse.trans stack.start)
      (coarse.trans (addrBits_ge built))) units
  obtain ⟨userStackPtr, user, userUnits⟩ := userStackPtr_eq built stack
    (show 0 < imageSize build argv envv by omega) (Nat.le_trans fits stackFits)
  rw [← spEq] at user
  have written := @writeImage_eq build layout argv envv sp
    (4 * (argv.length + envv.length + 7)) last (by omega) (by omega)
  obtain ⟨writer, run, stores⟩ := Option.map_eq_some_iff.mp written
  refine ⟨⟨sp, userStackPtr, imageStores build layout sp
    (4 * (argv.length + envv.length + 7)) argv envv⟩, ?_, ?_, userUnits⟩
  · have some' := stopUnless_of (decide_eq_true admitted.some') .fatal
    have noWrap := stopUnless_of (decide_eq_true (show
      4 * (argv.length + envv.length + 7) ≤ 2 ^ layout.wordBits - 1 -
        (stringBytes argv + stringBytes envv) by omega)) .refused
    have room := stopUnless_of (decide_eq_true fits) .refused
    have check := stopUnless_of (decide_eq_true (@aligned_check build layout sp
      (by omega) aligned (by omega))) .fatal
    rw [naClCreateMainThread, some', sizes, table]
    dsimp only
    rw [noWrap, ← bytes, roundStackSize_eq small, room, wrapped, check]
    simp only [bind, Except.bind, stopUnless, if_true, Bool.true_or, run, user,
      stores]
  · exact imageFits (table_room build argv envv) (by omega) (by omega)
      (by omega)

end Sizes

/-- Whatever arguments are taken, the image fits.  The stack pointer is aligned
as it has to be, on ARM only when the image happens to be that long. -/
theorem mainThread_exact
    {build : SandboxBuild} {layout : AppLayout} {stackSize : Nat}
    {argv envv : List HostString} (built : BuiltFor build layout)
    (stack : StackLayout layout stackSize)
    (admitted : Admitted build layout stackSize argv envv) :
    ∃ image, naClCreateMainThread build layout ⟨true, true⟩ stackSize argv envv =
        .ok image ∧
      ImageFits build layout argv envv image ∧
      (build.stackAlignment ∣ image.userStackPtr ↔
        build ≠ .arm ∨ 8 ∣ imageSize build argv envv) := by
  obtain ⟨image, run, fits, units⟩ :=
    naClCreateMainThread_image built stack admitted
  obtain ⟨-, -, whole⟩ := imageSize_bounds build argv envv
  refine ⟨image, run, fits, ?_⟩
  cases build with
  | x86_32 =>
      refine iff_of_true ?_ (.inl (by decide))
      simp only [SandboxBuild.stackAlignment, SandboxBuild.stackAlignMask] at *
      omega
  | x86_64 =>
      refine iff_of_true ?_ (.inl (by decide))
      simp only [SandboxBuild.stackAlignment, SandboxBuild.stackAlignMask] at *
      omega
  | arm =>
      have same : 8 ∣ image.userStackPtr ↔
          8 ∣ imageSize .arm argv envv := by
        omega
      exact same.trans ⟨.inr, fun either => either.resolve_left (· rfl)⟩

private theorem noNul_nil : (0 : UInt8) ∉ [] := List.not_mem_nil

private def emptyString : HostString := ⟨[], noNul_nil⟩

private theorem noNul_chars :
    (0 : UInt8) ∉ [112, 114, 111, 103] ∧ (0 : UInt8) ∉ [45, 118] ∧
      (0 : UInt8) ∉ [65, 61, 49] := by
  decide

/-- The arguments `prog`, `-v` and an empty one, and the environment `A=1`. -/
theorem mainThread_exact_narrow :
    ∃ image, naClCreateMainThread .x86_32 narrowLayout ⟨true, true⟩ 0x10000
        [⟨_, noNul_chars.1⟩, ⟨_, noNul_chars.2.1⟩, emptyString]
        [⟨_, noNul_chars.2.2⟩] = .ok image ∧
      ImageFits .x86_32 narrowLayout
        [⟨_, noNul_chars.1⟩, ⟨_, noNul_chars.2.1⟩, emptyString]
        [⟨_, noNul_chars.2.2⟩] image ∧
      16 ∣ image.userStackPtr := by
  obtain ⟨image, run, fits, aligned⟩ :=
    @mainThread_exact .x86_32 narrowLayout 0x10000
      [⟨_, noNul_chars.1⟩, ⟨_, noNul_chars.2.1⟩, emptyString]
      [⟨_, noNul_chars.2.2⟩] ⟨rfl, rfl⟩ ⟨by decide, by decide, by decide⟩
      ⟨by decide, by decide, by decide, by decide⟩
  exact ⟨image, run, fits, aligned.mpr (.inl (by decide))⟩

private theorem armBundle : 16 = 16 ∨ 16 = 32 := .inl rfl

private theorem armStart : 16 ∣ 0 := by decide

private theorem armBits : 30 ≤ 32 := by decide

private theorem armMemory : 0 + 2 ^ 30 ≤ 2 ^ 32 := by decide

private theorem armText {end' : Nat} :
    false = true → naclHaltSledSize ≤ end' ∧ end' < 2 ^ 30 := by
  intro enabled
  cases enabled

private def armLayout : AppLayout where
  wordBits := 32
  addrBits := 30
  memStart := 0
  bundleSize := 16
  instrBlockSize := 16
  dynamicTextStart := 0x20000
  dynamicTextEnd := 0x20000
  textShm := false
  allowDyncodeReplacement := false
  ignoreValidatorResult := false
  word := bits32
  bundle := armBundle
  memAligned := armStart
  address := armBits
  memory := armMemory
  text := armText

/-- An empty program name makes an image of nine words. -/
theorem not_aligned_arm :
    ¬ ∀ (build : SandboxBuild) (layout : AppLayout) (stackSize : Nat)
      (argv envv : List HostString), BuiltFor build layout →
        StackLayout layout stackSize →
        Admitted build layout stackSize argv envv →
          ∃ image, naClCreateMainThread build layout ⟨true, true⟩ stackSize argv
              envv = .ok image ∧
            ImageFits build layout argv envv image ∧
            build.stackAlignment ∣ image.userStackPtr := by
  intro right
  have built : BuiltFor .arm armLayout := ⟨rfl, rfl, rfl⟩
  have stack : StackLayout armLayout 0x10000 :=
    ⟨by decide, by decide, by decide⟩
  have admitted : Admitted .arm armLayout 0x10000 [emptyString] [] :=
    ⟨by decide, by decide, by decide, by decide⟩
  obtain ⟨image, run, -, aligned⟩ := right _ _ _ _ _ built stack admitted
  obtain ⟨same, again, -, units⟩ :=
    naClCreateMainThread_image built stack admitted
  rw [run] at again
  cases again
  have size : imageSize .arm [emptyString] [] = 36 := by decide
  rw [size] at units
  change 8 ∣ image.userStackPtr at aligned
  omega

end NativeClient.Runtime
