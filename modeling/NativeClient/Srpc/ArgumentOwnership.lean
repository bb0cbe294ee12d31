import NativeClient.Srpc.ArgumentMemory

/-!
# Who owns the memory of arguments

What the two loops do to memory.  The loop of `ArgsGet` sets the slots of
`argvec` up to the element that it cannot read, and an array or a string is owned
by its element from then on.  The walk of `ArgsFree` releases what the elements
own, up to the first null pointer in `argvec`.
-/

namespace NativeClient.Srpc

variable {δ : Type}

section Started

variable (platform : Platform δ)

def startedArgs (allocateArgs readValues : Bool) :
    List (Arg δ) → Datagram δ → Nat
  | [], _ => 0
  | arg :: args, buffer =>
      match getElements 1 1 buffer with
      | none => 0
      | some (readType, rest) =>
          if readType = [arg.tag] then
            match argGet platform allocateArgs readValues arg rest with
            | none => 1
            | some (_, rest) =>
                startedArgs allocateArgs readValues args rest + 1
          else 0

end Started

section Elements

variable {platform : Platform δ} {allocate readValue : Bool} {block : Address}
  {object : ArgObject δ} {buffer : Datagram δ}

private theorem arrGetObject_eq
    {type : ArrayType} {elements : Elements type} {array : Option Address} :
    let read := arrGetObject platform type allocate readValue block elements array
      buffer
    (arrGet platform type allocate readValue elements buffer).map
        (fun (elements, rest) => (Arg.array type elements, rest)) =
      if read.done then some (read.object.arg, read.buffer) else none := by
  unfold arrGetObject arrGet
  cases getCount buffer with
  | none => rfl
  | some counted =>
      obtain ⟨dim, rest⟩ := counted
      dsimp only [Option.bind_eq_bind, Option.bind_some]
      cases arrayTarget platform type allocate elements dim with
      | none => rfl
      | some target =>
          cases readValue with
          | false => rfl
          | true =>
              dsimp only [Option.bind_some]
              cases getElements type.size dim rest <;> rfl

private theorem stringGetObject_eq
    {str : Option CString} {array : Option Address} :
    let read := stringGetObject platform readValue block str array buffer
    (stringGet platform readValue str buffer).map
        (fun (str, rest) => (Arg.string str, rest)) =
      if read.done then some (read.object.arg, read.buffer) else none := by
  unfold stringGetObject stringGet
  cases readValue with
  | false => rfl
  | true =>
      simp only [if_true]
      cases getCount buffer with
      | none => rfl
      | some counted =>
          obtain ⟨dim, rest⟩ := counted
          dsimp only [Option.bind_eq_bind, Option.bind_some]
          split
          · rfl
          cases platform.malloc (dim + 1) with
          | none => rfl
          | some contents =>
              dsimp only [Option.bind_some]
              cases getElements 1 dim rest <;> rfl

theorem argGetObject_eq :
    let read := argGetObject platform allocate readValue block object buffer
    argGet platform allocate readValue object.arg buffer =
      if read.done then some (read.object.arg, read.buffer) else none := by
  obtain ⟨arg, array⟩ := object
  cases arg with
  | basic type field =>
      rcases got : basicGet type readValue field buffer with _ | ⟨value, rest⟩ <;>
        simp [argGetObject, argGet, got]
  | array type elements => exact arrGetObject_eq
  | handle hval => rfl
  | string str => exact stringGetObject_eq
  | other tag invalid => rfl

theorem argGetObject_owned (fresh : object.array = none) :
    let read := argGetObject platform true readValue block object buffer
    read.object.owned = if read.allocated then some block else none := by
  obtain ⟨arg, array⟩ := object
  have empty : array = none := fresh
  subst empty
  have ofArray : ∀ (type : ArrayType) (elements : Elements type) pointer,
      (ArgObject.mk (Arg.array type elements : Arg δ) pointer).owned = pointer := by
    intro type elements pointer
    simp only [ArgObject.owned, Arg.tag, argsGetEltInterface_tag]
  have ofString : ∀ str pointer,
      (ArgObject.mk (Arg.string str : Arg δ) pointer).owned = pointer := by
    intro str pointer
    simp only [ArgObject.owned, Arg.tag, argsGetEltInterface_tag]
  cases arg with
  | basic type field =>
      rcases got : basicGet type readValue field buffer with _ | ⟨value, rest⟩ <;>
        simp [argGetObject, got, ArgObject.owned, Arg.tag, argsGetEltInterface_tag]
  | array type elements =>
      dsimp only [argGetObject, arrGetObject]
      rcases counted : getCount buffer with _ | ⟨dim, rest⟩
      · exact ofArray _ _ _
      rcases target : arrayTarget platform type true elements dim with _ | target
      · simp [target, ofArray]
      rcases elements : getElements type.size dim rest with _ | ⟨bytes, rest⟩ <;>
        cases readValue <;> simp [target, elements, ofArray]
  | handle hval =>
      simp [argGetObject, ArgObject.owned, Arg.tag, argsGetEltInterface_tag]
  | string str =>
      dsimp only [argGetObject, stringGetObject]
      cases readValue with
      | false => exact ofString _ _
      | true =>
          rcases counted : getCount buffer with _ | ⟨dim, rest⟩
          · exact ofString _ _
          by_cases tooLarge : abiSizeMax ≤ dim
          · simp [tooLarge, ofString]
          rcases memory : platform.malloc (dim + 1) with _ | contents
          · simp [tooLarge, memory, ofString]
          rcases elements : getElements 1 dim rest with _ | ⟨bytes, rest⟩ <;>
            simp [tooLarge, memory, elements, ofString]
  | other tag invalid =>
      simp [argGetObject, ArgObject.owned, Arg.tag, invalid]

end Elements

section Loop

variable {platform : Platform δ} {allocateArgs readValues : Bool} {args : Address}

theorem Address.plus_inj {left right : Nat} :
    args.plus left = args.plus right ↔ left = right := by
  simp [Address.plus]

def vectorFrom (memory : ArgsMemory δ) (args : Address) (index left : Nat) :
    List (Arg δ) :=
  (List.range' index left).map fun place => (memory.objects (args.plus place)).arg

@[simp] theorem length_vectorFrom (memory : ArgsMemory δ) (index left : Nat) :
    (vectorFrom memory args index left).length = left := by
  simp [vectorFrom]

theorem vectorFrom_succ (memory : ArgsMemory δ) (index left : Nat) :
    vectorFrom memory args index (left + 1) =
      (memory.objects (args.plus index)).arg ::
        vectorFrom memory args (index + 1) left := by
  rw [vectorFrom, List.range'_succ, List.map_cons]
  rfl

theorem vectorFrom_congr
    {memory next : ArgsMemory δ} {index left : Nat}
    (same : ∀ place, index ≤ place →
      next.objects (args.plus place) = memory.objects (args.plus place)) :
    vectorFrom next args index left = vectorFrom memory args index left := by
  refine List.map_congr_left ?_
  intro place member
  rw [same place (List.mem_range'_1.mp member).1]

section AfterGet

variable (memory : ArgsMemory δ) (address : Address) (read : ObjectRead δ)

@[simp] theorem ArgsMemory.afterGet_argvec :
    (memory.afterGet address read).argvec = memory.argvec := by
  unfold afterGet
  dsimp only
  split <;> rfl

@[simp] theorem ArgsMemory.afterGet_released :
    (memory.afterGet address read).released = memory.released := by
  unfold afterGet
  dsimp only
  split <;> rfl

@[simp] theorem ArgsMemory.afterGet_slotsSet :
    (memory.afterGet address read).slotsSet = memory.slotsSet := by
  unfold afterGet
  dsimp only
  split <;> rfl

@[simp] theorem ArgsMemory.afterGet_slotsUsed :
    (memory.afterGet address read).slotsUsed = memory.slotsUsed := by
  unfold afterGet
  dsimp only
  split <;> rfl

theorem ArgsMemory.afterGet_objects :
    (memory.afterGet address read).objects =
      Function.update memory.objects address read.object := by
  unfold afterGet
  dsimp only
  split <;> rfl

theorem ArgsMemory.afterGet_allocated :
    (memory.afterGet address read).allocated = memory.allocated ++
      (if read.allocated then some (Address.mk memory.next 0) else none).toList := by
  unfold afterGet
  dsimp only
  split
  · rfl
  · exact (List.append_nil _).symm

theorem ArgsMemory.le_afterGet_next :
    memory.next ≤ (memory.afterGet address read).next := by
  unfold afterGet
  dsimp only
  split
  · exact Nat.le_succ _
  · exact Nat.le_refl _

end AfterGet

structure LoopRun (platform : Platform δ) (allocateArgs readValues : Bool)
    (args : Address) (left index : Nat) (buffer : Datagram δ)
    (before : ArgsMemory δ) (done : Bool) (rest : Datagram δ)
    (after : ArgsMemory δ) (started : Nat) : Prop where
  read : getArgs platform allocateArgs readValues left
      (vectorFrom before args index left) buffer =
    if done then some (vectorFrom after args index left, rest) else none
  started_eq : startedArgs platform allocateArgs readValues
    (vectorFrom before args index left) buffer = started
  argvec : ∀ slot, after.argvec[slot]? =
    if index ≤ slot ∧ slot < index + started then some (some (args.plus slot))
    else before.argvec[slot]?
  slotsSet : after.slotsSet = before.slotsSet ++ List.range' index started
  released : after.released = before.released
  slotsUsed : after.slotsUsed = before.slotsUsed
  objects : ∀ address, (∀ place, index ≤ place → address ≠ args.plus place) →
    after.objects address = before.objects address
  fresh : ∀ address ∈ after.allocated,
    address ∈ before.allocated ∨ before.next ≤ address.block
  owned : allocateArgs = true →
    (∀ place, index ≤ place → place < index + left →
      (before.objects (args.plus place)).array = none) →
    after.allocated = before.allocated ++ (List.range' index started).filterMap
      fun place => (after.objects (args.plus place)).owned

theorem LoopRun.stopped
    {left index : Nat} {buffer rest : Datagram δ} {before : ArgsMemory δ}
    (read : getArgs platform allocateArgs readValues left
      (vectorFrom before args index left) buffer = none)
    (started : startedArgs platform allocateArgs readValues
      (vectorFrom before args index left) buffer = 0) :
    LoopRun platform allocateArgs readValues args left index buffer before false rest
      before 0 where
  read := read
  started_eq := started
  argvec slot := by
    rw [if_neg (by omega)]
  slotsSet := (List.append_nil _).symm
  released := rfl
  slotsUsed := rfl
  objects _ _ := rfl
  fresh _ member := Or.inl member
  owned _ _ := (List.append_nil _).symm

theorem getElem?_setSlot
    {memory : ArgsMemory δ} {index : Nat} (inside : index < memory.argvec.length)
    (pointer : Option Address) (slot : Nat) :
    (memory.setSlot index pointer).argvec[slot]? =
      if slot = index then some pointer else memory.argvec[slot]? := by
  rw [ArgsMemory.setSlot, List.getElem?_set]
  by_cases same : slot = index
  · rw [if_pos same.symm, if_pos same, if_pos inside]
  · rw [if_neg (Ne.symm same), if_neg same]

section Element

variable {left index : Nat} {buffer rest : Datagram δ} {before : ArgsMemory δ}
  {read : ObjectRead δ}

private def gotElement (before : ArgsMemory δ) (args : Address) (index : Nat)
    (read : ObjectRead δ) : ArgsMemory δ :=
  (before.setSlot index (some (args.plus index))).afterGet (args.plus index) read

private theorem gotElement_object :
    (gotElement before args index read).objects (args.plus index) = read.object := by
  rw [gotElement, ArgsMemory.afterGet_objects, Function.update_self]

private theorem gotElement_other
    {address : Address} (other : address ≠ args.plus index) :
    (gotElement before args index read).objects address =
      before.objects address := by
  rw [gotElement, ArgsMemory.afterGet_objects, Function.update_of_ne other]
  rfl

private theorem gotElement_fresh
    {address : Address} (member : address ∈ (gotElement before args index read).allocated) :
    address ∈ before.allocated ∨ before.next ≤ address.block := by
  rw [gotElement, ArgsMemory.afterGet_allocated, List.mem_append] at member
  rcases member with old | new
  · exact .inl old
  · right
    split at new
    · rw [List.mem_singleton.mp new]
      exact Nat.le_refl _
    · cases new

private structure Starts (platform : Platform δ) (allocateArgs readValues : Bool)
    (args : Address) (index : Nat) (buffer rest : Datagram δ)
    (before : ArgsMemory δ) (read : ObjectRead δ) : Prop where
  inside : index < before.argvec.length
  tag : getElements 1 1 buffer =
    some ([(before.objects (args.plus index)).arg.tag], rest)
  got : argGet platform allocateArgs readValues
      (before.objects (args.plus index)).arg rest =
    if read.done then some (read.object.arg, read.buffer) else none
  owned : allocateArgs = true → (before.objects (args.plus index)).array = none →
    read.object.owned =
      if read.allocated then some ⟨before.next, 0⟩ else none

private theorem Starts.allocated
    (starts : Starts platform allocateArgs readValues args index buffer rest before
      read) (allocates : allocateArgs = true)
    (empty : (before.objects (args.plus index)).array = none) :
    (gotElement before args index read).allocated =
      before.allocated ++ read.object.owned.toList := by
  rw [gotElement, ArgsMemory.afterGet_allocated, starts.owned allocates empty]
  rfl

private theorem Starts.argvec
    (starts : Starts platform allocateArgs readValues args index buffer rest before
      read) (slot : Nat) :
    (gotElement before args index read).argvec[slot]? =
      if slot = index then some (some (args.plus slot)) else before.argvec[slot]? := by
  rw [gotElement, ArgsMemory.afterGet_argvec, getElem?_setSlot starts.inside]
  split
  · next same => rw [same]
  · rfl

private theorem Starts.last
    (starts : Starts platform allocateArgs readValues args index buffer rest before
      read) (failed : read.done = false) :
    LoopRun platform allocateArgs readValues args (left + 1) index buffer before
      false read.buffer (gotElement before args index read) 1 := by
  have got := starts.got
  rw [failed] at got
  exact {
    read := by
      rw [vectorFrom_succ, getArgs, starts.tag]
      simp [got]
    started_eq := by
      rw [vectorFrom_succ, startedArgs, starts.tag]
      simp [got]
    argvec := by
      intro slot
      rw [starts.argvec]
      by_cases same : slot = index
      · rw [if_pos same, if_pos (by omega)]
      · rw [if_neg same, if_neg (by omega)]
    slotsSet := ArgsMemory.afterGet_slotsSet _ _ _
    released := ArgsMemory.afterGet_released _ _ _
    slotsUsed := ArgsMemory.afterGet_slotsUsed _ _ _
    objects := fun address other => gotElement_other (other index (Nat.le_refl _))
    fresh := fun _ member => gotElement_fresh member
    owned := by
      intro allocates empty
      rw [starts.allocated allocates (empty index (Nat.le_refl _) (by omega)),
        List.range'_one, List.filterMap_cons, gotElement_object, List.filterMap_nil]
      cases read.object.owned <;> rfl }

private theorem Starts.next
    {done : Bool} {last : Datagram δ} {after : ArgsMemory δ} {started : Nat}
    (starts : Starts platform allocateArgs readValues args index buffer rest before
      read) (succeeded : read.done = true)
    (run : LoopRun platform allocateArgs readValues args left (index + 1) read.buffer
      (gotElement before args index read) done last after started) :
    LoopRun platform allocateArgs readValues args (left + 1) index buffer before
      done last after (started + 1) := by
  have got := starts.got
  rw [succeeded, if_pos rfl] at got
  have differ : ∀ place, index + 1 ≤ place → args.plus index ≠ args.plus place := by
    intro place above same
    have equal := Address.plus_inj.mp same
    omega
  have first : after.objects (args.plus index) = read.object :=
    (run.objects _ differ).trans gotElement_object
  have others : vectorFrom (gotElement before args index read) args (index + 1) left =
      vectorFrom before args (index + 1) left :=
    vectorFrom_congr fun place above => gotElement_other (differ place above).symm
  have readRest := run.read
  have startedRest := run.started_eq
  rw [others] at readRest startedRest
  exact {
    read := by
      rw [vectorFrom_succ, vectorFrom_succ, first, getArgs, starts.tag]
      simp only [Option.bind_eq_bind, Option.bind_some, if_true, got, readRest]
      cases done <;> rfl
    started_eq := by
      rw [vectorFrom_succ, startedArgs, starts.tag]
      simp [got, startedRest]
    argvec := by
      intro slot
      rw [run.argvec, starts.argvec]
      by_cases same : slot = index
      · rw [if_neg (by omega), if_pos same, if_pos (by omega)]
      · rw [if_neg same]
        by_cases above : index + 1 ≤ slot ∧ slot < index + 1 + started
        · rw [if_pos above, if_pos (by omega)]
        · rw [if_neg above, if_neg (by omega)]
    slotsSet := by
      rw [run.slotsSet, gotElement, ArgsMemory.afterGet_slotsSet, List.range'_succ]
      simp [ArgsMemory.setSlot]
    released := run.released.trans (ArgsMemory.afterGet_released _ _ _)
    slotsUsed := run.slotsUsed.trans (ArgsMemory.afterGet_slotsUsed _ _ _)
    objects := by
      intro address other
      rw [run.objects address fun place above => other place (by omega)]
      exact gotElement_other (other index (Nat.le_refl _))
    fresh := by
      intro address member
      rcases run.fresh address member with old | new
      · exact gotElement_fresh old
      · exact .inr (Nat.le_trans (ArgsMemory.le_afterGet_next
          (before.setSlot index (some (args.plus index))) _ _) new)
    owned := by
      intro allocates empty
      rw [run.owned allocates, starts.allocated allocates
        (empty index (Nat.le_refl _) (by omega)), List.range'_succ,
        List.filterMap_cons, first, List.append_assoc]
      · cases read.object.owned <;> rfl
      · intro place above below
        rw [gotElement_other (differ place above).symm]
        exact empty place (by omega) (by omega) }

end Element

theorem getArgObjects_run
    {left index : Nat} {buffer rest : Datagram δ} {before after : ArgsMemory δ}
    {done : Bool} (inside : index + left ≤ before.argvec.length)
    (ran : getArgObjects platform allocateArgs readValues args left index buffer before =
      (done, rest, after)) :
    ∃ started, LoopRun platform allocateArgs readValues args left index buffer before
      done rest after started := by
  induction left generalizing index buffer before with
  | zero =>
      cases ran
      exact ⟨0, ⟨rfl, rfl, fun slot => (if_neg (by omega)).symm,
        (List.append_nil _).symm, rfl, rfl, fun _ _ => rfl, fun _ => Or.inl,
        fun _ _ => (List.append_nil _).symm⟩⟩
  | succ left ih =>
      unfold getArgObjects at ran
      split at ran
      · next tag =>
          cases ran
          refine ⟨0, LoopRun.stopped ?_ ?_⟩
          · rw [vectorFrom_succ, getArgs, tag]
            rfl
          · rw [vectorFrom_succ, startedArgs, tag]
      next readType following tag =>
      dsimp only at ran
      split at ran
      · next same =>
          rw [same] at tag
          have starts : Starts platform allocateArgs readValues args index buffer
              following before (argGetObject platform allocateArgs readValues
                ⟨before.next, 0⟩ (before.objects (args.plus index)) following) := by
            refine ⟨by omega, tag, argGetObject_eq, ?_⟩
            rintro rfl empty
            exact argGetObject_owned empty
          split at ran
          · next succeeded =>
              obtain ⟨started, run⟩ := ih (by
                rw [ArgsMemory.afterGet_argvec, ArgsMemory.setSlot, List.length_set]
                omega) ran
              exact ⟨_, starts.next succeeded run⟩
          · next failed =>
              cases ran
              exact ⟨1, starts.last (Bool.eq_false_iff.mpr failed)⟩
      · next differs =>
          cases ran
          refine ⟨0, LoopRun.stopped ?_ ?_⟩
          · rw [vectorFrom_succ, getArgs, tag]
            simp [differs]
          · rw [vectorFrom_succ, startedArgs, tag]
            simp [differs]

end Loop

section Free

variable {memory freed : ArgsMemory δ} {args : Address}

theorem ArgsMemory.freeElement_released (memory : ArgsMemory δ) (address : Address) :
    (memory.freeElement address).released =
      memory.released ++ (memory.objects address).owned.toList := by
  unfold freeElement ArgObject.owned
  dsimp only
  split <;> simp_all [release, store]

theorem ArgsMemory.freeElement_other
    (memory : ArgsMemory δ) {address other : Address} (differ : other ≠ address) :
    (memory.freeElement address).objects other = memory.objects other := by
  unfold freeElement
  dsimp only
  split
  · exact Function.update_of_ne differ _ _
  · exact Function.update_of_ne differ _ _
  · rfl

theorem ArgsMemory.freeElement_keeps (memory : ArgsMemory δ) (address : Address) :
    (memory.freeElement address).allocated = memory.allocated ∧
      (memory.freeElement address).slotsSet = memory.slotsSet ∧
      (memory.freeElement address).slotsUsed = memory.slotsUsed := by
  unfold freeElement
  dsimp only
  split <;> exact ⟨rfl, rfl, rfl⟩

theorem argsFreeElements_keeps
    {slots : List (Option Address)} {slot : Nat}
    (run : argsFreeElements slots slot memory = some freed) :
    freed.allocated = memory.allocated ∧ freed.slotsSet = memory.slotsSet ∧
      ∀ used ∈ memory.slotsUsed, used ∈ freed.slotsUsed := by
  induction slots generalizing slot memory with
  | nil => cases run
  | cons first slots ih =>
      cases first with
      | none =>
          cases run
          exact ⟨rfl, rfl, fun _ => id⟩
      | some address =>
          obtain ⟨allocated, slotsSet, used⟩ := ih run
          have keeps := (memory.useSlot slot).freeElement_keeps address
          refine ⟨allocated.trans keeps.1, slotsSet.trans keeps.2.1, ?_⟩
          intro other member
          apply used
          rw [keeps.2.2]
          exact List.mem_append_left _ member

theorem argsFreeElements_uses
    {slots : List (Option Address)} {slot last : Nat}
    (run : argsFreeElements slots slot memory = some freed)
    (pointers : ∀ place ≤ last, ∃ address, slots[place]? = some (some address)) :
    slot + last ∈ freed.slotsUsed := by
  induction slots generalizing slot last memory with
  | nil => cases run
  | cons first slots ih =>
      obtain ⟨address, isFirst⟩ := pointers 0 (Nat.zero_le _)
      cases isFirst
      have rest : argsFreeElements slots (slot + 1)
          ((memory.useSlot slot).freeElement address) = some freed := run
      cases last with
      | zero =>
          apply (argsFreeElements_keeps rest).2.2
          rw [((memory.useSlot slot).freeElement_keeps address).2.2]
          exact List.mem_append_right _ List.mem_cons_self
      | succ last =>
          have later : slot + 1 + last ∈ freed.slotsUsed :=
            ih rest fun place bound =>
              pointers (place + 1) (Nat.succ_le_succ bound)
          rwa [Nat.add_right_comm] at later

theorem argsFreeElements_walk
    {slots : List (Option Address)} {slot count : Nat}
    (pointers : ∀ place < count,
      slots[place]? = some (some (args.plus (slot + place))))
    (null : slots[count]? = some none) :
    ∃ freed, argsFreeElements slots slot memory = some freed ∧
      freed.released = memory.released ++ (List.range' slot count).filterMap
        (fun place => (memory.objects (args.plus place)).owned) ∧
      freed.slotsUsed = memory.slotsUsed ++ List.range' slot count := by
  induction count generalizing slots slot memory with
  | zero =>
      cases slots with
      | nil => cases null
      | cons first slots =>
          cases null
          exact ⟨memory, rfl, (List.append_nil _).symm, (List.append_nil _).symm⟩
  | succ count ih =>
      cases slots with
      | nil => cases null
      | cons first slots =>
          have isFirst := pointers 0 (Nat.zero_lt_succ _)
          cases isFirst
          obtain ⟨freed, run, released, used⟩ :=
            @ih ((memory.useSlot slot).freeElement (args.plus slot)) slots (slot + 1)
              (fun place bound => by
                have pointer := pointers (place + 1) (by omega)
                rwa [← Nat.add_assoc, Nat.add_right_comm] at pointer) null
          refine ⟨freed, run, ?_, ?_⟩
          · have others : (List.range' (slot + 1) count).filterMap (fun place =>
                  (((memory.useSlot slot).freeElement (args.plus slot)).objects
                    (args.plus place)).owned) =
                (List.range' (slot + 1) count).filterMap (fun place =>
                  (memory.objects (args.plus place)).owned) := by
              refine List.filterMap_congr ?_
              intro place member
              have above := (List.mem_range'_1.mp member).1
              rw [ArgsMemory.freeElement_other]
              · rfl
              · intro same
                have equal := Address.plus_inj.mp same
                omega
            rw [released, ArgsMemory.freeElement_released, others, List.range'_succ,
              List.filterMap_cons, List.append_assoc]
            change _ ++ ((memory.objects (args.plus slot)).owned.toList ++ _) = _
            cases (memory.objects (args.plus slot)).owned <;> rfl
          · rw [used, ((memory.useSlot slot).freeElement_keeps _).2.2,
              List.range'_succ]
            simp [ArgsMemory.useSlot]

theorem argsFree_of_walk
    {walked : ArgsMemory δ}
    (walk : argsFreeElements memory.argvec 0 memory = some walked) :
    ∃ freed, argsFree memory = some freed := by
  rw [argsFree, walk]
  exact ⟨_, rfl⟩

theorem argsFree_walked (cleaned : argsFree memory = some freed) :
    ∃ walked, argsFreeElements memory.argvec 0 memory = some walked ∧
      freed.allocated = memory.allocated ∧ freed.slotsSet = memory.slotsSet ∧
      freed.slotsUsed = walked.slotsUsed ∧
      freed.released = walked.released ++ memory.argvec.head?.join.toList := by
  obtain ⟨walked, walk, same⟩ := Option.bind_eq_some_iff.mp cleaned
  cases same
  obtain ⟨allocated, slotsSet, -⟩ := argsFreeElements_keeps walk
  exact ⟨walked, walk, allocated, slotsSet, rfl, rfl⟩

end Free

end NativeClient.Srpc
