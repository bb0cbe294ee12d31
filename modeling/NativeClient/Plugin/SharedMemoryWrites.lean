import NativeClient.Plugin.SharedMemoryCodec

/-!
# Runs of `RpcWrite`

`Writing` holds at every turn of the loop, and `Written` when it ends.  The
two methods agree with the UTF-8 codec just when the masks let only canonical
characters through, and no byte that is read takes two bytes.
-/

namespace NativeClient.Plugin

open NativeClient.Library

section Frame

/-- The memory has the bytes that were stored from `offset` on, and its own
bytes everywhere else. -/
structure Stored (contents : List UInt8) (offset : Nat)
    (stored after : List UInt8) : Prop where
  size : after.length = contents.length
  outside : ∀ address, address < offset ∨ offset + stored.length ≤ address →
    after[address]? = contents[address]?
  inside : ∀ index < stored.length, after[offset + index]? = stored[index]?

theorem Stored.nil (contents : List UInt8) (offset : Nat) :
    Stored contents offset [] contents :=
  ⟨rfl, fun _ _ => rfl, nofun⟩

theorem Stored.snoc
    {contents stored after : List UInt8} {offset : Nat}
    (before : Stored contents offset stored after)
    (room : offset + stored.length < contents.length) (value : UInt8) :
    Stored contents offset (stored ++ [value])
      (after.set (offset + stored.length) value) := by
  have size := before.size
  refine ⟨?_, fun address apart => ?_, fun index below => ?_⟩
  · rw [List.length_set]
    exact before.size
  · rw [List.length_append, List.length_singleton] at apart
    rw [List.getElem?_set_ne (by omega)]
    exact before.outside address (by omega)
  · rw [List.length_append, List.length_singleton] at below
    by_cases last : index = stored.length
    · rw [last, List.getElem?_set_self (by omega), List.getElem?_concat_length]
    · rw [List.getElem?_set_ne (by omega),
        List.getElem?_append_left (by omega)]
      exact before.inside index (by omega)

end Frame

section Loop

variable {contents : List UInt8} {offset len : UInt32} {script : ScriptString}
  {state : WriteState}

structure Writing (contents : List UInt8) (offset len : UInt32)
    (script : ScriptString) (state : WriteState) : Prop where
  sameStr : state.str = state.i
  counted : state.i ≤ len.toNat
  within : state.i ≤ script.bytes.length
  reads : ∀ position ∈ state.reads, position ≤ script.text.length
  characters : Characters Masked (script.bytes.take state.i)
  stored : state.stored = decodeMasked (script.bytes.take state.i)
  address : state.shmAddr = offset.toNat + state.stored.length
  memory : Stored contents offset.toNat state.stored state.contents

structure Written (contents : List UInt8) (offset len : UInt32)
    (script : ScriptString) (result : WriteResult) : Prop where
  memory : Stored contents offset.toNat result.state.stored
    result.state.contents
  few : result.state.stored.length ≤ len.toNat
  succeeds : result.success = true →
    len.toNat ≤ script.bytes.length ∧ result.state.str = len.toNat ∧
      Characters Masked (script.bytes.take len.toNat) ∧
      result.state.stored = decodeMasked (script.bytes.take len.toNat)
  fails : result.success = false → len.toNat ≤ script.bytes.length →
    ¬ Characters Masked (script.bytes.take len.toNat)
  overRead : (∃ position ∈ result.state.reads,
      script.text.length < position) ↔
    script.bytes.length < len.toNat ∧ Characters Masked script.bytes

theorem length_bytes (script : ScriptString) :
    script.bytes.length = script.text.length + 1 := by
  unfold ScriptString.bytes
  rw [List.length_append, List.length_singleton]

theorem Writing.length_stored
    (writing : Writing contents offset len script state) :
    state.stored.length ≤ state.i := by
  have few := (length_decodeMasked writing.characters).1
  rw [List.length_take, ← writing.stored] at few
  omega

theorem drop_bytes
    {position : Nat} (below : position < script.bytes.length) :
    script.bytes.drop position =
      script.char position :: script.bytes.drop (position + 1) := by
  rw [List.drop_eq_getElem_cons below]
  unfold ScriptString.char
  rw [List.getElem?_eq_getElem below, Option.getD_some]

theorem char_terminator : script.char script.text.length = 0 := by
  unfold ScriptString.char ScriptString.bytes
  rw [List.getElem?_concat_length, Option.getD_some]

theorem char_ne_nul
    {position : Nat} (below : position < script.text.length) :
    script.char position ≠ 0 := by
  unfold ScriptString.char ScriptString.bytes
  rw [List.getElem?_append_left below, List.getElem?_eq_getElem below,
    Option.getD_some]
  exact fun nul => script.noNul (nul ▸ List.getElem_mem below)

theorem not_characters_nul (rest : List UInt8) :
    ¬ Characters Masked (0 :: rest) := by
  intro characters
  cases characters with
  | one notNul => exact notNul rfl
  | two pass => exact pass.1 (by decide)

theorem Writing.rest
    (writing : Writing contents offset len script state)
    {count : Nat} (more : state.i ≤ count)
    (whole : Characters Masked (script.bytes.take count)) :
    Characters Masked ((script.bytes.drop state.i).take (count - state.i)) := by
  apply Characters.cancel (fun _ _ pass => pass.1) writing.characters
  rw [← List.take_add, Nat.add_sub_cancel' more]
  exact whole

theorem Writing.next
    (writing : Writing contents offset len script state)
    (room : offset.toNat + len.toNat ≤ contents.length)
    {character : List UInt8} {value : UInt8} {reads : List Nat}
    (cuts : Characters Masked character)
    (decoded : decodeMasked character = [value])
    (here : (script.bytes.drop state.i).take character.length = character)
    (below : state.i + character.length ≤ len.toNat)
    (inText : state.i + character.length ≤ script.bytes.length)
    (nonempty : 0 < character.length)
    (isRead : ∀ position ∈ reads, position ≤ script.text.length) :
    ∃ next, ({ state with reads := reads } : WriteState).store value
        character.length = some next ∧
      Writing contents offset len script next ∧
      next.i = state.i + character.length := by
  have few := writing.length_stored
  have size := writing.memory.size
  have bound := len.toNat_lt
  have uncut : (state.i + character.length) % 2 ^ 32 =
      state.i + character.length := Nat.mod_eq_of_lt (by omega)
  have split : script.bytes.take (state.i + character.length) =
      script.bytes.take state.i ++ character := by
    rw [List.take_add, here]
  have stored : state.stored ++ [value] =
      decodeMasked (script.bytes.take (state.i + character.length)) := by
    rw [split, decodeMasked_append writing.characters, decoded, writing.stored]
  unfold WriteState.store
  dsimp only
  rw [if_pos (by rw [writing.address]; omega), uncut]
  refine ⟨_, rfl, ⟨?_, below, inText, isRead, ?_, stored, ?_, ?_⟩, rfl⟩
  · exact congrArg (fun str => str + character.length) writing.sameStr
  · dsimp only
    rw [split]
    exact writing.characters.append cuts
  · dsimp only
    rw [writing.address, List.length_append, List.length_singleton]
    rfl
  · dsimp only
    rw [writing.address]
    exact writing.memory.snoc (by omega) value

theorem Writing.fail
    (writing : Writing contents offset len script state)
    {exception : Option String} {reads : List Nat}
    (isRead : ∀ position ∈ reads, position ≤ script.text.length)
    (stuck : ∀ count, state.i < count → count = len.toNat ∨
      (count = script.bytes.length ∧ script.bytes.length < len.toNat) →
      ¬ Characters Masked
        ((script.bytes.drop state.i).take (count - state.i)))
    (below : state.i < len.toNat) (inText : state.i < script.bytes.length) :
    Written contents offset len script
      ⟨false, exception, { state with reads := reads }⟩ := by
  refine ⟨writing.memory, ?_, nofun, fun _ fits characters => ?_, ?_⟩
  · exact writing.length_stored.trans writing.counted
  · exact stuck _ below (.inl rfl) (writing.rest writing.counted characters)
  · apply iff_of_false
    · rintro ⟨position, member, behind⟩
      exact absurd (isRead position member) (Nat.not_le.mpr behind)
    · rintro ⟨short, characters⟩
      apply stuck _ inText (.inr ⟨rfl, short⟩)
      apply writing.rest writing.within
      rw [List.take_length]
      exact characters

theorem not_characters_single {c : UInt8} (large : ¬ c < 128) :
    ¬ Characters Masked [c] := by
  intro characters
  cases characters with
  | one _ small => exact large small

theorem not_characters_masks
    {c1 c2 : UInt8} (large : ¬ c1 < 128) (bad : ¬ MaskTests c1 c2)
    (rest : List UInt8) (count : Nat) :
    ¬ Characters Masked ((c1 :: c2 :: rest).take (count + 1)) := by
  intro characters
  cases count with
  | zero => exact not_characters_single large characters
  | succ count =>
      rw [List.take_succ_cons, List.take_succ_cons] at characters
      cases characters with
      | one _ small => exact large small
      | two pass => exact bad pass.2

theorem Writing.atEnd
    (writing : Writing contents offset len script state)
    (below : state.i < len.toNat) (ends : script.text.length ≤ state.i) :
    Written contents offset len script
      ⟨false, none, state.read state.str⟩ := by
  have within := writing.within
  have length := length_bytes script
  by_cases last : state.i = script.text.length
  · apply writing.fail _ _ below (by omega)
    · intro position member
      rcases List.mem_append.mp member with old | new
      · exact writing.reads position old
      · rw [List.mem_singleton.mp new, writing.sameStr]
        exact Nat.le_of_eq last
    · intro count more _
      obtain ⟨left, left_eq⟩ : ∃ left, count - state.i = left + 1 :=
        ⟨count - state.i - 1, by omega⟩
      rw [left_eq, drop_bytes (by omega), last, char_terminator,
        List.take_succ_cons]
      exact not_characters_nul _
  · have all : script.bytes.take state.i = script.bytes :=
      List.take_of_length_le (by omega)
    have whole := writing.characters
    rw [all] at whole
    refine ⟨writing.memory, writing.length_stored.trans writing.counted, nofun,
      fun _ fits => absurd fits (by omega), ?_⟩
    apply iff_of_true
    · refine ⟨state.str, List.mem_append_right _ (List.mem_singleton.mpr rfl),
        ?_⟩
      rw [writing.sameStr]
      omega
    · exact ⟨by omega, whole⟩

theorem Writing.turn
    {state : WriteState} (writing : Writing contents offset len script state)
    (room : offset.toNat + len.toNat ≤ contents.length) :
    match writeTurn script len (min script.text.length (2 ^ 32 - 1)) state with
    | .again next =>
        Writing contents offset len script next ∧ state.i < next.i
    | .leave none => False
    | .leave (some result) => Written contents offset len script result := by
  have bound := len.toNat_lt
  have length := length_bytes script
  unfold writeTurn
  dsimp only
  by_cases below : state.i < len.toNat
  case neg =>
    rw [if_neg below]
    have counted := writing.counted
    have within := writing.within
    have done : state.i = len.toNat := by omega
    refine ⟨writing.memory, writing.length_stored.trans counted, fun _ => ?_,
      nofun, ?_⟩
    · rw [← done]
      exact ⟨within, writing.sameStr, writing.characters, writing.stored⟩
    · apply iff_of_false
      · rintro ⟨position, member, behind⟩
        exact absurd (writing.reads position member) (Nat.not_le.mpr behind)
      · rintro ⟨short, -⟩
        omega
  case pos =>
    rw [if_pos below]
    by_cases ends : state.i ≥ min script.text.length (2 ^ 32 - 1)
    · rw [if_pos ends]
      exact writing.atEnd below (by omega)
    · rw [if_neg ends]
      have inText : state.i < script.text.length := by omega
      have here := @drop_bytes script state.i (by omega)
      have readFirst : ∀ position ∈ state.reads ++ [state.str],
          position ≤ script.text.length := by
        intro position member
        rcases List.mem_append.mp member with old | new
        · exact writing.reads position old
        · rw [List.mem_singleton.mp new, writing.sameStr]
          exact Nat.le_of_lt inText
      rw [writing.sameStr] at readFirst ⊢
      by_cases small : script.char state.i < 128
      · rw [if_neg (not_not_intro ((highBit_eq_zero _).mpr small))]
        have cuts : Characters Masked [script.char state.i] :=
          .one (char_ne_nul inText) small .nil
        obtain ⟨next, store, kept, later⟩ := writing.next room cuts rfl
          (by rw [here]; rfl) below (by rw [List.length_singleton]; omega)
          Nat.one_pos readFirst
        unfold WriteState.read
        rw [show (1 : Nat) = [script.char state.i].length from rfl, store]
        exact ⟨kept, later ▸ Nat.lt_succ_self _⟩
      · rw [if_pos (mt (highBit_eq_zero _).mp small)]
        by_cases last : state.i = len.toNat - 1
        · rw [if_pos last]
          apply writing.fail readFirst _ below (by omega)
          intro count more which
          have one : count - state.i = 1 := by omega
          rw [one, here]
          exact not_characters_single small
        · rw [if_neg last]
          have there := @drop_bytes script (state.i + 1) (by omega)
          have readSecond : ∀ position ∈ state.reads ++ [state.i] ++
              [state.i + 1], position ≤ script.text.length := by
            intro position member
            rcases List.mem_append.mp member with old | new
            · exact readFirst position old
            · rw [List.mem_singleton.mp new]
              exact inText
          by_cases pass : MaskTests (script.char state.i)
              (script.char (state.i + 1))
          · rw [if_neg (not_not_intro pass)]
            have cuts : Characters Masked
                [script.char state.i, script.char (state.i + 1)] :=
              .two ⟨small, pass⟩ .nil
            have two : [script.char state.i,
                script.char (state.i + 1)].length = 2 := rfl
            obtain ⟨next, store, kept, later⟩ := writing.next room cuts
              (decodeMasked_large small _ _) (by rw [here, there]; rfl)
              (by omega) (by omega) Nat.two_pos readSecond
            unfold WriteState.read
            dsimp only
            rw [two] at store later
            rw [store]
            exact ⟨kept, by omega⟩
          · rw [if_pos pass]
            apply writing.fail readSecond _ below (by omega)
            intro count more _
            obtain ⟨left, left_eq⟩ : ∃ left, count - state.i = left + 1 :=
              ⟨count - state.i - 1, by omega⟩
            rw [left_eq, here, there]
            exact not_characters_masks small pass _ _

theorem rpcWrite_written
    {memory : SharedMemory}
    (admissible : rangeCheck memory offset len = .ok contents) :
    ∃ result, rpcWrite memory offset len script = some result ∧
      Written contents offset len script result := by
  have room := rangeCheck_ok admissible
  have start : Writing contents offset len script
      ⟨0, 0, offset.toNat, contents, [], []⟩ :=
    ⟨rfl, Nat.zero_le _, Nat.zero_le _, nofun, .nil, rfl, rfl,
      Stored.nil contents offset.toNat⟩
  have keeps : ∀ state next, Writing contents offset len script state →
      writeTurn script len (min script.text.length (2 ^ 32 - 1)) state =
        .again next →
      Writing contents offset len script next ∧
        len.toNat - next.i < len.toNat - state.i := by
    intro state next holds action
    have turn := holds.turn room
    rw [action] at turn
    have counted := turn.1.counted
    exact ⟨turn.1, by omega⟩
  have ends : ∀ state ending, Writing contents offset len script state →
      writeTurn script len (min script.text.length (2 ^ 32 - 1)) state =
        .leave ending →
      ∃ result, ending = some result ∧
        Written contents offset len script result := by
    intro state ending holds action
    have turn := holds.turn room
    rw [action] at turn
    cases ending with
    | none => exact turn.elim
    | some result => exact ⟨result, rfl, turn⟩
  obtain ⟨ending, run, written⟩ := runLoop_total _ _ _ keeps ends start
    (Nat.lt_succ_self (len.toNat - 0))
  obtain ⟨result, rfl, facts⟩ := written
  refine ⟨result, ?_, facts⟩
  unfold rpcWrite
  rw [admissible]
  dsimp only
  rw [Nat.sub_zero] at run
  rw [run]
  rfl

end Loop

section Agreement

/-- What the claims of the two methods come to, for a range that passes the
checks and a string that is written there. -/
structure AgreesWithCodec (memory : SharedMemory) (contents : List UInt8)
    (offset len : UInt32) (script : ScriptString) : Prop where
  reads : ¬ TooLarge len → ∀ platform : Platform, 32 ≤ platform.sizeBits →
    (rpcRead platform memory offset len).outcome =
      byteStringAsUTF8 platform (part contents offset len)
  writes : ∃ result, rpcWrite memory offset len script = some result ∧
    (∀ position ∈ result.state.reads, position ≤ script.text.length) ∧
    (∀ address, address < offset.toNat ∨ offset.toNat + len.toNat ≤ address →
      result.state.contents[address]? = contents[address]?) ∧
    (∀ index < result.state.stored.length,
      result.state.contents[offset.toNat + index]? =
        result.state.stored[index]?) ∧
    (result.success = true → ∀ platform : Platform,
      (∀ size, platform.malloc size = true) →
      (result.consumed script).length + 1 < 2 ^ platform.sizeBits →
      byteStringFromUTF8 platform (result.consumed script) =
        .returned result.state.stored)
  writesBack : 0 ∉ part contents offset len →
    ∀ platform : Platform, 32 ≤ platform.sizeBits →
    ∀ text, (rpcRead platform memory offset len).outcome = .returned text →
    ∀ target, rangeCheck memory target len = .ok contents →
    ∀ written : ScriptString, written.text = text →
      ∃ result, rpcWrite memory target len written = some result ∧
        result.success = true ∧
        result.state.stored = part contents offset len

def ScriptString.firstBytes (script : ScriptString) (len : UInt32) :
    List UInt8 :=
  script.bytes.take len.toNat

/-- If the masks let the first bytes of the string through, then these are
canonical, the terminator is not one of them, and no byte that can be read back
takes two bytes. -/
structure Harmless (contents : List UInt8) (offset len : UInt32)
    (script : ScriptString) : Prop where
  canonical : Characters Masked (script.firstBytes len) →
    Characters TwoBytes (script.firstBytes len)
  oneByte : ¬ TooLarge len → 0 ∉ part contents offset len →
    ∀ byte ∈ part contents offset len, byte < 128

section

variable {contents : List UInt8} {offset len : UInt32} {script : ScriptString}

theorem Written.stores
    {result : WriteResult} (written : Written contents offset len script result)
    (canonical : Characters Masked (script.firstBytes len) →
      Characters TwoBytes (script.firstBytes len))
    (success : result.success = true)
    {platform : Platform} (granted : ∀ size, platform.malloc size = true)
    (fits : (result.consumed script).length + 1 < 2 ^ platform.sizeBits) :
    byteStringFromUTF8 platform (result.consumed script) =
      .returned result.state.stored := by
  obtain ⟨-, consumed, masked, stored⟩ := written.succeeds success
  have same : result.consumed script = script.firstBytes len := by
    unfold WriteResult.consumed ScriptString.firstBytes
    rw [consumed]
  rw [stored]
  rw [same] at fits ⊢
  rw [byteStringFromUTF8_eq fits, granted, if_pos rfl]
  have decoded := decode_utf8 (decodeMasked (script.firstBytes len))
  rw [utf8_decodeMasked (canonical masked)] at decoded
  rw [decoded]
  rfl

theorem Written.canonical
    {result : WriteResult} (written : Written contents offset len script result)
    (noOverRead : ∀ position ∈ result.state.reads,
      position ≤ script.text.length)
    (stores : result.success = true → ∀ platform : Platform,
      (∀ size, platform.malloc size = true) →
      (result.consumed script).length + 1 < 2 ^ platform.sizeBits →
      byteStringFromUTF8 platform (result.consumed script) =
        .returned result.state.stored)
    (masked : Characters Masked (script.firstBytes len)) :
    Characters TwoBytes (script.firstBytes len) := by
  by_cases fits : len.toNat ≤ script.bytes.length
  case neg =>
    exfalso
    have all : script.firstBytes len = script.bytes :=
      List.take_of_length_le (by omega)
    rw [all] at masked
    obtain ⟨position, member, behind⟩ :=
      written.overRead.mpr ⟨by omega, masked⟩
    exact absurd (noOverRead position member) (Nat.not_le.mpr behind)
  case pos =>
    cases success : result.success with
    | false => exact absurd masked (written.fails success fits)
    | true =>
        obtain ⟨-, consumed, -, -⟩ := written.succeeds success
        have same : result.consumed script = script.firstBytes len := by
          unfold WriteResult.consumed ScriptString.firstBytes
          rw [consumed]
        have bound := len.toNat_lt
        have small : (script.firstBytes len).length + 1 < 2 ^ 64 := by
          unfold ScriptString.firstBytes
          rw [List.length_take]
          omega
        have returned := stores success ⟨64, fun _ => true⟩ (fun _ => rfl)
          (same ▸ small)
        rw [same, byteStringFromUTF8_eq small, if_pos rfl] at returned
        split at returned
        next => cases returned
        next text decoded =>
          exact Characters.canonical (decode_eq_some.mp decoded) masked

theorem rpcWrite_small
    {memory : SharedMemory}
    (admissible : rangeCheck memory offset len = .ok contents)
    {bytes : List UInt8} (length : bytes.length = len.toNat)
    (same : script.text = bytes) (small : ∀ byte ∈ bytes, byte < 128) :
    ∃ result, rpcWrite memory offset len script = some result ∧
      result.success = true ∧ result.state.stored = bytes := by
  subst same
  obtain ⟨result, run, written⟩ :=
    @rpcWrite_written contents offset len script memory admissible
  have first : script.bytes.take len.toNat = script.text := by
    unfold ScriptString.bytes
    rw [← length, List.take_left]
  obtain ⟨characters, decoded, -⟩ :=
    @Characters.of_small Masked _ script.noNul small
  have success : result.success = true := by
    cases success : result.success with
    | true => rfl
    | false =>
        apply absurd characters
        rw [← first]
        exact written.fails success (by rw [length_bytes]; omega)
  obtain ⟨-, -, -, stored⟩ := written.succeeds success
  rw [first, decoded] at stored
  exact ⟨result, run, success, stored⟩

end

variable {contents : List UInt8} {script : ScriptString}

theorem small_of_stored
    {offset len : UInt32}
    {result : WriteResult} (written : Written contents offset len script result)
    (success : result.success = true)
    {bytes : List UInt8} (length : bytes.length = len.toNat)
    (stored : result.state.stored = bytes) :
    ∀ byte ∈ bytes, byte < 128 := by
  obtain ⟨fits, -, characters, decoded⟩ := written.succeeds success
  have count := length_decodeMasked characters
  rw [← decoded, stored, length, List.length_take] at count
  obtain ⟨same, small⟩ := count.2 (by omega)
  rw [same]
  exact small

theorem utf8_noNul {bytes : List UInt8} (noNul : 0 ∉ bytes) :
    0 ∉ utf8 bytes := by
  induction bytes with
  | nil => exact List.not_mem_nil
  | cons byte bytes ih =>
      obtain ⟨notHere, notLater⟩ := not_or.mp (mt List.mem_cons.mpr noNul)
      rw [utf8_cons, List.mem_append, not_or]
      refine ⟨?_, ih notLater⟩
      by_cases small : byte < 128
      · rw [utf8Byte_small small, List.mem_singleton]
        exact notHere
      · obtain ⟨lead, tail, split, pass, -⟩ := twoBytes_utf8Byte small
        rw [split]
        exact (Characters.two pass .nil).noNul

theorem AgreesWithCodec.harmless
    {memory : SharedMemory} {offset len : UInt32}
    (admissible : rangeCheck memory offset len = .ok contents)
    (agrees : AgreesWithCodec memory contents offset len script) :
    Harmless contents offset len script := by
  have length := length_part (rangeCheck_ok admissible)
  obtain ⟨result, run, written⟩ :=
    @rpcWrite_written contents offset len script memory admissible
  refine ⟨?_, fun small noNul => ?_⟩
  · obtain ⟨other, otherRun, noOverRead, -, -, stores⟩ := agrees.writes
    rw [run] at otherRun
    cases otherRun
    exact written.canonical noOverRead stores
  · have least := Nat.not_le.mp (mt (tooLarge_iff len).mpr small)
    have returned := rpcRead_eq admissible small
      (show 32 ≤ (⟨64, fun _ => true⟩ : Platform).sizeBits by decide)
    rw [byteStringAsUTF8_eq (by omega) (by omega), if_pos rfl] at returned
    obtain ⟨back, backRun, success, stored⟩ := agrees.writesBack noNul
      ⟨64, fun _ => true⟩ (by decide) _ returned offset admissible
      ⟨_, utf8_noNul noNul, fun _ => 0⟩ rfl
    obtain ⟨other, otherRun, backWritten⟩ :=
      @rpcWrite_written contents offset len
        ⟨_, utf8_noNul noNul, fun _ => 0⟩ memory admissible
    rw [backRun] at otherRun
    cases otherRun
    exact small_of_stored backWritten success length stored

theorem Harmless.agrees
    {memory : SharedMemory} {offset len : UInt32}
    (admissible : rangeCheck memory offset len = .ok contents)
    (harmless : Harmless contents offset len script) :
    AgreesWithCodec memory contents offset len script := by
  have length := length_part (rangeCheck_ok admissible)
  obtain ⟨result, run, written⟩ :=
    @rpcWrite_written contents offset len script memory admissible
  refine ⟨fun small platform wide => rpcRead_eq admissible small wide,
    ⟨result, run, ?_, fun address apart => ?_, written.memory.inside,
      fun success platform granted fits =>
        written.stores harmless.canonical success granted fits⟩, ?_⟩
  · intro position member
    by_contra behind
    obtain ⟨short, masked⟩ := written.overRead.mp
      ⟨position, member, Nat.not_le.mp behind⟩
    have all : script.firstBytes len = script.bytes :=
      List.take_of_length_le (Nat.le_of_lt short)
    have canonical := harmless.canonical
    rw [all] at canonical
    exact (canonical masked).noNul
      (List.mem_append_right _ (List.mem_singleton.mpr rfl))
  · have few := written.few
    exact written.memory.outside address (by omega)
  · intro noNul platform wide text returned target there back same
    by_cases large : TooLarge len
    · unfold rpcRead at returned
      rw [admissible] at returned
      dsimp only at returned
      rw [if_pos large] at returned
      cases returned
    · have small := harmless.oneByte large noNul
      have plain := (@Characters.of_small Masked _ noNul small).2.2
      rw [rpcRead_eq admissible large wide] at returned
      have least := Nat.not_le.mp (mt (tooLarge_iff len).mpr large)
      have power : 2 ^ 32 ≤ 2 ^ platform.sizeBits :=
        Nat.pow_le_pow_right (by decide) wide
      rw [byteStringAsUTF8_eq (by omega) (by omega), plain] at returned
      split at returned
      next =>
        cases returned
        exact rpcWrite_small there length same small
      next => cases returned

/-- The methods agree with the codec just when no character of two bytes and
no terminator is in the way. -/
theorem agreesWithCodec_iff
    {memory : SharedMemory} {offset len : UInt32} {contents : List UInt8}
    (admissible : rangeCheck memory offset len = .ok contents)
    (script : ScriptString) :
    AgreesWithCodec memory contents offset len script ↔
      Harmless contents offset len script :=
  ⟨AgreesWithCodec.harmless admissible, Harmless.agrees admissible⟩

/-- The range of one byte, which is 128. -/
theorem agreesWithCodec_byte128 :
    rangeCheck ⟨some [128]⟩ 0 1 = .ok [128] ∧
      (AgreesWithCodec ⟨some [128]⟩ [128] 0 1
          ⟨[97], by decide, fun _ => 0⟩ ↔
        Harmless [128] 0 1 ⟨[97], by decide, fun _ => 0⟩) :=
  ⟨rfl, agreesWithCodec_iff rfl _⟩

/-- It is read as two bytes, and then there is no room for them. -/
theorem byte128_notWrittenBack :
    ¬ AgreesWithCodec ⟨some [128]⟩ [128] 0 1
      ⟨[97], by decide, fun _ => 0⟩ := by
  intro agrees
  have harmless := agrees.harmless
    (show rangeCheck ⟨some [128]⟩ 0 1 = .ok [128] from rfl)
  exact absurd (harmless.oneByte (by decide) (by decide) 128 (by decide))
    (by decide)

end Agreement

end NativeClient.Plugin
