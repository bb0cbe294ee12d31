import NativeClient.Gdb.PacketNumbers
import NativeClient.Gdb.Session

/-!
# Which frames are accepted

`frames` cuts a stream of characters into frames at `$` and `#`.  A session
accepts the first of them whose sum, as it reads the two characters behind
`#`, is right.  It does not see whether these characters are digits, and after
a frame that it refuses it does not look for `$` again.
-/

namespace NativeClient.Gdb

open NativeClient.Library

section Streams

/-- A frame of the stream.  It is opened if `$` stands directly before it. -/
structure Frame where
  opened : Bool
  body : List UInt8
  first : UInt8
  second : UInt8

inductive Cut where
  | outside
  | inside (opened : Bool) (body : List UInt8)
  | sum (opened : Bool) (body : List UInt8)
  | check (opened : Bool) (body : List UInt8) (first : UInt8)

def frames : Cut → List Arrival → List Frame
  | .outside, .char ch :: rest =>
      frames (if ch = ascii '$' then .inside true [] else .outside) rest
  | .inside opened body, .char ch :: rest =>
      if ch = ascii '#' then frames (.sum opened body) rest
      else if ch = ascii '$' then frames (.inside true []) rest
      else frames (.inside opened (body ++ [ch])) rest
  | .sum opened body, .char ch :: rest => frames (.check opened body ch) rest
  | .check opened body first, .char ch :: rest =>
      ⟨opened, body, first, ch⟩ ::
        frames (.inside (ch == ascii '$') []) rest
  | _, _ => []

/-- The sum that the session makes of the characters behind `#`. -/
def readXsum (junk : Int) (first second : UInt8) : UInt8 :=
  let high := nibbleOver first junk
  lowByte (high * 16) ||| lowByte (nibbleOver second high)

def firstMatch (junk : Nat → Int) : Nat → List Frame → Option Frame
  | _, [] => none
  | refused, frame :: rest =>
      if readXsum (junk refused) frame.first frame.second = xsum frame.body then
        some frame
      else firstMatch junk (refused + 1) rest

def EndsInFrame (consumed contents : List UInt8) : Prop :=
  ∃ before first second high low,
    consumed = before ++ [ascii '$'] ++ contents ++ [ascii '#', first, second] ∧
    ascii '$' ∉ contents ∧ ascii '#' ∉ contents ∧
    nibbleToInt first = some high ∧ nibbleToInt second = some low ∧
    high * 16 + low = (xsum contents).toNat

def Packet.contents (pkt : Packet) : List UInt8 :=
  pkt.data.take pkt.writeIndex

def AcceptsOnlyFrames
    (char : CharType) (junk : Nat → Int) (stream : List Arrival) : Prop :=
  ∀ (session final : Session) (pkt got : Packet),
    session.arrivals = stream → session.ignoreAck = false →
    session.getPacket char junk pkt = (true, got, final) →
    ∃ consumed, stream = consumed.map .char ++ final.arrivals ∧
      EndsInFrame consumed got.contents

end Streams

section Sequences

/-- What `GetPacket` knows of a sequence number after the first characters. -/
def seqSoFar : List UInt8 → Bool
  | [] => true
  | [first] => (nibbleToInt first).isSome
  | [first, second] => (nibbleToInt first).isSome && (nibbleToInt second).isSome
  | first :: second :: colon :: _ =>
      (nibbleToInt first).isSome && (nibbleToInt second).isSome &&
        colon == ascii ':'

theorem checkSeq_seqSoFar (body : List UInt8) (ch : UInt8) :
    checkSeq (seqSoFar body) body.length ch = seqSoFar (body ++ [ch]) := by
  match body with
  | [] => simp [checkSeq, seqSoFar]
  | [first] => simp [checkSeq, seqSoFar]
  | [first, second] => simp [checkSeq, seqSoFar]
  | first :: second :: colon :: rest =>
      simp only [List.cons_append, seqSoFar, checkSeq, List.length_cons]
      rw [if_neg (by omega), if_neg (by omega)]

theorem seqSoFar_hash
    {body : List UInt8} (hasSeq : seqSoFar (body ++ [ascii '#']) = true) :
    ∃ first second high low rest, body = first :: second :: ascii ':' :: rest ∧
      nibbleToInt first = some high ∧ nibbleToInt second = some low := by
  have noDigit : (nibbleToInt (ascii '#')).isSome = false := by decide
  match body with
  | [] => simp [seqSoFar, noDigit] at hasSeq
  | [first] => simp [seqSoFar, noDigit] at hasSeq
  | [first, second] =>
      have noColon : (ascii '#' == ascii ':') = false := by decide
      simp [seqSoFar, noColon] at hasSeq
  | first :: second :: colon :: rest =>
      simp only [List.cons_append, seqSoFar, Bool.and_eq_true,
        Option.isSome_iff_exists, beq_iff_eq] at hasSeq
      obtain ⟨⟨⟨high, isHigh⟩, low, isLow⟩, rfl⟩ := hasSeq
      exact ⟨first, second, high, low, rest, rfl, isHigh, isLow⟩

theorem digit_ne_star
    {ch : UInt8} {digit : Nat} (isDigit : nibbleToInt ch = some digit) :
    ch ≠ ascii '*' := by
  rintro rfl
  have noDigit : nibbleToInt (ascii '*') = none := by decide
  rw [noDigit] at isDigit
  cases isDigit

theorem Receiver.pullSequence_spec
    (char : CharType) {pkt : Packet} {first second : UInt8} {high low : Nat}
    {rest : List UInt8}
    (holds : pkt.Holds [] (first :: second :: ascii ':' :: rest))
    (isHigh : nibbleToInt first = some high)
    (isLow : nibbleToInt second = some low) :
    ∃ next, Receiver.pullSequence char pkt = (true, next) ∧
      next.Holds [first, second, ascii ':'] rest ∧
      next.seq = (high * 16 + low).toUInt8.toNat := by
  obtain ⟨one, readOne, behindOne, -⟩ :=
    holds.getRawChar_plain char (digit_ne_star isHigh) 0
  obtain ⟨two, readTwo, behindTwo, -⟩ :=
    behindOne.getRawChar_plain char (digit_ne_star isLow) 0
  have word : pkt.getWord8 char = (some (high * 16 + low).toUInt8, two) := by
    unfold Packet.getWord8
    simp only [readOne, readTwo, if_true, isHigh, isLow]
  have numbered : Packet.Holds
      { two with seq := (high * 16 + low).toUInt8.toNat } [first, second]
      (ascii ':' :: rest) := ⟨behindTwo.data, behindTwo.read, behindTwo.write⟩
  obtain ⟨next, readColon, after, seq⟩ :=
    numbered.getRawChar_plain char (by decide) 0
  refine ⟨next, ?_, after, seq⟩
  unfold Receiver.pullSequence
  rw [word]
  dsimp only [Option.getD_some]
  rw [readColon]
  rfl

end Sequences

section Tracking

theorem Packet.Holds.contents_eq
    {pkt : Packet} {before after : List UInt8}
    (holds : pkt.Holds before after) :
    pkt.contents = before ++ after := by
  obtain ⟨⟨room, data⟩, -, write⟩ := holds
  unfold Packet.contents
  rw [data, write, ← List.length_append, List.take_left]

/-- The receiver collects a body behind the characters `before`. -/
structure Collects
    (before : List UInt8) (opened : Bool) (body : List UInt8)
    (receiver : Receiver) : Prop where
  opened : opened = true ↔ before.getLast? = some (ascii '$')
  holds : receiver.packet.Holds [] body
  sum : receiver.runXsum = xsum body
  noDollar : ascii '$' ∉ body
  noHash : ascii '#' ∉ body

structure InData
    (before : List UInt8) (opened : Bool) (body : List UInt8)
    (receiver : Receiver) : Prop where
  place : receiver.place = .data
  collects : Collects before opened body receiver
  hasSeq : receiver.hasSeq = seqSoFar body
  offs : receiver.offs = body.length

/-- The receiver is where the stream is cut, behind the characters `past`. -/
inductive Tracks (junk : Nat → Int) (past : List UInt8) :
    Cut → Receiver → Prop
  | start {receiver : Receiver} (place : receiver.place = .start) :
      Tracks junk past .outside receiver
  | retry {opened : Bool} {receiver : Receiver}
      (place : receiver.place = .retry)
      (last : opened = true ↔ past.getLast? = some (ascii '$')) :
      Tracks junk past (.inside opened []) receiver
  | data {before : List UInt8} {opened : Bool} {body : List UInt8}
      {receiver : Receiver} (parts : past = before ++ body)
      (inData : InData before opened body receiver) :
      Tracks junk past (.inside opened body) receiver
  | sum {before : List UInt8} {opened : Bool} {body : List UInt8}
      {receiver : Receiver} (place : receiver.place = .firstCheck)
      (parts : past = before ++ body ++ [ascii '#'])
      (collects : Collects before opened body receiver)
      (hasSeq : receiver.hasSeq = seqSoFar (body ++ [ascii '#'])) :
      Tracks junk past (.sum opened body) receiver
  | check {before : List UInt8} {opened : Bool} {body : List UInt8}
      {first : UInt8} {receiver : Receiver}
      (place : receiver.place = .secondCheck)
      (parts : past = before ++ body ++ [ascii '#', first])
      (collects : Collects before opened body receiver)
      (hasSeq : receiver.hasSeq = seqSoFar (body ++ [ascii '#']))
      (val : receiver.val = nibbleOver first (junk receiver.refused))
      (high : receiver.finXsum = lowByte (receiver.val * 16)) :
      Tracks junk past (.check opened body first) receiver

variable {junk : Nat → Int} {past : List UInt8} {receiver : Receiver}

def Cut.dataChar (opened : Bool) (body : List UInt8) (ch : UInt8) : Cut :=
  if ch = ascii '#' then .sum opened body
  else if ch = ascii '$' then .inside true []
  else .inside opened (body ++ [ch])

theorem frames_inside
    (opened : Bool) (body : List UInt8) (ch : UInt8) (rest : List Arrival) :
    frames (.inside opened body) (.char ch :: rest) =
      frames (Cut.dataChar opened body ch) rest := by
  unfold Cut.dataChar
  rw [frames]
  split
  next => rfl
  next =>
    split
    next => rfl
    next => rfl

theorem InData.plain
    {before : List UInt8} {opened : Bool} {body : List UInt8} {ch : UInt8}
    (inData : InData before opened body receiver)
    (hash : ch ≠ ascii '#') (dollar : ch ≠ ascii '$') :
    InData before opened (body ++ [ch]) (receiver.dataChar ch) ∧
      (receiver.dataChar ch).packet.seq = receiver.packet.seq := by
  obtain ⟨place, collects, hasSeq, offs⟩ := inData
  unfold Receiver.dataChar
  rw [if_neg hash, if_neg dollar]
  refine ⟨⟨place, ⟨collects.opened, collects.holds.addRawChar ch, ?_, ?_, ?_⟩,
    ?_, ?_⟩, rfl⟩
  · dsimp only
    rw [collects.sum]
    unfold xsum
    rw [List.foldl_append]
    rfl
  · rw [List.mem_append, List.mem_singleton, not_or]
    exact ⟨collects.noDollar, fun same => dollar same.symm⟩
  · rw [List.mem_append, List.mem_singleton, not_or]
    exact ⟨collects.noHash, fun same => hash same.symm⟩
  · dsimp only
    rw [hasSeq, offs, checkSeq_seqSoFar]
  · dsimp only
    rw [offs, List.length_append, List.length_singleton]

theorem InData.hash
    {before : List UInt8} {opened : Bool} {body : List UInt8}
    (inData : InData before opened body receiver) :
    (receiver.dataChar (ascii '#')).place = .firstCheck ∧
      Collects before opened body (receiver.dataChar (ascii '#')) ∧
      (receiver.dataChar (ascii '#')).hasSeq =
        seqSoFar (body ++ [ascii '#']) ∧
      (receiver.dataChar (ascii '#')).packet.seq = receiver.packet.seq := by
  obtain ⟨place, collects, hasSeq, offs⟩ := inData
  unfold Receiver.dataChar
  rw [if_pos rfl]
  refine ⟨rfl, ⟨collects.opened, collects.holds, collects.sum,
    collects.noDollar, collects.noHash⟩, ?_, rfl⟩
  dsimp only
  rw [hasSeq, offs, checkSeq_seqSoFar]

theorem InData.dataChar
    {before : List UInt8} {opened : Bool} {body : List UInt8}
    (inData : InData before opened body receiver) (ch : UInt8) :
    Tracks junk (before ++ body ++ [ch]) (Cut.dataChar opened body ch)
      (receiver.dataChar ch) := by
  unfold Cut.dataChar
  by_cases hash : ch = ascii '#'
  · subst hash
    obtain ⟨place, collects, hasSeq, -⟩ := inData.hash
    rw [if_pos rfl]
    exact .sum place rfl collects hasSeq
  · rw [if_neg hash]
    by_cases dollar : ch = ascii '$'
    · rw [if_pos dollar]
      have retry : (receiver.dataChar ch).place = .retry := by
        unfold Receiver.dataChar
        rw [if_neg hash, if_pos dollar]
      refine .retry retry ?_
      rw [List.getLast?_concat, dollar]
      exact iff_of_true rfl rfl
    · rw [if_neg dollar]
      exact .data (List.append_assoc _ _ _) (inData.plain hash dollar).1

theorem inData_clear
    {opened : Bool} (last : opened = true ↔ past.getLast? = some (ascii '$')) :
    InData past opened [] receiver.clear :=
  ⟨rfl, ⟨last, Packet.holds_clear _, rfl, List.not_mem_nil,
    List.not_mem_nil⟩, rfl, rfl⟩

@[simp] theorem refused_dataChar (receiver : Receiver) (ch : UInt8) :
    (receiver.dataChar ch).refused = receiver.refused := by
  unfold Receiver.dataChar
  dsimp only
  split
  next => rfl
  next =>
    split
    next => rfl
    next => rfl

theorem Receiver.finish_spec
    (char : CharType) {body : List UInt8} {session : Session}
    (holds : receiver.packet.Holds [] body)
    (hasSeq : receiver.hasSeq = seqSoFar (body ++ [ascii '#']))
    (acks : session.ignoreAck = false) :
    ∃ pulled : Packet, pulled.contents = body ∧
      receiver.finish char session =
        if receiver.finXsum = receiver.runXsum then
          .leave ((session.sendStream (plusText pulled)).1, pulled,
            (session.sendStream (plusText pulled)).2)
        else
          .again ({ receiver with
              place := .retry, refused := receiver.refused + 1
              packet := pulled }, (session.sendStream [ascii '-']).2) := by
  obtain ⟨pulled, contents, pull⟩ : ∃ pulled : Packet,
      pulled.contents = body ∧
      (if receiver.hasSeq then pullSequence char receiver.packet
        else (true, receiver.packet)) = (true, pulled) := by
    cases has : receiver.hasSeq with
    | false => exact ⟨receiver.packet, holds.contents_eq, rfl⟩
    | true =>
        rw [has] at hasSeq
        obtain ⟨first, second, high, low, rest, rfl, isHigh, isLow⟩ :=
          seqSoFar_hash hasSeq.symm
        obtain ⟨next, pull, after, -⟩ :=
          pullSequence_spec char holds isHigh isLow
        exact ⟨next, after.contents_eq, pull⟩
  refine ⟨pulled, contents, ?_⟩
  unfold Receiver.finish
  rw [pull]
  dsimp only
  rw [if_neg (by decide), acks, if_neg (by decide)]

end Tracking

section Runs

variable {char : CharType} {junk : Nat → Int} {past : List UInt8}
  {receiver : Receiver} {session final : Session} {got : Packet}

/-- The frame that ends the characters `past`, and its contents. -/
structure Accepted
    (past : List UInt8) (frame : Frame) (contents : List UInt8) : Prop where
  parts : ∃ before,
    past = before ++ frame.body ++ [ascii '#', frame.first, frame.second] ∧
    (frame.opened = true ↔ before.getLast? = some (ascii '$'))
  noDollar : ascii '$' ∉ frame.body
  noHash : ascii '#' ∉ frame.body
  contents : contents = frame.body

theorem finXsum_secondChar
    {first : UInt8} (val : receiver.val = nibbleOver first (junk receiver.refused))
    (high : receiver.finXsum = lowByte (receiver.val * 16)) (ch : UInt8) :
    (receiver.secondChar ch).finXsum =
      readXsum (junk receiver.refused) first ch := by
  unfold Receiver.secondChar readXsum
  dsimp only
  rw [high, val]

theorem Tracks.receive_char
    (char : CharType) {cut : Cut} (tracks : Tracks junk past cut receiver)
    (acks : session.ignoreAck = false) (ch : UInt8) (rest : List Arrival) :
    (∃ next following cut',
      receive char junk (.char ch :: rest) receiver session =
        receive char junk rest next following ∧
      Tracks junk (past ++ [ch]) cut' next ∧
      (following = session ∨
        following = (session.sendStream [ascii '-']).2) ∧
      firstMatch junk receiver.refused (frames cut (.char ch :: rest)) =
        firstMatch junk next.refused (frames cut' rest)) ∨
    ∃ (frame : Frame) (pulled : Packet),
      receive char junk (.char ch :: rest) receiver session =
        ((session.sendStream (Receiver.plusText pulled)).1, pulled,
          { (session.sendStream (Receiver.plusText pulled)).2 with
            arrivals := rest }) ∧
      Accepted (past ++ [ch]) frame pulled.contents ∧
      firstMatch junk receiver.refused (frames cut (.char ch :: rest)) =
        some frame := by
  rw [receive]
  cases tracks with
  | start place =>
      left
      rw [place, frames]
      refine ⟨{ receiver with
          place := if ch = ascii '$' then .retry else .start }, session,
        if ch = ascii '$' then .inside true [] else .outside, rfl, ?_,
        .inl rfl, rfl⟩
      by_cases dollar : ch = ascii '$'
      · rw [if_pos dollar, if_pos dollar]
        refine .retry rfl (iff_of_true rfl ?_)
        rw [List.getLast?_concat, dollar]
      · rw [if_neg dollar, if_neg dollar]
        exact .start rfl
  | @retry opened _ place last =>
      left
      rw [place, frames_inside]
      refine ⟨receiver.clear.dataChar ch, session, Cut.dataChar opened [] ch,
        rfl, ?_, .inl rfl, ?_⟩
      · have tracks :=
          @InData.dataChar junk receiver.clear past opened [] (inData_clear last)
            ch
        rw [List.append_nil] at tracks
        exact tracks
      · rw [refused_dataChar]
        rfl
  | @data before opened body _ parts inData =>
      left
      rw [inData.place, frames_inside, parts]
      refine ⟨receiver.dataChar ch, session, Cut.dataChar opened body ch,
        rfl, inData.dataChar ch, .inl rfl, ?_⟩
      rw [refused_dataChar]
  | @sum before opened body _ place parts collects hasSeq =>
      left
      rw [place, frames]
      refine ⟨receiver.firstChar junk ch, session, .check opened body ch,
        rfl, ?_, .inl rfl, rfl⟩
      refine .check rfl ?_ ⟨collects.opened, collects.holds,
        collects.sum, collects.noDollar, collects.noHash⟩ hasSeq rfl rfl
      rw [parts, List.append_assoc _ [ascii '#']]
      rfl
  | @check before opened body first _ place parts collects hasSeq val high =>
      obtain ⟨pulled, contents, finished⟩ := @Receiver.finish_spec
        (receiver.secondChar ch) char body session collects.holds hasSeq acks
      have sum : (receiver.secondChar ch).runXsum = xsum body := collects.sum
      rw [place, frames, firstMatch]
      dsimp only
      rw [finished, finXsum_secondChar val high, sum]
      by_cases right : readXsum (junk receiver.refused) first ch = xsum body
      · right
        rw [if_pos right, if_pos right]
        refine ⟨⟨opened, body, first, ch⟩, pulled, rfl,
          ⟨⟨before, ?_, collects.opened⟩, collects.noDollar, collects.noHash,
            contents⟩, rfl⟩
        rw [parts, List.append_assoc _ _ [ch]]
        rfl
      · left
        rw [if_neg right, if_neg right]
        refine ⟨_, _, .inside (ch == ascii '$') [], rfl, ?_, .inr rfl, rfl⟩
        refine .retry rfl ?_
        rw [List.getLast?_concat, beq_iff_eq, Option.some_inj]

theorem ignoreAck_following
    {following : Session} (acks : session.ignoreAck = false)
    (same : following = session ∨
      following = (session.sendStream [ascii '-']).2) :
    following.ignoreAck = false := by
  rcases same with rfl | rfl
  · exact acks
  · exact acks

theorem receive_true
    {arrivals : List Arrival} {cut : Cut}
    (tracks : Tracks junk past cut receiver)
    (acks : session.ignoreAck = false)
    (returned : receive char junk arrivals receiver session =
      (true, got, final)) :
    ∃ frame taken,
      firstMatch junk receiver.refused (frames cut arrivals) = some frame ∧
      arrivals = taken.map .char ++ final.arrivals ∧
      Accepted (past ++ taken) frame got.contents := by
  induction arrivals generalizing past cut receiver session with
  | nil => cases returned
  | cons arrival rest ih =>
      cases arrival with
      | nothing => cases returned
      | closed => cases returned
      | char ch =>
          rcases tracks.receive_char char acks ch rest with
            ⟨next, following, cut', run, tracks', same, found⟩ |
            ⟨frame, pulled, run, accepted, found⟩
          · rw [run] at returned
            obtain ⟨frame, taken, later, parts, accepted⟩ :=
              ih tracks' (ignoreAck_following acks same) returned
            refine ⟨frame, ch :: taken, found.trans later,
              by rw [parts]; rfl, ?_⟩
            rw [List.append_cons]
            exact accepted
          · rw [run] at returned
            obtain ⟨-, others⟩ := Prod.mk.inj returned
            obtain ⟨rfl, rfl⟩ := Prod.mk.inj others
            exact ⟨frame, [ch], found, rfl, accepted⟩

/-- The next sends succeed, up to `count` of them, whatever is sent. -/
def Willing : (count : Nat) → Session → Prop
  | 0, _ => True
  | count + 1, session =>
      ∀ out : List UInt8, out.length ≤ 3 →
        (session.sendStream out).1 = true ∧
          Willing count (session.sendStream out).2

theorem writeAll_ones (out : List UInt8) (more : Nat) :
    writeAll (List.replicate (out.length + more) 1) out =
      (true, out, List.replicate more 1) := by
  induction out with
  | nil =>
      rw [List.length_nil, Nat.zero_add]
      cases more with
      | zero => rfl
      | succ more => rfl
  | cons ch out ih =>
      rw [List.length_cons, Nat.succ_add, List.replicate_succ, writeAll,
        if_neg (by decide)]
      exact congrArg (fun rest => (rest.1, ch :: rest.2.1, rest.2.2)) ih

theorem Willing.mono
    {count : Nat} (willing : Willing (count + 1) session) :
    Willing count session := by
  induction count generalizing session with
  | zero => trivial
  | succ count ih =>
      intro out short
      obtain ⟨sends, later⟩ := willing out short
      exact ⟨sends, ih later⟩

theorem willing_ones
    {count more : Nat} (enough : 3 * count ≤ more)
    (ones : session.writes = List.replicate more 1) :
    Willing count session := by
  induction count generalizing session more with
  | zero => trivial
  | succ count ih =>
      intro out short
      obtain ⟨left, rfl⟩ := Nat.exists_eq_add_of_le (show out.length ≤ more by
        omega)
      have written := writeAll_ones out left
      rw [← ones] at written
      refine ⟨congrArg Prod.fst written, ?_⟩
      exact @ih _ left (by omega)
        (congrArg (fun result => result.2.2) written)

theorem plusText_short (pkt : Packet) :
    (Receiver.plusText pkt).length ≤ 3 := by
  unfold Receiver.plusText
  split
  next => exact Nat.le_add_left 1 2
  next => exact (List.takeWhile_sublist _).length_le

theorem receive_of_firstMatch
    {arrivals : List Arrival} {cut : Cut} {frame : Frame}
    (tracks : Tracks junk past cut receiver)
    (acks : session.ignoreAck = false)
    (willing : Willing arrivals.length session)
    (found : firstMatch junk receiver.refused (frames cut arrivals) =
      some frame) :
    ∃ got final, receive char junk arrivals receiver session =
      (true, got, final) := by
  induction arrivals generalizing past cut receiver session with
  | nil =>
      rw [frames] at found
      · cases found
      all_goals exact fun _ _ => nofun
  | cons arrival rest ih =>
      cases arrival with
      | nothing =>
          rw [frames] at found
          · cases found
          all_goals exact fun _ _ => nofun
      | closed =>
          rw [frames] at found
          · cases found
          all_goals exact fun _ _ => nofun
      | char ch =>
          rcases tracks.receive_char char acks ch rest with
            ⟨next, following, cut', run, tracks', same, found'⟩ |
            ⟨frame, pulled, run, accepted, found'⟩
          · rw [run]
            rw [found'] at found
            refine ih tracks' (ignoreAck_following acks same) ?_ found
            rcases same with rfl | rfl
            · exact willing.mono
            · exact (willing [ascii '-'] (by decide)).2
          · rw [run, (willing _ (plusText_short pulled)).1]
            exact ⟨_, _, rfl⟩

end Runs

section Acceptance

theorem nibbleToInt_lt
    {ch : UInt8} {digit : Nat} (isDigit : nibbleToInt ch = some digit) :
    digit < 16 := by
  have letter : (ascii 'f').toNat = 102 := rfl
  have capital : (ascii 'F').toNat = 70 := rfl
  have last : (ascii '9').toNat = 57 := rfl
  unfold nibbleToInt at isDigit
  simp only [UInt8.le_iff_toNat_le] at isDigit
  split at isDigit
  next range =>
    cases isDigit
    omega
  next =>
    split at isDigit
    next range =>
      cases isDigit
      omega
    next =>
      split at isDigit
      next range =>
        cases isDigit
        omega
      next => cases isDigit

theorem lowByte_or :
    ∀ high low : Fin 16,
      lowByte ((high.val : Int) * 16) ||| lowByte (low.val : Int) =
        (high.val * 16 + low.val).toUInt8 := by
  decide +kernel

theorem readXsum_digits
    (junk : Int) {first second : UInt8} {high low : Nat}
    (isHigh : nibbleToInt first = some high)
    (isLow : nibbleToInt second = some low) :
    (readXsum junk first second).toNat = high * 16 + low := by
  have highSmall := nibbleToInt_lt isHigh
  have lowSmall := nibbleToInt_lt isLow
  unfold readXsum nibbleOver
  simp only [isHigh, isLow]
  have value := lowByte_or ⟨high, highSmall⟩ ⟨low, lowSmall⟩
  dsimp only at value
  rw [value, UInt8.toNat_ofNat']
  omega

theorem readXsum_of_firstMatch
    {junk : Nat → Int} {refused : Nat} {list : List Frame} {frame : Frame}
    (found : firstMatch junk refused list = some frame) :
    ∃ number, readXsum (junk number) frame.first frame.second =
      xsum frame.body := by
  induction list generalizing refused with
  | nil => cases found
  | cons head list ih =>
      rw [firstMatch] at found
      split at found
      next right =>
        cases found
        exact ⟨refused, right⟩
      next => exact ih found

def Frame.Sound (frame : Frame) : Prop :=
  frame.opened = true ∧ (nibbleToInt frame.first).isSome = true ∧
    (nibbleToInt frame.second).isSome = true

variable (char : CharType) {junk : Nat → Int} {stream : List Arrival}

theorem acceptsOnlyFrames_of_sound
    (sound : ∀ frame, firstMatch junk 0 (frames .outside stream) = some frame →
      frame.Sound) :
    AcceptsOnlyFrames char junk stream := by
  intro session final pkt got arrivals acks returned
  unfold Session.getPacket at returned
  rw [arrivals] at returned
  obtain ⟨frame, taken, found, parts, accepted⟩ :=
    receive_true (.start rfl : Tracks junk [] _ _) acks returned
  obtain ⟨opened, first, second⟩ := sound frame found
  obtain ⟨high, isHigh⟩ := Option.isSome_iff_exists.mp first
  obtain ⟨low, isLow⟩ := Option.isSome_iff_exists.mp second
  obtain ⟨before, consumed, last⟩ := accepted.parts
  obtain ⟨front, whole⟩ := List.getLast?_eq_some_iff.mp (last.mp opened)
  refine ⟨taken, parts, front, frame.first, frame.second, high, low, ?_, ?_, ?_,
    isHigh, isLow, ?_⟩
  · rw [List.nil_append, whole] at consumed
    rw [accepted.contents]
    exact consumed
  · rw [accepted.contents]
    exact accepted.noDollar
  · rw [accepted.contents]
    exact accepted.noHash
  · obtain ⟨number, right⟩ := readXsum_of_firstMatch found
    rw [accepted.contents, ← right, readXsum_digits _ isHigh isLow]

theorem sound_of_acceptsOnlyFrames
    (accepts : AcceptsOnlyFrames char junk stream) {frame : Frame}
    (found : firstMatch junk 0 (frames .outside stream) = some frame) :
    frame.Sound := by
  -- The other end takes every answer.
  let session : Session :=
    ⟨stream, List.replicate (3 * stream.length) 1, [], true, false, false, 0⟩
  obtain ⟨got, final, returned⟩ := @receive_of_firstMatch char junk []
    ⟨.start, true, 0, 0, 0, 0, 0, Packet.empty⟩ session stream .outside frame
    (.start rfl) rfl (willing_ones (Nat.le_refl _) rfl) found
  obtain ⟨frame', taken, found', parts, accepted⟩ :=
    receive_true (.start rfl : Tracks junk [] _ _) (rfl : session.ignoreAck = _)
      returned
  have same : frame' = frame := Option.some.inj (found'.symm.trans found)
  subst same
  obtain ⟨consumed, parts', front, first, second, high, low, ends, -, -,
    isHigh, isLow, -⟩ := accepts session final _ got rfl rfl returned
  have mapped : consumed.map Arrival.char = taken.map .char :=
    List.append_cancel_right (parts'.symm.trans parts)
  have whole : consumed = taken :=
    List.map_injective_iff.mpr (fun _ _ => Arrival.char.inj) mapped
  obtain ⟨before, consumed', last⟩ := accepted.parts
  rw [List.nil_append, ← whole, ends, accepted.contents] at consumed'
  obtain ⟨bodies, checks⟩ := List.append_inj' consumed' rfl
  obtain ⟨fronts, -⟩ := List.append_inj' bodies rfl
  simp only [List.cons.injEq, and_true, true_and] at checks
  refine ⟨?_, ?_, ?_⟩
  · rw [last, ← fronts, List.getLast?_concat]
  · rw [← checks.1, isHigh]
    rfl
  · rw [← checks.2, isLow]
    rfl

/-- A session accepts only frames with the right sum just when the first frame
that it finds right is opened and has a sum in digits. -/
theorem acceptsOnlyFrames_iff (junk : Nat → Int) (stream : List Arrival) :
    AcceptsOnlyFrames char junk stream ↔
      ∀ frame, firstMatch junk 0 (frames .outside stream) = some frame →
        frame.Sound :=
  ⟨fun accepts _ => sound_of_acceptsOnlyFrames char accepts,
    acceptsOnlyFrames_of_sound char⟩

/-- `$3#3z` is accepted: the second character leaves the variable as it is. -/
theorem repeatedDigit_accepted :
    ¬ AcceptsOnlyFrames .signed (fun _ => 0)
      ([ascii '$', ascii '3', ascii '#', ascii '3', ascii 'z'].map .char) := by
  intro accepts
  have found : firstMatch (fun _ => 0) 0 (frames .outside
      ([ascii '$', ascii '3', ascii '#', ascii '3', ascii 'z'].map .char)) =
      some ⟨true, [ascii '3'], ascii '3', ascii 'z'⟩ := rfl
  have sound := sound_of_acceptsOnlyFrames .signed accepts found
  exact absurd sound.2.2 (by decide)

end Acceptance

end NativeClient.Gdb
