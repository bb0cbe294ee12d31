import NativeClient.Srpc.Invocation

/-!
# Results that come from the peer

An invocation ends well if the response that it took was produced for its own
request.  Two things can go wrong.  All requests of a channel have the same id,
so that a response to a request that was given up is taken for the answer to a
later one.  And the result is `OK` before any response comes, so that it stays
`OK` when a method that was served meanwhile asks for a break.
-/

namespace NativeClient.Srpc

open NativeClient.Library

variable {δ : Type}

def Program.NeverBreaks : Program δ → Prop
  | .done result => result ≠ resultBreak
  | .invoke _ _ _ _ next => ∀ result rets, (next result rets).NeverBreaks

section Claims

variable (channel : Channel δ)

/-- The message is a response with the result `OK` whose returns were all
decoded. -/
def ReturnsDecoded (pending : Pending δ) (message : PeerMessage δ) : Prop :=
  ∃ rpc rest got left, rpcGet message.datagram = some (rpc, rest) ∧
    rpc.isRequest = 0 ∧ rpc.result = resultOk ∧
    argsGet channel.platform false true pending.rets pending.retTypes rest =
      some (got, left)

/-- A response that was taken is the one to this request, and without one the
result is not `OK`. -/
def Returned.Genuine (returned : Returned δ) : Prop :=
  (∀ message, returned.response = some message →
    message.answers = some returned.pending.number) ∧
  (returned.result = resultOk →
    ∃ message, returned.response = some message ∧
      ReturnsDecoded channel returned.pending message)

def ServesWithoutBreak (rpc : Rpc) (rest : Datagram δ) : Prop :=
  ∀ methods, channel.server = some methods →
    ∀ method, methods[rpc.rpcNumber.toNat]? = some method →
    ∀ handler, method.handler = some handler →
    ∀ args rets, requestGet channel.platform method.inputTypes
        method.outputTypes rest = some (args, rets) →
      (handler args rets).NeverBreaks

/-- A response that arrives has the id of the request that waits and was
produced for it, and a request does not make its method ask for a break. -/
def Admissible (thread : Thread δ) (arrival : Arrival δ) : Prop :=
  ∀ frame below message rpc rest,
    thread.stack = frame :: below → arrival = .message message →
    rpcGet message.datagram = some (rpc, rest) →
    (rpc.isRequest = 0 →
      rpc.requestId = frame.pending.rpc.requestId ∧
        message.answers = some frame.pending.number) ∧
    (rpc.isRequest ≠ 0 → ServesWithoutBreak channel rpc rest)

def AdmissibleRun : Thread δ → List (Arrival δ) → Prop
  | _, [] => True
  | thread, arrival :: arrivals =>
      Admissible channel thread arrival ∧
        AdmissibleRun (receiveAndDispatch channel arrival thread) arrivals

/-- Every invocation that returned did so well, and every frame but the last
belongs to a method that does not ask for a break. -/
structure Thread.Sound (thread : Thread δ) : Prop where
  genuine : ∀ returned ∈ thread.returned, returned.Genuine channel
  quiet : ∀ frame ∈ thread.stack.dropLast, ∀ result rets,
    (frame.next result rets).NeverBreaks

end Claims

section Programs

variable {channel : Channel δ}

theorem checkInvocation_error
    {rpcNumber : UInt32} {args rets : List (Arg δ)} {sent : Bool}
    {result : UInt32}
    (refused : checkInvocation channel rpcNumber args rets sent = .error result) :
    result ≠ resultOk := by
  unfold checkInvocation at refused
  split at refused
  · cases refused
    decide
  · split at refused
    · cases refused
      decide
    · split at refused
      · cases refused
        decide
      · split at refused
        · cases refused
          decide
        · cases refused

private theorem runProgram_cases
    {below : List (Frame δ)} {whenDone : UInt32 → Thread δ → Thread δ}
    {program : Program δ} (quiet : below ≠ [] → program.NeverBreaks)
    (thread : Thread δ) :
    (∃ result, (below ≠ [] → result ≠ resultBreak) ∧
      runProgram channel below whenDone program thread =
        whenDone result thread) ∨
    ∃ frame requests,
      (below ≠ [] → ∀ result rets, (frame.next result rets).NeverBreaks) ∧
      runProgram channel below whenDone program thread =
        { thread with stack := frame :: below, requests := requests } := by
  induction program with
  | done result => exact Or.inl ⟨result, quiet, rfl⟩
  | invoke rpcNumber args rets sent next ih =>
      rw [runProgram]
      cases checked : checkInvocation channel rpcNumber args rets sent with
      | error result => exact ih result rets fun some => quiet some result rets
      | ok retTypes =>
          exact Or.inr ⟨⟨⟨thread.requests, requestRpc channel rpcNumber, retTypes,
            rets⟩, next⟩, _, quiet, rfl⟩

private theorem resume_quiet
    {below : List (Frame δ)} {program : Program δ}
    (quiet : below ≠ [] → program.NeverBreaks) (thread : Thread δ) :
    (resume channel below program thread).returned = thread.returned ∧
      ((resume channel below program thread).stack = below ∨
        ∃ frame,
          (below ≠ [] → ∀ result rets, (frame.next result rets).NeverBreaks) ∧
          (resume channel below program thread).stack = frame :: below) := by
  cases below with
  | nil =>
      rw [resume]
      rcases runProgram_cases quiet thread with
        ⟨result, _, run⟩ | ⟨frame, requests, later, run⟩
      · rw [run]
        exact ⟨rfl, Or.inl rfl⟩
      · rw [run]
        exact ⟨rfl, Or.inr ⟨frame, later, rfl⟩⟩
  | cons waiting below =>
      rw [resume]
      rcases runProgram_cases quiet thread with
        ⟨result, unbroken, run⟩ | ⟨frame, requests, later, run⟩
      · rw [run, if_neg (unbroken (List.cons_ne_nil _ _))]
        exact ⟨rfl, Or.inl rfl⟩
      · rw [run]
        exact ⟨rfl, Or.inr ⟨frame, later, rfl⟩⟩

private theorem Thread.Sound.afterResume
    {thread : Thread δ} {below : List (Frame δ)} {program : Program δ}
    (genuine : ∀ returned ∈ thread.returned, returned.Genuine channel)
    (frames : ∀ frame ∈ below.dropLast, ∀ result rets,
      (frame.next result rets).NeverBreaks)
    (quiet : below ≠ [] → program.NeverBreaks) :
    (resume channel below program thread).Sound channel := by
  obtain ⟨same, stack⟩ := @resume_quiet δ channel below program quiet thread
  refine ⟨same ▸ genuine, ?_⟩
  rcases stack with waits | ⟨frame, later, waits⟩
  · rw [waits]
    exact frames
  · rw [waits]
    cases below with
    | nil =>
        intro frame member
        exact absurd member List.not_mem_nil
    | cons first below =>
        rw [List.dropLast_cons_of_ne_nil (List.cons_ne_nil _ _)]
        intro other member
        rcases List.mem_cons.mp member with rfl | earlier
        · exact later (List.cons_ne_nil _ _)
        · exact frames other earlier

end Programs

section Steps

variable {channel : Channel δ} {thread : Thread δ}
    {frame : Frame δ} {below : List (Frame δ)}

private theorem Thread.Sound.afterReturn
    (sound : thread.Sound channel) (stack : thread.stack = frame :: below)
    {result : UInt32} {rets : List (Arg δ)} {response : Option (PeerMessage δ)}
    (genuine : Returned.Genuine channel ⟨frame.pending, result, response⟩) :
    (returnTo channel frame below result rets response thread).Sound channel := by
  have quiet := sound.quiet
  rw [stack] at quiet
  refine Thread.Sound.afterResume ?_ ?_ ?_
  · intro returned member
    rcases List.mem_append.mp member with earlier | now
    · exact sound.genuine returned earlier
    · rw [List.mem_singleton.mp now]
      exact genuine
  · intro other member
    refine quiet other ?_
    cases below with
    | nil => exact absurd member List.not_mem_nil
    | cons first below =>
        rw [List.dropLast_cons_of_ne_nil (List.cons_ne_nil _ _)]
        exact List.mem_cons_of_mem _ member
  · intro waiting
    refine quiet frame ?_ _ _
    rw [List.dropLast_cons_of_ne_nil waiting]
    exact List.mem_cons_self

private theorem genuine_internal
    (pending : Pending δ) {response : Option (PeerMessage δ)}
    (own : ∀ message, response = some message →
      message.answers = some pending.number) :
    Returned.Genuine channel ⟨pending, resultInternal, response⟩ :=
  ⟨own, fun ok => absurd ok (show resultInternal ≠ resultOk by decide)⟩

private theorem Thread.Sound.afterRequest
    (sound : thread.Sound channel) (stack : thread.stack = frame :: below)
    {rpc : Rpc} {rest : Datagram δ}
    (serves : ServesWithoutBreak channel rpc rest) :
    (dispatchRequest channel frame below rpc rest thread).Sound channel := by
  have internal : Returned.Genuine channel ⟨frame.pending, resultInternal, none⟩ :=
    genuine_internal frame.pending fun _ none => nomatch none
  have failed : (returnTo channel frame below resultInternal frame.pending.rets
      none thread).Sound channel := sound.afterReturn stack internal
  unfold dispatchRequest
  split
  · exact failed
  next methods server =>
    split
    · exact sound
    next method found =>
      split
      · exact failed
      next args rets got =>
        split
        · exact sound
        next handler handles =>
          refine Thread.Sound.afterResume sound.genuine (stack ▸ sound.quiet) fun _ => ?_
          exact serves methods server method found handler handles args rets got

private theorem Thread.Sound.afterResponse
    (sound : thread.Sound channel) (stack : thread.stack = frame :: below)
    {rpc : Rpc} {rest : Datagram δ} {message : PeerMessage δ}
    (header : rpcGet message.datagram = some (rpc, rest))
    (response : rpc.isRequest = 0)
    (id : rpc.requestId = frame.pending.rpc.requestId)
    (own : message.answers = some frame.pending.number) :
    (acceptResponse channel frame below rpc rest message thread).Sound channel := by
  have answers : ∀ other, some message = some other →
      other.answers = some frame.pending.number := by
    rintro other ⟨⟩
    exact own
  rw [acceptResponse, if_pos id]
  split
  · exact sound.afterReturn stack (genuine_internal _ answers)
  next rets got =>
    refine sound.afterReturn stack ⟨answers, fun ok => ⟨message, rfl, ?_⟩⟩
    have decoded := got
    rw [responseGet, if_neg (not_not.mpr ok), Option.map_eq_some_iff] at decoded
    obtain ⟨⟨values, left⟩, read, _⟩ := decoded
    exact ⟨rpc, rest, values, left, header, response, ok, read⟩

theorem Thread.Sound.afterMessage
    (sound : thread.Sound channel) {arrival : Arrival δ}
    (admissible : Admissible channel thread arrival) :
    (receiveAndDispatch channel arrival thread).Sound channel := by
  unfold receiveAndDispatch
  split
  · exact sound
  next frame below stack =>
    split
    · exact sound.afterReturn stack
        (genuine_internal _ fun _ none => nomatch none)
    next message =>
      split
      · exact sound
      next rpc rest header =>
        have allowed := admissible frame below message rpc rest stack rfl header
        split
        next request => exact sound.afterRequest stack (allowed.2 request)
        next response =>
          have zero := not_not.mp response
          obtain ⟨id, own⟩ := allowed.1 zero
          exact sound.afterResponse stack header zero id own

end Steps

theorem Thread.Sound.afterMessages
    {channel : Channel δ} {thread : Thread δ} (sound : thread.Sound channel)
    {arrivals : List (Arrival δ)}
    (admissible : AdmissibleRun channel thread arrivals) :
    (arrivals.foldl
      (fun thread arrival => receiveAndDispatch channel arrival thread)
      thread).Sound channel := by
  induction arrivals generalizing thread with
  | nil => exact sound
  | cons arrival arrivals ih =>
      exact ih (sound.afterMessage admissible.1) admissible.2

theorem sound_start
    (channel : Channel δ) (program : Program δ) :
    (start channel program).Sound channel :=
  Thread.Sound.afterResume (fun _ member => absurd member List.not_mem_nil)
    (fun _ member => absurd member List.not_mem_nil) fun some => absurd rfl some

/-- In every run in which each response belongs to the request that waits and
no method that is served meanwhile asks for a break, every invocation that
returns `OK` took the response to its own request, with the result `OK` and all
returns decoded, and no invocation takes a response to another request. -/
theorem results_genuine
    (channel : Channel δ) (program : Program δ) (arrivals : List (Arrival δ))
    (admissible : AdmissibleRun channel (start channel program) arrivals) :
    (∀ returned ∈ (runThread channel program arrivals).returned,
      returned.Genuine channel) ∧
    ∀ rpcNumber args rets sent result,
      checkInvocation channel rpcNumber args rets sent = .error result →
        result ≠ resultOk :=
  ⟨((sound_start channel program).afterMessages admissible).genuine,
    fun _ _ _ _ _ refused => checkInvocation_error refused⟩

section Examples

private def noTypes : MethodTypes := ⟨[], []⟩

def breakingChannel : Channel Unit where
  platform := ⟨2 ^ 64 - 1, (), (), fun _ => some fun _ => 0, 24⟩
  client := [noTypes]
  server := some [⟨noTypes, some fun _ _ => .done resultBreak⟩]
  nextOutgoingRequestId := 0

def twoInvocations : Program Unit :=
  .invoke 0 [] [] true fun _ _ => .invoke 0 [] [] true fun _ _ => .done resultOk

private def emptyVector : List UInt8 := littleEndian 4 0

def peerRequest : PeerMessage Unit where
  datagram := ⟨encodeRpc ⟨protocolVersion, 0, 1, 0, resultOk⟩ ++
    (emptyVector ++ emptyVector), []⟩
  answers := none

def firstResponse : PeerMessage Unit where
  datagram := ⟨encodeRpc ⟨protocolVersion, 0, 0, 0, resultOk⟩ ++ emptyVector, []⟩
  answers := some 0

/-- The first invocation returns `OK` without a response.  The second one takes
the response to the first request. -/
theorem results_not_genuine :
    (runThread breakingChannel twoInvocations
        [.message peerRequest, .message firstResponse]).returned.map
      (fun returned => (returned.pending.number, returned.result,
        returned.response.map PeerMessage.answers)) =
      [(0, resultOk, none), (1, resultOk, some (some 0))] ∧
    ¬∀ returned ∈ (runThread breakingChannel twoInvocations
        [.message peerRequest, .message firstResponse]).returned,
      returned.Genuine breakingChannel := by
  have history : (runThread breakingChannel twoInvocations
        [.message peerRequest, .message firstResponse]).returned.map
      (fun returned => (returned.pending.number, returned.result,
        returned.response.map PeerMessage.answers)) =
      [(0, resultOk, none), (1, resultOk, some (some 0))] := by
    decide +kernel
  refine ⟨history, fun genuine => ?_⟩
  obtain ⟨first, _, returned, same, _⟩ := List.map_eq_cons_iff.mp history
  simp only [Prod.mk.injEq, Option.map_eq_none_iff] at same
  obtain ⟨message, taken, _⟩ :=
    (genuine first (returned ▸ List.mem_cons_self)).2 same.2.1
  rw [same.2.2] at taken
  cases taken

private def oneInvocation : Program Unit :=
  .invoke 0 [] [] true fun result _ => .done result

theorem results_genuine_response :
    AdmissibleRun breakingChannel (start breakingChannel oneInvocation)
        [.message firstResponse] ∧
      ∀ returned ∈ (runThread breakingChannel oneInvocation
        [.message firstResponse]).returned, returned.Genuine breakingChannel := by
  have admissible : AdmissibleRun breakingChannel
      (start breakingChannel oneInvocation) [.message firstResponse] := by
    refine ⟨?_, trivial⟩
    intro frame below message rpc rest stack arrival header
    cases arrival
    have waits : (start breakingChannel oneInvocation).stack =
        [⟨⟨0, requestRpc breakingChannel 0, [], []⟩, fun result _ =>
          .done result⟩] := rfl
    have response : rpcGet firstResponse.datagram =
        some (⟨protocolVersion, 0, 0, 0, resultOk⟩, ⟨emptyVector, []⟩) := rfl
    rw [waits] at stack
    rw [response] at header
    cases stack
    cases header
    exact ⟨fun _ => ⟨rfl, rfl⟩, fun request => absurd rfl request⟩
  exact ⟨admissible, (results_genuine breakingChannel oneInvocation _ admissible).1⟩

end Examples

end NativeClient.Srpc
