import LifecycleFabric.Replies
import LifecycleFabric.Wire.Decoder

/-!
# The handling of frames

The coordinator decodes the payload of a frame by its type, handles the message, and answers.
A frame whose type can change what is durable asks for a durable write before its reply.
-/

namespace LifecycleFabric.Wire

open ByteCodec

/-! ## Types -/

/-- The name of a type. -/
def MessageType.toText : MessageType → Text
  | .hello => text "HELLO"
  | .helloAck => text "HELLO_ACK"
  | .registerWorker => text "REGISTER_WORKER"
  | .registerModel => text "REGISTER_MODEL"
  | .registerVersion => text "REGISTER_VERSION"
  | .publishCompatibility => text "PUBLISH_COMPATIBILITY"
  | .publishReadiness => text "PUBLISH_READINESS"
  | .publishHealth => text "PUBLISH_HEALTH"
  | .requestWarm => text "REQUEST_WARM"
  | .requestActivate => text "REQUEST_ACTIVATE"
  | .requestDrain => text "REQUEST_DRAIN"
  | .requestRollback => text "REQUEST_ROLLBACK"
  | .ackAttempt => text "ACK_ATTEMPT"
  | .publishCompletion => text "PUBLISH_COMPLETION"
  | .queryState => text "QUERY_STATE"
  | .queryAuthority => text "QUERY_AUTHORITY"
  | .fence => text "FENCE"
  | .promote => text "PROMOTE"
  | .registerRolloutPlan => text "REGISTER_ROLLOUT_PLAN"
  | .beginRollout => text "BEGIN_ROLLOUT"
  | .advanceStage => text "ADVANCE_STAGE"
  | .failStage => text "FAIL_STAGE"
  | .retire => text "RETIRE"
  | .revalidate => text "REVALIDATE"
  | .rollback => text "ROLLBACK"
  | .reconcile => text "RECONCILE"
  | .supersedeRollout => text "SUPERSEDE_ROLLOUT"
  | .reply => text "REPLY"
  | .command => text "COMMAND"
  | .registerScope => text "REGISTER_SCOPE"
  | .invalid _ _ => text "INVALID"

/-- Whether a frame of a type asks for a durable write before its acknowledgement leaves the
process. -/
def MessageType.mutates : MessageType → Bool
  | .registerWorker | .registerScope | .registerModel | .registerVersion | .publishCompatibility
  | .publishReadiness | .publishHealth | .requestWarm | .requestActivate | .requestDrain
  | .requestRollback | .ackAttempt | .publishCompletion | .fence | .promote
  | .registerRolloutPlan | .beginRollout | .advanceStage | .failStage | .retire | .revalidate
  | .rollback | .supersedeRollout => true
  | .hello | .helloAck | .queryState | .queryAuthority | .reconcile | .reply | .command
  | .invalid _ _ => false

/-- What the reply to a payload that cannot be decoded says. -/
def MessageType.malformedDetail : MessageType → Text
  | .hello => text "HELLO could not be decoded"
  | .registerWorker => text "registration could not be decoded"
  | .registerScope => text "REGISTER_SCOPE could not be decoded"
  | .registerModel => text "REGISTER_MODEL could not be decoded"
  | .registerVersion => text "REGISTER_VERSION could not be decoded"
  | .publishCompatibility => text "PUBLISH_COMPATIBILITY is malformed"
  | .publishReadiness | .publishHealth => text "evidence frame is malformed"
  | .requestWarm | .requestActivate | .requestDrain | .requestRollback =>
    text "request is malformed"
  | .publishCompletion | .ackAttempt => text "completion is malformed"
  | .registerRolloutPlan => text "plan is malformed"
  | .beginRollout | .advanceStage | .failStage => text "progress request is malformed"
  | type => type.toText ++ text " is malformed"

/-! ## Messages -/

/-- The message a type carries and what the coordinator makes of it. A request of an attempt has
the kind of its type. -/
def MessageType.handler :
    MessageType → Option (Σ kind : MessageKind, kind.Payload → LifecycleFabric.Frame)
  | .hello => some ⟨.hello, .hello⟩
  | .registerWorker => some ⟨.hello, .registerWorker⟩
  | .registerScope => some ⟨.registerScope, fun m => .registerScope m.path⟩
  | .registerModel => some ⟨.registerModel, fun m => .registerModel m.name m.family m.provenance⟩
  | .registerVersion =>
    some ⟨.registerVersion, fun m =>
      .registerVersion
        { model := m.model
          label := m.label
          artifact := m.artifact
          requirements := m.requirements
          predecessor := m.predecessor
          provenance := m.provenance }⟩
  | .publishCompatibility =>
    some ⟨.publishCompatibility, fun m =>
      .publishCompatibility m.version m.environment m.outcome m.detail m.provenance⟩
  | .publishReadiness => some ⟨.publishEvidence, .publishReadiness⟩
  | .publishHealth => some ⟨.publishEvidence, .publishHealth⟩
  | .requestWarm => some ⟨.attemptRequest, .requestAttempt .warm⟩
  | .requestActivate => some ⟨.attemptRequest, .requestAttempt .activate⟩
  | .requestDrain => some ⟨.attemptRequest, .requestAttempt .drain⟩
  | .requestRollback => some ⟨.attemptRequest, .requestAttempt .rollback⟩
  | .publishCompletion | .ackAttempt => some ⟨.completion, .publishCompletion⟩
  | .queryState => some ⟨.queryState, fun m => .queryState m.version m.scope⟩
  | .queryAuthority => some ⟨.queryAuthority, fun m => .queryAuthority m.scope⟩
  | .fence => some ⟨.fence, fun m => .fence m.worker m.boot m.reason⟩
  | .promote => some ⟨.promotion, .promote⟩
  | .registerRolloutPlan => some ⟨.rolloutPlan, .registerRolloutPlan⟩
  | .beginRollout => some ⟨.progress, .beginRollout⟩
  | .advanceStage => some ⟨.progress, .advanceStage⟩
  | .failStage => some ⟨.progress, .failStage⟩
  | .retire => some ⟨.retire, .retire⟩
  | .revalidate => some ⟨.revalidate, .revalidate⟩
  | .rollback => some ⟨.rollback, .rollback⟩
  | .supersedeRollout =>
    some ⟨.supersede, fun m => .supersedeRollout m.rollout m.generation m.detail⟩
  | .reconcile | .helloAck | .reply | .command | .invalid _ _ => none

/-- The frame with the message it carries, or a malformed one. A reconciliation is not decoded. -/
def Frame.carried (limits : ProtocolLimits) (frame : Frame) : LifecycleFabric.Frame :=
  match frame.type.handler with
  | some ⟨kind, handle⟩ =>
    match kind.decode limits frame.payload with
    | .error _ => .malformed
    | .ok message => handle message
  | none => if frame.type = .reconcile then .reconcile else .unhandled

/-- What arrives when a decoder has received bytes. -/
def Reception.arrival (limits : ProtocolLimits) (reception : Reception) : Arrival :=
  .data (reception.frames.map (Frame.carried limits)) (decide (reception.status ≠ .needMoreData))

end LifecycleFabric.Wire

namespace LifecycleFabric

namespace Process

open Wire Wire.Reply

variable (cfg : CoordinatorConfig) (limits : ProtocolLimits)

/-- The answer to a frame. -/
def answer (p : Process) (session : Session) (frame : Wire.Frame) : Reply :=
  match p.reply cfg limits session (frame.carried limits) with
  | some reply => reply
  | none =>
    match frame.carried limits with
    | .malformed => refused .rejected .protocolDecodeFailure frame.type.malformedDetail
    | _ => refused .rejected .protocolUnknownType frame.type.toText

/-- Pop the frames a decoder has and handle each as it comes, as long as the session is open. -/
def popFrames (i : ℕ) : ℕ → Process → FrameDecoder → Process × FrameDecoder
  | 0, p, d => (p, d)
  | fuel + 1, p, d =>
    let (status, frame, d) := d.next {}
    if status = .needMoreData then (p, d)
    else if status ≠ .ok then (p.closeSession cfg i (text "framing violation"), d)
    else
      match p.sessions[i]? with
      | none => (p, d)
      | some session =>
        let p := p.handleFrame cfg limits i session (frame.carried limits)
        if p.isOpen i then popFrames i fuel p d else (p, d)

/-- Serve the bytes that a read of a session returned. A frame takes a byte at least, so the fuel
does not run out before the bytes do. -/
def serviceBytes (i : ℕ) (p : Process) (d : FrameDecoder) (chunk : ByteCodec.Bytes) :
    Process × FrameDecoder :=
  if !p.isOpen i then (p, d)
  else
    let (status, d) := d.feed chunk
    if status = .ok then popFrames cfg limits i (d.unread.length + 1) p d
    else (p.closeSession cfg i (text "framing violation"), d)

/-- Serve a stream that is read in chunks. -/
def serviceStream (i : ℕ) : List ByteCodec.Bytes → Process × FrameDecoder → Process × FrameDecoder
  | [], served => served
  | chunk :: chunks, (p, d) => serviceStream i chunks (p.serviceBytes cfg limits i d chunk)

end Process

end LifecycleFabric
