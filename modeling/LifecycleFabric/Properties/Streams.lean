import LifecycleFabric.Properties.Decoders
import LifecycleFabric.Properties.Messages
import LifecycleFabric.Wire.Handling

/-!
# Requests over a stream

A session is a stream of bytes that is read in chunks. The coordinator handles the frames of a
chunk as it pops them, which is to serve what the decoder makes of the chunk. So the requests of
a stream are handled once each and in order, however the stream is cut.
-/

namespace LifecycleFabric

open ByteCodec Wire Process

variable {cfg : CoordinatorConfig} {limits : ProtocolLimits} {p : Process} {i : ℕ}
  {d : FrameDecoder}

/-! ## Open sessions -/

theorem isOpen_iff : p.isOpen i = true ↔
    ∃ session, p.sessions[i]? = some session ∧ session.connected = true := by
  unfold isOpen
  cases p.sessions[i]? with
  | none => simp
  | some session => simp

/-- The frames of a session that is closed are not handled. -/
theorem handleFrames_closed (h : p.isOpen i = false) (frames : List LifecycleFabric.Frame) :
    p.handleFrames cfg limits i frames = p := by
  cases frames with
  | nil => rfl
  | cons frame frames =>
    unfold handleFrames
    cases hsession : p.sessions[i]? with
    | none => rfl
    | some session =>
      cases hopen : session.connected with
      | false => simp [hopen]
      | true =>
        rw [isOpen_iff.mpr ⟨session, hsession, hopen⟩] at h
        exact absurd h.symm Bool.false_ne_true

theorem handleFrames_open {session : Session} (hsession : p.sessions[i]? = some session)
    (hopen : session.connected = true) (frame : LifecycleFabric.Frame)
    (frames : List LifecycleFabric.Frame) :
    p.handleFrames cfg limits i (frame :: frames) =
      (p.handleFrame cfg limits i session frame).handleFrames cfg limits i frames := by
  rw [handleFrames, hsession]
  simp [hopen]

theorem handleFrames_append (p : Process) (frames frames' : List LifecycleFabric.Frame) :
    p.handleFrames cfg limits i (frames ++ frames') =
      (p.handleFrames cfg limits i frames).handleFrames cfg limits i frames' := by
  induction frames generalizing p with
  | nil => rfl
  | cons frame frames ih =>
    cases hopen : p.isOpen i with
    | false => rw [handleFrames_closed hopen, handleFrames_closed hopen, handleFrames_closed hopen]
    | true =>
      obtain ⟨session, hsession, hconnected⟩ := isOpen_iff.mp hopen
      rw [List.cons_append, handleFrames_open hsession hconnected,
        handleFrames_open hsession hconnected, ih]

/-! ## Progress of a decoder -/

/-- A decoder that failed says why. -/
def Wire.FrameDecoder.Honest (d : FrameDecoder) : Prop :=
  d.failed = true → d.failure ≠ .ok ∧ d.failure ≠ .needMoreData

/-- A frame that is decoded takes bytes off the front. -/
theorem decodeFrame_consumed (limits : ProtocolLimits) (data : Bytes) (out : Wire.Frame)
    (h : (decodeFrame (some data) limits out).status = .ok) :
    0 < (decodeFrame (some data) limits out).consumed ∧
      (decodeFrame (some data) limits out).consumed ≤ data.length := by
  have hheader : kFrameHeaderSize = 16 := rfl
  revert h
  simp only [decodeFrame]
  split_ifs <;> intro h <;> try cases h
  dsimp only
  omega

/-- A decoder that pops a frame has less unread; one that does not stays honest. -/
theorem next_honest (hd : d.Honest) (out : Wire.Frame) :
    (d.next out).2.2.Honest ∧
      ((d.next out).1 = .ok → (d.next out).2.2.unread.length < d.unread.length) := by
  unfold FrameDecoder.next
  cases hfailed : d.failed with
  | true =>
    rw [if_pos rfl]
    exact ⟨hd, fun hok => absurd hok (hd hfailed).1⟩
  | false =>
    rw [if_neg Bool.false_ne_true]
    by_cases hshort : d.unread.length < kFrameHeaderSize
    · rw [if_pos hshort]
      exact ⟨hd, nofun⟩
    · rw [if_neg hshort]
      have hconsumed := decodeFrame_consumed d.limits d.unread out
      generalize decodeFrame (some d.unread) d.limits out = read at hconsumed ⊢
      dsimp only
      split_ifs with hok hall hmore
      · refine ⟨nofun, fun _ => ?_⟩
        have hread := hconsumed hok
        exact Nat.lt_of_lt_of_le hread.1 hread.2
      · refine ⟨nofun, fun _ => ?_⟩
        have hread := hconsumed hok
        simp only [FrameDecoder.unread, List.length_drop] at hread ⊢
        omega
      · exact ⟨fun _ => ⟨hok, hmore⟩, fun h => absurd h hok⟩
      · exact ⟨hd, fun h => absurd h hok⟩

theorem feed_honest (hd : d.Honest) (chunk : Bytes) :
    (d.feed chunk).2.Honest ∧ (d.feed chunk).1 ≠ .needMoreData := by
  unfold FrameDecoder.feed
  split_ifs with hfailed
  · exact ⟨hd, (hd hfailed).2⟩
  · exact ⟨fun _ => ⟨nofun, nofun⟩, nofun⟩
  · exact ⟨fun _ => ⟨nofun, nofun⟩, nofun⟩
  · exact ⟨fun h => absurd h hfailed, nofun⟩
  · exact ⟨fun h => absurd h hfailed, nofun⟩

theorem popAll_honest (hd : d.Honest) (fuel : ℕ) : (FrameDecoder.popAll fuel d).decoder.Honest := by
  induction fuel generalizing d with
  | zero => exact hd
  | succ fuel ih =>
    have hnext := (next_honest hd {}).1
    unfold FrameDecoder.popAll
    generalize d.next {} = popped at hnext ⊢
    dsimp only
    split_ifs
    · exact ih hnext
    · exact hnext

/-! ## One chunk -/

/-- Frames that arrive on an open session are handled, and a violation closes it. -/
theorem serviceSession_data (hopen : p.isOpen i = true) (frames : List LifecycleFabric.Frame)
    (violation : Bool) :
    p.serviceSession cfg limits i (.data frames violation) =
      if violation && (p.handleFrames cfg limits i frames).isOpen i then
        (p.handleFrames cfg limits i frames).closeSession cfg i (text "framing violation")
      else p.handleFrames cfg limits i frames := by
  unfold serviceSession
  rw [hopen]
  rfl

/-- What is popped and handled is what a session is served that the frames arrive on. The session
is left with the same decoder as long as it is open. -/
theorem popFrames_eq {fuel : ℕ} (hd : d.Honest) (hopen : p.isOpen i = true)
    (hfuel : d.unread.length < fuel) :
    (popFrames cfg limits i fuel p d).1 =
        p.serviceSession cfg limits i ((FrameDecoder.popAll fuel d).arrival limits) ∧
      ((popFrames cfg limits i fuel p d).1.isOpen i = true →
        (popFrames cfg limits i fuel p d).2 = (FrameDecoder.popAll fuel d).decoder) := by
  induction fuel generalizing p d with
  | zero => omega
  | succ fuel ih =>
    obtain ⟨hhonest, hless⟩ := next_honest hd {}
    unfold popFrames FrameDecoder.popAll
    generalize d.next {} = popped at hhonest hless ⊢
    obtain ⟨status, frame, d'⟩ := popped
    dsimp only at hhonest hless ⊢
    by_cases hok : status = .ok
    · subst hok
      obtain ⟨session, hsession, hconnected⟩ := isOpen_iff.mp hopen
      have hserved (frames : List LifecycleFabric.Frame) (violation : Bool) :=
        @serviceSession_data cfg limits p i hopen (frame.carried limits :: frames) violation
      simp only [handleFrames_open hsession hconnected] at hserved
      simp only [hsession, reduceCtorEq, if_false, if_true, ne_eq, not_true_eq_false,
        Reception.arrival, List.map_cons, hserved]
      generalize p.handleFrame cfg limits i session (frame.carried limits) = handled
      cases hstays : handled.isOpen i with
      | false => simp [handleFrames_closed hstays, hstays]
      | true =>
        obtain ⟨hprocess, hdecoder⟩ := ih hhonest hstays (by
          have hshrinks := hless rfl
          omega)
        rw [Reception.arrival, serviceSession_data hstays] at hprocess
        exact ⟨hprocess, hdecoder⟩
    · rw [if_neg hok, Reception.arrival, serviceSession_data hopen]
      by_cases hmore : status = .needMoreData
      · simp [hmore, handleFrames]
      · simp [hok, hmore, handleFrames, hopen]

theorem receive_honest (hd : d.Honest) (chunk : Bytes) : (d.receive chunk).decoder.Honest := by
  have hfed := feed_honest hd chunk
  unfold FrameDecoder.receive
  generalize d.feed chunk = fed at hfed ⊢
  dsimp only
  split_ifs
  · exact popAll_honest hfed.1 _
  · exact hfed.1

/-- To serve bytes is to serve what the decoder makes of them. The session is left with the
decoder that received them as long as it is open. -/
theorem serviceBytes_eq (hd : d.Honest) (p : Process) (chunk : Bytes) :
    (p.serviceBytes cfg limits i d chunk).1 =
        p.serviceSession cfg limits i ((d.receive chunk).arrival limits) ∧
      ((p.serviceBytes cfg limits i d chunk).1.isOpen i = true →
        (p.serviceBytes cfg limits i d chunk).2 = (d.receive chunk).decoder) := by
  unfold serviceBytes
  cases hopen : p.isOpen i with
  | false =>
    have hclosed : ∀ arrival, p.serviceSession cfg limits i arrival = p := by
      intro arrival
      unfold serviceSession
      rw [hopen]
      rfl
    rw [hclosed]
    exact ⟨rfl, fun h => absurd (hopen.symm.trans h) Bool.false_ne_true⟩
  | true =>
    have hfed := feed_honest hd chunk
    unfold FrameDecoder.receive
    generalize d.feed chunk = fed at hfed ⊢
    obtain ⟨status, d'⟩ := fed
    by_cases hok : status = .ok
    · subst hok
      exact popFrames_eq hfed.1 hopen (Nat.lt_succ_self _)
    · have hmore : status ≠ .needMoreData := hfed.2
      dsimp only
      rw [if_neg hok, Reception.arrival, serviceSession_data hopen]
      simp [hok, hmore, handleFrames, hopen]

/-! ## Streams -/

/-- Frames that arrive without a violation are handled. -/
theorem serviceSession_frames (p : Process) (frames : List LifecycleFabric.Frame) :
    p.serviceSession cfg limits i (.data frames false) = p.handleFrames cfg limits i frames := by
  cases hopen : p.isOpen i with
  | false =>
    rw [handleFrames_closed hopen]
    unfold serviceSession
    rw [hopen]
    rfl
  | true =>
    rw [serviceSession_data hopen]
    rfl

theorem serviceStream_closed (hclosed : p.isOpen i = false) (chunks : List Bytes) :
    (serviceStream cfg limits i chunks (p, d)).1 = p := by
  induction chunks with
  | nil => rfl
  | cons chunk chunks ih =>
    have hserved : p.serviceBytes cfg limits i d chunk = (p, d) := by
      unfold serviceBytes
      rw [hclosed]
      rfl
    rw [serviceStream, hserved, ih]

/-- As long as each chunk is received without a violation, its frames are handled in order. -/
theorem serviceStream_eq (hd : d.Honest) (p : Process) {chunks : List Bytes}
    (hreceived : ∀ reception ∈ d.receiveAll chunks, reception.status = .needMoreData) :
    (serviceStream cfg limits i chunks (p, d)).1 =
      p.handleFrames cfg limits i
        (((d.receiveAll chunks).flatMap Reception.frames).map (Frame.carried limits)) := by
  induction chunks generalizing p d with
  | nil => rfl
  | cons chunk chunks ih =>
    rw [FrameDecoder.receiveAll, List.forall_mem_cons] at hreceived
    obtain ⟨hfirst, hrest⟩ := hreceived
    obtain ⟨hprocess, hdecoder⟩ :=
      @serviceBytes_eq cfg limits i d hd p chunk
    have hhandled : (p.serviceBytes cfg limits i d chunk).1 = p.handleFrames cfg limits i
        ((d.receive chunk).frames.map (Frame.carried limits)) := by
      rw [hprocess, Reception.arrival, hfirst]
      exact serviceSession_frames p _
    rw [serviceStream, FrameDecoder.receiveAll, List.flatMap_cons, List.map_append,
      handleFrames_append, ← hhandled]
    cases hopen : (p.serviceBytes cfg limits i d chunk).1.isOpen i with
    | false => rw [serviceStream_closed hopen, handleFrames_closed hopen]
    | true =>
      rw [← hdecoder hopen] at hrest ⊢
      have hhonest : (p.serviceBytes cfg limits i d chunk).2.Honest := by
        rw [hdecoder hopen]
        exact receive_honest hd chunk
      exact ih hhonest _ hrest

/-! ## Requests -/

/-- A request: the type of its frame, its message, and the frame the coordinator makes of it. -/
structure WireRequest where
  type : MessageType
  kind : MessageKind
  frame : kind.Payload → LifecycleFabric.Frame
  handled : type.handler = some ⟨kind, frame⟩
  message : kind.Payload

namespace WireRequest

/-- The frame that is sent. -/
def sent (request : WireRequest) : Wire.Frame :=
  { type := request.type, payload := request.kind.put request.message }

/-- The frame that is to be handled. -/
def meant (request : WireRequest) : LifecycleFabric.Frame := request.frame request.message

/-- A request that its codec carries under limits: its fields are within the bounds of the reader,
and its payload is within that of a frame. -/
structure Fits (limits : ProtocolLimits) (request : WireRequest) : Prop where
  proper : request.kind.Proper request.message
  within : request.kind.Within limits request.message
  indexed : request.kind.Indexed request.message
  payload : (request.kind.put request.message).length ≤ limits.maxPayloadBytes

theorem isKnown_of_handler {type : MessageType} {handler : Σ kind : MessageKind,
    kind.Payload → LifecycleFabric.Frame} (h : type.handler = some handler) :
    type.isKnown = true := by
  cases type with
  | invalid raw unnamed => cases h
  | _ => rfl

theorem Fits.valid {request : WireRequest} (h : request.Fits limits)
    (hlimits : limits.maxPayloadBytes < 2 ^ 32) : request.sent.Valid limits where
  known := isKnown_of_handler request.handled
  limit := h.payload
  carried := Nat.lt_of_le_of_lt h.payload hlimits

/-- What is handled of the frame of a request is what was meant. -/
theorem Fits.carried {request : WireRequest} (h : request.Fits limits) :
    request.sent.carried limits = request.meant := by
  have hdecode := MessageKind.decode_put h.proper h.within
  rw [MessageKind.carried_eq_iff.mpr h.indexed] at hdecode
  simp only [Frame.carried, sent, request.handled, hdecode, meant]

end WireRequest

/-- However the stream of a session is cut into manageable chunks, the coordinator handles exactly
the requests that were sent on it, each once and in order, as long as the session is open. -/
theorem requests_served (cfg : CoordinatorConfig) {limits : ProtocolLimits}
    (hlimits : limits.maxPayloadBytes < 2 ^ 32) (p : Process) (i : ℕ)
    {requests : List WireRequest} (hfits : ∀ request ∈ requests, request.Fits limits)
    {chunks : List Bytes}
    (hstream : chunks.flatten = streamOf limits (requests.map WireRequest.sent))
    (hcuts : Manageable (maxFrameSize limits)
      (boundaries limits (requests.map WireRequest.sent)) 0 0 (chunks.map List.length)) :
    (serviceStream cfg limits i chunks (p, { limits })).1 =
      p.handleFrames cfg limits i (requests.map WireRequest.meant) := by
  have hvalid : ∀ frame ∈ requests.map WireRequest.sent, frame.Valid limits := by
    intro frame hframe
    obtain ⟨request, hrequest, rfl⟩ := List.mem_map.mp hframe
    exact (hfits request hrequest).valid hlimits
  have hstart : Waiting limits { limits } (requests.map WireRequest.sent) chunks.flatten := by
    refine ⟨rfl, rfl, le_rfl, fun _ => rfl, hstream, fun frame _ => ?_⟩
    rw [length_frameBytes, kFrameHeaderSize]
    exact Nat.lt_of_lt_of_le (Nat.succ_pos 0) (by omega)
  obtain ⟨hframes, hreceived⟩ := (receiveAll_iff [] hvalid hstart).mpr hcuts
  have hhonest : FrameDecoder.Honest { limits } := fun h => absurd h Bool.false_ne_true
  rw [serviceStream_eq hhonest p hreceived, hframes, List.map_map]
  congr 1
  refine List.map_congr_left ?_
  intro request hrequest
  exact (hfits request hrequest).carried

/-- HELLO, and the registration of a model. -/
def greetAndRegister : List WireRequest :=
  [{ type := .hello, kind := .hello, frame := .hello, handled := rfl, message := {} },
    { type := .registerModel, kind := .registerModel
      frame := fun m => .registerModel m.name m.family m.provenance, handled := rfl
      message := ({ name := text "m", provenance := .synthetic } : RegisterModelMessage) }]

/-- The bytes of the two requests, cut inside the first and inside the second. -/
def greetingCut : List Bytes :=
  [(streamOf {} (greetAndRegister.map WireRequest.sent)).take 30,
    (streamOf {} (greetAndRegister.map WireRequest.sent)).drop 30]

theorem requests_served_witness :
    (serviceStream {} {} 0 greetingCut
        ({ engine := EngineState.init {}, lastSavedSequence := {}, sessions := [{}] },
          { limits := {} })).1 =
      Process.handleFrames {} {}
        { engine := EngineState.init {}, lastSavedSequence := {}, sessions := [{}] } 0
        [.hello {}, .registerModel (text "m") [] .synthetic] := by
  have hfits : ∀ request ∈ greetAndRegister, request.Fits {} := by
    intro request hrequest
    simp only [greetAndRegister, List.mem_cons, List.not_mem_nil, or_false] at hrequest
    rcases hrequest with rfl | rfl
    · exact ⟨trivial, by simp [MessageKind.Within, withinHello, ByteCodec.Fits], trivial, by decide⟩
    · exact ⟨trivial, by simp [MessageKind.Within, withinRegisterModel, ByteCodec.Fits, text],
        trivial, by decide⟩
  exact requests_served {} (by decide) _ 0 hfits (by decide +kernel) (by decide +kernel)

end LifecycleFabric
