import LifecycleFabric.Wire.Decoder
import LifecycleFabric.Properties.Framing

/-!
# Streams in chunks

However a stream of frames is cut, the decoder yields its frames, as long as what it holds
stays within the size of one frame. It holds every byte since the stream was last cut at the
end of a frame, those it has already read included.
-/

namespace LifecycleFabric.Wire

open ByteCodec

variable {limits : ProtocolLimits} {d : FrameDecoder} {frames done todo : List Frame}

/-- The bytes of frames. -/
def streamOf (limits : ProtocolLimits) (frames : List Frame) : Bytes :=
  frames.flatMap (frameBytes limits)

/-- The places of a stream where a frame ends, its start included. -/
def boundaries (limits : ProtocolLimits) (frames : List Frame) : List ℕ :=
  frames.inits.map fun front => (streamOf limits front).length

/-- Chunks of which a decoder holds no more than a frame: behind `fed` bytes, of which it holds
`held`, each chunk fits in with these, and where it ends a frame, nothing is held any more. -/
def Manageable (cap : ℕ) (ends : List ℕ) : (fed held : ℕ) → List ℕ → Prop
  | _, _, [] => True
  | fed, held, size :: sizes =>
    held + size ≤ cap ∧
      Manageable cap ends (fed + size) (if fed + size ∈ ends then 0 else held + size) sizes

instance decidableManageable (cap : ℕ) (ends : List ℕ) (fed held : ℕ) (sizes : List ℕ) :
    Decidable (Manageable cap ends fed held sizes) :=
  match sizes with
  | [] => isTrue trivial
  | _ :: sizes => @instDecidableAnd _ _ _ (decidableManageable cap ends _ _ sizes)

/-! ## A decoder between two chunks -/

/-- A decoder that has yielded some frames of a stream and waits for the end of the next. -/
structure Waiting (limits : ProtocolLimits) (d : FrameDecoder) (todo : List Frame) (rest : Bytes) :
    Prop where
  limits_eq : d.limits = limits
  live : d.failed = false
  position : d.position ≤ d.buffer.length
  compact : d.unread = [] → d.buffer = []
  stream : d.unread ++ rest = streamOf limits todo
  incomplete : ∀ frame ∈ todo.head?, d.unread.length < (frameBytes limits frame).length

@[simp] theorem streamOf_nil : streamOf limits [] = [] := rfl

@[simp] theorem streamOf_cons (frame : Frame) :
    streamOf limits (frame :: frames) = frameBytes limits frame ++ streamOf limits frames := rfl

theorem streamOf_append (front back : List Frame) :
    streamOf limits (front ++ back) = streamOf limits front ++ streamOf limits back :=
  List.flatMap_append

/-- A decoder that waits is at the end of a frame exactly if it holds nothing. -/
theorem Waiting.boundary_iff {rest : Bytes} (h : Waiting limits d todo rest) (done : List Frame) :
    (streamOf limits done).length + d.unread.length ∈ boundaries limits (done ++ todo) ↔
      d.unread = [] := by
  simp only [boundaries, List.mem_map, List.mem_inits]
  constructor
  · rintro ⟨front, ⟨back, hsplit⟩, hlength⟩
    rcases List.append_eq_append_iff.mp hsplit with ⟨mid, hdone, _⟩ | ⟨mid, hfront, htodo⟩
    · rw [hdone, streamOf_append, List.length_append] at hlength
      exact List.length_eq_zero_iff.mp (by omega)
    · cases mid with
      | nil =>
        rw [hfront, List.append_nil] at hlength
        exact List.length_eq_zero_iff.mp (by omega)
      | cons frame mid =>
        have hincomplete := h.incomplete frame (by rw [htodo]; rfl)
        rw [hfront, streamOf_append, List.length_append, streamOf_cons,
          List.length_append] at hlength
        omega
  · intro hunread
    exact ⟨done, List.prefix_append done todo, by rw [hunread]; rfl⟩

/-! ## Popping frames -/

/-- A decoder that has a whole frame pops it. -/
theorem next_of_frame {frame : Frame} {rest : Bytes} (hframe : frame.Valid limits)
    (hlimits : d.limits = limits) (hlive : d.failed = false)
    (hposition : d.position ≤ d.buffer.length)
    (hunread : d.unread = frameBytes limits frame ++ rest) (out : Frame) :
    d.next out = (.ok, frame,
      if rest = [] then { d with buffer := [], position := 0 }
      else { d with position := d.position + (frameBytes limits frame).length }) := by
  have hsize : ¬d.unread.length < kFrameHeaderSize := by
    rw [hunread, List.length_append, length_frameBytes]
    omega
  have hread := hframe.decode_append rest out
  have hlength : d.buffer.length = d.position + d.unread.length := by
    rw [FrameDecoder.unread, List.length_drop]
    omega
  have hlast : d.position + (frameBytes limits frame).length = d.buffer.length ↔ rest = [] := by
    rw [hlength, hunread, List.length_append, ← List.length_eq_zero_iff]
    omega
  unfold FrameDecoder.next
  rw [hlive, if_neg Bool.false_ne_true, if_neg hsize, hlimits, hunread, hread]
  dsimp only
  rw [if_pos rfl]
  by_cases hrest : rest = []
  · rw [if_pos hrest, if_pos (hlast.mpr hrest)]
  · rw [if_neg hrest, if_neg (mt hlast.mp hrest)]

/-- A decoder that has the start of a frame asks for more. -/
theorem next_of_start {rest : Bytes} (h : Waiting limits d todo rest)
    (hvalid : ∀ frame ∈ todo, frame.Valid limits) (out : Frame) :
    d.next out = (.needMoreData, out, d) := by
  unfold FrameDecoder.next
  rw [h.live, if_neg Bool.false_ne_true]
  by_cases hsize : d.unread.length < kFrameHeaderSize
  · rw [if_pos hsize]
  · rw [if_neg hsize]
    cases todo with
    | nil =>
      have hnone := List.append_eq_nil_iff.mp h.stream
      rw [hnone.1] at hsize
      exact absurd (Nat.succ_pos _) hsize
    | cons frame todo =>
      have hincomplete := h.incomplete frame rfl
      have hstart : d.unread = (frameBytes limits frame).take d.unread.length := by
        have htake := congrArg (List.take d.unread.length) h.stream
        rw [List.take_left, streamOf_cons, List.take_append_of_le_length hincomplete.le] at htake
        exact htake
      have hread := (hvalid frame (List.mem_cons_self ..)).decode_take hincomplete out
      rw [h.limits_eq, hstart, hread]
      rfl

/-- A decoder that waits for the end of a frame pops nothing. -/
theorem popAll_of_waiting {rest : Bytes} (h : Waiting limits d todo rest)
    (hvalid : ∀ frame ∈ todo, frame.Valid limits) {fuel : ℕ} (hfuel : 0 < fuel) :
    FrameDecoder.popAll fuel d = { status := .needMoreData, decoder := d } := by
  obtain ⟨fuel, rfl⟩ := Nat.exists_eq_succ_of_ne_zero hfuel.ne'
  rw [FrameDecoder.popAll, next_of_start h hvalid]
  rfl

/-- A decoder that has a whole frame pops it first. -/
theorem popAll_of_frame {frame : Frame} {d' : FrameDecoder} {fuel : ℕ}
    (hnext : d.next {} = (.ok, frame, d')) :
    FrameDecoder.popAll (fuel + 1) d =
      { FrameDecoder.popAll fuel d' with
        frames := frame :: (FrameDecoder.popAll fuel d').frames } := by
  rw [FrameDecoder.popAll, hnext]
  rfl

/-- All complete frames are popped, and the decoder waits for the next. It lets go of what it
holds only at the end of a frame. -/
theorem popAll_spec (hvalid : ∀ frame ∈ todo, frame.Valid limits) {rest : Bytes} {fuel : ℕ}
    (hlimits : d.limits = limits) (hlive : d.failed = false)
    (hposition : d.position ≤ d.buffer.length) (hcompact : d.unread = [] → d.buffer = [])
    (hstream : d.unread ++ rest = streamOf limits todo) (hfuel : d.unread.length < fuel) :
    ∃ later, todo = (FrameDecoder.popAll fuel d).frames ++ later ∧
      (FrameDecoder.popAll fuel d).status = .needMoreData ∧
      Waiting limits (FrameDecoder.popAll fuel d).decoder later rest ∧
      ((FrameDecoder.popAll fuel d).decoder.unread ≠ [] →
        (FrameDecoder.popAll fuel d).decoder.buffer.length = d.buffer.length) := by
  induction fuel generalizing d todo with
  | zero => omega
  | succ fuel ih =>
    by_cases hwhole : ∃ frame later, todo = frame :: later ∧
        (frameBytes limits frame).length ≤ d.unread.length
    · obtain ⟨frame, later, rfl, hlength⟩ := hwhole
      rw [streamOf_cons] at hstream
      obtain ⟨left, hunread⟩ : ∃ left, d.unread = frameBytes limits frame ++ left := by
        rcases List.append_eq_append_iff.mp hstream with ⟨left, hframe, _⟩ | ⟨left, hunread, _⟩
        · have hleft := congrArg List.length hframe
          rw [List.length_append] at hleft
          have hnil : left = [] := List.length_eq_zero_iff.mp (by omega)
          exact ⟨[], by rw [List.append_nil, hframe, hnil, List.append_nil]⟩
        · exact ⟨left, hunread⟩
      have hnext := next_of_frame (hvalid frame (List.mem_cons_self ..)) hlimits hlive hposition
        hunread {}
      have hpositive : 0 < (frameBytes limits frame).length := by
        rw [length_frameBytes, kFrameHeaderSize]
        omega
      have hlater : ∀ f ∈ later, f.Valid limits := fun f hf =>
        hvalid f (List.mem_cons_of_mem frame hf)
      have hsize : d.unread.length = (frameBytes limits frame).length + left.length := by
        rw [hunread, List.length_append]
      have hrest : left ++ rest = streamOf limits later := by
        rw [hunread, List.append_assoc] at hstream
        exact List.append_cancel_left hstream
      by_cases hleft : left = []
      · rw [if_pos hleft] at hnext
        have hwaiting : Waiting limits { d with buffer := [], position := 0 } later rest := by
          refine ⟨hlimits, hlive, le_rfl, fun _ => rfl, ?_, fun f _ => ?_⟩
          · rw [← hrest, hleft]
            rfl
          · rw [length_frameBytes, kFrameHeaderSize]
            exact Nat.lt_of_lt_of_le (Nat.succ_pos 0) (by omega)
        rw [popAll_of_frame hnext, popAll_of_waiting hwaiting hlater (by omega)]
        exact ⟨later, rfl, rfl, hwaiting, fun hne => absurd rfl hne⟩
      · rw [if_neg hleft] at hnext
        have hunread' : FrameDecoder.unread
            { d with position := d.position + (frameBytes limits frame).length } = left := by
          rw [FrameDecoder.unread, ← List.drop_drop, ← FrameDecoder.unread, hunread,
            List.drop_left]
        obtain ⟨later', hsplit, hstatus, hwaiting, hheld⟩ :=
          ih (d := { d with position := d.position + (frameBytes limits frame).length }) hlater
            hlimits hlive (by
              have hbuffer : d.unread.length = d.buffer.length - d.position := by
                rw [FrameDecoder.unread, List.length_drop]
              dsimp only
              omega) (fun hnil => absurd (hunread'.symm.trans hnil) hleft)
            (by rw [hunread', hrest]) (by rw [hunread']; omega)
        rw [popAll_of_frame hnext]
        exact ⟨later', by rw [hsplit]; rfl, hstatus, hwaiting, hheld⟩
    · have hwaiting : Waiting limits d todo rest := by
        refine ⟨hlimits, hlive, hposition, hcompact, hstream, fun frame hframe => ?_⟩
        rw [not_exists] at hwhole
        by_contra hlength
        exact hwhole frame ⟨todo.tail, List.eq_cons_of_mem_head? hframe, not_lt.mp hlength⟩
      rw [popAll_of_waiting hwaiting hvalid (Nat.succ_pos fuel)]
      exact ⟨todo, rfl, rfl, hwaiting, fun _ => rfl⟩

/-! ## Chunks -/

/-- A chunk that fits in with what is held is fed; one that does not is refused. -/
theorem feed_of_waiting {rest chunk : Bytes} (h : Waiting limits d todo rest) :
    d.feed chunk =
      if d.buffer.length + chunk.length ≤ maxFrameSize limits then
        (.ok, { d with buffer := d.buffer ++ chunk })
      else (.oversized, d.fail .oversized) := by
  have hcompact : ¬(0 < d.position ∧ d.position = d.buffer.length) := by
    rintro ⟨hpositive, hall⟩
    have hunread : d.unread = [] := by
      rw [FrameDecoder.unread, hall, List.drop_length]
    rw [h.compact hunread] at hall
    exact absurd hall hpositive.ne'
  unfold FrameDecoder.feed
  rw [h.live, if_neg Bool.false_ne_true, h.limits_eq, if_neg hcompact]
  by_cases hroom : d.buffer.length + chunk.length ≤ maxFrameSize limits
  · rw [if_pos hroom, if_neg (by omega), if_neg (by omega)]
  · rw [if_neg hroom, if_pos (by omega : maxFrameSize limits < d.buffer.length + chunk.length)]
    exact ite_self _

/-- A chunk that fits in yields the frames it completes. -/
theorem receive_of_waiting (hvalid : ∀ frame ∈ todo, frame.Valid limits) {rest chunk : Bytes}
    (h : Waiting limits d todo (chunk ++ rest))
    (hroom : d.buffer.length + chunk.length ≤ maxFrameSize limits) :
    ∃ later, todo = (d.receive chunk).frames ++ later ∧
      (d.receive chunk).status = .needMoreData ∧
      Waiting limits (d.receive chunk).decoder later rest ∧
      (d.receive chunk).decoder.buffer.length =
        if (d.receive chunk).decoder.unread = [] then 0 else d.buffer.length + chunk.length := by
  have hunread : FrameDecoder.unread { d with buffer := d.buffer ++ chunk } =
      d.unread ++ chunk := by
    rw [FrameDecoder.unread, List.drop_append_of_le_length h.position, ← FrameDecoder.unread]
  have hreceive : d.receive chunk = FrameDecoder.popAll
      (FrameDecoder.unread { d with buffer := d.buffer ++ chunk }).length.succ
        { d with buffer := d.buffer ++ chunk } := by
    rw [FrameDecoder.receive, feed_of_waiting h, if_pos hroom]
    rfl
  obtain ⟨later, hsplit, hstatus, hwaiting, hheld⟩ := popAll_spec
    (d := { d with buffer := d.buffer ++ chunk }) hvalid h.limits_eq h.live
    (by
      have hposition := h.position
      dsimp only
      rw [List.length_append]
      omega)
    (by
      intro hnil
      rw [hunread] at hnil
      obtain ⟨hold, hnew⟩ := List.append_eq_nil_iff.mp hnil
      rw [hnew, h.compact hold]
      rfl)
    (by rw [hunread, List.append_assoc, h.stream]) (Nat.lt_succ_self _)
  rw [← hreceive] at hsplit hstatus hwaiting hheld
  refine ⟨later, hsplit, hstatus, hwaiting, ?_⟩
  by_cases hnil : (d.receive chunk).decoder.unread = []
  · rw [if_pos hnil, hwaiting.compact hnil]
    rfl
  · rw [if_neg hnil, hheld hnil, List.length_append]

/-- From a decoder that waits, the frames to come are yielded exactly if the chunks to come are
manageable. -/
theorem receiveAll_iff (done : List Frame) (hvalid : ∀ frame ∈ todo, frame.Valid limits)
    {chunks : List Bytes} (h : Waiting limits d todo chunks.flatten) :
    ((d.receiveAll chunks).flatMap Reception.frames = todo ∧
        ∀ reception ∈ d.receiveAll chunks, reception.status = .needMoreData) ↔
      Manageable (maxFrameSize limits) (boundaries limits (done ++ todo))
        ((streamOf limits done).length + d.unread.length) d.buffer.length
        (chunks.map List.length) := by
  induction chunks generalizing d done todo with
  | nil =>
    have hnone : todo = [] := by
      cases todo with
      | nil => rfl
      | cons frame todo =>
        have hincomplete := h.incomplete frame rfl
        have hall := congrArg List.length h.stream
        rw [streamOf_cons, List.length_append, List.length_append, List.flatten_nil,
          List.length_nil] at hall
        omega
    rw [hnone]
    exact ⟨fun _ => trivial, fun _ => ⟨rfl, fun _ hreception => absurd hreception (by simp
      [FrameDecoder.receiveAll])⟩⟩
  | cons chunk chunks ih =>
    rw [FrameDecoder.receiveAll, List.map_cons, Manageable, List.flatMap_cons]
    by_cases hroom : d.buffer.length + chunk.length ≤ maxFrameSize limits
    · obtain ⟨later, hsplit, hstatus, hwaiting, hheld⟩ := receive_of_waiting hvalid h hroom
      have hlater : ∀ frame ∈ later, frame.Valid limits := by
        intro frame hframe
        apply hvalid frame
        rw [hsplit]
        exact List.mem_append_right _ hframe
      have hfed : (streamOf limits (done ++ (d.receive chunk).frames)).length +
          (d.receive chunk).decoder.unread.length =
            (streamOf limits done).length + d.unread.length + chunk.length := by
        have hold := congrArg List.length h.stream
        have hnew := congrArg List.length hwaiting.stream
        rw [hsplit, streamOf_append] at hold
        simp only [List.flatten_cons, List.length_append] at hold hnew
        rw [streamOf_append, List.length_append]
        omega
      have hends : done ++ todo = done ++ (d.receive chunk).frames ++ later := by
        rw [List.append_assoc, ← hsplit]
      have hboundary := hwaiting.boundary_iff (done ++ (d.receive chunk).frames)
      have htail := ih (done ++ (d.receive chunk).frames) hlater hwaiting
      rw [hfed, ← hends] at hboundary htail
      rw [hheld, ← if_congr hboundary rfl rfl] at htail
      rw [and_iff_right hroom, ← htail, List.forall_mem_cons, and_iff_right hstatus]
      refine and_congr_left fun _ => ?_
      conv_lhs => rw [hsplit]
      exact List.append_right_inj _
    · have hreceive : (d.receive chunk).status = .oversized := by
        rw [FrameDecoder.receive, feed_of_waiting h, if_neg hroom]
        rfl
      constructor
      · rintro ⟨_, hstatus⟩
        have hmore := hstatus _ (List.mem_cons_self ..)
        rw [hreceive] at hmore
        exact absurd hmore (by decide)
      · rintro ⟨hfits, _⟩
        exact absurd hfits hroom

/-- However a stream of valid frames is cut into chunks: the decoder yields exactly these frames
in order, and every chunk ends with a request for more, if and only if the bytes since the
stream was last cut at the end of a frame never outgrow one frame of maximum size. -/
theorem chunks_decoded_iff (limits : ProtocolLimits) (frames : List Frame) (chunks : List Bytes)
    (hvalid : ∀ frame ∈ frames, frame.Valid limits)
    (hstream : chunks.flatten = streamOf limits frames) :
    ((FrameDecoder.receiveAll { limits } chunks).flatMap Reception.frames = frames ∧
        ∀ reception ∈ FrameDecoder.receiveAll { limits } chunks,
          reception.status = .needMoreData) ↔
      Manageable (maxFrameSize limits) (boundaries limits frames) 0 0
        (chunks.map List.length) := by
  have hstart : Waiting limits { limits } frames chunks.flatten := by
    refine ⟨rfl, rfl, le_rfl, fun _ => rfl, hstream, fun frame _ => ?_⟩
    rw [length_frameBytes, kFrameHeaderSize]
    exact Nat.lt_of_lt_of_le (Nat.succ_pos 0) (by omega)
  exact receiveAll_iff [] hvalid hstart

/-- Limits under which a frame has at most 24 bytes. -/
def narrowLimits : ProtocolLimits := { maxPayloadBytes := 4 }

/-- Two frames without payload. -/
def twoFrames : List Frame := [{ type := .reconcile }, { type := .reply, flags := 1 }]

/-- The bytes of the two frames, cut inside each of them and between them. -/
def cutBetween : List Bytes :=
  [(streamOf narrowLimits twoFrames).take 9, ((streamOf narrowLimits twoFrames).drop 9).take 11,
    ((streamOf narrowLimits twoFrames).drop 20).take 1, (streamOf narrowLimits twoFrames).drop 21]

/-- The bytes of the two frames, cut behind the first four bytes of the second. -/
def cutBehindStart : List Bytes :=
  [(streamOf narrowLimits twoFrames).take 24, (streamOf narrowLimits twoFrames).drop 24]

theorem chunks_decoded_witness :
    (FrameDecoder.receiveAll { limits := narrowLimits } cutBetween).flatMap Reception.frames =
        twoFrames ∧
      ∀ reception ∈ FrameDecoder.receiveAll { limits := narrowLimits } cutBetween,
        reception.status = .needMoreData := by
  have hvalid : ∀ frame ∈ twoFrames, frame.Valid narrowLimits := by
    intro frame hframe
    simp only [twoFrames, List.mem_cons, List.not_mem_nil, or_false] at hframe
    rcases hframe with rfl | rfl
    · exact ⟨rfl, by decide, by decide⟩
    · exact ⟨rfl, by decide, by decide⟩
  have hstream : cutBetween.flatten = streamOf narrowLimits twoFrames := by decide +kernel
  exact (chunks_decoded_iff narrowLimits twoFrames cutBetween hvalid hstream).mpr
    (by decide +kernel)

/-- Every chunk is within the size of a frame, and the decoder refuses the second: it still
holds the bytes of the first frame, which it has yielded. -/
theorem second_chunk_refused :
    (∀ chunk ∈ cutBehindStart, chunk.length ≤ maxFrameSize narrowLimits) ∧
      cutBehindStart.flatten = streamOf narrowLimits twoFrames ∧
      (FrameDecoder.receiveAll { limits := narrowLimits } cutBehindStart).map
          (fun reception => (reception.frames, reception.status)) =
        [([{ type := .reconcile }], .needMoreData), ([], .oversized)] := by
  decide +kernel

end LifecycleFabric.Wire
