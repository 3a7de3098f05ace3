import HaidiBms.Session.Watching
import HaidiBms.Session.Feeding

/-!
# Replies that have begun when the deadline passes

A tick decides from `frames_seen_` whether the reply to the request in flight has begun. For a paginated reply that is the number of distinct counters, which is positive once a frame has arrived. For a fault-record stream it is an eight-bit count of frames, which a stream takes back to zero every 256 frames: a stream that goes quiet there looks unanswered and is asked for again. `Tally` says what the counter amounts to after any run, at any depth of nesting.
-/

namespace Haidi

variable {capacity : ℕ+}

/-- How many frames of the reply to the latest request have been accepted. -/
def replies : List (Entry capacity) → Nat
  | [] => 0
  | entry :: past =>
    match entry.obs with
    | .began => 0
    | .accepted => replies past + 1
    | _ => replies past

theorem replies_aside {entry : Entry capacity} {past : List (Entry capacity)} (h : entry.obs.isAside = true) :
    replies (entry :: past) = replies past := by
  obtain ⟨bms, obs⟩ := entry
  cases obs <;> first | rfl | cases h

/-- What the session has counted of a reply of `n` frames. -/
structure Tally (n : Nat) (bms : HaidiBMS capacity) : Prop where
  pending : 0 < bms.queue.count
  single : (multiframeInfo bms.head.id).multi = false → bms.framesSeen = 0
  stream : (multiframeInfo bms.head.id).streaming = true → bms.framesSeen.toNat = n % 256
  paginated : (multiframeInfo bms.head.id).paginated →
    bms.framesSeen.toNat = (counters bms.seenMask).card ∧ ((counters bms.seenMask).Nonempty ↔ 0 < n)

/-- The request in flight and what has been counted of its reply are as they were. -/
structure SameReply (bms bms' : HaidiBMS capacity) : Prop where
  queue : bms'.queue = bms.queue
  state : bms'.state = bms.state
  seenMask : bms'.seenMask = bms.seenMask
  framesSeen : bms'.framesSeen = bms.framesSeen

theorem Tally.same {n : Nat} {bms bms' : HaidiBMS capacity} (h : Tally n bms) (hsame : SameReply bms bms') :
    Tally n bms' := by
  have hhead : bms'.head = bms.head := congrArg RingBuffer.front hsame.queue
  refine ⟨by rw [hsame.queue]; exact h.pending, ?_, ?_, ?_⟩
  · rw [hhead, hsame.framesSeen]
    exact h.single
  · rw [hhead, hsame.framesSeen]
    exact h.stream
  · rw [hhead, hsame.framesSeen, hsame.seenMask]
    exact h.paginated

/-! ### One step -/

theorem tally_began (w : World capacity) (hcount : 0 < w.bms.queue.count) : Tally 0 (began w).bms := by
  have hfresh : (began w).bms.framesSeen = 0 ∧ (began w).bms.seenMask = 0 := by
    obtain ⟨_, _, heq⟩ := began_eq w
    rw [heq]
    exact ⟨rfl, rfl⟩
  refine ⟨by rw [(began_same w).queue]; exact hcount, fun _ => hfresh.1, fun _ => by rw [hfresh.1]; rfl, fun _ => ?_⟩
  rw [hfresh.1, counters_eq_empty.mpr hfresh.2]
  exact ⟨rfl, iff_of_false Finset.not_nonempty_empty (Nat.lt_irrefl 0)⟩

theorem tally_push {n : Nat} {bms : HaidiBMS capacity} (h : Tally n bms) (req : Request)
    (room : bms.queue.count < capacity) : Tally n { bms with queue := bms.queue.push req room } := by
  have hhead : bms.head = HaidiBMS.head { bms with queue := bms.queue.push req room } :=
    (bms.queue.front_push req room h.pending).symm
  exact ⟨Nat.succ_pos _, hhead ▸ h.single, hhead ▸ h.stream, hhead ▸ h.paginated⟩

theorem tally_single {n : Nat} {bms : HaidiBMS capacity} (h : Tally n bms)
    (hsingle : (multiframeInfo bms.head.id).multi = false) : Tally (n + 1) bms where
  pending := h.pending
  single := h.single
  stream := fun hstream => absurd (hsingle.symm.trans (multi_of_streaming hstream).2) Bool.false_ne_true
  paginated := fun hpaged => absurd (hsingle.symm.trans hpaged.1) Bool.false_ne_true

theorem tally_collect {n : Nat} {bms : HaidiBMS capacity} (h : Tally n bms) (data : DataBytes)
    (hpaged : (multiframeInfo bms.head.id).paginated) (hrange : ¬ data[0] > maxFrameIndex) :
    Tally (n + 1) (collect bms bms.head.id data) := by
  have hsame := collect_same bms bms.head.id data
  have hcounts := collect_counts bms bms.head.id data hrange (h.paginated hpaged).1
  refine ⟨by rw [hsame.queue]; exact h.pending, ?_, ?_, fun _ => ⟨hcounts.2, ?_⟩⟩
  · rw [hsame.head]
    exact fun hsingle => absurd (hsingle.symm.trans hpaged.1) Bool.false_ne_true
  · rw [hsame.head]
    exact fun hstream => absurd (hpaged.2.symm.trans hstream) Bool.false_ne_true
  · rw [hcounts.1]
    exact iff_of_true (Finset.insert_nonempty _ _) (Nat.succ_pos n)

theorem tally_fileStream {n : Nat} {bms : HaidiBMS capacity} (h : Tally n bms) (data : DataBytes)
    (hid : bms.head.id = .faultRecords) : Tally (n + 1) (fileStream bms data) := by
  have hkind : multiframeInfo (fileStream bms data).head.id = multiframeInfo .faultRecords :=
    congrArg multiframeInfo hid
  refine ⟨h.pending, fun hsingle => ?_, fun _ => ?_, fun hpaged => ?_⟩
  · rw [hkind, multiframeInfo_faultRecords.1] at hsingle
    cases hsingle
  · have hcount : bms.framesSeen.toNat = n % 256 := h.stream (by rw [hid]; exact multiframeInfo_faultRecords.2)
    change (bms.framesSeen + 1).toNat = (n + 1) % 256
    rw [UInt8.toNat_add, hcount]
    change (n % 256 + 1) % 256 = (n + 1) % 256
    omega
  · rw [MultiFrameInfo.paginated, hkind, multiframeInfo_faultRecords.2] at hpaged
    cases hpaged.2

/-! ### Runs -/

/-- A handler is called: the request in flight and its reply are as the log tells. -/
def AtInvocation (past : List (Entry capacity)) (entry : Entry capacity) : Prop :=
  entry.obs.isInvocation = true → (entry.bms.state = .awaiting → Tally (replies past) entry.bms) ∧
    (entry.bms.state = .awaiting → 0 < entry.bms.queue.count) ∧
      ∀ req ∈ entry.bms.queue.contents, isKnownDataId req.id = true

/-- The session counts the reply it is waiting for, and does whenever a handler is called. -/
abbrev Counting (w : World capacity) : Prop := Watched (fun log => Tally (replies log)) AtInvocation w

theorem counting_watch : Watch (fun (log : List (Entry capacity)) => Tally (replies log)) AtInvocation where
  same := fun h hsame => h.same ⟨hsame.queue, hsame.state, hsame.seenMask, hsame.framesSeen⟩
  push := fun req room _ h => tally_push h req room
  aside := by
    intro past bms entry haside h
    rw [replies_aside haside]
    exact h
  began := tally_began
  single := tally_single
  collect := fun data h hpaged hrange _ => tally_collect h data hpaged hrange
  file := fun data h hid => tally_fileStream h data hid
  expired := by
    rintro past bms ⟨at', obs⟩ rfl h
    exact h
  permits := by
    rintro past ⟨bms, obs⟩ hroutine hobs
    cases obs with
    | invoked => cases hroutine
    | _ => cases hobs
  invoke := fun _ _ _ h _ => ⟨h.told, h.pending, h.known⟩
  reject := fun _ _ _ _ hobs => nomatch hobs
  deliver := fun _ _ _ hobs => nomatch hobs
  finish := fun _ _ _ hobs => nomatch hobs

/-- A handler finds the session counting. -/
theorem Counting.invoked {w : World capacity} (h : Counting w) {later : List (Entry capacity)} {entry : Entry capacity}
    {past : List (Entry capacity)} (hlog : w.log = later ++ entry :: past) (hobs : entry.obs.isInvocation = true) :
    Counting ⟨entry.bms, entry :: past⟩ := by
  obtain ⟨hpermitted, hpast⟩ := (hlog ▸ h.permitted : History.Everywhere _ (later ++ entry :: past)).past (List.suffix_append _ _)
  obtain ⟨htold, hpending, hknown⟩ := hpermitted hobs
  have haside : entry.obs.isAside = true := by
    obtain ⟨bms, obs⟩ := entry
    cases obs <;> first | rfl | cases hobs
  exact Watched.log counting_watch (w := ⟨entry.bms, past⟩) ⟨htold, hpending, hknown, hpast⟩ entry.obs haside hpermitted

/-! ### What the tick does -/

/-- The tick ends the request in flight with what has come of its reply: a stream as truncated, any other as answered. -/
def EndsReply {C : Type} (env : Env capacity C) (w : World capacity) (nowMs : UInt32) : Prop :=
  ∃ event : Event, tick env w nowMs = complete (emit env ((ticked w nowMs).note .expired) event) ∧
    event.id = w.bms.head.id ∧
    if w.bms.head.id = .faultRecords then event.kind = .protocolError ∧ event.error = .truncated
    else event.kind = .response

/-- The reply comes in several frames and is no stream that has come to a multiple of 256. -/
def ShowsReply (n : Nat) (id : DataId) : Prop :=
  (multiframeInfo id).multi = true ∧ (id = .faultRecords → n % 256 ≠ 0)

/-- A tick made while the deadline is passed, with frames of the reply accepted, ends the request with them exactly when the reply shows. -/
def DecidesReply {C : Type} (env : Env capacity C) (w : World capacity) : Prop :=
  ∀ nowMs, w.overdueAt nowMs = true → 0 < replies w.log →
    (EndsReply env w nowMs ↔ ShowsReply (replies w.log) w.bms.head.id)

theorem finishMulti_response {C : Type} (env : Env capacity C) (w : World capacity) {id : DataId}
    (h : (multiframeInfo id).paginated) :
    ∃ event : Event, finishMulti env w id = complete (emit env w event) ∧ event.id = id ∧ event.kind = .response := by
  unfold finishMulti
  dsimp only
  obtain ⟨payload, hpayload⟩ := decodeMulti_isSome h (w.bms.assembly.toList.drop (payloadWindow w.bms id).1)
    (payloadWindow w.bms id).2
  rw [hpayload]
  exact ⟨_, rfl, rfl, rfl⟩

section

variable {env : Env capacity Call} {w : World capacity} {nowMs : UInt32}

theorem tick_paginated (hdue : w.overdueAt nowMs = true) (hpaged : (multiframeInfo w.bms.head.id).paginated)
    (hseen : w.bms.framesSeen ≠ 0) : EndsReply env w nowMs := by
  have hid : w.bms.head.id ≠ .faultRecords := fun hid =>
    absurd (hpaged.2.symm.trans (hid ▸ multiframeInfo_faultRecords.2)) Bool.false_ne_true
  obtain ⟨event, heq, hevent, hkind⟩ := finishMulti_response env ((ticked w nowMs).note .expired) hpaged
  refine ⟨event, ?_, hevent, by rw [if_neg hid]; exact hkind⟩
  rw [tick_overdue, if_pos hdue, ← heq, lapse]
  exact if_pos ⟨hpaged.1, (Bool.not_eq_true' _).mpr hpaged.2, UInt8.pos_iff_ne_zero.mpr hseen⟩

theorem tick_stream (hdue : w.overdueAt nowMs = true) (hid : w.bms.head.id = .faultRecords)
    (hseen : w.bms.framesSeen ≠ 0) : EndsReply env w nowMs := by
  refine ⟨{ kind := .protocolError, id := w.bms.head.id, error := .truncated, frames := w.bms.framesSeen }, ?_, rfl,
    by rw [if_pos hid]; exact ⟨rfl, rfl⟩⟩
  have hstream : (multiframeInfo w.bms.head.id).streaming = true := hid ▸ multiframeInfo_faultRecords.2
  rw [tick_overdue, if_pos hdue, lapse]
  refine (if_neg fun h => ?_).trans (if_pos ⟨hstream, UInt8.pos_iff_ne_zero.mpr hseen⟩)
  exact absurd (hstream.symm.trans ((Bool.not_eq_true' _).mp h.2.1)) (by decide)

/-- Where no reply has been counted the tick retries or gives up. -/
theorem tick_unanswered (hdue : w.overdueAt nowMs = true) (hseen : w.bms.framesSeen = 0) :
    let late := (ticked w nowMs).note .expired
    tick env w nowMs =
      if w.bms.retries < w.bms.maxRetries then
        transmit ((late.note .retrying).modify fun bms => { bms with retries := bms.retries + 1 })
      else complete (emit env late { kind := .timeout, id := w.bms.head.id, retries := w.bms.retries }) := by
  have hnone : ¬ w.bms.framesSeen > 0 := by
    rw [hseen]
    decide
  rw [tick_overdue, if_pos hdue]
  exact (if_neg fun h => hnone h.2.2).trans (if_neg fun h => hnone h.2)

/-- So it ends nothing with what has come. -/
theorem not_endsReply (henv : ∀ w c, w.log <:+ (env.perform w c).log) (hdue : w.overdueAt nowMs = true)
    (hseen : w.bms.framesSeen = 0) : ¬ EndsReply env w nowMs := by
  rintro ⟨event, heq, -, hkind⟩
  have hevent : event.kind ≠ .timeout := by
    split_ifs at hkind
    · rw [hkind.1]
      decide
    · rw [hkind]
      decide
  let late := (ticked w nowMs).note .expired
  -- The entry behind the deadline's tells what the tick did.
  have hraised : (⟨late.bms, .raised event⟩ : Entry capacity) :: late.log <:+ (tick env w nowMs).log := by
    rw [heq]
    exact (raised_past env henv late event).trans (complete_past _)
  have hnext : ∀ entry : Entry capacity, entry :: late.log <:+ (tick env w nowMs).log → entry.obs = .raised event := by
    intro entry hentry
    have := (List.suffix_of_suffix_length_le hentry hraised le_rfl).eq_of_length rfl
    exact congrArg Entry.obs (List.cons.inj this).1
  rw [tick_unanswered hdue hseen] at hnext
  split_ifs at hnext with hretry
  · refine absurd (hnext ⟨late.bms, .retrying⟩ ?_) (by simp)
    exact transmit_past (World.modify (late.note .retrying) _)
  · refine absurd (hnext ⟨late.bms, .raised { kind := .timeout, id := w.bms.head.id, retries := w.bms.retries }⟩ ?_) ?_
    · exact (raised_past env henv late _).trans (complete_past _)
    · intro heq
      exact hevent ((Obs.raised.inj heq) ▸ rfl)

theorem endsReply_iff (henv : ∀ w c, w.log <:+ (env.perform w c).log) {n : Nat} (hn : 0 < n)
    (hdue : w.overdueAt nowMs = true) (htally : Tally n w.bms) : EndsReply env w nowMs ↔ ShowsReply n w.bms.head.id := by
  have hnone := not_endsReply henv hdue
  cases hmulti : (multiframeInfo w.bms.head.id).multi with
  | false =>
      refine iff_of_false (hnone (htally.single hmulti)) fun hshows => ?_
      exact absurd (hmulti.symm.trans hshows.1) Bool.false_ne_true
  | true =>
      cases hkind : (multiframeInfo w.bms.head.id).streaming with
      | false =>
          obtain ⟨hcard, hany⟩ := htally.paginated ⟨hmulti, hkind⟩
          have hseen : w.bms.framesSeen ≠ 0 := by
            intro hzero
            rw [hzero] at hcard
            exact absurd hcard.symm (Finset.card_pos.mpr (hany.mpr hn)).ne'
          refine iff_of_true (tick_paginated hdue ⟨hmulti, hkind⟩ hseen) ⟨hmulti, fun hid => ?_⟩
          exact absurd (hkind.symm.trans (hid ▸ multiframeInfo_faultRecords.2)) Bool.false_ne_true
      | true =>
          have hid := (multi_of_streaming hkind).1
          have hcount := htally.stream hkind
          by_cases hwrap : n % 256 = 0
          · have hzero : w.bms.framesSeen = 0 := UInt8.toNat_inj.mp (hcount.trans hwrap)
            exact iff_of_false (hnone hzero) fun hshows => hshows.2 hid hwrap
          · have hseen : w.bms.framesSeen ≠ 0 := fun hzero => hwrap (hcount.symm.trans (by rw [hzero]; rfl))
            exact iff_of_true (tick_stream hdue hid hseen) ⟨hmulti, fun _ => hwrap⟩

/-- A session that counts decides by what has come. -/
theorem Counting.decides (h : Counting w) (henv : ∀ w c, w.log <:+ (env.perform w c).log) : DecidesReply env w :=
  fun _ hdue hreplies => endsReply_iff henv hreplies hdue (h.told (World.overdueAt_iff.mp hdue).1)

end

/-- Whatever is called, at whatever depth: a tick made while the deadline is passed, with frames of the reply accepted, ends the request with what has come exactly when the reply comes in several frames and is no stream that has come to a multiple of 256. So does one that a handler makes, after any other calls. -/
theorem tick_ends_reply_iff (react : World capacity → Handler → Event → List Call) (nesting : Nat)
    (hostAddress : HostAddress) (bmsAddress : UInt8) (calls : List Call) :
    let w := run (.nested react nesting) (World.new hostAddress bmsAddress) calls
    DecidesReply (.nested react nesting) w ∧
      History.Everywhere (fun past entry => entry.obs.isInvocation = true → ∀ depth made,
        DecidesReply (.nested react depth) (run (.nested react depth) ⟨entry.bms, entry :: past⟩ made)) w.log := by
  intro w
  have hcounting : Counting w := counting_watch.run react nesting hostAddress bmsAddress calls
  refine ⟨hcounting.decides (nested_past react nesting), History.everywhere_iff.mpr ?_⟩
  intro later entry past hlog hobs depth made
  exact Counting.decides (counting_watch.run_from react depth (hcounting.invoked hlog hobs) made) (nested_past react depth)

/-! ### A stream of 256 frames -/

theorem onFrame_stream {C : Type} (env : Env capacity C) (w : World capacity) (frame : MessageBytes)
    (hstate : w.bms.state = .awaiting) (haddress : frame[msgAddressIndex] = w.bms.bmsAddress)
    (hid : frame[msgDataIdIndex] = DataId.faultRecords) (hhead : w.bms.head.id = .faultRecords) :
    onFrame env w frame = handleStream env w .faultRecords (dataOf frame) := by
  unfold onFrame
  dsimp only
  rw [if_neg (not_not.mpr hstate), if_neg (not_not.mpr haddress), hid, if_neg (not_not.mpr hhead.symm)]
  rfl

def streamFrame : MessageBytes := encode bmsAddress .faultRecords (Vector.replicate dataLen 0)

/-- Handlers that do nothing. -/
def idleHandlers : Env capacity Call := .nested (fun _ _ _ => []) 0

/-- The fault records are asked for, nobody listens, and a frame arrives. -/
def askAndHear : List Call := [.setTxHandler (some 1) 0, .poll .faultRecords none 0, .feed streamFrame.toList]

def hearing : World capacity := run idleHandlers (World.new .comp bmsAddress) askAndHear

/-- The session as it was then, but for what it has read of the stream since. -/
def heard (parser : FrameParser) (record : Vector UInt8 faultBufferLen) (recordLen : Nat) (framesSeen : UInt8) :
    HaidiBMS capacity :=
  { hearing.bms with parser, record, recordLen, framesSeen }

/-- The stream has gone on to `n` frames. -/
structure Streaming (n : Nat) (w : World 24) : Prop where
  bms : ∃ parser record recordLen, parser.held = [] ∧ w.bms = heard parser record recordLen (UInt8.ofNat n)
  replies : replies w.log = n

theorem streaming_hearing : Streaming 1 hearing :=
  ⟨⟨hearing.bms.parser, hearing.bms.record, hearing.bms.recordLen, by decide, rfl⟩, by decide⟩

theorem hearing_state : (hearing : World 24).bms.state = .awaiting := by decide

theorem hearing_head : (hearing : World 24).bms.head = request .faultRecords none 0 := by decide

theorem hearing_address : (hearing : World 24).bms.bmsAddress = bmsAddress := by decide

theorem hearing_unheard : (hearing : World 24).bms.owner.bind Request.handler = none := by decide

theorem deliverRecord_streaming {n : Nat} {w : World 24} (h : Streaming n w) :
    Streaming n (deliverRecord idleHandlers w .faultRecords) := by
  obtain ⟨⟨parser, record, recordLen, hparser, hbms⟩, hreplies⟩ := h
  rcases deliverRecord_cases idleHandlers w .faultRecords with ⟨value, heq⟩ | heq <;> rw [heq]
  · rw [emit_unheard _ _ _ (by rw [hbms]; exact hearing_unheard) (by rw [hbms]; rfl)]
    exact ⟨⟨parser, record, 0, hparser, by rw [World.modify_bms, World.note_bms, World.note_bms, hbms]; rfl⟩, hreplies⟩
  · exact ⟨⟨parser, record, 0, hparser, by rw [World.modify_bms, hbms]; rfl⟩, hreplies⟩

theorem resume_streaming {n : Nat} {w : World 24} (h : Streaming n w) : Streaming n (resume w) := by
  obtain ⟨⟨parser, record, recordLen, hparser, hbms⟩, hreplies⟩ := h
  unfold resume
  rw [if_neg (not_not.mpr (by rw [hbms]; exact hearing_state))]
  exact ⟨⟨parser, record, recordLen, hparser, by rw [armInterframe, World.modify_bms, hbms]; rfl⟩, hreplies⟩

theorem handleStream_streaming {n : Nat} {w : World 24} (h : Streaming n w) :
    Streaming (n + 1) (handleStream idleHandlers w .faultRecords (dataOf streamFrame)) := by
  obtain ⟨⟨parser, record, recordLen, hparser, hbms⟩, hreplies⟩ := h
  have hfiled : Streaming (n + 1) ((w.note .accepted).modify fun bms => fileStream bms (dataOf streamFrame)) := by
    refine ⟨⟨parser, (appendRecord record recordLen (dataOf streamFrame)).1,
      (appendRecord record recordLen (dataOf streamFrame)).2, hparser, ?_⟩, congrArg (· + 1) hreplies⟩
    rw [World.modify_bms, World.note_bms, hbms, UInt8.ofNat_add]
    rfl
  unfold handleStream
  dsimp only
  rw [if_neg (by decide)]
  split_ifs
  · exact resume_streaming (deliverRecord_streaming hfiled)
  · exact resume_streaming hfiled

theorem feed_streaming {n : Nat} {w : World 24} (h : Streaming n w) :
    Streaming (n + 1) (feed idleHandlers w streamFrame.toList) := by
  obtain ⟨⟨parser, record, recordLen, hparser, hbms⟩, hreplies⟩ := h
  obtain ⟨parser', hparser', hfeed⟩ := feed_frame idleHandlers w (by rw [hbms]; exact hparser) streamFrame
    (by decide) (by decide) (by decide)
  rw [hfeed, onFrame_stream _ _ _ (by rw [World.modify_bms, hbms]; exact hearing_state)
    (by rw [World.modify_bms, hbms]; exact hearing_address.symm) (by decide)
    (by rw [World.modify_bms, hbms]; exact congrArg Request.id hearing_head)]
  exact handleStream_streaming ⟨⟨parser', record, recordLen, hparser', by rw [World.modify_bms, hbms]; rfl⟩, hreplies⟩

theorem run_streaming (n : Nat) {m : Nat} {w : World 24} (h : Streaming m w) :
    Streaming (m + n) (run idleHandlers w (List.replicate n (.feed streamFrame.toList))) := by
  induction n generalizing m w with
  | zero => exact h
  | succ n ih =>
      rw [List.replicate_succ, run, List.foldl_cons, Nat.add_comm n 1, ← Nat.add_assoc]
      exact ih (feed_streaming h)

/-- The tick that finds the stream quiet at a multiple of 256 asks for it again. -/
theorem tick_streaming {w : World 24} (h : Streaming 256 w) :
    replies (tick idleHandlers w 250).log = 256 ∧ ((tick idleHandlers w 250).log.map Entry.obs).take 3 =
      [.sent 1 0 (encode .comp .faultRecords (Vector.replicate dataLen 0)), .retrying, .expired] := by
  obtain ⟨⟨parser, record, recordLen, -, hbms⟩, hreplies⟩ := h
  have hdeadline : expired 250 (hearing : World 24).bms.deadlineMs = true := by decide
  have hretries : (hearing : World 24).bms.retries < (hearing : World 24).bms.maxRetries := by decide
  have hwired : (hearing : World 24).bms.txFn = some 1 := by decide
  have hframe : encode (hearing : World 24).bms.hostAddress (hearing : World 24).bms.head.id (hearing : World 24).bms.head.data =
      encode .comp .faultRecords (Vector.replicate dataLen 0) := by decide
  have hctx : (hearing : World 24).bms.txCtx = 0 := by decide
  have hdue : w.overdueAt 250 = true :=
    World.overdueAt_iff.mpr ⟨by rw [hbms]; exact hearing_state, by rw [hbms]; exact hdeadline⟩
  have htick := @tick_unanswered 24 idleHandlers w 250 hdue (by rw [hbms]; rfl)
  dsimp only [ticked] at htick
  rw [if_pos (by rw [hbms]; exact hretries), @transmit_wired _ _ 1
    (by rw [World.modify_bms, World.note_bms, World.note_bms, World.modify_bms, hbms]; exact hwired)] at htick
  rw [htick]
  refine ⟨hreplies, ?_⟩
  rw [← hctx, ← hframe]
  dsimp only [World.modify_log, World.note_log, World.modify_bms, World.note_bms, List.map_cons]
  rw [hbms]
  rfl

/-- A stream of 256 frames goes quiet, and the tick at its deadline asks for all of it again. -/
theorem tick_resends_stream :
    let w : World 24 := run idleHandlers (World.new .comp bmsAddress)
      (askAndHear ++ (List.replicate 255 (.feed streamFrame.toList) ++ [.tick 250]))
    replies w.log = 256 ∧ (w.log.map Entry.obs).take 3 =
      [.sent 1 0 (encode .comp .faultRecords (Vector.replicate dataLen 0)), .retrying, .expired] := by
  have hstream : Streaming 256 (run idleHandlers (hearing : World 24) (List.replicate 255 (.feed streamFrame.toList))) :=
    run_streaming 255 streaming_hearing
  have htick : ∀ w : World 24, run idleHandlers w [.tick 250] = tick idleHandlers w 250 := fun _ => rfl
  have hhearing : run idleHandlers (World.new .comp bmsAddress) askAndHear = (hearing : World 24) := rfl
  rw [run_append, run_append, htick, hhearing]
  exact tick_streaming hstream

end Haidi
