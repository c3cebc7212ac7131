import ShairportSync.Rtsp.PlayLock

/-!
# The request handlers

The handlers of the RTSP requests that have to do with the player, as programs of the
conversation thread: ANNOUNCE, the classic and the AirPlay 2 SETUP, RECORD, FLUSH and
TEARDOWN, and the clean-up at the end of the thread. Each returns its response code. A
request comes with what its handler finds in its headers and content.

What a handler does to sockets, timing, metadata and the mDNS record is left out.
-/

namespace ShairportSync

namespace Rtsp

open Concurrency Concurrency.Prog
open Player (Bytes)

/-! ## The player thread -/

def OwnFields.playerPlay (own : OwnFields) : OwnFields := { own with playerThread := true }

def OwnFields.playerStop (own : OwnFields) : OwnFields := { own with playerThread := false }

/-! ## ANNOUNCE -/

/-- What `handle_announce` finds in the content: the attributes `a=rtpmap:96
L16/44100/2`, `a=min-latency:`, `a=max-latency:`, `a=aesiv:` as it is decoded,
`a=rsaaeskey:` as it is decrypted, and the numbers of `a=fmtp:`. -/
structure AnnounceContent where
  uncompressedCDAudio : Bool
  minLatency : Option (BitVec 32)
  maxLatency : Option (BitVec 32)
  aesiv : Option Bytes
  aeskey : Option Bytes
  fmtp : Option (List (BitVec 32))

/-- "Set reasonable connection defaults". -/
def defaultFmtp : List (BitVec 32) := [96, 352, 0, 16, 40, 10, 14, 2, 255, 0, 0, 44100]

def OwnFields.setInputFormat (maxFramesPerPacket inputRate numChannels bitDepth : BitVec 32)
    (own : OwnFields) : OwnFields :=
  { own with
    maxFramesPerPacket := maxFramesPerPacket
    inputRate := inputRate
    inputNumChannels := numChannels
    inputBitDepth := bitDepth
    inputBytesPerFrame := numChannels * ((bitDepth + 7) / 8) }

def OwnFields.setAlac (fmtp : List (BitVec 32)) (own : OwnFields) : OwnFields :=
  { own with stream := { own.stream with type := .astAppleLossless, fmtp := fmtp } }
    |>.setInputFormat (fmtp.getD 1 0) (fmtp.getD 11 0) (fmtp.getD 7 0) (fmtp.getD 3 0)

/-- The part of `handle_announce` after the keys. -/
def announceFormat (content : AnnounceContent) (own : OwnFields) : ℕ × OwnFields :=
  let own :=
    match content.fmtp with
    | none => own
    | some fmtp => own.setAlac (fmtp.take 12 ++ defaultFmtp.drop fmtp.length)
  if own.stream.type = .astUnknown then (456, own) else (200, own)

/-- The part of `handle_announce` that takes the initialisation vector and the key. -/
def announceKeys (content : AnnounceContent) (own : OwnFields) : ℕ × OwnFields :=
  match content.aesiv, content.aeskey with
  | none, none =>
      announceFormat content { own with stream := { own.stream with encrypted := false } }
  | some aesiv, some aeskey =>
      let own := { own with stream := { own.stream with encrypted := true } }
      if aesiv.length ≠ 16 then (456, own)
      else
        let own := { own with stream := { own.stream with aesiv := aesiv } }
        if aeskey.length ≠ 16 then (456, own)
        else announceFormat content { own with stream := { own.stream with aeskey := aeskey } }
  | _, _ => (456, own)

/-- The part of `handle_announce` before the keys: the type of the stream, and the latencies. -/
def announceStart (cfg : Config) (content : AnnounceContent) (own : OwnFields) : OwnFields :=
  let own := if cfg.airplay2 then { own with airplayType := .ap1 } else own
  let own := { own with stream := { own.stream with type := .astUnknown } }
  let own :=
    if content.uncompressedCDAudio then
      { own with stream := { own.stream with type := .astUncompressed } }
        |>.setInputFormat 352 44100 2 16
    else own
  { own with
    minimumLatency := content.minLatency.getD own.minimumLatency
    maximumLatency := content.maxLatency.getD own.maximumLatency }

/-- What `handle_announce` does to the connection once it goes on, and its response code. -/
def announce (cfg : Config) (content : AnnounceContent) (own : OwnFields) : ℕ × OwnFields :=
  announceKeys content (announceStart cfg content own)

def AnnounceContent.keysAcceptable (content : AnnounceContent) : Bool :=
  match content.aesiv, content.aeskey with
  | none, none => true
  | some aesiv, some aeskey => aesiv.length == 16 && aeskey.length == 16
  | _, _ => false

def AnnounceContent.acceptable (content : AnnounceContent) : Bool :=
  content.keysAcceptable && (content.uncompressedCDAudio || content.fmtp.isSome)

/-- What an ANNOUNCE makes of the connection: its thread and its player are as they were, and
the response code is 200 exactly if what it names is accepted. -/
structure Announced (own : OwnFields) (accepted : Bool) (answer : ℕ × OwnFields) : Prop where
  stage : answer.2.stage = own.stage
  playerThread : answer.2.playerThread = own.playerThread
  respcode : answer.1 = if accepted then 200 else 456

theorem Announced.of_eq {own own' : OwnFields} {accepted : Bool} {answer : ℕ × OwnFields}
    (h : Announced own' accepted answer) (hstage : own'.stage = own.stage)
    (hplayer : own'.playerThread = own.playerThread) : Announced own accepted answer :=
  ⟨h.stage.trans hstage, h.playerThread.trans hplayer, h.respcode⟩

theorem announced_refused (own : OwnFields) : Announced own false (456, own) := ⟨rfl, rfl, rfl⟩

theorem announced_announceFormat (content : AnnounceContent) (own : OwnFields) :
    Announced own (own.stream.type != .astUnknown || content.fmtp.isSome)
      (announceFormat content own) := by
  unfold announceFormat
  cases content.fmtp with
  | none =>
      dsimp only
      by_cases htype : own.stream.type = .astUnknown
      · rw [if_pos htype, htype]
        exact announced_refused own
      · rw [if_neg htype, bne_iff_ne.mpr htype]
        exact ⟨rfl, rfl, rfl⟩
  | some fmtp =>
      rw [Option.isSome_some, Bool.or_true]
      exact ⟨rfl, rfl, rfl⟩

theorem announced_announceKeys (content : AnnounceContent) (own : OwnFields) :
    Announced own
      (content.keysAcceptable && (own.stream.type != .astUnknown || content.fmtp.isSome))
      (announceKeys content own) := by
  unfold announceKeys AnnounceContent.keysAcceptable
  have hformat : ∀ stream : StreamCfg, stream.type = own.stream.type →
      Announced own (own.stream.type != .astUnknown || content.fmtp.isSome)
        (announceFormat content { own with stream := stream }) := by
    intro stream htype
    rw [← htype]
    exact (announced_announceFormat content { own with stream := stream }).of_eq rfl rfl
  rcases content.aesiv with _ | aesiv <;> rcases content.aeskey with _ | aeskey
  · exact hformat { own.stream with encrypted := false } rfl
  · exact announced_refused own
  · exact announced_refused own
  · dsimp only
    by_cases haesiv : aesiv.length = 16
    · by_cases haeskey : aeskey.length = 16
      · rw [if_neg (not_not.mpr haesiv), if_neg (not_not.mpr haeskey), haesiv, haeskey]
        exact hformat { own.stream with encrypted := true, aesiv := aesiv, aeskey := aeskey } rfl
      · rw [if_neg (not_not.mpr haesiv), if_pos haeskey, beq_false_of_ne haeskey, Bool.and_false]
        exact ⟨rfl, rfl, rfl⟩
    · rw [if_pos haesiv, beq_false_of_ne haesiv]
      exact ⟨rfl, rfl, rfl⟩

theorem announced_announce (cfg : Config) (content : AnnounceContent) (own : OwnFields) :
    Announced own content.acceptable (announce cfg content own) := by
  have hstart : (announceStart cfg content own).stage = own.stage ∧
      (announceStart cfg content own).playerThread = own.playerThread ∧
      ((announceStart cfg content own).stream.type != .astUnknown) =
        content.uncompressedCDAudio := by
    unfold announceStart
    cases cfg.airplay2 <;> cases content.uncompressedCDAudio <;> exact ⟨rfl, rfl, rfl⟩
  obtain ⟨hstage, hplayer, htype⟩ := hstart
  have hkeys := announced_announceKeys content (announceStart cfg content own)
  rw [htype] at hkeys
  exact hkeys.of_eq hstage hplayer

/-- `handle_announce` after `get_play_lock`. -/
def answerAnnounce (cfg : Config) (c : ConnId) (content : AnnounceContent)
    (getPlayStatus : ℤ) : Prog Shared ℕ :=
  if getPlayStatus ≠ -1 then do
    let respcode ← updateOwn c (announce cfg content)
    if respcode ≠ 200 ∧ respcode ≠ 453 then do
      releasePlayLock c
      pure respcode
    else pure respcode
  else pure 453

def handleAnnounce (cfg : Config) (c : ConnId) (content : AnnounceContent) : Prog Shared ℕ := do
  let getPlayStatus ← getPlayLock (some c) cfg.allowSessionInterruption
  answerAnnounce cfg c content getPlayStatus

/-! ## Classic SETUP, RECORD, FLUSH and TEARDOWN -/

/-- The ports in the Transport header, if there is one, and the audio port after `rtp_setup`. -/
structure SetupHeaders where
  controlPort : Option ℕ
  timingPort : Option ℕ
  localAudioPort : ℕ

def SetupHeaders.acceptable (headers : SetupHeaders) : Bool :=
  headers.controlPort.isSome && headers.timingPort.isSome && headers.localAudioPort != 0

def handleSetup (c : ConnId) (headers : SetupHeaders) : Prog Shared ℕ := do
  let havePlayLock ← havePlayLock c
  if havePlayLock then
    if headers.acceptable then pure 200
    else do
      releasePlayLock c
      pure 451
  else pure 451

def handleRecord (c : ConnId) : Prog Shared ℕ := do
  let havePlayLock ← havePlayLock c
  if havePlayLock then do
    modifyOwn c fun own => if own.playerThread then own else own.playerPlay
    pure 200
  else pure 451

def handleFlush (c : ConnId) : Prog Shared ℕ := do
  let havePlayLock ← havePlayLock c
  if havePlayLock then pure 200 else pure 451

def teardown (c : ConnId) : Prog Shared Unit := modifyOwn c OwnFields.playerStop

def handleTeardown (c : ConnId) : Prog Shared ℕ := do
  let havePlayLock ← havePlayLock c
  if havePlayLock then do
    teardown c
    releasePlayLock c
    pure 200
  else pure 451

/-! ## The other conversation threads -/

def Shared.slot (s : Shared) (i : ℕ) : Option ConnId := s.connTable.getD i none

/-- `cancel_all_RTSP_threads` goes for this connection. -/
def Shared.eligible (s : Shared) (streamCategory : StreamCategory) (exceptThisOne d : ConnId) :
    Bool :=
  (s.conns d).running && decide (d ≠ exceptThisOne) &&
    (decide (streamCategory = .unspecifiedStreamCategory) ||
      decide (streamCategory = (s.conns d).own.airplayStreamCategory))

def Shared.lockConns (s : Shared) : Shared := { s with connsLocked := true }

def Shared.unlockConns (s : Shared) : Shared := { s with connsLocked := false }

def Shared.freeSlot (s : Shared) (i : ℕ) (d : ConnId) : Shared :=
  { s.setConn d { s.conns d with freed := true } with connTable := s.connTable.set i none }

def cancelSlot (streamCategory : StreamCategory) (exceptThisOne : ConnId) (i : ℕ) :
    Prog Shared Unit :=
  modify fun s =>
    match s.slot i with
    | none => s
    | some d =>
        if s.eligible streamCategory exceptThisOne d then
          s.setConn d { s.conns d with cancelRequested := true }
        else s

def joinSlot (streamCategory : StreamCategory) (exceptThisOne : ConnId) (i : ℕ) :
    Prog Shared Unit := do
  let victim ← read fun s => (s.slot i).filter (s.eligible streamCategory exceptThisOne)
  match victim with
  | none => pure ()
  | some d => await (fun s => decide ((s.conns d).own.stage = .exited)) fun s => s.freeSlot i d

def cancelAllRTSPThreads (streamCategory : StreamCategory) (exceptThisOne : ConnId) :
    Prog Shared Unit := do
  await (fun s => !s.connsLocked) Shared.lockConns
  let nconns ← read fun s => s.connTable.length
  forBelow (cancelSlot streamCategory exceptThisOne) nconns
  forBelow (joinSlot streamCategory exceptThisOne) nconns
  modify Shared.unlockConns

/-! ## AirPlay 2 SETUP and TEARDOWN -/

inductive TimingProtocol where
  | ptp
  | ntp
  /-- "None", with the value of `isRemoteControlOnly`. -/
  | none (isRemoteControlOnly : Bool)
  | unknown
deriving DecidableEq

/-- The items of the property list of a SETUP: the type of the first stream if there is a
`streams` array, the timing protocol, and whether there is a `timingPeerInfo`. -/
structure SetupItems where
  streams : Option ℕ
  timingProtocol : Option TimingProtocol
  timingPeerInfo : Bool

def OwnFields.setCategory (category : StreamCategory) (own : OwnFields) : OwnFields :=
  { own with airplayStreamCategory := category }

/-- The SETUP of a session, without a `streams` array. -/
def setupSession (c : ConnId) (items : SetupItems) : Prog Shared ℕ := do
  modifyOwn c (OwnFields.setCategory .unspecifiedStreamCategory)
  match items.timingProtocol with
  | some .ptp => do
      modifyOwn c (OwnFields.setCategory .ptpStream)
      -- "airplay 2 always allows interruption"; the response is not looked at
      let _ ← getPlayLock (some c) true
      if items.timingPeerInfo then do
        cancelAllRTSPThreads .unspecifiedStreamCategory c
        pure 200
      else pure 400
  | some .ntp => do
      modifyOwn c (OwnFields.setCategory .ntpStream)
      pure 400
  | some (.none true) => do
      modifyOwn c (OwnFields.setCategory .remoteControlStream)
      cancelAllRTSPThreads .remoteControlStream c
      pure 200
  | some (.none false) => pure 400
  | some .unknown => pure 400
  | none => pure 400

def setupStream (c : ConnId) (type : ℕ) : Prog Shared ℕ := do
  let category ← readOwn c OwnFields.airplayStreamCategory
  if category = .ptpStream then
    if type = 96 then do
      -- "Realtime Audio Stream"
      modifyOwn c fun own => (own.setAlac defaultFmtp).playerPlay
      pure 200
    else if type = 103 then do
      -- "Buffered Audio Stream"
      modifyOwn c fun own => (own.setInputFormat 352 44100 2 16).playerPlay
      pure 200
    else pure 200
  else if category = .remoteControlStream then pure 200
  else pure 400

def handleSetup2 (c : ConnId) (items : SetupItems) : Prog Shared ℕ :=
  match items.streams with
  | none => setupSession c items
  | some type => setupStream c type

def teardownPhaseOne (c : ConnId) : Prog Shared Unit :=
  modifyOwn c fun own => if own.playerThread then own.playerStop else own

def teardownPhaseTwo (c : ConnId) : Prog Shared Unit := do
  let category ← readOwn c OwnFields.airplayStreamCategory
  -- "if we are closing a PTP stream only, do this"
  if category = .ptpStream then releasePlayLock c else pure ()

/-- `handle_teardown_2`; the items say whether there is a `streams` array, if there is a
property list at all. -/
def handleTeardown2 (c : ConnId) (items : Option Bool) : Prog Shared ℕ :=
  match items with
  | none => pure 451
  | some true => do
      teardownPhaseOne c
      pure 200
  | some false => do
      teardownPhaseOne c
      teardownPhaseTwo c
      pure 200

def handleRecord2 : Prog Shared ℕ := pure 200

/-! ## The conversation thread -/

/-- A request, with what either protocol's handler reads of it. -/
inductive Request where
  | announce (content : AnnounceContent)
  | setup (headers : SetupHeaders) (items : SetupItems)
  | record
  | flush
  | teardown (items : Option Bool)

/-- The connection's requests go to the classic handlers. -/
def Config.classic (cfg : Config) (own : OwnFields) : Bool :=
  !cfg.airplay2 || decide (own.airplayType = .ap1)

/-- The handler that the table of methods gives. -/
def selectHandler (cfg : Config) (c : ConnId) (classic : Bool) : Request → Prog Shared ℕ
  | .announce content => handleAnnounce cfg c content
  | .setup headers items => if classic then handleSetup c headers else handleSetup2 c items
  | .record => if classic then handleRecord c else handleRecord2
  | .flush => handleFlush c
  | .teardown items => if classic then handleTeardown c else handleTeardown2 c items

def handleRequest (cfg : Config) (c : ConnId) (req : Request) : Prog Shared Unit := do
  let classic ← readOwn c cfg.classic
  let _ ← selectHandler cfg c classic req
  pure ()

/-- The part of the clean-up that stops the player and gives it back. -/
def cleanupPlayer (cfg : Config) (c : ConnId) : Prog Shared Unit :=
  if cfg.airplay2 then do
    teardownPhaseOne c
    teardownPhaseTwo c
  else do
    let havePlayLock ← havePlayLock c
    if havePlayLock then do
      teardown c
      releasePlayLock c
    else pure ()

def Shared.stopRunning (s : Shared) (c : ConnId) : Shared :=
  s.setConn c { s.conns c with running := false }

/-- `rtsp_conversation_thread_cleanup_function`, and the end of the thread. -/
def conversationCleanup (cfg : Config) (c : ConnId) : Prog Shared Unit := do
  cleanupPlayer cfg c
  modify fun s => s.stopRunning c
  modifyOwn c fun own => { own with stage := .exited }

/-! ## What the handlers leave alone -/

/-- A connection that is over is freed. -/
theorem gains_freeSlot {c d : ConnId} {s : Shared} (i : ℕ)
    (hexited : (s.conns d).own.stage = .exited) : Gains c s (s.freeSlot i d) where
  view := fun e _ => view_setConn s d e rfl
  freed := by
    intro e h
    by_cases he : e = d
    · subst he
      exact Or.inr hexited
    · refine Or.inl ?_
      rw [← setConn_conns_of_ne he s { s.conns d with freed := true }]
      exact h
  own := own_setConn s d c rfl
  keepsPlayer := id

theorem keeps_cancelAllRTSPThreads (streamCategory : StreamCategory) (c : ConnId) :
    Keeps (Gains c) (cancelAllRTSPThreads streamCategory c) := by
  refine (keeps_await fun s _ => ?_).bind fun _ => (keeps_read (gains_refl c) _).bind fun n =>
    (keeps_forBelow (fun i => ?_) n).bind fun _ => (keeps_forBelow (fun i => ?_) n).bind fun _ =>
      keeps_modify fun s => ?_
  · exact { view := fun _ _ => rfl, freed := fun _ h => Or.inl h, own := rfl, keepsPlayer := id }
  · refine keeps_modify fun s => ?_
    split
    · exact gains_refl c s
    · split_ifs
      · exact gains_setConn c _ s rfl rfl
      · exact gains_refl c s
  · refine (keeps_read (gains_refl c) _).bind fun victim => ?_
    cases victim with
    | none => exact keeps_pure ()
    | some d => exact keeps_await fun s hexited => gains_freeSlot i (of_decide_eq_true hexited)
  · exact { view := fun _ _ => rfl, freed := fun _ h => Or.inl h, own := rfl, keepsPlayer := id }

theorem keeps_handleAnnounce (cfg : Config) (c : ConnId) (content : AnnounceContent) :
    Keeps (HandlerFrame c) (handleAnnounce cfg c content) := by
  refine ((keeps_getPlayLock c _).mono fun _ _ h => h.handlerFrame).bind fun status => ?_
  unfold answerAnnounce
  split_ifs
  · refine (keeps_updateOwn c fun own => (announced_announce cfg content own).stage).bind
      fun respcode => ?_
    split_ifs
    · exact (keeps_releasePlayLock c).bind fun _ => keeps_pure _
    · exact keeps_pure _
  · exact keeps_pure _

theorem keeps_setupSession (c : ConnId) (items : SetupItems) :
    Keeps (HandlerFrame c) (setupSession c items) := by
  refine (keeps_modifyOwn c (by exact fun _ => rfl)).bind fun _ => ?_
  split
  · refine (keeps_modifyOwn c (by exact fun _ => rfl)).bind fun _ =>
      ((keeps_getPlayLock c true).mono fun _ _ h => h.handlerFrame).bind fun _ => ?_
    split_ifs
    · exact ((keeps_cancelAllRTSPThreads _ c).mono fun _ _ h => h.handlerFrame).bind fun _ =>
        keeps_pure _
    · exact keeps_pure _
  · exact (keeps_modifyOwn c (by exact fun _ => rfl)).bind fun _ => keeps_pure _
  · exact (keeps_modifyOwn c (by exact fun _ => rfl)).bind fun _ =>
      ((keeps_cancelAllRTSPThreads _ c).mono fun _ _ h => h.handlerFrame).bind fun _ => keeps_pure _
  · exact keeps_pure _
  · exact keeps_pure _
  · exact keeps_pure _

theorem keeps_setupStream (c : ConnId) (type : ℕ) :
    Keeps (HandlerFrame c) (setupStream c type) := by
  refine (keeps_readOwn c _).bind fun category => ?_
  split_ifs
  · exact (keeps_modifyOwn c (by exact fun _ => rfl)).bind fun _ => keeps_pure _
  · exact (keeps_modifyOwn c (by exact fun _ => rfl)).bind fun _ => keeps_pure _
  · exact keeps_pure _
  · exact keeps_pure _
  · exact keeps_pure _

theorem keeps_teardown (c : ConnId) : Keeps (HandlerFrame c) (teardown c) :=
  keeps_modifyOwn c fun _ => rfl

theorem keeps_teardownPhaseOne (c : ConnId) : Keeps (HandlerFrame c) (teardownPhaseOne c) := by
  refine keeps_modifyOwn c fun own => ?_
  split_ifs <;> rfl

theorem keeps_teardownPhaseTwo (c : ConnId) : Keeps (HandlerFrame c) (teardownPhaseTwo c) := by
  refine (keeps_readOwn c _).bind fun category => ?_
  split_ifs
  · exact keeps_releasePlayLock c
  · exact keeps_pure ()

theorem keeps_handleRequest (cfg : Config) (c : ConnId) (req : Request) :
    Keeps (HandlerFrame c) (handleRequest cfg c req) := by
  refine (keeps_readOwn c _).bind fun classic => Keeps.bind ?_ fun _ => keeps_pure ()
  cases req with
  | announce content => exact keeps_handleAnnounce cfg c content
  | setup headers items =>
      dsimp only [selectHandler]
      split_ifs
      · refine (keeps_havePlayLock c).bind fun havePlayLock => ?_
        split_ifs
        · exact keeps_pure _
        · exact (keeps_releasePlayLock c).bind fun _ => keeps_pure _
        · exact keeps_pure _
      · unfold handleSetup2
        split
        · exact keeps_setupSession c items
        · exact keeps_setupStream c _
  | record =>
      dsimp only [selectHandler]
      split_ifs
      · refine (keeps_havePlayLock c).bind fun havePlayLock => ?_
        split_ifs
        · refine (keeps_modifyOwn c fun own => ?_).bind fun _ => keeps_pure _
          split_ifs <;> rfl
        · exact keeps_pure _
      · exact keeps_pure _
  | flush =>
      refine (keeps_havePlayLock c).bind fun havePlayLock => ?_
      split_ifs <;> exact keeps_pure _
  | teardown items =>
      dsimp only [selectHandler]
      split_ifs
      · refine (keeps_havePlayLock c).bind fun havePlayLock => ?_
        split_ifs
        · exact (keeps_teardown c).bind fun _ => (keeps_releasePlayLock c).bind fun _ =>
            keeps_pure _
        · exact keeps_pure _
      · rcases items with _ | _ | _
        · exact keeps_pure _
        · exact (keeps_teardownPhaseOne c).bind fun _ => (keeps_teardownPhaseTwo c).bind fun _ =>
            keeps_pure _
        · exact (keeps_teardownPhaseOne c).bind fun _ => keeps_pure _

theorem keeps_cleanupPlayer (cfg : Config) (c : ConnId) :
    Keeps (HandlerFrame c) (cleanupPlayer cfg c) := by
  unfold cleanupPlayer
  split_ifs
  · exact (keeps_teardownPhaseOne c).bind fun _ => keeps_teardownPhaseTwo c
  · refine (keeps_havePlayLock c).bind fun havePlayLock => ?_
    split_ifs
    · exact (keeps_teardown c).bind fun _ => keeps_releasePlayLock c
    · exact keeps_pure ()

theorem keeps_handleRequest_frame (cfg : Config) (c : ConnId) (req : Request) :
    Keeps (Frame c) (handleRequest cfg c req) :=
  (keeps_handleRequest cfg c req).mono fun _ _ h => h.toFrame

theorem keeps_conversationCleanup (cfg : Config) (c : ConnId) :
    Keeps (Frame c) (conversationCleanup cfg c) := by
  refine ((keeps_cleanupPlayer cfg c).mono fun _ _ h => h.toFrame).bind fun _ =>
    (keeps_modify fun s => ?_).bind fun _ => keeps_modifyGet fun s => frame_setOwn c s _
  have hgains : Gains c s (s.stopRunning c) := gains_setConn c c s rfl rfl
  exact hgains.toFrame

end Rtsp

end ShairportSync
