import ShairportSync.Player.PutPacket

/-!
# `rtp_buffered_audio_processor`

The thread that turns the blocks of an AirPlay 2 buffered stream into packets of 352
frames for the player. Each time round its loop it looks at the flush request and the
play state under the flush mutex (`look`), gives the player a packet or finds that it
needs a block (`supplyPlayer`), and reads and decodes a block (`readBlock`). In flush
mode it gives nothing to the player, and reads on.

Sequence numbers of blocks are 24 bits wide, and the source keeps them in 32-bit
integers. Decryption and the AAC decoder are parameters, and what the loop learns from
clocks, the player and the reader thread are its `LoopReadings`. What is only written to
the debug log is left out.
-/

namespace ShairportSync

namespace BufferedAudio

open Player (RtpTime Nanoseconds Bytes PutArgs)

/-- The flush request and the play state of `rtsp_conn_info`, under the flush mutex. -/
structure Conn where
  ap2FlushRequested : Bool
  ap2FlushFromValid : Bool
  ap2FlushFromRtpTimestamp : RtpTime
  ap2FlushFromSequenceNumber : BitVec 32
  ap2FlushUntilRtpTimestamp : RtpTime
  ap2FlushUntilSequenceNumber : BitVec 32
  ap2PlayEnabled : Bool

/-- The items of a FLUSHBUFFERED request that its property list has. -/
structure FlushItems where
  flushFromSeq : Option (BitVec 64)
  flushFromTS : Option (BitVec 64)
  flushUntilSeq : Option (BitVec 64)
  flushUntilTS : Option (BitVec 64)

/-- `handle_flushbuffered`, for a request whose content is a property list. -/
def handleFlushbuffered (items : FlushItems) (conn : Conn) : Conn :=
  let flushFromValid := items.flushFromSeq.isSome
  -- a deferred request after a deferred request leaves the starting point in place
  let keepStart := conn.ap2FlushRequested && conn.ap2FlushFromValid && flushFromValid
  { ap2FlushRequested := true
    ap2FlushFromValid := flushFromValid
    ap2FlushFromRtpTimestamp :=
      if keepStart then conn.ap2FlushFromRtpTimestamp
      else (items.flushFromTS.getD 0).setWidth 32
    ap2FlushFromSequenceNumber :=
      if keepStart then conn.ap2FlushFromSequenceNumber
      else (items.flushFromSeq.getD 0).setWidth 32
    ap2FlushUntilRtpTimestamp := (items.flushUntilTS.getD 0).setWidth 32
    ap2FlushUntilSequenceNumber := (items.flushUntilSeq.getD 0).setWidth 32
    ap2PlayEnabled := if flushFromValid then conn.ap2PlayEnabled else false }

def setRate (rate : BitVec 64) (conn : Conn) : Conn :=
  { conn with ap2PlayEnabled := rate.getLsbD 0 }

/-- What the processor takes from the connection and does not change. -/
structure Stream where
  inputRate : ℕ
  inputBytesPerFrame : ℕ
  sessionKey : Option Bytes
  connectionStartTime : Nanoseconds

abbrev framesPerPacket : ℕ := 352

def Stream.packetSize (stream : Stream) : ℕ := framesPerPacket * stream.inputBytesPerFrame

def Stream.initialPcmBufferSize (stream : Stream) : ℕ :=
  (1024 + framesPerPacket) * stream.inputBytesPerFrame

/-- The decryption of a block and the AAC decoder behind it, whose state is `σ`. -/
structure Codec (σ : Type) where
  decrypt : (key nonce additionalData ciphertext : Bytes) → Option Bytes
  /-- Decodes a block to the sample buffers that are copied into the pcm buffer. -/
  decode : σ → Bytes → σ × List Bytes

/-- The variables of the loop. The bytes of `pcm_buffer` up to `pcm_buffer_occupancy` are the
list `pcmBuffer`. -/
structure Processor (σ : Type) where
  packet : Bytes
  seqNo : BitVec 32
  timestamp : RtpTime
  newBufferNeeded : Bool
  finished : Bool
  pcmBufferSize : ℕ
  pcmBuffer : Bytes
  pcmBufferReadPoint : ℕ
  pcmBufferReadPointRtptime : RtpTime
  pcmBufferReadPointRtptimeOffset : RtpTime
  blocksRead : ℕ
  blocksReadInSequence : ℕ
  flushRequested : Bool
  packetsPlayedInThisSequence : ℕ
  playEnabled : Bool
  flushFromTimestamp : RtpTime
  codec : σ

/-- The variables as they are initialised; `memory` is what is in the array `packet`. -/
def Processor.start {σ : Type} (stream : Stream) (memory : Bytes) (codec : σ) :
    Processor σ where
  packet := memory
  seqNo := 0
  timestamp := 0
  newBufferNeeded := false
  finished := false
  pcmBufferSize := stream.initialPcmBufferSize
  pcmBuffer := []
  pcmBufferReadPoint := 0
  pcmBufferReadPointRtptime := 0
  pcmBufferReadPointRtptimeOffset := 0
  blocksRead := 0
  blocksReadInSequence := 0
  flushRequested := false
  packetsPlayedInThisSequence := 0
  playEnabled := false
  flushFromTimestamp := 0
  codec := codec

inductive Output where
  | resetBuffer
  | playerPutPacket (a : PutArgs)
deriving DecidableEq

structure LoopReadings where
  playerBufferOccupancy : ℕ
  havePtpTimingInformation : Bool
  /-- `frame_to_local_time` of the read point of the pcm buffer. -/
  bufferShouldBeTime : Option Nanoseconds
  sendTimeNow : Nanoseconds
  /-- What `generate_zero_frames` writes over the 352 frames at the read point. -/
  zeroFrames : Bytes
  /-- What `lread_sized_block` reads: `none` is an error, and nothing that the port has
  been closed. -/
  received : Option Bytes
  /-- `frame_to_local_time` of the block. -/
  localShouldBeTime : Option Nanoseconds
  connectionTimeNow : Nanoseconds
  blockTimeNow : Nanoseconds

variable {σ : Type}

/-! ## The look at the flush request -/

/-- The state after the look, and whether the pending flush is a delayed one. -/
structure Look (σ : Type) where
  conn : Conn
  processor : Processor σ
  flushIsDelayed : Bool
  outputs : List Output

def Conn.flushRequestActive (conn : Conn) (seqNo : BitVec 32) : Bool :=
  conn.ap2FlushRequested &&
    (!conn.ap2FlushFromValid ||
      decide ((conn.ap2FlushFromSequenceNumber - seqNo).toInt ≤ 0))

/-- "we have reached or overshot the flushUntilSeq block". -/
def Conn.flushUntilReached (conn : Conn) (blocksRead : ℕ) (seqNo : BitVec 32) : Bool :=
  decide (blocksRead ≠ 0) && decide (conn.ap2FlushUntilSequenceNumber ≤ seqNo)

/-- Play has been stopped: the sequence ends and the pcm buffer is emptied. -/
def Processor.stopPlay (p : Processor σ) : Processor σ :=
  { p with
    pcmBufferReadPointRtptimeOffset := 0
    blocksReadInSequence := 0
    packetsPlayedInThisSequence := 0
    pcmBuffer := []
    pcmBufferReadPoint := 0 }

def Processor.startFlush (p : Processor σ) : Processor σ :=
  { p with
    packetsPlayedInThisSequence := 0
    pcmBuffer := []
    pcmBufferReadPoint := 0
    pcmBufferReadPointRtptimeOffset := 0 }

/-- "are we in in flush mode, or just about to leave it?" -/
def look (conn : Conn) (p : Processor σ) : Look σ :=
  let flushIsDelayed := conn.ap2FlushRequested && conn.ap2FlushFromValid
  let active := conn.flushRequestActive p.seqNo
  let reached := active && conn.flushUntilReached p.blocksRead p.seqNo
  let flushRequestActive := active && !reached
  let flushNewlyRequested := flushRequestActive && !p.flushRequested
  let playNewlyStopped := p.playEnabled && !conn.ap2PlayEnabled
  let flushNewlyComplete := p.flushRequested && !flushRequestActive
  let p := { p with
    flushFromTimestamp :=
      if flushIsDelayed then conn.ap2FlushFromRtpTimestamp else p.flushFromTimestamp }
  let p := if playNewlyStopped then p.stopPlay else p
  let p := if flushNewlyComplete then { p with blocksReadInSequence := 1 } else p
  let p := { p with flushRequested := flushRequestActive, playEnabled := conn.ap2PlayEnabled }
  { conn := { conn with ap2FlushRequested := conn.ap2FlushRequested && !reached }
    processor := if flushNewlyRequested then p.startFlush else p
    flushIsDelayed := flushIsDelayed
    outputs :=
      (if playNewlyStopped then [.resetBuffer] else []) ++
        if flushNewlyRequested then [.resetBuffer] else [] }

/-! ## The supply of the player -/

def Processor.sendPacket (stream : Stream) (rd : LoopReadings) (p : Processor σ) :
    Processor σ × List Output :=
  -- the first blocks of a new AAC sequence contain noisy transients
  let muted := decide (p.blocksReadInSequence ≤ 2) &&
    decide (p.blocksReadInSequence ≠ p.blocksRead)
  let p := { p with
    pcmBuffer :=
      if muted then
        p.pcmBuffer.take p.pcmBufferReadPoint ++ rd.zeroFrames ++
          p.pcmBuffer.drop (p.pcmBufferReadPoint + rd.zeroFrames.length)
      else p.pcmBuffer }
  ({ p with packetsPlayedInThisSequence := p.packetsPlayedInThisSequence + 1 },
    [.playerPutPacket
      { originalFormat := false
        seqno := 0
        actualTimestamp := p.pcmBufferReadPointRtptime + p.pcmBufferReadPointRtptimeOffset
        data := (p.pcmBuffer.drop p.pcmBufferReadPoint).take stream.packetSize
        len := framesPerPacket }])

def requestedLeadTimeNs : ℤ := 0

/-- "send a frame to the player if allowed". -/
def Processor.offerPacket (stream : Stream) (rd : LoopReadings) (p : Processor σ) :
    Processor σ × List Output :=
  if p.playEnabled && rd.havePtpTimingInformation then
    match rd.bufferShouldBeTime with
    | none => (p, [])
    | some bufferShouldBeTime =>
        let leadTime := (bufferShouldBeTime - rd.sendTimeNow).toInt
        let sent :=
          if leadTime < 30000000000 ∧ 0 ≤ leadTime ∧
              (requestedLeadTimeNs ≤ leadTime ∨ p.packetsPlayedInThisSequence ≠ 0) then
            p.sendPacket stream rd
          else (p, [])
        ({ sent.1 with
            pcmBufferReadPointRtptime :=
              sent.1.pcmBufferReadPointRtptime + BitVec.ofNat 32 framesPerPacket
            pcmBufferReadPoint := sent.1.pcmBufferReadPoint + stream.packetSize },
          sent.2)
  else (p, [])

/-- "move the remaining frames down to the start of the buffer". -/
def Processor.moveDown (p : Processor σ) : Processor σ :=
  { p with
    pcmBuffer := p.pcmBuffer.drop p.pcmBufferReadPoint
    pcmBufferReadPoint := 0 }

def Stream.playerIsSupplied (stream : Stream) (playerBufferOccupancy : ℕ) : Bool :=
  4 * stream.inputRate < playerBufferOccupancy * framesPerPacket * 10

/-- "if a flush is not requested, we can do the normal stuff". -/
def supplyPlayer (stream : Stream) (rd : LoopReadings) (p : Processor σ) :
    Processor σ × List Output :=
  if stream.playerIsSupplied rd.playerBufferOccupancy then (p, [])
  else if p.pcmBufferReadPoint + stream.packetSize ≤ p.pcmBuffer.length then
    Processor.offerPacket stream rd { p with newBufferNeeded := false }
  else ({ p.moveDown with newBufferNeeded := true }, [])

/-! ## The reading of a block -/

def byteAt (bytes : Bytes) (i : ℕ) : BitVec 32 := (bytes.getD i 0).setWidth 32

def blockSeqNo (packet : Bytes) : BitVec 32 :=
  byteAt packet 1 * 65536 + byteAt packet 2 * 256 + byteAt packet 3

def blockTimestamp (packet : Bytes) : RtpTime :=
  byteAt packet 4 * 16777216 + byteAt packet 5 * 65536 + byteAt packet 6 * 256 +
    byteAt packet 7

/-- `addADTStoPacket`: the header of an AAC packet of this length. -/
def adtsHeader (packetLen : ℕ) : Bytes :=
  let profile := 2
  let freqIdx := 4
  let chanCfg := 2
  [0xFF, 0xF9,
    BitVec.ofNat 8 ((profile - 1) * 64 + freqIdx * 4 + chanCfg / 4),
    BitVec.ofNat 8 (chanCfg % 4 * 64 + packetLen / 2048),
    BitVec.ofNat 8 (packetLen % 2048 / 8),
    BitVec.ofNat 8 (packetLen % 8 * 32 + 0x1F),
    0xFC]

/-- The payload of a block of `nread` bytes, if it can be deciphered. -/
def decipher (stream : Stream) (codec : Codec σ) (packet : Bytes) (nread : ℕ) : Option Bytes :=
  stream.sessionKey.bind fun key =>
    codec.decrypt key (List.replicate 4 0 ++ (packet.drop (nread - 8)).take 8)
      ((packet.drop 4).take 8) ((packet.drop 12).take (nread - (8 + 12)))

def decodeBlock (stream : Stream) (codec : Codec σ) (packet : Bytes) (nread : ℕ) (c : σ) :
    σ × List Bytes :=
  match decipher stream codec packet nread with
  | none => (c, [])
  | some payload => codec.decode c (adtsHeader (payload.length + 7) ++ payload)

def truncateToFlush (stream : Stream) (flushIsDelayed : Bool) (p : Processor σ)
    (samples : Bytes) : Bytes :=
  let samplesRemaining := p.flushFromTimestamp - p.pcmBufferReadPointRtptime
  -- a product of two C integers
  let bytesRemaining :=
    (samplesRemaining * BitVec.ofNat 32 stream.inputBytesPerFrame).toInt
  if flushIsDelayed ∧ 0 < samplesRemaining.toInt ∧ bytesRemaining < samples.length then
    samples.take bytesRemaining.toNat
  else samples

def addSamples (stream : Stream) (flushIsDelayed : Bool) (p : Processor σ) (samples : Bytes) :
    Processor σ :=
  let samples := truncateToFlush stream flushIsDelayed p samples
  if p.pcmBufferSize < p.pcmBuffer.length + samples.length then
    -- "fatal error! pcm buffer too small"
    { p with pcmBufferSize := samples.length + p.pcmBuffer.length }
  else { p with pcmBuffer := p.pcmBuffer ++ samples }

/-- "decode the block and add it to or put it in the pcm buffer". -/
def addBlock (stream : Stream) (codec : Codec σ) (flushIsDelayed : Bool) (nread : ℕ)
    (p : Processor σ) : Processor σ :=
  let decoded := decodeBlock stream codec p.packet nread p.codec
  decoded.2.foldl (addSamples stream flushIsDelayed) { p with codec := decoded.1 }

/-- The block is due, and has come, in the first two seconds of the connection. -/
def tooSoonAfterConnection (stream : Stream) (rd : LoopReadings) : Bool :=
  match rd.localShouldBeTime with
  | none => false
  | some localShouldBeTime =>
      decide ((localShouldBeTime - stream.connectionStartTime).toInt < 2000000000) &&
        decide ((rd.connectionTimeNow - stream.connectionStartTime).toInt < 2000000000)

def outdated (rd : LoopReadings) : Bool :=
  match rd.localShouldBeTime with
  | none => false
  | some localShouldBeTime =>
      decide ((localShouldBeTime - rd.blockTimeNow).toInt < requestedLeadTimeNs)

def overwrite (bytes packet : Bytes) : Bytes := bytes ++ packet.drop bytes.length

/-- The header of a block is read, and the pcm buffer emptied for it if it is not to follow
what is there. -/
def Processor.acceptBlock (stream : Stream) (rd : LoopReadings) (bytes : Bytes)
    (p : Processor σ) : Processor σ :=
  let packet := overwrite bytes p.packet
  let pcmBuffer :=
    if p.flushRequested || outdated rd || tooSoonAfterConnection stream rd then []
    else p.pcmBuffer
  { p with
    packet := packet
    blocksRead := p.blocksRead + 1
    blocksReadInSequence := p.blocksReadInSequence + 1
    seqNo := blockSeqNo packet
    timestamp := blockTimestamp packet
    pcmBuffer := pcmBuffer
    pcmBufferReadPointRtptime :=
      if pcmBuffer.length = 0 then blockTimestamp packet else p.pcmBufferReadPointRtptime
    pcmBufferReadPoint := if pcmBuffer.length = 0 then 0 else p.pcmBufferReadPoint }

def processBlock (stream : Stream) (codec : Codec σ) (flushUntilSeq : BitVec 32)
    (flushIsDelayed : Bool) (rd : LoopReadings) (bytes : Bytes) (p : Processor σ) :
    Processor σ :=
  let p := p.acceptBlock stream rd bytes
  if (p.flushRequested ∧ p.seqNo = flushUntilSeq ∨ ¬ p.flushRequested ∧ p.newBufferNeeded) ∧
      ¬ tooSoonAfterConnection stream rd then
    addBlock stream codec flushIsDelayed bytes.length p
  else p

def readBlock (stream : Stream) (codec : Codec σ) (flushUntilSeq : BitVec 32)
    (flushIsDelayed : Bool) (rd : LoopReadings) (p : Processor σ) : Processor σ :=
  if p.flushRequested || p.newBufferNeeded then
    match rd.received with
    | none => p
    | some [] => { p with finished := true }
    | some bytes => processBlock stream codec flushUntilSeq flushIsDelayed rd bytes p
  else p

def turn (stream : Stream) (codec : Codec σ) (rd : LoopReadings) (conn : Conn)
    (p : Processor σ) : Conn × Processor σ × List Output :=
  let looked := look conn p
  let supplied :=
    if looked.processor.flushRequested then (looked.processor, [])
    else supplyPlayer stream rd looked.processor
  (looked.conn,
    readBlock stream codec conn.ap2FlushUntilSequenceNumber looked.flushIsDelayed rd supplied.1,
    looked.outputs ++ supplied.2)

end BufferedAudio

end ShairportSync
