import ShairportSync.Metadata.Dmap
import ShairportSync.Player.Holds

/-!
# Enciphered audio packets

`decipher_player_put_packet` takes a realtime or a retransmitted datagram apart into its
sequence number, its timestamp, the ciphertext and the nonce, deciphers it and gives the
result to `player_put_packet`. The AEAD cipher, of another library, is a parameter. When it
says that the datagram is not authentic, the source writes a debug line and goes on with what
it has: the numbers the datagram bears, and no audio.

`player_put_packet` is taken as a whole here, with nothing between its resend requests.
-/

namespace ShairportSync

namespace Player

open SerialNumber

/-! ## A whole call of `player_put_packet` -/

/-- The resend checks go on after each of at most `n` requests. -/
def sendRequests (cfg : Config) : ℕ → ResendOutcome → ResendOutcome
  | 0, outcome => outcome
  | _ + 1, .finished st => .finished st
  | n + 1, .requesting _ _ st scan => sendRequests cfg n (continueResendScan cfg scan st)

def ResendOutcome.state : ResendOutcome → ResendState
  | .finished st => st
  | .requesting _ _ st _ => st

def playerPutPacket (cfg : Config) (decode : PacketDecoder) (timeNow : Nanoseconds) (a : PutArgs)
    (st : ResendState) : ResendState :=
  let stored := (playerPutPacketStore decode timeNow a st.conn).1
  if stored.connectionStateToOutput = 0 then { st with conn := stored }
  else
    (sendRequests cfg (2 ^ 16)
      (startResendScan cfg timeNow st.firstPossiblyMissingFrame stored)).state

section Requests

variable {cfg : Config}

/-- How many times the scan may yet be taken up again. -/
def ResendOutcome.remaining : ResendOutcome → ℕ
  | .finished _ => 0
  | .requesting _ _ st scan => distance scan.x st.conn.abWrite + 1

theorem checkEntry_x (st : ResendState) (scan : ResendScan) :
    (checkEntry cfg st scan).2.x = scan.x := by
  unfold checkEntry
  dsimp only
  split <;> rfl

theorem checkEntry_abWrite (st : ResendState) (scan : ResendScan) :
    (checkEntry cfg st scan).1.conn.abWrite = st.conn.abWrite := by
  unfold checkEntry
  dsimp only
  split <;> rfl

theorem resendScan_remaining_le (n : ℕ) (st : ResendState) (scan : ResendScan)
    (hn : distance scan.x st.conn.abWrite = n) :
    (resendScan cfg n st scan).remaining ≤ n := by
  induction n generalizing st scan with
  | zero => exact le_rfl
  | succ n ih =>
      have hne : st.conn.abWrite ≠ scan.x := distance_pos_iff.mp (hn ▸ Nat.succ_pos n)
      have hrest : distance (scan.x + 1) st.conn.abWrite = n :=
        Nat.succ_injective ((distance_add_one_left hne).trans hn)
      unfold resendScan
      dsimp only
      split_ifs
      · refine (ih _ _ ?_).trans (Nat.le_succ n)
        dsimp only
        rwa [checkEntry_x, checkEntry_abWrite]
      · rw [ResendOutcome.remaining]
        dsimp only
        rw [checkEntry_x, checkEntry_abWrite, hrest]
      · refine (ih _ _ ?_).trans (Nat.le_succ n)
        dsimp only
        rwa [checkEntry_x, checkEntry_abWrite]

theorem sendRequests_finished (n : ℕ) (outcome : ResendOutcome) (hn : outcome.remaining ≤ n) :
    ∃ st, sendRequests cfg n outcome = .finished st := by
  induction n generalizing outcome with
  | zero =>
      cases outcome with
      | finished st => exact ⟨st, rfl⟩
      | requesting first count st scan => exact absurd hn (Nat.not_succ_le_zero _)
  | succ n ih =>
      cases outcome with
      | finished st => exact ⟨st, rfl⟩
      | requesting first count st scan =>
          exact ih _ ((resendScan_remaining_le _ _ _ rfl).trans (Nat.le_of_succ_le_succ hn))

/-- The resend checks of a call of `player_put_packet` are done in full. -/
theorem sendRequests_startResendScan (timeNow : Nanoseconds) (firstPossiblyMissingFrame : Int)
    (conn : ConnInfo) :
    ∃ st, sendRequests cfg (2 ^ 16)
      (startResendScan cfg timeNow firstPossiblyMissingFrame conn) = .finished st := by
  have hremaining : (startResendScan cfg timeNow firstPossiblyMissingFrame conn).remaining ≤
      distance (resendScanStart firstPossiblyMissingFrame conn.toAudioRing) conn.abWrite :=
    resendScan_remaining_le _ ⟨conn, -1⟩ ⟨timeNow, _, none, 0, 0⟩ rfl
  exact sendRequests_finished _ _ (hremaining.trans (distance_lt _ _).le)

theorem sendRequests_frame (n : ℕ) (outcome : ResendOutcome) :
    ResendFrame outcome.conn (sendRequests cfg n outcome).conn := by
  induction n generalizing outcome with
  | zero => exact .refl _
  | succ n ih =>
      cases outcome with
      | finished st => exact .refl _
      | requesting first count st scan =>
          exact (continueResendScan_frame cfg scan st).trans (ih _)

theorem ResendOutcome.state_conn (outcome : ResendOutcome) : outcome.state.conn = outcome.conn := by
  cases outcome with
  | finished st => rfl
  | requesting first count st scan => rfl

variable {decode : PacketDecoder} {timeNow : Nanoseconds} {a : PutArgs}

theorem playerPutPacket_frame (st : ResendState) :
    ResendFrame (playerPutPacketStore decode timeNow a st.conn).1
      (playerPutPacket cfg decode timeNow a st).conn := by
  unfold playerPutPacket
  dsimp only
  split_ifs
  · exact .refl _
  · rw [ResendOutcome.state_conn]
    exact (startResendScan_frame cfg timeNow _ _).trans (sendRequests_frame _ _)

/-- What is stored goes into the slots; the rest is as the packet has been placed. -/
theorem storePacket_eq (decode : PacketDecoder) (timeNow : Nanoseconds) (a : PutArgs)
    (conn : ConnInfo) :
    ∃ slots, (storePacket decode timeNow a conn).1 =
      { placePacket timeNow a.actualTimestamp (effectiveSeqno a conn) (syncToPacket a conn).1 with
        audioBuffer := slots } := by
  unfold storePacket
  dsimp only
  split_ifs
  · exact ⟨_, rfl⟩
  · exact ⟨_, rfl⟩

theorem storePacket_abSynced (conn : ConnInfo) :
    (storePacket decode timeNow a conn).1.abSynced = true := by
  have hsync : (syncToPacket a conn).1.abSynced = true := by
    unfold syncToPacket
    split_ifs with hsynced
    · exact hsynced
    · rfl
  have hplace (seqno : SeqT) (conn : ConnInfo) :
      (placePacket timeNow a.actualTimestamp seqno conn).abSynced = conn.abSynced := by
    unfold placePacket
    cases placement conn.toAudioRing seqno with
    | expected =>
        simp only [measureInputFrameRate]
        split_ifs <;> rfl
    | newer => rfl
    | late => rfl
    | tooLate => rfl
  obtain ⟨slots, hstored⟩ := storePacket_eq decode timeNow a conn
  rw [hstored]
  exact (hplace _ _).trans hsync

/-- The window and the flush request are as they were. -/
structure WindowKept (conn conn' : ConnInfo) : Prop where
  abRead : conn'.abRead = conn.abRead
  abWrite : conn'.abWrite = conn.abWrite
  abSynced : conn'.abSynced = conn.abSynced
  flushRequest : conn'.toFlushRequest = conn.toFlushRequest

/-- The number of the packet is before the end of the window of a synced buffer. -/
def BehindWindow (conn : ConnInfo) (seqno : SeqT) : Prop :=
  conn.abSynced = true ∧
    (placement conn.toAudioRing seqno = .late ∨ placement conn.toAudioRing seqno = .tooLate)

/-- Placing a packet leaves the window as it is if the packet is not expected or newer. -/
theorem windowKept_placePacket_iff (timeNow : Nanoseconds) (a : PutArgs) (seqno : SeqT)
    (conn : ConnInfo) :
    WindowKept conn (placePacket timeNow a.actualTimestamp seqno conn) ↔
      placement conn.toAudioRing seqno = .late ∨ placement conn.toAudioRing seqno = .tooLate := by
  unfold placePacket
  cases hplace : placement conn.toAudioRing seqno with
  | expected =>
      have hwrite := eq_of_placement_expected hplace
      refine iff_of_false (fun hkept => ?_) (by simp)
      have hsame : seqno + 1 = conn.abWrite := hkept.abWrite
      bv_omega
  | newer =>
      obtain ⟨hahead, hshort⟩ := distance_of_placement_newer hplace
      refine iff_of_false (fun hkept => ?_) (by simp)
      have hsame : seqno + 1 = conn.abWrite := hkept.abWrite
      have hround := distance_add_one_self seqno
      rw [← hsame] at hahead hshort
      have hone : distance (seqno + 1) seqno = distance (seqno + 1#16) seqno := rfl
      omega
  | late => exact iff_of_true ⟨rfl, rfl, rfl, rfl⟩ (Or.inl rfl)
  | tooLate => exact iff_of_true ⟨rfl, rfl, rfl, rfl⟩ (Or.inr rfl)

theorem windowKept_storePacket_iff (ha : a.originalFormat = true) (conn : ConnInfo) :
    WindowKept conn (storePacket decode timeNow a conn).1 ↔ BehindWindow conn a.seqno := by
  have hseqno : effectiveSeqno a conn = a.seqno := by
    rw [effectiveSeqno, ha, Bool.not_true, Bool.and_false]
    rfl
  cases hsynced : conn.abSynced with
  | false =>
      refine iff_of_false (fun hkept => ?_) fun hbehind => ?_
      · have hsame := (storePacket_abSynced conn).symm.trans hkept.abSynced
        exact Bool.false_ne_true (hsynced.symm.trans hsame.symm)
      · exact Bool.false_ne_true (hsynced.symm.trans hbehind.1)
  | true =>
      have hsync : (syncToPacket a conn).1 = conn := by
        rw [syncToPacket, if_pos hsynced]
      obtain ⟨slots, hstored⟩ := storePacket_eq decode timeNow a conn
      rw [hstored, hseqno, BehindWindow, hsync,
        ← windowKept_placePacket_iff timeNow a]
      exact ⟨fun h => ⟨hsynced, h.1, h.2, h.3, h.4⟩, fun h => ⟨h.2.1, h.2.2, h.2.3, h.2.4⟩⟩

theorem packetCount_playerPutPacket (cfg : Config) (decode : PacketDecoder) (timeNow : Nanoseconds)
    (a : PutArgs) (st : ResendState) :
    (playerPutPacket cfg decode timeNow a st).conn.packetCount = st.conn.packetCount + 1 := by
  rw [(playerPutPacket_frame st).rest]
  change (playerPutPacketStore decode timeNow a st.conn).1.packetCount = _
  have hcount : (countPacket timeNow (ignoreEarlyFlush st.conn)).packetCount =
      st.conn.packetCount + 1 := by
    simp only [countPacket, ignoreEarlyFlush]
    split_ifs <;> rfl
  unfold playerPutPacketStore
  dsimp only
  split_ifs
  · exact hcount
  · rw [(storePacket_frame decode timeNow a _).packetCount, hcount]

/-- No flush request is dropped because this is the first packet. -/
def NoEarlyFlush (conn : ConnInfo) : Prop :=
  conn.packetCount = 0 → conn.flushRequested = false ∧ conn.flushRtpTimestamp = 0

theorem toFlushRequest_ignoreEarlyFlush_iff (conn : ConnInfo) :
    (ignoreEarlyFlush conn).toFlushRequest = conn.toFlushRequest ↔ NoEarlyFlush conn := by
  unfold ignoreEarlyFlush NoEarlyFlush
  split_ifs with hfirst
  · constructor
    · intro hsame _
      rw [← hsame]
      exact ⟨rfl, rfl⟩
    · intro hnone
      obtain ⟨hrequested, htimestamp⟩ := hnone hfirst
      rw [← hrequested, ← htimestamp]
  · exact iff_of_true rfl fun h => absurd h hfirst

theorem windowKept_iff_of_resendFrame {conn stored conn' : ConnInfo}
    (h : ResendFrame stored conn') : WindowKept conn conn' ↔ WindowKept conn stored := by
  rw [h.rest]
  exact ⟨fun h => ⟨h.1, h.2, h.3, h.4⟩, fun h => ⟨h.1, h.2, h.3, h.4⟩⟩

/-- The window is kept between two connections whatever the flush request was before. -/
theorem windowKept_iff {conn conn' : ConnInfo} (counted : ConnInfo)
    (hring : counted.toAudioRing = conn.toAudioRing)
    (hflush : conn'.toFlushRequest = counted.toFlushRequest) :
    WindowKept conn conn' ↔
      counted.toFlushRequest = conn.toFlushRequest ∧ WindowKept counted conn' := by
  have hread : counted.abRead = conn.abRead := congrArg AudioRing.abRead hring
  have hwrite : counted.abWrite = conn.abWrite := congrArg AudioRing.abWrite hring
  have hsynced : counted.abSynced = conn.abSynced := congrArg AudioRing.abSynced hring
  constructor
  · intro h
    exact ⟨hflush.symm.trans h.4, h.1.trans hread.symm, h.2.trans hwrite.symm,
      h.3.trans hsynced.symm, hflush⟩
  · rintro ⟨hsame, h⟩
    exact ⟨h.1.trans hread, h.2.trans hwrite, h.3.trans hsynced, h.4.trans hsame⟩

/-- A packet in the original format leaves the window and the flush request as they are exactly if
it drops no early flush request and, unless the output is off, falls behind the window. -/
theorem windowKept_playerPutPacket_iff (ha : a.originalFormat = true) (st : ResendState) :
    WindowKept st.conn (playerPutPacket cfg decode timeNow a st).conn ↔
      NoEarlyFlush st.conn ∧
        (st.conn.connectionStateToOutput = 0 ∨ BehindWindow st.conn a.seqno) := by
  let counted := countPacket timeNow (ignoreEarlyFlush st.conn)
  have hring : counted.toAudioRing = st.conn.toAudioRing := by
    simp only [counted, countPacket, ignoreEarlyFlush]
    split_ifs <;> rfl
  have houtput : counted.connectionStateToOutput = st.conn.connectionStateToOutput := by
    simp only [counted, countPacket, ignoreEarlyFlush]
    split_ifs <;> rfl
  have hbehind : BehindWindow counted a.seqno ↔ BehindWindow st.conn a.seqno := by
    rw [BehindWindow, hring]
    exact Iff.rfl
  have hflush : counted.toFlushRequest = st.conn.toFlushRequest ↔ NoEarlyFlush st.conn :=
    toFlushRequest_ignoreEarlyFlush_iff st.conn
  rw [windowKept_iff_of_resendFrame (playerPutPacket_frame st)]
  unfold playerPutPacketStore
  dsimp only
  split_ifs with hoff
  · rw [windowKept_iff counted hring rfl, hflush]
    exact and_congr_right fun _ =>
      iff_of_true ⟨rfl, rfl, rfl, rfl⟩ (Or.inl (houtput.symm.trans hoff))
  · rw [windowKept_iff counted hring (storePacket_frame decode timeNow a counted).flush,
      hflush, windowKept_storePacket_iff ha, hbehind]
    exact and_congr_right fun _ => (or_iff_right fun h => hoff (houtput.trans h)).symm

end Requests

end Player

namespace Rtp

open Player
open Metadata (ntohl)

/-! ## Datagrams -/

def ntohs (a b : BitVec 8) : BitVec 16 := BitVec.ofNat 16 (a.toNat * 2 ^ 8 + b.toNat)

/-- What a decryption returns, the length it sets and the output. -/
structure DecryptResult where
  response : Int
  newPayloadLength : ℕ
  m : Bytes

/-- `crypto_aead_chacha20poly1305_ietf_decrypt`, of the ciphertext with its tag, the additional
data, the nonce and the key. -/
abbrev AeadDecrypt := Bytes → Bytes → Bytes → Bytes → DecryptResult

/-- What a receiver of enciphered audio works on. -/
structure AudioReceiver where
  state : ResendState
  sessionKey : Option Bytes

def datagramSeqno (cipheredAudio : Bytes) : SeqT :=
  ntohs (cipheredAudio.getD 0 0) (cipheredAudio.getD 1 0)

def datagramTimestamp (cipheredAudio : Bytes) : RtpTime :=
  ntohl (cipheredAudio.getD 2 0) (cipheredAudio.getD 3 0) (cipheredAudio.getD 4 0)
    (cipheredAudio.getD 5 0)

/-- The decryption of a datagram: the ciphertext starts ten bytes in, the last eight bytes are the
nonce, to be padded in front, and the eight bytes after the sequence number are authenticated too.
-/
def decryptDatagram (decrypt : AeadDecrypt) (key cipheredAudio : Bytes) : DecryptResult :=
  decrypt ((cipheredAudio.drop 10).take (cipheredAudio.length - 18))
    ((cipheredAudio.drop 2).take 8)
    (List.replicate 4 0 ++ cipheredAudio.drop (cipheredAudio.length - 8)) key

/-- `decipher_player_put_packet`. A decryption that has failed is only reported. -/
def decipherPlayerPutPacket (cfg : Config) (decode : PacketDecoder) (decrypt : AeadDecrypt)
    (timeNow : Nanoseconds) (cipheredAudio : Bytes) (r : AudioReceiver) : Int × AudioReceiver :=
  if 18 < cipheredAudio.length then
    let sequenceNumber := datagramSeqno cipheredAudio
    match r.sessionKey with
    | some key =>
        let result := decryptDatagram decrypt key cipheredAudio
        let plen := result.newPayloadLength
        (sequenceNumber.toNat,
          { r with
            state := playerPutPacket cfg decode timeNow
              ⟨true, sequenceNumber, datagramTimestamp cipheredAudio, result.m.take plen, plen⟩
              r.state })
    | none => (sequenceNumber.toNat, r)
  else (-1, r)

/-- The datagram is deciphered under the session key, and it is authentic. -/
def Authentic (decrypt : AeadDecrypt) (cipheredAudio : Bytes) (r : AudioReceiver) : Prop :=
  ∃ key, r.sessionKey = some key ∧ (decryptDatagram decrypt key cipheredAudio).response = 0

/-- If the datagram is not authentic, the connection is as it was. -/
def UnauthenticChangesNothing (cfg : Config) (decode : PacketDecoder) (decrypt : AeadDecrypt)
    (timeNow : Nanoseconds) (cipheredAudio : Bytes) (r : AudioReceiver) : Prop :=
  ¬ Authentic decrypt cipheredAudio r →
    (decipherPlayerPutPacket cfg decode decrypt timeNow cipheredAudio r).2.state.conn = r.state.conn

/-- The datagram is too short to be deciphered, or there is no key, or it is authentic. -/
def DecipherCondition (decrypt : AeadDecrypt) (cipheredAudio : Bytes) (r : AudioReceiver) : Prop :=
  cipheredAudio.length ≤ 18 ∨ r.sessionKey = none ∨ Authentic decrypt cipheredAudio r

section Unauthentic

variable {cfg : Config} {decode : PacketDecoder} {decrypt : AeadDecrypt} {timeNow : Nanoseconds}
  {cipheredAudio : Bytes} {r : AudioReceiver}

/-- A datagram that is long enough is passed on if there is a key, authentic or not. -/
theorem decipherPlayerPutPacket_of_key (cfg : Config) (decode : PacketDecoder)
    (decrypt : AeadDecrypt) (timeNow : Nanoseconds) {key : Bytes}
    (hlength : 18 < cipheredAudio.length) (hkey : r.sessionKey = some key) :
    ∃ a : PutArgs, a.originalFormat = true ∧ a.seqno = datagramSeqno cipheredAudio ∧
      (decipherPlayerPutPacket cfg decode decrypt timeNow cipheredAudio r).2.state =
        playerPutPacket cfg decode timeNow a r.state := by
  unfold decipherPlayerPutPacket
  rw [if_pos hlength, hkey]
  exact ⟨_, rfl, rfl, rfl⟩

/-- A datagram that is not authentic changes nothing exactly if it is not deciphered at all. -/
theorem unauthenticChangesNothing_iff (cfg : Config) (decode : PacketDecoder)
    (decrypt : AeadDecrypt) (timeNow : Nanoseconds) (cipheredAudio : Bytes) (r : AudioReceiver) :
    UnauthenticChangesNothing cfg decode decrypt timeNow cipheredAudio r ↔
      DecipherCondition decrypt cipheredAudio r := by
  constructor
  · intro hunchanged
    by_contra hpassed
    rw [DecipherCondition, not_or, not_or, not_le] at hpassed
    obtain ⟨hlength, hkey, hauthentic⟩ := hpassed
    obtain ⟨key, hkey⟩ := Option.ne_none_iff_exists'.mp hkey
    obtain ⟨a, -, -, hput⟩ := decipherPlayerPutPacket_of_key cfg decode decrypt timeNow hlength hkey
    have hcount := packetCount_playerPutPacket cfg decode timeNow a r.state
    rw [← hput, hunchanged hauthentic] at hcount
    exact absurd hcount (Nat.succ_ne_self _).symm
  · rintro (hlength | hkey | hauthentic) hunauthentic
    · rw [decipherPlayerPutPacket, if_neg (Nat.not_lt.mpr hlength)]
    · rw [decipherPlayerPutPacket, hkey]
      split_ifs <;> rfl
    · exact absurd hauthentic hunauthentic

/-- A datagram that is passed on, authentic or not, leaves the window and the flush request as they
are exactly if it drops no early flush request and, unless the output is off, falls behind the
window. -/
theorem windowKept_decipherPlayerPutPacket_iff {key : Bytes} (hlength : 18 < cipheredAudio.length)
    (hkey : r.sessionKey = some key) :
    WindowKept r.state.conn
        (decipherPlayerPutPacket cfg decode decrypt timeNow cipheredAudio r).2.state.conn ↔
      NoEarlyFlush r.state.conn ∧ (r.state.conn.connectionStateToOutput = 0 ∨
        BehindWindow r.state.conn (datagramSeqno cipheredAudio)) := by
  obtain ⟨a, horiginal, hseqno, hput⟩ := decipherPlayerPutPacket_of_key cfg decode decrypt timeNow
    hlength hkey
  rw [hput, windowKept_playerPutPacket_iff horiginal, hseqno]

end Unauthentic

def AudioReceiver.fresh : AudioReceiver where
  state := ⟨.fresh, -1⟩
  sessionKey := some []

/-- The first datagram, of 19 bytes and not authentic, syncs the buffer to its own number. -/
theorem unauthentic_changes_window :
    ¬ ∀ (cfg : Config) (decode : PacketDecoder) (decrypt : AeadDecrypt) (timeNow : Nanoseconds)
      (cipheredAudio : Bytes) (r : AudioReceiver), ¬ Authentic decrypt cipheredAudio r →
      (decipherPlayerPutPacket cfg decode decrypt timeNow
          cipheredAudio r).2.state.conn.toAudioRing = r.state.conn.toAudioRing ∧
        (decipherPlayerPutPacket cfg decode decrypt timeNow
          cipheredAudio r).2.state.conn.toFlushRequest = r.state.conn.toFlushRequest := by
  intro h
  obtain ⟨hring, hflush⟩ := h .playOnly (fun dest _ _ => ⟨-1, 0, dest⟩) (fun _ _ _ _ => ⟨-1, 0, []⟩)
    0 (List.replicate 19 0) .fresh (by
      rintro ⟨key, -, hresponse⟩
      exact absurd hresponse (by decide : (-1 : Int) ≠ 0))
  have hkept : WindowKept AudioReceiver.fresh.state.conn _ :=
    ⟨congrArg AudioRing.abRead hring, congrArg AudioRing.abWrite hring,
      congrArg AudioRing.abSynced hring, hflush⟩
  rw [windowKept_decipherPlayerPutPacket_iff (by decide) rfl] at hkept
  obtain ⟨-, hoff | hbehind⟩ := hkept
  · exact absurd hoff (by decide)
  · exact absurd hbehind.1 (by decide)

end Rtp

end ShairportSync
