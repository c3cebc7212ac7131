import ShairportSync.Player.Basic
import ShairportSync.Concurrency.Program

/-!
# Connections and the play lock

Every RTSP connection has a conversation thread. `playing_conn` says which connection has
the player; it is taken and given back under a mutex, so each look at it is one atomic
action here. The fields of a connection that only its own thread writes are its
`OwnFields`; any thread may ask it to stop, cancel it, or free it when it is over.

`View c` is what a conversation thread relies on: its own fields, and whether it has the
player. Nothing that another thread does changes it.
-/

namespace ShairportSync

namespace Rtsp

open Concurrency Concurrency.Prog
open Player (Bytes)

/-- `connection_number`; it stands for the pointer to the connection as well. -/
abbrev ConnId := ℕ

inductive AirplayType where
  | ap1
  | ap2
deriving DecidableEq

/-- `airplay_stream_c`. -/
inductive StreamCategory where
  | unspecifiedStreamCategory
  | ptpStream
  | ntpStream
  | remoteControlStream
deriving DecidableEq

inductive StreamType where
  | astUnknown
  | astUncompressed
  | astAppleLossless
deriving DecidableEq

structure StreamCfg where
  type : StreamType
  encrypted : Bool
  aesiv : Bytes
  aeskey : Bytes
  fmtp : List (BitVec 32)
deriving DecidableEq

inductive Stage where
  | unborn
  | conversing
  /-- In `rtsp_conversation_thread_cleanup_function`. -/
  | leaving
  | exited
deriving DecidableEq

/-- What only the connection's own conversation thread writes. -/
structure OwnFields where
  stage : Stage
  airplayType : AirplayType
  airplayStreamCategory : StreamCategory
  /-- `player_thread` is not NULL. -/
  playerThread : Bool
  stream : StreamCfg
  maxFramesPerPacket : BitVec 32
  inputRate : BitVec 32
  inputNumChannels : BitVec 32
  inputBitDepth : BitVec 32
  inputBytesPerFrame : BitVec 32
  minimumLatency : BitVec 32
  maximumLatency : BitVec 32
deriving DecidableEq

structure Conn where
  own : OwnFields
  stop : Bool
  running : Bool
  /-- `pthread_cancel` has been called on the conversation thread. -/
  cancelRequested : Bool
  freed : Bool

structure Config where
  /-- The program has been built with `CONFIG_AIRPLAY_2`. -/
  airplay2 : Bool
  allowSessionInterruption : Bool

structure Shared where
  playingConn : Option ConnId
  conns : ConnId → Conn
  /-- The array `conns`, up to `nconns`. -/
  connTable : List (Option ConnId)
  /-- `conns_lock` is held. -/
  connsLocked : Bool
  /-- `RTSP_connection_index`. -/
  rtspConnectionIndex : ConnId

namespace Shared

def setConn (s : Shared) (c : ConnId) (conn : Conn) : Shared :=
  { s with conns := Function.update s.conns c conn }

def setOwn (s : Shared) (c : ConnId) (own : OwnFields) : Shared :=
  s.setConn c { s.conns c with own := own }

def askToStop (s : Shared) (c : ConnId) : Shared :=
  s.setConn c { s.conns c with stop := true, cancelRequested := true }

end Shared

/-! ## The play lock -/

/-- What `get_play_lock` finds when it first looks at `playing_conn`. -/
structure FirstLook where
  haveThePlayer : Bool
  shouldWait : Bool
  interruptingCurrentSession : Bool

/-- "try to become the current playing_conn". -/
def firstLook (conn : Option ConnId) (allowSessionInterruption : Bool) (s : Shared) :
    FirstLook × Shared :=
  match s.playingConn with
  | none => (⟨true, false, false⟩, { s with playingConn := conn })
  | some playing =>
      if conn = some playing then (⟨true, false, false⟩, s)
      else if (s.conns playing).stop then (⟨false, true, false⟩, s)
      else if allowSessionInterruption then (⟨false, true, true⟩, s.askToStop playing)
      else (⟨false, false, false⟩, s)

/-- One look while waiting for the player. -/
def takeIfFree (conn : Option ConnId) (s : Shared) : Bool × Shared :=
  match s.playingConn with
  | none => (true, { s with playingConn := conn })
  | some _ => (false, s)

/-- The player is looked at every tenth of a second, this many times. -/
def waitForPlayer (conn : Option ConnId) : ℕ → Prog Shared Bool
  | 0 => pure false
  | n + 1 => do
      let haveThePlayer ← modifyGet (takeIfFree conn)
      if haveThePlayer then pure true else waitForPlayer conn n

/-- 3000000 microseconds in steps of 100000. -/
def waitPolls : ℕ := 30

def playLockResponse (look : FirstLook) (haveThePlayer : Bool) : ℤ :=
  let response :=
    if look.shouldWait then
      if haveThePlayer && look.interruptingCurrentSession then 1 else -1
    else 0
  if haveThePlayer && !look.interruptingCurrentSession then 0 else response

/-- `get_play_lock`: "returns -1 if it failed, 0 if it succeeded and 1 if it succeeded but
interrupted an existing session". -/
def getPlayLock (conn : Option ConnId) (allowSessionInterruption : Bool) : Prog Shared ℤ := do
  let look ← modifyGet (firstLook conn allowSessionInterruption)
  if look.shouldWait then
    let haveThePlayer ← waitForPlayer conn waitPolls
    pure (playLockResponse look haveThePlayer)
  else pure (playLockResponse look look.haveThePlayer)

def havePlayLock (c : ConnId) : Prog Shared Bool :=
  read fun s => decide (s.playingConn = some c)

/-- "make conn no longer the playing_conn". -/
def releasePlayLock (c : ConnId) : Prog Shared Unit :=
  modify fun s => if s.playingConn = some c then { s with playingConn := none } else s

def updateOwn {α : Type} (c : ConnId) (f : OwnFields → α × OwnFields) : Prog Shared α :=
  modifyGet fun s => ((f (s.conns c).own).1, s.setOwn c (f (s.conns c).own).2)

def modifyOwn (c : ConnId) (f : OwnFields → OwnFields) : Prog Shared Unit :=
  updateOwn c fun own => ((), f own)

def readOwn {α : Type} (c : ConnId) (f : OwnFields → α) : Prog Shared α :=
  read fun s => f (s.conns c).own

/-! ## What a thread relies on -/

/-- The connection's own fields, and whether it has the player. -/
structure View where
  own : OwnFields
  hasPlayer : Bool
deriving DecidableEq

def Shared.view (s : Shared) (c : ConnId) : View where
  own := (s.conns c).own
  hasPlayer := decide (s.playingConn = some c)

/-- What the thread of a connection relies on: the others leave its view. -/
def Rely (c : ConnId) (s t : Shared) : Prop := t.view c = s.view c

theorem Rely.own {c : ConnId} {s t : Shared} (h : Rely c s t) :
    (t.conns c).own = (s.conns c).own :=
  congrArg View.own h

theorem Rely.playingConn_iff {c : ConnId} {s t : Shared} (h : Rely c s t) :
    t.playingConn = some c ↔ s.playingConn = some c :=
  decide_eq_decide.mp (congrArg View.hasPlayer h)

theorem rely_refl (c : ConnId) (s : Shared) : Rely c s s := rfl

theorem rely_trans (c : ConnId) (s t u : Shared) (hst : Rely c s t) (htu : Rely c t u) :
    Rely c s u :=
  Eq.trans htu hst

/-- A thread leaves the views of the other connections, and frees only connections that are
over. -/
structure Frame (c : ConnId) (s t : Shared) : Prop where
  view : ∀ d, d ≠ c → t.view d = s.view d
  freed : ∀ d, (t.conns d).freed = true →
    (s.conns d).freed = true ∨ (s.conns d).own.stage = .exited

theorem frame_refl (c : ConnId) (s : Shared) : Frame c s s :=
  ⟨fun _ _ => rfl, fun _ h => Or.inl h⟩

/-- An action of a request handler, which is not the end of its thread. -/
structure HandlerFrame (c : ConnId) (s t : Shared) : Prop extends Frame c s t where
  stage : (t.conns c).own.stage = (s.conns c).own.stage

theorem handlerFrame_refl (c : ConnId) (s : Shared) : HandlerFrame c s s :=
  { frame_refl c s with stage := rfl }

/-- An action that leaves the connection's own fields too, and at most takes the player. -/
structure Gains (c : ConnId) (s t : Shared) : Prop extends Frame c s t where
  own : (t.conns c).own = (s.conns c).own
  keepsPlayer : s.playingConn = some c → t.playingConn = some c

theorem gains_refl (c : ConnId) (s : Shared) : Gains c s s :=
  { frame_refl c s with own := rfl, keepsPlayer := id }

theorem Gains.handlerFrame {c : ConnId} {s t : Shared} (h : Gains c s t) : HandlerFrame c s t :=
  { h.toFrame with stage := congrArg OwnFields.stage h.own }

theorem Frame.rely {c d : ConnId} {s t : Shared} (h : Frame c s t) (hd : d ≠ c) : Rely d s t :=
  h.view d hd

section Frame

variable {c : ConnId} {s : Shared}

theorem setConn_conns_self (s : Shared) (c : ConnId) (conn : Conn) :
    (s.setConn c conn).conns c = conn := by
  simp [Shared.setConn]

theorem setConn_conns_of_ne {c d : ConnId} (hd : d ≠ c) (s : Shared) (conn : Conn) :
    (s.setConn c conn).conns d = s.conns d := by
  simp [Shared.setConn, Function.update_of_ne hd]

theorem view_setConn_of_ne {c d : ConnId} (hd : d ≠ c) (s : Shared) (conn : Conn) :
    (s.setConn c conn).view d = s.view d := by
  unfold Shared.view
  rw [setConn_conns_of_ne hd]
  rfl

theorem view_setConn (s : Shared) (c d : ConnId) {conn : Conn} (hown : conn.own = (s.conns c).own) :
    (s.setConn c conn).view d = s.view d := by
  by_cases hd : d = c
  · subst hd
    unfold Shared.view
    rw [setConn_conns_self, hown]
    rfl
  · exact view_setConn_of_ne hd s conn

theorem freed_setConn (s : Shared) (c d : ConnId) (conn : Conn)
    (hfreed : conn.freed = (s.conns c).freed) :
    ((s.setConn c conn).conns d).freed = (s.conns d).freed := by
  by_cases hd : d = c
  · subst hd
    rw [setConn_conns_self, hfreed]
  · rw [setConn_conns_of_ne hd]

theorem frame_setOwn (c : ConnId) (s : Shared) (own : OwnFields) :
    Frame c s (s.setOwn c own) :=
  ⟨fun _ hd => view_setConn_of_ne hd s _,
    fun d h => Or.inl ((freed_setConn s c d { s.conns c with own := own } rfl).symm.trans h)⟩

theorem view_setOwn_self (s : Shared) (c : ConnId) (own : OwnFields) :
    (s.setOwn c own).view c = ⟨own, (s.view c).hasPlayer⟩ := by
  unfold Shared.view Shared.setOwn
  rw [setConn_conns_self]
  rfl

theorem own_setConn (s : Shared) (c d : ConnId) {conn : Conn} (hown : conn.own = (s.conns c).own) :
    ((s.setConn c conn).conns d).own = (s.conns d).own :=
  congrArg View.own (view_setConn s c d hown)

/-- A change of a connection that leaves its own fields, and does not free it. -/
theorem gains_setConn (c d : ConnId) (s : Shared) {conn : Conn}
    (hown : conn.own = (s.conns d).own) (hfreed : conn.freed = (s.conns d).freed) :
    Gains c s (s.setConn d conn) where
  view := fun e _ => view_setConn s d e hown
  freed := fun e h => Or.inl ((freed_setConn s d e conn hfreed).symm.trans h)
  own := own_setConn s d c hown
  keepsPlayer := id

theorem gains_takePlayer (hfree : s.playingConn = none) :
    Gains c s { s with playingConn := some c } := by
  refine { view := fun d hd => ?_, freed := fun _ h => Or.inl h, own := rfl,
           keepsPlayer := fun _ => rfl }
  simp [Shared.view, hfree, Ne.symm hd]

theorem handlerFrame_leavePlayer (hhas : s.playingConn = some c) :
    HandlerFrame c s { s with playingConn := none } := by
  refine { view := fun d hd => ?_, freed := fun _ h => Or.inl h, stage := rfl }
  simp [Shared.view, hhas, Ne.symm hd]

theorem gains_firstLook (c : ConnId) (allow : Bool) (s : Shared) :
    Gains c s (firstLook (some c) allow s).2 := by
  unfold firstLook
  split
  · rename_i hfree
    exact gains_takePlayer hfree
  · split_ifs
    · exact gains_refl c s
    · exact gains_refl c s
    · exact gains_setConn c _ s rfl rfl
    · exact gains_refl c s

theorem gains_takeIfFree (c : ConnId) (s : Shared) : Gains c s (takeIfFree (some c) s).2 := by
  unfold takeIfFree
  split
  · rename_i hfree
    exact gains_takePlayer hfree
  · exact gains_refl c s

theorem keeps_waitForPlayer (c : ConnId) (n : ℕ) :
    Keeps (Gains c) (waitForPlayer (some c) n) := by
  induction n with
  | zero => exact keeps_pure false
  | succ n ih =>
      refine (keeps_modifyGet fun s => gains_takeIfFree c s).bind fun haveThePlayer => ?_
      split_ifs
      · exact keeps_pure true
      · exact ih

theorem keeps_getPlayLock (c : ConnId) (allow : Bool) :
    Keeps (Gains c) (getPlayLock (some c) allow) := by
  refine (keeps_modifyGet fun s => gains_firstLook c allow s).bind fun look => ?_
  split_ifs
  · exact (keeps_waitForPlayer c waitPolls).bind fun _ => keeps_pure _
  · exact keeps_pure _

theorem keeps_havePlayLock (c : ConnId) : Keeps (HandlerFrame c) (havePlayLock c) :=
  keeps_read (handlerFrame_refl c) _

theorem keeps_releasePlayLock (c : ConnId) : Keeps (HandlerFrame c) (releasePlayLock c) := by
  refine keeps_modify fun s => ?_
  split_ifs with hhas
  · exact handlerFrame_leavePlayer hhas
  · exact handlerFrame_refl c s

theorem keeps_updateOwn {α : Type} (c : ConnId) {f : OwnFields → α × OwnFields}
    (hf : ∀ own, (f own).2.stage = own.stage) : Keeps (HandlerFrame c) (updateOwn c f) :=
  keeps_modifyGet fun s =>
    { frame_setOwn c s _ with
      stage := (congrArg (fun v => v.own.stage) (view_setOwn_self s c _)).trans (hf _) }

theorem keeps_modifyOwn (c : ConnId) {f : OwnFields → OwnFields}
    (hf : ∀ own, (f own).stage = own.stage) : Keeps (HandlerFrame c) (modifyOwn c f) :=
  keeps_updateOwn c hf

theorem keeps_readOwn {α : Type} (c : ConnId) (f : OwnFields → α) :
    Keeps (HandlerFrame c) (readOwn c f) :=
  keeps_read (handlerFrame_refl c) _

end Frame

end Rtsp

end ShairportSync
