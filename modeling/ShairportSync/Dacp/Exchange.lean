import ShairportSync.Http.Reply

/-!
# An exchange with the server

`dacp_send_command` sends a command and gives what it receives to the parser, until the parser has
come to the end of the reply or `recv` has failed. What it returns does not depend on the pieces
that `recv` returns the reply in.
-/

namespace ShairportSync

namespace Dacp

open Player (Bytes)
open Http

/-- The bytes that one call of `recv` puts in `buffer` -/
abbrev Piece : Type := { piece : Bytes // piece ≠ [] ∧ piece.length ≤ 8192 }

/-- A call of `recv`, which fails or finds the connection closed if it does not return a positive
number. -/
inductive Recv where
  | received (piece : Piece)
  | nothing

inductive Attempt where
  | noPort
  | badAddress
  | busy
  | noSocket
  | refused
  | notConnected
  | notSent
  | sent (recvs : List Recv)

/-- The code, and the body unless it is NULL -/
structure CommandResult where
  code : ℤ
  body : Option Bytes
deriving DecidableEq

def resultOf (p : Parser) : CommandResult where
  code := p.response.code
  body := if p.rt.stage = .error then none else some p.response.body

/-- What becomes of a command: it returns, waits for `recv` to be called again, or copies a negative
number of bytes. -/
inductive Outcome where
  | returned (result : CommandResult)
  | waiting
  | crashed
deriving DecidableEq

/-- The loop while more is needed. If `http_data` returns 1 then it has read all of the piece. -/
def receive (p : Parser) : List Recv → Outcome
  | [] => .waiting
  | .nothing :: _ => .returned ⟨495, none⟩
  | .received piece :: recvs =>
      let p := (p.httpData piece).1
      if p.Stopped then .returned (resultOf p)
      else if p.rt.stage = .crashed then .crashed
      else receive p recvs

/-- `dacp_send_command`. Without a port the body is left as it was, which is NULL. -/
def dacpSendCommand : Attempt → Outcome
  | .noPort => .returned ⟨490, none⟩
  | .badAddress => .returned ⟨498, none⟩
  | .busy => .returned ⟨494, none⟩
  | .noSocket => .returned ⟨497, none⟩
  | .refused => .returned ⟨491, none⟩
  | .notConnected => .returned ⟨496, none⟩
  | .notSent => .returned ⟨493, none⟩
  | .sent recvs => receive start recvs

def allBytes (pieces : List Piece) : Bytes := pieces.flatMap Subtype.val

/-- What is received makes the same of the parser as all the bytes would, one at a time. -/
theorem receive_pieces (p : Parser) (hp : ¬ p.Stopped) (hcrashed : p.rt.stage ≠ .crashed)
    (pieces : List Piece) (recvs : List Recv) :
    receive p (pieces.map .received ++ recvs) =
      if ((allBytes pieces).foldl Parser.byte p).Stopped then
        .returned (resultOf ((allBytes pieces).foldl Parser.byte p))
      else if ((allBytes pieces).foldl Parser.byte p).rt.stage = .crashed then .crashed
      else receive ((allBytes pieces).foldl Parser.byte p) recvs := by
  induction pieces generalizing p with
  | nil =>
      change receive p recvs = if p.Stopped then _ else if p.rt.stage = .crashed then _ else _
      rw [if_neg hp, if_neg hcrashed]
      rfl
  | cons piece pieces ih =>
      rw [List.map_cons, List.cons_append, receive, (p.httpData_spec piece).1, allBytes,
        List.flatMap_cons, List.foldl_append]
      by_cases hstopped : (piece.val.foldl Parser.byte p).Stopped
      · rw [if_pos hstopped, Parser.foldl_byte_of_stopped hstopped, if_pos hstopped]
      · rw [if_neg hstopped]
        by_cases hcrash : (piece.val.foldl Parser.byte p).rt.stage = .crashed
        · rw [if_pos hcrash, Parser.foldl_byte_of_crashed hcrash, if_neg hstopped, if_pos hcrash]
        · rw [if_neg hcrash]
          exact ih _ hstopped hcrash

theorem dacpSendCommand_received (pieces : List Piece) (recvs : List Recv) :
    dacpSendCommand (.sent (pieces.map .received ++ recvs)) =
      if ((allBytes pieces).foldl Parser.byte start).Stopped then
        .returned (resultOf ((allBytes pieces).foldl Parser.byte start))
      else if ((allBytes pieces).foldl Parser.byte start).rt.stage = .crashed then .crashed
      else receive ((allBytes pieces).foldl Parser.byte start) recvs :=
  receive_pieces start (by decide) (by decide) pieces recvs

/-- How a reply is cut into pieces makes no difference. -/
theorem dacpSendCommand_pieces (pieces pieces' : List Piece) (recvs : List Recv)
    (h : allBytes pieces = allBytes pieces') :
    dacpSendCommand (.sent (pieces.map .received ++ recvs)) =
      dacpSendCommand (.sent (pieces'.map .received ++ recvs)) := by
  rw [dacpSendCommand_received, dacpSendCommand_received, h]

def versionPieces : List Piece := [⟨[72, 84], by decide⟩, ⟨[84, 80, 47], by decide⟩]

theorem dacpSendCommand_pieces_version :
    dacpSendCommand (.sent (versionPieces.map .received ++ [.nothing])) =
      dacpSendCommand
        (.sent (([⟨[72, 84, 84, 80, 47], by decide⟩] : List Piece).map .received ++ [.nothing])) :=
  dacpSendCommand_pieces _ _ _ (by decide)

/-- A reply is received with its code and its body, whatever follows it. -/
theorem dacpSendCommand_sent {head : Head} {body sent : Bytes} (h : Sent head body sent)
    (pieces : List Piece) (recvs : List Recv) (more : Bytes)
    (hpieces : allBytes pieces = head.bytes ++ sent ++ more) :
    dacpSendCommand (.sent (pieces.map .received ++ recvs)) =
      .returned ⟨decimalNumber head.code, some body⟩ := by
  obtain ⟨hclose, hresponse⟩ := foldl_sent h
  have hstopped : ((head.bytes ++ sent).foldl Parser.byte start).Stopped := .inl hclose
  rw [dacpSendCommand_received, hpieces, List.foldl_append,
    Parser.foldl_byte_of_stopped hstopped, if_pos hstopped, resultOf, hresponse, hclose]
  rfl

/-- The first chunk of a reply is lost, and the program with it, if its size is too large for an
`int` and wraps to a negative number. -/
theorem dacpSendCommand_crashed {head : Head} (hchunked : head.chunked) {size : Bytes}
    (hne : size ≠ []) (hhex : ∀ ch ∈ size, isHex ch)
    (hneg : Numeric.signed 32 (hexNumber size) < -1) (ch : BitVec 8) (pieces : List Piece)
    (recvs : List Recv) (more : Bytes)
    (hpieces : allBytes pieces = head.bytes ++ (size ++ crlf ++ [ch]) ++ more) :
    dacpSendCommand (.sent (pieces.map .received ++ recvs)) = .crashed := by
  have hsnd := (framingOf_snd head.fields).trans (decide_eq_true hchunked)
  have hcrashed : ((allBytes pieces).foldl Parser.byte start).rt.stage = .crashed := by
    have hstage := foldl_negative (atBody (decimalNumber head.code) (framingOf head.fields)) 0 hne
      hhex hneg ch
    rw [hpieces, List.foldl_append, List.foldl_append, foldl_head, atBody_of_chunked _ hsnd,
      Parser.foldl_byte_of_crashed hstage, hstage]
  have hnot : ¬ ((allBytes pieces).foldl Parser.byte start).Stopped := by
    rw [Parser.Stopped, hcrashed]
    decide
  rw [dacpSendCommand_received, if_neg hnot, if_pos hcrashed]

/-- `Content-Length: 2` -/
def lengthField : Field where
  name := [67, 111, 110, 116, 101, 110, 116, 45, 76, 101, 110, 103, 116, 104]
  blanks := [32]
  value := [50]
  name_plain := by decide
  blanks_blank := by decide
  value_ne_nil := by decide
  value_head := by decide
  value_line := by decide
  value_last := by decide

/-- `HTTP/1.1 200 OK`, with these fields -/
def okHead (fields : List Field) : Head where
  version := [72, 84, 84, 80, 47, 49, 46, 49]
  code := [50, 48, 48]
  reason := [79, 75]
  fields := fields
  version_word := by decide
  code_digits := by decide
  code_lt := by decide
  reason_line := by decide

theorem dacpSendCommand_sent_twoBytes :
    dacpSendCommand (.sent
      (([⟨(okHead [lengthField]).bytes, by decide⟩, ⟨[7, 8], by decide⟩] : List Piece).map
        .received ++ [])) = .returned ⟨200, some [7, 8]⟩ :=
  @dacpSendCommand_sent (okHead [lengthField]) [7, 8] [7, 8]
    ((if_neg (by decide)).mpr ⟨rfl, [50], by decide⟩) _ _ [] (by decide)

/-- A reply whose header says neither how long the body is nor that it comes in chunks is waited for
until `recv` fails, and is lost. -/
theorem dacpSendCommand_endless {head : Head} (hchunked : ¬ head.chunked)
    (hlength : head.length = none) (pieces : List Piece) (body : Bytes)
    (hpieces : allBytes pieces = head.bytes ++ body) :
    dacpSendCommand (.sent (pieces.map .received)) = .waiting ∧
      ∀ recvs, dacpSendCommand (.sent (pieces.map .received ++ .nothing :: recvs)) =
        .returned ⟨495, none⟩ := by
  have hstage := foldl_endless hchunked hlength body
  have hnot : ¬ ((head.bytes ++ body).foldl Parser.byte start).Stopped := by
    rw [Parser.Stopped, hstage]
    decide
  have hrunning : ((head.bytes ++ body).foldl Parser.byte start).rt.stage ≠ .crashed := by
    rw [hstage]
    decide
  constructor
  · have hnil := dacpSendCommand_received pieces []
    rwa [List.append_nil, hpieces, if_neg hnot, if_neg hrunning, receive] at hnil
  · intro recvs
    rw [dacpSendCommand_received, hpieces, if_neg hnot, if_neg hrunning, receive]

def endlessPieces : List Piece := [⟨(okHead []).bytes, by decide⟩, ⟨[7, 8], by decide⟩]

theorem dacpSendCommand_endless_twoBytes :
    dacpSendCommand (.sent (endlessPieces.map .received)) = .waiting ∧
      dacpSendCommand (.sent (endlessPieces.map .received ++ [.nothing])) =
        .returned ⟨495, none⟩ :=
  have h := @dacpSendCommand_endless (okHead []) (by decide) (by decide) endlessPieces [7, 8]
    (by decide)
  ⟨h.1, h.2 []⟩

end Dacp

end ShairportSync
