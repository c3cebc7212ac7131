import ShairportSync.Rtsp.ReadRequest

/-!
# Requests and how they are framed

A valid request is a request line, header lines and an empty line, as `nextline` takes them off the
whole of it, and then as many bytes as its `Content-Length` header says, or none. A call of
`rtsp_read_request` that reads the request in pieces gives the same message, and leaves what comes
after, if and only if no read ends between the CR and the LF of a line end, and the read that ends
the head has the whole content with it unless the program gets its length right: a `Content-Length`
header after the sixteenth header, or one that is not an `int`, is lost. As the buffer does not
outlive the call, no read may bring the bytes of two requests.
-/

namespace ShairportSync

namespace Rtsp

open Player (Bytes)

/-! ## Valid requests -/

/-- Header lines up to an empty line, and what follows it. -/
inductive HeaderLines : Bytes → List (Bytes × Bytes) → Bytes → Prop where
  | last {x line body} : nextline x = some (line, body) → cString line = [] →
      HeaderLines x [] body
  | header {x line next name value headers body} : nextline x = some (line, next) →
      splitHeader (cString line) = some (name, value) → HeaderLines next headers body →
      HeaderLines x ((name, value) :: headers) body

def headerLength (headers : List (Bytes × Bytes)) : Int :=
  match msgGetHeader headers (ascii "Content-Length") with
  | some cl => decimalValue cl
  | none => 0

/-- A valid request: its bytes, and what they mean. The method and the path are what `rtsp_message`
has room for. -/
structure ValidRequest where
  bytes : Bytes
  headerBytes : Bytes
  method : Bytes
  path : Bytes
  headers : List (Bytes × Bytes)
  body : Bytes
  requestLine : ∃ line, nextline bytes = some (line, headerBytes) ∧
    startMessage (cString line) = some ⟨method, path, [], 0, []⟩
  headerLines : HeaderLines headerBytes headers body
  contentLength : headerLength headers = body.length

namespace ValidRequest

variable (q : ValidRequest)

def head : RtspMessage := ⟨q.method, q.path, q.headers.take maxHeaders, 0, []⟩

def message : RtspMessage := q.head.withContent q.body

def headLength : ℕ := q.bytes.length - q.body.length

/-- The length of the content, going by the headers that there is room for, as an `int`. -/
def recordedLength : Int := contentLengthHeader (q.headers.take maxHeaders)

/-- The reads bring the request, and nothing goes wrong: no line end of the head is cut in two; the
recorded length is right, or the last read begins in the head; and there can be a buffer. -/
structure ReadWell (buflen : ℕ) (g : List Bytes) : Prop where
  lineEnds : KeepsLineEnds q.headLength [] g
  nonneg : 0 ≤ q.recordedLength
  size : q.recordedLength = q.body.length ∨ g.dropLast.flatten.length < q.headLength
  fits : FitsBuffer buflen q.recordedLength

end ValidRequest

/-! ## The request in one piece -/

theorem HeaderLines.suffix {x body : Bytes} {headers : List (Bytes × Bytes)}
    (h : HeaderLines x headers body) : body <:+ x := by
  induction h with
  | last hline => exact (nextline_suffix hline).1
  | header hline _ _ ih => exact ih.trans (nextline_suffix hline).1

/-- The headers are added one by one, and the empty line asks for the content length. -/
theorem HeaderLines.handleBuffer {x body : Bytes} {headers : List (Bytes × Bytes)}
    (h : HeaderLines x headers body) (m : RtspMessage) :
    handleBuffer (some m) x =
      let m' := headers.foldl (fun m header => msgAddHeader m header.1 header.2) m
      if contentLengthHeader m'.headers < 0 then Rtsp.handleBuffer (some m') body
      else .complete m' (contentLengthHeader m'.headers) body := by
  induction h generalizing m with
  | last hline hempty =>
      rw [handleBuffer_of_some hline, hempty]
      rfl
  | @header _ line _ name value _ _ hline hsplit _ ih =>
      have hne : cString line ≠ [] := fun h => by simp [h, splitHeader] at hsplit
      rw [handleBuffer_of_some hline, msgHandleLine, if_pos hne, hsplit]
      exact ih (msgAddHeader m name value)

namespace ValidRequest

variable (q : ValidRequest)

theorem suffix : q.body <:+ q.bytes ∧ q.body.length < q.bytes.length := by
  obtain ⟨line, hline, -⟩ := q.requestLine
  obtain ⟨hsuffix, hshorter⟩ := nextline_suffix hline
  exact ⟨q.headerLines.suffix.trans hsuffix, q.headerLines.suffix.length_le.trans_lt hshorter⟩

theorem headLength_add : q.headLength + q.body.length = q.bytes.length :=
  Nat.sub_add_cancel q.suffix.2.le

theorem recordedLength_le : q.recordedLength ≤ q.body.length := by
  have hlength := q.contentLength
  rw [headerLength, ← List.take_append_drop maxHeaders q.headers, msgGetHeader,
    List.find?_append] at hlength
  rw [recordedLength, contentLengthHeader, msgGetHeader]
  cases hfind : (q.headers.take maxHeaders).find? fun header =>
      header.1.map toLower = (ascii "Content-Length").map toLower with
  | none => exact Int.natCast_nonneg _
  | some header =>
      rw [hfind] at hlength
      have hvalue : decimalValue header.2 = q.body.length := hlength
      exact (atoi_le header.2 (by omega)).trans_eq hvalue

/-- The whole of the request is handled as it is meant, unless the length is read as a negative
one. -/
theorem handleBuffer_bytes : handleBuffer none q.bytes =
    if q.recordedLength < 0 then handleBuffer (some q.head) q.body
    else .complete q.head q.recordedLength q.body := by
  obtain ⟨line, hline, hstart⟩ := q.requestLine
  rw [handleBuffer_of_some hline, msgHandleLine, hstart]
  have hlines := q.headerLines.handleBuffer ⟨q.method, q.path, [], 0, []⟩
  rw [foldl_msgAddHeader _ _ (Nat.zero_le _)] at hlines
  exact hlines

/-! ## The request in pieces -/

variable {q} {buflen : ℕ} {g reads : List Bytes} {M : RtspMessage}

theorem recordedLength_eq {gh : List Bytes} {m : RtspMessage} {msgSize : Int} {b : Bytes}
    (hhead : HeadReads buflen gh none [] m msgSize b)
    (hheaders : m.headers = q.headers.take maxHeaders) : q.recordedLength = msgSize := by
  rw [recordedLength, ← hheaders, hhead.size.2]

theorem readWell_of_requestReads (h : RequestReads buflen g q.message)
    (hbytes : g.flatten = q.bytes) : q.ReadWell buflen g := by
  obtain ⟨gh, gc, m, msgSize, b, content, rfl, hhead, hfits, hcontent, hM⟩ := h
  have hbody : q.body = b ++ gc.flatten :=
    (congrArg RtspMessage.content hM).trans hcontent.content_eq
  have hrecorded : q.recordedLength = msgSize :=
    recordedLength_eq hhead (congrArg RtspMessage.headers hM).symm
  have hnonneg : 0 ≤ q.recordedLength := hrecorded ▸ hhead.size.1
  have hwhole := q.handleBuffer_bytes
  rw [if_neg (not_lt.mpr hnonneg), ← hbytes, hbody] at hwhole
  have hlength : q.headLength + b.length = gh.flatten.length := by
    have hsum := q.headLength_add
    rw [← hbytes, hbody, List.flatten_append, List.length_append, List.length_append] at hsum
    omega
  refine ⟨hhead.keepsLineEnds rfl hwhole hlength, hnonneg, ?_, hrecorded ▸ hfits⟩
  rcases hcontent.size with ⟨rfl, -⟩ | ⟨-, hsize⟩
  · have hlast := hhead.length_lt_getLast rfl
    have hsplit := congrArg (fun g => (List.flatten g).length)
      (List.dropLast_concat_getLast hhead.ne_nil)
    simp only [List.flatten_append, List.flatten_singleton, List.length_append] at hsplit
    rw [List.append_nil]
    exact Or.inr (by omega)
  · rw [hrecorded, ← hsize, hcontent.content_eq, ← hbody]
    exact Or.inl rfl

theorem requestReads_of_readWell {rest : List Bytes} (h : q.ReadWell buflen g)
    (hbytes : g.flatten = q.bytes) (hne : ∀ nread ∈ g, nread ≠ [])
    (hpossible : readRequest buflen (g ++ rest) ≠ none) : RequestReads buflen g q.message := by
  have hwhole := q.handleBuffer_bytes
  rw [if_neg (not_lt.mpr h.nonneg), ← hbytes] at hwhole
  have hlength : q.headLength + q.body.length = ([] ++ g.flatten).length := by
    rw [List.nil_append, hbytes, q.headLength_add]
  obtain ⟨gh, gc, b, rfl, hhead, hbody⟩ :=
    headReads_of_keepsLineEnds hpossible hne rfl hwhole hlength h.lineEnds
  refine ⟨gh, gc, q.head, q.recordedLength, b, q.body, rfl, hhead, h.fits,
    ⟨hbody, fun nread hnread => hne nread (List.mem_append_right gh hnread), ?_⟩, rfl⟩
  cases gc with
  | nil =>
      rw [List.flatten_nil, List.append_nil] at hbody
      exact Or.inl ⟨rfl, hbody ▸ q.recordedLength_le⟩
  | cons nread gc =>
      refine Or.inr ⟨List.cons_ne_nil _ _, ?_⟩
      rcases h.size with hsize | hsize
      · exact hsize.symm
      · -- the last read would not begin in the head
        rw [List.dropLast_append_cons, List.flatten_append, List.length_append] at hsize
        rw [List.nil_append, List.flatten_append, List.length_append, hbody,
          List.length_append] at hlength
        omega

theorem nonneg_of_complete {x b : Bytes} {m : RtspMessage} {msgSize : Int}
    (h : handleBuffer (some q.head) x = .complete m msgSize b) : 0 ≤ q.recordedLength := by
  by_contra hneg
  obtain ⟨more, hheaders⟩ := handleBuffer_complete_headers h
  have hsame := contentLengthHeader_append_of_neg (not_le.mp hneg) more
  have hsize := handleBuffer_complete_size h
  rw [← hheaders] at hsize
  have hrecorded : contentLengthHeader (q.head.headers ++ more) = q.recordedLength := hsame
  omega

theorem requestReads_whole_iff :
    RequestReads q.bytes.length [q.bytes] M ↔ 0 ≤ q.recordedLength ∧ M = q.message := by
  constructor
  · rintro ⟨gh, gc, m, msgSize, b, content, hg, hhead, -, hcontent, rfl⟩
    cases hhead with
    | more _ _ _ hrest =>
        have hlength := congrArg List.length hg
        have hpos := List.length_pos_iff.mpr hrest.ne_nil
        simp only [List.length_append, List.length_cons, List.length_nil] at hlength
        omega
    | last _ _ hlines =>
        obtain ⟨rfl, hgc⟩ := List.cons.inj hg
        obtain rfl : gc = [] := hgc.symm
        rw [List.nil_append, q.handleBuffer_bytes] at hlines
        split_ifs at hlines with hneg
        · exact absurd (nonneg_of_complete hlines) (not_le.mpr hneg)
        · obtain ⟨rfl, rfl, rfl⟩ := HeadState.complete.inj hlines
          refine ⟨not_lt.mp hneg, ?_⟩
          rw [hcontent.content_eq, List.flatten_nil, List.append_nil]
          rfl
  · rintro ⟨hnonneg, rfl⟩
    have hlength := q.suffix.2
    have hle := q.recordedLength_le
    have hwhole := q.handleBuffer_bytes
    rw [if_neg (not_lt.mpr hnonneg)] at hwhole
    have hbytes : q.bytes ≠ [] := List.ne_nil_of_length_pos (Nat.zero_lt_of_lt hlength)
    refine ⟨[q.bytes], [], q.head, q.recordedLength, q.body, q.body, rfl,
      .last (by simp) hbytes hwhole, Or.inl (by omega), ⟨by simp, by simp, Or.inl ⟨rfl, hle⟩⟩, rfl⟩

end ValidRequest

/-- A request that is cut into pieces gives the message it gives in one piece, with nothing left
unread, if and only if it is read well. -/
theorem readRequest_segmented_iff (q : ValidRequest) (buflen : ℕ) (reads : List Bytes)
    (hbytes : reads.flatten = q.bytes) (hne : ∀ nread ∈ reads, nread ≠ [])
    (hpossible : readRequest buflen reads ≠ none) :
    (∃ msg, readRequest q.bytes.length [q.bytes] = some (.ok msg, []) ∧
      readRequest buflen reads = some (.ok msg, [])) ↔ q.ReadWell buflen reads := by
  constructor
  · rintro ⟨msg, hwhole, hreads⟩
    obtain ⟨g, hg, hrequest⟩ := readRequest_eq_ok_iff.mp hwhole
    obtain ⟨g', hg', hrequest'⟩ := readRequest_eq_ok_iff.mp hreads
    rw [List.append_nil] at hg hg'
    subst hg hg'
    obtain ⟨-, rfl⟩ := ValidRequest.requestReads_whole_iff.mp hrequest
    exact ValidRequest.readWell_of_requestReads hrequest' hbytes
  · intro h
    refine ⟨q.message, readRequest_eq_ok_iff.mpr ⟨[q.bytes], rfl, ?_⟩,
      readRequest_eq_ok_iff.mpr ⟨reads, (List.append_nil reads).symm, ?_⟩⟩
    · exact ValidRequest.requestReads_whole_iff.mpr ⟨h.nonneg, rfl⟩
    · exact ValidRequest.requestReads_of_readWell h hbytes hne (by rwa [List.append_nil])

def optionsRequest : ValidRequest where
  bytes := ascii "OPTIONS * RTSP/1.0\r\nCSeq: 1\r\n\r\n"
  headerBytes := ascii "CSeq: 1\r\n\r\n"
  method := ascii "OPTIONS"
  path := ascii "*"
  headers := [(ascii "CSeq", ascii "1")]
  body := []
  requestLine := ⟨ascii "OPTIONS * RTSP/1.0", by decide, by decide⟩
  headerLines :=
    .header (by decide : nextline _ = some (ascii "CSeq: 1", ascii "\r\n")) (by decide)
      (.last (by decide : nextline _ = some ([], [])) (by decide))
  contentLength := by decide

/-- A request that is cut between two of its lines. -/
theorem readRequest_segmented_iff_of_options :
    (∃ msg, readRequest optionsRequest.bytes.length [optionsRequest.bytes] = some (.ok msg, []) ∧
      readRequest 4096 [ascii "OPTIONS * RTSP/1.0\r\n", ascii "CSeq: 1\r\n\r\n"] =
        some (.ok msg, [])) ↔
      optionsRequest.ReadWell 4096 [ascii "OPTIONS * RTSP/1.0\r\n", ascii "CSeq: 1\r\n\r\n"] :=
  readRequest_segmented_iff optionsRequest 4096
    [ascii "OPTIONS * RTSP/1.0\r\n", ascii "CSeq: 1\r\n\r\n"] (by decide) (by decide) (by decide)

/-- A read that ends between CR and LF loses the headers after it, and they become content. -/
theorem readRequest_depends_on_segmentation :
    ¬ ∀ (q : ValidRequest) (buflen : ℕ) (reads : List Bytes), reads.flatten = q.bytes →
      (∀ nread ∈ reads, nread ≠ []) → readRequest buflen reads ≠ none →
      ∀ msg, readRequest q.bytes.length [q.bytes] = some (.ok msg, []) →
        ∃ rest, readRequest buflen reads = some (.ok msg, rest) := by
  intro h
  have hsame := h optionsRequest 4096 [ascii "OPTIONS * RTSP/1.0\r", ascii "\nCSeq: 1\r\n\r\n"]
    (by decide) (by decide) (by decide) optionsRequest.message (by decide)
  have hother : readRequest 4096 [ascii "OPTIONS * RTSP/1.0\r", ascii "\nCSeq: 1\r\n\r\n"] =
      some (.ok ⟨ascii "OPTIONS", ascii "*", [], 11, ascii "CSeq: 1\r\n\r\n"⟩, []) := by
    decide
  obtain ⟨rest, hrest⟩ := hsame
  have hmsg := RequestReply.ok.inj (Prod.mk.inj (Option.some.inj (hother.symm.trans hrest))).1
  exact absurd (congrArg RtspMessage.headers hmsg) (by decide)

/-! ## One request after another -/

/-- The calls one after the other give the requests, each with the length of its content, and after
each of them exactly the bytes of the later ones are left. -/
def Framed (buflen : ℕ) : List ValidRequest → List Bytes → Prop
  | [], reads => reads = []
  | q :: qs, reads =>
      ∃ rest, readRequest buflen reads = some (.ok q.message, rest) ∧
        q.message.contentLength.toNat = q.body.length ∧
        rest.flatten = (qs.map ValidRequest.bytes).flatten ∧ Framed buflen qs rest

/-- No read of this many calls brings more than it asks for. -/
def Possible (buflen : ℕ) : ℕ → List Bytes → Prop
  | 0, _ => True
  | calls + 1, reads =>
      ∃ reply rest, readRequest buflen reads = some (reply, rest) ∧ Possible buflen calls rest

theorem bufferLength_lt (metadataEnabled getCoverart : Bool) :
    bufferLength metadataEnabled getCoverart < 2 ^ 32 := by
  rw [bufferLength]
  split_ifs <;> decide

/-- The length of the content is told right. -/
theorem ValidRequest.toNat_contentLength {q : ValidRequest} {buflen : ℕ} {g : List Bytes}
    (h : RequestReads buflen g q.message) (hbuflen : buflen < 2 ^ 32) :
    q.message.contentLength.toNat = q.body.length :=
  Nat.mod_eq_of_lt (h.length_content_lt hbuflen)

/-- Requests that are sent back to back are framed if and only if the reads fall into groups, one
for each request, that bring the request and read it well. -/
theorem framed_iff (metadataEnabled getCoverart : Bool) (qs : List ValidRequest)
    (reads : List Bytes) (hbytes : reads.flatten = (qs.map ValidRequest.bytes).flatten)
    (hne : ∀ nread ∈ reads, nread ≠ [])
    (hpossible : Possible (bufferLength metadataEnabled getCoverart) qs.length reads) :
    Framed (bufferLength metadataEnabled getCoverart) qs reads ↔
      ∃ groups : List (List Bytes), reads = groups.flatten ∧
        List.Forall₂ (fun q g => g.flatten = q.bytes ∧
          q.ReadWell (bufferLength metadataEnabled getCoverart) g) qs groups := by
  have hbuflen := bufferLength_lt metadataEnabled getCoverart
  generalize bufferLength metadataEnabled getCoverart = buflen at hpossible hbuflen ⊢
  induction qs generalizing reads with
  | nil =>
      rw [Framed]
      simp only [List.forall₂_nil_left_iff, exists_eq_right, List.flatten_nil]
  | cons q qs ih =>
      obtain ⟨reply, rest, hread, hlater⟩ := hpossible
      rw [List.map_cons, List.flatten_cons] at hbytes
      constructor
      · rintro ⟨rest', hok, -, hrest, hframed⟩
        obtain ⟨g, rfl, hrequest⟩ := readRequest_eq_ok_iff.mp hok
        obtain ⟨-, rfl⟩ := Prod.mk.inj (Option.some.inj (hread.symm.trans hok))
        have hg : g.flatten = q.bytes := by
          rw [List.flatten_append, hrest] at hbytes
          exact List.append_cancel_right hbytes
        obtain ⟨groups, rfl, hgroups⟩ := (ih rest hrest
          (fun nread hnread => hne nread (List.mem_append_right g hnread)) hlater).mp hframed
        exact ⟨g :: groups, rfl,
          .cons ⟨hg, ValidRequest.readWell_of_requestReads hrequest hg⟩ hgroups⟩
      · rintro ⟨groups, rfl, hgroups⟩
        obtain ⟨g, gs, ⟨hg, hwell⟩, hgs, rfl⟩ := List.forall₂_cons_left_iff.mp hgroups
        rw [List.flatten_cons] at hread hbytes hne
        have hrequest := ValidRequest.requestReads_of_readWell hwell hg
          (fun nread hnread => hne nread (List.mem_append_left _ hnread))
          (hread ▸ Option.some_ne_none _)
        have hok : readRequest buflen (g ++ gs.flatten) = some (.ok q.message, gs.flatten) :=
          readRequest_eq_ok_iff.mpr ⟨g, rfl, hrequest⟩
        obtain ⟨-, rfl⟩ := Prod.mk.inj (Option.some.inj (hread.symm.trans hok))
        have hrest : gs.flatten.flatten = (qs.map ValidRequest.bytes).flatten := by
          rw [List.flatten_append, hg] at hbytes
          exact List.append_cancel_left hbytes
        refine ⟨gs.flatten, hok, ValidRequest.toNat_contentLength hrequest hbuflen, hrest, ?_⟩
        exact (ih gs.flatten hrest
          (fun nread hnread => hne nread (List.mem_append_right g hnread)) hlater).mpr
          ⟨gs, rfl, hgs⟩

/-- Two requests, each in a read of its own. -/
theorem framed_iff_of_options :
    Framed (bufferLength false false) [optionsRequest, optionsRequest]
        [optionsRequest.bytes, optionsRequest.bytes] ↔
      ∃ groups : List (List Bytes),
        [optionsRequest.bytes, optionsRequest.bytes] = groups.flatten ∧
          List.Forall₂ (fun q g => g.flatten = q.bytes ∧ q.ReadWell (bufferLength false false) g)
            [optionsRequest, optionsRequest] groups :=
  framed_iff false false [optionsRequest, optionsRequest]
    [optionsRequest.bytes, optionsRequest.bytes] (by decide) (by decide)
    ⟨.ok optionsRequest.message, [optionsRequest.bytes], by decide, .ok optionsRequest.message, [],
      by decide, trivial⟩

/-- A request that comes in one read with the one before it becomes content of that one. -/
theorem not_framed :
    ¬ ∀ (metadataEnabled getCoverart : Bool) (qs : List ValidRequest) (reads : List Bytes),
      reads.flatten = (qs.map ValidRequest.bytes).flatten → (∀ nread ∈ reads, nread ≠ []) →
      Possible (bufferLength metadataEnabled getCoverart) qs.length reads →
      Framed (bufferLength metadataEnabled getCoverart) qs reads := by
  intro h
  have hboth : readRequest (bufferLength false false)
      [optionsRequest.bytes ++ optionsRequest.bytes] =
        some (.ok (optionsRequest.head.withContent optionsRequest.bytes), []) := by decide
  obtain ⟨rest, hok, -⟩ := h false false [optionsRequest, optionsRequest]
    [optionsRequest.bytes ++ optionsRequest.bytes] (by decide) (by decide)
    ⟨_, _, hboth, .channelClosed, [], rfl, trivial⟩
  have hmsg := RequestReply.ok.inj (Prod.mk.inj (Option.some.inj (hboth.symm.trans hok))).1
  exact absurd (congrArg RtspMessage.content hmsg) (by decide)

end Rtsp

end ShairportSync
