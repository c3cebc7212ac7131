import ShairportSync.Rtsp.Response

/-!
# FairPlay set-up

`handle_fp_setup` looks at bytes of the body at fixed offsets, whatever its length. It answers the
first message with one of four texts, and the second with a head and the last twenty bytes of the
body. The length of the answer is set even where there is none.
-/

namespace ShairportSync

namespace Rtsp

open Player (Bytes)
open Memory

/-! ## The answers -/

def serverFpReply1 : Bytes :=
  [0x46, 0x50, 0x4c, 0x59, 0x03, 0x01, 0x02, 0x00, 0x00, 0x00, 0x00, 0x82, 0x02, 0x00, 0x0f,
    0x9f, 0x3f, 0x9e, 0x0a, 0x25, 0x21, 0xdb, 0xdf, 0x31, 0x2a, 0xb2, 0xbf, 0xb2, 0x9e, 0x8d,
    0x23, 0x2b, 0x63, 0x76, 0xa8, 0xc8, 0x18, 0x70, 0x1d, 0x22, 0xae, 0x93, 0xd8, 0x27, 0x37,
    0xfe, 0xaf, 0x9d, 0xb4, 0xfd, 0xf4, 0x1c, 0x2d, 0xba, 0x9d, 0x1f, 0x49, 0xca, 0xaa, 0xbf,
    0x65, 0x91, 0xac, 0x1f, 0x7b, 0xc6, 0xf7, 0xe0, 0x66, 0x3d, 0x21, 0xaf, 0xe0, 0x15, 0x65,
    0x95, 0x3e, 0xab, 0x81, 0xf4, 0x18, 0xce, 0xed, 0x09, 0x5a, 0xdb, 0x7c, 0x3d, 0x0e, 0x25,
    0x49, 0x09, 0xa7, 0x98, 0x31, 0xd4, 0x9c, 0x39, 0x82, 0x97, 0x34, 0x34, 0xfa, 0xcb, 0x42,
    0xc6, 0x3a, 0x1c, 0xd9, 0x11, 0xa6, 0xfe, 0x94, 0x1a, 0x8a, 0x6d, 0x4a, 0x74, 0x3b, 0x46,
    0xc3, 0xa7, 0x64, 0x9e, 0x44, 0xc7, 0x89, 0x55, 0xe4, 0x9d, 0x81, 0x55, 0x00, 0x95, 0x49,
    0xc4, 0xe2, 0xf7, 0xa3, 0xf6, 0xd5, 0xba]

def serverFpReply2 : Bytes :=
  [0x46, 0x50, 0x4c, 0x59, 0x03, 0x01, 0x02, 0x00, 0x00, 0x00, 0x00, 0x82, 0x02, 0x01, 0xcf,
    0x32, 0xa2, 0x57, 0x14, 0xb2, 0x52, 0x4f, 0x8a, 0xa0, 0xad, 0x7a, 0xf1, 0x64, 0xe3, 0x7b,
    0xcf, 0x44, 0x24, 0xe2, 0x00, 0x04, 0x7e, 0xfc, 0x0a, 0xd6, 0x7a, 0xfc, 0xd9, 0x5d, 0xed,
    0x1c, 0x27, 0x30, 0xbb, 0x59, 0x1b, 0x96, 0x2e, 0xd6, 0x3a, 0x9c, 0x4d, 0xed, 0x88, 0xba,
    0x8f, 0xc7, 0x8d, 0xe6, 0x4d, 0x91, 0xcc, 0xfd, 0x5c, 0x7b, 0x56, 0xda, 0x88, 0xe3, 0x1f,
    0x5c, 0xce, 0xaf, 0xc7, 0x43, 0x19, 0x95, 0xa0, 0x16, 0x65, 0xa5, 0x4e, 0x19, 0x39, 0xd2,
    0x5b, 0x94, 0xdb, 0x64, 0xb9, 0xe4, 0x5d, 0x8d, 0x06, 0x3e, 0x1e, 0x6a, 0xf0, 0x7e, 0x96,
    0x56, 0x16, 0x2b, 0x0e, 0xfa, 0x40, 0x42, 0x75, 0xea, 0x5a, 0x44, 0xd9, 0x59, 0x1c, 0x72,
    0x56, 0xb9, 0xfb, 0xe6, 0x51, 0x38, 0x98, 0xb8, 0x02, 0x27, 0x72, 0x19, 0x88, 0x57, 0x16,
    0x50, 0x94, 0x2a, 0xd9, 0x46, 0x68, 0x8a]

def serverFpReply3 : Bytes :=
  [0x46, 0x50, 0x4c, 0x59, 0x03, 0x01, 0x02, 0x00, 0x00, 0x00, 0x00, 0x82, 0x02, 0x02, 0xc1,
    0x69, 0xa3, 0x52, 0xee, 0xed, 0x35, 0xb1, 0x8c, 0xdd, 0x9c, 0x58, 0xd6, 0x4f, 0x16, 0xc1,
    0x51, 0x9a, 0x89, 0xeb, 0x53, 0x17, 0xbd, 0x0d, 0x43, 0x36, 0xcd, 0x68, 0xf6, 0x38, 0xff,
    0x9d, 0x01, 0x6a, 0x5b, 0x52, 0xb7, 0xfa, 0x92, 0x16, 0xb2, 0xb6, 0x54, 0x82, 0xc7, 0x84,
    0x44, 0x11, 0x81, 0x21, 0xa2, 0xc7, 0xfe, 0xd8, 0x3d, 0xb7, 0x11, 0x9e, 0x91, 0x82, 0xaa,
    0xd7, 0xd1, 0x8c, 0x70, 0x63, 0xe2, 0xa4, 0x57, 0x55, 0x59, 0x10, 0xaf, 0x9e, 0x0e, 0xfc,
    0x76, 0x34, 0x7d, 0x16, 0x40, 0x43, 0x80, 0x7f, 0x58, 0x1e, 0xe4, 0xfb, 0xe4, 0x2c, 0xa9,
    0xde, 0xdc, 0x1b, 0x5e, 0xb2, 0xa3, 0xaa, 0x3d, 0x2e, 0xcd, 0x59, 0xe7, 0xee, 0xe7, 0x0b,
    0x36, 0x29, 0xf2, 0x2a, 0xfd, 0x16, 0x1d, 0x87, 0x73, 0x53, 0xdd, 0xb9, 0x9a, 0xdc, 0x8e,
    0x07, 0x00, 0x6e, 0x56, 0xf8, 0x50, 0xce]

def serverFpReply4 : Bytes :=
  [0x46, 0x50, 0x4c, 0x59, 0x03, 0x01, 0x02, 0x00, 0x00, 0x00, 0x00, 0x82, 0x02, 0x03, 0x90,
    0x01, 0xe1, 0x72, 0x7e, 0x0f, 0x57, 0xf9, 0xf5, 0x88, 0x0d, 0xb1, 0x04, 0xa6, 0x25, 0x7a,
    0x23, 0xf5, 0xcf, 0xff, 0x1a, 0xbb, 0xe1, 0xe9, 0x30, 0x45, 0x25, 0x1a, 0xfb, 0x97, 0xeb,
    0x9f, 0xc0, 0x01, 0x1e, 0xbe, 0x0f, 0x3a, 0x81, 0xdf, 0x5b, 0x69, 0x1d, 0x76, 0xac, 0xb2,
    0xf7, 0xa5, 0xc7, 0x08, 0xe3, 0xd3, 0x28, 0xf5, 0x6b, 0xb3, 0x9d, 0xbd, 0xe5, 0xf2, 0x9c,
    0x8a, 0x17, 0xf4, 0x81, 0x48, 0x7e, 0x3a, 0xe8, 0x63, 0xc6, 0x78, 0x32, 0x54, 0x22, 0xe6,
    0xf7, 0x8e, 0x16, 0x6d, 0x18, 0xaa, 0x7f, 0xd6, 0x36, 0x25, 0x8b, 0xce, 0x28, 0x72, 0x6f,
    0x66, 0x1f, 0x73, 0x88, 0x93, 0xce, 0x44, 0x31, 0x1e, 0x4b, 0xe6, 0xc0, 0x53, 0x51, 0x93,
    0xe5, 0xef, 0x72, 0xe8, 0x68, 0x62, 0x33, 0x72, 0x9c, 0x22, 0x7d, 0x82, 0x0c, 0x99, 0x94,
    0x45, 0xd8, 0x92, 0x46, 0xc8, 0xc3, 0x59]

def serverFpHeader : Bytes :=
  [0x46, 0x50, 0x4c, 0x59, 0x03, 0x01, 0x04, 0x00, 0x00, 0x00, 0x00, 0x14]

/-- The response that `handle_fp_setup` leaves, with what it has read of the memory from the start
of the body on. -/
structure FpAnswer where
  reads : List Read
  respcode : BitVec 32
  headers : List (Bytes × Bytes)
  content : Option Bytes
  contentlength : ℕ

/-- The content and its length, and what has been read since the sequence number. -/
structure FpContent where
  reads : List Read
  response : Option Bytes
  len : ℕ

abbrev versionPos : ℕ := 4

abbrev modePos : ℕ := 14

abbrev typePos : ℕ := 5

abbrev seqPos : ℕ := 6

def setup1MessageSeq : BitVec 8 := 1

def setup2MessageSeq : BitVec 8 := 3

abbrev setup2SuffixLen : ℕ := 20

def fpReply (mode : BitVec 8) : Option Bytes :=
  if mode = 0 then some serverFpReply1
  else if mode = 1 then some serverFpReply2
  else if mode = 2 then some serverFpReply3
  else if mode = 3 then some serverFpReply4
  else none

/-- `malloc` and `memdup`, if there is memory. -/
def allocate (allocated : Bool) (bytes : Bytes) : Option Bytes :=
  if allocated then some bytes else none

def fpContent (memory : Int → BitVec 8) (contentlength : ℕ) (allocated : Bool) : FpContent :=
  if memory seqPos = setup1MessageSeq then
    { reads := [⟨modePos, 1⟩]
      response := (fpReply (memory modePos)).bind (allocate allocated)
      len := serverFpReply1.length }
  else if memory seqPos = setup2MessageSeq then
    let suffix : Int := contentlength - setup2SuffixLen
    { reads := if allocated then [⟨suffix, setup2SuffixLen⟩] else []
      response := allocate allocated <| serverFpHeader ++
        (List.range setup2SuffixLen).map fun k => memory (suffix + (k : ℕ))
      len := serverFpHeader.length + setup2SuffixLen }
  else ⟨[], none, 0⟩

/-- Only the body has been read, and there is as much content as the length says. -/
def FpContent.Copyable (body : Bytes) (c : FpContent) : Prop :=
  (∀ r ∈ c.reads, r.Inside body.length) ∧
    (c.len = 0 ∨ ∃ bytes, c.response = some bytes ∧ bytes.length = c.len)

def fpHeadReads (memory : Int → BitVec 8) : List Read :=
  ⟨versionPos, 1⟩ :: (if memory versionPos ≠ 3 then [] else [⟨typePos, 1⟩]) ++ [⟨seqPos, 1⟩]

def handleFpSetup (memory : Int → BitVec 8) (contentlength : ℕ) (allocated : Bool) : FpAnswer :=
  let content := fpContent memory contentlength allocated
  { reads := fpHeadReads memory ++ content.reads
    respcode := 200
    headers := [(ascii "Content-Type", ascii "application/octet-stream")]
    content := content.response
    contentlength := content.len }

def bodyMemory (beyond : Int → BitVec 8) (body : Bytes) : Int → BitVec 8 := store beyond 0 body

/-- Only the body has been read, and the content can be copied. -/
structure FpAnswer.WellFormed (body : Bytes) (a : FpAnswer) : Prop where
  reads : ∀ r ∈ a.reads, r.Inside body.length
  content : a.contentlength = 0 ∨ ∃ bytes, a.content = some bytes ∧ bytes.length = a.contentlength

section WellFormed

variable {beyond : Int → BitVec 8} {body : Bytes} {allocated : Bool}

theorem length_serverFpReply :
    ∀ reply ∈ [serverFpReply1, serverFpReply2, serverFpReply3, serverFpReply4],
      reply.length = 142 := by
  simp only [List.forall_mem_cons, List.not_mem_nil, false_implies, implies_true, and_true]
  exact ⟨rfl, rfl, rfl, rfl⟩

theorem length_serverFpHeader : serverFpHeader.length = 12 := rfl

theorem length_fpReply {mode : BitVec 8} {reply : Bytes} (h : fpReply mode = some reply) :
    reply.length = serverFpReply1.length := by
  have hmem : reply ∈ [serverFpReply1, serverFpReply2, serverFpReply3, serverFpReply4] := by
    rw [fpReply] at h
    split_ifs at h <;> obtain rfl := Option.some.inj h <;> simp
  rw [length_serverFpReply reply hmem, length_serverFpReply serverFpReply1 List.mem_cons_self]

theorem fpReply_isSome_iff (mode : BitVec 8) : (fpReply mode).isSome ↔ mode ≤ 3 := by
  have hmode : mode ≤ 3 ↔ mode = 0 ∨ mode = 1 ∨ mode = 2 ∨ mode = 3 := by
    revert mode
    decide
  rw [hmode, fpReply]
  split_ifs <;> simp_all

theorem bodyMemory_eq (beyond : Int → BitVec 8) {k : ℕ} (hk : k < body.length) :
    bodyMemory beyond body k = body[k] :=
  store_zero hk

theorem forall_read_inside_one {k : ℕ} :
    (∀ r ∈ [(⟨k, 1⟩ : Read)], r.Inside body.length) ↔ k < body.length := by
  rw [List.forall_mem_singleton]
  constructor
  · rintro ⟨-, hend⟩
    simp only [Nat.cast_one] at hend
    omega
  · intro hk
    refine ⟨Int.natCast_nonneg _, ?_⟩
    simp only [Nat.cast_one]
    omega

theorem fpContent_first (hseq : bodyMemory beyond body seqPos = setup1MessageSeq) :
    (fpContent (bodyMemory beyond body) body.length allocated).Copyable body ↔
      (∃ mode, body[modePos]? = some mode ∧ mode ≤ 3) ∧ allocated = true := by
  have hlen : serverFpReply1.length ≠ 0 := by
    rw [length_serverFpReply serverFpReply1 List.mem_cons_self]
    decide
  rw [fpContent, if_pos hseq, FpContent.Copyable, forall_read_inside_one, or_iff_right hlen]
  constructor
  · rintro ⟨hmode, bytes, hresponse, -⟩
    obtain ⟨reply, hreply, hallocated⟩ := Option.bind_eq_some_iff.mp hresponse
    refine ⟨⟨body[modePos], List.getElem?_eq_getElem hmode, ?_⟩, ?_⟩
    · rw [← bodyMemory_eq beyond hmode, ← fpReply_isSome_iff, hreply, Option.isSome_some]
    · cases allocated with
      | false => cases hallocated
      | true => rfl
  · rintro ⟨⟨mode, hmode, hle⟩, rfl⟩
    obtain ⟨hlt, rfl⟩ := List.getElem?_eq_some_iff.mp hmode
    obtain ⟨reply, hreply⟩ := Option.isSome_iff_exists.mp ((fpReply_isSome_iff _).mpr hle)
    refine ⟨hlt, reply, ?_, ?_⟩
    · rw [bodyMemory_eq beyond hlt, hreply]
      rfl
    · rw [length_fpReply hreply]

theorem fpContent_second (hseq : bodyMemory beyond body seqPos = setup2MessageSeq) :
    (fpContent (bodyMemory beyond body) body.length allocated).Copyable body ↔
      setup2SuffixLen ≤ body.length ∧ allocated = true := by
  have hne : ¬ bodyMemory beyond body seqPos = setup1MessageSeq := by
    rw [hseq]
    decide
  rw [fpContent, if_neg hne, if_pos hseq, FpContent.Copyable]
  cases allocated with
  | false => simp [allocate, length_serverFpHeader]
  | true =>
      simp only [allocate, if_true, List.forall_mem_singleton, and_true]
      constructor
      · rintro ⟨⟨hstart, -⟩, -⟩
        simp only [setup2SuffixLen] at hstart ⊢
        omega
      · intro hlength
        refine ⟨⟨?_, ?_⟩, Or.inr ⟨_, rfl, ?_⟩⟩
        · simp only [setup2SuffixLen] at hlength ⊢
          omega
        · simp
        · rw [List.length_append, List.length_map, List.length_range]

theorem fpHeadReads_inside_iff (beyond : Int → BitVec 8) :
    (∀ r ∈ fpHeadReads (bodyMemory beyond body), r.Inside body.length) ↔
      seqPos < body.length := by
  constructor
  · intro h
    exact forall_read_inside_one.mp fun r hr => h r (List.mem_append_right _ hr)
  · intro hseq r hr
    have hinside : ∀ {k : ℕ}, k ≤ seqPos → (⟨k, 1⟩ : Read).Inside body.length := fun hk =>
      forall_read_inside_one.mpr (hk.trans_lt hseq) _ List.mem_cons_self
    rw [fpHeadReads, List.mem_append, List.mem_cons, List.mem_singleton] at hr
    rcases hr with (rfl | hr) | rfl
    · exact hinside (by decide)
    · split_ifs at hr
      · cases hr
      · obtain rfl := List.mem_singleton.mp hr
        exact hinside (by decide)
    · exact hinside le_rfl

theorem handleFpSetup_wellFormed :
    (handleFpSetup (bodyMemory beyond body) body.length allocated).WellFormed body ↔
      seqPos < body.length ∧
        (fpContent (bodyMemory beyond body) body.length allocated).Copyable body := by
  rw [← fpHeadReads_inside_iff beyond]
  constructor
  · rintro ⟨hreads, hcontent⟩
    obtain ⟨hhead, hrest⟩ := List.forall_mem_append.mp hreads
    exact ⟨hhead, hrest, hcontent⟩
  · rintro ⟨hhead, hrest, hcontent⟩
    exact ⟨List.forall_mem_append.mpr ⟨hhead, hrest⟩, hcontent⟩

/-- The answer is well formed exactly if the body has a sequence number, and what the message with
that number asks for: a mode that there is an answer for, or twenty bytes. -/
theorem handleFpSetup_wellFormed_iff (beyond : Int → BitVec 8) (body : Bytes) (allocated : Bool) :
    (handleFpSetup (bodyMemory beyond body) body.length allocated).WellFormed body ↔
      seqPos < body.length ∧
      (body[seqPos]? = some setup1MessageSeq →
        (∃ mode, body[modePos]? = some mode ∧ mode ≤ 3) ∧ allocated = true) ∧
      (body[seqPos]? = some setup2MessageSeq →
        setup2SuffixLen ≤ body.length ∧ allocated = true) := by
  rw [handleFpSetup_wellFormed]
  refine and_congr_right fun hseq => ?_
  have hmemory := bodyMemory_eq beyond hseq
  rw [List.getElem?_eq_getElem hseq, ← hmemory, Option.some_inj, Option.some_inj]
  by_cases hfirst : bodyMemory beyond body seqPos = setup1MessageSeq
  · have hne : ¬ bodyMemory beyond body seqPos = setup2MessageSeq := by
      rw [hfirst]
      decide
    rw [fpContent_first hfirst]
    exact ⟨fun h => ⟨fun _ => h, fun hsecond => absurd hsecond hne⟩, fun h => h.1 hfirst⟩
  · by_cases hsecond : bodyMemory beyond body seqPos = setup2MessageSeq
    · rw [fpContent_second hsecond]
      exact ⟨fun h => ⟨fun hseq => absurd hseq hfirst, fun _ => h⟩, fun h => h.2 hsecond⟩
    · rw [fpContent, if_neg hfirst, if_neg hsecond]
      exact ⟨fun _ => ⟨fun hseq => absurd hseq hfirst, fun hseq => absurd hseq hsecond⟩,
        fun _ => ⟨List.forall_mem_nil _, Or.inl rfl⟩⟩

end WellFormed

def modeFour : Bytes := [0x46, 0x50, 0x4c, 0x59, 3, 1, 1, 0, 0, 0, 0, 4, 2, 0, 4, 0xbb]

theorem handleFpSetup_modeFour :
    ¬ (handleFpSetup (bodyMemory (fun _ => 0) modeFour) modeFour.length true).WellFormed
      modeFour := by
  have hseq : bodyMemory (fun _ => 0) modeFour seqPos = setup1MessageSeq :=
    bodyMemory_eq _ (by decide)
  rw [handleFpSetup_wellFormed, fpContent_first hseq]
  rintro ⟨-, ⟨mode, hmode, hle⟩, -⟩
  obtain rfl : (4 : BitVec 8) = mode := Option.some.inj hmode
  exact absurd hle (by decide)

end Rtsp

end ShairportSync
