import ShairportSync.Metadata.Hub

/-!
# What the hub reads of an item

An item of type 'core' comes with a data pointer and a length. `metadata_hub_process_metadata`
reads a number of a fixed size from some of them, and copies a string from others with `strndup`,
which reads up to the length or to a NUL before it. An item without data has a NULL pointer. The
strings are read inside the data in any case, and the numbers exactly if the data is at least as
long as they are: the length is not looked at.
-/

namespace ShairportSync

namespace Metadata

open Player (Bytes)

/-! ## Codes -/

/-- A code as it is written in the source, four characters between quotes. -/
def fourChars (a b c d : Char) : BitVec 32 :=
  ntohl (.ofNat 8 a.toNat) (.ofNat 8 b.toNat) (.ofNat 8 c.toNat) (.ofNat 8 d.toNat)

def coreCode (code : BitVec 32) : CoreCode :=
  if code = fourChars 'a' 's' 'd' 'k' then .asdk
  else if code = fourChars 'm' 'p' 'e' 'r' then .mper
  else if code = fourChars 'a' 's' 't' 'm' then .astm
  else if code = fourChars 'a' 's' 'a' 'l' then .asal
  else if code = fourChars 'a' 's' 'a' 'r' then .asar
  else if code = fourChars 'a' 's' 's' 'l' then .assl
  else if code = fourChars 'a' 's' 'c' 'm' then .ascm
  else if code = fourChars 'a' 's' 'g' 'n' then .asgn
  else if code = fourChars 'm' 'i' 'n' 'm' then .minm
  else if code = fourChars 'a' 's' 'c' 'p' then .ascp
  else if code = fourChars 'a' 's' 'd' 't' then .asdt
  else if code = fourChars 'a' 's' 'a' 'a' then .asaa
  else if code = fourChars 'a' 's' 's' 'n' then .assn
  else if code = fourChars 'a' 's' 's' 'a' then .assa
  else if code = fourChars 'a' 's' 's' 'u' then .assu
  else if code = fourChars 'a' 's' 's' 'c' then .assc
  else .other code

/-- How many bytes the number has that the data is read as, if it is read as a number. -/
def CoreCode.numberWidth : CoreCode → Option ℕ
  | .asdk => some 1
  | .mper => some 8
  | .astm => some 4
  | _ => none

/-! ## Reads -/

/-- How many bytes `strndup` reads: up to the length, or up to a NUL before it. -/
def strndupReads (data : Bytes) (length : ℕ) : ℕ := min length ((strndup data length).length + 1)

/-- The offsets from the data pointer that are read. -/
def CoreItem.reads (item : CoreItem) : List ℕ :=
  match item.code.numberWidth with
  | some width => List.range width
  | none =>
      match item.code.textField with
      | some _ => List.range (strndupReads item.data item.length)
      | none => []

section Reads

variable {h : Hub} {data data' : Bytes}

theorem strndup_congr (length : ℕ)
    (hreads : ∀ i < strndupReads data length, data'[i]? = data[i]?) :
    strndup data' length = strndup data length := by
  induction length generalizing data data' with
  | zero => rfl
  | succ n ih =>
      have hfirst : data'[0]? = data[0]? := hreads 0 (by simp [strndupReads])
      cases data with
      | nil =>
          rw [List.getElem?_nil, List.getElem?_eq_none_iff, Nat.le_zero,
            List.length_eq_zero_iff] at hfirst
          rw [hfirst]
      | cons b data =>
          cases data' with
          | nil => exact absurd hfirst.symm (Option.some_ne_none b)
          | cons b' data' =>
              obtain rfl : b' = b := Option.some.inj hfirst
              by_cases hzero : b' = 0
              · simp [strndup, hzero]
              · have hcons (data : Bytes) :
                    strndup (b' :: data) (n + 1) = b' :: strndup data n :=
                  List.takeWhile_cons_of_pos (bne_iff_ne.mpr hzero)
                rw [hcons, hcons]
                refine congrArg _ (ih fun i hi => hreads (i + 1) ?_)
                rw [strndupReads, hcons, List.length_cons]
                rw [strndupReads] at hi
                omega

theorem firstByte_eq (data : Bytes) : firstByte data = data[0]?.map (BitVec.setWidth 32) := by
  cases data <;> rfl

theorem firstWord_eq (data : Bytes) : firstWord data =
    data[0]?.bind fun a => data[1]?.bind fun b => data[2]?.bind fun c => data[3]?.map fun d =>
      ntohl a b c d := by
  rcases data with _ | ⟨a, _ | ⟨b, _ | ⟨c, _ | ⟨d, data⟩⟩⟩⟩ <;> rfl

theorem firstWord_congr (hreads : ∀ i < 4, data'[i]? = data[i]?) :
    firstWord data' = firstWord data := by
  rw [firstWord_eq, firstWord_eq, hreads 0 (by decide), hreads 1 (by decide),
    hreads 2 (by decide), hreads 3 (by decide)]

theorem firstDoubleWord_congr (hreads : ∀ i < 8, data'[i]? = data[i]?) :
    firstDoubleWord data' = firstDoubleWord data := by
  have hfirst : firstWord data' = firstWord data := firstWord_congr fun i hi => hreads i (by omega)
  have hsecond : firstWord (data'.drop 4) = firstWord (data.drop 4) := by
    refine firstWord_congr fun i hi => ?_
    rw [List.getElem?_drop, List.getElem?_drop]
    exact hreads (4 + i) (by omega)
  rw [firstDoubleWord, firstDoubleWord, hfirst, hsecond]

theorem processCore_congr (h : Hub) (code : CoreCode) (length : ℕ)
    (hreads : ∀ i ∈ (CoreItem.mk code data length).reads, data'[i]? = data[i]?) :
    h.processCore ⟨code, data', length⟩ = h.processCore ⟨code, data, length⟩ := by
  cases hf : code.textField with
  | some f =>
      have hnumber : code.numberWidth = none := by
        cases code <;> first | rfl | exact absurd hf.symm (Option.some_ne_none f)
      have hstrndup : strndup data' length = strndup data length := by
        refine strndup_congr length fun i hi => hreads i ?_
        simp only [CoreItem.reads, hnumber, hf]
        exact List.mem_range.mpr hi
      have htext (data : Bytes) : h.processCore ⟨code, data, length⟩ =
          some (h.processText f ⟨code, data, length⟩) := processCore_of_textField hf
      rw [htext, htext, Hub.processText, Hub.processText, hstrndup]
  | none =>
      have hrange {width : ℕ} (hwidth : code.numberWidth = some width) :
          ∀ i < width, data'[i]? = data[i]? := by
        intro i hi
        refine hreads i ?_
        simp only [CoreItem.reads, hwidth]
        exact List.mem_range.mpr hi
      cases code with
      | asdk =>
          simp only [Hub.processCore, firstByte_eq]
          rw [hrange rfl 0 (by decide)]
      | mper =>
          simp only [Hub.processCore]
          rw [firstDoubleWord_congr (hrange rfl)]
      | astm =>
          simp only [Hub.processCore]
          rw [firstWord_congr (hrange rfl)]
      | other code => rfl
      | _ => exact absurd hf.symm (Option.some_ne_none _).symm

end Reads

/-! ## Items from the network -/

def SentItem.coreItem (item : SentItem) : CoreItem :=
  ⟨coreCode item.code, item.data.getD [], item.length.toNat⟩

/-- Only bytes of the data are read, and none through a NULL pointer. -/
def SentItem.ReadsInside (item : SentItem) : Prop :=
  ∀ i ∈ item.coreItem.reads, ∃ data, item.data = some data ∧ i < data.length

section Sent

variable {memory : ℕ → BitVec 8} {it : Iteration}

theorem length_data_sent (memory : ℕ → BitVec 8) (it : Iteration) :
    ((it.sent memory).data.getD []).length = it.vl.toNat ∧
      ((it.sent memory).data = none → it.vl.toNat = 0) := by
  rw [Iteration.sent]
  split_ifs with hzero
  · exact ⟨by rw [hzero]; rfl, fun _ => by rw [hzero]; rfl⟩
  · exact ⟨by simp, by simp⟩

theorem length_coreItem_sent (memory : ℕ → BitVec 8) (it : Iteration) :
    (it.sent memory).coreItem.length = it.vl.toNat := by
  rw [SentItem.coreItem, Iteration.sent]
  split_ifs with hzero
  · rw [hzero]
  · rfl

theorem code_sent (memory : ℕ → BitVec 8) (it : Iteration) : (it.sent memory).code = it.itag := by
  rw [Iteration.sent]
  split_ifs <;> rfl

theorem readsInside_iff_forall_lt :
    (it.sent memory).ReadsInside ↔ ∀ i ∈ (it.sent memory).coreItem.reads, i < it.vl.toNat := by
  obtain ⟨hlength, hnull⟩ := length_data_sent memory it
  refine forall₂_congr fun i hi => ?_
  cases hdata : (it.sent memory).data with
  | none => simp [hnull hdata]
  | some data =>
      rw [hdata] at hlength
      constructor
      · rintro ⟨data', heq, hlt⟩
        obtain rfl := Option.some.inj heq
        exact hlt.trans_eq hlength
      · exact fun hlt => ⟨data, rfl, hlt.trans_eq hlength.symm⟩

end Sent

/-- Whatever the network delivers, the hub reads only what the item carries exactly if the item is
at least as long as the number that it is read as. -/
theorem readsInside_sent_iff (memory : ℕ → BitVec 8) (it : Iteration) :
    (it.sent memory).ReadsInside ↔
      ∀ width, (coreCode it.itag).numberWidth = some width → width ≤ it.vl.toNat := by
  have hcode : (it.sent memory).coreItem.code = coreCode it.itag :=
    congrArg coreCode (code_sent memory it)
  rw [readsInside_iff_forall_lt, CoreItem.reads, hcode]
  cases hnumber : (coreCode it.itag).numberWidth with
  | some width =>
      constructor
      · rintro hreads width' heq
        obtain rfl := Option.some.inj heq
        by_contra hshort
        exact absurd (hreads it.vl.toNat (List.mem_range.mpr (not_le.mp hshort))) (lt_irrefl _)
      · intro hlong i hi
        exact (List.mem_range.mp hi).trans_le (hlong width rfl)
  | none =>
      refine iff_of_true (fun i hi => ?_) fun width heq => absurd heq.symm (Option.some_ne_none _)
      cases hf : (coreCode it.itag).textField with
      | none =>
          rw [hf] at hi
          exact absurd hi List.not_mem_nil
      | some f =>
          rw [hf] at hi
          have hlt := (List.mem_range.mp hi).trans_le (Nat.min_le_left _ _)
          rwa [length_coreItem_sent] at hlt

/-- A body with one item, a song data kind without data: it is read through a NULL pointer. -/
theorem not_readsInside_of_empty_number :
    ¬ ∀ (content : Bytes) (beyond : ℕ → BitVec 8) (turns : ℕ) (its : List Iteration),
      handleSetParameterMetadata content beyond turns = some its →
        ∀ it ∈ its, (it.sent (contentMemory content beyond)).ReadsInside := by
  intro h
  have hreads := h (List.replicate 8 0 ++ htonl (fourChars 'a' 's' 'd' 'k') ++ htonl 0)
    (fun _ => 0) 1 [⟨8, fourChars 'a' 's' 'd' 'k', 0⟩] (by decide) _ List.mem_cons_self
  obtain ⟨data, hdata, -⟩ := hreads 0 (by decide)
  exact Option.some_ne_none data hdata.symm

end Metadata

end ShairportSync
