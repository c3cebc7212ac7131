import Mathlib.Logic.Function.Basic
import ShairportSync.Rtsp.Message

/-!
# Quoted fields

`rtsp_auth` finds the fields of a header with `strstr` before it ends any of them, and ends each
with a NUL in the place of its second quote. A quote that has been taken away like this may be the
first quote of another field.

Between its quotes a header is a list of segments. A field begins at the end of the first segment
that ends in its name, and its value is the next segment.
-/

namespace ShairportSync

namespace Rtsp

open Player (Bytes)

/-! ## The code -/

abbrev quote : BitVec 8 := 34

/-- `strstr`: where the first occurrence begins -/
def strstr (needle : Bytes) : Bytes → Option ℕ
  | [] => none
  | b :: s => if needle <+: b :: s then some 0 else (strstr needle s).map (· + 1)

/-- `strchr` of a quote, in the string at a place in memory -/
def strchr (memory : Bytes) (start : ℕ) : Option ℕ :=
  if quote ∈ cString (memory.drop start) then
    some (start + (cString (memory.drop start)).idxOf quote)
  else none

/-- `field = strchr(field, '"') + 1; if (!(quote = strchr(field, '"'))) goto authenticate;
*quote = 0;`. There is nothing if the first quote is not there, since that is not checked. -/
def quoted (memory : Bytes) (field : ℕ) : Option (Option (ℕ × Bytes)) :=
  (strchr memory field).map fun first =>
    (strchr memory (first + 1)).map fun second => (first + 1, memory.set second 0)

/-- The fields one after the other: where their values begin, and what is then in memory -/
def quotedAll : List ℕ → Bytes → Option (Option (List ℕ × Bytes))
  | [], memory => some (some ([], memory))
  | field :: fields, memory =>
      (quoted memory field).bind fun
        | none => some none
        | some (start, memory) =>
            (quotedAll fields memory).map fun rest =>
              rest.map fun (starts, memory) => (start :: starts, memory)

/-! ## Segments -/

def Clean (s : Bytes) : Prop := quote ∉ s ∧ (0 : BitVec 8) ∉ s

instance (s : Bytes) : Decidable (Clean s) := inferInstanceAs (Decidable (_ ∧ _))

def buffer : (ℕ → BitVec 8) → List Bytes → Bytes → Bytes
  | _, [], last => last
  | ends, s :: segments, last => s ++ ends 0 :: buffer (fun i => ends (i + 1)) segments last

def offset (segments : List Bytes) (i : ℕ) : ℕ :=
  ((segments.take i).map fun s => s.length + 1).sum

theorem offset_cons (s : Bytes) (segments : List Bytes) (i : ℕ) :
    offset (s :: segments) (i + 1) = s.length + 1 + offset segments i := by
  rw [offset, List.take_succ_cons, List.map_cons, List.sum_cons, offset]

theorem offset_succ {segments : List Bytes} {i : ℕ} {s : Bytes} (h : segments[i]? = some s) :
    offset segments (i + 1) = offset segments i + s.length + 1 := by
  rw [offset, List.take_add_one, h, Option.toList_some, List.map_append, List.sum_append, offset]
  exact (Nat.add_assoc ..).symm

theorem drop_buffer {ends : ℕ → BitVec 8} {segments : List Bytes} {last s : Bytes} {i : ℕ}
    (h : segments[i]? = some s) {k : ℕ} (hk : k ≤ s.length) :
    ∃ more,
      (buffer ends segments last).drop (offset segments i + k) = s.drop k ++ ends i :: more := by
  induction segments generalizing ends i with
  | nil => cases h
  | cons first segments ih =>
      cases i with
      | zero =>
          obtain rfl := Option.some.inj h
          refine ⟨buffer (fun i => ends (i + 1)) segments last, ?_⟩
          rw [buffer, offset, List.take_zero, List.map_nil, List.sum_nil, Nat.zero_add,
            List.drop_append_of_le_length hk]
      | succ i =>
          rw [List.getElem?_cons_succ] at h
          obtain ⟨more, hmore⟩ := @ih (fun i => ends (i + 1)) i h
          refine ⟨more, ?_⟩
          rw [buffer, offset_cons, ← hmore, Nat.add_assoc, Nat.add_assoc, ← List.drop_drop,
            List.drop_left, Nat.add_comm 1, List.drop_succ_cons]

theorem set_buffer {ends : ℕ → BitVec 8} {segments : List Bytes} {last s : Bytes} {i : ℕ}
    (h : segments[i]? = some s) (c : BitVec 8) :
    (buffer ends segments last).set (offset segments i + s.length) c =
      buffer (Function.update ends i c) segments last := by
  induction segments generalizing ends i with
  | nil => cases h
  | cons first segments ih =>
      cases i with
      | zero =>
          obtain rfl := Option.some.inj h
          have htail : (fun i => Function.update ends 0 c (i + 1)) = fun i => ends (i + 1) :=
            funext fun i => Function.update_of_ne (Nat.succ_ne_zero i) ..
          rw [buffer, buffer, htail, Function.update_self, offset, List.take_zero, List.map_nil,
            List.sum_nil, Nat.zero_add, List.set_append_right _ _ le_rfl, Nat.sub_self,
            List.set_cons_zero]
      | succ i =>
          rw [List.getElem?_cons_succ] at h
          have htail : (fun j => Function.update ends (i + 1) c (j + 1)) =
              Function.update (fun j => ends (j + 1)) i c := by
            funext j
            by_cases hj : j = i
            · rw [hj, Function.update_self, Function.update_self]
            · rw [Function.update_of_ne hj, Function.update_of_ne (by omega)]
          rw [buffer, buffer, htail, ← ih h, Function.update_of_ne (Nat.succ_ne_zero i).symm,
            offset_cons, List.set_append_right _ _ (by omega)]
          rw [show first.length + 1 + offset segments i + s.length - first.length =
            offset segments i + s.length + 1 by omega, List.set_cons_succ]

/-! ## Looking for a quote -/

theorem cString_append {s more : Bytes} (hs : (0 : BitVec 8) ∉ s) :
    cString (s ++ more) = s ++ cString more :=
  List.takeWhile_append_of_pos fun _ hb => decide_eq_true fun h => hs (h ▸ hb)

theorem Clean.drop {s : Bytes} (hs : Clean s) (k : ℕ) : Clean (s.drop k) :=
  ⟨fun h => hs.1 (List.mem_of_mem_drop h), fun h => hs.2 (List.mem_of_mem_drop h)⟩

section Strchr

variable {ends : ℕ → BitVec 8} {segments : List Bytes} {last s : Bytes} {i k : ℕ}

theorem strchr_quote (h : segments[i]? = some s) (hs : Clean s) (hk : k ≤ s.length)
    (hend : ends i = quote) :
    strchr (buffer ends segments last) (offset segments i + k) =
      some (offset segments i + s.length) := by
  obtain ⟨more, hdrop⟩ := @drop_buffer ends segments last s i h k hk
  have hstring : cString ((buffer ends segments last).drop (offset segments i + k)) =
      s.drop k ++ quote :: cString more := by
    rw [hdrop, cString_append (hs.drop k).2, hend]
    rfl
  have hidx : (s.drop k ++ quote :: cString more).idxOf quote = s.length - k := by
    rw [List.idxOf_append_of_notMem (hs.drop k).1, List.idxOf_cons_self, List.length_drop,
      Nat.add_zero]
  rw [strchr, hstring, if_pos (by simp), hidx]
  exact congrArg some (by omega)

theorem strchr_nul (h : segments[i]? = some s) (hs : Clean s) (hk : k ≤ s.length)
    (hend : ends i = 0) :
    strchr (buffer ends segments last) (offset segments i + k) = none := by
  obtain ⟨more, hdrop⟩ := @drop_buffer ends segments last s i h k hk
  have hstring : cString ((buffer ends segments last).drop (offset segments i + k)) =
      s.drop k := by
    rw [hdrop, cString_append (hs.drop k).2, hend]
    exact List.append_nil _
  rw [strchr, hstring, if_neg (hs.drop k).1]

end Strchr

/-! ## Ending the fields -/

section Fields

variable {segments : List Bytes} {last : Bytes}

/-- A field that begins so far into a segment with a quote behind it, which may have been taken
away. Its value is the next segment, with a quote behind it. -/
structure IsField (ends : ℕ → BitVec 8) (segments : List Bytes) (field : ℕ × ℕ) : Prop where
  opened : ∃ s, segments[field.1]? = some s ∧ field.2 ≤ s.length
  closed : ∃ s, segments[field.1 + 1]? = some s
  ends_opened : ends field.1 = quote ∨ ends field.1 = 0
  ends_closed : ends (field.1 + 1) = quote

/-- The first quotes are there, and none of them is the second quote of a field before its own. -/
def Apart (ends : ℕ → BitVec 8) (fields : List (ℕ × ℕ)) : Prop :=
  (∀ field ∈ fields, ends field.1 = quote) ∧
    fields.Pairwise fun field next => next.1 ≠ field.1 + 1

theorem quoted_of_nul {ends : ℕ → BitVec 8} {field : ℕ × ℕ} (hclean : ∀ s ∈ segments, Clean s)
    (hfield : IsField ends segments field) (hend : ends field.1 = 0) :
    quoted (buffer ends segments last) (offset segments field.1 + field.2) = none := by
  obtain ⟨s, hs, hk⟩ := hfield.opened
  rw [quoted, strchr_nul hs (hclean s (List.mem_of_getElem? hs)) hk hend, Option.map_none]

theorem quoted_of_quote {ends : ℕ → BitVec 8} {field : ℕ × ℕ} (hclean : ∀ s ∈ segments, Clean s)
    (hfield : IsField ends segments field) (hend : ends field.1 = quote) :
    quoted (buffer ends segments last) (offset segments field.1 + field.2) =
      some (some (offset segments (field.1 + 1),
        buffer (Function.update ends (field.1 + 1) 0) segments last)) := by
  obtain ⟨s, hs, hk⟩ := hfield.opened
  obtain ⟨v, hv⟩ := hfield.closed
  have hsecond := @strchr_quote ends segments last v (field.1 + 1) 0 hv
    (hclean v (List.mem_of_getElem? hv)) (Nat.zero_le _) hfield.ends_closed
  rw [quoted, strchr_quote hs (hclean s (List.mem_of_getElem? hs)) hk hend, Option.map_some,
    ← offset_succ hs, ← Nat.add_zero (offset segments (field.1 + 1)), hsecond, Option.map_some,
    set_buffer hv]

theorem apart_cons {ends : ℕ → BitVec 8} {field : ℕ × ℕ} {fields : List (ℕ × ℕ)}
    (hend : ends field.1 = quote) :
    Apart ends (field :: fields) ↔ Apart (Function.update ends (field.1 + 1) 0) fields := by
  have hquote : ∀ next : ℕ × ℕ, Function.update ends (field.1 + 1) 0 next.1 = quote ↔
      ends next.1 = quote ∧ next.1 ≠ field.1 + 1 := by
    intro next
    by_cases hnext : next.1 = field.1 + 1
    · rw [hnext, Function.update_self]
      exact iff_of_false (by decide) fun h => h.2 rfl
    · rw [Function.update_of_ne hnext, and_iff_left hnext]
  simp only [Apart, List.forall_mem_cons, List.pairwise_cons, hquote, hend, true_and,
    forall_and, ← and_assoc]

/-- When the fields are ended one after the other, the first quote of each has to be there still. -/
theorem quotedAll_buffer {ends : ℕ → BitVec 8} {fields : List (ℕ × ℕ)}
    (hclean : ∀ s ∈ segments, Clean s) (hfields : ∀ field ∈ fields, IsField ends segments field)
    (hnodup : (fields.map Prod.fst).Nodup) :
    (¬ Apart ends fields →
      quotedAll (fields.map fun field => offset segments field.1 + field.2)
        (buffer ends segments last) = none) ∧
    (Apart ends fields → ∃ ends', (∀ i, ends i = 0 → ends' i = 0) ∧
      (∀ field ∈ fields, ends' (field.1 + 1) = 0) ∧
      quotedAll (fields.map fun field => offset segments field.1 + field.2)
        (buffer ends segments last) =
          some (some (fields.map fun field => offset segments (field.1 + 1),
            buffer ends' segments last))) := by
  induction fields generalizing ends with
  | nil =>
      exact ⟨fun h => absurd ⟨List.forall_mem_nil _, List.Pairwise.nil⟩ h,
        fun _ => ⟨ends, fun _ => id, List.forall_mem_nil _, rfl⟩⟩
  | cons field fields ih =>
      have hfield := hfields field List.mem_cons_self
      rw [List.map_cons, List.nodup_cons] at hnodup
      rw [List.map_cons, quotedAll]
      rcases hfield.ends_opened with hend | hend
      · have hfields' : ∀ next ∈ fields,
            IsField (Function.update ends (field.1 + 1) 0) segments next := by
          intro next hnext
          obtain ⟨hopened, hclosed, hends, hquote⟩ := hfields next (List.mem_cons_of_mem _ hnext)
          have hne : next.1 ≠ field.1 := fun h => hnodup.1 (h ▸ List.mem_map_of_mem hnext)
          refine ⟨hopened, hclosed, ?_, by rwa [Function.update_of_ne (by omega)]⟩
          by_cases h : next.1 = field.1 + 1
          · rw [h, Function.update_self]
            exact .inr rfl
          · rwa [Function.update_of_ne h]
        obtain ⟨hnone, hsome⟩ := ih hfields' hnodup.2
        rw [quoted_of_quote hclean hfield hend, Option.bind_some, apart_cons hend]
        dsimp only
        refine ⟨fun h => by rw [hnone h, Option.map_none], fun h => ?_⟩
        obtain ⟨ends', hkeep, hended, heq⟩ := hsome h
        refine ⟨ends', fun i hi => hkeep i ?_, ?_, by rw [heq]; rfl⟩
        · by_cases h : i = field.1 + 1
          · rw [h, Function.update_self]
          · rwa [Function.update_of_ne h]
        · rw [List.forall_mem_cons]
          exact ⟨hkeep _ (Function.update_self ..), hended⟩
      · rw [quoted_of_nul hclean hfield hend, Option.bind_none]
        refine ⟨fun _ => rfl, fun h => ?_⟩
        have hquote := h.1 field List.mem_cons_self
        rw [hend] at hquote
        exact absurd hquote (by decide)

end Fields

/-! ## Looking for a name -/

section Strstr

variable {key s : Bytes}

theorem append_quote_inj {t more more' : Bytes} (hs : quote ∉ s) (ht : quote ∉ t)
    (h : s ++ quote :: more = t ++ quote :: more') : s = t := by
  induction s generalizing t with
  | nil =>
      cases t with
      | nil => rfl
      | cons b t =>
          obtain ⟨rfl, -⟩ := List.cons.inj h
          exact absurd List.mem_cons_self ht
  | cons b s ih =>
      cases t with
      | nil =>
          obtain ⟨rfl, -⟩ := List.cons.inj h
          exact absurd List.mem_cons_self hs
      | cons b' t =>
          obtain ⟨rfl, htail⟩ := List.cons.inj h
          rw [ih (fun h => hs (List.mem_cons_of_mem _ h)) (fun h => ht (List.mem_cons_of_mem _ h))
            htail]

theorem append_quote_isPrefix_iff {more : Bytes} (hkey : quote ∉ key) (hs : quote ∉ s) :
    key ++ [quote] <+: s ++ quote :: more ↔ key = s := by
  constructor
  · rintro ⟨rest, h⟩
    rw [List.append_assoc] at h
    exact append_quote_inj hkey hs h
  · rintro rfl
    exact ⟨more, by rw [List.append_assoc]; rfl⟩

/-- The name is found in a segment if it ends in it, and else behind the segment. -/
theorem strstr_segment {more : Bytes} (hkey : quote ∉ key) (hne : key ≠ []) (hs : quote ∉ s) :
    strstr (key ++ [quote]) (s ++ quote :: more) =
      if key <:+ s then some (s.length - key.length)
      else (strstr (key ++ [quote]) more).map (s.length + 1 + ·) := by
  induction s with
  | nil =>
      rw [List.nil_append, strstr, if_neg, if_neg, List.length_nil, Nat.zero_add]
      · exact congrArg (Option.map · _) (funext fun n => Nat.add_comm ..)
      · rwa [List.suffix_nil]
      · exact fun h => hne ((append_quote_isPrefix_iff hkey hs).mp h)
  | cons b s ih =>
      have hb : quote ∉ s := fun h => hs (List.mem_cons_of_mem _ h)
      have hhere : key ++ [quote] <+: b :: (s ++ quote :: more) ↔ key = b :: s :=
        append_quote_isPrefix_iff hkey hs
      rw [List.cons_append, strstr, ih hb]
      simp only [hhere, List.suffix_cons_iff]
      by_cases hwhole : key = b :: s
      · rw [if_pos hwhole, if_pos (.inl hwhole), hwhole, Nat.sub_self]
      · rw [if_neg hwhole]
        by_cases hsuffix : key <:+ s
        · rw [if_pos hsuffix, if_pos (.inr hsuffix), Option.map_some, List.length_cons,
            Nat.sub_add_comm hsuffix.length_le]
        · rw [if_neg hsuffix, if_neg (not_or.mpr ⟨hwhole, hsuffix⟩), Option.map_map]
          refine congrArg (Option.map · _) (funext fun n => ?_)
          simp only [Function.comp_apply, List.length_cons]
          omega

/-- A name is at the end of the first segment that ends in it. -/
theorem strstr_buffer {segments : List Bytes} {last : Bytes} {i : ℕ} (hkey : quote ∉ key)
    (hne : key ≠ []) (hclean : ∀ s ∈ segments, Clean s)
    (hfirst : segments.findIdx? (fun s => key <:+ s) = some i) (hs : segments[i]? = some s) :
    strstr (key ++ [quote]) (buffer (fun _ => quote) segments last) =
      some (offset segments i + (s.length - key.length)) := by
  induction segments generalizing i with
  | nil => cases hs
  | cons first segments ih =>
      obtain ⟨hcleanFirst, hclean⟩ := List.forall_mem_cons.mp hclean
      rw [buffer, strstr_segment hkey hne hcleanFirst.1]
      rw [List.findIdx?_cons] at hfirst
      by_cases hsuffix : key <:+ first
      · rw [if_pos (decide_eq_true hsuffix)] at hfirst
        obtain rfl := Option.some.inj hfirst
        obtain rfl := Option.some.inj hs
        rw [if_pos hsuffix, offset, List.take_zero, List.map_nil, List.sum_nil, Nat.zero_add]
      · rw [if_neg (fun h => hsuffix (of_decide_eq_true h))] at hfirst
        obtain ⟨j, hj, rfl⟩ := Option.map_eq_some_iff.mp hfirst
        rw [if_neg hsuffix, ih hclean hj hs, offset_cons]
        exact congrArg some (Nat.add_assoc ..).symm

end Strstr

end Rtsp

end ShairportSync
