import ShairportSync.Fifo.Recent
import ShairportSync.Numeric.WordArithmetic

/-!
# The statistics of the synchronisation

For the last 1003 sync checks the player keeps the sync error, the correction, and the drift that is
left of the error when the error and the correction before it are taken off. They are in a circular
array, beside four totals from which the oldest entry is taken when there is no room for the next.
The totals are those of the entries in the array, in the arithmetic of 64-bit words. The sync errors
that there can be are so small that they are the sums themselves.
-/

namespace ShairportSync

namespace Player

open Fifo Numeric

/-! ## The code -/

structure Stats where
  syncError : BitVec 64
  correction : BitVec 64
  drift : BitVec 64
deriving DecidableEq

abbrev trendInterval : ℕ := 1003

/-- What an iteration of the player has found out: `sync_error`, and `conn->amountStuffed`. -/
structure SyncCheck where
  syncError : BitVec 64
  amountStuffed : BitVec 32
deriving DecidableEq

def SyncCheck.correction (check : SyncCheck) : BitVec 64 := check.amountStuffed.signExtend 64

/-- The variables of `player_thread_func` for the statistics, and those in the connection. -/
structure Statistics where
  statistics : ℕ → Stats
  numberOfStatistics : ℕ
  oldestStatistic : ℕ
  newestStatistic : ℕ
  tsumOfSyncErrors : BitVec 64
  tsumOfCorrections : BitVec 64
  tsumOfInsertionsAndDeletions : BitVec 64
  tsumOfDrifts : BitVec 64
  previousSyncError : BitVec 64
  previousCorrection : BitVec 64
  sessionCorrections : BitVec 64

namespace Statistics

/-- The start of `player_thread_func`; `memory` is what `malloc` finds. -/
def init (memory : ℕ → Stats) : Statistics where
  statistics := memory
  numberOfStatistics := 0
  oldestStatistic := 0
  newestStatistic := 0
  tsumOfSyncErrors := 0
  tsumOfCorrections := 0
  tsumOfInsertionsAndDeletions := 0
  tsumOfDrifts := 0
  previousSyncError := 0
  previousCorrection := 0
  sessionCorrections := 0

/-- "here we remove the oldest statistical data and take it from the summaries as well" -/
def removeOldest (s : Statistics) : Statistics :=
  let oldest := s.statistics s.oldestStatistic
  { s with
    tsumOfSyncErrors := s.tsumOfSyncErrors - oldest.syncError
    tsumOfDrifts := s.tsumOfDrifts - oldest.drift
    tsumOfInsertionsAndDeletions :=
      if 0 < oldest.correction.toInt then s.tsumOfInsertionsAndDeletions - oldest.correction
      else s.tsumOfInsertionsAndDeletions + oldest.correction
    tsumOfCorrections := s.tsumOfCorrections - oldest.correction
    oldestStatistic := (s.oldestStatistic + 1) % trendInterval
    numberOfStatistics := s.numberOfStatistics - 1 }

def newEntry (check : SyncCheck) (s : Statistics) : Stats where
  syncError := check.syncError
  correction := check.correction
  drift :=
    if s.numberOfStatistics = 0 then 0
    else check.syncError - s.previousSyncError - s.previousCorrection

/-- The new entry goes behind the others, and is added to the summaries. -/
def addNewest (check : SyncCheck) (s : Statistics) : Statistics :=
  let newest := s.newEntry check
  { s with
    statistics := Function.update s.statistics s.newestStatistic newest
    previousSyncError := check.syncError
    previousCorrection := check.correction
    tsumOfSyncErrors := s.tsumOfSyncErrors + check.syncError
    tsumOfDrifts := s.tsumOfDrifts + newest.drift
    tsumOfInsertionsAndDeletions :=
      if 0 < check.amountStuffed.toInt then s.tsumOfInsertionsAndDeletions + check.correction
      else s.tsumOfInsertionsAndDeletions - check.correction
    tsumOfCorrections := s.tsumOfCorrections + check.correction
    sessionCorrections := s.sessionCorrections + check.correction
    newestStatistic := (s.newestStatistic + 1) % trendInterval
    numberOfStatistics := s.numberOfStatistics + 1 }

/-- The end of an iteration that has come to a sync check. `hasDelay` says that the back end has a
delay function. -/
def update (hasDelay : Bool) (check : SyncCheck) (s : Statistics) : Statistics :=
  if hasDelay then
    if s.numberOfStatistics = trendInterval then s.removeOldest.addNewest check
    else s.addNewest check
  else s

def iterate (hasDelay : Bool) (s : Statistics) : Option SyncCheck → Statistics
  | none => s
  | some check => s.update hasDelay check

def after (hasDelay : Bool) (memory : ℕ → Stats) (iterations : List (Option SyncCheck)) :
    Statistics :=
  iterations.foldl (iterate hasDelay) (init memory)

def entries (s : Statistics) : List Stats :=
  window s.statistics trendInterval s.oldestStatistic s.numberOfStatistics

end Statistics

/-! ## The history -/

/-- The entry of a check that comes after another, or is the first one. -/
def SyncCheck.stats (check : SyncCheck) (previous : Option SyncCheck) : Stats where
  syncError := check.syncError
  correction := check.correction
  drift :=
    match previous with
    | none => 0
    | some previous => check.syncError - previous.syncError - previous.correction

/-- The entries of checks, the first of which comes after another, or is the first one of all. -/
def statsFrom : Option SyncCheck → List SyncCheck → List Stats
  | _, [] => []
  | previous, check :: checks => check.stats previous :: statsFrom (some check) checks

theorem length_statsFrom (previous : Option SyncCheck) (checks : List SyncCheck) :
    (statsFrom previous checks).length = checks.length := by
  induction checks generalizing previous with
  | nil => rfl
  | cons check checks ih => rw [statsFrom, List.length_cons, List.length_cons, ih]

theorem statsFrom_concat (previous : Option SyncCheck) (checks : List SyncCheck)
    (check : SyncCheck) :
    statsFrom previous (checks ++ [check]) =
      statsFrom previous checks ++ [check.stats (checks.getLast?.or previous)] := by
  induction checks generalizing previous with
  | nil => rfl
  | cons first checks ih =>
      have hlast : (first :: checks).getLast?.or previous = checks.getLast?.or (some first) := by
        cases checks with
        | nil => rfl
        | cons second checks => rfl
      rw [List.cons_append, statsFrom, statsFrom, ih, hlast, List.cons_append]

/-! ## The summaries -/

namespace Statistics

/-- The summaries are those of the entries. -/
structure Sums (s : Statistics) (entries : List Stats) : Prop where
  syncErrors : s.tsumOfSyncErrors = wordSum 64 (fun e => e.syncError.toInt) entries
  corrections : s.tsumOfCorrections = wordSum 64 (fun e => e.correction.toInt) entries
  drifts : s.tsumOfDrifts = wordSum 64 (fun e => e.drift.toInt) entries
  insertionsAndDeletions :
    s.tsumOfInsertionsAndDeletions = wordSum 64 (fun e => |e.correction.toInt|) entries

variable {s : Statistics} {entries : List Stats} {checks : List SyncCheck}

theorem ofInt_abs (word : BitVec 64) :
    BitVec.ofInt 64 |word.toInt| = if 0 < word.toInt then word else -word := by
  split_ifs with hpos
  · rw [abs_of_pos hpos, BitVec.ofInt_toInt]
  · rw [abs_of_nonpos (not_lt.1 hpos), BitVec.ofInt_neg, BitVec.ofInt_toInt]

theorem Sums.removeOldest (h : s.Sums (s.statistics s.oldestStatistic :: entries)) :
    s.removeOldest.Sums entries where
  syncErrors := by
    change s.tsumOfSyncErrors - _ = _
    rw [h.syncErrors]
    exact wordSum_cons_sub Stats.syncError _ entries
  corrections := by
    change s.tsumOfCorrections - _ = _
    rw [h.corrections]
    exact wordSum_cons_sub Stats.correction _ entries
  drifts := by
    change s.tsumOfDrifts - _ = _
    rw [h.drifts]
    exact wordSum_cons_sub Stats.drift _ entries
  insertionsAndDeletions := by
    change (if _ then s.tsumOfInsertionsAndDeletions - _
      else s.tsumOfInsertionsAndDeletions + _) = _
    rw [h.insertionsAndDeletions, wordSum_cons, ofInt_abs]
    split_ifs with hpos
    · exact add_sub_cancel_left _ _
    · exact neg_add_cancel_comm _ _

theorem Sums.addNewest (h : s.Sums entries) (check : SyncCheck) :
    (s.addNewest check).Sums (entries ++ [s.newEntry check]) where
  syncErrors := by
    change s.tsumOfSyncErrors + _ = _
    rw [h.syncErrors]
    exact wordSum_add Stats.syncError entries (s.newEntry check)
  corrections := by
    change s.tsumOfCorrections + _ = _
    rw [h.corrections]
    exact wordSum_add Stats.correction entries (s.newEntry check)
  drifts := by
    change s.tsumOfDrifts + _ = _
    rw [h.drifts]
    exact wordSum_add Stats.drift entries (s.newEntry check)
  insertionsAndDeletions := by
    have hsign : check.amountStuffed.toInt = (s.newEntry check).correction.toInt :=
      (BitVec.toInt_signExtend_of_le (by decide)).symm
    change (if 0 < check.amountStuffed.toInt then s.tsumOfInsertionsAndDeletions + _
      else s.tsumOfInsertionsAndDeletions - _) = _
    rw [wordSum_concat, ofInt_abs, h.insertionsAndDeletions, hsign]
    split_ifs with hpos
    · rfl
    · exact sub_eq_add_neg _ _

/-! ## The invariant -/

/-- The window holds the last of the entries of the checks, and the variables for the next drift are
those of the last check. -/
structure Holds (checks : List SyncCheck) (s : Statistics) : Prop where
  recent : Recent trendInterval s.statistics s.oldestStatistic s.newestStatistic
    s.numberOfStatistics (statsFrom none checks)
  sums : s.Sums ((statsFrom none checks).rtake s.numberOfStatistics)
  previous : ∀ check ∈ checks.getLast?,
    s.previousSyncError = check.syncError ∧ s.previousCorrection = check.correction

theorem Holds.removeOldest (h : s.Holds checks) (hnumber : 0 < s.numberOfStatistics) :
    s.removeOldest.Holds checks := by
  have hrecent := h.recent
  have hsums := h.sums
  obtain ⟨number, hn⟩ := Nat.exists_eq_succ_of_ne_zero hnumber.ne'
  have hrest : s.removeOldest.numberOfStatistics = number := by
    change s.numberOfStatistics - 1 = number
    rw [hn]
    rfl
  rw [hn] at hrecent hsums
  refine ⟨?_, ?_, h.previous⟩
  · rw [hrest]
    exact hrecent.evict
  · rw [hrest]
    rw [hrecent.rtake_succ] at hsums
    exact hsums.removeOldest

theorem Holds.newEntry_eq (h : s.Holds checks) (hempty : s.numberOfStatistics = 0 ↔ checks = [])
    (check : SyncCheck) : s.newEntry check = check.stats checks.getLast? := by
  cases hlast : checks.getLast? with
  | none =>
      rw [newEntry, if_pos (hempty.2 (List.getLast?_eq_none_iff.1 hlast))]
      rfl
  | some last =>
      have hsome : s.numberOfStatistics ≠ 0 := by
        intro hzero
        rw [hempty.1 hzero] at hlast
        exact Option.some_ne_none last hlast.symm
      obtain ⟨hsync, hcorrection⟩ := h.previous last hlast
      rw [newEntry, if_neg hsome, hsync, hcorrection]
      rfl

theorem Holds.addNewest (h : s.Holds checks) (hempty : s.numberOfStatistics = 0 ↔ checks = [])
    (hroom : s.numberOfStatistics < trendInterval) (check : SyncCheck) :
    (s.addNewest check).Holds (checks ++ [check]) := by
  have hconcat : statsFrom none (checks ++ [check]) =
      statsFrom none checks ++ [s.newEntry check] := by
    rw [statsFrom_concat, h.newEntry_eq hempty, Option.or_none]
  refine ⟨?_, ?_, ?_⟩
  · rw [hconcat]
    exact h.recent.push hroom _
  · have hsums := h.sums.addNewest check
    rw [← List.rtake_concat_succ, ← hconcat] at hsums
    exact hsums
  · intro last hlast
    rw [List.getLast?_concat] at hlast
    obtain rfl := Option.some.inj hlast
    exact ⟨rfl, rfl⟩

/-- After the checks the statistics hold them, as many as there is room for. -/
structure Inv (checks : List SyncCheck) (s : Statistics) : Prop extends s.Holds checks where
  number_eq : s.numberOfStatistics = min checks.length trendInterval

theorem inv_init (memory : ℕ → Stats) : (init memory).Inv [] where
  number_eq := rfl
  recent := recent_nil memory (by decide)
  sums := ⟨rfl, rfl, rfl, rfl⟩
  previous _ h := absurd h (Option.not_mem_none _)

theorem Inv.update (h : s.Inv checks) (check : SyncCheck) :
    (s.update true check).Inv (checks ++ [check]) := by
  have hnumber := h.number_eq
  have hlength : (checks ++ [check]).length = checks.length + 1 := List.length_append
  rw [Statistics.update, if_pos rfl]
  split_ifs with hfull
  · have hheld := h.toHolds.removeOldest (hfull ▸ by decide)
    have hone : s.removeOldest.numberOfStatistics = trendInterval - 1 :=
      congrArg (· - 1) hfull
    have hchecks : checks ≠ [] := by
      rintro rfl
      rw [hnumber] at hfull
      exact absurd hfull (by decide)
    refine ⟨hheld.addNewest ?_ (hone ▸ by decide) check, ?_⟩
    · rw [hone]
      exact iff_of_false (by decide) hchecks
    · change s.removeOldest.numberOfStatistics + 1 = _
      rw [hone, hlength, Nat.sub_add_cancel (by decide), min_eq_right]
      omega
  · have hroom : s.numberOfStatistics < trendInterval := by omega
    refine ⟨h.toHolds.addNewest ?_ hroom check, ?_⟩
    · rw [← List.length_eq_zero_iff]
      omega
    · change s.numberOfStatistics + 1 = _
      rw [hlength]
      omega

def checksOf (iterations : List (Option SyncCheck)) : List SyncCheck := iterations.filterMap id

theorem inv_after (memory : ℕ → Stats) (iterations : List (Option SyncCheck)) :
    (after true memory iterations).Inv (checksOf iterations) := by
  induction iterations using List.reverseRecOn with
  | nil => exact inv_init memory
  | append_singleton iterations iteration ih =>
      rw [after, List.foldl_concat, checksOf, List.filterMap_append]
      cases iteration with
      | none =>
          rw [List.filterMap_cons_none rfl, List.filterMap_nil, List.append_nil]
          exact ih
      | some check => exact ih.update check

/-! ## The sums -/

theorem Inv.entries_eq (h : s.Inv checks) :
    s.entries = (statsFrom none checks).rtake trendInterval := by
  have hdrop : checks.length - min checks.length trendInterval = checks.length - trendInterval := by
    omega
  rw [Statistics.entries, h.recent.window_eq, h.number_eq, List.rtake, List.rtake,
    length_statsFrom, hdrop]

theorem Inv.length_entries_le (h : s.Inv checks) : s.entries.length ≤ trendInterval := by
  rw [Statistics.entries, length_window, h.number_eq]
  exact min_le_right _ _

/-- The summaries of the entries in the window, as integers. -/
structure Summarises (s : Statistics) (total : ℤ → ℤ) : Prop where
  syncErrors : s.tsumOfSyncErrors.toInt = total (s.entries.map fun e => e.syncError.toInt).sum
  corrections : s.tsumOfCorrections.toInt = total (s.entries.map fun e => e.correction.toInt).sum
  drifts : s.tsumOfDrifts.toInt = total (s.entries.map fun e => e.drift.toInt).sum
  insertionsAndDeletions :
    s.tsumOfInsertionsAndDeletions.toInt =
      total (s.entries.map fun e => |e.correction.toInt|).sum

theorem Inv.sums_entries (h : s.Inv checks) : s.Sums s.entries := by
  rw [Statistics.entries, h.recent.window_eq]
  exact h.sums

theorem Sums.summarises_bmod (h : s.Sums s.entries) :
    s.Summarises fun sum => sum.bmod (2 ^ 64) where
  syncErrors := by rw [h.syncErrors, toInt_wordSum]
  corrections := by rw [h.corrections, toInt_wordSum]
  drifts := by rw [h.drifts, toInt_wordSum]
  insertionsAndDeletions := by rw [h.insertionsAndDeletions, toInt_wordSum]

end Statistics

/-- An entry of which a whole window can be added up without an overflow. -/
structure Stats.Small (e : Stats) : Prop where
  syncError : |e.syncError.toInt| ≤ 2 ^ 53
  correction : |e.correction.toInt| ≤ 2 ^ 53
  drift : |e.drift.toInt| ≤ 2 ^ 53

/-- The sync error is in a range that is wider by far than that of the ones there can be. -/
def SyncCheck.Small (check : SyncCheck) : Prop := |check.syncError.toInt| ≤ 2 ^ 51

theorem SyncCheck.abs_toInt_correction_le (check : SyncCheck) :
    |check.correction.toInt| ≤ 2 ^ 31 := by
  have hwide : check.correction.toInt = check.amountStuffed.toInt :=
    BitVec.toInt_signExtend_of_le (by decide)
  have hle := check.amountStuffed.toInt_lt
  have hge := check.amountStuffed.le_toInt
  rw [hwide, abs_le]
  omega

theorem toInt_sub_sub_of_small {a b c : BitVec 64} (ha : |a.toInt| ≤ 2 ^ 51)
    (hb : |b.toInt| ≤ 2 ^ 51) (hc : |c.toInt| ≤ 2 ^ 31) :
    (a - b - c).toInt = a.toInt - b.toInt - c.toInt := by
  rw [abs_le] at ha hb hc
  rw [BitVec.toInt_sub, BitVec.toInt_sub, Int.bmod_sub_bmod]
  exact Int.bmod_eq_of_le_mul_two (by omega) (by omega)

theorem SyncCheck.Small.stats {check : SyncCheck} (h : check.Small) {previous : Option SyncCheck}
    (hprevious : ∀ before ∈ previous, before.Small) : (check.stats previous).Small where
  syncError := h.trans (by decide)
  correction := check.abs_toInt_correction_le.trans (by decide)
  drift := by
    cases previous with
    | none => exact (by decide : |(0 : BitVec 64).toInt| ≤ 2 ^ 53)
    | some before =>
        have hbefore := hprevious before rfl
        have hcorrection := before.abs_toInt_correction_le
        change |(check.syncError - before.syncError - before.correction).toInt| ≤ _
        rw [toInt_sub_sub_of_small h hbefore hcorrection]
        rw [SyncCheck.Small] at h hbefore
        rw [abs_le] at h hbefore hcorrection ⊢
        omega

theorem small_of_mem_statsFrom {previous : Option SyncCheck} {checks : List SyncCheck}
    (hprevious : ∀ before ∈ previous, before.Small) (h : ∀ check ∈ checks, check.Small) :
    ∀ e ∈ statsFrom previous checks, e.Small := by
  induction checks generalizing previous with
  | nil => exact fun e he => absurd he List.not_mem_nil
  | cons check checks ih =>
      have hcheck := h check List.mem_cons_self
      refine List.forall_mem_cons.2 ⟨hcheck.stats hprevious, ih ?_ fun other hother =>
        h other (List.mem_cons_of_mem check hother)⟩
      intro before hbefore
      obtain rfl := Option.some.inj hbefore
      exact hcheck

namespace Statistics

variable {s : Statistics}

theorem Sums.summarises_of_small (h : s.Sums s.entries) (hlength : s.entries.length ≤ trendInterval)
    (hsmall : ∀ e ∈ s.entries, e.Small) : s.Summarises id := by
  have hfits : 2 * ((s.entries.length : ℤ) * 2 ^ 53) < 2 ^ 64 := by
    rw [trendInterval] at hlength
    omega
  refine ⟨?_, ?_, ?_, ?_⟩
  · rw [h.syncErrors]
    exact toInt_wordSum_of_abs_le (fun e he => (hsmall e he).syncError) hfits
  · rw [h.corrections]
    exact toInt_wordSum_of_abs_le (fun e he => (hsmall e he).correction) hfits
  · rw [h.drifts]
    exact toInt_wordSum_of_abs_le (fun e he => (hsmall e he).drift) hfits
  · rw [h.insertionsAndDeletions]
    refine toInt_wordSum_of_abs_le (fun e he => ?_) hfits
    rw [abs_abs]
    exact (hsmall e he).correction

/-- At every step of a run of the player, with a back end that has a delay function, the window
holds the most recent entries in their order, and the summaries are those of the entries in the
window: as words whatever the sync errors are, and as integers where the sync errors are not
absurd. -/
theorem window_sums (memory : ℕ → Stats) (iterations : List (Option SyncCheck)) :
    (after true memory iterations).numberOfStatistics =
        min (checksOf iterations).length trendInterval ∧
      (after true memory iterations).entries =
        (statsFrom none (checksOf iterations)).rtake trendInterval ∧
      ((after true memory iterations).Summarises fun sum => sum.bmod (2 ^ 64)) ∧
      ((∀ check ∈ checksOf iterations, check.Small) →
        (after true memory iterations).Summarises id) := by
  have hinv := inv_after memory iterations
  refine ⟨hinv.number_eq, hinv.entries_eq, hinv.sums_entries.summarises_bmod, fun hsmall => ?_⟩
  refine hinv.sums_entries.summarises_of_small hinv.length_entries_le fun e he => ?_
  rw [hinv.entries_eq] at he
  exact small_of_mem_statsFrom (fun before hbefore => absurd hbefore (Option.not_mem_none before))
    hsmall e (List.mem_of_mem_drop he)

/-- A run with a check whose correction takes a frame out. -/
theorem window_sums_of_three :
    (after true (fun _ => ⟨0, 0, 0⟩) [some ⟨-7, -1⟩, none, some ⟨-9, 1⟩]).Summarises id :=
  (window_sums (fun _ => ⟨0, 0, 0⟩) [some ⟨-7, -1⟩, none, some ⟨-9, 1⟩]).2.2.2 (by
    intro check hcheck
    rcases List.mem_pair.1 hcheck with rfl | rfl
    · exact (by decide : |(-7 : BitVec 64).toInt| ≤ 2 ^ 51)
    · exact (by decide : |(-9 : BitVec 64).toInt| ≤ 2 ^ 51))

end Statistics

end Player

end ShairportSync
