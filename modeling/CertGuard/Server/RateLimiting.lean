import Mathlib.Data.Set.Card
import CertGuard.Lib.SlidingWindow
import CertGuard.Lib.TransitionRun
import CertGuard.Server.SignInRequests

/-!
# The limiter over a history of calls

`allow` prunes the attempts of the client it is asked about inside the slice that holds them, and
records an attempt only when it lets it through. Here it answers any list of calls in order of
time, and is compared with the rule that looks at the whole past.

## Main definitions

* `RateLimiter.pruneLoop`, `RateLimiter.allowInPlace` — `allow` with its loop over one slice
* `RateLimiter.answer` — the limiter as a system that answers calls
* `RateLimiter.Tracks` — what it keeps is what the rule counts
* `RateLimiter.log`, `RateLimiter.after` — its answers to some calls, and what it is left with
* `RateLimiter.KeysRecent`, `RateLimiter.NoneQuiet` — that it knows recent clients only, and that
  no client it knows has gone quiet

## Main results

* `RateLimiter.allowInPlace_eq` — pruning in place is filtering
* `RateLimiter.runOut_answer` — the limiter answers by the rule
* `RateLimiter.allow_sliding_window` — and what follows for its clients
* `RateLimiter.keys_recent_iff` — when all the clients it knows are recent ones
-/

namespace CertGuard

open SlidingWindow Transition

namespace RateLimiter

/-! ### The loop over one slice -/

/-- The loop of `allow` with `n` elements to go: it reads at `i`, and what it has kept are the
first `kept` elements of the slice it reads from. -/
def pruneLoop (cutoff : Int) : Nat → List Int → Nat → Nat → List Int
  | 0, slice, _, kept => slice.take kept
  | n + 1, slice, i, kept =>
    let time := slice.getD i 0
    if cutoff < time then pruneLoop cutoff n (slice.set kept time) (i + 1) (kept + 1)
    else pruneLoop cutoff n slice (i + 1) kept

/-- `allow`, with the slice of the client overwritten as the loop goes. -/
def allowInPlace (rl : RateLimiter) (key : String) (now : Int) : RateLimiter × Bool :=
  let cutoff := now - rl.window
  let slice := (rl.hits key).getD []
  let kept := pruneLoop cutoff slice.length slice 0 0
  if rl.max ≤ kept.length then
    ({ rl with hits := Function.update rl.hits key (some kept) }, false)
  else ({ rl with hits := Function.update rl.hits key (some (kept ++ [now])) }, true)

/-- What is written never reaches what is still to be read. -/
theorem pruneLoop_eq (cutoff : Int) (n : Nat) :
    ∀ (slice : List Int) (i kept : Nat), kept ≤ i → i + n = slice.length →
      pruneLoop cutoff n slice i kept =
        slice.take kept ++ (slice.drop i).filter fun time => cutoff < time := by
  induction n with
  | zero =>
    intro slice i kept _ hi
    simp [pruneLoop, List.drop_of_length_le (show slice.length ≤ i by omega)]
  | succ n ih =>
    intro slice i kept hkept hi
    have hlt : i < slice.length := by omega
    have hget : slice.getD i 0 = slice[i] := by simp [hlt]
    rw [pruneLoop, hget, List.drop_eq_getElem_cons hlt]
    split
    · rename_i hin
      -- what is kept goes where the loop has read already
      have htake : (slice.set kept slice[i]).take (kept + 1) = slice.take kept ++ [slice[i]] := by
        rw [List.take_add_one, List.take_set_of_le le_rfl]
        simp [show kept < slice.length by omega]
      rw [ih _ _ _ (by omega) (by simpa using by omega), htake,
        List.drop_set_of_lt (by omega), List.filter_cons_of_pos (by simpa using hin)]
      simp
    · rename_i hout
      rw [ih _ _ _ (by omega) (by omega), List.filter_cons_of_neg (by simpa using hout)]

theorem allowInPlace_eq (rl : RateLimiter) (key : String) (now : Int) :
    rl.allowInPlace key now = rl.allow key now := by
  have hloop := pruneLoop_eq (now - rl.window) ((rl.hits key).getD []).length
    ((rl.hits key).getD []) 0 0 le_rfl (by simp)
  simp only [List.take_zero, List.drop_zero, List.nil_append] at hloop
  simp only [allowInPlace, allow, hloop]

/-! ### A list of calls -/

/-- The limiter with no client yet, as `newRateLimiter` makes it. -/
def newRateLimiter (max : Nat) (window : Int) : RateLimiter where
  max := max
  window := window

/-- A call, with the answer to it as output. -/
def answer (rl : RateLimiter) (c : Call String Int) : RateLimiter × List (Entry String Int) :=
  ((rl.allowInPlace c.key c.time).1, [⟨c, (rl.allowInPlace c.key c.time).2⟩])

variable {rl : RateLimiter} {past : List (Entry String Int)} {c : Call String Int}
  {calls : List (Call String Int)} {now : Int}

@[simp] theorem allow_max (key : String) : (rl.allow key now).1.max = rl.max := by
  simp only [allow]
  split <;> rfl

@[simp] theorem allow_window (key : String) : (rl.allow key now).1.window = rl.window := by
  simp only [allow]
  split <;> rfl

/-- At `now` and later, what is kept of a client counts as its admitted calls do. -/
def Tracks (rl : RateLimiter) (past : List (Entry String Int)) (now : Int) : Prop :=
  ∀ key cutoff, now - rl.window ≤ cutoff →
    ((rl.hits key).getD []).filter (fun time => cutoff < time) =
      (admittedTimes past key).filter fun time => cutoff < time

theorem tracks_newRateLimiter (max : Nat) (window : Int) :
    (newRateLimiter max window).Tracks [] now := by
  intro key cutoff _
  rfl

/-- The answer is the rule's. -/
theorem Tracks.allow_snd (h : rl.Tracks past now) (hc : now ≤ c.time) :
    (rl.allow c.key c.time).2 = decide (admits rl.max rl.window past c) := by
  have hkept := h c.key (c.time - rl.window) (by omega)
  rw [Bool.eq_iff_iff, decide_eq_true_iff, admits, ← hkept]
  simp only [allow]
  split <;> simp_all

theorem Tracks.allow_fst (h : rl.Tracks past now) (hc : now ≤ c.time) :
    (rl.allow c.key c.time).1.Tracks (past ++ [entry rl.max rl.window past c]) c.time := by
  intro key cutoff hcut
  rw [allow_window] at hcut
  have hans := h.allow_snd hc
  have hkept := h key cutoff (by omega)
  rw [admittedTimes_append, admittedTimes_singleton, List.filter_append, ← hkept]
  by_cases hkey : c.key = key
  · subst hkey
    simp only [allow] at hans ⊢
    split at hans <;> rename_i hfull
    · rw [if_pos hfull]
      simp [entry, ← hans, filter_lt_filter_lt hcut]
    · rw [if_neg hfull]
      simp [entry, ← hans, filter_lt_filter_lt hcut]
  · have hsame : (rl.allow c.key c.time).1.hits key = rl.hits key := by
      simp only [allow]
      split <;> exact Function.update_of_ne (Ne.symm hkey) _ _
    simp [hsame, entry, hkey]

theorem Tracks.mono {now' : Int} (h : rl.Tracks past now) (hle : now ≤ now') :
    rl.Tracks past now' :=
  fun key cutoff hcut => h key cutoff (by omega)

@[simp] theorem runOut_answer_max (rl : RateLimiter) (calls : List (Call String Int)) :
    (runOut answer rl calls).1.max = rl.max := by
  refine runOut_induction (P := fun rl' : RateLimiter => rl'.max = rl.max) rfl fun rl' c _ h => ?_
  simp [answer, allowInPlace_eq, h]

@[simp] theorem runOut_answer_window (rl : RateLimiter) (calls : List (Call String Int)) :
    (runOut answer rl calls).1.window = rl.window := by
  refine runOut_induction (P := fun rl' : RateLimiter => rl'.window = rl.window) rfl ?_
  intro rl' c _ h
  simp [answer, allowInPlace_eq, h]

/-- The limiter answers calls in order of time as the rule does, and keeps what the rule
counts. -/
theorem Tracks.runOut_answer (h : rl.Tracks past now) (hnow : ∀ c ∈ calls, now ≤ c.time)
    (hord : (calls.map Call.time).Pairwise (· ≤ ·)) :
    (runOut answer rl calls).2 = entries rl.max rl.window past calls ∧
      ∀ t, now ≤ t → (∀ c ∈ calls, c.time ≤ t) →
        (runOut answer rl calls).1.Tracks (past ++ entries rl.max rl.window past calls) t := by
  induction calls generalizing rl past now with
  | nil => exact ⟨rfl, fun t ht _ => by simpa [entries] using h.mono ht⟩
  | cons c cs ih =>
    obtain ⟨hle, hord⟩ := List.pairwise_cons.mp hord
    have hc : now ≤ c.time := hnow c (by simp)
    have hafter : ∀ d ∈ cs, c.time ≤ d.time := fun d hd => hle _ (List.mem_map_of_mem hd)
    -- the limiter after this call tracks the past with it
    obtain ⟨hans, hend⟩ := ih (h.allow_fst hc) hafter hord
    rw [allow_max, allow_window] at hans hend
    constructor
    · simp only [runOut_cons_snd, answer, allowInPlace_eq, entries, List.singleton_append]
      rw [hans, h.allow_snd hc]
      rfl
    · intro t _ ht
      have hlast := hend t (ht c (by simp)) fun d hd => ht d (List.mem_cons_of_mem _ hd)
      simpa only [runOut_cons_fst, answer, allowInPlace_eq, entries, List.append_assoc,
        List.singleton_append] using hlast

/-- What a limiter answers, from its first call on. -/
def log (max : Nat) (window : Int) (calls : List (Call String Int)) : List (Entry String Int) :=
  (runOut answer (newRateLimiter max window) calls).2

/-- The limiter after some calls. -/
def after (max : Nat) (window : Int) (calls : List (Call String Int)) : RateLimiter :=
  (runOut answer (newRateLimiter max window) calls).1

section FromTheStart

variable {max : Nat} {window : Int}

theorem log_eq_entries (hord : (calls.map Call.time).Pairwise (· ≤ ·)) :
    log max window calls = entries max window [] calls := by
  cases calls with
  | nil => rfl
  | cons c cs =>
    exact ((tracks_newRateLimiter max window).runOut_answer (time_le_of_mem_cons hord) hord).1

theorem tracks_after (hord : (calls.map Call.time).Pairwise (· ≤ ·))
    (hnow : ∀ c ∈ calls, c.time ≤ now) :
    (after max window calls).Tracks (log max window calls) now := by
  cases calls with
  | nil => exact tracks_newRateLimiter max window
  | cons c cs =>
    have hend := ((tracks_newRateLimiter max window).runOut_answer (time_le_of_mem_cons hord)
      hord).2 now (hnow c (by simp)) hnow
    rw [log_eq_entries hord]
    exact hend

/-- The instants of a list in order, cut at a call. -/
theorem ordered_of_eq {pre post : List (Call String Int)}
    (hord : (calls.map Call.time).Pairwise (· ≤ ·)) (h : calls = pre ++ c :: post) :
    (pre.map Call.time).Pairwise (· ≤ ·) ∧ (∀ d ∈ pre, d.time ≤ c.time) ∧
      ((pre ++ post).map Call.time).Pairwise (· ≤ ·) := by
  subst h
  rw [List.map_append, List.pairwise_append] at hord
  obtain ⟨hpre, hpost, hcross⟩ := hord
  refine ⟨hpre, fun d hd => hcross _ (List.mem_map_of_mem hd) _ (by simp), ?_⟩
  rw [List.map_append, List.pairwise_append]
  exact ⟨hpre, (List.pairwise_cons.mp hpost).2, fun t ht u hu => hcross t ht u (by simp_all)⟩

/-- For calls in order of time: a call is let through exactly when fewer than `max` earlier calls
of its client were, later than a window before it; what other clients do, and calls that are
denied, change no answer; and of one client's calls less than a window apart no more than `max`
are let through. -/
theorem allow_sliding_window (max : Nat) (window : Int) (calls : List (Call String Int))
    (hord : (calls.map Call.time).Pairwise (· ≤ ·)) :
    (∀ pre c post, calls = pre ++ c :: post →
      (((after max window pre).allowInPlace c.key c.time).2 = true ↔
        ((admittedTimes (log max window pre) c.key).filter
          fun t => c.time - window < t).length < max)) ∧
    (∀ key, (log max window calls).filter (fun e => e.key = key) =
      log max window (calls.filter fun c => c.key = key)) ∧
    (∀ pre c post, calls = pre ++ c :: post →
      ((after max window pre).allowInPlace c.key c.time).2 = false →
        ∃ later, log max window calls = log max window pre ++ ⟨c, false⟩ :: later ∧
          log max window (pre ++ post) = log max window pre ++ later) ∧
    ∀ key t,
      ((admittedTimes (log max window calls) key).filter
        fun a => t ≤ a ∧ a < t + window).length ≤ max ∧
      ((admittedTimes (log max window calls) key).filter
        fun a => t - window < a ∧ a ≤ t).length ≤ max := by
  have hrule : ∀ pre c post, calls = pre ++ c :: post →
      ((after max window pre).allowInPlace c.key c.time).2 =
        decide (admits max window (log max window pre) c) := by
    intro pre c post heq
    obtain ⟨hpre, hle, -⟩ := ordered_of_eq hord heq
    have htracks : (after max window pre).Tracks (log max window pre) c.time :=
      tracks_after hpre hle
    have hans := htracks.allow_snd le_rfl
    rw [allowInPlace_eq, hans]
    simp [after, newRateLimiter]
  refine ⟨?_, ?_, ?_, ?_⟩
  · intro pre c post heq
    rw [hrule pre c post heq, decide_eq_true_iff, admits]
  · intro key
    have hpart : ((calls.filter fun c => c.key = key).map Call.time).Pairwise (· ≤ ·) :=
      hord.sublist (List.filter_sublist.map _)
    rw [log_eq_entries hord, log_eq_entries hpart, entries_filter]
  · -- a denied call adds an entry that no later window counts
    intro pre c post heq hden
    obtain ⟨hpre, -, hwithout⟩ := ordered_of_eq hord heq
    rw [hrule pre c post heq, decide_eq_false_iff_not, log_eq_entries hpre] at hden
    refine ⟨entries max window (entries max window [] pre) post, ?_, ?_⟩
    · have hentry : entry max window (entries max window [] pre) c = ⟨c, false⟩ := by
        simp [entry, hden]
      rw [log_eq_entries hord, log_eq_entries hpre, heq, entries_append, entries,
        List.nil_append, entries_concat_of_not_admits hden, hentry]
    · rw [log_eq_entries hwithout, log_eq_entries hpre, entries_append, List.nil_append]
  · intro key t
    rw [log_eq_entries hord]
    exact ⟨length_admitted_Ico_le key t, length_admitted_Ioc_le key t⟩

/-- One address, let through at most twice in 10 units of time, and another in between. -/
def demoCalls : List (Call String Int) :=
  [⟨"10.0.0.1", 0⟩, ⟨"10.0.0.1", 4⟩, ⟨"10.0.0.2", 5⟩, ⟨"10.0.0.1", 9⟩, ⟨"10.0.0.1", 10⟩]

theorem allow_sliding_window_demo :
    (∀ pre c post, demoCalls = pre ++ c :: post →
      (((after 2 10 pre).allowInPlace c.key c.time).2 = true ↔
        ((admittedTimes (log 2 10 pre) c.key).filter fun t => c.time - 10 < t).length < 2)) ∧
    ((log 2 10 demoCalls).map Entry.admitted = [true, true, true, false, true] ∧
      (log 2 10 demoCalls).filter (fun e => e.key = "10.0.0.2") = log 2 10 [⟨"10.0.0.2", 5⟩]) :=
  have h := allow_sliding_window 2 10 demoCalls (by decide)
  ⟨h.1, by decide, h.2.1 "10.0.0.2"⟩

/-! ### Which clients it knows -/

/-- The limiter knows the clients that called. -/
theorem hits_runOut_isSome_iff (rl : RateLimiter) (calls : List (Call String Int)) (key : String) :
    ((runOut answer rl calls).1.hits key).isSome ↔
      (rl.hits key).isSome ∨ ∃ c ∈ calls, c.key = key := by
  induction calls generalizing rl with
  | nil => simp
  | cons c cs ih =>
    have hstep : ((answer rl c).1.hits key).isSome ↔ (rl.hits key).isSome ∨ c.key = key := by
      rw [answer, allowInPlace_eq]
      by_cases hkey : c.key = key
      · subst hkey
        simp only [allow]
        split <;> simp
      · have hsame : (rl.allow c.key c.time).1.hits key = rl.hits key := by
          simp only [allow]
          split <;> exact Function.update_of_ne (Ne.symm hkey) _ _
        simp [hsame, hkey]
    rw [runOut_cons_fst, ih, hstep, or_assoc]
    simp

/-- The limiter has an attempt of `key` in the window that ends at `now`. -/
def Recent (rl : RateLimiter) (now : Int) (key : String) : Prop :=
  ∃ t ∈ (rl.hits key).getD [], now - rl.window < t

theorem Tracks.recent_iff (h : rl.Tracks past now) (key : String) :
    rl.Recent now key ↔ ∃ t ∈ admittedTimes past key, now - rl.window < t := by
  have hmem := congrArg (fun times => ∃ t, t ∈ times) (h key (now - rl.window) le_rfl)
  simpa [Recent] using hmem

/-- Every client the limiter knows has a recent attempt, so that it knows no more clients than
called within the window. -/
def KeysRecent (max : Nat) (window : Int) (pre : List (Call String Int)) (c : Call String Int) :
    Prop :=
  (∀ key, ((after max window (pre ++ [c])).hits key).isSome →
    (after max window (pre ++ [c])).Recent c.time key) ∧
  Set.encard {key | ((after max window (pre ++ [c])).hits key).isSome} ≤
    Set.encard {key | ∃ d ∈ pre ++ [c], d.key = key ∧ c.time - window < d.time}

/-- Every other client that called before had a call admitted, by the rule, in the window that
ends with this one. -/
def NoneQuiet (max : Nat) (window : Int) (pre : List (Call String Int)) (c : Call String Int) :
    Prop :=
  ∀ d ∈ pre, d.key ≠ c.key →
    ∃ t ∈ admittedTimes (entries max window [] pre) d.key, c.time - window < t

theorem keysRecent_iff_noneQuiet {pre : List (Call String Int)} (hmax : 0 < max)
    (hwindow : 0 < window) (hord : ((pre ++ [c]).map Call.time).Pairwise (· ≤ ·)) :
    KeysRecent max window pre c ↔ NoneQuiet max window pre c := by
  have hle : ∀ d ∈ pre ++ [c], d.time ≤ c.time := by
    intro d hd
    rcases List.mem_append.mp hd with hd | hd
    · exact (ordered_of_eq hord rfl).2.1 d hd
    · exact (List.mem_singleton.mp hd) ▸ le_rfl
  have hwin : (after max window (pre ++ [c])).window = window := by simp [after, newRateLimiter]
  have hrecent : ∀ key, (after max window (pre ++ [c])).Recent c.time key ↔
      ∃ t ∈ admittedTimes (entries max window [] (pre ++ [c])) key, c.time - window < t := by
    intro key
    rw [(tracks_after hord hle).recent_iff key, hwin, log_eq_entries hord]
  have hknown : ∀ key, ((after max window (pre ++ [c])).hits key).isSome ↔
      ∃ d ∈ pre ++ [c], d.key = key := by
    intro key
    simp [after, hits_runOut_isSome_iff, newRateLimiter]
  have hother : ∀ key, key ≠ c.key → admittedTimes (entries max window [] (pre ++ [c])) key =
      admittedTimes (entries max window [] pre) key := by
    intro key hkey
    simp [admittedTimes_entries_concat, Ne.symm hkey]
  -- the client of this call: either it is let through now, or others of its calls were
  have hown : ∃ t ∈ admittedTimes (entries max window [] (pre ++ [c])) c.key,
      c.time - window < t := by
    simpa [entries_append, entries] using exists_admittedTimes_of_entry hmax hwindow c
  constructor
  · -- a client that called is known, and its recent call cannot be this one
    intro h d hd hne
    have hrec := (hrecent d.key).mp (h.1 d.key ((hknown d.key).mpr ⟨d, by simp [hd], rfl⟩))
    rwa [hother d.key hne] at hrec
  · intro h
    have hall : ∀ key, ((after max window (pre ++ [c])).hits key).isSome →
        ∃ t ∈ admittedTimes (entries max window [] (pre ++ [c])) key, c.time - window < t := by
      intro key hkey
      obtain ⟨d, hd, rfl⟩ := (hknown key).mp hkey
      by_cases hne : d.key = c.key
      · rw [hne]
        exact hown
      · have hpre : d ∈ pre := by
          rcases List.mem_append.mp hd with hd | hd
          · exact hd
          · exact absurd (List.mem_singleton.mp hd ▸ rfl) hne
        rw [hother d.key hne]
        exact h d hpre hne
    refine ⟨fun key hkey => (hrecent key).mpr (hall key hkey), Set.encard_le_encard ?_⟩
    -- every known client is one of the callers of the last window
    intro key hkey
    obtain ⟨t, ht, hin⟩ := hall key hkey
    obtain ⟨e, he, -, rfl, rfl⟩ := exists_of_mem_admittedTimes ht
    exact ⟨e.toCall, toCall_mem_of_mem_entries he, rfl, hin⟩

/-- With the limits of sign-in: one address tries once, another a quarter of an hour and a minute
later, and the limiter still has the first, whose only attempt has left the window. -/
theorem not_keysRecent_quiet_client :
    ¬ KeysRecent 10 (900 * Rfc3339.oneSecond) [⟨"198.51.100.7", 0⟩]
      ⟨"203.0.113.9", 960 * Rfc3339.oneSecond⟩ := by
  rintro ⟨hrecent, -⟩
  obtain ⟨t, ht, hin⟩ := hrecent "198.51.100.7" (by decide)
  have hkept : ((after 10 (900 * Rfc3339.oneSecond) ([⟨"198.51.100.7", 0⟩] ++
      [⟨"203.0.113.9", 960 * Rfc3339.oneSecond⟩])).hits "198.51.100.7").getD [] = [0] := by decide
  rw [hkept, List.mem_singleton] at ht
  subst ht
  exact absurd hin (by decide)

/-- Whether every client the limiter knows is a recent one, throughout a list of calls in order
of time: it is exactly when at every call no other client that called before has gone without an
admitted call for a window. -/
theorem keys_recent_iff (max : Nat) (window : Int) (calls : List (Call String Int))
    (hmax : 1 ≤ max) (hwindow : 0 < window)
    (hord : (calls.map Call.time).Pairwise (· ≤ ·)) :
    (∀ pre c, pre ++ [c] <+: calls → KeysRecent max window pre c) ↔
      ∀ pre c, pre ++ [c] <+: calls → NoneQuiet max window pre c := by
  have hiff : ∀ pre c, pre ++ [c] <+: calls →
      (KeysRecent max window pre c ↔ NoneQuiet max window pre c) := fun pre c hpre =>
    keysRecent_iff_noneQuiet hmax hwindow (hord.sublist (hpre.sublist.map _))
  exact ⟨fun h pre c hpre => (hiff pre c hpre).mp (h pre c hpre),
    fun h pre c hpre => (hiff pre c hpre).mpr (h pre c hpre)⟩

theorem keys_recent_iff_demo :
    (∀ pre c, pre ++ [c] <+: demoCalls → KeysRecent 2 10 pre c) ↔
      ∀ pre c, pre ++ [c] <+: demoCalls → NoneQuiet 2 10 pre c :=
  keys_recent_iff 2 10 demoCalls (by decide) (by decide) (by decide)

end FromTheStart

end RateLimiter

end CertGuard
